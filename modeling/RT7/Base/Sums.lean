import RT7.Base.Sha256
import RT7.Base.Text

/-!
# Lists of checksums, and what a part of one still says

* `line`, `text`    the lines of a list, one for each file, and `sha256sum`, which writes them;
* `entries`, `check`   what `sha256sum -c` reads, and whether it is content;
* `entries_text`    a whole list is read back;
* `entries_torn`    a list that was cut off somewhere, and that still has an entry for every file;
* `check_listed`    what a list that was read says of the files.
-/

namespace RT7.Sums

/-- a digest with the name of a file -/
abbrev Entry := Digest × String

def line (e : Entry) : List Char := e.1.hexdigest.toList ++ ' ' :: ' ' :: e.2.toList

def text (l : List Entry) : List Char := l.flatMap fun e => line e ++ ['\n']

def entriesOf (hash : Bytes → Digest) (files : String → Option Bytes) : List String → Option (List Entry)
  | [] => some []
  | name :: names => do
    let content ← files name
    let rest ← entriesOf hash files names
    some ((hash content, name) :: rest)

/-- `sha256sum names` -/
def sha256sum (hash : Bytes → Digest) (files : String → Option Bytes) (names : List String) :
    Option (List Char) := (entriesOf hash files names).map text

def isHexDigit (c : Char) : Bool :=
  c.isDigit || ('a' ≤ c && c ≤ 'f') || ('A' ≤ c && c ≤ 'F')

/-- A line with its digits in lower case; a line of another form is passed over. -/
def parseLine (cs : List Char) : Option (List Char × String) :=
  match cs.drop 64 with
  | ' ' :: mode :: c :: name =>
    if (cs.take 64).all isHexDigit ∧ (mode = ' ' ∨ mode = '*') then
      some ((cs.take 64).map Char.toLower, String.ofList (c :: name))
    else none
  | _ => none

def entries (cs : List Char) : List (List Char × String) := (cs.splitOn '\n').filterMap parseLine

/-- `sha256sum -c`; a list without any entry is an error. -/
def check (hash : Bytes → Digest) (files : String → Option Bytes) (cs : List Char) : Bool :=
  entries cs ≠ [] ∧ (entries cs).all fun e =>
    (files e.2).any fun content => (hash content).hexdigest.toList = e.1

/-- the name of a file that stands in a line by itself -/
def Plain (name : String) : Prop := name ≠ "" ∧ '\n' ∉ name.toList

instance (name : String) : Decidable (Plain name) := inferInstanceAs (Decidable (_ ∧ _))

variable {e : Entry} {l : List Entry} {p : List Char} {name : String}

theorem hexDigit_plain : ∀ n < 16, isHexDigit (hexDigit n) = true ∧ (hexDigit n).toLower = hexDigit n ∧
    hexDigit n ≠ '\n' := by decide

theorem parseLine_line (h : e.2 ≠ "") : parseLine (line e) = some (e.1.hexdigest.toList, e.2) := by
  have hlen := e.1.length_hexdigest
  obtain ⟨c, cs, hname⟩ := List.exists_cons_of_ne_nil (mt String.toList_eq_nil_iff.mp h)
  have hdrop : (line e).drop 64 = ' ' :: ' ' :: c :: cs := by
    rw [line, ← hlen, List.drop_left, hname]
  have htake : (line e).take 64 = e.1.hexdigest.toList := by rw [line, ← hlen, List.take_left]
  have hall : e.1.hexdigest.toList.all isHexDigit = true := by
    rw [List.all_eq_true]
    intro x hx
    obtain ⟨n, hn, rfl⟩ := Digest.mem_hexdigest hx
    exact (hexDigit_plain n hn).1
  have hlower : e.1.hexdigest.toList.map Char.toLower = e.1.hexdigest.toList := by
    refine Eq.trans (List.map_congr_left fun x hx => ?_) (List.map_id _)
    obtain ⟨n, hn, rfl⟩ := Digest.mem_hexdigest hx
    exact (hexDigit_plain n hn).2.1
  have heq : String.ofList (c :: cs) = e.2 := by rw [← hname, String.ofList_toList]
  rw [parseLine, hdrop]
  show (if _ then _ else none) = _
  rw [htake, if_pos ⟨hall, Or.inl rfl⟩, hlower, heq]

theorem length_of_parseLine {digits : List Char} (h : parseLine p = some (digits, name)) :
    p.length = 66 + name.toList.length := by
  unfold parseLine at h
  split at h
  · next mode c cs hdrop =>
    split at h
    · cases h
      have hlen := congrArg List.length hdrop
      rw [List.length_drop, List.length_cons, List.length_cons, List.length_cons] at hlen
      rw [String.toList_ofList, List.length_cons]
      omega
    · cases h
  · cases h

/-- A line that was cut off has lost some of its name. -/
theorem eq_line_of_parseLine (digits : List Char) (hp : p <+: line e)
    (h : parseLine p = some (digits, e.2)) : p = line e := by
  refine hp.eq_of_length ?_
  rw [length_of_parseLine h, line, List.length_append, e.1.length_hexdigest, List.length_cons,
    List.length_cons]
  omega

theorem not_mem_line (h : Plain e.2) : '\n' ∉ line e := by
  intro hmem
  rcases List.mem_append.mp hmem with hx | hx
  · obtain ⟨n, hn, he⟩ := Digest.mem_hexdigest hx
    exact (hexDigit_plain n hn).2.2 he.symm
  · simp only [List.mem_cons] at hx
    rcases hx with hx | hx | hx
    · exact absurd hx (by decide)
    · exact absurd hx (by decide)
    · exact h.2 hx

theorem entries_single (hp : '\n' ∉ p) : entries p = (parseLine p).toList := by
  rw [entries, List.splitOn_eq_singleton hp]
  cases h : parseLine p with
  | none => exact List.filterMap_cons_none h
  | some x => exact List.filterMap_cons_some h

theorem entries_cons (h : Plain e.2) (cs : List Char) :
    entries (line e ++ '\n' :: cs) = (e.1.hexdigest.toList, e.2) :: entries cs := by
  rw [entries, List.splitOn_append_cons_self_of_not_mem (not_mem_line h),
    List.filterMap_cons_some (parseLine_line h.1)]
  rfl

def listed (l : List Entry) : List (List Char × String) := l.map fun e => (e.1.hexdigest.toList, e.2)

theorem text_cons (e : Entry) (l : List Entry) : text (e :: l) = line e ++ '\n' :: text l := by
  rw [text, List.flatMap_cons, List.append_assoc]
  rfl

/-- **A list is read back.** -/
theorem entries_text (h : ∀ e ∈ l, Plain e.2) : entries (text l) = listed l := by
  induction l with
  | nil => rfl
  | cons e l ih =>
    rw [text_cons, entries_cons (h e List.mem_cons_self), ih fun x hx => h x (List.mem_cons_of_mem e hx)]
    rfl

theorem prefix_line_cons {cs : List Char} (h : p <+: line e ++ '\n' :: cs) :
    p <+: line e ∨ ∃ p', p = line e ++ '\n' :: p' ∧ p' <+: cs := by
  rcases List.prefix_or_prefix_of_prefix h (List.prefix_append (line e) _) with hshort | ⟨r, rfl⟩
  · exact Or.inl hshort
  · cases r with
    | nil => exact Or.inl ⟨[], by rw [List.append_nil, List.append_nil]⟩
    | cons c r =>
      obtain ⟨rfl, hr⟩ := List.cons_prefix_cons.mp ((List.prefix_append_right_inj _).mp h)
      exact Or.inr ⟨r, rfl, hr⟩

/-- **A list that was cut off** and still has an entry for every file says what it was to say. -/
theorem entries_torn (hplain : ∀ e ∈ l, Plain e.2) (hnodup : (l.map Prod.snd).Nodup)
    (hp : p <+: text l) (hall : ∀ e ∈ l, e.2 ∈ (entries p).map Prod.snd) : entries p = listed l := by
  induction l generalizing p with
  | nil =>
    rw [List.prefix_nil.mp hp]
    rfl
  | cons e l ih =>
    have he := hplain e List.mem_cons_self
    rw [List.map_cons, List.nodup_cons] at hnodup
    rw [text_cons] at hp
    rcases prefix_line_cons hp with hline | ⟨p', rfl, hp'⟩
    · have hentries : entries p = (parseLine p).toList :=
        entries_single fun hmem => not_mem_line he (hline.subset hmem)
      have hfirst := hall e List.mem_cons_self
      rw [hentries] at hfirst hall ⊢
      cases hparse : parseLine p with
      | none =>
        rw [hparse] at hfirst
        exact absurd hfirst List.not_mem_nil
      | some x =>
        rw [hparse] at hfirst hall
        have hx : e.2 = x.2 := List.mem_singleton.mp hfirst
        have heq : p = line e := eq_line_of_parseLine x.1 hline (by rw [hparse, hx])
        cases l with
        | nil =>
          rw [heq, parseLine_line he.1] at hparse
          rw [← Option.some.inj hparse]
          rfl
        | cons e' l =>
          have hx' : e'.2 = x.2 :=
            List.mem_singleton.mp (hall e' (List.mem_cons_of_mem e List.mem_cons_self))
          rw [hx, ← hx'] at hnodup
          exact absurd List.mem_cons_self hnodup.1
    · rw [entries_cons he] at hall ⊢
      have hrest : entries p' = listed l := by
        refine ih (fun x hx => hplain x (List.mem_cons_of_mem e hx)) hnodup.2 hp' fun x hx => ?_
        refine (List.mem_cons.mp (hall x (List.mem_cons_of_mem e hx))).resolve_left fun heq => ?_
        exact hnodup.1 (heq ▸ List.mem_map_of_mem hx)
      rw [hrest]
      rfl

variable {hash : Bytes → Digest} {files : String → Option Bytes}

theorem check_listed (h : entries p = listed l) (hl : l ≠ []) : check hash files p = true ↔
    ∀ e ∈ l, ∃ content, files e.2 = some content ∧ hash content = e.1 := by
  have hne : listed l ≠ [] := fun h => hl (List.map_eq_nil_iff.mp h)
  rw [check, h, decide_eq_true_iff, and_iff_right hne, List.all_eq_true, listed, List.forall_mem_map]
  refine forall₂_congr fun e _ => ?_
  cases files e.2 with
  | none => exact iff_of_false Bool.false_ne_true fun h => by obtain ⟨_, h, -⟩ := h; cases h
  | some content =>
    show decide ((hash content).hexdigest.toList = e.1.hexdigest.toList) = true ↔ _
    rw [decide_eq_true_iff, String.toList_inj, Digest.hexdigest_injective.eq_iff]
    refine ⟨fun h => ⟨content, rfl, h⟩, fun h => ?_⟩
    obtain ⟨_, h, heq⟩ := h
    cases h
    exact heq

/-! ## lists of files that are there -/

variable {files' : String → Option Bytes} {names : List String}

theorem entriesOf_congr (h : ∀ name ∈ names, files name = files' name) :
    entriesOf hash files names = entriesOf hash files' names := by
  induction names with
  | nil => rfl
  | cons name names ih =>
    rw [entriesOf, entriesOf, h name List.mem_cons_self, ih fun n hn => h n (List.mem_cons_of_mem name hn)]

theorem exists_entriesOf (h : ∀ name ∈ names, ∃ content, files name = some content) :
    ∃ l, entriesOf hash files names = some l := by
  induction names with
  | nil => exact ⟨[], rfl⟩
  | cons name names ih =>
    obtain ⟨content, hcontent⟩ := h name List.mem_cons_self
    obtain ⟨l, hl⟩ := ih fun n hn => h n (List.mem_cons_of_mem name hn)
    refine ⟨(hash content, name) :: l, ?_⟩
    rw [entriesOf, hcontent, hl]
    rfl

theorem of_entriesOf (h : entriesOf hash files names = some l) :
    l.map Prod.snd = names ∧ ∀ e ∈ l, ∃ content, files e.2 = some content ∧ hash content = e.1 := by
  induction names generalizing l with
  | nil =>
    cases h
    exact ⟨rfl, fun e he => absurd he List.not_mem_nil⟩
  | cons name names ih =>
    obtain ⟨content, hcontent, h⟩ := Option.bind_eq_some_iff.mp h
    obtain ⟨rest, hrest, h⟩ := Option.bind_eq_some_iff.mp h
    cases h
    obtain ⟨hnames, hentries⟩ := ih hrest
    refine ⟨by rw [List.map_cons, hnames], fun e he => ?_⟩
    rcases List.mem_cons.mp he with rfl | he
    · exact ⟨content, hcontent, rfl⟩
    · exact hentries e he

theorem ascii_text (h : ∀ e ∈ l, Text.Ascii e.2) : ∀ c ∈ text l, c.toNat < 128 := by
  intro c hc
  obtain ⟨e, he, hc⟩ := List.mem_flatMap.mp hc
  have hdigit : ∀ n < 16, (hexDigit n).toNat < 128 := by decide
  rcases List.mem_append.mp hc with hline | hend
  · rcases List.mem_append.mp hline with hx | hx
    · obtain ⟨n, hn, rfl⟩ := Digest.mem_hexdigest hx
      exact hdigit n hn
    · simp only [List.mem_cons] at hx
      rcases hx with rfl | rfl | hx
      · decide
      · decide
      · exact h e he c hx
  · rw [List.mem_singleton.mp hend]
    decide

end RT7.Sums
