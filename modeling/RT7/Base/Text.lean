import RT7.Base.Bytes
import Mathlib.Data.List.DropRight

/-!
# Texts cut at a character and put together again

* `split c s`, `join c l`   `s.split(c)` and `c.join(l)` for a separator of one character;
* `join_split`      joining the pieces gives the text back, for every text;
* `split_join`      splitting gives the pieces back, when none of them holds the separator;
* `mem_join`        the characters of a joined text;
* `isspace`         `str.isspace` of one character;
* `Ascii`, `encodeAscii`, `decodeAscii`   texts that are written with `encoding="ascii"`;
* `words`, `strip`  `s.split()` and `s.strip()`, with `words_append` and `words_strip`;
* `readLines`       the lines of a text, as a line reader delivers them; `readLines_join` reads
  back what was written one line after the other.
-/

namespace RT7.Text

def split (c : Char) (s : String) : List String := (s.toList.splitOn c).map String.ofList

def join (c : Char) (l : List String) : String :=
  String.ofList ([c].intercalate (l.map String.toList))

variable {c d : Char} {s t : String} {l : List String}

theorem toList_join (c : Char) (l : List String) :
    (join c l).toList = [c].intercalate (l.map String.toList) := String.toList_ofList

theorem map_toList_split (c : Char) (s : String) :
    (split c s).map String.toList = s.toList.splitOn c := by
  rw [split, List.map_map]
  refine Eq.trans (List.map_congr_left fun x _ => ?_) (List.map_id _)
  exact String.toList_ofList

/-- **Joining undoes splitting.** -/
theorem join_split (c : Char) (s : String) : join c (split c s) = s := by
  rw [← String.toList_inj, toList_join, map_toList_split]
  exact List.intercalate_splitOn c

/-- **Splitting undoes joining**, when the separator is in none of the pieces. -/
theorem split_join (hl : l ≠ []) (h : ∀ s ∈ l, c ∉ s.toList) : split c (join c l) = l := by
  have hne : l.map String.toList ≠ [] := by
    intro e
    exact hl (List.map_eq_nil_iff.mp e)
  have hsep : ∀ x ∈ l.map String.toList, c ∉ x := by
    intro x hx
    obtain ⟨s, hs, rfl⟩ := List.mem_map.mp hx
    exact h s hs
  rw [split, toList_join, List.splitOn_intercalate c hsep hne, List.map_map]
  refine Eq.trans (List.map_congr_left fun x _ => ?_) (List.map_id _)
  exact String.ofList_toList

theorem split_ne_nil (c : Char) (s : String) : split c s ≠ [] := by
  intro h
  exact List.splitOn_ne_nil c s.toList (List.map_eq_nil_iff.mp h)

/-! ## the characters of a joined text -/

theorem join_nil (c : Char) : join c [] = "" := rfl

theorem join_singleton (c : Char) (s : String) : join c [s] = s := by
  rw [← String.toList_inj, toList_join, List.map_cons, List.map_nil, List.intercalate_singleton]

theorem toList_join_cons_cons (c : Char) (s t : String) (l : List String) :
    (join c (s :: t :: l)).toList = s.toList ++ c :: (join c (t :: l)).toList := by
  rw [toList_join, toList_join, List.map_cons, List.map_cons, List.intercalate_cons_cons,
    List.append_assoc]
  rfl

theorem join_cons_cons (c : Char) (s t : String) (l : List String) :
    join c (s :: t :: l) = s ++ String.singleton c ++ join c (t :: l) := by
  rw [← String.toList_inj, toList_join_cons_cons, String.toList_append, String.toList_append,
    String.toList_singleton, List.append_assoc]
  rfl

theorem join_append {l m : List String} (hl : l ≠ []) (hm : m ≠ []) :
    join c (l ++ m) = join c l ++ String.singleton c ++ join c m := by
  induction l with
  | nil => exact absurd rfl hl
  | cons s l ih =>
    cases l with
    | nil =>
      obtain ⟨t, m, rfl⟩ := List.exists_cons_of_ne_nil hm
      rw [List.singleton_append, join_cons_cons, join_singleton]
    | cons t l =>
      have e := ih (List.cons_ne_nil t l)
      rw [List.cons_append, List.cons_append, join_cons_cons, ← List.cons_append, e, join_cons_cons,
        String.append_assoc, String.append_assoc, String.append_assoc, String.append_assoc,
        String.append_assoc]

/-- the last piece stands after the separator -/
theorem join_concat (c : Char) (hl : l ≠ []) (s : String) :
    join c (l ++ [s]) = join c l ++ String.singleton c ++ s := by
  rw [join_append hl (List.cons_ne_nil s []), join_singleton]

theorem mem_join : d ∈ (join c l).toList ↔ (∃ s ∈ l, d ∈ s.toList) ∨ (d = c ∧ 2 ≤ l.length) := by
  induction l with
  | nil => simp [join_nil]
  | cons x l ih =>
    cases l with
    | nil => simp [join_singleton]
    | cons y l =>
      rw [toList_join_cons_cons, List.mem_append, List.mem_cons, ih]
      constructor
      · rintro (h | rfl | ⟨s, hs, h⟩ | ⟨rfl, -⟩)
        · exact .inl ⟨x, List.mem_cons_self, h⟩
        · exact .inr ⟨rfl, by simp⟩
        · exact .inl ⟨s, List.mem_cons_of_mem x hs, h⟩
        · exact .inr ⟨rfl, by simp⟩
      · rintro (⟨s, hs, h⟩ | ⟨rfl, -⟩)
        · cases hs with
          | head => exact .inl h
          | tail _ hs => exact .inr (.inr (.inl ⟨s, hs, h⟩))
        · exact .inr (.inl rfl)

theorem not_mem_of_mem_splitOn {xs x : List Char} (h : x ∈ xs.splitOn c) : c ∉ x := by
  induction xs generalizing x with
  | nil =>
    rw [List.splitOn_nil, List.mem_singleton] at h
    subst h
    exact List.not_mem_nil
  | cons a xs ih =>
    rw [List.splitOn_cons_eq_if_modifyHead] at h
    by_cases ha : a = c
    · rw [if_pos (beq_iff_eq.mpr ha)] at h
      cases h with
      | head => exact List.not_mem_nil
      | tail _ h => exact ih h
    · rw [if_neg (by rwa [beq_iff_eq])] at h
      cases hs : xs.splitOn c with
      | nil => exact absurd hs (List.splitOn_ne_nil c xs)
      | cons y ys =>
        rw [hs] at h ih
        cases h with
        | head =>
          intro hc
          cases hc with
          | head => exact ha rfl
          | tail _ hc => exact ih List.mem_cons_self hc
        | tail _ h => exact ih (List.mem_cons_of_mem y h)

/-- no piece of a split text holds the separator -/
theorem not_mem_of_mem_split (h : t ∈ split c s) : c ∉ t.toList := by
  obtain ⟨x, hx, rfl⟩ := List.mem_map.mp h
  rw [String.toList_ofList]
  exact not_mem_of_mem_splitOn hx

theorem split_append (c : Char) (s t : String) :
    split c (s ++ String.singleton c ++ t) = split c s ++ split c t := by
  have e : join c (split c s ++ split c t) = s ++ String.singleton c ++ t := by
    rw [join_append (split_ne_nil c s) (split_ne_nil c t), join_split, join_split]
  rw [← e, split_join]
  · exact List.append_ne_nil_of_left_ne_nil (split_ne_nil c s) _
  · intro piece hp
    cases List.mem_append.mp hp with
    | inl hp => exact not_mem_of_mem_split hp
    | inr hp => exact not_mem_of_mem_split hp

theorem mem_of_mem_split (h : t ∈ split c s) (hd : d ∈ t.toList) : d ∈ s.toList := by
  rw [← join_split c s, mem_join]
  exact .inl ⟨t, h, hd⟩

theorem forall_append {P : Char → Prop} (hs : ∀ c ∈ s.toList, P c) (ht : ∀ c ∈ t.toList, P c) :
    ∀ c ∈ (s ++ t).toList, P c := by
  rw [String.toList_append]
  exact List.forall_mem_append.mpr ⟨hs, ht⟩

/-- `character.isspace()` -/
def isspace (c : Char) : Bool :=
  let n := c.toNat
  (9 ≤ n && n ≤ 13) || (28 ≤ n && n ≤ 32) || n == 0x85 || n == 0xA0 || n == 0x1680 ||
    (0x2000 ≤ n && n ≤ 0x200A) || n == 0x2028 || n == 0x2029 || n == 0x202F || n == 0x205F ||
    n == 0x3000

/-! ## words -/

/-- the runs of characters between whitespace -/
def wordsOf (cs : List Char) : List (List Char) := (cs.splitOnP isspace).filter fun w => w ≠ []

/-- `s.split()` -/
def words (s : String) : List String := (wordsOf s.toList).map String.ofList

/-- `s.strip()` -/
def strip (s : String) : String :=
  String.ofList ((s.toList.dropWhile isspace).rdropWhile isspace)

theorem wordsOf_nil : wordsOf [] = [] := rfl

/-- a whitespace character ends a word -/
theorem wordsOf_append_cons (xs ys : List Char) (h : isspace c) :
    wordsOf (xs ++ c :: ys) = wordsOf xs ++ wordsOf ys := by
  rw [wordsOf, List.splitOnP_append_cons xs ys h, List.filter_append]
  rfl

theorem wordsOf_dropWhile (xs : List Char) : wordsOf (xs.dropWhile isspace) = wordsOf xs := by
  induction xs with
  | nil => rfl
  | cons c xs ih =>
    by_cases h : isspace c
    · have e := wordsOf_append_cons [] xs h
      rw [wordsOf_nil, List.nil_append, List.nil_append] at e
      rw [List.dropWhile_cons_of_pos h, ih, e]
    · rw [List.dropWhile_cons_of_neg h]

theorem wordsOf_rdropWhile (xs : List Char) : wordsOf (xs.rdropWhile isspace) = wordsOf xs := by
  induction xs using List.reverseRecOn with
  | nil => rw [List.rdropWhile_nil]
  | append_singleton xs c ih =>
    by_cases h : isspace c
    · rw [List.rdropWhile_concat_pos isspace xs c h, ih, wordsOf_append_cons xs [] h, wordsOf_nil,
        List.append_nil]
    · rw [List.rdropWhile_concat_neg isspace xs c h]

/-- whitespace at the ends is in no word -/
theorem words_strip (s : String) : words (strip s) = words s := by
  rw [words, strip, String.toList_ofList, wordsOf_rdropWhile, wordsOf_dropWhile, words]

/-- **A blank between two texts puts their words side by side.** -/
theorem words_append (s t : String) : words (s ++ " " ++ t) = words s ++ words t := by
  have hspace : isspace ' ' := by decide
  have e : (s ++ " " ++ t).toList = s.toList ++ ' ' :: t.toList := by
    rw [String.toList_append, String.toList_append, List.append_assoc]
    rfl
  rw [words, e, wordsOf_append_cons _ _ hspace, List.map_append, words, words]

/-! ## ASCII -/

def Ascii (s : String) : Prop := ∀ c ∈ s.toList, c.toNat < 128

instance (s : String) : Decidable (Ascii s) := List.decidableBAll _ s.toList

def asciiBytes (s : String) : Bytes := s.toList.map fun c => UInt8.ofNat c.toNat

/-- `text.encode("ascii")` -/
def encodeAscii (s : String) : Except Py.Exn Bytes :=
  if Ascii s then .ok (asciiBytes s) else .error .unicodeEncodeError

/-- The text of a file that holds ASCII. -/
def decodeAscii (b : Bytes) : String := String.ofList (b.map fun x => Char.ofNat x.toNat)

theorem encodeAscii_of_ascii (h : Ascii s) : encodeAscii s = .ok (asciiBytes s) := if_pos h

theorem decodeAscii_asciiBytes (h : Ascii s) : decodeAscii (asciiBytes s) = s := by
  rw [← String.toList_inj, decodeAscii, asciiBytes, String.toList_ofList, List.map_map]
  refine Eq.trans (List.map_congr_left fun c hc => ?_) (List.map_id _)
  have hlt : c.toNat < 256 := Nat.lt_trans (h c hc) (by decide)
  show Char.ofNat (UInt8.ofNat c.toNat).toNat = c
  rw [UInt8.toNat_ofNat', Nat.mod_eq_of_lt hlt]
  exact Char.ofNat_toNat c

theorem ascii_append : Ascii (s ++ t) ↔ Ascii s ∧ Ascii t := by
  unfold Ascii
  rw [String.toList_append]
  exact List.forall_mem_append

theorem Ascii.append (hs : Ascii s) (ht : Ascii t) : Ascii (s ++ t) := ascii_append.mpr ⟨hs, ht⟩

theorem ascii_ofList {cs : List Char} : Ascii (String.ofList cs) ↔ ∀ c ∈ cs, c.toNat < 128 := by
  unfold Ascii
  rw [String.toList_ofList]

/-! ## lines -/

/-- A line ends at `\n`, `\r` or `\r\n`, or at the end of the text; `line` is the part of the current
line that was read, backwards. -/
def readLinesFrom : List Char → List Char → List String
  | [], [] => []
  | line@(_ :: _), [] => [String.ofList line.reverse]
  | line, '\r' :: '\n' :: rest => String.ofList line.reverse :: readLinesFrom [] rest
  | line, '\r' :: rest => String.ofList line.reverse :: readLinesFrom [] rest
  | line, '\n' :: rest => String.ofList line.reverse :: readLinesFrom [] rest
  | line, c :: rest => readLinesFrom (c :: line) rest

def readLines (s : String) : List String := readLinesFrom [] s.toList

/-- No character ends a line. -/
def OneLine (s : String) : Prop := ∀ c ∈ s.toList, c ≠ '\n' ∧ c ≠ '\r'

instance (s : String) : Decidable (OneLine s) := List.decidableBAll _ s.toList

theorem OneLine.append (hs : OneLine s) (ht : OneLine t) : OneLine (s ++ t) := forall_append hs ht

theorem readLinesFrom_cons {line rest : List Char} (h : c ≠ '\n' ∧ c ≠ '\r') :
    readLinesFrom line (c :: rest) = readLinesFrom (c :: line) rest := by
  rw [readLinesFrom]
  · intro rest' e
    exact absurd e h.2
  · exact h.2
  · exact h.1

theorem readLinesFrom_append {cs : List Char} (h : ∀ c ∈ cs, c ≠ '\n' ∧ c ≠ '\r')
    (line rest : List Char) :
    readLinesFrom line (cs ++ rest) = readLinesFrom (cs.reverse ++ line) rest := by
  induction cs generalizing line with
  | nil => rfl
  | cons c cs ih =>
    rw [List.cons_append, readLinesFrom_cons (h c List.mem_cons_self),
      ih (fun d hd => h d (List.mem_cons_of_mem c hd)), List.reverse_cons, List.append_assoc]
    rfl

/-- the first line is read, then the others -/
theorem readLines_line (h : OneLine s) (t : String) : readLines (s ++ "\n" ++ t) = s :: readLines t := by
  have e : (s ++ "\n" ++ t).toList = s.toList ++ '\n' :: t.toList := by
    rw [String.toList_append, String.toList_append, List.append_assoc]
    rfl
  rw [readLines, e, readLinesFrom_append h, List.append_nil, readLinesFrom, List.reverse_reverse,
    String.ofList_toList, readLines]

/-- **Lines written one after the other are read back.** -/
theorem readLines_join (h : ∀ s ∈ l, OneLine s) :
    readLines (String.join (l.map fun s => s ++ "\n")) = l := by
  induction l with
  | nil => rfl
  | cons s l ih =>
    obtain ⟨hs, hl⟩ := List.forall_mem_cons.mp h
    rw [List.map_cons, String.join_cons, readLines_line hs, ih hl]

/-- the lines that are read hold no line end -/
theorem oneLine_of_mem_readLines (h : t ∈ readLines s) : OneLine t := by
  have hline : ∀ line : List Char, (∀ c ∈ line, c ≠ '\n' ∧ c ≠ '\r') →
      OneLine (String.ofList line.reverse) := by
    intro line h c hc
    rw [String.toList_ofList, List.mem_reverse] at hc
    exact h c hc
  have key : ∀ line cs : List Char, (∀ c ∈ line, c ≠ '\n' ∧ c ≠ '\r') →
      ∀ t ∈ readLinesFrom line cs, OneLine t := by
    intro line cs
    fun_induction readLinesFrom line cs with
    | case1 => exact fun _ => List.forall_mem_nil _
    | case2 c line => exact fun h => List.forall_mem_singleton.mpr (hline (c :: line) h)
    | case3 line rest ih =>
      exact fun h => List.forall_mem_cons.mpr ⟨hline line h, ih (List.forall_mem_nil _)⟩
    | case4 line rest _ ih =>
      exact fun h => List.forall_mem_cons.mpr ⟨hline line h, ih (List.forall_mem_nil _)⟩
    | case5 line rest ih =>
      exact fun h => List.forall_mem_cons.mpr ⟨hline line h, ih (List.forall_mem_nil _)⟩
    | case6 line c rest _ hr hn ih =>
      exact fun h => ih (List.forall_mem_cons.mpr ⟨⟨hn, hr⟩, h⟩)
  exact key [] s.toList (List.forall_mem_nil _) t h

/-- a text of lines, with a line end after the last one -/
theorem join_lines (hl : l ≠ []) :
    join '\n' l ++ "\n" = String.join (l.map fun s => s ++ "\n") := by
  induction l with
  | nil => exact absurd rfl hl
  | cons s l ih =>
    cases l with
    | nil => rw [join_singleton, List.map_singleton, String.join_cons, String.join_nil,
        String.append_empty]
    | cons t l =>
      rw [join_cons_cons, List.map_cons, String.join_cons, ← ih (List.cons_ne_nil t l),
        String.append_assoc]
      rfl

theorem ascii_join_lines (h : ∀ s ∈ l, Ascii s) :
    Ascii (String.join (l.map fun s => s ++ "\n")) := by
  induction l with
  | nil =>
    show Ascii ""
    decide
  | cons s l ih =>
    obtain ⟨hs, hl⟩ := List.forall_mem_cons.mp h
    have hend : Ascii "\n" := by decide
    rw [List.map_cons, String.join_cons]
    exact (hs.append hend).append (ih hl)

end RT7.Text
