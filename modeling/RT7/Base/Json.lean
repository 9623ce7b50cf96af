import RT7.Base.Text
import RT7.Base.Python

/-!
# JSON documents and their text

* `Json`            a document; a number that is not an integer is kept as its ASCII literal;
* `dumps`           `json.dumps(document, indent=2, sort_keys=True)`;
* `ascii_dumps`     the text is ASCII, whatever the strings of the document hold;
* `sortKeys`        the document with the members of its objects in the order of the text.
-/

namespace RT7

open Text

inductive Json where
  | null
  | bool (b : Bool)
  | num (n : Int)
  | real (literal : { s : String // Ascii s })
  | str (s : String)
  | arr (items : List Json)
  | obj (members : List (String × Json))

namespace Json

/-- the four lower-case hexadecimal digits of a UTF-16 code unit -/
def hex4 (n : Nat) : List Char :=
  [hexDigit (n / 0x1000 % 16), hexDigit (n / 0x100 % 16), hexDigit (n / 0x10 % 16), hexDigit (n % 16)]

def escapeUnit (n : Nat) : List Char := '\\' :: 'u' :: hex4 n

/-- one character inside a quoted string; what is not printable ASCII is written as code units -/
def escapeChar (c : Char) : List Char :=
  let n := c.toNat
  if c = '"' then ['\\', '"']
  else if c = '\\' then ['\\', '\\']
  else if n = 8 then ['\\', 'b']
  else if n = 9 then ['\\', 't']
  else if n = 10 then ['\\', 'n']
  else if n = 12 then ['\\', 'f']
  else if n = 13 then ['\\', 'r']
  else if 32 ≤ n ∧ n ≤ 126 then [c]
  else if n < 0x10000 then escapeUnit n
  else escapeUnit (0xD800 + (n - 0x10000) / 0x400) ++ escapeUnit (0xDC00 + (n - 0x10000) % 0x400)

def quote (s : String) : String := String.ofList ('"' :: s.toList.flatMap escapeChar ++ ['"'])

/-- the line break in front of an item at the given depth -/
def newline (level : Nat) : String := String.ofList ('\n' :: List.replicate (2 * level) ' ')

/-- the items of a container between its brackets -/
def enclose (level : Nat) (opening closing : String) (items : List String) : String :=
  if items = [] then opening ++ closing
  else opening ++ newline (level + 1) ++ String.intercalate ("," ++ newline (level + 1)) items ++
    newline level ++ closing

mutual

def dumpsAt (level : Nat) : Json → String
  | .null => "null"
  | .bool true => "true"
  | .bool false => "false"
  | .num n => toString n
  | .real literal => literal.val
  | .str s => quote s
  | .arr items => enclose level "[" "]" (dumpsList (level + 1) items)
  | .obj members =>
    let sorted := (dumpsMembers (level + 1) members).mergeSort fun a b => decide (a.1 ≤ b.1)
    enclose level "\x7b" "\x7d" (sorted.map fun m => quote m.1 ++ ": " ++ m.2)

def dumpsList (level : Nat) : List Json → List String
  | [] => []
  | item :: items => dumpsAt level item :: dumpsList level items

def dumpsMembers (level : Nat) : List (String × Json) → List (String × String)
  | [] => []
  | member :: members => dumpsMember level member :: dumpsMembers level members

def dumpsMember (level : Nat) : String × Json → String × String
  | (key, value) => (key, dumpsAt level value)

end

def dumps (document : Json) : String := dumpsAt 0 document

/-! ## the text is ASCII -/

theorem hexDigit_lt (n : Nat) : (hexDigit (n % 16)).toNat < 128 := by
  have all : ∀ d < 16, (hexDigit d).toNat < 128 := by decide
  exact all (n % 16) (Nat.mod_lt n (by decide))

theorem escapeUnit_lt {n : Nat} : ∀ c ∈ escapeUnit n, c.toNat < 128 := by
  intro c hc
  simp only [escapeUnit, hex4, List.mem_cons, List.not_mem_nil, or_false] at hc
  rcases hc with rfl | rfl | rfl | rfl | rfl | rfl
  · decide
  · decide
  · exact hexDigit_lt _
  · exact hexDigit_lt _
  · exact hexDigit_lt _
  · exact hexDigit_lt _

theorem escapeChar_lt (c : Char) : ∀ d ∈ escapeChar c, d.toNat < 128 := by
  have short (e : Char) (he : e.toNat < 128) : ∀ d ∈ ['\\', e], d.toNat < 128 := by
    intro d hd
    cases hd with
    | head => decide
    | tail _ hd => exact List.mem_singleton.mp hd ▸ he
  unfold escapeChar
  dsimp only
  split_ifs with h1 h2 h3 h4 h5 h6 h7 h8 h9
  · exact short '"' (by decide)
  · exact short '\\' (by decide)
  · exact short 'b' (by decide)
  · exact short 't' (by decide)
  · exact short 'n' (by decide)
  · exact short 'f' (by decide)
  · exact short 'r' (by decide)
  · intro d hd
    rw [List.mem_singleton.mp hd]
    omega
  · exact escapeUnit_lt
  · intro d hd
    cases List.mem_append.mp hd with
    | inl hd => exact escapeUnit_lt d hd
    | inr hd => exact escapeUnit_lt d hd

theorem ascii_quote (s : String) : Ascii (quote s) := by
  refine ascii_ofList.mpr ?_
  intro c hc
  cases hc with
  | head => decide
  | tail _ hc => cases List.mem_append.mp hc with
    | inl hc =>
      obtain ⟨d, -, hd⟩ := List.mem_flatMap.mp hc
      exact escapeChar_lt d c hd
    | inr hc =>
      rw [List.mem_singleton.mp hc]
      decide

theorem ascii_newline (level : Nat) : Ascii (newline level) := by
  refine ascii_ofList.mpr ?_
  intro c hc
  cases hc with
  | head => decide
  | tail _ hc =>
    rw [List.eq_of_mem_replicate hc]
    decide

theorem ascii_intercalate {sep : String} {l : List String} (hsep : Ascii sep)
    (h : ∀ s ∈ l, Ascii s) : Ascii (String.intercalate sep l) := by
  cases l with
  | nil => exact fun c hc => absurd hc List.not_mem_nil
  | cons x l =>
    induction l generalizing x with
    | nil => exact h x List.mem_cons_self
    | cons y l ih =>
      rw [String.intercalate_cons_cons]
      refine Ascii.append (Ascii.append (h x List.mem_cons_self) hsep) (ih y ?_)
      intro s hs
      exact h s (List.mem_cons_of_mem x hs)

theorem ascii_enclose {level : Nat} {opening closing : String} {items : List String}
    (ho : Ascii opening) (hc : Ascii closing) (h : ∀ s ∈ items, Ascii s) :
    Ascii (enclose level opening closing items) := by
  have hsep : Ascii ("," ++ newline (level + 1)) := Ascii.append (by decide) (ascii_newline _)
  unfold enclose
  split_ifs with he
  · exact ho.append hc
  · exact (((ho.append (ascii_newline _)).append (ascii_intercalate hsep h)).append
      (ascii_newline _)).append hc

theorem ascii_toString_nat (n : Nat) : Ascii (toString n) := by
  refine ascii_ofList.mpr ?_
  intro c hc
  have hd := Nat.isDigit_of_mem_toDigits (by decide) (by decide) hc
  have hle : c.toNat ≤ 57 := by
    rw [Char.isDigit, Bool.and_eq_true, decide_eq_true_iff, decide_eq_true_iff] at hd
    exact hd.2
  omega

theorem ascii_toString_int (n : Int) : Ascii (toString n) := by
  cases n with
  | ofNat m => exact ascii_toString_nat m
  | negSucc m => exact Ascii.append (by decide) (ascii_toString_nat (m + 1))

mutual

theorem ascii_dumpsAt (level : Nat) : ∀ j : Json, Ascii (dumpsAt level j)
  | .null => by rw [dumpsAt]; decide
  | .bool true => by rw [dumpsAt]; decide
  | .bool false => by rw [dumpsAt]; decide
  | .num n => by rw [dumpsAt]; exact ascii_toString_int n
  | .real literal => by rw [dumpsAt]; exact literal.property
  | .str s => by rw [dumpsAt]; exact ascii_quote s
  | .arr items => by
    rw [dumpsAt]
    exact ascii_enclose (by decide) (by decide) (ascii_dumpsList (level + 1) items)
  | .obj members => by
    rw [dumpsAt]
    refine ascii_enclose (by decide) (by decide) ?_
    intro s hs
    obtain ⟨m, hm, rfl⟩ := List.mem_map.mp hs
    have hmem := (List.mergeSort_perm _ _).mem_iff.mp hm
    refine Ascii.append (Ascii.append (ascii_quote m.1) (by decide)) ?_
    exact ascii_dumpsMembers (level + 1) members m hmem

theorem ascii_dumpsList (level : Nat) : ∀ items : List Json, ∀ s ∈ dumpsList level items, Ascii s
  | [] => fun s hs => absurd hs (by rw [dumpsList]; exact List.not_mem_nil)
  | item :: items => by
    rw [dumpsList]
    intro s hs
    cases hs with
    | head => exact ascii_dumpsAt level item
    | tail _ hs => exact ascii_dumpsList level items s hs

theorem ascii_dumpsMembers (level : Nat) :
    ∀ members : List (String × Json), ∀ m ∈ dumpsMembers level members, Ascii m.2
  | [] => fun m hm => absurd hm (by rw [dumpsMembers]; exact List.not_mem_nil)
  | member :: members => by
    rw [dumpsMembers]
    intro m hm
    cases hm with
    | head => exact ascii_dumpsMember level member
    | tail _ hm => exact ascii_dumpsMembers level members m hm

theorem ascii_dumpsMember (level : Nat) :
    ∀ member : String × Json, Ascii (dumpsMember level member).2
  | (key, value) => by
    rw [dumpsMember]
    exact ascii_dumpsAt level value

end

/-- **The text of a document is ASCII.** -/
theorem ascii_dumps (document : Json) : Ascii (dumps document) := ascii_dumpsAt 0 document

/-! ## the document behind the text -/

mutual

def sortKeys : Json → Json
  | .null => .null
  | .bool b => .bool b
  | .num n => .num n
  | .real literal => .real literal
  | .str s => .str s
  | .arr items => .arr (sortKeysList items)
  | .obj members => .obj ((sortKeysMembers members).mergeSort fun a b => decide (a.1 ≤ b.1))

def sortKeysList : List Json → List Json
  | [] => []
  | item :: items => sortKeys item :: sortKeysList items

def sortKeysMembers : List (String × Json) → List (String × Json)
  | [] => []
  | member :: members => sortKeysMember member :: sortKeysMembers members

def sortKeysMember : String × Json → String × Json
  | (key, value) => (key, sortKeys value)

end

theorem sortKeysMembers_eq (members : List (String × Json)) :
    sortKeysMembers members = members.map fun m => (m.1, sortKeys m.2) := by
  induction members with
  | nil => rfl
  | cons m members ih =>
    obtain ⟨key, value⟩ := m
    rw [sortKeysMembers, ih, List.map_cons, sortKeysMember]

/-- the members, in another order -/
theorem sortKeys_obj (members : List (String × Json)) :
    ∃ sorted, sortKeys (.obj members) = .obj sorted ∧
      sorted.Perm (members.map fun m => (m.1, sortKeys m.2)) := by
  rw [sortKeys, sortKeysMembers_eq]
  exact ⟨_, rfl, List.mergeSort_perm _ _⟩

end Json

end RT7
