import RT7.Base.Casing
import RT7.Base.Fields

/-!
# Texts and commands of PowerShell

* `Result`          what a command leaves: its exit code and its output;
* `Thrown`         an error that a script throws;
* `Culture`         how texts are compared and converted;
* `trim`, `firstField`, `splitBar`   the operations on the texts that commands print.
-/

namespace RT7.PowerShell

/-- the exit code of a command and its output -/
structure Result where
  code : Int
  output : String
  deriving DecidableEq, Repr

/-- `throw text` -/
structure Thrown where
  text : String
  deriving DecidableEq, Repr

/-- How texts are compared and converted. -/
structure Culture where
  casing : Casing
  /-- `ToLowerInvariant`, character by character -/
  lower : Char → Char
  lower_ascii : ∀ c, c.toNat < 128 → lower c = c.toLower

/-- the culture that knows ASCII letters only -/
def Culture.ordinal : Culture := ⟨.ordinal, Char.toLower, fun _ _ => rfl⟩

/-- `[char]::IsWhiteSpace`, and `\s` of a pattern -/
def isWhiteSpace (c : Char) : Bool :=
  let n := c.toNat
  (9 ≤ n && n ≤ 13) || n = 32 || n = 0x85 || n = 0xA0 || n = 0x1680 || (0x2000 ≤ n && n ≤ 0x200A) ||
    n = 0x2028 || n = 0x2029 || n = 0x202F || n = 0x205F || n = 0x3000

/-- `text.Trim()` -/
def trim (text : String) : List Char := (text.toList.dropWhile isWhiteSpace).rdropWhile isWhiteSpace

/-- `(text -split '\s+')[0]` -/
def firstField (text : List Char) : List Char := text.takeWhile fun c => !isWhiteSpace c

/-- `text -split '\|', 2` -/
def splitBar (text : List Char) : List Char × Option (List Char) :=
  match text.dropWhile (· ≠ '|') with
  | [] => (text, none)
  | _ :: rest => (text.takeWhile (· ≠ '|'), some rest)

/-- `text -eq word` -/
def Culture.equals (culture : Culture) (text : List Char) (word : String) : Bool :=
  text.map culture.casing.fold = culture.casing.key word

theorem splitBar_eq {text state rest : List Char} :
    splitBar text = (state, some rest) ↔ text = state ++ '|' :: rest ∧ '|' ∉ state := by
  have htext := (List.takeWhile_append_dropWhile (p := fun c => decide (c ≠ '|')) (l := text)).symm
  have hbefore : '|' ∉ text.takeWhile fun c => decide (c ≠ '|') := by
    intro hmem
    exact of_decide_eq_true (List.mem_takeWhile_imp (p := fun c => decide (c ≠ '|')) hmem) rfl
  constructor
  · intro h
    unfold splitBar at h
    cases hbar : text.dropWhile fun c => decide (c ≠ '|') with
    | nil =>
      rw [hbar] at h
      cases (Prod.mk.inj h).2
    | cons c rest' =>
      have hc : c = '|' := by
        have hnot := List.head?_dropWhile_not (fun c => decide (c ≠ '|')) text
        rw [hbar] at hnot
        exact not_not.mp (of_decide_eq_false hnot)
      rw [hbar] at h htext
      rw [hc] at htext
      obtain ⟨rfl, hrest⟩ := Prod.mk.inj h
      rw [← Option.some.inj hrest]
      exact ⟨htext, hbefore⟩
  · intro h
    obtain ⟨rfl, hstate⟩ := h
    have hall : ∀ c ∈ state, decide (c ≠ '|') = true := by
      intro c hc
      refine decide_eq_true fun hbar => ?_
      exact hstate (hbar ▸ hc)
    rw [splitBar, List.dropWhile_append_of_pos hall, List.takeWhile_append_of_pos hall,
      List.dropWhile_cons_of_neg (by decide), List.takeWhile_cons_of_neg (by decide), List.append_nil]

/-! ## lines and fields -/

/-- ``text -split "`r?`n"`` -/
def splitLines : List Char → List (List Char)
  | [] => [[]]
  | '\r' :: '\n' :: text => [] :: splitLines text
  | '\n' :: text => [] :: splitLines text
  | c :: text =>
    match splitLines text with
    | [] => [[c]]
    | line :: lines => (c :: line) :: lines

/-- the runs of characters between white space -/
def fields (text : List Char) : List (List Char) := Fields.fields isWhiteSpace text

end RT7.PowerShell
