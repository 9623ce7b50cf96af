import RT7.Base.History
import RT7.Base.Text

/-!
# Scripts that check what they find

* `Failure`         a script prints an error and exits, or ends at a command that fails;
* `look`, `check`   the steps of a script that changes nothing, with `reads_look`, `reads_check`;
* `textOf`, `linesOf`, `grepLines`, `isSpace`, `isBase64`   what `grep`, `sed` and `awk` see of a file.
-/

namespace RT7.Script

open Shell

inductive Failure where
  | error (text : String)
  | command (name : String)
  deriving DecidableEq, Repr

section
variable {σ α : Type}

/-- a command that only looks -/
def look (e : Failure) (value : σ → Option α) : Shell σ Failure α :=
  command e fun s => (value s).map fun a => (a, s)

/-- `if ! test; then printf text; exit 1; fi` -/
def check (test : σ → Bool) (text : String) : Shell σ Failure Unit :=
  ifThen (fun s => !test s) (exit (.error text))

theorem reads_look {e : Failure} (value : σ → Option α) : Reads (look e value) value := reads_value value

theorem reads_check (test : σ → Bool) (text : String) :
    Reads (check test text) fun s => refuse (!test s) := reads_guard _

end

/-! ## texts -/

def textOf (content : Bytes) : List Char := (Text.decodeAscii content).toList

def linesOf (text : List Char) : List (List Char) := text.splitOn '\n'

/-- what `grep -q` takes for the lines of a file: where it is binary, a NUL ends a line, too -/
def grepLines (text : List Char) : List (List Char) := text.splitOnP fun c => c = '\n' || c = '\x00'

/-- a character of `[[:space:]]` -/
def isSpace (c : Char) : Bool := c = ' ' || (9 ≤ c.toNat && c.toNat ≤ 13)

/-- a character of `[A-Za-z0-9+/=]` -/
def isBase64 (c : Char) : Bool := c.isAlphanum || c = '+' || c = '/' || c = '='

theorem intercalate_linesOf (text : List Char) : ['\n'].intercalate (linesOf text) = text :=
  List.intercalate_splitOn _

theorem not_mem_of_mem_linesOf {text line : List Char} (h : line ∈ linesOf text) : '\n' ∉ line :=
  Text.not_mem_of_mem_splitOn h

end RT7.Script
