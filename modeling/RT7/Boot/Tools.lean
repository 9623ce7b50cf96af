import RT7.Base.Utf8
import RT7.Boot.Publish
import RT7.Boot.Arguments

/-!
# The pinned tools, and the comparison of files

* `Tools`           what avbtool, unpack_bootimg and mkbootimg do, as functions of the files they find;
* `unpackArgs`, `runMkbootimg`, `originalPayloadSize`   the calls of the tools;
* `encodeArguments`, `decodeArguments_encode`   arguments that end with zero bytes are read back;
* `filesEqual`      the comparison in chunks, which is an equality of contents (`filesEqual_iff`).
-/

namespace RT7.Boot

open Py Text Pairs

def Disk.read (disk : Disk) (path : PosixPath) : Except Exn Bytes :=
  require (disk path) (.osError path.str)

theorem read_eq_ok {disk : Disk} {path : PosixPath} {content : Bytes} :
    disk.read path = .ok content ↔ disk path = some content := require_eq_ok

abbrev FileName := { name : String // Component name }

/-- The files that a tool leaves in a directory. -/
def Disk.writeFiles (disk : Disk) (directory : PosixPath) (files : List (FileName × Bytes)) : Disk :=
  files.foldl (fun disk file => disk.write (directory / file.1.val) file.2) disk

/-- What the tools do: standard output and files, or an exit status that is raised. mkbootimg may
end without an image. -/
structure Tools where
  infoImage : (image : PosixPath) → Disk → Except Exn Bytes
  unpackBootimg : (image output : PosixPath) → Disk → Except Exn (Bytes × List (FileName × Bytes))
  mkbootimg : List String → Disk → Except Exn (Option Bytes)

/-! ## calls -/

/-- The items of the standard output. -/
def decodeArguments (stdout : Bytes) : Except Exn (List String) := (fields stdout).mapM decodeUtf8

def unpackArgs (tools : Tools) (image output : PosixPath) (disk : Disk) :
    Except Exn (List String × Disk) := do
  let result ← tools.unpackBootimg image output disk
  let arguments ← decodeArguments result.1
  return (arguments, disk.writeFiles output result.2)

/-- `run([python, mkbootimg, "--output", image, *arguments])` -/
def runMkbootimg (tools : Tools) (image : PosixPath) (arguments : List String) (disk : Disk) :
    Except Exn Disk := do
  match ← tools.mkbootimg arguments disk with
  | none => return disk
  | some content => return disk.write image content

/-- The zeros of the decimal digits that `\d` takes. -/
def decimalZeros : List Nat :=
  [0x30, 0x660, 0x6F0, 0x7C0, 0x966, 0x9E6, 0xA66, 0xAE6, 0xB66, 0xBE6, 0xC66, 0xCE6, 0xD66, 0xDE6,
    0xE50, 0xED0, 0xF20, 0x1040, 0x1090, 0x17E0, 0x1810, 0x1946, 0x19D0, 0x1A80, 0x1A90, 0x1B50,
    0x1BB0, 0x1C40, 0x1C50, 0xA620, 0xA8D0, 0xA900, 0xA9D0, 0xA9F0, 0xAA50, 0xABF0, 0xFF10, 0x104A0,
    0x10D30, 0x11066, 0x110F0, 0x11136, 0x111D0, 0x112F0, 0x11450, 0x114D0, 0x11650, 0x116C0,
    0x11730, 0x118E0, 0x11950, 0x11C50, 0x11D50, 0x11DA0, 0x11F50, 0x16A60, 0x16AC0, 0x16B50,
    0x1D7CE, 0x1D7D8, 0x1D7E2, 0x1D7EC, 0x1D7F6, 0x1E140, 0x1E2F0, 0x1E4F0, 0x1E950, 0x1FBF0]

def digitValue (c : Char) : Option Nat :=
  (decimalZeros.find? fun first => first ≤ c.toNat ∧ c.toNat < first + 10).map
    fun first => c.toNat - first

/-- `int(digits)` -/
def digitsValue (digits : List Char) : Nat :=
  digits.foldl (fun n c => 10 * n + (digitValue c).getD 0) 0

/-- `\s+(\d+) bytes$` at the beginning of a text -/
def matchSize (text : List Char) : Option Nat :=
  let rest := text.dropWhile isspace
  let digits := rest.takeWhile fun c => (digitValue c).isSome
  let after := rest.drop digits.length
  if text.length = rest.length ∨ digits = [] ∨ ¬ " bytes".toList <+: after then none
  else match after.drop " bytes".length with
    | [] => some (digitsValue digits)
    | c :: _ => if c = '\n' then some (digitsValue digits) else none

/-- `re.search(r"^Original image size:\s+(\d+) bytes$", output, re.MULTILINE)` -/
def searchSize (lineStart : Bool) : List Char → Option Nat
  | [] => none
  | c :: text =>
    let here :=
      if lineStart ∧ "Original image size:".toList <+: c :: text then
        matchSize ((c :: text).drop "Original image size:".length)
      else none
    here.or (searchSize (c = '\n') text)

def originalPayloadSize (tools : Tools) (image : PosixPath) (disk : Disk) :
    Except Exn (Nat × String) := do
  let stdout ← tools.infoImage image disk
  let output ← decodeUtf8 stdout
  let size ← require (searchSize true output.toList)
    (.runtimeError "stock image does not expose an AVB original image size")
  return (size, output)

/-! ## arguments as standard output -/

def encodeArguments (arguments : List String) : Bytes := terminated (arguments.map encodeUtf8)

/-- **Arguments without a zero character are read back.** -/
theorem decodeArguments_encode {arguments : List String} (h : ∀ a ∈ arguments, '\x00' ∉ a.toList) :
    decodeArguments (encodeArguments arguments) = .ok arguments := by
  have hzero : ∀ item ∈ arguments.map encodeUtf8, 0 ∉ item := by
    intro item hitem
    obtain ⟨a, ha, rfl⟩ := List.mem_map.mp hitem
    exact zero_not_mem_encodeUtf8 (h a ha)
  rw [decodeArguments, encodeArguments, fields_terminated hzero]
  clear h hzero
  induction arguments with
  | nil => rfl
  | cons a arguments ih =>
    rw [List.map_cons, List.mapM_cons, decodeUtf8_encodeUtf8, ok_bind, ih, ok_bind]
    rfl

/-! ## files_equal -/

def chunkSize : Nat := 1024 * 1024

/-- `min(CHUNK_SIZE, remaining)`, or `CHUNK_SIZE` without a limit -/
def readSize : Option Nat → Nat
  | none => chunkSize
  | some remaining => min chunkSize remaining

def filesEqual (left right : Bytes) (remaining : Option Nat) : Bool :=
  if remaining = some 0 then true
  else
    let leftChunk := left.take (readSize remaining)
    let rightChunk := right.take (readSize remaining)
    if leftChunk ≠ rightChunk then false
    else if leftChunk = [] then true
    else filesEqual (left.drop (readSize remaining)) (right.drop (readSize remaining))
      (remaining.map fun remaining => remaining - leftChunk.length)
termination_by left.length
decreasing_by
  rename_i hempty
  have hne : readSize remaining ≠ 0 ∧ left ≠ [] := by
    rw [List.take_eq_nil_iff, not_or] at hempty
    exact hempty
  have hpos := List.length_pos_iff.mpr hne.2
  rw [List.length_drop]
  omega

/-- the part of a file that is compared -/
def compared (content : Bytes) : Option Nat → Bytes
  | none => content
  | some limit => content.take limit

theorem readSize_ne_zero {remaining : Option Nat} (h : remaining ≠ some 0) :
    readSize remaining ≠ 0 := by
  have hchunk : chunkSize ≠ 0 := by decide
  cases remaining with
  | none => exact hchunk
  | some n =>
    have hn : n ≠ 0 := fun e => h (by rw [e])
    rw [readSize]
    omega

/-- the first chunk and the rest -/
theorem compared_eq_append (content : Bytes) (remaining : Option Nat) :
    compared content remaining = content.take (readSize remaining) ++
      compared (content.drop (readSize remaining))
        (remaining.map fun n => n - (content.take (readSize remaining)).length) := by
  cases remaining with
  | none => exact (List.take_append_drop _ _).symm
  | some n =>
    rw [Option.map_some, compared, compared, readSize]
    rw [List.length_take]
    by_cases hlong : min chunkSize n ≤ content.length
    · rw [Nat.min_eq_left hlong]
      have hsum : n = min chunkSize n + (n - min chunkSize n) := by omega
      conv_lhs => rw [hsum, List.take_add]
    · have hshort : content.length ≤ min chunkSize n := by omega
      rw [List.drop_of_length_le hshort, List.take_nil, List.append_nil,
        List.take_of_length_le hshort, List.take_of_length_le (by omega)]

theorem take_compared (content : Bytes) (remaining : Option Nat) :
    (compared content remaining).take (readSize remaining) = content.take (readSize remaining) := by
  cases remaining with
  | none => rfl
  | some n => rw [compared, readSize, List.take_take, Nat.min_assoc, Nat.min_self]

theorem eq_nil_of_take {content : Bytes} {n : Nat} (hn : n ≠ 0) (h : content.take n = []) :
    content = [] := (List.take_eq_nil_iff.mp h).resolve_left hn

/-- **The loop compares the contents, up to the limit.** -/
theorem filesEqual_iff (left right : Bytes) (remaining : Option Nat) :
    filesEqual left right remaining = true ↔ compared left remaining = compared right remaining := by
  induction left, right, remaining using filesEqual.induct with
  | case1 left right =>
    rw [filesEqual, if_pos rfl]
    exact iff_of_true rfl rfl
  | case2 left right remaining h leftChunk rightChunk hne =>
    rw [filesEqual, if_neg h, if_pos hne]
    refine iff_of_false Bool.false_ne_true fun e => hne ?_
    show left.take _ = right.take _
    rw [← take_compared left, ← take_compared right, e]
  | case3 left right remaining h leftChunk rightChunk heq hempty =>
    rw [filesEqual, if_neg h, if_neg heq, if_pos hempty]
    have hright : rightChunk = [] := (not_not.mp heq).symm.trans hempty
    rw [eq_nil_of_take (readSize_ne_zero h) hempty, eq_nil_of_take (readSize_ne_zero h) hright]
    exact iff_of_true rfl rfl
  | case4 left right remaining h leftChunk rightChunk heq hempty ih =>
    have hchunk : left.take (readSize remaining) = right.take (readSize remaining) := not_not.mp heq
    rw [filesEqual, if_neg h, if_neg heq, if_neg hempty, ih, compared_eq_append left,
      compared_eq_append right, ← hchunk, List.append_cancel_left_eq]

end RT7.Boot
