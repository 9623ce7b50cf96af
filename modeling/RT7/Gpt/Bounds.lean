import RT7.Gpt.Pair

/-!
# Every read of `parse_gpt_pair` is inside its buffer

* `sliceIn`, `unpackIn`, `setSliceIn`   slices, `unpack_from` and slice assignment that raise an
  `IndexError` where an index is not inside the buffer;
* `Bounded.parseGptPair`   the function with these reads in place of Python's, which clamp an index
  or count it from the end; the signature probe, whose slices do clamp, stays as it is;
* `Bounded.parseGptPair_eq`   the two functions are one: no read is ever outside;
* `parseGptPair_total`     so a pair is accepted or refused with a `ValueError`.
-/

namespace RT7.Gpt
open Py Struct

section
variable {α : Type} {xs : List α} {i j : Int}

/-- `xs[i:j]`, both indices inside -/
def sliceIn (xs : List α) (i j : Int) : Except Exn (List α) := do
  raiseIf (¬ (0 ≤ i ∧ i ≤ j ∧ j ≤ xs.length)) .indexError
  return slice xs i j

/-- `xs[i:j] = ys` on a bytearray that reaches to `j` -/
def setSliceIn (xs : Bytes) (i j : Nat) (ys : Bytes) : Except Exn Bytes := do
  raiseIf (¬ (i ≤ j ∧ j ≤ xs.length)) .indexError
  return setSlice xs i j ys

/-- `unpack_from(data, offset)`, all bytes of the format inside -/
def unpackIn (fmt : List Code) (data : Bytes) (offset : Int) : Except Exn (List Value) := do
  raiseIf (¬ (0 ≤ offset ∧ offset + calcsize fmt ≤ data.length)) .indexError
  unpackFrom fmt data offset

theorem sliceIn_eq (h0 : 0 ≤ i) (hij : i ≤ j) (hj : j ≤ xs.length) :
    sliceIn xs i j = .ok (slice xs i j) := by
  rw [sliceIn, raiseIf_neg (not_not_intro ⟨h0, hij, hj⟩), ok_bind]
  rfl

theorem setSliceIn_eq {xs ys : Bytes} {i j : Nat} (hij : i ≤ j) (hj : j ≤ xs.length) :
    setSliceIn xs i j ys = .ok (setSlice xs i j ys) := by
  rw [setSliceIn, raiseIf_neg (not_not_intro ⟨hij, hj⟩), ok_bind]
  rfl

theorem unpackIn_eq {fmt : List Code} {data : Bytes} {offset : Int} (h0 : 0 ≤ offset)
    (h : offset + calcsize fmt ≤ data.length) :
    unpackIn fmt data offset = unpackFrom fmt data offset := by
  rw [unpackIn, raiseIf_neg (not_not_intro ⟨h0, h⟩), ok_bind]

end

/-! ## the functions, with their reads checked -/

namespace Bounded

def decodeName (entry : Bytes) (e : Exn) : Except Exn String := do
  let field ← sliceIn entry 56 128
  match Utf16.decodeLE field with
  | none => .error e
  | some text => .ok (beforeNul text)

def parseEntry (header : GptHeader) (sectorSize : Nat) (label : String) (rawEntries : Bytes)
    (partitions : PartitionMap) (index : Nat) : Except Exn PartitionMap := do
  let entrySize := header.partitionEntrySize
  let entry ← sliceIn rawEntries (index * entrySize : ℕ) ((index + 1) * entrySize : ℕ)
  let typeGuid ← sliceIn entry 0 16
  if typeGuid = List.replicate 16 0 then
    return partitions
  let (firstLba, lastLba) ← unpackIn [.Q, .Q] entry 32 >>= unpackPair
  raiseIf (firstLba > lastLba) (.valueError s!"{label} GPT entry {index} has an invalid LBA range")
  raiseIf (¬ (header.firstUsableLba ≤ firstLba ∧ firstLba ≤ lastLba ∧
      lastLba ≤ header.lastUsableLba))
    (.valueError s!"{label} GPT entry {index} is outside usable storage")
  let name ← decodeName entry (.valueError s!"{label} GPT entry {index} has an invalid name")
  raiseIf (name = "" ∨ name ∈ partitions.keys)
    (.valueError s!"{label} GPT entry {index} has an empty or duplicate name")
  return partitions.set name ⟨firstLba, lastLba, (lastLba - firstLba + 1) * sectorSize⟩

variable (crc32 : Bytes → UInt32)

def parseGptHeader (data : Bytes) (offset : Int) (label : String) : Except Exn GptHeader := do
  raiseIf (offset < 0 ∨ offset + calcsize gptHeader > data.length)
    (.valueError s!"{label} GPT header is outside the captured span")
  let values ← unpackIn gptHeader data offset
  let header ← GptHeader.ofValues values
  raiseIf (header.signature ≠ efiPart) (.valueError s!"{label} GPT signature is invalid")
  raiseIf (header.revision ≠ 0x00010000) (.valueError s!"{label} GPT revision is unsupported")
  raiseIf (header.headerSize < calcsize gptHeader ∨ offset + header.headerSize > data.length)
    (.valueError s!"{label} GPT header size is invalid")
  raiseIf (header.reserved ≠ 0) (.valueError s!"{label} GPT reserved field is nonzero")
  let copied ← sliceIn data offset (offset + header.headerSize)
  let headerBytes ← setSliceIn copied 16 20 [0, 0, 0, 0]
  let actualCrc := (crc32 headerBytes).toNat
  raiseIf (actualCrc ≠ header.headerCrc32)
    (.valueError (s!"{label} GPT header CRC mismatch: {hex08 actualCrc} != " ++
      hex08 header.headerCrc32))
  return header

def parseGptEntries (data : Bytes) (header : GptHeader) (captureStartLba : Int)
    (sectorSize : Nat) (label : String) : Except Exn (Bytes × PartitionMap) := do
  let count := header.numPartitionEntries
  let entrySize := header.partitionEntrySize
  raiseIf (count ≤ 0 ∨ count > 4096 ∨ entrySize < 128 ∨ entrySize % 8 ≠ 0)
    (.valueError s!"{label} GPT partition-entry geometry is invalid")
  let relativeLba := header.partitionEntryStartLba - captureStartLba
  let offset := relativeLba * sectorSize
  let length := count * entrySize
  raiseIf (offset < 0 ∨ offset + length > data.length)
    (.valueError s!"{label} GPT partition entries are outside the captured span")
  let rawEntries ← sliceIn data offset (offset + length)
  let actualCrc := (crc32 rawEntries).toNat
  raiseIf (actualCrc ≠ header.partitionEntryCrc32)
    (.valueError (s!"{label} GPT entry-array CRC mismatch: {hex08 actualCrc} != " ++
      hex08 header.partitionEntryCrc32))
  let partitions ←
    (List.range count).foldlM (parseEntry header sectorSize label rawEntries) Dict.empty
  return (rawEntries, partitions)

def parseGptPair (primary backup : Bytes) : Except Exn ParsedGpt := do
  let sectorSize := detectSectorSize primary
  raiseIf (sectorSize = 0) (.valueError "primary GPT signature was not found at LBA 1")
  let mbr ← sliceIn primary 0x1FE 0x200
  raiseIf (mbr ≠ [0x55, 0xAA]) (.valueError "protective MBR signature is invalid")
  let primaryHeader ← parseGptHeader crc32 primary sectorSize "primary"
  raiseIf (primaryHeader.currentLba ≠ 1) (.valueError "primary GPT is not located at LBA 1")
  let expectedPrimarySize := primaryHeader.firstUsableLba * sectorSize
  raiseIf (primary.length ≠ expectedPrimarySize)
    (.valueError
      s!"primary GPT span has size {primary.length}, expected {expectedPrimarySize}")
  let backupSectors : Int := primaryHeader.firstUsableLba - 1
  let expectedBackupSize := backupSectors * sectorSize
  raiseIf (backup.length ≠ expectedBackupSize)
    (.valueError s!"backup GPT span has size {backup.length}, expected {expectedBackupSize}")
  let backupStartLba := primaryHeader.backupLba - backupSectors + 1
  let backupHeaderOffset := (primaryHeader.backupLba - backupStartLba) * sectorSize
  let backupHeader ← parseGptHeader crc32 backup backupHeaderOffset "backup"
  raiseIf (mirroredFields primaryHeader ≠ mirroredFields backupHeader)
    (.valueError "primary and backup GPT headers disagree")
  raiseIf (backupHeader.currentLba ≠ primaryHeader.backupLba ∨
      backupHeader.backupLba ≠ primaryHeader.currentLba)
    (.valueError "backup GPT LBA pointers do not mirror the primary header")
  let (primaryEntries, primaryPartitions) ←
    parseGptEntries crc32 primary primaryHeader 0 sectorSize "primary"
  let (backupEntries, backupPartitions) ←
    parseGptEntries crc32 backup backupHeader backupStartLba sectorSize "backup"
  raiseIf (primaryEntries ≠ backupEntries ∨ ¬ primaryPartitions.eqv backupPartitions)
    (.valueError "primary and backup GPT partition arrays are not identical")
  return {
    sectorSize := sectorSize
    diskGuid := hex primaryHeader.diskGuid
    primaryLba := primaryHeader.currentLba
    backupLba := primaryHeader.backupLba
    firstUsableLba := primaryHeader.firstUsableLba
    lastUsableLba := primaryHeader.lastUsableLba
    partitions := primaryPartitions }

/-! ## no read is outside -/

variable {crc32}

theorem decodeName_eq {entry : Bytes} {e : Exn} (h : 128 ≤ entry.length) :
    decodeName entry e = Gpt.decodeName entry e := by
  rw [decodeName, sliceIn_eq (by decide) (by decide) (by omega)]
  rfl

theorem parseEntry_eq {header : GptHeader} {sectorSize : Nat} {label : String} {raw : Bytes}
    {count index : Nat} (hraw : raw.length = count * header.partitionEntrySize)
    (hstride : 128 ≤ header.partitionEntrySize) (hindex : index < count) (d : PartitionMap) :
    parseEntry header sectorSize label raw d index
      = Gpt.parseEntry header sectorSize label raw d index := by
  have hslot := length_slot hraw hindex
  have hle : index * header.partitionEntrySize ≤ (index + 1) * header.partitionEntrySize :=
    Nat.mul_le_mul_right _ (Nat.le_succ index)
  have hend : (index + 1) * header.partitionEntrySize ≤ raw.length := by
    rw [hraw]
    exact Nat.mul_le_mul_right _ hindex
  have hentry : 128 ≤ (slice raw (index * header.partitionEntrySize : ℕ)
      ((index + 1) * header.partitionEntrySize : ℕ)).length := by
    rw [slot_window]
    omega
  unfold parseEntry Gpt.parseEntry
  dsimp only
  rw [sliceIn_eq (by omega) (by omega) (by omega), ok_bind]
  generalize slice raw (index * header.partitionEntrySize : ℕ)
    ((index + 1) * header.partitionEntrySize : ℕ) = entry at hentry
  have hfit : (32 : Int) + calcsize [Code.Q, Code.Q] ≤ entry.length := by
    show (32 : Int) + (16 : Nat) ≤ entry.length
    omega
  rw [sliceIn_eq (by decide) (by decide) (by omega), ok_bind, unpackIn_eq (by decide) hfit]
  simp only [decodeName_eq hentry]

theorem parseGptHeader_eq (data : Bytes) (offset : Int) (label : String) :
    parseGptHeader crc32 data offset label = Gpt.parseGptHeader crc32 data offset label := by
  unfold parseGptHeader Gpt.parseGptHeader
  apply raiseIf_congr
  intro hin
  rw [unpackIn_eq (by omega) (by omega)]
  refine bind_congr_ok fun values _ => bind_congr_ok fun header _ => ?_
  refine raiseIf_congr fun _ => raiseIf_congr fun _ => raiseIf_congr fun hsize => ?_
  rw [calcsize_gptHeader] at hsize
  refine raiseIf_congr fun _ => ?_
  have hcopied : 20 ≤ (slice data offset (offset + header.headerSize)).length := by
    rw [slice_toNat (by omega), length_window]
    omega
  rw [sliceIn_eq (by omega) (by omega) (by omega), ok_bind, setSliceIn_eq (by decide) hcopied,
    ok_bind]

theorem parseGptEntries_eq (data : Bytes) (header : GptHeader) (start : Int) (sectorSize : Nat)
    (label : String) : parseGptEntries crc32 data header start sectorSize label
      = Gpt.parseGptEntries crc32 data header start sectorSize label := by
  unfold parseGptEntries Gpt.parseGptEntries
  dsimp only
  generalize ((header.partitionEntryStartLba : Int) - start) * sectorSize = offset
  refine raiseIf_congr fun hgeometry => raiseIf_congr fun hin => ?_
  rw [sliceIn_eq (by omega) (by omega) (by omega), ok_bind]
  refine raiseIf_congr fun _ => ?_
  have hraw : (slice data offset (offset +
      ((header.numPartitionEntries * header.partitionEntrySize : ℕ) : Int))).length
      = header.numPartitionEntries * header.partitionEntrySize := by
    rw [slice_toNat (by omega)]
    exact length_window_of_le (by omega)
  rw [foldlM_congr fun index hindex d =>
    parseEntry_eq hraw (by omega) (List.mem_range.mp hindex) d]

/-- a signature that was found leaves room for the first sector -/
theorem length_of_detectSectorSize {primary : Bytes} (h : detectSectorSize primary ≠ 0) :
    0x200 ≤ primary.length := by
  have hfound : ∀ size ∈ ([0x200, 0x1000] : List Nat), 0x200 ≤ size := by decide
  unfold detectSectorSize at h
  cases hsize : ([0x200, 0x1000] : List Nat).find? fun (size : Nat) =>
      slice primary size (size + 8) = efiPart with
  | none =>
    rw [hsize] at h
    exact absurd rfl h
  | some size =>
    have hge := hfound size (List.mem_of_find?_eq_some hsize)
    have hsig : window primary size 8 = efiPart := by
      have hp := List.find?_some hsize
      rw [← slice_eq_window]
      simpa using hp
    have hlength := congrArg List.length hsig
    rw [length_window] at hlength
    have h8 : efiPart.length = 8 := rfl
    omega

/-- **No read is outside its buffer:** the function with checked reads is the function. -/
theorem parseGptPair_eq (primary backup : Bytes) :
    parseGptPair crc32 primary backup = Gpt.parseGptPair crc32 primary backup := by
  unfold parseGptPair Gpt.parseGptPair
  dsimp only
  apply raiseIf_congr
  intro hsector
  have hlength := length_of_detectSectorSize hsector
  rw [sliceIn_eq (by decide) (by decide) (by omega), ok_bind]
  simp only [parseGptHeader_eq, parseGptEntries_eq]

end Bounded

/-- **A malformed pair can only be refused.**  For all byte strings, no read of `parse_gpt_pair` is
outside its buffer, and the function returns or raises a `ValueError`. -/
theorem parseGptPair_total (crc32 : Bytes → UInt32) (primary backup : Bytes) :
    Bounded.parseGptPair crc32 primary backup = parseGptPair crc32 primary backup ∧
    ((∃ g, parseGptPair crc32 primary backup = .ok g) ∨
      ∃ message, parseGptPair crc32 primary backup = .error (.valueError message)) := by
  refine ⟨Bounded.parseGptPair_eq primary backup, ?_⟩
  cases h : parseGptPair crc32 primary backup with
  | ok g => exact .inl ⟨g, rfl⟩
  | error e =>
    obtain ⟨message, rfl⟩ := parseGptPair_raises primary backup e h
    exact .inr ⟨message, rfl⟩

end RT7.Gpt
