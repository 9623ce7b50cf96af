import RT7.Base.Bytes

/-!
# GPT headers: `parse_gpt_header`

* `GptHeader`          the fourteen fields of `GPT_HEADER`, `GptHeader.decode` from 92 bytes;
* `parseGptHeader`     the function of the capture script, guard by guard;
* `HeaderAt`           what makes the header at an offset acceptable, read off the bytes;
* `parseGptHeader_eq_ok`   the function returns exactly the acceptable headers;
* `headerAt_window`    a header seen through a captured span is the header of the whole image.

The checksum is a parameter: nothing is assumed of `zlib.crc32`.
-/

namespace RT7.Gpt
open Py Struct

/-- `GPT_HEADER = struct.Struct("<8sIIIIQQQQ16sQIII")` -/
def gptHeader : List Code :=
  [.s 8, .I, .I, .I, .I, .Q, .Q, .Q, .Q, .s 16, .Q, .I, .I, .I]

theorem calcsize_gptHeader : calcsize gptHeader = 92 := rfl

theorem unpackFrom_gptHeader {data : Bytes} {offset : Int} (h0 : 0 ≤ offset)
    (h : offset + (92 : Nat) ≤ data.length) :
    unpackFrom gptHeader data offset = .ok (unpack gptHeader (window data offset.toNat 92)) :=
  unpackFrom_of_le h0 h

/-- `b"EFI PART"` -/
def efiPart : Bytes := [0x45, 0x46, 0x49, 0x20, 0x50, 0x41, 0x52, 0x54]

structure GptHeader where
  signature : Bytes
  revision : Nat
  headerSize : Nat
  headerCrc32 : Nat
  reserved : Nat
  currentLba : Nat
  backupLba : Nat
  firstUsableLba : Nat
  lastUsableLba : Nat
  diskGuid : Bytes
  partitionEntryStartLba : Nat
  numPartitionEntries : Nat
  partitionEntrySize : Nat
  partitionEntryCrc32 : Nat
  deriving DecidableEq, Repr

namespace GptHeader

/-- `dict(zip(keys, values, strict=True))` -/
def ofValues : List Value → Except Exn GptHeader
  | [.bytes signature, .int revision, .int headerSize, .int headerCrc32, .int reserved,
      .int currentLba, .int backupLba, .int firstUsableLba, .int lastUsableLba, .bytes diskGuid,
      .int partitionEntryStartLba, .int numPartitionEntries, .int partitionEntrySize,
      .int partitionEntryCrc32] =>
    .ok ⟨signature, revision, headerSize, headerCrc32, reserved, currentLba, backupLba,
      firstUsableLba, lastUsableLba, diskGuid, partitionEntryStartLba, numPartitionEntries,
      partitionEntrySize, partitionEntryCrc32⟩
  | _ => .error (.valueError "zip() arguments have different lengths")

def values (h : GptHeader) : List Value :=
  [.bytes h.signature, .int h.revision, .int h.headerSize, .int h.headerCrc32, .int h.reserved,
    .int h.currentLba, .int h.backupLba, .int h.firstUsableLba, .int h.lastUsableLba,
    .bytes h.diskGuid, .int h.partitionEntryStartLba, .int h.numPartitionEntries,
    .int h.partitionEntrySize, .int h.partitionEntryCrc32]

theorem ofValues_values (h : GptHeader) : ofValues h.values = .ok h := rfl

/-- the fields, read at their offsets -/
def decode (b : Bytes) : GptHeader where
  signature := window b 0 8
  revision := leNat (window b 8 4)
  headerSize := leNat (window b 12 4)
  headerCrc32 := leNat (window b 16 4)
  reserved := leNat (window b 20 4)
  currentLba := leNat (window b 24 8)
  backupLba := leNat (window b 32 8)
  firstUsableLba := leNat (window b 40 8)
  lastUsableLba := leNat (window b 48 8)
  diskGuid := window b 56 16
  partitionEntryStartLba := leNat (window b 72 8)
  numPartitionEntries := leNat (window b 80 4)
  partitionEntrySize := leNat (window b 84 4)
  partitionEntryCrc32 := leNat (window b 88 4)

theorem ofValues_unpack (b : Bytes) : ofValues (unpack gptHeader b) = .ok (decode b) := by
  simp only [gptHeader, unpack, Code.read, Code.size, List.drop_drop]
  rfl

end GptHeader

/-! ## the function -/

/-- `xs[i:j] = ys` on a bytearray that reaches past `j` -/
def setSlice (xs : Bytes) (i j : Nat) (ys : Bytes) : Bytes := xs.take i ++ ys ++ xs.drop j

section
variable (crc32 : Bytes → UInt32)

def parseGptHeader (data : Bytes) (offset : Int) (label : String) : Except Exn GptHeader := do
  raiseIf (offset < 0 ∨ offset + calcsize gptHeader > data.length)
    (.valueError s!"{label} GPT header is outside the captured span")
  let values ← unpackFrom gptHeader data offset
  let header ← GptHeader.ofValues values
  raiseIf (header.signature ≠ efiPart) (.valueError s!"{label} GPT signature is invalid")
  raiseIf (header.revision ≠ 0x00010000) (.valueError s!"{label} GPT revision is unsupported")
  raiseIf (header.headerSize < calcsize gptHeader ∨ offset + header.headerSize > data.length)
    (.valueError s!"{label} GPT header size is invalid")
  raiseIf (header.reserved ≠ 0) (.valueError s!"{label} GPT reserved field is nonzero")
  let headerBytes := setSlice (slice data offset (offset + header.headerSize)) 16 20 [0, 0, 0, 0]
  let actualCrc := (crc32 headerBytes).toNat
  raiseIf (actualCrc ≠ header.headerCrc32)
    (.valueError (s!"{label} GPT header CRC mismatch: {hex08 actualCrc} != " ++
      hex08 header.headerCrc32))
  return header

/-- The header at byte `o` of `data` is acceptable inside a span that ends at byte `stop`. -/
structure HeaderAt (data : Bytes) (o stop : Nat) (h : GptHeader) : Prop where
  fits : o + 92 ≤ stop
  fields : h = GptHeader.decode (window data o 92)
  signature : h.signature = efiPart
  revision : h.revision = 0x00010000
  size : 92 ≤ h.headerSize
  inside : o + h.headerSize ≤ stop
  reserved : h.reserved = 0
  crc : (crc32 (setSlice (window data o h.headerSize) 16 20 [0, 0, 0, 0])).toNat = h.headerCrc32

variable {crc32}

/-- **`parse_gpt_header` returns exactly the acceptable header at its offset.** -/
theorem parseGptHeader_eq_ok {data : Bytes} {offset : Int} {label : String} {h : GptHeader} :
    parseGptHeader crc32 data offset label = .ok h
      ↔ 0 ≤ offset ∧ HeaderAt crc32 data offset.toNat data.length h := by
  unfold parseGptHeader
  rw [raiseIf_bind_eq_ok, calcsize_gptHeader]
  constructor
  · rintro ⟨hin, hrun⟩
    have h0 : 0 ≤ offset := by omega
    have hle : offset + (92 : Nat) ≤ data.length := by omega
    rw [unpackFrom_gptHeader h0 hle, ok_bind, GptHeader.ofValues_unpack, ok_bind] at hrun
    simp only [raiseIf_bind_eq_ok, pure_eq_ok, slice_toNat h0, not_not] at hrun
    obtain ⟨hsig, hrev, hsize, hres, hcrc, rfl⟩ := hrun
    exact ⟨h0, by omega, rfl, hsig, hrev, by omega, by omega, hres, hcrc⟩
  · rintro ⟨h0, H⟩
    have hfit := H.fits
    have hle : offset + (92 : Nat) ≤ data.length := by omega
    refine ⟨by omega, ?_⟩
    rw [unpackFrom_gptHeader h0 hle, ok_bind, GptHeader.ofValues_unpack, ok_bind]
    have hfields := H.fields
    have hsize := H.size
    have hinside := H.inside
    subst hfields
    simp only [raiseIf_bind_eq_ok, pure_eq_ok, slice_toNat h0, not_not]
    exact ⟨H.signature, H.revision, by omega, H.reserved, H.crc, trivial⟩

/-- a header that is not accepted is refused with a `ValueError` -/
theorem parseGptHeader_raises (data : Bytes) (offset : Int) (label : String) :
    RaisesOnly Exn.IsValueError (parseGptHeader crc32 data offset label) := by
  refine .guard (fun _ => ⟨_, rfl⟩) fun hin => ?_
  rw [calcsize_gptHeader] at hin
  have hle : offset + (92 : Nat) ≤ data.length := by omega
  rw [unpackFrom_gptHeader (by omega) hle, ok_bind, GptHeader.ofValues_unpack, ok_bind]
  refine .guard (fun _ => ⟨_, rfl⟩) fun _ => ?_
  refine .guard (fun _ => ⟨_, rfl⟩) fun _ => ?_
  refine .guard (fun _ => ⟨_, rfl⟩) fun _ => ?_
  refine .guard (fun _ => ⟨_, rfl⟩) fun _ => ?_
  refine .guard (fun _ => ⟨_, rfl⟩) fun _ => ?_
  exact .ok _

/-- A header inside a captured span is the header of the image the span was cut from. -/
theorem headerAt_window {image : Bytes} {a n o stop : Nat} {h : GptHeader} (hstop : stop ≤ n) :
    HeaderAt crc32 (window image a n) o stop h ↔ HeaderAt crc32 image (a + o) (a + stop) h := by
  constructor
  · intro H
    have h1 := H.fits
    have h2 := H.inside
    have e1 := H.fields
    have e2 := H.crc
    rw [window_window (by omega)] at e1 e2
    exact ⟨by omega, e1, H.signature, H.revision, H.size, by omega, H.reserved, e2⟩
  · intro H
    have h1 := H.fits
    have h2 := H.inside
    have e1 : window (window image a n) o 92 = window image (a + o) 92 :=
      window_window (by omega)
    have e2 : window (window image a n) o h.headerSize = window image (a + o) h.headerSize :=
      window_window (by omega)
    exact ⟨by omega, by rw [e1]; exact H.fields, H.signature, H.revision, H.size, by omega,
      H.reserved, by rw [e2]; exact H.crc⟩

end

end RT7.Gpt
