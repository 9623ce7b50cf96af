import RT7.Base.Crc32
import RT7.Gpt.Pair

/-!
# Encoding a partition layout, and reading it back

* `Slot`        a slot of the entry array: empty, or a partition;
* `Layout`      a disk layout with every bound it has to respect as a field, so that a layout that
                does not fit its fields or its spans cannot be built;
* `Layout.primary`, `Layout.backup`   the two complete spans, as a partitioning tool writes them;
* `Layout.parsed`      the dictionary that describes the layout;
* `Layout.pairOk`      the two spans are an acceptable pair, piece by piece;
* `parseGptPair_encode`   **parsing undoes encoding**.

The protective MBR carries arbitrary boot code, an empty slot arbitrary bytes after its zero type
GUID, and an entry wider than 128 bytes an arbitrary tail.
-/

namespace RT7.Gpt
open Py Struct

/-! ## slots -/

structure PartitionSlot where
  typeGuid : Bytes
  uniqueGuid : Bytes
  firstLba : Nat
  lastLba : Nat
  attributes : Nat
  name : String
  tail : Bytes

/-- the 72-byte name field: UTF-16LE, padded with NULs -/
def nameField (name : String) : Bytes :=
  Utf16.bytesLE (Utf16.encode name.toList) ++
    List.replicate (2 * (36 - (Utf16.encode name.toList).length)) 0

def PartitionSlot.encode (p : PartitionSlot) : Bytes :=
  p.typeGuid ++ (p.uniqueGuid ++ (leBytes 8 p.firstLba ++ (leBytes 8 p.lastLba ++
    (leBytes 8 p.attributes ++ (nameField p.name ++ p.tail)))))

/-- A partition fits an entry of `n` bytes on a disk with the given usable LBAs. -/
structure PartitionSlot.Ok (firstUsable lastUsable n : Nat) (p : PartitionSlot) : Prop where
  typeGuid_length : p.typeGuid.length = 16
  typeGuid_ne : p.typeGuid ≠ List.replicate 16 0
  uniqueGuid_length : p.uniqueGuid.length = 16
  usable : firstUsable ≤ p.firstLba
  range : p.firstLba ≤ p.lastLba
  last : p.lastLba ≤ lastUsable
  name_ne : p.name ≠ ""
  name_nul : '\x00' ∉ p.name.toList
  name_units : (Utf16.encode p.name.toList).length ≤ 36
  tail_length : p.tail.length = n - 128

inductive Slot where
  | empty (rest : Bytes)
  | used (p : PartitionSlot)

def Slot.encode : Slot → Bytes
  | .empty rest => List.replicate 16 0 ++ rest
  | .used p => p.encode

def Slot.Ok (firstUsable lastUsable n : Nat) : Slot → Prop
  | .empty rest => rest.length = n - 16
  | .used p => p.Ok firstUsable lastUsable n

def Slot.partition? : Slot → Option PartitionSlot
  | .empty _ => none
  | .used p => some p

def PartitionSlot.item (sectorSize : Nat) (p : PartitionSlot) : String × Partition :=
  (p.name, ⟨p.firstLba, p.lastLba, (p.lastLba - p.firstLba + 1) * sectorSize⟩)

section
variable {fu lu n : Nat}

theorem length_nameField {name : String} (h : (Utf16.encode name.toList).length ≤ 36) :
    (nameField name).length = 72 := by
  rw [nameField, List.length_append, Utf16.length_bytesLE, List.length_replicate]
  omega

theorem PartitionSlot.Ok.length_encode {p : PartitionSlot} (h : p.Ok fu lu n) (hn : 128 ≤ n) :
    p.encode.length = n := by
  simp only [PartitionSlot.encode, List.length_append, length_leBytes,
    length_nameField h.name_units, h.typeGuid_length, h.uniqueGuid_length, h.tail_length]
  omega

theorem Slot.Ok.length_encode {s : Slot} (h : s.Ok fu lu n) (hn : 128 ≤ n) :
    s.encode.length = n := by
  cases s with
  | empty rest =>
    have hr : rest.length = n - 16 := h
    show (List.replicate 16 0 ++ rest).length = n
    rw [List.length_append, List.length_replicate, hr]
    omega
  | used p => exact PartitionSlot.Ok.length_encode h hn

/-- The name field decodes to the name: the padding is cut at its first NUL, and a name of 36
code units has no padding. -/
theorem beforeNul_padded {name : String} (h : '\x00' ∉ name.toList) (k : Nat) :
    beforeNul (name.toList ++ List.replicate k '\x00') = name := by
  have hall : ∀ c ∈ name.toList, decide (c ≠ '\x00') = true := fun c hc =>
    decide_eq_true fun e => h (e ▸ hc)
  have htail : (List.replicate k '\x00').takeWhile (fun c => decide (c ≠ '\x00')) = [] := by
    cases k with
    | zero => rfl
    | succ k => rfl
  rw [beforeNul, List.takeWhile_append_of_pos hall, htail, List.append_nil, String.ofList_toList]

/-! Each field of an encoded partition, read at its offset. -/

theorem PartitionSlot.Ok.window_type {p : PartitionSlot} (h : p.Ok fu lu n) :
    window p.encode 0 16 = p.typeGuid := by
  show window ([] ++ (p.typeGuid ++ _)) 0 16 = p.typeGuid
  exact window_middle rfl h.typeGuid_length

theorem PartitionSlot.Ok.window_first {p : PartitionSlot} (h : p.Ok fu lu n) :
    window p.encode 32 8 = leBytes 8 p.firstLba := by
  have e : p.encode = (p.typeGuid ++ p.uniqueGuid) ++ (leBytes 8 p.firstLba ++
      (leBytes 8 p.lastLba ++ (leBytes 8 p.attributes ++ (nameField p.name ++ p.tail)))) := by
    simp only [PartitionSlot.encode, List.append_assoc]
  rw [e]
  refine window_middle ?_ (length_leBytes 8 _)
  rw [List.length_append, h.typeGuid_length, h.uniqueGuid_length]

theorem PartitionSlot.Ok.window_last {p : PartitionSlot} (h : p.Ok fu lu n) :
    window p.encode 40 8 = leBytes 8 p.lastLba := by
  have e : p.encode = (p.typeGuid ++ p.uniqueGuid ++ leBytes 8 p.firstLba) ++
      (leBytes 8 p.lastLba ++ (leBytes 8 p.attributes ++ (nameField p.name ++ p.tail))) := by
    simp only [PartitionSlot.encode, List.append_assoc]
  rw [e]
  refine window_middle ?_ (length_leBytes 8 _)
  simp only [List.length_append, h.typeGuid_length, h.uniqueGuid_length, length_leBytes]

theorem PartitionSlot.Ok.window_name {p : PartitionSlot} (h : p.Ok fu lu n) :
    window p.encode 56 72 = nameField p.name := by
  have e : p.encode = (p.typeGuid ++ p.uniqueGuid ++ leBytes 8 p.firstLba ++
      leBytes 8 p.lastLba ++ leBytes 8 p.attributes) ++ (nameField p.name ++ p.tail) := by
    simp only [PartitionSlot.encode, List.append_assoc]
  rw [e]
  refine window_middle ?_ (length_nameField h.name_units)
  simp only [List.length_append, h.typeGuid_length, h.uniqueGuid_length, length_leBytes]

theorem PartitionSlot.Ok.slotName_encode {p : PartitionSlot} (h : p.Ok fu lu n) :
    slotName p.encode = some p.name := by
  rw [slotName, h.window_name, nameField, Utf16.decodeLE_padded, Option.map_some,
    beforeNul_padded h.name_nul]

theorem PartitionSlot.Ok.slotFirst_encode {p : PartitionSlot} (h : p.Ok fu lu n)
    (hlu : lu < 2 ^ 64) : slotFirst p.encode = p.firstLba := by
  have h1 := h.range
  have h2 := h.last
  rw [slotFirst, h.window_first, leNat_leBytes (by omega)]

theorem PartitionSlot.Ok.slotLast_encode {p : PartitionSlot} (h : p.Ok fu lu n)
    (hlu : lu < 2 ^ 64) : slotLast p.encode = p.lastLba := by
  have h2 := h.last
  rw [slotLast, h.window_last, leNat_leBytes (by omega)]

theorem PartitionSlot.Ok.slotItem_encode {p : PartitionSlot} (h : p.Ok fu lu n) (hlu : lu < 2 ^ 64)
    (s : Nat) : slotItem s p.encode = p.item s := by
  rw [slotItem, slotKey, h.slotName_encode, h.slotFirst_encode hlu, h.slotLast_encode hlu]
  rfl

theorem PartitionSlot.Ok.used_encode {p : PartitionSlot} (h : p.Ok fu lu n) : Used p.encode := by
  rw [Used, h.window_type]
  exact h.typeGuid_ne

theorem PartitionSlot.Ok.slotOk_encode {p : PartitionSlot} (h : p.Ok fu lu n) (hlu : lu < 2 ^ 64) :
    SlotOk fu lu p.encode := by
  refine ⟨?_, ?_, ?_, p.name, h.slotName_encode, h.name_ne⟩
  · rw [h.slotFirst_encode hlu]
    exact h.usable
  · rw [h.slotFirst_encode hlu, h.slotLast_encode hlu]
    exact h.range
  · rw [h.slotLast_encode hlu]
    exact h.last

theorem not_used_empty (rest : Bytes) : ¬ Used (Slot.encode (.empty rest)) := by
  have e : window ([] ++ (List.replicate 16 (0 : UInt8) ++ rest)) 0 16 = List.replicate 16 0 :=
    window_middle rfl rfl
  intro h
  exact h e

/-- the used slots of an encoded list are its partitions, in order -/
theorem filter_used_encode {slots : List Slot} (h : ∀ s ∈ slots, s.Ok fu lu n) :
    (slots.map Slot.encode).filter Used = (slots.filterMap Slot.partition?).map (·.encode) := by
  induction slots with
  | nil => rfl
  | cons s slots ih =>
    have hs := h s List.mem_cons_self
    have ih' := ih fun s' h' => h s' (List.mem_cons_of_mem s h')
    cases s with
    | empty rest =>
      rw [List.map_cons, filter_used_neg (not_used_empty rest), ih',
        List.filterMap_cons_none rfl]
    | used p =>
      have hp : p.Ok fu lu n := hs
      have hu : Used (Slot.used p).encode := hp.used_encode
      rw [List.map_cons, filter_used_pos hu, ih']
      rfl

end

/-! ## headers -/

/-- A packed header whose checksum field holds the checksum of the header with that field zero. -/
def sealHeader (crc32 : Bytes → UInt32) (h : GptHeader) : GptHeader :=
  { h with headerCrc32 :=
      (crc32 (pack gptHeader { h with headerCrc32 := 0 }.values)).toNat }

structure GptHeader.Fits (h : GptHeader) : Prop where
  signature : h.signature.length = 8
  revision : h.revision < 2 ^ 32
  headerSize : h.headerSize < 2 ^ 32
  headerCrc32 : h.headerCrc32 < 2 ^ 32
  reserved : h.reserved < 2 ^ 32
  currentLba : h.currentLba < 2 ^ 64
  backupLba : h.backupLba < 2 ^ 64
  firstUsableLba : h.firstUsableLba < 2 ^ 64
  lastUsableLba : h.lastUsableLba < 2 ^ 64
  diskGuid : h.diskGuid.length = 16
  partitionEntryStartLba : h.partitionEntryStartLba < 2 ^ 64
  numPartitionEntries : h.numPartitionEntries < 2 ^ 32
  partitionEntrySize : h.partitionEntrySize < 2 ^ 32
  partitionEntryCrc32 : h.partitionEntryCrc32 < 2 ^ 32

theorem GptHeader.Fits.values {h : GptHeader} (H : h.Fits) :
    List.Forall₂ Code.Fits gptHeader h.values :=
  .cons H.signature <| .cons H.revision <| .cons H.headerSize <| .cons H.headerCrc32 <|
  .cons H.reserved <| .cons H.currentLba <| .cons H.backupLba <| .cons H.firstUsableLba <|
  .cons H.lastUsableLba <| .cons H.diskGuid <| .cons H.partitionEntryStartLba <|
  .cons H.numPartitionEntries <| .cons H.partitionEntrySize <| .cons H.partitionEntryCrc32 .nil

/-- decoding a packed header gives the header back -/
theorem GptHeader.Fits.decode_pack {h : GptHeader} (H : h.Fits) :
    GptHeader.decode (pack gptHeader h.values) = h := by
  have h1 := unpack_pack H.values []
  have h2 := GptHeader.ofValues_unpack (pack gptHeader h.values)
  rw [List.append_nil] at h1
  rw [h1, GptHeader.ofValues_values] at h2
  exact (Except.ok.inj h2).symm

theorem GptHeader.Fits.length_pack {h : GptHeader} (H : h.Fits) :
    (pack gptHeader h.values).length = 92 :=
  Struct.length_pack H.values

theorem setSlice_middle {xs ys zs ws : Bytes} {i j : Nat} (hi : xs.length = i)
    (hj : i + ys.length = j) : setSlice (xs ++ (ys ++ zs)) i j ws = xs ++ (ws ++ zs) := by
  subst hj; subst hi
  rw [setSlice, List.take_left, ← List.drop_drop, List.drop_left, List.drop_left, List.append_assoc]

/-- the packed header around its checksum field -/
theorem pack_around_crc (h : GptHeader) : ∃ rest, ∀ crc,
    pack gptHeader { h with headerCrc32 := crc }.values
      = (h.signature ++ (leBytes 4 h.revision ++ leBytes 4 h.headerSize)) ++ (leBytes 4 crc ++ rest) := by
  refine ⟨pack (gptHeader.drop 4) (h.values.drop 4), fun crc => ?_⟩
  rw [List.append_assoc, List.append_assoc]
  rfl

/-- zeroing the checksum field of a packed header packs the header with checksum zero -/
theorem setSlice_pack {h : GptHeader} (hsig : h.signature.length = 8) :
    setSlice (pack gptHeader h.values) 16 20 [0, 0, 0, 0]
      = pack gptHeader { h with headerCrc32 := 0 }.values := by
  obtain ⟨rest, hrest⟩ := pack_around_crc h
  have hlen : (h.signature ++ (leBytes 4 h.revision ++ leBytes 4 h.headerSize)).length = 16 := by
    rw [List.length_append, List.length_append, length_leBytes, length_leBytes, hsig]
  have hself := hrest h.headerCrc32
  rw [hrest 0, show pack gptHeader h.values = _ from hself]
  exact setSlice_middle hlen (by rw [length_leBytes])

/-- **A sealed 92-byte header is acceptable wherever it lies inside a span.** -/
theorem headerAt_sealHeader {crc32 : Bytes → UInt32} {data : Bytes} {o stop : Nat} {h : GptHeader}
    (hsig : h.signature = efiPart) (hrev : h.revision = 0x00010000) (hsize : h.headerSize = 92)
    (hres : h.reserved = 0) (H : (sealHeader crc32 h).Fits) (hstop : o + 92 ≤ stop)
    (hw : window data o 92 = pack gptHeader (sealHeader crc32 h).values) :
    HeaderAt crc32 data o stop (sealHeader crc32 h) where
  fits := hstop
  fields := by rw [hw, H.decode_pack]
  signature := hsig
  revision := hrev
  size := Nat.le_of_eq hsize.symm
  inside := by
    show o + h.headerSize ≤ stop
    rw [hsize]
    exact hstop
  reserved := hres
  crc := by
    show (crc32 (setSlice (window data o h.headerSize) 16 20 [0, 0, 0, 0])).toNat = _
    rw [hsize, hw, setSlice_pack H.signature]
    rfl

/-! ## layouts -/

/-- A disk layout that fits its fields and its two spans. -/
structure Layout where
  sectorSize : Nat
  bootCode : Bytes
  diskGuid : Bytes
  firstUsableLba : Nat
  lastUsableLba : Nat
  backupLba : Nat
  entrySize : Nat
  primaryEntryLba : Nat
  backupEntryLba : Nat
  slots : List Slot
  sector : sectorSize = 0x200 ∨ sectorSize = 0x1000
  bootCode_length : bootCode.length = 0x1FE
  diskGuid_length : diskGuid.length = 16
  firstUsable_lt : firstUsableLba < 2 ^ 64
  lastUsable_lt : lastUsableLba < 2 ^ 64
  backup_lt : backupLba < 2 ^ 64
  primaryEntry_lt : primaryEntryLba < 2 ^ 64
  backupEntry_lt : backupEntryLba < 2 ^ 64
  stride : 128 ≤ entrySize
  stride_lt : entrySize < 2 ^ 32
  aligned : entrySize % 8 = 0
  slots_pos : 0 < slots.length
  slots_le : slots.length ≤ 4096
  slots_ok : ∀ s ∈ slots, s.Ok firstUsableLba lastUsableLba entrySize
  names_nodup : ((slots.filterMap Slot.partition?).map (·.name)).Nodup
  /-- the primary array lies after the primary header and inside the primary span -/
  primary_start : 2 ≤ primaryEntryLba
  primary_stop : primaryEntryLba * sectorSize + slots.length * entrySize
    ≤ firstUsableLba * sectorSize
  /-- the backup array lies inside the backup span and before its header -/
  backup_start : backupLba + 2 ≤ backupEntryLba + firstUsableLba
  backup_stop : (backupEntryLba + firstUsableLba - (backupLba + 2)) * sectorSize
    + slots.length * entrySize ≤ (firstUsableLba - 2) * sectorSize

namespace Layout
variable (L : Layout) (crc32 : Bytes → UInt32)

/-- the entry array -/
def entries : Bytes := (L.slots.map Slot.encode).flatten

/-- the header of one copy, before it is sealed -/
def header (currentLba backupLba entryLba : Nat) : GptHeader where
  signature := efiPart
  revision := 0x00010000
  headerSize := 92
  headerCrc32 := 0
  reserved := 0
  currentLba := currentLba
  backupLba := backupLba
  firstUsableLba := L.firstUsableLba
  lastUsableLba := L.lastUsableLba
  diskGuid := L.diskGuid
  partitionEntryStartLba := entryLba
  numPartitionEntries := L.slots.length
  partitionEntrySize := L.entrySize
  partitionEntryCrc32 := (crc32 L.entries).toNat

def primaryHeader : GptHeader := sealHeader crc32 (L.header crc32 1 L.backupLba L.primaryEntryLba)
def backupHeader : GptHeader := sealHeader crc32 (L.header crc32 L.backupLba 1 L.backupEntryLba)

/-- a header, padded with zeros to a sector -/
def headerSector (h : GptHeader) : Bytes :=
  pack gptHeader h.values ++ List.replicate (L.sectorSize - 92) 0

/-- the protective MBR, padded with zeros to a sector -/
def mbr : Bytes := L.bootCode ++ [0x55, 0xAA] ++ List.replicate (L.sectorSize - 0x200) 0

/-- sectors between the start of the backup span and the backup entry array -/
def backupGap : Nat := L.backupEntryLba + L.firstUsableLba - (L.backupLba + 2)

/-- the contents of `gpt.bin` -/
def primary : Bytes :=
  L.mbr ++ (L.headerSector (L.primaryHeader crc32) ++
    (List.replicate ((L.primaryEntryLba - 2) * L.sectorSize) 0 ++ (L.entries ++
      List.replicate (L.firstUsableLba * L.sectorSize
        - (L.primaryEntryLba * L.sectorSize + L.slots.length * L.entrySize)) 0)))

/-- the contents of `gpt_backup.bin` -/
def backup : Bytes :=
  List.replicate (L.backupGap * L.sectorSize) 0 ++ (L.entries ++
    (List.replicate ((L.firstUsableLba - 2) * L.sectorSize
      - (L.backupGap * L.sectorSize + L.slots.length * L.entrySize)) 0 ++
        L.headerSector (L.backupHeader crc32)))

/-- the partition map of the layout, in slot order -/
def partitions : PartitionMap where
  items := (L.slots.filterMap Slot.partition?).map (PartitionSlot.item L.sectorSize)
  nodup := by
    rw [List.map_map]
    exact L.names_nodup

/-- the dictionary that describes the layout -/
def parsed : ParsedGpt where
  sectorSize := L.sectorSize
  diskGuid := hex L.diskGuid
  primaryLba := 1
  backupLba := L.backupLba
  firstUsableLba := L.firstUsableLba
  lastUsableLba := L.lastUsableLba
  partitions := L.partitions

/-! ### the entry array -/

theorem length_slots {r : Bytes} (h : r ∈ L.slots.map Slot.encode) : r.length = L.entrySize := by
  obtain ⟨s, hs, rfl⟩ := List.mem_map.mp h
  exact Slot.Ok.length_encode (L.slots_ok s hs) L.stride

theorem length_entries : L.entries.length = L.slots.length * L.entrySize := by
  rw [entries, length_flatten_of_length (fun _ h => L.length_slots h), List.length_map]

theorem usedSlots_entries : usedSlots L.entries L.entrySize L.slots.length
    = (L.slots.filterMap Slot.partition?).map (·.encode) := by
  have h := windows_flatten (n := L.entrySize) (l := L.slots.map Slot.encode)
    fun _ h => L.length_slots h
  rw [List.length_map] at h
  show ((List.range L.slots.length).map fun i => window L.entries (i * L.entrySize) L.entrySize).filter
    Used = _
  rw [entries, h, filter_used_encode L.slots_ok]

theorem partition_ok {p : PartitionSlot} (h : p ∈ L.slots.filterMap Slot.partition?) :
    p.Ok L.firstUsableLba L.lastUsableLba L.entrySize := by
  obtain ⟨s, hs, hp⟩ := List.mem_filterMap.mp h
  cases s with
  | empty rest => exact absurd hp (by simp [Slot.partition?])
  | used q =>
    obtain rfl : q = p := Option.some.inj hp
    exact L.slots_ok _ hs

theorem slotItem_usedSlots : (usedSlots L.entries L.entrySize L.slots.length).map
    (slotItem L.sectorSize) = L.partitions.items := by
  rw [usedSlots_entries, List.map_map]
  exact List.map_congr_left fun p hp => (L.partition_ok hp).slotItem_encode L.lastUsable_lt _

theorem tableOk : TableOk L.firstUsableLba L.lastUsableLba
    (usedSlots L.entries L.entrySize L.slots.length) := by
  rw [usedSlots_entries]
  constructor
  · intro e he
    obtain ⟨p, hp, rfl⟩ := List.mem_map.mp he
    exact (L.partition_ok hp).slotOk_encode L.lastUsable_lt
  · rw [List.map_map]
    have hkeys : ∀ p ∈ L.slots.filterMap Slot.partition?, (slotKey ∘ (·.encode)) p = p.name := by
      intro p hp
      show slotKey p.encode = p.name
      rw [slotKey, (L.partition_ok hp).slotName_encode]
      rfl
    rw [List.map_congr_left hkeys]
    exact L.names_nodup

theorem entriesAt_header {data : Bytes} {o stop cur bak start : Nat}
    (hw : window data o (L.slots.length * L.entrySize) = L.entries)
    (hstop : o + L.slots.length * L.entrySize ≤ stop) :
    EntriesAt crc32 data o stop (sealHeader crc32 (L.header crc32 cur bak start)) L.sectorSize
      L.entries L.partitions where
  count_pos := L.slots_pos
  count_le := L.slots_le
  stride := L.stride
  aligned := L.aligned
  inside := hstop
  bytes := hw.symm
  crc := rfl
  table := L.tableOk
  items := L.slotItem_usedSlots.symm

/-! ### the headers -/

theorem fits_header {cur bak start : Nat} (hc : cur < 2 ^ 64) (hb : bak < 2 ^ 64)
    (hs : start < 2 ^ 64) : (sealHeader crc32 (L.header crc32 cur bak start)).Fits where
  signature := rfl
  revision := (by decide : 0x00010000 < 2 ^ 32)
  headerSize := (by decide : 92 < 2 ^ 32)
  headerCrc32 := UInt32.toNat_lt _
  reserved := (by decide : 0 < 2 ^ 32)
  currentLba := hc
  backupLba := hb
  firstUsableLba := L.firstUsable_lt
  lastUsableLba := L.lastUsable_lt
  diskGuid := L.diskGuid_length
  partitionEntryStartLba := hs
  numPartitionEntries := lt_of_le_of_lt L.slots_le (by decide)
  partitionEntrySize := L.stride_lt
  partitionEntryCrc32 := UInt32.toNat_lt _

theorem fits_primaryHeader : (L.primaryHeader crc32).Fits :=
  L.fits_header crc32 (by decide) L.backup_lt L.primaryEntry_lt

theorem fits_backupHeader : (L.backupHeader crc32).Fits :=
  L.fits_header crc32 L.backup_lt (by decide) L.backupEntry_lt

theorem sector_le : 0x200 ≤ L.sectorSize := by
  rcases L.sector with h | h <;> omega

theorem length_mbr : L.mbr.length = L.sectorSize := by
  have h := L.sector_le
  rw [mbr, List.length_append, List.length_append, L.bootCode_length, List.length_replicate]
  show 0x1FE + 2 + (L.sectorSize - 0x200) = L.sectorSize
  omega

theorem length_headerSector {h : GptHeader} (H : h.Fits) : (L.headerSector h).length = L.sectorSize := by
  have hs := L.sector_le
  rw [headerSector, List.length_append, H.length_pack, List.length_replicate]
  omega

/-! ### the primary span -/

theorem primary_gap : (L.primaryEntryLba - 2) * L.sectorSize + 2 * L.sectorSize
    = L.primaryEntryLba * L.sectorSize := by
  rw [← Nat.add_mul, Nat.sub_add_cancel L.primary_start]

theorem length_primary : (L.primary crc32).length = L.firstUsableLba * L.sectorSize := by
  have h1 := L.primary_gap
  have h2 := L.primary_stop
  simp only [primary, List.length_append, L.length_mbr,
    L.length_headerSector (L.fits_primaryHeader crc32), List.length_replicate, L.length_entries]
  omega

theorem window_primary_header :
    window (L.primary crc32) L.sectorSize 92 = pack gptHeader (L.primaryHeader crc32).values := by
  rw [primary, headerSector, List.append_assoc]
  exact window_middle L.length_mbr (L.fits_primaryHeader crc32).length_pack

theorem window_primary_entries : window (L.primary crc32) (L.primaryEntryLba * L.sectorSize)
    (L.slots.length * L.entrySize) = L.entries := by
  have h1 := L.primary_gap
  rw [primary, ← List.append_assoc, ← List.append_assoc]
  refine window_middle ?_ L.length_entries
  rw [List.length_append, List.length_append, L.length_mbr,
    L.length_headerSector (L.fits_primaryHeader crc32), List.length_replicate]
  omega

theorem window_primary_signature : window (L.primary crc32) L.sectorSize 8 = efiPart := by
  have h := congrArg GptHeader.signature (L.fits_primaryHeader crc32).decode_pack
  rw [← window_primary_header] at h
  have e : window (window (L.primary crc32) L.sectorSize 92) 0 8
      = window (L.primary crc32) L.sectorSize 8 := window_window (by omega)
  rw [← e]
  exact h

theorem window_primary_mbr : window (L.primary crc32) 0x1FE 2 = [0x55, 0xAA] := by
  rw [primary, mbr, List.append_assoc, List.append_assoc]
  exact window_middle L.bootCode_length rfl

/-- with 4096-byte sectors the bytes after the MBR are zeros, not a signature -/
theorem window_primary_zeros (h : L.sectorSize = 0x1000) :
    window (L.primary crc32) 0x200 8 = List.replicate 8 0 := by
  have hboot : (L.bootCode ++ [0x55, 0xAA]).length = 0x200 := by
    rw [List.length_append, L.bootCode_length]
    rfl
  rw [primary, mbr, List.append_assoc, window_append_right (by omega), hboot, Nat.sub_self,
    window_append_left (by rw [List.length_replicate, h]; decide), window_zero,
    List.take_replicate, h]
  rfl

theorem detectSectorSize_primary : detectSectorSize (L.primary crc32) = L.sectorSize := by
  have hsig := L.window_primary_signature crc32
  rcases L.sector with h | h
  · rw [h] at hsig
    rw [detectSectorSize_small hsig, h]
  · have hz := L.window_primary_zeros crc32 h
    rw [h] at hsig
    have hne : window (L.primary crc32) 0x200 8 ≠ efiPart := by
      rw [hz]
      decide
    rw [detectSectorSize_large hne hsig, h]

/-! ### the backup span -/

theorem two_le_firstUsable : 2 ≤ L.firstUsableLba := by
  have h1 := L.primary_start
  have h2 : L.primaryEntryLba * L.sectorSize ≤ L.firstUsableLba * L.sectorSize :=
    le_trans (Nat.le_add_right _ _) L.primary_stop
  have h3 := Nat.le_of_mul_le_mul_right h2 (lt_of_lt_of_le (by decide) L.sector_le)
  omega

theorem backup_size : (L.firstUsableLba - 2) * L.sectorSize + L.sectorSize
    = (L.firstUsableLba - 1) * L.sectorSize := by
  have h := L.two_le_firstUsable
  rw [← Nat.succ_mul]
  congr 1
  omega

theorem length_backup : (L.backup crc32).length = (L.firstUsableLba - 1) * L.sectorSize := by
  have h1 := L.backup_size
  have h2 : L.backupGap * L.sectorSize + L.slots.length * L.entrySize
    ≤ (L.firstUsableLba - 2) * L.sectorSize := L.backup_stop
  simp only [backup, List.length_append, L.length_headerSector (L.fits_backupHeader crc32),
    List.length_replicate, L.length_entries]
  omega

theorem window_backup_entries : window (L.backup crc32) (L.backupGap * L.sectorSize)
    (L.slots.length * L.entrySize) = L.entries :=
  window_middle List.length_replicate L.length_entries

theorem window_backup_header : window (L.backup crc32) ((L.firstUsableLba - 2) * L.sectorSize) 92
    = pack gptHeader (L.backupHeader crc32).values := by
  have h : L.backupGap * L.sectorSize + L.slots.length * L.entrySize
    ≤ (L.firstUsableLba - 2) * L.sectorSize := L.backup_stop
  rw [backup, ← List.append_assoc, ← List.append_assoc, headerSector]
  refine window_middle ?_ (L.fits_backupHeader crc32).length_pack
  rw [List.length_append, List.length_append, List.length_replicate, List.length_replicate,
    L.length_entries]
  omega

theorem backupStart_primaryHeader :
    backupStart (L.primaryHeader crc32) = (L.backupLba : Int) - L.firstUsableLba + 2 := rfl

theorem backupGap_eq : ((L.backupEntryLba : Int) - backupStart (L.primaryHeader crc32)).toNat
    = L.backupGap := by
  have h := L.backup_start
  rw [backupStart_primaryHeader, backupGap]
  omega

/-- **The two spans of a layout are an acceptable pair.** -/
theorem pairOk : PairOk crc32 (L.primary crc32) (L.backup crc32) L.sectorSize
    (L.primaryHeader crc32) (L.backupHeader crc32) L.entries L.partitions where
  sector := L.detectSectorSize_primary crc32
  sector_ne := by
    have := L.sector_le
    omega
  mbr := L.window_primary_mbr crc32
  primaryHeader := by
    have h1 := L.length_primary crc32
    have h2 := Nat.mul_le_mul_right L.sectorSize L.two_le_firstUsable
    have h3 := L.sector_le
    exact headerAt_sealHeader rfl rfl rfl rfl (L.fits_primaryHeader crc32) (by omega)
      (L.window_primary_header crc32)
  current := rfl
  primaryLength := L.length_primary crc32
  two_le := L.two_le_firstUsable
  backupLength := L.length_backup crc32
  backupHeader := by
    have h1 := L.length_backup crc32
    have h2 := L.backup_size
    have h3 := L.sector_le
    refine headerAt_sealHeader rfl rfl rfl rfl (L.fits_backupHeader crc32) ?_
      (L.window_backup_header crc32)
    show (L.firstUsableLba - 2) * L.sectorSize + 92 ≤ _
    omega
  mirrored := rfl
  backupCurrent := rfl
  backupBackup := rfl
  primaryEntries := by
    refine L.entriesAt_header crc32 (L.window_primary_entries crc32) ?_
    rw [L.length_primary crc32]
    exact L.primary_stop
  start_le := by
    have h := L.backup_start
    rw [backupStart_primaryHeader]
    show (L.backupLba : Int) - L.firstUsableLba + 2 ≤ L.backupEntryLba
    omega
  backupEntries := by
    have h1 := L.length_backup crc32
    have h2 := L.backup_size
    have h3 : L.backupGap * L.sectorSize + L.slots.length * L.entrySize
      ≤ (L.firstUsableLba - 2) * L.sectorSize := L.backup_stop
    have e : ((L.backupHeader crc32).partitionEntryStartLba : Int) = L.backupEntryLba := rfl
    rw [e, L.backupGap_eq crc32]
    exact L.entriesAt_header crc32 (L.window_backup_entries crc32) (by omega)

end Layout

/-- **Parsing undoes encoding**: for every layout, whatever the checksum function, the parser
accepts the two encoded spans and returns the description of the layout. -/
theorem parseGptPair_encode (crc32 : Bytes → UInt32) (L : Layout) :
    parseGptPair crc32 (L.primary crc32) (L.backup crc32) = .ok L.parsed :=
  parseGptPair_eq_ok.mpr ⟨_, _, _, _, _, L.pairOk crc32, rfl⟩

/-- a small disk: one partition of two sectors, one empty slot, and uniform boot code -/
def smallLayout (boot : UInt8) : Layout where
  sectorSize := 0x200
  bootCode := List.replicate 0x1FE boot
  diskGuid := List.replicate 16 0x5A
  firstUsableLba := 3
  lastUsableLba := 5
  backupLba := 7
  entrySize := 128
  primaryEntryLba := 2
  backupEntryLba := 6
  slots := [.used ⟨List.replicate 16 0xAF, List.replicate 16 1, 3, 4, 0, "boot_a", []⟩,
    .empty (List.replicate 112 0)]
  sector := Or.inl rfl
  bootCode_length := List.length_replicate
  diskGuid_length := List.length_replicate
  firstUsable_lt := by decide
  lastUsable_lt := by decide
  backup_lt := by decide
  primaryEntry_lt := by decide
  backupEntry_lt := by decide
  stride := by decide
  stride_lt := by decide
  aligned := by decide
  slots_pos := by decide
  slots_le := by decide
  slots_ok := by
    intro s hs
    rcases List.mem_cons.mp hs with rfl | hs
    · exact ⟨rfl, by decide, rfl, by decide, by decide, by decide, by decide, by decide, by decide,
        rfl⟩
    · rw [List.mem_singleton.mp hs]
      rfl
  names_nodup := by decide
  primary_start := by decide
  primary_stop := by decide
  backup_start := by decide
  backup_stop := by decide

/-- the spans of the small disk are accepted, whatever the checksum function -/
theorem smallLayout_accepted (crc32 : Bytes → UInt32) (boot : UInt8) :
    parseGptPair crc32 ((smallLayout boot).primary crc32) ((smallLayout boot).backup crc32)
      = .ok (smallLayout boot).parsed :=
  parseGptPair_eq_ok.mpr ⟨_, _, _, _, _, (smallLayout boot).pairOk crc32, rfl⟩

theorem parse_smallLayout :
    parseGptPair Crc32.crc32 ((smallLayout 0).primary Crc32.crc32)
      ((smallLayout 0).backup Crc32.crc32) = .ok (smallLayout 0).parsed :=
  parseGptPair_encode Crc32.crc32 (smallLayout 0)

end RT7.Gpt
