import RT7.Gpt.Layout
import RT7.Base.Crc32

/-!
# The map and the slots of the entry array

* `usedIndices`        the slots whose type GUID is not zero, in order;
* `Records`            what an entry of the map says of its slot;
* `EntriesAt.records`  the map of an acceptable array records its used slots, one entry each;
* `partitions_exact`   the map that `parse_gpt_pair` returns, against the array of either copy.
-/

namespace RT7.Gpt
open Py

/-- the used slots among the first `count`, by index -/
def usedIndices (raw : Bytes) (n count : Nat) : List Nat :=
  (List.range count).filter fun i => Used (slot raw n i)

/-- An entry of the map records a slot. -/
structure Records (h : GptHeader) (sectorSize : Nat) (entry : Bytes) (item : String × Partition) :
    Prop where
  firstLba : item.2.firstLba = leNat (window entry 32 8)
  lastLba : item.2.lastLba = leNat (window entry 40 8)
  size : item.2.size = (item.2.lastLba - item.2.firstLba + 1) * sectorSize
  name : ∃ text, Utf16.decodeLE (window entry 56 72) = some text ∧
    item.1 = String.ofList (text.takeWhile (· ≠ '\x00'))
  nonempty : item.1 ≠ ""
  usable : h.firstUsableLba ≤ item.2.firstLba ∧ item.2.firstLba ≤ item.2.lastLba ∧
    item.2.lastLba ≤ h.lastUsableLba

theorem usedSlots_eq_map (raw : Bytes) (n count : Nat) :
    usedSlots raw n count = (usedIndices raw n count).map (slot raw n) := by
  rw [usedSlots, usedIndices, List.filter_map]
  rfl

section
variable {crc32 : Bytes → UInt32} {data : Bytes} {o stop sectorSize : Nat} {h : GptHeader}
  {raw : Bytes} {m : PartitionMap}

/-- an acceptable slot is recorded by its entry -/
theorem SlotOk.records {entry : Bytes} (hok : SlotOk h.firstUsableLba h.lastUsableLba entry) :
    Records h sectorSize entry (slotItem sectorSize entry) := by
  obtain ⟨name, hname, hne⟩ := hok.name
  have hkey : slotKey entry = name := by
    rw [slotKey, hname]
    rfl
  obtain ⟨text, htext, hcut⟩ := Option.map_eq_some_iff.mp hname
  refine ⟨rfl, rfl, rfl, ⟨text, htext, ?_⟩, ?_, hok.usable, hok.range, hok.last⟩
  · show slotKey entry = _
    rw [hkey, ← hcut, beforeNul]
  · show slotKey entry ≠ ""
    rw [hkey]
    exact hne

/-- **The map of an acceptable array records the used slots in order, one entry each.** -/
theorem EntriesAt.records (H : EntriesAt crc32 data o stop h sectorSize raw m) :
    List.Forall₂ (fun i item => Records h sectorSize (slot raw h.partitionEntrySize i) item)
      (usedIndices raw h.partitionEntrySize h.numPartitionEntries) m.items := by
  have hitems := H.items
  rw [usedSlots_eq_map, List.map_map] at hitems
  rw [hitems, List.forall₂_map_right_iff, List.forall₂_same]
  intro i hi
  apply SlotOk.records
  apply H.table.slots_ok
  rw [usedSlots_eq_map]
  exact List.mem_map_of_mem hi

end

/-- **No partition is lost, invented or merged.**  Where `parse_gpt_pair` returns, its map records
the used slots of the primary array in order, one entry each and no key twice, and the backup array,
located from the LBA at which the backup span starts, has the same bytes. -/
theorem partitions_exact (crc32 : Bytes → UInt32) {primary backup : Bytes} {g : ParsedGpt}
    (h : parseGptPair crc32 primary backup = .ok g) :
    ∃ (header backupHeader : GptHeader) (A : Bytes),
      header = GptHeader.decode (window primary g.sectorSize 92) ∧
      backupHeader = GptHeader.decode
        (window backup ((header.firstUsableLba - 2) * g.sectorSize) 92) ∧
      A = window primary (header.partitionEntryStartLba * g.sectorSize)
        (header.numPartitionEntries * header.partitionEntrySize) ∧
      A.length = header.numPartitionEntries * header.partitionEntrySize ∧
      List.Forall₂ (fun i item => Records header g.sectorSize (slot A header.partitionEntrySize i) item)
        (usedIndices A header.partitionEntrySize header.numPartitionEntries) g.partitions.items ∧
      g.partitions.keys.Nodup ∧
      backupStart header ≤ backupHeader.partitionEntryStartLba ∧
      window backup
        ((backupHeader.partitionEntryStartLba - backupStart header).toNat * g.sectorSize)
        (backupHeader.numPartitionEntries * backupHeader.partitionEntrySize) = A := by
  obtain ⟨s, hp, hb, raw, m, H, rfl⟩ := parseGptPair_eq_ok.mp h
  exact ⟨hp, hb, raw, H.primaryHeader.fields, H.backupHeader.fields, H.primaryEntries.bytes,
    H.primaryEntries.length_raw (Nat.le_refl _), H.primaryEntries.records, m.nodup, H.start_le,
    H.backupEntries.bytes.symm⟩

/-- the small disk: one partition, one empty slot -/
theorem partitions_exact_small : ∃ (header backupHeader : GptHeader) (A : Bytes),
    header = GptHeader.decode (window ((smallLayout 0).primary Crc32.crc32) 0x200 92) ∧
    List.Forall₂ (fun i item => Records header 0x200 (slot A header.partitionEntrySize i) item)
      (usedIndices A header.partitionEntrySize header.numPartitionEntries)
      (smallLayout 0).parsed.partitions.items ∧
    window ((smallLayout 0).backup Crc32.crc32)
      ((backupHeader.partitionEntryStartLba - backupStart header).toNat * 0x200)
      (backupHeader.numPartitionEntries * backupHeader.partitionEntrySize) = A := by
  obtain ⟨header, backupHeader, A, hheader, -, -, -, hrecords, -, -, hbackup⟩ :=
    partitions_exact Crc32.crc32 (smallLayout_accepted Crc32.crc32 0)
  exact ⟨header, backupHeader, A, hheader, hrecords, hbackup⟩

end RT7.Gpt
