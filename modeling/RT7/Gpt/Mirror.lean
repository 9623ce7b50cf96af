import RT7.Gpt.Layout
import RT7.Base.Crc32

/-!
# One span pins the whole table

An accepted table can be read off either copy alone: off the primary span, and, once the sector
size is known, off the backup span.  So a change of one span is rejected or has no effect.

* `PairOk.result_of_backup`   the returned dictionary, from the backup header;
* `PairOk.backup_unique`      two acceptable pairs with one backup span and one sector size have
                              the same backup header, array and map;
* `parseGptPair_one_sided`    the two-run statement.

The checksum plays no part: `crc32` is arbitrary and may collide.
-/

namespace RT7.Gpt
open Py

section
variable {crc32 : Bytes → UInt32}

/-- what the returned dictionary says, in terms of the backup copy -/
def ParsedGpt.ofBackup (sectorSize : Nat) (h : GptHeader) (partitions : PartitionMap) :
    ParsedGpt where
  sectorSize := sectorSize
  diskGuid := hex h.diskGuid
  primaryLba := h.backupLba
  backupLba := h.currentLba
  firstUsableLba := h.firstUsableLba
  lastUsableLba := h.lastUsableLba
  partitions := partitions

theorem PairOk.result_of_backup {P B : Bytes} {s : Nat} {hp hb : GptHeader} {raw : Bytes}
    {m : PartitionMap} (H : PairOk crc32 P B s hp hb raw m) :
    ParsedGpt.ofHeader s hp m = ParsedGpt.ofBackup s hb m := by
  obtain ⟨hf, hl, hg, _, _, _⟩ := mirroredFields_eq.mp H.mirrored
  rw [ParsedGpt.ofHeader, ParsedGpt.ofBackup, hf, hl, hg, H.backupCurrent, H.backupBackup]

theorem PairOk.sector_pos {P B : Bytes} {s : Nat} {hp hb : GptHeader} {raw : Bytes}
    {m : PartitionMap} (H : PairOk crc32 P B s hp hb raw m) : 0 < s :=
  Nat.pos_of_ne_zero H.sector_ne

/-- the length of the backup span fixes `first_usable_lba` -/
theorem PairOk.firstUsable_unique {P P' B : Bytes} {s : Nat} {hp hb hp' hb' : GptHeader}
    {raw raw' : Bytes} {m m' : PartitionMap} (H : PairOk crc32 P B s hp hb raw m)
    (H' : PairOk crc32 P' B s hp' hb' raw' m') : hp.firstUsableLba = hp'.firstUsableLba := by
  have h := H.backupLength.symm.trans H'.backupLength
  have h' := Nat.eq_of_mul_eq_mul_right H.sector_pos h
  have h1 := H.two_le
  have h2 := H'.two_le
  omega

/-- **The backup span pins its header, its array and the map.** -/
theorem PairOk.backup_unique {P P' B : Bytes} {s : Nat} {hp hb hp' hb' : GptHeader}
    {raw raw' : Bytes} {m m' : PartitionMap} (H : PairOk crc32 P B s hp hb raw m)
    (H' : PairOk crc32 P' B s hp' hb' raw' m') : hb = hb' ∧ raw = raw' ∧ m = m' := by
  have hfu := H.firstUsable_unique H'
  -- both headers are read at the same offset, and so is the array they point to
  have hhb : hb = hb' := by
    rw [H.backupHeader.fields, H'.backupHeader.fields, hfu]
  subst hhb
  have hstart : backupStart hp = backupStart hp' := by
    have h1 := H.backupCurrent
    have h2 := H'.backupCurrent
    unfold backupStart
    rw [hfu, ← h1, ← h2]
  have hraw : raw = raw' := by
    rw [H.backupEntries.bytes, H'.backupEntries.bytes, hstart]
  subst hraw
  exact ⟨rfl, rfl, H.backupEntries.partitions_eq H'.backupEntries rfl⟩

end

/-- **One-sided changes never change an accepted table.**  Two accepted runs that share the backup
span and report one sector size return the same dictionary, and so do two accepted runs that
share the primary span. -/
theorem parseGptPair_one_sided (crc32 : Bytes → UInt32) :
    (∀ (P P' B : Bytes) (g g' : ParsedGpt), parseGptPair crc32 P B = .ok g →
      parseGptPair crc32 P' B = .ok g' → g.sectorSize = g'.sectorSize → g = g') ∧
    (∀ (P B B' : Bytes) (g g' : ParsedGpt), parseGptPair crc32 P B = .ok g →
      parseGptPair crc32 P B' = .ok g' → g = g') := by
  constructor
  · intro P P' B g g' h h' hs
    obtain ⟨s, hp, hb, raw, m, H, rfl⟩ := parseGptPair_eq_ok.mp h
    obtain ⟨s', hp', hb', raw', m', H', rfl⟩ := parseGptPair_eq_ok.mp h'
    obtain rfl : s = s' := hs
    obtain ⟨rfl, rfl, rfl⟩ := H.backup_unique H'
    rw [H.result_of_backup, H'.result_of_backup]
  · intro P B B' g g' h h'
    obtain ⟨s, hp, hb, raw, m, H, rfl⟩ := parseGptPair_eq_ok.mp h
    obtain ⟨s', hp', hb', raw', m', H', rfl⟩ := parseGptPair_eq_ok.mp h'
    obtain rfl : s = s' := H.sector.symm.trans H'.sector
    obtain rfl : hp = hp' := H.primaryHeader.fields.trans H'.primaryHeader.fields.symm
    have hraw : raw = raw' := H.primaryEntries.bytes.trans H'.primaryEntries.bytes.symm
    subst hraw
    rw [H.primaryEntries.partitions_eq H'.primaryEntries rfl]

/-- two primary spans that differ in their boot code, over one backup span -/
theorem parseGptPair_one_sided_small :
    (smallLayout 0).primary Crc32.crc32 ≠ (smallLayout 1).primary Crc32.crc32 ∧
      (smallLayout 0).parsed = (smallLayout 1).parsed :=
  ⟨by decide +kernel, (parseGptPair_one_sided Crc32.crc32).1 _ ((smallLayout 1).primary Crc32.crc32)
    ((smallLayout 0).backup Crc32.crc32) _ _
    (parseGptPair_eq_ok.mpr ⟨_, _, _, _, _, (smallLayout 0).pairOk Crc32.crc32, rfl⟩)
    (parseGptPair_eq_ok.mpr ⟨_, _, _, _, _, (smallLayout 1).pairOk Crc32.crc32, rfl⟩) rfl⟩

end RT7.Gpt
