import RT7.Gpt.Entries
import Mathlib.Tactic.Zify

/-!
# The two captured GPT spans: `parse_gpt_pair`

* `ParsedGpt`            the dictionary the function returns;
* `detectSectorSize`     the signature probe that fixes the sector size;
* `parseGptPair`         the function;
* `PairOk`               what makes a pair of spans acceptable: two acceptable headers that mirror
                         each other and one entry array stored twice;
* `parseGptPair_eq_ok`   the function returns exactly on acceptable pairs, and what it returns.
-/

namespace RT7.Gpt
open Py

structure ParsedGpt where
  sectorSize : Nat
  diskGuid : String
  primaryLba : Nat
  backupLba : Nat
  firstUsableLba : Nat
  lastUsableLba : Nat
  partitions : PartitionMap
  deriving DecidableEq

/-- `==` of two result dictionaries -/
def ParsedGpt.eqv (g g' : ParsedGpt) : Prop :=
  g.sectorSize = g'.sectorSize ∧ g.diskGuid = g'.diskGuid ∧ g.primaryLba = g'.primaryLba ∧
    g.backupLba = g'.backupLba ∧ g.firstUsableLba = g'.firstUsableLba ∧
    g.lastUsableLba = g'.lastUsableLba ∧ g.partitions.eqv g'.partitions

instance (g g' : ParsedGpt) : Decidable (g.eqv g') := inferInstanceAs (Decidable (_ ∧ _))

theorem ParsedGpt.eqv_refl (g : ParsedGpt) : g.eqv g :=
  ⟨rfl, rfl, rfl, rfl, rfl, rfl, Dict.eqv_refl g.partitions⟩

/-- `next((size for size in (0x200, 0x1000) if ...), 0)` -/
def detectSectorSize (primary : Bytes) : Nat :=
  (([0x200, 0x1000] : List Nat).find? fun (size : Nat) =>
    slice primary size (size + 8) = efiPart).getD 0

/-- the values of `mirrored_fields` -/
def mirroredFields (h : GptHeader) : Nat × Nat × Bytes × Nat × Nat × Nat :=
  (h.firstUsableLba, h.lastUsableLba, h.diskGuid, h.numPartitionEntries, h.partitionEntrySize,
    h.partitionEntryCrc32)

section
variable (crc32 : Bytes → UInt32)

def parseGptPair (primary backup : Bytes) : Except Exn ParsedGpt := do
  let sectorSize := detectSectorSize primary
  raiseIf (sectorSize = 0) (.valueError "primary GPT signature was not found at LBA 1")
  raiseIf (slice primary 0x1FE 0x200 ≠ [0x55, 0xAA])
    (.valueError "protective MBR signature is invalid")
  let primaryHeader ← parseGptHeader crc32 primary sectorSize "primary"
  raiseIf (primaryHeader.currentLba ≠ 1) (.valueError "primary GPT is not located at LBA 1")
  let expectedPrimarySize := primaryHeader.firstUsableLba * sectorSize
  raiseIf (primary.length ≠ expectedPrimarySize)
    (.valueError
      s!"primary GPT span has size {primary.length}, expected {expectedPrimarySize}")
  let backupSectors : Int := primaryHeader.firstUsableLba - 1
  let expectedBackupSize := backupSectors * sectorSize
  raiseIf (backup.length ≠ expectedBackupSize)
    (.valueError s!"backup GPT span has size {backup.length}, expected {expectedBackupSize}")
  let backupStartLba := primaryHeader.backupLba - backupSectors + 1
  let backupHeaderOffset := (primaryHeader.backupLba - backupStartLba) * sectorSize
  let backupHeader ← parseGptHeader crc32 backup backupHeaderOffset "backup"
  raiseIf (mirroredFields primaryHeader ≠ mirroredFields backupHeader)
    (.valueError "primary and backup GPT headers disagree")
  raiseIf (backupHeader.currentLba ≠ primaryHeader.backupLba ∨
      backupHeader.backupLba ≠ primaryHeader.currentLba)
    (.valueError "backup GPT LBA pointers do not mirror the primary header")
  let (primaryEntries, primaryPartitions) ←
    parseGptEntries crc32 primary primaryHeader 0 sectorSize "primary"
  let (backupEntries, backupPartitions) ←
    parseGptEntries crc32 backup backupHeader backupStartLba sectorSize "backup"
  raiseIf (primaryEntries ≠ backupEntries ∨ ¬ primaryPartitions.eqv backupPartitions)
    (.valueError "primary and backup GPT partition arrays are not identical")
  return {
    sectorSize := sectorSize
    diskGuid := hex primaryHeader.diskGuid
    primaryLba := primaryHeader.currentLba
    backupLba := primaryHeader.backupLba
    firstUsableLba := primaryHeader.firstUsableLba
    lastUsableLba := primaryHeader.lastUsableLba
    partitions := primaryPartitions }

/-- the returned dictionary, from the primary header and the map -/
def ParsedGpt.ofHeader (sectorSize : Nat) (h : GptHeader) (partitions : PartitionMap) : ParsedGpt where
  sectorSize := sectorSize
  diskGuid := hex h.diskGuid
  primaryLba := h.currentLba
  backupLba := h.backupLba
  firstUsableLba := h.firstUsableLba
  lastUsableLba := h.lastUsableLba
  partitions := partitions

/-- the LBA at which the backup span starts; it may be negative -/
def backupStart (h : GptHeader) : Int := h.backupLba - h.firstUsableLba + 2

/-- The spans `primary` and `backup` are acceptable with sector size `s`, headers `hp`, `hb`, and
the entry array `raw`, whose map is `partitions`. -/
structure PairOk (primary backup : Bytes) (s : Nat) (hp hb : GptHeader) (raw : Bytes)
    (partitions : PartitionMap) : Prop where
  sector : detectSectorSize primary = s
  sector_ne : s ≠ 0
  mbr : window primary 0x1FE 2 = [0x55, 0xAA]
  primaryHeader : HeaderAt crc32 primary s primary.length hp
  current : hp.currentLba = 1
  primaryLength : primary.length = hp.firstUsableLba * s
  two_le : 2 ≤ hp.firstUsableLba
  backupLength : backup.length = (hp.firstUsableLba - 1) * s
  backupHeader : HeaderAt crc32 backup ((hp.firstUsableLba - 2) * s) backup.length hb
  mirrored : mirroredFields hp = mirroredFields hb
  backupCurrent : hb.currentLba = hp.backupLba
  backupBackup : hb.backupLba = hp.currentLba
  primaryEntries : EntriesAt crc32 primary (hp.partitionEntryStartLba * s) primary.length hp s raw
    partitions
  start_le : backupStart hp ≤ hb.partitionEntryStartLba
  backupEntries : EntriesAt crc32 backup ((hb.partitionEntryStartLba - backupStart hp).toNat * s)
    backup.length hb s raw partitions

end

/-! The span arithmetic of the function, in the terms of `backupStart`. -/

theorem backupStart_eq (h : GptHeader) :
    (h.backupLba : Int) - (h.firstUsableLba - 1) + 1 = backupStart h := by
  unfold backupStart
  ring

/-- the backup header sits `first_usable_lba - 2` sectors into its span -/
theorem headerOffset_eq (h : GptHeader) (s : Nat) :
    ((h.backupLba : Int) - backupStart h) * s = ((h.firstUsableLba : Int) - 2) * s := by
  unfold backupStart
  ring

theorem toNat_mul_sector {a : Int} (ha : 0 ≤ a) (s : Nat) : (a * s).toNat = a.toNat * s := by
  rw [Int.toNat_mul ha (by omega), Int.toNat_natCast]

theorem toNat_sub_two {n : Nat} (s : Nat) (h : 2 ≤ n) : (((n : Int) - 2) * s).toNat = (n - 2) * s := by
  have e : ((n : Int) - 2).toNat = n - 2 := by omega
  rw [toNat_mul_sector (by omega), e]

theorem backupLength_iff {n s len : Nat} (h : 1 ≤ n) :
    (len : Int) = ((n : Int) - 1) * s ↔ len = (n - 1) * s := by
  zify [h]

theorem detectSectorSize_small {primary : Bytes} (h : window primary 0x200 8 = efiPart) :
    detectSectorSize primary = 0x200 := by
  have hw : ∀ n : Nat, slice primary n (n + 8) = window primary n 8 := fun n => slice_eq_window _ n 8
  unfold detectSectorSize
  simp only [hw]
  rw [List.find?_cons_of_pos (by simpa using h)]
  rfl

theorem detectSectorSize_large {primary : Bytes} (h : window primary 0x200 8 ≠ efiPart)
    (h' : window primary 0x1000 8 = efiPart) : detectSectorSize primary = 0x1000 := by
  have hw : ∀ n : Nat, slice primary n (n + 8) = window primary n 8 := fun n => slice_eq_window _ n 8
  unfold detectSectorSize
  simp only [hw]
  rw [List.find?_cons_of_neg (by simpa using h), List.find?_cons_of_pos (by simpa using h')]
  rfl

theorem mirroredFields_eq {h h' : GptHeader} : mirroredFields h = mirroredFields h' ↔
    h.firstUsableLba = h'.firstUsableLba ∧ h.lastUsableLba = h'.lastUsableLba ∧
      h.diskGuid = h'.diskGuid ∧ h.numPartitionEntries = h'.numPartitionEntries ∧
      h.partitionEntrySize = h'.partitionEntrySize ∧
      h.partitionEntryCrc32 = h'.partitionEntryCrc32 := by
  simp only [mirroredFields, Prod.mk.injEq]

section
variable {crc32 : Bytes → UInt32}

/-- the same array under mirrored headers has one map -/
theorem EntriesAt.partitions_eq {d d' : Bytes} {o o' stop stop' s : Nat} {h h' : GptHeader}
    {raw : Bytes} {m m' : PartitionMap} (H : EntriesAt crc32 d o stop h s raw m)
    (H' : EntriesAt crc32 d' o' stop' h' s raw m') (hm : mirroredFields h = mirroredFields h') :
    m = m' := by
  obtain ⟨_, _, _, hcount, hsize, _⟩ := mirroredFields_eq.mp hm
  apply Dict.ext
  rw [H.items, H'.items, hcount, hsize]

/-- **`parse_gpt_pair` returns exactly on acceptable pairs.** -/
theorem parseGptPair_eq_ok {primary backup : Bytes} {g : ParsedGpt} :
    parseGptPair crc32 primary backup = .ok g ↔ ∃ s hp hb raw partitions,
      PairOk crc32 primary backup s hp hb raw partitions ∧
        g = ParsedGpt.ofHeader s hp partitions := by
  unfold parseGptPair
  dsimp only
  generalize hs : detectSectorSize primary = s
  have hmbr : slice primary 0x1FE 0x200 = window primary 0x1FE 2 := slice_eq_window primary 0x1FE 2
  rw [raiseIf_bind_eq_ok, raiseIf_bind_eq_ok, bind_eq_ok, hmbr]
  simp only [not_not, raiseIf_bind_eq_ok, parseGptHeader_eq_ok, Int.toNat_natCast]
  constructor
  · rintro ⟨hs0, h55, hp, ⟨_, Hp⟩, hcur, hplen, hblen, hrun⟩
    rw [bind_eq_ok] at hrun
    obtain ⟨hb, hHb, hrun⟩ := hrun
    rw [parseGptHeader_eq_ok] at hHb
    obtain ⟨hoff, Hb⟩ := hHb
    simp only [raiseIf_bind_eq_ok, not_not, not_or] at hrun
    obtain ⟨hmir, ⟨hbc, hbb⟩, hrun⟩ := hrun
    rw [bind_eq_ok] at hrun
    obtain ⟨⟨raw, m⟩, hent, hrun⟩ := hrun
    rw [bind_eq_ok] at hrun
    obtain ⟨⟨raw', m'⟩, hent', hrun⟩ := hrun
    rw [parseGptEntries_eq_ok] at hent hent'
    simp only [raiseIf_bind_eq_ok, not_not, not_or, pure_eq_ok] at hrun
    obtain ⟨⟨rfl, _⟩, rfl⟩ := hrun
    have hs1 : 0 < s := Nat.pos_of_ne_zero hs0
    rw [backupStart_eq, headerOffset_eq] at hoff Hb
    rw [backupStart_eq] at hent'
    have h2 : 2 ≤ hp.firstUsableLba := by
      have := nonneg_of_mul_nonneg_left hoff (by omega)
      omega
    rw [toNat_sub_two s h2] at Hb
    have hstart : backupStart hp ≤ hb.partitionEntryStartLba := by
      have := nonneg_of_mul_nonneg_left hent'.1 (by omega)
      omega
    have hE : EntriesAt crc32 primary (hp.partitionEntryStartLba * s) primary.length hp s raw m := by
      have := hent.2
      rwa [sub_zero, toNat_mul_sector (by omega), Int.toNat_natCast] at this
    have hE' := hent'.2
    rw [toNat_mul_sector (by omega)] at hE'
    obtain rfl := hE.partitions_eq hE' hmir
    exact ⟨s, hp, hb, raw, m, ⟨hs, hs0, h55, Hp, hcur, hplen, h2,
      (backupLength_iff (by omega)).mp hblen, Hb, hmir, hbc, hbb, hE, hstart, hE'⟩, rfl⟩
  · rintro ⟨s', hp, hb, raw, m, H, rfl⟩
    obtain rfl : s' = s := by rw [← hs, ← H.sector]
    have hs0 := H.sector_ne
    have h2 := H.two_le
    have hstart := H.start_le
    refine ⟨hs0, H.mbr, hp, ⟨by omega, H.primaryHeader⟩, H.current, H.primaryLength,
      (backupLength_iff (by omega)).mpr H.backupLength, ?_⟩
    rw [backupStart_eq, headerOffset_eq, bind_eq_ok]
    refine ⟨hb, parseGptHeader_eq_ok.mpr ⟨mul_nonneg (by omega) (by omega), ?_⟩, ?_⟩
    · rw [toNat_sub_two s' h2]
      exact H.backupHeader
    simp only [raiseIf_bind_eq_ok, not_not, not_or]
    refine ⟨H.mirrored, ⟨H.backupCurrent, H.backupBackup⟩, ?_⟩
    rw [bind_eq_ok]
    refine ⟨(raw, m), parseGptEntries_eq_ok.mpr ⟨mul_nonneg (by omega) (by omega), ?_⟩, ?_⟩
    · rw [sub_zero, toNat_mul_sector (by omega), Int.toNat_natCast]
      exact H.primaryEntries
    rw [bind_eq_ok]
    refine ⟨(raw, m), parseGptEntries_eq_ok.mpr ⟨mul_nonneg (by omega) (by omega), ?_⟩, ?_⟩
    · rw [toNat_mul_sector (by omega)]
      exact H.backupEntries
    simp only [raiseIf_bind_eq_ok, not_not, not_or, pure_eq_ok]
    exact ⟨⟨trivial, Dict.eqv_refl m⟩, rfl⟩

/-- the parsed pair gives the lengths of both spans -/
theorem parseGptPair_lengths {primary backup : Bytes} {g : ParsedGpt}
    (h : parseGptPair crc32 primary backup = .ok g) :
    primary.length = g.firstUsableLba * g.sectorSize ∧
      backup.length = (g.firstUsableLba - 1) * g.sectorSize := by
  obtain ⟨s, hp, hb, raw, partitions, H, rfl⟩ := parseGptPair_eq_ok.mp h
  exact ⟨H.primaryLength, H.backupLength⟩

/-- the names of the map are not empty -/
theorem parseGptPair_name_ne {primary backup : Bytes} {g : ParsedGpt}
    (h : parseGptPair crc32 primary backup = .ok g) : ∀ name ∈ g.partitions.keys, name ≠ "" := by
  obtain ⟨s, hp, hb, raw, partitions, H, rfl⟩ := parseGptPair_eq_ok.mp h
  exact H.primaryEntries.name_ne

/-- a pair that is not accepted is refused with a `ValueError` -/
theorem parseGptPair_raises (primary backup : Bytes) :
    RaisesOnly Exn.IsValueError (parseGptPair crc32 primary backup) := by
  refine .guard (fun _ => ⟨_, rfl⟩) fun _ => ?_
  refine .guard (fun _ => ⟨_, rfl⟩) fun _ => ?_
  refine .bind (parseGptHeader_raises _ _ _) fun _ _ => ?_
  refine .guard (fun _ => ⟨_, rfl⟩) fun _ => ?_
  refine .guard (fun _ => ⟨_, rfl⟩) fun _ => ?_
  refine .guard (fun _ => ⟨_, rfl⟩) fun _ => ?_
  refine .bind (parseGptHeader_raises _ _ _) fun _ _ => ?_
  refine .guard (fun _ => ⟨_, rfl⟩) fun _ => ?_
  refine .guard (fun _ => ⟨_, rfl⟩) fun _ => ?_
  refine .bind (parseGptEntries_raises _ _ _ _ _) fun _ _ => ?_
  refine .bind (parseGptEntries_raises _ _ _ _ _) fun _ _ => ?_
  refine .guard (fun _ => ⟨_, rfl⟩) fun _ => ?_
  exact .ok _

end

end RT7.Gpt
