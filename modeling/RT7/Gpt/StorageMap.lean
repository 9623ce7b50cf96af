import RT7.Gpt.Flash

/-!
# The accepted table as a storage map

What `parse_gpt_pair` checks of the ranges is local to each slot: every range lies inside the
usable LBAs of the headers.  It compares no two ranges, and it does not relate `last_usable_lba` to
the backup span; that is the geometry guard of `da_gpt`.

* `parseGptPair_ranges`    every range of an accepted table is usable;
* `overlapLayout`          an accepted table with overlapping ranges, one of them in the backup span;
* `parseGptPair_storage`   what an accepted table guarantees as a map of the disk.
-/

namespace RT7.Gpt
open Py

/-- the LBAs of a partition -/
def Partition.Covers (p : Partition) (lba : Int) : Prop := p.firstLba ≤ lba ∧ lba ≤ p.lastLba

instance (p : Partition) (lba : Int) : Decidable (p.Covers lba) :=
  inferInstanceAs (Decidable (_ ∧ _))

/-- the LBAs captured in the primary span -/
def ParsedGpt.InPrimary (g : ParsedGpt) (lba : Int) : Prop := 0 ≤ lba ∧ lba < g.firstUsableLba

/-- the LBAs captured in the backup span -/
def ParsedGpt.InBackup (g : ParsedGpt) (lba : Int) : Prop :=
  (g.backupLba : Int) - g.firstUsableLba + 2 ≤ lba ∧ lba ≤ g.backupLba

instance (g : ParsedGpt) (lba : Int) : Decidable (g.InBackup lba) :=
  inferInstanceAs (Decidable (_ ∧ _))

/-- no two partitions share an LBA -/
def ParsedGpt.Disjoint (g : ParsedGpt) : Prop :=
  g.partitions.items.Pairwise fun a b => ∀ lba, a.2.Covers lba → ¬ b.2.Covers lba

/-- no partition reaches into a captured span -/
def ParsedGpt.ClearOfSpans (g : ParsedGpt) : Prop :=
  ∀ a ∈ g.partitions.items, ∀ lba, a.2.Covers lba → ¬ g.InPrimary lba ∧ ¬ g.InBackup lba

section
variable {crc32 : Bytes → UInt32}

/-- every range of an accepted table lies inside the usable LBAs -/
theorem parseGptPair_ranges {P B : Bytes} {g : ParsedGpt} (h : parseGptPair crc32 P B = .ok g)
    {name : String} {p : Partition} (hp : (name, p) ∈ g.partitions.items) :
    g.firstUsableLba ≤ p.firstLba ∧ p.firstLba ≤ p.lastLba ∧ p.lastLba ≤ g.lastUsableLba := by
  obtain ⟨s, hd, hb, raw, m, H, rfl⟩ := parseGptPair_eq_ok.mp h
  have hitems : (ParsedGpt.ofHeader s hd m).partitions.items = m.items := rfl
  rw [hitems, H.primaryEntries.items] at hp
  obtain ⟨e, he, hitem⟩ := List.mem_map.mp hp
  have hok := H.primaryEntries.table.slots_ok e he
  obtain ⟨_, rfl⟩ := Prod.mk.inj hitem
  exact ⟨hok.usable, hok.range, hok.last⟩

end

/-- **An accepted table as a storage map.**  Every range is non-empty and usable, so no range meets
the primary span.  A range can meet the backup span only where the usable LBAs reach into it, which
they do not in any table that `da_gpt` captured. -/
theorem parseGptPair_storage (crc32 : Bytes → UInt32) :
    (∀ (P B : Bytes) (g : ParsedGpt), parseGptPair crc32 P B = .ok g →
      ∀ (name : String) (p : Partition), (name, p) ∈ g.partitions.items →
        g.firstUsableLba ≤ p.firstLba ∧ p.firstLba ≤ p.lastLba ∧ p.lastLba ≤ g.lastUsableLba ∧
        (∀ lba, p.Covers lba → ¬ g.InPrimary lba) ∧
        ((g.lastUsableLba : Int) < g.backupLba - g.firstUsableLba + 2 →
          ∀ lba, p.Covers lba → ¬ g.InBackup lba)) ∧
    (∀ (F : Bytes) (gpt : GuidGpt) (flashSize : Nat) (readflash : Int → Int → Option Bytes)
      (directory : Option String) (P B : Bytes) (g : ParsedGpt),
      SeesFlash F gpt flashSize readflash →
      daGpt (some gpt) flashSize readflash directory
        = .ok [(gptFilename directory, P), (gptBackupFilename directory, B)] →
      parseGptPair crc32 P B = .ok g →
      (g.lastUsableLba : Int) < g.backupLba - g.firstUsableLba + 2) := by
  constructor
  · intro P B g h name p hp
    obtain ⟨h1, h2, h3⟩ := parseGptPair_ranges h hp
    refine ⟨h1, h2, h3, ?_, ?_⟩
    · rintro lba ⟨hlo, _⟩ ⟨_, hhi⟩
      omega
    · rintro hguard lba ⟨_, hhi⟩ ⟨hlo, _⟩
      omega
  · intro F gpt flashSize readflash directory P B g H hrun h
    obtain ⟨hsig, G, hfiles⟩ := (daGpt_eq_ok H).mp hrun
    obtain ⟨s, hp, hb, raw, m, K, rfl⟩ := parseGptPair_eq_ok.mp h
    obtain ⟨hP, hB⟩ : P = primarySpan F gpt.sectorsize _ ∧ B = backupSpan F gpt.sectorsize _ := by
      simpa using hfiles
    subst hP; subst hB
    have hs := detectSectorSize_primarySpan H hsig G
    obtain rfl : gpt.sectorsize = s := hs.symm.trans K.sector
    have F1 := ((pairOk_iff_flashOk hs H.sector_le G).mp K).primaryHeader.fields
    rw [Nat.one_mul] at F1
    rw [← F1] at G
    have h2 := G.last_lt
    show (hp.lastUsableLba : Int) < hp.backupLba - hp.firstUsableLba + 2
    omega

/-- a disk whose usable LBAs reach to its end, with two overlapping partitions, the second of them
over the backup span -/
def overlapLayout : Layout :=
  { smallLayout 0 with
    lastUsableLba := 7
    slots := [.used ⟨List.replicate 16 0xAF, List.replicate 16 1, 3, 5, 0, "boot_a", []⟩,
      .used ⟨List.replicate 16 0xAF, List.replicate 16 2, 5, 7, 0, "boot_b", []⟩]
    lastUsable_lt := (smallLayout 0).backup_lt
    slots_pos := by decide
    slots_le := by decide
    slots_ok := by
      intro s hs
      rcases List.mem_cons.mp hs with rfl | hs
      · exact ⟨rfl, by decide, rfl, by decide, by decide, by decide, by decide, by decide,
          by decide, rfl⟩
      · rw [List.mem_singleton.mp hs]
        exact ⟨rfl, by decide, rfl, by decide, by decide, by decide, by decide, by decide,
          by decide, rfl⟩
    names_nodup := by decide
    primary_stop := by decide
    backup_stop := by decide }

/-- The parser accepts it, although LBA 5 belongs to both partitions and LBA 7 also to the backup
span. -/
theorem parseGptPair_overlap :
    ∃ g, parseGptPair Crc32.crc32 (overlapLayout.primary Crc32.crc32)
        (overlapLayout.backup Crc32.crc32) = .ok g ∧ ¬ g.Disjoint ∧ ¬ g.ClearOfSpans := by
  refine ⟨overlapLayout.parsed, parseGptPair_eq_ok.mpr
    ⟨_, _, _, _, _, overlapLayout.pairOk Crc32.crc32, rfl⟩, ?_, ?_⟩
  · intro h
    exact (List.pairwise_cons.mp h).1 ("boot_b", ⟨5, 7, 0x600⟩) List.mem_cons_self 5 (by decide)
      (by decide)
  · intro h
    exact (h ("boot_b", ⟨5, 7, 0x600⟩) (List.mem_cons_of_mem _ List.mem_cons_self) 7 (by decide)).2
      (by decide)

/-- the small disk, whose usable LBAs end before its backup span -/
theorem parseGptPair_storage_small : ¬ (smallLayout 0).parsed.InBackup 4 :=
  ((parseGptPair_storage Crc32.crc32).1 _ _ _
    (smallLayout_accepted Crc32.crc32 0) "boot_a"
    ⟨3, 4, 0x400⟩ List.mem_cons_self).2.2.2.2 (by decide) 4 (by decide)

end RT7.Gpt
