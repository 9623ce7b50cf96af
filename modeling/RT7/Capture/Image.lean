import RT7.Capture.Certify
import RT7.Gpt.Layout

/-!
# The capture of a partition layout

* `image`           a plausible image of a partition: its magic, or a first byte unlike the rest;
* `imageDir`        the pass directory that a capture of a layout leaves;
* `passOk_imageDir` such a pass is acceptable for every layout that lists the table;
* `place`, `placedLayout`   a layout with the given partitions one after the other.
-/

namespace RT7.Capture

open Py Gpt

def image (name : String) (size : Nat) : Bytes :=
  match requiredMagic.lookup name with
  | some magic => magic ++ List.replicate (size - magic.length) 0
  | none => 1 :: List.replicate (size - 1) 0

/-- The layout lists every partition of the table with its size. -/
def Lists (L : Layout) : Prop :=
  ∀ item ∈ partitions.sizes.items,
    (L.parsed.partitions.get? item.1).map (fun p => p.size) = some item.2

instance (L : Layout) : Decidable (Lists L) :=
  inferInstanceAs (Decidable (∀ item ∈ partitions.sizes.items, _))

theorem length_image {name : String} {size : Nat} (h : 8 ≤ size) :
    (image name size).length = size := by
  unfold image
  have hmagic : ∀ item ∈ requiredMagic, item.2.length ≤ 8 := by decide
  cases hl : requiredMagic.lookup name with
  | none =>
    show (1 :: List.replicate (size - 1) 0).length = size
    rw [List.length_cons, List.length_replicate]
    omega
  | some magic =>
    have hle : magic.length ≤ 8 := hmagic (name, magic) ((Dict.lookup_eq_some (by decide)).mp hl)
    show (magic ++ List.replicate (size - magic.length) 0).length = size
    rw [List.length_append, List.length_replicate]
    omega

theorem magic_image {item : String × Bytes} (h : item ∈ requiredMagic) (size : Nat) :
    item.2 <+: image item.1 size := by
  have hl : requiredMagic.lookup item.1 = some item.2 :=
    (Dict.lookup_eq_some (by decide)).mpr h
  unfold image
  rw [hl]
  exact List.prefix_append _ _

theorem nonuniform_image {name : String} (h : name ∈ scannedNames) {size : Nat} (hs : 8 ≤ size) :
    ∃ a ∈ image name size, ∃ b ∈ image name size, a ≠ b := by
  have hnone : ∀ n ∈ scannedNames, requiredMagic.lookup n = none := by decide
  unfold image
  rw [hnone name h]
  refine ⟨1, List.mem_cons_self, 0, List.mem_cons_of_mem 1 ?_, by decide⟩
  exact List.mem_replicate.mpr ⟨by omega, rfl⟩

section
variable (crc32 : Bytes → UInt32) (L : Layout)

/-- the files of one pass over a disk with the given layout -/
def imageDir : PassDir where
  items := ("gpt.bin", L.primary crc32) :: ("gpt_backup.bin", L.backup crc32) ::
    ((fixedSizes partitions.sizes).items.map fun item => (binName item.1, image item.1 item.2))
  nodup := by
    have e : (("gpt.bin", L.primary crc32) :: ("gpt_backup.bin", L.backup crc32) ::
        ((fixedSizes partitions.sizes).items.map fun item =>
          (binName item.1, image item.1 item.2))).map Prod.fst
        = partitions.artifacts.map binName := by
      rw [List.map_cons, List.map_cons, List.map_map, Table.items_fixedSizes]
      rfl
    rw [e]
    exact partitions.artifacts_nodup.map binName_injective

theorem keys_imageDir : (imageDir crc32 L).keys = partitions.artifacts.map binName := by
  show (_ :: _ :: List.map _ _) = _
  rw [List.map_map, Table.items_fixedSizes]
  rfl

theorem get?_imageDir {item : String × Nat} (h : item ∈ (fixedSizes partitions.sizes).items) :
    (imageDir crc32 L).get? (binName item.1) = some (image item.1 item.2) := by
  refine Dict.get?_eq_some.mpr (List.mem_cons_of_mem _ (List.mem_cons_of_mem _ ?_))
  exact List.mem_map_of_mem h

theorem get?_image {name : String} (h : name ∈ (fixedSizes partitions.sizes).keys) :
    ∃ size, 8 ≤ size ∧ (imageDir crc32 L).get? (binName name) = some (image name size) := by
  have hsize : ∀ item ∈ (fixedSizes partitions.sizes).items, 8 ≤ item.2 := by
    rw [Table.items_fixedSizes]
    decide
  obtain ⟨size, hm⟩ := Dict.mem_keys.mp h
  exact ⟨size, hsize _ hm, get?_imageDir crc32 L hm⟩

/-- **The capture of a layout that lists the table is an acceptable pass.** -/
theorem passOk_imageDir (hL : Lists L) : PassOk crc32 (imageDir crc32 L) L.parsed := by
  have hkeys : ∀ a ∈ ["lk_a", "tee_a", "seccfg", "preloader_lu0", "preloader_lu1", "boot_a",
      "dtbo_a", "vbmeta_a", "vbmeta_system_a", "vbmeta_vendor_a"],
      a ∈ (fixedSizes partitions.sizes).keys := by
    rw [Table.keys_fixedSizes]
    decide
  have hsize : ∀ item ∈ partitions.sizes.items ++
      [("preloader_lu0", 0x80000), ("preloader_lu1", 0x80000)], 8 ≤ item.2 := by decide
  have hitem : ∀ item ∈ partitions.sizes.items ++
      [("preloader_lu0", 0x80000), ("preloader_lu1", 0x80000)],
      Holds (imageDir crc32 L) item.1 fun c => c.length = item.2 := by
    intro item hi
    refine ⟨image item.1 item.2, get?_imageDir crc32 L ?_, length_image (hsize item hi)⟩
    rw [Table.items_fixedSizes]
    exact hi
  refine ⟨?_, ?_, ?_, ?_, ?_, ?_, ?_⟩
  · intro name
    rw [mem_glob, keys_imageDir, List.mem_map]
    constructor
    · exact fun h => h.1
    · rintro ⟨a, ha, rfl⟩
      exact ⟨⟨a, ha, rfl⟩, suffix_binName a⟩
  · intro item hi
    exact hitem item (List.mem_append_left _ hi)
  · intro name hname
    exact hitem (name, 0x80000) (List.mem_append_right _ (by simpa using hname))
  · refine ⟨L.primary crc32, L.backup crc32, rfl, rfl, ?_⟩
    exact parseGptPair_eq_ok.mpr ⟨_, _, _, _, _, L.pairOk crc32, rfl⟩
  · intro item hi
    exact Option.map_eq_some_iff.mp (hL item hi)
  · intro item hi
    have hfix : ∀ item ∈ requiredMagic, item.1 ∈ ["lk_a", "tee_a", "seccfg", "preloader_lu0",
        "preloader_lu1", "boot_a", "dtbo_a", "vbmeta_a", "vbmeta_system_a", "vbmeta_vendor_a"] := by
      decide
    obtain ⟨size, -, hget⟩ := get?_image crc32 L (hkeys _ (hfix item hi))
    exact ⟨_, hget, magic_image hi size⟩
  · intro name hname
    obtain ⟨size, hs, hget⟩ := get?_image crc32 L
      (hkeys name (List.mem_append_left ["boot_a", "dtbo_a", "vbmeta_a", "vbmeta_system_a",
        "vbmeta_vendor_a"] hname))
    exact ⟨_, hget, nonuniform_image hname hs⟩

end

/-! ## a layout with given partitions -/

/-- the partitions one after the other, in sectors of 4096 bytes -/
def place (firstLba : Nat) : List (String × Nat) → List PartitionSlot
  | [] => []
  | (name, size) :: rest =>
    ⟨List.replicate 16 0xAF, List.replicate 16 1, firstLba, firstLba + size / 0x1000 - 1, 0, name,
      []⟩ :: place (firstLba + size / 0x1000) rest

/-- The partitions fit a disk of 65536 sectors and one sector of entries. -/
def Placed (slots : List PartitionSlot) : Prop :=
  (0 < slots.length ∧ slots.length ≤ 32) ∧ (slots.map fun p => p.name).Nodup ∧
  ∀ p ∈ slots, (p.typeGuid.length = 16 ∧ p.typeGuid ≠ List.replicate 16 0 ∧
    p.uniqueGuid.length = 16) ∧ (3 ≤ p.firstLba ∧ p.firstLba ≤ p.lastLba ∧ p.lastLba ≤ 65000) ∧
    p.name ≠ "" ∧ '\x00' ∉ p.name.toList ∧ (Utf16.encode p.name.toList).length ≤ 36 ∧
    p.tail.length = 0

instance (slots : List PartitionSlot) : Decidable (Placed slots) :=
  inferInstanceAs (Decidable (_ ∧ _ ∧ _))

def placedLayout (slots : List PartitionSlot) (h : Placed slots) : Layout :=
  { smallLayout 0 with
    sectorSize := 0x1000
    lastUsableLba := 65000
    backupLba := 65535
    backupEntryLba := 65534
    slots := slots.map .used
    sector := Or.inr rfl
    lastUsable_lt := by decide
    backup_lt := by decide
    backupEntry_lt := by decide
    slots_pos := by
      rw [List.length_map]
      exact h.1.1
    slots_le := by
      rw [List.length_map]
      exact Nat.le_trans h.1.2 (by decide)
    slots_ok := by
      intro s hs
      obtain ⟨p, hp, rfl⟩ := List.mem_map.mp hs
      obtain ⟨⟨h1, h2, h3⟩, ⟨h4, h5, h6⟩, h7, h8, h9, h10⟩ := h.2.2 p hp
      exact ⟨h1, h2, h3, h4, h5, h6, h7, h8, h9, h10⟩
    names_nodup := by
      rw [List.filterMap_map]
      show ((slots.filterMap some).map fun p => p.name).Nodup
      rw [List.filterMap_some]
      exact h.2.1
    primary_stop := by
      show 2 * 0x1000 + (slots.map Slot.used).length * 128 ≤ 3 * 0x1000
      rw [List.length_map]
      have hle := h.1.2
      omega
    backup_start := by decide
    backup_stop := by
      show (65534 + 3 - (65535 + 2)) * 0x1000 + (slots.map Slot.used).length * 128
        ≤ (3 - 2) * 0x1000
      rw [List.length_map]
      have hle := h.1.2
      omega }

/-- the disk of the tablet, as far as the table goes -/
def tableLayout : Layout := placedLayout (place 3 partitions.sizes.items) (by decide)

theorem lists_tableLayout : Lists tableLayout := by decide

end RT7.Capture
