import RT7.Capture.Resolve
import RT7.Capture.Validate
import RT7.Gpt.StorageMap

/-!
# What a tablet holds

* `Tablet`          a tablet while one pass is read: its flash, as the loader sees it;
* `Tablet.captured` the content that a pass has for an artifact;
* `Tablet.Sound`    what the flash itself must hold, read by absolute LBA;
* `Tablet.directory`   the files of a pass, by their names;
* `passOk_directory`   the checks of the capture accept them exactly when the flash is sound;
* `Tablet.Written`, `complete_of_passOk`   a pass that wrote nothing but its own artifacts.
-/

namespace RT7.Capture

open Py Gpt Text

/-- The loader reads the GPT, and `read` is what a partition holds: where the GPT is well formed, the
bytes that it lists. -/
structure Tablet (crc32 : Bytes → UInt32) where
  flash : Bytes
  guid : GuidGpt
  flashSize : Nat
  readflash : Int → Int → Option Bytes
  sees : SeesFlash flash guid flashSize readflash
  read : String → Bytes
  reads : ∀ g, FlashTable crc32 flash guid.sectorsize g → ∀ name p, g.partitions.get? name = some p →
    read name = window flash (p.firstLba * guid.sectorsize) p.size
  lu0 : Bytes
  lu1 : Bytes

variable {crc32 : Bytes → UInt32}

/-- the files of one directory -/
def passDir (directory : PosixPath) (files : List (String × Bytes)) : PassDir :=
  Dict.empty.setAll (files.filterMap fun file =>
    if (PosixPath.parse file.1).parent = directory then some ((PosixPath.parse file.1).name, file.2)
    else none)

def outputDir (output : PosixPath) (files : List (String × Bytes)) : OutputDir where
  pass1 := passDir (output / "pass1") files
  pass2 := passDir (output / "pass2") files
  checksumManifest := none
  captureManifest := none

namespace Tablet
variable (d : Tablet crc32)

def header : GptHeader := GptHeader.decode (window d.flash d.guid.sectorsize 92)

/-- A well-formed GPT of the flash lists the partition. -/
def Lists (name : String) : Prop :=
  ∃ g p, FlashTable crc32 d.flash d.guid.sectorsize g ∧ g.partitions.get? name = some p

/-- The loader lets the two spans be read. -/
def Readable : Prop :=
  d.guid.header.signature = efiPart ∧ SafeGeometry d.flash d.guid.sectorsize d.header

/-- Both spans can be read, and every partition of the table. -/
structure Complete : Prop where
  readable : d.Readable
  lists : ∀ name ∈ partitions.names, d.Lists name

/-- the content of an artifact -/
def captured (a : String) : Bytes :=
  if a = "gpt" then primarySpan d.flash d.guid.sectorsize d.header
  else if a = "gpt_backup" then backupSpan d.flash d.guid.sectorsize d.header
  else if a = "preloader_lu0" then d.lu0
  else if a = "preloader_lu1" then d.lu1
  else d.read a

/-- the bytes of a partition of the table `g` -/
def region (g : ParsedGpt) (name : String) : Bytes :=
  match g.partitions.get? name with
  | some p => window d.flash (p.firstLba * d.guid.sectorsize) p.size
  | none => []

/-- the content of an artifact that is no GPT, read off the flash -/
def stored (g : ParsedGpt) (a : String) : Bytes :=
  if a = "preloader_lu0" then d.lu0 else if a = "preloader_lu1" then d.lu1 else d.region g a

/-- The flash has a well-formed GPT with every partition of the table, and plausible images there. -/
structure Sound (g : ParsedGpt) : Prop where
  readable : d.Readable
  table : FlashTable crc32 d.flash d.guid.sectorsize g
  listed : ∀ item ∈ partitions.sizes.items,
    ∃ p, g.partitions.get? item.1 = some p ∧ p.size = item.2
  preloaders : d.lu0.length = 0x80000 ∧ d.lu1.length = 0x80000
  magic : ∀ item ∈ requiredMagic, item.2 <+: d.stored g item.1
  nonuniform : ∀ a ∈ scannedNames, ∃ x ∈ d.stored g a, ∃ y ∈ d.stored g a, x ≠ y

end Tablet

section
variable {d : Tablet crc32} {output : PosixPath} {p : String}

/-- what `gpt` writes -/
def gptFiles (d : Tablet crc32) (output : PosixPath) (p : String) : List (String × Bytes) :=
  [((output / p / binName "gpt").str, d.captured "gpt"),
    ((output / p / binName "gpt_backup").str, d.captured "gpt_backup")]

/-- The files of a pass have the tablet's GPT; what else there is are files for the other artifacts. -/
def Tablet.Written (d : Tablet crc32) (output : PosixPath) (p : String) (files : List (String × Bytes)) :
    Prop :=
  ∃ rest, files = gptFiles d output p ++ rest ∧ ∀ file ∈ rest,
    ∃ a ∈ partitions.names ++ ["preloader_lu0", "preloader_lu1"], file.1 = (output / p / binName a).str

/-- the files of one pass over the tablet -/
def passFiles (d : Tablet crc32) (output : PosixPath) (p : String) : List (String × Bytes) :=
  partitions.artifacts.map fun a => ((output / p / binName a).str, d.captured a)

theorem passFiles_eq : passFiles d output p = gptFiles d output p ++
    (partitions.names.map fun a => ((output / p / binName a).str, d.captured a)) ++
    (["preloader_lu0", "preloader_lu1"].map fun a => ((output / p / binName a).str, d.captured a)) := by
  rw [passFiles, Table.artifacts, List.map_append, List.map_append]
  rfl

theorem captured_name {name : String} (h : name ∈ partitions.names) : d.captured name = d.read name := by
  have hne : ∀ r ∈ ["gpt", "gpt_backup", "preloader_lu0", "preloader_lu1"], name ≠ r :=
    fun r hr e => partitions.not_mem_names hr (e ▸ h)
  rw [Tablet.captured, if_neg (hne "gpt" (by decide)), if_neg (hne "gpt_backup" (by decide)),
    if_neg (hne "preloader_lu0" (by decide)), if_neg (hne "preloader_lu1" (by decide))]

theorem captured_preloaders : d.captured "preloader_lu0" = d.lu0 ∧ d.captured "preloader_lu1" = d.lu1 := by
  unfold Tablet.captured
  constructor
  · rw [if_neg (by decide), if_neg (by decide), if_pos rfl]
  · rw [if_neg (by decide), if_neg (by decide), if_neg (by decide), if_pos rfl]

end

/-! ## the directory of a pass -/

/-- the files of a pass over the tablet, by their names -/
def Tablet.directory (d : Tablet crc32) : PassDir where
  items := partitions.artifacts.map fun a => (binName a, d.captured a)
  nodup := by
    rw [List.map_map]
    exact partitions.artifacts_nodup.map binName_injective

section directory
variable {d first second : Tablet crc32} {output : PosixPath} {p q a : String} {g : ParsedGpt}
  {files own : List (String × Bytes)}

theorem items_directory :
    d.directory.items = partitions.artifacts.map fun a => (binName a, d.captured a) := rfl

/-- the entry of a file in the directory of a pass -/
theorem entry_of_file (hp : p ∈ capturePasses) (hq : q ∈ capturePasses) (ha : a ∈ partitions.artifacts)
    (content : Bytes) :
    (if (PosixPath.parse (output / q / binName a).str).parent = output / p then
      some ((PosixPath.parse (output / q / binName a).str).name, content) else none)
    = if q = p then some (binName a, content) else none := by
  have hc := component_artifact ha
  have hiff : output / q = output / p ↔ q = p := by
    rw [PosixPath.div_inj (component_pass hq) (component_pass hp)]
    exact and_iff_right rfl
  rw [PosixPath.parse_str, PosixPath.parent_div hc, PosixPath.name_div hc]
  exact if_congr hiff rfl rfl

theorem filterMap_passFiles (hp : p ∈ capturePasses) (hq : q ∈ capturePasses) :
    ((passFiles d output q).filterMap fun file =>
      if (PosixPath.parse file.1).parent = output / p then some ((PosixPath.parse file.1).name, file.2)
      else none) = if q = p then d.directory.items else [] := by
  rw [passFiles, List.filterMap_map]
  by_cases h : q = p
  · rw [if_pos h, items_directory, ← List.filterMap_eq_map]
    refine List.filterMap_congr fun a ha => ?_
    rw [Function.comp_apply, Function.comp_apply, entry_of_file hp hq ha, if_pos h]
  · rw [if_neg h, List.filterMap_eq_nil_iff]
    intro a ha
    rw [Function.comp_apply, entry_of_file hp hq ha, if_neg h]

theorem empty_setAll (directory : PassDir) : Dict.empty.setAll directory.items = directory :=
  Dict.ext (Dict.items_setAll directory.nodup)

/-- The two directories are those of the two passes. -/
theorem outputDir_passFiles :
    outputDir output (passFiles first output "pass1" ++ passFiles second output "pass2")
      = ⟨first.directory, second.directory, none, none⟩ := by
  have h1 : "pass1" ∈ capturePasses := by decide
  have h2 : "pass2" ∈ capturePasses := by decide
  have hne : "pass1" ≠ "pass2" := by decide
  unfold outputDir passDir
  rw [List.filterMap_append, List.filterMap_append, filterMap_passFiles h1 h1,
    filterMap_passFiles h1 h2, filterMap_passFiles h2 h1, filterMap_passFiles h2 h2, if_pos rfl,
    if_neg hne.symm, if_neg hne, if_pos rfl, List.append_nil, List.nil_append, empty_setAll,
    empty_setAll]

theorem get?_directory (ha : a ∈ partitions.artifacts) :
    d.directory.get? (binName a) = some (d.captured a) :=
  Dict.get?_eq_some.mpr (List.mem_map_of_mem ha)

theorem holds_directory (ha : a ∈ partitions.artifacts) {P : Bytes → Prop} :
    Holds d.directory a P ↔ P (d.captured a) := by
  rw [Holds, get?_directory ha]
  simp

theorem keys_directory : d.directory.keys = partitions.artifacts.map binName := by
  rw [Dict.keys, items_directory, List.map_map]
  rfl

theorem mem_glob_directory {name : String} :
    name ∈ glob d.directory ↔ ∃ a ∈ partitions.artifacts, binName a = name := by
  rw [mem_glob, keys_directory, List.mem_map]
  constructor
  · exact fun h => h.1
  · rintro ⟨a, ha, rfl⟩
    exact ⟨⟨a, ha, rfl⟩, suffix_binName a⟩

/-! ## the flash under it -/

/-- what the parser finds in the two spans of a flash is its table -/
theorem parse_spans {F : Bytes} {gpt : GuidGpt} {flashSize : Nat}
    {readflash : Int → Int → Option Bytes} (H : SeesFlash F gpt flashSize readflash)
    (hsig : gpt.header.signature = efiPart)
    (G : SafeGeometry F gpt.sectorsize (GptHeader.decode (window F gpt.sectorsize 92))) :
    parseGptPair crc32
      (primarySpan F gpt.sectorsize (GptHeader.decode (window F gpt.sectorsize 92)))
      (backupSpan F gpt.sectorsize (GptHeader.decode (window F gpt.sectorsize 92))) = .ok g ↔
        FlashTable crc32 F gpt.sectorsize g := by
  have hs := detectSectorSize_primarySpan H hsig G
  rw [parseGptPair_eq_ok]
  constructor
  · rintro ⟨s, hp, hb, raw, m, K, rfl⟩
    obtain rfl : s = gpt.sectorsize := K.sector.symm.trans hs
    exact ⟨hp, hb, raw, m, (pairOk_iff_flashOk hs H.sector_le G).mp K, rfl⟩
  · rintro ⟨hp, hb, raw, m, K, rfl⟩
    exact ⟨_, hp, hb, raw, m, (pairOk_iff_flashOk hs H.sector_le G).mpr K, rfl⟩

theorem parse_captured (h : d.Readable) :
    parseGptPair crc32 (d.captured "gpt") (d.captured "gpt_backup") = .ok g ↔
      FlashTable crc32 d.flash d.guid.sectorsize g := by
  have e1 : d.captured "gpt" = primarySpan d.flash d.guid.sectorsize d.header := if_pos rfl
  have e2 : d.captured "gpt_backup" = backupSpan d.flash d.guid.sectorsize d.header := by
    rw [Tablet.captured, if_neg (by decide), if_pos rfl]
  rw [e1, e2]
  exact parse_spans d.sees h.1 h.2

/-- a partition of the table lies inside the flash -/
theorem length_partition (h : d.Readable) (ht : FlashTable crc32 d.flash d.guid.sectorsize g)
    {p : Partition} (hp : g.partitions.get? a = some p) :
    (window d.flash (p.firstLba * d.guid.sectorsize) p.size).length = p.size := by
  obtain ⟨hp1, hb, raw, m, K, rfl⟩ := ht
  have hheader : hp1 = d.header := by
    rw [K.primaryHeader.fields, Nat.one_mul]
    rfl
  subst hheader
  have hmem : (a, p) ∈ m.items := Dict.get?_eq_some.mp hp
  rw [K.primaryEntries.items] at hmem
  obtain ⟨e, he, hitem⟩ := List.mem_map.mp hmem
  have hok := K.primaryEntries.table.slots_ok e he
  obtain ⟨-, rfl⟩ := Prod.mk.inj hitem
  have hrange := hok.range
  have hlast := hok.last
  have h3 := h.2.three_le
  have h2 := h.2.last_lt
  have hstop : slotFirst e + (slotLast e - slotFirst e + 1) ≤ d.header.backupLba + 1 := by omega
  refine length_window_of_le (Nat.le_trans ?_ h.2.inside)
  rw [← Nat.add_mul]
  exact Nat.mul_le_mul_right _ hstop

/-- the image of a listed partition is the one of the flash -/
theorem captured_eq_stored (ht : FlashTable crc32 d.flash d.guid.sectorsize g)
    (hlisted : ∀ item ∈ partitions.sizes.items,
      ∃ p, g.partitions.get? item.1 = some p ∧ p.size = item.2)
    (ha : a ∈ partitions.names ++ ["preloader_lu0", "preloader_lu1"]) :
    d.captured a = d.stored g a := by
  cases List.mem_append.mp ha with
  | inl hname =>
    have hne : ∀ r ∈ ["gpt", "gpt_backup", "preloader_lu0", "preloader_lu1"], a ≠ r :=
      fun r hr e => partitions.not_mem_names hr (e ▸ hname)
    obtain ⟨size, hitem⟩ := Dict.mem_keys.mp hname
    obtain ⟨p, hp, -⟩ := hlisted (a, size) hitem
    rw [captured_name hname, Tablet.stored, if_neg (hne "preloader_lu0" (by decide)),
      if_neg (hne "preloader_lu1" (by decide)), Tablet.region, hp]
    exact d.reads g ht a p hp
  | inr hpre =>
    have hcases : a = "preloader_lu0" ∨ a = "preloader_lu1" := by simpa using hpre
    cases hcases with
    | inl h => rw [h, captured_preloaders.1, Tablet.stored, if_pos rfl]
    | inr h => rw [h, captured_preloaders.2, Tablet.stored, if_neg (by decide), if_pos rfl]

/-- **A pass is acceptable exactly when the flash under it is sound.** -/
theorem passOk_directory (h : d.Readable) : PassOk crc32 d.directory g ↔ d.Sound g := by
  have hmagic : ∀ item ∈ requiredMagic,
      item.1 ∈ partitions.names ++ ["preloader_lu0", "preloader_lu1"] := by decide
  have hscan : ∀ name ∈ scannedNames,
      name ∈ partitions.names ++ ["preloader_lu0", "preloader_lu1"] := by decide
  have hlu := mem_artifacts_of_preloader
  have e1 : binName "gpt" = "gpt.bin" := by decide
  have e2 : binName "gpt_backup" = "gpt_backup.bin" := by decide
  have hgpt : d.directory.get? "gpt.bin" = some (d.captured "gpt") :=
    e1 ▸ get?_directory (by decide)
  have hbackup : d.directory.get? "gpt_backup.bin" = some (d.captured "gpt_backup") :=
    e2 ▸ get?_directory (by decide)
  constructor
  · intro H
    obtain ⟨primary, backup, hp, hb, hok⟩ := H.parsed
    cases hgpt.symm.trans hp
    cases hbackup.symm.trans hb
    have ht := (parse_captured h).mp hok
    have hpre : ∀ name ∈ ["preloader_lu0", "preloader_lu1"], (d.captured name).length = 0x80000 :=
      fun name hn => (holds_directory (hlu name hn)).mp (H.preloaders name hn)
    refine ⟨h, ht, H.listed, ⟨?_, ?_⟩, ?_, ?_⟩
    · rw [← captured_preloaders.1]
      exact hpre _ (by decide)
    · rw [← captured_preloaders.2]
      exact hpre _ (by decide)
    · intro item hi
      rw [← captured_eq_stored ht H.listed (hmagic item hi)]
      exact (holds_directory (mem_artifacts_of_magic item hi)).mp (H.magic item hi)
    · intro name hn
      rw [← captured_eq_stored ht H.listed (hscan name hn)]
      exact (holds_directory (mem_artifacts_of_scanned name hn)).mp (H.nonuniform name hn)
  · intro S
    refine ⟨fun name => mem_glob_directory, ?_, ?_, ?_, S.listed, ?_, ?_⟩
    · intro item hi
      obtain ⟨p, hp, hsize⟩ := S.listed item hi
      have hname : item.1 ∈ partitions.names := List.mem_map_of_mem hi
      refine (holds_directory (mem_artifacts_of_item hi)).mpr ?_
      rw [captured_name hname, d.reads g S.table item.1 p hp, length_partition h S.table hp, hsize]
    · intro name hn
      refine (holds_directory (hlu name hn)).mpr ?_
      have hcases : name = "preloader_lu0" ∨ name = "preloader_lu1" := by simpa using hn
      cases hcases with
      | inl e => rw [e, captured_preloaders.1, S.preloaders.1]
      | inr e => rw [e, captured_preloaders.2, S.preloaders.2]
    · exact ⟨_, _, hgpt, hbackup, (parse_captured h).mpr S.table⟩
    · intro item hi
      refine (holds_directory (mem_artifacts_of_magic item hi)).mpr ?_
      rw [captured_eq_stored S.table S.listed (hmagic item hi)]
      exact S.magic item hi
    · intro name hn
      refine (holds_directory (mem_artifacts_of_scanned name hn)).mpr ?_
      rw [captured_eq_stored S.table S.listed (hscan name hn)]
      exact S.nonuniform name hn

/-! ## passes over any tablet -/

theorem mem_artifacts_of_image (ha : a ∈ partitions.names ++ ["preloader_lu0", "preloader_lu1"]) :
    a ∈ partitions.artifacts := by
  rw [Table.artifacts, List.append_assoc]
  exact List.mem_append_right _ ha

theorem not_mem_images_of_gpt (ha : a ∈ ["gpt", "gpt_backup"]) :
    a ∉ partitions.names ++ ["preloader_lu0", "preloader_lu1"] := by
  have hreserved : ∀ r ∈ ["gpt", "gpt_backup"], r ∉ partitions.names ++ ["preloader_lu0", "preloader_lu1"] := by
    decide
  exact hreserved a ha

theorem mem_gptFiles (ha : a ∈ ["gpt", "gpt_backup"]) :
    ((output / p / binName a).str, d.captured a) ∈ gptFiles d output p := by
  rcases List.mem_pair.mp ha with rfl | rfl
  · exact List.mem_cons_self
  · exact List.mem_cons_of_mem _ List.mem_cons_self

theorem Tablet.Written.path (h : d.Written output p files) :
    ∀ file ∈ files, ∃ a ∈ partitions.artifacts, file.1 = (output / p / binName a).str := by
  obtain ⟨rest, rfl, hrest⟩ := h
  intro file hfile
  rcases List.mem_append.mp hfile with hfile | hfile
  · rcases List.mem_pair.mp hfile with rfl | rfl
    · exact ⟨"gpt", by decide, rfl⟩
    · exact ⟨"gpt_backup", by decide, rfl⟩
  · obtain ⟨a, ha, hpath⟩ := hrest file hfile
    exact ⟨a, mem_artifacts_of_image ha, hpath⟩

/-- The directory of a pass has the tablet's GPT, whatever else was written. -/
theorem get?_passDir (hp : p ∈ capturePasses) (h : d.Written output p own)
    (hown : ∀ file ∈ own, file ∈ files)
    (hothers : ∀ file ∈ files, file ∉ own →
      ∃ q ∈ capturePasses, q ≠ p ∧ ∃ b ∈ partitions.artifacts, file.1 = (output / q / binName b).str)
    (ha : a ∈ ["gpt", "gpt_backup"]) :
    (passDir (output / p) files).get? (binName a) = some (d.captured a) := by
  have hartifact : ∀ b ∈ ["gpt", "gpt_backup"], b ∈ partitions.artifacts := by decide
  obtain ⟨rest, rfl, hrest⟩ := h
  refine Dict.get?_eq_some.mpr (Dict.mem_items_setAll (Or.inr ?_) fun x hx hkey => ?_)
  · refine List.mem_filterMap.mpr ⟨_, hown _ (List.mem_append_left _ (mem_gptFiles ha)), ?_⟩
    rw [entry_of_file hp hp (hartifact a ha), if_pos rfl]
  obtain ⟨⟨path, content⟩, hfile, hentry⟩ := List.mem_filterMap.mp hx
  by_cases hmine : (path, content) ∈ gptFiles d output p ++ rest
  · rcases List.mem_append.mp hmine with hgpt | hmem
    · rcases List.mem_pair.mp hgpt with heq | heq
      · obtain ⟨rfl, rfl⟩ := Prod.mk.inj heq
        rw [entry_of_file hp hp (hartifact "gpt" (by decide)), if_pos rfl] at hentry
        cases hentry
        rw [binName_injective hkey]
      · obtain ⟨rfl, rfl⟩ := Prod.mk.inj heq
        rw [entry_of_file hp hp (hartifact "gpt_backup" (by decide)), if_pos rfl] at hentry
        cases hentry
        rw [binName_injective hkey]
    · obtain ⟨b, hb, hpath⟩ := hrest _ hmem
      have hpath : path = (output / p / binName b).str := hpath
      rw [hpath, entry_of_file hp hp (mem_artifacts_of_image hb), if_pos rfl] at hentry
      cases hentry
      exact absurd (binName_injective hkey ▸ hb) (not_mem_images_of_gpt ha)
  · obtain ⟨q, hq, hne, b, hb, hpath⟩ := hothers _ hfile hmine
    have hpath : path = (output / q / binName b).str := hpath
    rw [hpath, entry_of_file hp hq hb, if_neg hne] at hentry
    cases hentry

theorem get?_outputDir {files₁ files₂ : List (String × Bytes)} (h1 : first.Written output "pass1" files₁)
    (h2 : second.Written output "pass2" files₂) (ha : a ∈ ["gpt", "gpt_backup"]) :
    ((outputDir output (files₁ ++ files₂)).pass "pass1").get? (binName a) = some (first.captured a) ∧
      ((outputDir output (files₁ ++ files₂)).pass "pass2").get? (binName a) = some (second.captured a) := by
  have hp1 : "pass1" ∈ capturePasses := by decide
  have hp2 : "pass2" ∈ capturePasses := by decide
  have hne : "pass1" ≠ "pass2" := by decide
  rw [OutputDir.pass, if_pos rfl, OutputDir.pass, if_neg hne.symm]
  constructor
  · refine get?_passDir hp1 h1 (fun file hfile => List.mem_append_left _ hfile) (fun file hfile hno => ?_) ha
    exact ⟨"pass2", hp2, hne.symm, h2.path file ((List.mem_append.mp hfile).resolve_left hno)⟩
  · refine get?_passDir hp2 h2 (fun file hfile => List.mem_append_right _ hfile) (fun file hfile hno => ?_) ha
    exact ⟨"pass1", hp1, hne, h1.path file ((List.mem_append.mp hfile).resolve_right hno)⟩

/-- A pass with the tablet's GPT is accepted only when every partition is listed. -/
theorem complete_of_passOk {directory : PassDir} (h : d.Readable)
    (hgpt : ∀ a ∈ ["gpt", "gpt_backup"], directory.get? (binName a) = some (d.captured a))
    (H : PassOk crc32 directory g) : d.Complete := by
  have e1 : binName "gpt" = "gpt.bin" := by decide
  have e2 : binName "gpt_backup" = "gpt_backup.bin" := by decide
  obtain ⟨primary, backup, hprimary, hbackup, hok⟩ := H.parsed
  rw [← e1, hgpt "gpt" (by decide)] at hprimary
  rw [← e2, hgpt "gpt_backup" (by decide)] at hbackup
  cases hprimary
  cases hbackup
  refine ⟨h, fun name hname => ?_⟩
  obtain ⟨size, hitem⟩ := Dict.mem_keys.mp hname
  obtain ⟨p, hp, -⟩ := H.listed (name, size) hitem
  exact ⟨g, p, (parse_captured h).mp hok, hp⟩

theorem Tablet.Sound.complete (S : d.Sound g) : d.Complete := by
  refine ⟨S.readable, fun name hname => ?_⟩
  obtain ⟨size, hitem⟩ := Dict.mem_keys.mp hname
  obtain ⟨p, hp, -⟩ := S.listed (name, size) hitem
  exact ⟨g, p, S.table, hp⟩

/-- A tablet that reads the same lists the same. -/
theorem Tablet.Sound.complete_of_same (S : first.Sound g) (h2 : second.Readable)
    (hsame : ∀ a ∈ partitions.artifacts, first.captured a = second.captured a) : second.Complete := by
  have hok := (parse_captured S.readable).mpr S.table
  rw [hsame "gpt" (by decide), hsame "gpt_backup" (by decide)] at hok
  refine ⟨h2, fun name hname => ?_⟩
  obtain ⟨size, hitem⟩ := Dict.mem_keys.mp hname
  obtain ⟨p, hp, -⟩ := S.listed (name, size) hitem
  exact ⟨g, p, (parse_captured h2).mp hok, hp⟩

end directory

end RT7.Capture
