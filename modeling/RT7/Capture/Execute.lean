import RT7.Capture.Client

/-!
# The capture of a tablet (`main` of `capture-recovery-baseline.py`, with `--execute`)

* `execute`         the whole of `main`;
* `execute_cases`   mtkclient fails or some partition is missing, or the two passes are validated;
* `Describes`       what a run leaves says of the tablet;
* `execute_exact`   a run ends well exactly when the tablet is sound and the second pass reads the same;
* `tableTablet`, `clientOf`   a tablet with the layout of the table, and a client that reads it.
-/

namespace RT7.Capture

open Py Gpt Text

/-- `main`; a dry run has no output. -/
def execute (crc32 : Bytes → UInt32) (hash : Bytes → Digest) (client : Mtkclient) (host : Host)
    (args : Args) : Except Exn (Option OutputDir) := do
  let planFile ← main host args
  match planFile with
  | none => return none
  | some file =>
    let result := client.runScript file.content
    raiseIf (result.1 ≠ 0) (.systemExit s!"mtkclient exited with status {result.1}")
    let validated := validateCapture crc32 hash partitions.sizes (outputDir file.path.parent result.2)
    validated.1
    return some validated.2

/-! ## the whole run -/

section run
variable {crc32 : Bytes → UInt32} {client : Mtkclient} {first second : Tablet crc32}
  {tablets : Nat → Tablet crc32} {host : Host} {args : Args} {output : PosixPath}

/-- what the two passes leave, before the validation -/
def passesOf (first second : Tablet crc32) : OutputDir := ⟨first.directory, second.directory, none, none⟩

variable (hash : Bytes → Digest)

/-- the run after the plan file is written -/
theorem execute_eq (hprep : Prepared host args output) :
    execute crc32 hash client host args = (do
      let result := client.runScript (asciiBytes (planText output))
      raiseIf (result.1 ≠ 0) (.systemExit s!"mtkclient exited with status {result.1}")
      let validated := validateCapture crc32 hash partitions.sizes (outputDir output result.2)
      validated.1
      return some validated.2) := by
  have hname : Component "read-only-plan.txt" := by decide
  rw [execute, hprep.main_eq, ok_bind]
  dsimp only
  rw [PosixPath.parent_div hname]

/-- a run whose plan has ended well -/
theorem execute_eq_of_finished (H : Captures client tablets) (hprep : Prepared host args output)
    (hone : OneLine output.str) {files : Files}
    (hrun : runCommands client.runCommand 0 (commands partitions output) = .ok files) :
    execute crc32 hash client host args = (do
      (validateCapture crc32 hash partitions.sizes (outputDir output files)).1
      return some (validateCapture crc32 hash partitions.sizes (outputDir output files)).2) := by
  have hplan := (readPlan_planText hprep.noSpace hprep.ascii).mpr hone
  have hend := H.finished (asciiBytes (planText output)) files (hplan.symm ▸ hrun)
  rw [execute_eq hash hprep, hend]
  dsimp only
  rw [raiseIf_neg (fun h => h rfl), ok_bind]

theorem execute_of_failed (H : Captures client tablets) (hprep : Prepared host args output)
    (hone : OneLine output.str) {e : Exn}
    (hrun : runCommands client.runCommand 0 (commands partitions output) = .error e) :
    ∃ message, execute crc32 hash client host args = .error (.systemExit message) := by
  have hplan := (readPlan_planText hprep.noSpace hprep.ascii).mpr hone
  have hend := H.failed (asciiBytes (planText output)) e (hplan.symm ▸ hrun)
  rw [execute_eq hash hprep]
  dsimp only
  exact ⟨_, congrArg (fun r => r >>= _) (if_pos hend)⟩

/-- What the validation accepts has every partition listed. -/
theorem complete_of_certify (hread : first.Readable ∧ second.Readable) {files₁ files₂ : Files}
    (h1 : first.Written output "pass1" files₁) (h2 : second.Written output "pass2" files₂)
    {r : List String × Json}
    (hrun : certify crc32 hash partitions.sizes (outputDir output (files₁ ++ files₂)) = .ok r) :
    first.Complete ∧ second.Complete := by
  obtain ⟨g, gpt2, -, -, A, -, -, -⟩ := certify_eq_ok.mp hrun
  exact ⟨complete_of_passOk hread.1 (fun a ha => (get?_outputDir h1 h2 ha).1) A.pass1,
    complete_of_passOk hread.2 (fun a ha => (get?_outputDir h1 h2 ha).2) A.pass2⟩

/-- mtkclient fails or some partition is missing, or the two passes are validated -/
theorem execute_cases (H : Captures client tablets) (hprep : Prepared host args output)
    (hone : OneLine output.str) (hpasses : Passes tablets first second) :
    (¬ (first.Complete ∧ second.Complete) ∧
      ∃ message, execute crc32 hash client host args = .error (.systemExit message)) ∨
    ((first.Complete ∧ second.Complete) ∧ execute crc32 hash client host args = (do
      (validateCapture crc32 hash partitions.sizes (passesOf first second)).1
      return some (validateCapture crc32 hash partitions.sizes (passesOf first second)).2)) := by
  by_cases hcomplete : first.Complete ∧ second.Complete
  · obtain ⟨h1, h2⟩ := hcomplete
    have hrun : runCommands client.runCommand 0 (commands partitions output) = .ok _ :=
      (runCommands_commands H hpasses h1.lists h2.lists).mpr ⟨⟨h1.readable, h2.readable⟩, rfl⟩
    refine Or.inr ⟨⟨h1, h2⟩, ?_⟩
    rw [execute_eq_of_finished hash H hprep hone hrun, outputDir_passFiles]
    rfl
  · refine Or.inl ⟨hcomplete, ?_⟩
    cases hrun : runCommands client.runCommand 0 (commands partitions output) with
    | error e => exact execute_of_failed hash H hprep hone hrun
    | ok files =>
      obtain ⟨hread, files₁, files₂, rfl, hw1, hw2⟩ := written_of_commands H hpasses hrun
      rw [execute_eq_of_finished hash H hprep hone hrun]
      cases hcert : certify crc32 hash partitions.sizes (outputDir output (files₁ ++ files₂)) with
      | ok r => exact absurd (complete_of_certify hash hread hw1 hw2 hcert) hcomplete
      | error e =>
        obtain ⟨message, rfl⟩ := certify_raises e hcert
        rw [validateCapture_of_error hcert]
        exact ⟨message, rfl⟩

variable {hash}

theorem passOk_passesOf (h1 : first.Readable) {g : ParsedGpt} :
    PassOk crc32 ((passesOf first second).pass "pass1") g ↔ first.Sound g := by
  rw [OutputDir.pass, if_pos rfl]
  exact passOk_directory h1

theorem get?_passesOf {a : String} (ha : a ∈ partitions.artifacts) :
    ((passesOf first second).pass "pass1").get? (binName a) = some (first.captured a) ∧
      ((passesOf first second).pass "pass2").get? (binName a) = some (second.captured a) := by
  rw [OutputDir.pass, if_pos rfl, OutputDir.pass, if_neg (by decide)]
  exact ⟨get?_directory ha, get?_directory ha⟩

theorem collisionFree_passesOf (hfree : ∀ a ∈ partitions.artifacts,
    hash (first.captured a) = hash (second.captured a) → first.captured a = second.captured a) :
    CollisionFree hash (passesOf first second) := by
  intro name c₁ c₂ hc₁ hc₂ heq
  have hmem : (name, c₁) ∈ first.directory.items := Dict.get?_eq_some.mp hc₁
  obtain ⟨a, ha, hitem⟩ := List.mem_map.mp hmem
  obtain ⟨rfl, rfl⟩ := Prod.mk.inj hitem
  cases (get?_passesOf ha).2.symm.trans hc₂
  exact hfree a ha heq

/-- the validation of the two passes is about the flash -/
theorem certifiable_passesOf (h1 : first.Readable) :
    Certifiable crc32 (passesOf first second) ↔
      (∃ g, first.Sound g) ∧ ∀ a ∈ partitions.artifacts, first.captured a = second.captured a := by
  have hsame : (∀ a ∈ partitions.artifacts,
      ((passesOf first second).pass "pass1").get? (binName a)
        = ((passesOf first second).pass "pass2").get? (binName a)) ↔
      ∀ a ∈ partitions.artifacts, first.captured a = second.captured a := by
    refine forall₂_congr fun a ha => ?_
    rw [(get?_passesOf ha).1, (get?_passesOf ha).2, Option.some_inj]
  constructor
  · intro H
    obtain ⟨g, hg⟩ := H.pass1
    exact ⟨⟨g, (passOk_passesOf h1).mp hg⟩, hsame.mp H.identical⟩
  · rintro ⟨⟨g, hg⟩, hall⟩
    have hpass := (passOk_directory h1).mpr hg
    have hdir : first.directory = second.directory := by
      refine Dict.ext ?_
      rw [items_directory, items_directory]
      exact List.map_congr_left fun a ha => by rw [hall a ha]
    refine ⟨⟨g, hpass⟩, ⟨g, ?_⟩, hsame.mpr hall⟩
    show PassOk crc32 second.directory g
    exact hdir ▸ hpass

/-- What a run leaves describes the flash: its table, and for each artifact twice its own bytes, with
their size and digest. -/
structure Describes (hash : Bytes → Digest) (d : Tablet crc32) (g : ParsedGpt) (output : OutputDir) :
    Prop where
  sound : d.Sound g
  copies : ∀ p ∈ capturePasses, ∀ a ∈ partitions.artifacts,
    (output.pass p).get? (binName a) = some (d.captured a)
  stored : ∀ a ∈ partitions.names ++ ["preloader_lu0", "preloader_lu1"], d.captured a = d.stored g a
  manifest : ∃ artifacts slots,
    output.captureManifest = some (asciiBytes ((manifestJson artifacts g slots).dumps ++ "\n")) ∧
    slotComparisons artifacts = .ok slots ∧
    ∀ a ∈ partitions.artifacts, artifacts.get? (binName a)
      = some ⟨(d.captured a).length, (hash (d.captured a)).hexdigest, 2⟩
  checksums : ∃ text, output.checksumManifest = some (asciiBytes text) ∧
    (readLines text).Perm ((capturePasses.product partitions.artifacts).map fun p =>
      checksumLine hash output p.1 (binName p.2))

/-- the validation of two readable passes -/
theorem validateCapture_passesOf (h1 : first.Readable)
    (hfree : CollisionFree hash (passesOf first second)) :
    (¬ Certifiable crc32 (passesOf first second) ∧ ∃ message,
      (validateCapture crc32 hash partitions.sizes (passesOf first second)).1
        = .error (.systemExit message)) ∨
    (Certifiable crc32 (passesOf first second) ∧ ∃ g out,
      validateCapture crc32 hash partitions.sizes (passesOf first second) = (.ok (), out) ∧
      Describes hash first g out) := by
  cases hrun : certify crc32 hash partitions.sizes (passesOf first second) with
  | error e =>
    left
    obtain ⟨message, rfl⟩ := certify_raises e hrun
    refine ⟨fun hcert => ?_, message, ?_⟩
    · obtain ⟨gpt1, gpt2, H⟩ := (accepted_iff hfree).mpr hcert
      obtain ⟨r, hr⟩ := H.certify_eq
      cases hrun.symm.trans hr
    · rw [validateCapture_of_error hrun]
  | ok r =>
    right
    obtain ⟨g, gpt2, artifacts, slots, H, hitems, hslots, rfl⟩ := certify_eq_ok.mp hrun
    have hsound := (passOk_passesOf h1).mp H.pass1
    refine ⟨(accepted_iff hfree).mp ⟨g, gpt2, H⟩, g, _, validateCapture_of_ok H.pass1 hrun, hsound,
      ?_, fun a ha => captured_eq_stored hsound.table hsound.listed ha, ⟨artifacts, slots, rfl, hslots, ?_⟩,
      ?_⟩
    · intro p hp a ha
      obtain ⟨c, hc1, hc2⟩ := H.identical hfree ha
      have hc : c = first.captured a := Option.some.inj (hc1.symm.trans (get?_passesOf ha).1)
      have hcases : p = "pass1" ∨ p = "pass2" := by simpa [capturePasses] using hp
      cases hcases with
      | inl h => exact h ▸ hc ▸ hc1
      | inr h => exact h ▸ hc ▸ hc2
    · intro a ha
      have hmem : binName a ∈ artifactNames (passesOf first second) :=
        (mem_artifactNames H.pass1).mpr ⟨a, ha, rfl⟩
      have hart : artifactOf hash (passesOf first second) (binName a)
          = ⟨(first.captured a).length, (hash (first.captured a)).hexdigest, 2⟩ := by
        rw [artifactOf, contentOf_eq (get?_passesOf ha).1]
      refine Dict.get?_eq_some.mpr ?_
      rw [hitems, ← hart]
      exact List.mem_map_of_mem hmem
    · refine ⟨_, rfl, ?_⟩
      rw [readLines_join fun line hl => (allLines_plain H.pass1 line hl).2]
      exact allLines_perm H.pass1

/-- **A capture is exact.** A run ends well exactly when the flash holds a well-formed GPT with every
partition of the table and plausible images, and the second pass reads the same; it ends with
`SystemExit` otherwise, and what it leaves describes the flash. -/
theorem execute_exact (hash : Bytes → Digest) (H : Captures client tablets)
    (hprep : Prepared host args output) (hone : OneLine output.str) (hpasses : Passes tablets first second)
    (hfree : ∀ a ∈ partitions.artifacts,
      hash (first.captured a) = hash (second.captured a) → first.captured a = second.captured a) :
    ((∃ out, execute crc32 hash client host args = .ok (some out)) ↔
      (∃ g, first.Sound g) ∧ second.Readable ∧
        ∀ a ∈ partitions.artifacts, first.captured a = second.captured a) ∧
    ((∃ out g, execute crc32 hash client host args = .ok (some out) ∧ Describes hash first g out) ∨
      ∃ message, execute crc32 hash client host args = .error (.systemExit message)) := by
  cases execute_cases hash H hprep hone hpasses with
  | inl hfail =>
    obtain ⟨hmissing, message, hrun⟩ := hfail
    refine ⟨⟨?_, ?_⟩, .inr ⟨message, hrun⟩⟩
    · rintro ⟨out, hout⟩
      cases hrun.symm.trans hout
    · rintro ⟨⟨g, hg⟩, h2, hsame⟩
      exact absurd ⟨hg.complete, hg.complete_of_same h2 hsame⟩ hmissing
  | inr hok =>
    obtain ⟨⟨hcomplete, hcomplete2⟩, hrun⟩ := hok
    have h1 := hcomplete.readable
    have h2 := hcomplete2.readable
    have hcert : Certifiable crc32 (passesOf first second) ↔ (∃ g, first.Sound g) ∧
        second.Readable ∧ ∀ a ∈ partitions.artifacts, first.captured a = second.captured a := by
      rw [certifiable_passesOf h1]
      exact and_congr_right fun _ => (and_iff_right h2).symm
    rw [← hcert, hrun]
    cases validateCapture_passesOf h1 (collisionFree_passesOf hfree) with
    | inl hbad =>
      obtain ⟨hnot, message, hval⟩ := hbad
      rw [hval]
      exact ⟨iff_of_false (fun ⟨_, h⟩ => nomatch h) hnot, .inr ⟨message, rfl⟩⟩
    | inr hgood =>
      obtain ⟨hyes, g, out, hval, hdesc⟩ := hgood
      rw [hval]
      exact ⟨iff_of_true ⟨out, rfl⟩ hyes, .inl ⟨out, g, rfl, hdesc⟩⟩

end run

/-! ## a tablet -/

section tablet

/-- the images of the table, one after the other -/
def images (items : List (String × Nat)) : Bytes := items.flatMap fun item => image item.1 item.2

theorem length_images {items : List (String × Nat)} (h : ∀ item ∈ items, 8 ≤ item.2) :
    (images items).length = (items.map Prod.snd).sum := by
  induction items with
  | nil => rfl
  | cons item items ih =>
    rw [images, List.flatMap_cons, List.length_append, length_image (h item List.mem_cons_self),
      List.map_cons, List.sum_cons]
    exact congrArg _ (ih fun i hi => h i (List.mem_cons_of_mem item hi))

/-- where a placed partition lies -/
theorem mem_place {items : List (String × Nat)} {firstLba : Nat} {slot : PartitionSlot}
    (hsize : ∀ item ∈ items, 0 < item.2 ∧ item.2 % 0x1000 = 0) (h : slot ∈ place firstLba items) :
    ∃ before item after, items = before ++ item :: after ∧ slot.name = item.1 ∧
      slot.firstLba * 0x1000 = firstLba * 0x1000 + (before.map Prod.snd).sum ∧
      (slot.lastLba - slot.firstLba + 1) * 0x1000 = item.2 := by
  induction items generalizing firstLba with
  | nil => exact absurd h List.not_mem_nil
  | cons item items ih =>
    obtain ⟨hpos, hmod⟩ := hsize item List.mem_cons_self
    cases List.mem_cons.mp h with
    | inl e =>
      refine ⟨[], item, items, rfl, congrArg PartitionSlot.name e, ?_, ?_⟩
      · rw [e, List.map_nil, List.sum_nil, Nat.add_zero]
      · rw [e]
        show (firstLba + item.2 / 0x1000 - 1 - firstLba + 1) * 0x1000 = item.2
        omega
    | inr hmem =>
      obtain ⟨before, i, after, hitems, hname, hfirst, hsize⟩ :=
        ih (fun i hi => hsize i (List.mem_cons_of_mem item hi)) hmem
      refine ⟨item :: before, i, after, congrArg _ hitems, hname, ?_, hsize⟩
      have hsectors : item.2 / 0x1000 * 0x1000 = item.2 :=
        Nat.div_mul_cancel (Nat.dvd_of_mod_eq_zero hmod)
      rw [hfirst, List.map_cons, List.sum_cons, Nat.add_mul, hsectors, Nat.add_assoc]

/-- the bytes between the images and the backup span -/
def restSize : Nat := 65531 * 0x1000 - (partitions.sizes.items.map Prod.snd).sum

/-- the flash of a tablet with the layout of the table -/
def tableFlash : Bytes :=
  tableLayout.primary Crc32.crc32 ++ (images partitions.sizes.items ++
    (List.replicate restSize 0 ++ tableLayout.backup Crc32.crc32))

theorem sizes_ok : ∀ item ∈ partitions.sizes.items,
    8 ≤ item.2 ∧ (0 < item.2 ∧ item.2 % 0x1000 = 0) := by decide

theorem length_spans : (tableLayout.primary Crc32.crc32).length = 3 * 0x1000 ∧
    (tableLayout.backup Crc32.crc32).length = 2 * 0x1000 :=
  ⟨tableLayout.length_primary Crc32.crc32, tableLayout.length_backup Crc32.crc32⟩

theorem length_tableFlash : tableFlash.length = 65536 * 0x1000 := by
  have hsum : (partitions.sizes.items.map Prod.snd).sum ≤ 65531 * 0x1000 := by decide
  have himages := length_images fun item hi => (sizes_ok item hi).1
  have hrest : (partitions.sizes.items.map Prod.snd).sum + (restSize + 2 * 0x1000)
      = 65531 * 0x1000 + 2 * 0x1000 := by
    rw [restSize, ← Nat.add_assoc, Nat.add_sub_cancel' hsum]
  rw [tableFlash, List.length_append, List.length_append, List.length_append, List.length_replicate,
    length_spans.1, length_spans.2, himages, hrest]

/-- a listed partition holds its image -/
theorem window_image {name : String} {p : Partition}
    (h : tableLayout.parsed.partitions.get? name = some p) :
    ∃ size, (name, size) ∈ partitions.sizes.items ∧
      window tableFlash (p.firstLba * 0x1000) p.size = image name size := by
  have hmem : (name, p) ∈ tableLayout.partitions.items := Dict.get?_eq_some.mp h
  obtain ⟨slot, hslot, hitem⟩ := List.mem_map.mp hmem
  have hslots : tableLayout.slots.filterMap Slot.partition? = place 3 partitions.sizes.items := by
    show ((place 3 partitions.sizes.items).map Slot.used).filterMap Slot.partition? = _
    rw [List.filterMap_map]
    exact List.filterMap_some
  rw [hslots] at hslot
  obtain ⟨before, item, after, hitems, hname, hfirst, hsize⟩ :=
    mem_place (fun item hi => (sizes_ok item hi).2) hslot
  obtain ⟨rfl, rfl⟩ := Prod.mk.inj hitem
  have hin : item ∈ partitions.sizes.items := by
    rw [hitems]
    exact List.mem_append_right before List.mem_cons_self
  have hbefore : ∀ i ∈ before, 8 ≤ i.2 := by
    intro i hi
    refine (sizes_ok i ?_).1
    rw [hitems]
    exact List.mem_append_left _ hi
  refine ⟨item.2, hname ▸ hin, ?_⟩
  have hflash : tableFlash = (tableLayout.primary Crc32.crc32 ++ images before) ++
      (image item.1 item.2 ++ (images after ++
        (List.replicate restSize 0 ++ tableLayout.backup Crc32.crc32))) := by
    rw [tableFlash, hitems, images, List.flatMap_append, List.flatMap_cons]
    simp only [List.append_assoc]
    rfl
  rw [hflash, hname]
  refine window_middle ?_ ?_
  · rw [List.length_append, length_spans.1, length_images hbefore, hfirst]
  · rw [length_image (sizes_ok item hin).1]
    exact hsize.symm

def tableGuid : GuidGpt := ⟨⟨efiPart, 3, 65000, 65535⟩, 0x1000⟩

/-- the header that the loader reads is the one of the layout -/
theorem header_tableFlash : GptHeader.decode (window tableFlash 0x1000 92)
    = tableLayout.primaryHeader Crc32.crc32 := by
  have hle : 0x1000 + 92 ≤ (tableLayout.primary Crc32.crc32).length := by
    rw [length_spans.1]
    decide
  have hs : tableLayout.sectorSize = 0x1000 := rfl
  rw [tableFlash, window_append_left hle, ← hs]
  exact (tableLayout.pairOk Crc32.crc32).primaryHeader.fields.symm

theorem seesFlash_tableFlash : SeesFlash tableFlash tableGuid tableFlash.length (readImage tableFlash) where
  sector := Or.inr rfl
  signature := by
    rw [tableGuid, header_tableFlash]
    rfl
  firstUsable := by
    rw [tableGuid, header_tableFlash]
    rfl
  lastUsable := by
    rw [tableGuid, header_tableFlash]
    rfl
  backup := by
    rw [tableGuid, header_tableFlash]
    rfl
  flashSize_eq := rfl
  reads := fun a n _ => congrArg some (slice_eq_window tableFlash a n)
  not_small := by
    intro _
    have hle : 0x200 + 8 ≤ (tableLayout.primary Crc32.crc32).length := by
      rw [length_spans.1]
      decide
    rw [tableFlash, window_append_left hle, tableLayout.window_primary_zeros Crc32.crc32 rfl]
    decide

theorem safeGeometry_tableFlash :
    SafeGeometry tableFlash 0x1000 (tableLayout.primaryHeader Crc32.crc32) where
  three_le := Nat.le_refl 3
  last_lt := by
    show 65000 + 3 < 65535 + 2
    decide
  inside := by
    rw [length_tableFlash]
    exact Nat.le_refl _

theorem spans_tableFlash :
    primarySpan tableFlash 0x1000 (tableLayout.primaryHeader Crc32.crc32)
      = tableLayout.primary Crc32.crc32 ∧
    backupSpan tableFlash 0x1000 (tableLayout.primaryHeader Crc32.crc32)
      = tableLayout.backup Crc32.crc32 := by
  constructor
  · show window tableFlash 0 (3 * 0x1000) = _
    rw [tableFlash, window_append_left (by rw [length_spans.1]), ← length_spans.1, window_self]
  · show window tableFlash (65534 * 0x1000) (2 * 0x1000) = _
    have hflash : tableFlash = (tableLayout.primary Crc32.crc32 ++ (images partitions.sizes.items ++
        List.replicate restSize 0)) ++ (tableLayout.backup Crc32.crc32 ++ []) := by
      rw [tableFlash, List.append_nil, List.append_assoc, List.append_assoc]
    have hlen : (tableLayout.primary Crc32.crc32 ++ (images partitions.sizes.items ++
        List.replicate restSize 0)).length + 2 * 0x1000 = 65534 * 0x1000 + 2 * 0x1000 := by
      rw [← length_spans.2, ← List.length_append, ← List.append_nil (tableLayout.backup _), ← hflash,
        List.append_nil, length_spans.2, length_tableFlash]
    rw [hflash]
    exact window_middle (Nat.add_right_cancel hlen) length_spans.2

theorem safe_tableGuid : SafeGeometry tableFlash tableGuid.sectorsize
    (GptHeader.decode (window tableFlash tableGuid.sectorsize 92)) := by
  show SafeGeometry tableFlash 0x1000 (GptHeader.decode (window tableFlash 0x1000 92))
  rw [header_tableFlash]
  exact safeGeometry_tableFlash

theorem flashTable_tableFlash {g : ParsedGpt} :
    FlashTable Crc32.crc32 tableFlash 0x1000 g ↔ tableLayout.parsed = g := by
  have hparse : parseGptPair Crc32.crc32 (tableLayout.primary Crc32.crc32)
      (tableLayout.backup Crc32.crc32) = .ok tableLayout.parsed :=
    parseGptPair_eq_ok.mpr ⟨_, _, _, _, _, tableLayout.pairOk Crc32.crc32, rfl⟩
  have hiff : _ ↔ FlashTable Crc32.crc32 tableFlash tableGuid.sectorsize g :=
    parse_spans seesFlash_tableFlash rfl safe_tableGuid
  rw [show tableGuid.sectorsize = 0x1000 from rfl, header_tableFlash, spans_tableFlash.1,
    spans_tableFlash.2, hparse, Except.ok.injEq] at hiff
  exact hiff.symm

/-- The tablet with that flash. -/
def tableTablet : Tablet Crc32.crc32 where
  flash := tableFlash
  guid := tableGuid
  flashSize := tableFlash.length
  readflash := readImage tableFlash
  sees := seesFlash_tableFlash
  read name := match tableLayout.parsed.partitions.get? name with
    | some p => window tableFlash (p.firstLba * 0x1000) p.size
    | none => []
  reads := by
    intro g ht name p hp
    rw [← flashTable_tableFlash.mp ht] at hp
    rw [hp]
    rfl
  lu0 := image "preloader_lu0" 0x80000
  lu1 := image "preloader_lu1" 0x80000

/-- what it stores for an artifact -/
theorem stored_tableTablet {a : String} (h : a ∈ partitions.names ++ ["preloader_lu0", "preloader_lu1"]) :
    ∃ size, 8 ≤ size ∧ tableTablet.stored tableLayout.parsed a = image a size := by
  unfold Tablet.stored
  by_cases h0 : a = "preloader_lu0"
  · rw [if_pos h0, h0]
    exact ⟨0x80000, by decide, rfl⟩
  by_cases h1 : a = "preloader_lu1"
  · rw [if_neg h0, if_pos h1, h1]
    exact ⟨0x80000, by decide, rfl⟩
  have hname : a ∈ partitions.names := (List.mem_append.mp h).resolve_right (by simp [h0, h1])
  obtain ⟨size, hitem⟩ := Dict.mem_keys.mp hname
  obtain ⟨p, hp, -⟩ := Option.map_eq_some_iff.mp (lists_tableLayout (a, size) hitem)
  obtain ⟨size', hsize, hwindow⟩ := window_image hp
  rw [if_neg h0, if_neg h1, Tablet.region, hp]
  exact ⟨size', (sizes_ok _ hsize).1, hwindow⟩

theorem sound_tableTablet : tableTablet.Sound tableLayout.parsed where
  readable := ⟨rfl, safe_tableGuid⟩
  table := flashTable_tableFlash.mpr rfl
  listed := fun item hi => Option.map_eq_some_iff.mp (lists_tableLayout item hi)
  preloaders := by
    constructor
    · show (image "preloader_lu0" 0x80000).length = 0x80000
      exact length_image (by decide)
    · show (image "preloader_lu1" 0x80000).length = 0x80000
      exact length_image (by decide)
  magic := by
    have hmem : ∀ item ∈ requiredMagic,
        item.1 ∈ partitions.names ++ ["preloader_lu0", "preloader_lu1"] := by decide
    intro item hi
    obtain ⟨size, -, hstored⟩ := stored_tableTablet (hmem item hi)
    rw [hstored]
    exact magic_image hi size
  nonuniform := by
    have hmem : ∀ name ∈ scannedNames,
        name ∈ partitions.names ++ ["preloader_lu0", "preloader_lu1"] := by decide
    intro name hn
    obtain ⟨size, hsize, hstored⟩ := stored_tableTablet (hmem name hn)
    rw [hstored]
    exact nonuniform_image hn hsize

/-- what a command writes when the tablet `d` is read -/
def Tablet.runCommand (d : Tablet Crc32.crc32) : List String → Except Exn Files
  | ["gpt", directory] => daGpt (some d.guid) d.flashSize d.readflash (some directory)
  | ["r", name, path] => .ok [(path, d.read name)]
  | ["ro", _, _, path, _, parttype] => .ok [(path, if parttype = "lu1" then d.lu1 else d.lu0)]
  | _ => .ok []

def exitOf : Except Exn Files → Int × Files
  | .ok files => (0, files)
  | .error _ => (1, [])

/-- a client that reads one tablet -/
def clientOf (d : Tablet Crc32.crc32) : Mtkclient where
  runCommand _ tokens := d.runCommand tokens
  runScript content := exitOf (runCommands (fun _ tokens => d.runCommand tokens) 0 (readPlan content))

theorem captures_clientOf (d : Tablet Crc32.crc32) : Captures (clientOf d) fun _ => d where
  gpt _ _ := rfl
  read _ _ _ _ := rfl
  unlisted _ name path files hrun file hfile := by
    cases hrun
    rw [List.mem_singleton.mp hfile]
  lu0 _ _ := rfl
  lu1 _ _ := rfl
  finished _ _ hrun := congrArg exitOf hrun
  failed _ _ hrun := by
    rw [show (clientOf d).runScript _ = exitOf (.error _) from congrArg exitOf hrun]
    exact Int.one_ne_zero

theorem prepared_table : Prepared (readyHost containerLayout) { execute := true } defaultOutput :=
  prepared_readyHost clean_defaults.1 clean_defaults.2.1 clean_defaults.2.2 (by decide +kernel)
    (by decide +kernel) (by decide +kernel) (by decide +kernel) rfl

theorem execute_exact_table : ∃ out g,
    execute Crc32.crc32 Sha256.sha256 (clientOf tableTablet) (readyHost containerLayout) { execute := true }
      = .ok (some out) ∧ Describes Sha256.sha256 tableTablet g out := by
  have hone : OneLine defaultOutput.str := by decide +kernel
  have hpasses : Passes (fun _ => tableTablet) tableTablet tableTablet := fun _ _ => ⟨rfl, rfl⟩
  obtain ⟨hiff, hends⟩ := execute_exact Sha256.sha256 (captures_clientOf tableTablet)
    prepared_table hone hpasses fun _ _ _ => rfl
  obtain ⟨out, hout⟩ := hiff.mpr ⟨⟨_, sound_tableTablet⟩, sound_tableTablet.readable, fun _ _ => rfl⟩
  cases hends with
  | inl h => exact h
  | inr h =>
    obtain ⟨message, hbad⟩ := h
    cases hout.symm.trans hbad

end tablet

end RT7.Capture
