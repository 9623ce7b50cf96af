import RT7.Capture.Image
import RT7.Base.Json
import RT7.Base.Crc32
import Mathlib.Data.List.ProdSigma
import Mathlib.Data.List.Perm.Basic

/-!
# Certification of a capture: `validate_capture`

* `OutputDir`       the two pass directories and the two manifests, absent or with a content;
* `validateCapture` the function, which leaves the directory as the returned state has it;
* `Certifiable`     both passes are acceptable and every artifact was read twice alike;
* `Certified`       what the two manifests say afterwards;
* `validateCapture_exact`   certification succeeds exactly on certifiable directories; otherwise the
  script exits and no manifest is touched.
-/

namespace RT7.Capture

open Py Gpt Text

structure OutputDir where
  pass1 : PassDir
  pass2 : PassDir
  checksumManifest : Option Bytes
  captureManifest : Option Bytes

/-- `output / pass_name` -/
def OutputDir.pass (output : OutputDir) (passName : String) : PassDir :=
  if passName = "pass1" then output.pass1 else output.pass2

structure Artifact where
  size : Nat
  sha256 : String
  verifiedCopies : Nat
  deriving DecidableEq, Repr

/-- The three accumulators of the loop over the artifacts. -/
structure Collected where
  artifacts : Dict String Artifact
  failures : List String
  checksumLines : List String

def mtkclientCommit : String := "4d29037104b1f378abedcace89ccd48e8a8aa314"

def mtkclientGptPatchMarker : String := "RT7_CAPTURE_GPT_V1"

/-- the images that are compared between the two slots -/
def comparedBases : List String :=
  ["boot", "dtbo", "lk", "tee", "vbmeta", "vbmeta_system", "vbmeta_vendor"]

def openFile (directory : PassDir) (name : String) : Except Exn Bytes :=
  match directory.get? name with
  | none => .error (.osError name)
  | some content => .ok content

/-- `artifacts[key]` -/
def lookup (artifacts : Dict String Artifact) (key : String) : Except Exn Artifact :=
  match artifacts.get? key with
  | none => .error (.keyError key)
  | some artifact => .ok artifact

section
variable (hash : Bytes → Digest)

/-- one turn of the loop, once both files are read -/
def Collected.add (s : Collected) (name : String) (first second : Bytes) : Collected :=
  let hashes := [sha256 hash first, sha256 hash second]
  { failures := if hashes.dedup.length ≠ 1 then
        s.failures ++ [s!"independent reads differ for {name}"]
      else s.failures
    artifacts := s.artifacts.set name
      { size := first.length, sha256 := sha256 hash first, verifiedCopies := capturePasses.length }
    checksumLines := s.checksumLines ++
      (capturePasses.zip hashes).map fun line => s!"{line.2}  {line.1}/{name}\n" }

def collectArtifact (output : OutputDir) (s : Collected) (name : String) :
    Except Exn Collected := do
  let first ← openFile (output.pass "pass1") name
  let second ← openFile (output.pass "pass2") name
  return s.add hash name first second

end

def compareSlots (artifacts : Dict String Artifact) (slots : Dict String Bool) (base : String) :
    Except Exn (Dict String Bool) := do
  let slotA ← lookup artifacts (binName s!"{base}_a")
  let slotB ← lookup artifacts (binName s!"{base}_b")
  return slots.set base (decide (slotA.sha256 = slotB.sha256))

def slotComparisons (artifacts : Dict String Artifact) : Except Exn (Dict String Bool) := do
  let slots ← comparedBases.foldlM (compareSlots artifacts) Dict.empty
  let lu0 ← lookup artifacts "preloader_lu0.bin"
  let lu1 ← lookup artifacts "preloader_lu1.bin"
  return slots.set "preloader_lu0_lu1" (decide (lu0.sha256 = lu1.sha256))

/-! ## the capture manifest -/

def artifactJson (artifact : Artifact) : Json :=
  .obj [("size", .num artifact.size), ("sha256", .str artifact.sha256),
    ("verified_copies", .num artifact.verifiedCopies)]

def partitionJson (partition : Partition) : Json :=
  .obj [("first_lba", .num partition.firstLba), ("last_lba", .num partition.lastLba),
    ("size", .num partition.size)]

def gptJson (gpt : ParsedGpt) : Json :=
  .obj [("sector_size", .num gpt.sectorSize), ("disk_guid", .str gpt.diskGuid),
    ("primary_lba", .num gpt.primaryLba), ("backup_lba", .num gpt.backupLba),
    ("first_usable_lba", .num gpt.firstUsableLba), ("last_usable_lba", .num gpt.lastUsableLba),
    ("partitions", .obj (gpt.partitions.items.map fun p => (p.1, partitionJson p.2)))]

def manifestJson (artifacts : Dict String Artifact) (gpt : ParsedGpt) (slots : Dict String Bool) :
    Json :=
  .obj [("format", .num 2), ("mtkclient_commit", .str mtkclientCommit),
    ("gpt_capture_patch", .str mtkclientGptPatchMarker),
    ("read_passes", .arr (capturePasses.map .str)),
    ("artifacts", .obj (artifacts.items.map fun a => (a.1, artifactJson a.2))),
    ("gpt", gptJson gpt),
    ("slot_images_identical", .obj (slots.items.map fun s => (s.1, .bool s.2)))]

/-! ## the function -/

section
variable (crc32 : Bytes → UInt32) (hash : Bytes → Digest)

/-- The part of `validate_capture` before the first write: the checksum lines and the manifest. -/
def certify (table : Dict String Nat) (output : OutputDir) : Except Exn (List String × Json) := do
  let gpt1 ← validateCapturePass crc32 table "pass1" (output.pass "pass1")
  let gpt2 ← validateCapturePass crc32 table "pass2" (output.pass "pass2")
  raiseIf (¬ gpt1.eqv gpt2)
    (.systemExit "Capture validation failed: GPT differs between read passes")
  let artifactNames := sorted (glob (output.pass "pass1"))
  let s ← artifactNames.foldlM (collectArtifact hash output) ⟨Dict.empty, [], []⟩
  raiseIf (s.failures ≠ [])
    (.systemExit ("Capture validation failed:\n- " ++ String.intercalate "\n- " s.failures))
  let slots ← slotComparisons s.artifacts
  return (s.checksumLines, manifestJson s.artifacts gpt1 slots)

/-- Opening a manifest for writing empties it; a text that is not ASCII then fails. -/
def writeText (text : String) : Except Exn Unit × Option Bytes :=
  match encodeAscii text with
  | .error e => (.error e, some [])
  | .ok bytes => (.ok (), some bytes)

def validateCapture (table : Dict String Nat) (output : OutputDir) :
    Except Exn Unit × OutputDir :=
  match certify crc32 hash table output with
  | .error e => (.error e, output)
  | .ok (checksumLines, manifest) =>
    let (written, checksums) := writeText (String.join checksumLines)
    let output := { output with checksumManifest := checksums }
    match written with
    | .error e => (.error e, output)
    | .ok () =>
      let (written, manifest) := writeText (manifest.dumps ++ "\n")
      (written, { output with captureManifest := manifest })

end

/-! ## the loop over the artifacts -/

/-- the content of a file that is there -/
def contentOf (output : OutputDir) (passName name : String) : Bytes :=
  ((output.pass passName).get? name).getD []

/-- the record of one artifact -/
def artifactOf (hash : Bytes → Digest) (output : OutputDir) (name : String) : Artifact :=
  let content := contentOf output "pass1" name
  ⟨content.length, (hash content).hexdigest, 2⟩

/-- the line of one file, without its end -/
def checksumLine (hash : Bytes → Digest) (output : OutputDir) (passName name : String) : String :=
  let digest := (hash (contentOf output passName name)).hexdigest
  s!"{digest}  {passName}/{name}"

/-- the lines of all files: for each artifact, one line for each pass -/
def allLines (hash : Bytes → Digest) (output : OutputDir) (names : List String) : List String :=
  names.flatMap fun name => capturePasses.map fun p => checksumLine hash output p name

section
variable {hash : Bytes → Digest} {output : OutputDir}

/-- Every file of the list is in both passes. -/
def Readable (output : OutputDir) (names : List String) : Prop :=
  ∀ p ∈ capturePasses, ∀ name ∈ names, ∃ c, (output.pass p).get? name = some c

theorem openFile_eq {passName name : String} (h : ∃ c, (output.pass passName).get? name = some c) :
    openFile (output.pass passName) name = .ok (contentOf output passName name) := by
  obtain ⟨c, hc⟩ := h
  rw [openFile, contentOf, hc]
  rfl

theorem collectArtifact_eq {names : List String} (h : Readable output names) {name : String}
    (hn : name ∈ names) (s : Collected) :
    collectArtifact hash output s name =
      .ok (s.add hash name (contentOf output "pass1" name) (contentOf output "pass2" name)) := by
  rw [collectArtifact, openFile_eq (h "pass1" (by decide) name hn), ok_bind,
    openFile_eq (h "pass2" (by decide) name hn), ok_bind]
  rfl

theorem items_add {s : Collected} {name : String} (h : name ∉ s.artifacts.keys) (second : Bytes) :
    (s.add hash name (contentOf output "pass1" name) second).artifacts.items
      = s.artifacts.items ++ [(name, artifactOf hash output name)] := by
  show (s.artifacts.set name _).items = _
  rw [Dict.items_set_of_not_mem h, sha256_eq]
  rfl

theorem checksumLines_add (s : Collected) (name : String) :
    (s.add hash name (contentOf output "pass1" name) (contentOf output "pass2" name)).checksumLines
      = s.checksumLines ++
        (capturePasses.map fun p => checksumLine hash output p name).map fun l => l ++ "\n" := by
  show s.checksumLines ++ [_, _] = s.checksumLines ++ [_, _]
  rw [sha256_eq, sha256_eq]
  rfl

theorem failures_add {s : Collected} {name : String} {first second : Bytes} :
    (s.add hash name first second).failures = [] ↔ s.failures = [] ∧ hash first = hash second := by
  have hdedup : ∀ a b : String, [a, b].dedup.length ≠ 1 ↔ a ≠ b := by
    intro a b
    by_cases h : a = b
    · simp [h]
    · simp [h]
  have hsha : sha256 hash first ≠ sha256 hash second ↔ hash first ≠ hash second := by
    rw [sha256_eq, sha256_eq, Digest.hexdigest_injective.ne_iff]
  show (if [sha256 hash first, sha256 hash second].dedup.length ≠ 1 then _ else _) = [] ↔ _
  by_cases h : hash first = hash second
  · rw [if_neg (fun hd => hsha.mp ((hdedup _ _).mp hd) h)]
    exact (and_iff_left h).symm
  · rw [if_pos ((hdedup _ _).mpr (hsha.mpr h))]
    simp [h]

/-- The loop over the artifacts, from accumulators `s`. Induction on the names; the invariant is
that the names to come are not yet recorded. -/
theorem collect_eq {names : List String} (hnd : names.Nodup) (hread : Readable output names)
    (s : Collected) (hfresh : ∀ name ∈ names, name ∉ s.artifacts.keys) :
    ∃ s', names.foldlM (collectArtifact hash output) s = .ok s' ∧
      s'.artifacts.items = s.artifacts.items ++
        (names.map fun name => (name, artifactOf hash output name)) ∧
      s'.checksumLines = s.checksumLines ++
        (allLines hash output names).map (fun l => l ++ "\n") ∧
      (s'.failures = [] ↔ s.failures = [] ∧ ∀ name ∈ names,
        hash (contentOf output "pass1" name) = hash (contentOf output "pass2" name)) := by
  induction names generalizing s with
  | nil => exact ⟨s, rfl, (List.append_nil _).symm, (List.append_nil _).symm, by simp⟩
  | cons name names ih =>
    have hn : name ∈ name :: names := List.mem_cons_self
    have hnd' := List.nodup_cons.mp hnd
    have hread' : Readable output names := fun p hp n h => hread p hp n (List.mem_cons_of_mem name h)
    have hitems : (s.add hash name (contentOf output "pass1" name)
        (contentOf output "pass2" name)).artifacts.items = _ := items_add (hfresh name hn) _
    have hfresh' : ∀ n ∈ names, n ∉ (s.add hash name (contentOf output "pass1" name)
        (contentOf output "pass2" name)).artifacts.keys := by
      intro n h hmem
      rw [Dict.keys, hitems, List.map_append, List.mem_append] at hmem
      cases hmem with
      | inl hmem => exact hfresh n (List.mem_cons_of_mem name h) hmem
      | inr hmem =>
        have e : n = name := List.mem_singleton.mp hmem
        exact hnd'.1 (e ▸ h)
    obtain ⟨s', hrun, h1, h2, h3⟩ := ih hnd'.2 hread' _ hfresh'
    refine ⟨s', ?_, ?_, ?_, ?_⟩
    · rw [List.foldlM_cons, collectArtifact_eq hread hn, ok_bind, hrun]
    · rw [h1, hitems, List.append_assoc]
      rfl
    · rw [h2, checksumLines_add, List.append_assoc, ← List.map_append]
      rfl
    · rw [h3, failures_add, List.forall_mem_cons, and_assoc]

end

/-! ## the slot comparison -/

theorem lookup_raises {artifacts : Dict String Artifact} {key : String} (h : key ∈ artifacts.keys)
    (P : Exn → Prop) : RaisesOnly P (lookup artifacts key) := by
  obtain ⟨artifact, ha⟩ := Option.isSome_iff_exists.mp (Dict.get?_isSome.mpr h)
  rw [lookup, ha]
  exact .ok artifact

/-- the names that the comparison looks up are artifacts of the table -/
theorem comparedBases_mem : ∀ base ∈ comparedBases,
    s!"{base}_a" ∈ partitions.artifacts ∧ s!"{base}_b" ∈ partitions.artifacts := by decide

theorem slotComparisons_total {artifacts : Dict String Artifact}
    (h : ∀ a ∈ partitions.artifacts, binName a ∈ artifacts.keys) :
    ∃ slots, slotComparisons artifacts = .ok slots := by
  have e0 : binName "preloader_lu0" = "preloader_lu0.bin" := by decide
  have e1 : binName "preloader_lu1" = "preloader_lu1.bin" := by decide
  apply RaisesOnly.exists_ok
  refine .bind (.foldlM (fun base hb slots => ?_) _) fun slots _ => ?_
  · have hmem := comparedBases_mem base hb
    refine .bind (lookup_raises (h _ hmem.1) _) fun _ _ => ?_
    refine .bind (lookup_raises (h _ hmem.2) _) fun _ _ => ?_
    exact .ok _
  · refine .bind (lookup_raises (e0 ▸ h "preloader_lu0" (by decide)) _) fun _ _ => ?_
    refine .bind (lookup_raises (e1 ▸ h "preloader_lu1" (by decide)) _) fun _ _ => ?_
    exact .ok _

theorem compareSlots_keys {artifacts : Dict String Artifact} {slots slots' : Dict String Bool}
    {base : String} (h : compareSlots artifacts slots base = .ok slots') {key : String}
    (hk : key ∈ slots'.keys) : key = base ∨ key ∈ slots.keys := by
  unfold compareSlots at h
  simp only [bind_eq_ok, pure_eq_ok] at h
  obtain ⟨_, _, _, _, rfl⟩ := h
  exact Dict.mem_keys_set hk

/-- the keys of the comparison, whatever the artifacts -/
theorem slotComparisons_keys {artifacts : Dict String Artifact} {slots : Dict String Bool}
    (h : slotComparisons artifacts = .ok slots) :
    slots.keys ⊆ comparedBases ++ ["preloader_lu0_lu1"] := by
  have hrun : ∀ (bases : List String) (d d' : Dict String Bool),
      bases.foldlM (compareSlots artifacts) d = .ok d' → d'.keys ⊆ bases ++ d.keys := by
    intro bases
    induction bases with
    | nil =>
      intro d d' hd
      cases hd
      exact fun _ hk => hk
    | cons base bases ih =>
      intro d d' hd
      rw [List.foldlM_cons, bind_eq_ok] at hd
      obtain ⟨mid, hmid, hd⟩ := hd
      intro key hk
      cases List.mem_append.mp (ih mid d' hd hk) with
      | inl hk => exact List.mem_cons_of_mem base (List.mem_append_left _ hk)
      | inr hk => cases compareSlots_keys hmid hk with
        | inl e => exact e ▸ List.mem_cons_self
        | inr hk => exact List.mem_cons_of_mem base (List.mem_append_right _ hk)
  unfold slotComparisons at h
  simp only [bind_eq_ok, pure_eq_ok] at h
  obtain ⟨d, hd, _, _, _, _, rfl⟩ := h
  intro key hk
  cases Dict.mem_keys_set hk with
  | inl e => exact List.mem_append_right _ (List.mem_singleton.mpr e)
  | inr hk =>
    have hmem := hrun comparedBases Dict.empty d hd hk
    exact List.mem_append_left _ ((List.mem_append.mp hmem).resolve_right List.not_mem_nil)

/-! ## before the first write -/

/-- the names of the artifacts, in the order of the manifests -/
def artifactNames (output : OutputDir) : List String := sorted (glob (output.pass "pass1"))

/-- Both passes are acceptable and every artifact has the same digest in both. -/
structure Accepted (crc32 : Bytes → UInt32) (hash : Bytes → Digest) (output : OutputDir)
    (gpt1 gpt2 : ParsedGpt) : Prop where
  pass1 : PassOk crc32 (output.pass "pass1") gpt1
  pass2 : PassOk crc32 (output.pass "pass2") gpt2
  same : gpt1.eqv gpt2
  hashes : ∀ a ∈ partitions.artifacts,
    hash (contentOf output "pass1" (binName a)) = hash (contentOf output "pass2" (binName a))

section
variable {crc32 : Bytes → UInt32} {hash : Bytes → Digest} {output : OutputDir}
  {gpt1 gpt2 : ParsedGpt}

theorem nodup_artifactNames (output : OutputDir) : (artifactNames output).Nodup :=
  (sorted_perm _).symm.nodup ((output.pass "pass1").nodup.filter _)

theorem mem_artifactNames (h : PassOk crc32 (output.pass "pass1") gpt1) {name : String} :
    name ∈ artifactNames output ↔ ∃ a ∈ partitions.artifacts, binName a = name := by
  rw [artifactNames, (sorted_perm _).mem_iff]
  exact h.names name

theorem artifactNames_perm (h : PassOk crc32 (output.pass "pass1") gpt1) :
    (artifactNames output).Perm (partitions.artifacts.map binName) := by
  refine (List.perm_ext_iff_of_nodup (nodup_artifactNames output)
    (partitions.artifacts_nodup.map binName_injective)).mpr ?_
  intro name
  rw [mem_artifactNames h, List.mem_map]

theorem readable_artifactNames (h1 : PassOk crc32 (output.pass "pass1") gpt1)
    (h2 : PassOk crc32 (output.pass "pass2") gpt2) : Readable output (artifactNames output) := by
  intro p hp name hn
  obtain ⟨a, ha, rfl⟩ := (mem_artifactNames h1).mp hn
  have hcases : p = "pass1" ∨ p = "pass2" := by simpa [capturePasses] using hp
  cases hcases with
  | inl h => exact h ▸ present h1.names ha
  | inr h => exact h ▸ present h2.names ha

/-- the size of an artifact: fixed, or that of a span of the GPT -/
def artifactSize (gpt : ParsedGpt) (a : String) : Nat :=
  if a = "gpt" then gpt.firstUsableLba * gpt.sectorSize
  else if a = "gpt_backup" then (gpt.firstUsableLba - 1) * gpt.sectorSize
  else ((fixedSizes partitions.sizes).get? a).getD 0

theorem PassOk.length_eq {directory : PassDir} {gpt : ParsedGpt}
    (H : PassOk crc32 directory gpt) {a : String} (ha : a ∈ partitions.artifacts) {content : Bytes}
    (hc : directory.get? (binName a) = some content) : content.length = artifactSize gpt a := by
  have hholds : ∀ size, Holds directory a (fun c => c.length = size) → content.length = size := by
    rintro size ⟨c, hget, hlen⟩
    cases hc.symm.trans hget
    exact hlen
  obtain ⟨primary, backup, hp, hb, hok⟩ := H.parsed
  obtain ⟨hprimary, hbackup⟩ := parseGptPair_lengths hok
  have e1 : binName "gpt" = "gpt.bin" := by decide
  have e2 : binName "gpt_backup" = "gpt_backup.bin" := by decide
  unfold artifactSize
  by_cases h1 : a = "gpt"
  · rw [h1, e1, hp] at hc
    cases hc
    rw [if_pos h1, hprimary]
  by_cases h2 : a = "gpt_backup"
  · rw [h2, e2, hb] at hc
    cases hc
    rw [if_neg h1, if_pos h2, hbackup]
  rw [if_neg h1, if_neg h2]
  -- every other artifact has an entry in the table of sizes
  have hfixed : ∀ size, (a, size) ∈ partitions.sizes.items ++
      [("preloader_lu0", 0x80000), ("preloader_lu1", 0x80000)] →
      ((fixedSizes partitions.sizes).get? a).getD 0 = size := by
    intro size hm
    rw [← Table.items_fixedSizes] at hm
    rw [Dict.get?_eq_some.mpr hm]
    rfl
  rw [Table.artifacts, List.mem_append, List.mem_append] at ha
  rcases ha with (ha | ha) | ha
  · simp [h1, h2] at ha
  · obtain ⟨size, hm⟩ := Dict.mem_keys.mp ha
    rw [hfixed size (List.mem_append_left _ hm)]
    exact hholds size (H.sizes (a, size) hm)
  · rw [hfixed 0x80000 (List.mem_append_right _ (by simpa using ha))]
    exact hholds 0x80000 (H.preloaders a ha)

/-- one GPT gives one size -/
theorem length_contentOf (h1 : PassOk crc32 (output.pass "pass1") gpt1)
    (h2 : PassOk crc32 (output.pass "pass2") gpt2) (hsame : gpt1.eqv gpt2) {a : String}
    (ha : a ∈ partitions.artifacts) : (contentOf output "pass1" (binName a)).length
      = (contentOf output "pass2" (binName a)).length := by
  obtain ⟨hsector, -, -, -, hfirst, -⟩ := hsame
  obtain ⟨c₁, hc₁⟩ := present h1.names ha
  obtain ⟨c₂, hc₂⟩ := present h2.names ha
  rw [contentOf, contentOf, hc₁, hc₂, Option.getD_some, Option.getD_some, h1.length_eq ha hc₁,
    h2.length_eq ha hc₂, artifactSize, artifactSize, hsector, hfirst]

theorem hashes_iff (h : PassOk crc32 (output.pass "pass1") gpt1) :
    (∀ name ∈ artifactNames output,
      hash (contentOf output "pass1" name) = hash (contentOf output "pass2" name)) ↔
    ∀ a ∈ partitions.artifacts,
      hash (contentOf output "pass1" (binName a)) = hash (contentOf output "pass2" (binName a)) := by
  constructor
  · intro H a ha
    exact H _ ((mem_artifactNames h).mpr ⟨a, ha, rfl⟩)
  · intro H name hn
    obtain ⟨a, ha, rfl⟩ := (mem_artifactNames h).mp hn
    exact H a ha

/-- the accumulators after the loop, for two acceptable passes -/
theorem collect_artifactNames (hash : Bytes → Digest)
    (h1 : PassOk crc32 (output.pass "pass1") gpt1)
    (h2 : PassOk crc32 (output.pass "pass2") gpt2) :
    ∃ s, (artifactNames output).foldlM (collectArtifact hash output) ⟨Dict.empty, [], []⟩ = .ok s ∧
      s.artifacts.items = (artifactNames output).map
        (fun name => (name, artifactOf hash output name)) ∧
      s.checksumLines = (allLines hash output (artifactNames output)).map (fun l => l ++ "\n") ∧
      (s.failures = [] ↔ ∀ a ∈ partitions.artifacts,
        hash (contentOf output "pass1" (binName a))
          = hash (contentOf output "pass2" (binName a))) := by
  obtain ⟨s, hrun, hitems, hlines, hfail⟩ := collect_eq (nodup_artifactNames output)
    (readable_artifactNames h1 h2) ⟨Dict.empty, [], []⟩ fun _ _ h => List.not_mem_nil h
  refine ⟨s, hrun, hitems, hlines, ?_⟩
  rw [hfail, ← hashes_iff h1]
  exact and_iff_right rfl

theorem keys_of_items {artifacts : Dict String Artifact} {names : List String}
    (h : artifacts.items = names.map fun name => (name, artifactOf hash output name)) :
    artifacts.keys = names := by
  rw [Dict.keys, h, List.map_map]
  exact List.map_id names

/-- **What precedes the first write**, when it succeeds. -/
theorem certify_eq_ok {r : List String × Json} :
    certify crc32 hash partitions.sizes output = .ok r ↔ ∃ gpt1 gpt2 artifacts slots,
      Accepted crc32 hash output gpt1 gpt2 ∧
      artifacts.items = (artifactNames output).map
        (fun name => (name, artifactOf hash output name)) ∧
      slotComparisons artifacts = .ok slots ∧
      r = ((allLines hash output (artifactNames output)).map (fun l => l ++ "\n"),
        manifestJson artifacts gpt1 slots) := by
  unfold certify
  simp only [bind_eq_ok, validateCapturePass_eq_ok, raiseIf_eq_ok, exists_const, not_not,
    pure_eq_ok]
  constructor
  · rintro ⟨gpt1, h1, gpt2, h2, heqv, s, hrun, hfail, slots, hslots, rfl⟩
    obtain ⟨s', hrun', hitems, hlines, hhash⟩ := collect_artifactNames hash h1 h2
    cases hrun.symm.trans hrun'
    refine ⟨gpt1, gpt2, s.artifacts, slots, ⟨h1, h2, heqv, hhash.mp hfail⟩, hitems, hslots, ?_⟩
    rw [hlines]
  · rintro ⟨gpt1, gpt2, artifacts, slots, H, hitems, hslots, rfl⟩
    obtain ⟨s, hrun, hitems', hlines, hhash⟩ := collect_artifactNames hash H.pass1 H.pass2
    have e : artifacts = s.artifacts := Dict.ext (hitems.trans hitems'.symm)
    subst e
    exact ⟨gpt1, H.pass1, gpt2, H.pass2, H.same, s, hrun, hhash.mpr H.hashes, slots, hslots,
      by rw [hlines]⟩

theorem certify_raises :
    RaisesOnly Exn.IsSystemExit (certify crc32 hash partitions.sizes output) := by
  refine .bind validateCapturePass_raises fun gpt1 h1 => ?_
  refine .bind validateCapturePass_raises fun gpt2 h2 => ?_
  refine .guard (fun _ => ⟨_, rfl⟩) fun _ => ?_
  have H1 := validateCapturePass_eq_ok.mp h1
  have H2 := validateCapturePass_eq_ok.mp h2
  obtain ⟨s, hrun, hitems, -, -⟩ := collect_artifactNames hash H1 H2
  rw [← artifactNames]
  dsimp only
  rw [hrun, ok_bind]
  refine .guard (fun _ => ⟨_, rfl⟩) fun _ => ?_
  have hkeys : ∀ a ∈ partitions.artifacts, binName a ∈ s.artifacts.keys := by
    intro a ha
    rw [keys_of_items hitems]
    exact (mem_artifactNames H1).mpr ⟨a, ha, rfl⟩
  obtain ⟨slots, hslots⟩ := slotComparisons_total hkeys
  rw [hslots, ok_bind]
  exact .ok _

end

/-! ## what is written -/

section
variable {crc32 : Bytes → UInt32} {hash : Bytes → Digest} {output : OutputDir}
  {gpt1 gpt2 : ParsedGpt}

theorem hexdigest_plain (d : Digest) : Ascii d.hexdigest ∧ OneLine d.hexdigest := by
  have all : ∀ n < 16, (hexDigit n).toNat < 128 ∧ hexDigit n ≠ '\n' ∧ hexDigit n ≠ '\r' := by
    decide
  constructor
  · intro c hc
    obtain ⟨n, hn, rfl⟩ := Digest.mem_hexdigest hc
    exact (all n hn).1
  · intro c hc
    obtain ⟨n, hn, rfl⟩ := Digest.mem_hexdigest hc
    exact (all n hn).2

theorem pass_plain : ∀ p ∈ capturePasses, Ascii p ∧ OneLine p := by decide

theorem artifact_plain :
    ∀ a ∈ partitions.artifacts, Ascii (binName a) ∧ OneLine (binName a) := by decide

theorem checksumLine_plain {p a : String} (hp : p ∈ capturePasses)
    (ha : a ∈ partitions.artifacts) :
    Ascii (checksumLine hash output p (binName a)) ∧
      OneLine (checksumLine hash output p (binName a)) := by
  have hd := hexdigest_plain (hash (contentOf output p (binName a)))
  have hp := pass_plain p hp
  have ha := artifact_plain a ha
  exact ⟨(((hd.1.append (by decide)).append hp.1).append (by decide)).append ha.1,
    (((hd.2.append (by decide)).append hp.2).append (by decide)).append ha.2⟩

theorem allLines_plain (h : PassOk crc32 (output.pass "pass1") gpt1) :
    ∀ line ∈ allLines hash output (artifactNames output), Ascii line ∧ OneLine line := by
  intro line hl
  obtain ⟨name, hn, hl⟩ := List.mem_flatMap.mp hl
  obtain ⟨p, hp, rfl⟩ := List.mem_map.mp hl
  obtain ⟨a, ha, rfl⟩ := (mem_artifactNames h).mp hn
  exact checksumLine_plain hp ha

theorem allLines_perm (h : PassOk crc32 (output.pass "pass1") gpt1) :
    (allLines hash output (artifactNames output)).Perm
      ((capturePasses.product partitions.artifacts).map fun p =>
        checksumLine hash output p.1 (binName p.2)) := by
  have hswap := List.map_append_flatMap_perm (artifactNames output)
    (fun name => checksumLine hash output "pass1" name)
    (fun name => [checksumLine hash output "pass2" name])
  rw [← List.map_eq_flatMap] at hswap
  have hperm := artifactNames_perm h
  refine hswap.symm.trans ?_
  refine ((hperm.map _).append (hperm.map _)).trans (List.Perm.of_eq ?_)
  rw [List.map_map, List.map_map]
  show _ = (capturePasses.flatMap fun p => partitions.artifacts.map (Prod.mk p)).map _
  rw [List.map_flatMap, capturePasses, List.flatMap_cons, List.flatMap_cons, List.flatMap_nil,
    List.append_nil, List.map_map, List.map_map]
  rfl

theorem writeText_of_ascii {text : String} (h : Ascii text) :
    writeText text = (.ok (), some (asciiBytes text)) := by
  rw [writeText, encodeAscii_of_ascii h]

theorem validateCapture_of_error {e : Exn}
    (h : certify crc32 hash partitions.sizes output = .error e) :
    validateCapture crc32 hash partitions.sizes output = (.error e, output) := by
  rw [validateCapture, h]

theorem pass_validateCapture (table : Dict String Nat) (p : String) :
    (validateCapture crc32 hash table output).2.pass p = output.pass p := by
  unfold validateCapture
  cases certify crc32 hash table output with
  | error e => rfl
  | ok r =>
    dsimp only
    split
    · rfl
    · rfl

/-- neither write can fail, once the directory is accepted -/
theorem validateCapture_of_ok {manifest : Json} (H : PassOk crc32 (output.pass "pass1") gpt1)
    (h : certify crc32 hash partitions.sizes output =
      .ok ((allLines hash output (artifactNames output)).map (fun l => l ++ "\n"), manifest)) :
    validateCapture crc32 hash partitions.sizes output = (.ok (), { output with
      checksumManifest := some (asciiBytes (String.join
        ((allLines hash output (artifactNames output)).map fun l => l ++ "\n")))
      captureManifest := some (asciiBytes (manifest.dumps ++ "\n")) }) := by
  have hlines : Ascii (String.join
      ((allLines hash output (artifactNames output)).map fun l => l ++ "\n")) :=
    ascii_join_lines fun line hl => (allLines_plain H line hl).1
  have hdoc : Ascii (manifest.dumps ++ "\n") := (Json.ascii_dumps manifest).append (by decide)
  rw [validateCapture, h]
  simp only [writeText_of_ascii hlines, writeText_of_ascii hdoc]

end

/-! ## certification -/

/-- Both passes are acceptable and hold the same contents. -/
structure Certifiable (crc32 : Bytes → UInt32) (output : OutputDir) : Prop where
  pass1 : ∃ gpt, PassOk crc32 (output.pass "pass1") gpt
  pass2 : ∃ gpt, PassOk crc32 (output.pass "pass2") gpt
  identical : ∀ a ∈ partitions.artifacts,
    (output.pass "pass1").get? (binName a) = (output.pass "pass2").get? (binName a)

/-- The two files of an artifact do not collide. -/
def CollisionFree (hash : Bytes → Digest) (output : OutputDir) : Prop :=
  ∀ name c₁ c₂, (output.pass "pass1").get? name = some c₁ →
    (output.pass "pass2").get? name = some c₂ → hash c₁ = hash c₂ → c₁ = c₂

/-- The passes are untouched, the checksum manifest has one line for each file, and the capture
manifest has the GPT of the passes, the size and the digest of each artifact, and which slots agree. -/
structure Certified (crc32 : Bytes → UInt32) (hash : Bytes → Digest) (output output' : OutputDir) : Prop where
  pass1 : output'.pass1 = output.pass1
  pass2 : output'.pass2 = output.pass2
  checksums : ∃ text, Ascii text ∧ output'.checksumManifest = some (asciiBytes text) ∧
    (readLines text).Perm ((capturePasses.product partitions.artifacts).map fun p =>
      checksumLine hash output p.1 (binName p.2))
  manifest : ∃ artifacts gpt slots,
    output'.captureManifest = some (asciiBytes ((manifestJson artifacts gpt slots).dumps ++ "\n")) ∧
    (∃ primary backup, output.pass1.get? "gpt.bin" = some primary ∧
      output.pass1.get? "gpt_backup.bin" = some backup ∧ parseGptPair crc32 primary backup = .ok gpt) ∧
    slotComparisons artifacts = .ok slots ∧
    (∀ name, name ∈ artifacts.keys ↔ ∃ a ∈ partitions.artifacts, binName a = name) ∧
    ∀ p ∈ capturePasses, ∀ a ∈ partitions.artifacts, ∃ content,
      (output.pass p).get? (binName a) = some content ∧
      artifacts.get? (binName a) = some ⟨content.length, (hash content).hexdigest, 2⟩

section
variable {crc32 : Bytes → UInt32} {hash : Bytes → Digest} {output : OutputDir}

theorem contentOf_eq {p name : String} {c : Bytes} (h : (output.pass p).get? name = some c) :
    contentOf output p name = c := by
  rw [contentOf, h, Option.getD_some]

/-- without collisions, equal digests are equal contents -/
theorem Accepted.identical {gpt1 gpt2 : ParsedGpt} (H : Accepted crc32 hash output gpt1 gpt2)
    (hfree : CollisionFree hash output) {a : String} (ha : a ∈ partitions.artifacts) :
    ∃ c, (output.pass "pass1").get? (binName a) = some c ∧
      (output.pass "pass2").get? (binName a) = some c := by
  obtain ⟨c₁, h1⟩ := present H.pass1.names ha
  obtain ⟨c₂, h2⟩ := present H.pass2.names ha
  have hh := H.hashes a ha
  rw [contentOf_eq h1, contentOf_eq h2] at hh
  cases hfree _ c₁ c₂ h1 h2 hh
  exact ⟨c₁, h1, h2⟩

theorem accepted_iff (hfree : CollisionFree hash output) :
    (∃ gpt1 gpt2, Accepted crc32 hash output gpt1 gpt2) ↔ Certifiable crc32 output := by
  constructor
  · rintro ⟨gpt1, gpt2, H⟩
    refine ⟨⟨gpt1, H.pass1⟩, ⟨gpt2, H.pass2⟩, ?_⟩
    intro a ha
    obtain ⟨c, h1, h2⟩ := H.identical hfree ha
    exact h1.trans h2.symm
  · intro H
    obtain ⟨gpt1, H1⟩ := H.pass1
    obtain ⟨gpt2, H2⟩ := H.pass2
    have e1 : binName "gpt" = "gpt.bin" := by decide
    have e2 : binName "gpt_backup" = "gpt_backup.bin" := by decide
    have hgpt := H.identical "gpt" (by decide)
    have hbackup := H.identical "gpt_backup" (by decide)
    rw [e1] at hgpt
    rw [e2] at hbackup
    -- the same two spans are parsed twice
    obtain ⟨primary, backup, hp, hb, hok⟩ := H1.parsed
    obtain ⟨primary', backup', hp', hb', hok'⟩ := H2.parsed
    cases (hp.symm.trans hgpt).trans hp'
    cases (hb.symm.trans hbackup).trans hb'
    cases hok.symm.trans hok'
    refine ⟨gpt1, gpt1, H1, H2, ParsedGpt.eqv_refl gpt1, ?_⟩
    intro a ha
    rw [contentOf, contentOf, H.identical a ha]

/-- nothing can stop the tool on an accepted directory -/
theorem Accepted.certify_eq {gpt1 gpt2 : ParsedGpt} (H : Accepted crc32 hash output gpt1 gpt2) :
    ∃ r, certify crc32 hash partitions.sizes output = .ok r := by
  obtain ⟨s, hs, hitems, -, -⟩ := collect_artifactNames hash H.pass1 H.pass2
  have hkeys : ∀ a ∈ partitions.artifacts, binName a ∈ s.artifacts.keys := by
    intro a ha
    rw [keys_of_items hitems]
    exact (mem_artifactNames H.pass1).mpr ⟨a, ha, rfl⟩
  obtain ⟨slots, hslots⟩ := slotComparisons_total hkeys
  exact ⟨_, certify_eq_ok.mpr ⟨gpt1, gpt2, _, slots, H, hitems, hslots, rfl⟩⟩

theorem Accepted.validateCapture_ok {gpt1 gpt2 : ParsedGpt}
    (H : Accepted crc32 hash output gpt1 gpt2) :
    (validateCapture crc32 hash partitions.sizes output).1 = .ok () := by
  obtain ⟨r, hrun⟩ := H.certify_eq
  obtain ⟨gpt1, gpt2, artifacts, slots, H, hitems, -, rfl⟩ := certify_eq_ok.mp hrun
  rw [validateCapture_of_ok H.pass1 hrun]

/-- the two manifests, written for an accepted directory -/
theorem Accepted.certified {gpt1 gpt2 : ParsedGpt} (H : Accepted crc32 hash output gpt1 gpt2)
    (hfree : CollisionFree hash output) {artifacts : Dict String Artifact}
    {slots : Dict String Bool}
    (hitems : artifacts.items = (artifactNames output).map
      fun name => (name, artifactOf hash output name))
    (hslots : slotComparisons artifacts = .ok slots) :
    Certified crc32 hash output { output with
      checksumManifest := some (asciiBytes (String.join
        ((allLines hash output (artifactNames output)).map fun l => l ++ "\n")))
      captureManifest := some (asciiBytes ((manifestJson artifacts gpt1 slots).dumps ++ "\n")) } := by
  have hplain : ∀ line ∈ allLines hash output (artifactNames output), Ascii line ∧ OneLine line :=
    allLines_plain H.pass1
  refine ⟨rfl, rfl, ⟨_, ?_, rfl, ?_⟩, artifacts, gpt1, slots, rfl, H.pass1.parsed, hslots, ?_, ?_⟩
  · exact ascii_join_lines fun line hl => (hplain line hl).1
  · rw [readLines_join fun line hl => (hplain line hl).2]
    exact allLines_perm H.pass1
  · intro name
    rw [keys_of_items hitems]
    exact mem_artifactNames H.pass1
  · intro p hp a ha
    obtain ⟨c, h1, h2⟩ := H.identical hfree ha
    have hc : (output.pass p).get? (binName a) = some c := by
      have hcases : p = "pass1" ∨ p = "pass2" := by simpa [capturePasses] using hp
      cases hcases with
      | inl h => exact h ▸ h1
      | inr h => exact h ▸ h2
    refine ⟨c, hc, Dict.get?_eq_some.mpr ?_⟩
    rw [hitems]
    refine List.mem_map.mpr ⟨binName a, (mem_artifactNames H.pass1).mpr ⟨a, ha, rfl⟩, ?_⟩
    rw [artifactOf, contentOf_eq h1]

/-- **Certification is exact and atomic.** -/
theorem validateCapture_exact (hfree : CollisionFree hash output) :
    ((validateCapture crc32 hash partitions.sizes output).1 = .ok () ↔
      Certifiable crc32 output) ∧
    ((validateCapture crc32 hash partitions.sizes output).1 = .ok () →
      Certified crc32 hash output (validateCapture crc32 hash partitions.sizes output).2) ∧
    ((validateCapture crc32 hash partitions.sizes output).1 ≠ .ok () →
      (validateCapture crc32 hash partitions.sizes output).2 = output ∧
      ∃ message, (validateCapture crc32 hash partitions.sizes output).1
        = .error (.systemExit message)) := by
  rw [← accepted_iff hfree]
  cases hrun : certify crc32 hash partitions.sizes output with
  | error e =>
    rw [validateCapture_of_error hrun]
    refine ⟨⟨fun h => ?_, ?_⟩, fun h => ?_, fun _ => ⟨rfl, ?_⟩⟩
    · cases h
    · rintro ⟨gpt1, gpt2, H⟩
      obtain ⟨r, hr⟩ := H.certify_eq
      cases hrun.symm.trans hr
    · cases h
    · obtain ⟨message, rfl⟩ := certify_raises e hrun
      exact ⟨message, rfl⟩
  | ok r =>
    obtain ⟨gpt1, gpt2, artifacts, slots, H, hitems, hslots, rfl⟩ := certify_eq_ok.mp hrun
    rw [validateCapture_of_ok H.pass1 hrun]
    refine ⟨⟨fun _ => ⟨gpt1, gpt2, H⟩, fun _ => rfl⟩, fun _ => H.certified hfree hitems hslots, ?_⟩
    intro h
    exact absurd rfl h

/-- two passes over one disk, below a directory with a stale checksum manifest -/
def captureOf (crc32 : Bytes → UInt32) (L : Layout) : OutputDir where
  pass1 := imageDir crc32 L
  pass2 := imageDir crc32 L
  checksumManifest := some [0x21]
  captureManifest := none

theorem accepted_captureOf (crc32 : Bytes → UInt32) (hash : Bytes → Digest) {L : Layout}
    (hL : Lists L) : Accepted crc32 hash (captureOf crc32 L) L.parsed L.parsed :=
  ⟨passOk_imageDir crc32 L hL, passOk_imageDir crc32 L hL, ParsedGpt.eqv_refl _, fun _ _ => rfl⟩

theorem certifiable_captureOf (crc32 : Bytes → UInt32) {L : Layout} (hL : Lists L) :
    Certifiable crc32 (captureOf crc32 L) :=
  ⟨⟨_, passOk_imageDir crc32 L hL⟩, ⟨_, passOk_imageDir crc32 L hL⟩, fun _ _ => rfl⟩

theorem collisionFree_captureOf (crc32 : Bytes → UInt32) (hash : Bytes → Digest) (L : Layout) :
    CollisionFree hash (captureOf crc32 L) := by
  intro name c₁ c₂ h1 h2 _
  exact Option.some.inj (h1.symm.trans h2)

theorem validateCapture_exact_table :
    (validateCapture Crc32.crc32 Sha256.sha256 partitions.sizes
      (captureOf Crc32.crc32 tableLayout)).1 = .ok () ∧
    Certified Crc32.crc32 Sha256.sha256 (captureOf Crc32.crc32 tableLayout)
      (validateCapture Crc32.crc32 Sha256.sha256 partitions.sizes
        (captureOf Crc32.crc32 tableLayout)).2 := by
  have hfree := collisionFree_captureOf Crc32.crc32 Sha256.sha256 tableLayout
  obtain ⟨hiff, hok, -⟩ := validateCapture_exact hfree
  have h := hiff.mpr (certifiable_captureOf Crc32.crc32 lists_tableLayout)
  exact ⟨h, hok h⟩

end

end RT7.Capture
