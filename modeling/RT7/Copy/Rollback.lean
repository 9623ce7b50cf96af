import RT7.Capture.Execute
import RT7.Copy.Publish
import RT7.Copy.Agree

/-!
# From the tablet to the rollback copy

* `execute_ok`      a capture that ends well is a validated pair of passes;
* `Vouched`         a published copy with the manifest of a capture, and shells that read it;
* `Vouched.leaf_eq` every artifact in it is the tablet's own, whatever the source was by then;
* `prepare_captured`   the copy tool is ready to copy the capture itself, where the names and the disks
  allow it;
* `rollback_of_tablet`   both, for a capture and any sequence of runs of the copy tool.
-/

namespace RT7.Copy

open Py Text Gpt Capture

/-! ## the capture -/

section
variable {crc32 : Bytes → UInt32} {hash : Bytes → Digest} {first second : Tablet crc32}
  {client : Mtkclient} {tablets : Nat → Tablet crc32} {host : Host} {args : Args} {output : PosixPath}
  {out : OutputDir}

theorem execute_ok (H : Captures client tablets) (hprep : Prepared host args output) (hone : OneLine output.str)
    (hpasses : Passes tablets first second)
    (hrun : execute crc32 hash client host args = .ok (some out)) :
    first.Readable ∧
      validateCapture crc32 hash partitions.sizes (passesOf first second) = (.ok (), out) := by
  cases execute_cases hash H hprep hone hpasses with
  | inl hfail =>
    obtain ⟨-, message, hbad⟩ := hfail
    cases hbad.symm.trans hrun
  | inr hok =>
    obtain ⟨⟨h1, -⟩, heq⟩ := hok
    refine ⟨h1.readable, ?_⟩
    rw [heq, bind_eq_ok] at hrun
    obtain ⟨_, hval, hout⟩ := hrun
    cases hout
    exact Prod.ext hval rfl

end

/-! ## a copy with its manifest -/

section
variable {crc32 : Bytes → UInt32} {first second : Tablet crc32} {place : Place} {job : Job place}
  {contents : Volume} {artifacts : Dict String Artifact} {g gpt2 : ParsedGpt}
  {slots : Dict String Bool} {p a : String}

/-- the digest that the manifest gives for an artifact -/
theorem hash_of_artifactMeta {output : OutputDir} (F : Faithful job.shell crc32 output) {name : String}
    {x : Artifact} {entry : ExpectedChecksum}
    (h : ArtifactMeta job.shell (name, (artifactJson x).sortKeys) entry) : entry.hash = x.sha256 := by
  obtain ⟨sorted, hs, hperm⟩ := Json.sortKeys_obj [("size", .num x.size), ("sha256", .str x.sha256),
    ("verified_copies", .num x.verifiedCopies)]
  have hobj : (artifactJson x).sortKeys = .obj sorted := hs
  have hkeys : keysOk job.shell.casing sorted = true := by
    rw [keysOk_perm hperm]
    exact keysOk_of_plain plain_artifactJson rfl
  have hmem : ("sha256", Json.str x.sha256) ∈ sorted := by
    refine hperm.mem_iff.mpr (List.mem_map.mpr ⟨("sha256", .str x.sha256), ?_, rfl⟩)
    simp
  obtain ⟨v, hv, htext⟩ := h.sha256
  have hv : member job.shell.casing "sha256" (artifactJson x).sortKeys = .ok v := hv
  rw [hobj, member_of_mem hkeys hmem] at hv
  cases hv
  rw [← htext, F.toText]

/-- The manifest in the copy is the one of the capture. -/
structure Vouched (job : Job place) (first second : Tablet crc32) (out : OutputDir)
    (contents : Volume) : Prop where
  faithful : Faithful job.shell crc32 (passesOf first second)
  manifest : contents.leaf job.shell.casing ["capture-manifest.json"] = out.captureManifest
  collisions : ∀ p ∈ capturePasses, ∀ a ∈ partitions.artifacts, ∀ content,
    contents.leaf job.shell.casing [p, binName a] = some content →
    job.shell.hash content = job.shell.hash (first.captured a) → content = first.captured a

theorem below_binName (ha : a ∈ partitions.artifacts) : below p (binName a) = [p, binName a] :=
  if_neg (component_artifact ha).2.1

/-- **What is published with the manifest of a capture is what the tablet held.** -/
theorem Vouched.leaf_eq {out : OutputDir} (V : Vouched job first second out contents)
    (hval : validateCapture crc32 job.shell.hash partitions.sizes (passesOf first second) = (.ok (), out))
    (hholds : Holds job contents) {v : Verification}
    (hv : sourceVerification job.shell job.vol job.root = .ok v)
    (hp : p ∈ capturePasses) (ha : a ∈ partitions.artifacts) :
    contents.leaf job.shell.casing [p, binName a] = some (first.captured a) := by
  obtain ⟨_, g, gpt2, artifacts, slots, hcert, H, hitems, -, hout⟩ :=
    certified_of_ok (congrArg Prod.fst hval)
  have hout : out = certified job.shell (passesOf first second) artifacts g slots :=
    (congrArg Prod.snd hval).symm.trans hout
  have hread := V.faithful.readJson _ _ hcert
  -- the manifest that the run has read is the one that it has published
  obtain ⟨hsource, hverify⟩ := sourceVerification_eq_ok.mp hv
  obtain ⟨raw, _, _, _, _, _, hrun⟩ := verifyCapture_eq_ok.mp hverify
  have hfile := hrun.captureManifestFile
  rw [segmentsOf_joinPath (by decide)] at hfile
  have hraw := hholds.leaf (List.cons_ne_nil _ _) hfile
  rw [V.manifest, hout] at hraw
  cases hraw
  obtain ⟨hconv, hdocument⟩ := (convertFromJson_manifest hread).mp hrun.document
  obtain ⟨props, hperm, -, -, hpasses, hartifacts⟩ := members_manifestJson hconv
  have hreadPasses := hrun.readPassesMember
  have hobj := hrun.artifacts
  rw [hdocument, hpasses] at hreadPasses
  rw [hdocument, hartifacts] at hobj
  cases hreadPasses
  cases hobj
  have htwo : TwoPasses job.shell v.readPasses := by
    rw [hrun.readPasses]
    exact twoPasses_captured V.faithful
  -- so each artifact has been checked against its own digest
  have hmem : (binName a, (artifactJson (artifactOf job.shell.hash (passesOf first second)
      (binName a))).sortKeys) ∈ v.artifacts := by
    rw [hperm.mem_iff, hitems, List.map_map]
    exact List.mem_map_of_mem ((mem_artifactNames H.pass1).mpr ⟨a, ha, rfl⟩)
  obtain ⟨expected, _, _, _, content, hok⟩ := (hrun.complete hsource htwo).verified p hp _ hmem
  have hleaf := hholds.leaf (below_ne_nil _ _) (Volume.leaf_eq_some.mpr hok.file)
  rw [below_binName ha] at hleaf
  have hdigest : (artifactOf job.shell.hash (passesOf first second) (binName a)).sha256
      = (job.shell.hash (first.captured a)).hexdigest := by
    rw [artifactOf, contentOf_eq (get?_passesOf ha).1]
  have hhash := hok.manifestHash
  rw [hash_of_artifactMeta V.faithful hok.valid, hdigest, key_fileHash] at hhash
  rw [hleaf, V.collisions p hp a ha content hleaf (key_hexdigest_injective hhash)]

/-! ## a copy of the capture itself -/

/-- The names of the table are distinct up to case, and source and destination lie on two disks. -/
structure Copyable (job : Job place) (g : ParsedGpt) : Prop where
  names : (g.partitions.keys.map job.shell.casing.key).Nodup
  root : job.destinationRootExists = true
  disks : ∃ sourceDisk destinationDisk, getPhysicalDiskForPath job.disks job.root = .ok sourceDisk ∧
    getPhysicalDiskForPath job.disks place.root = .ok destinationDisk ∧ sourceDisk ≠ destinationDisk

theorem prepare_captured {out : OutputDir}
    (hval : validateCapture crc32 job.shell.hash partitions.sizes (passesOf first second) = (.ok (), out))
    (F : Faithful job.shell crc32 (passesOf first second))
    (T : Transferred out job.shell.casing job.vol job.root)
    (hg : PassOk crc32 ((passesOf first second).pass "pass1") g) :
    (∃ v, prepare job ⟨none, none⟩ = .ok v) ↔ Copyable job g := by
  have hok : (validateCapture crc32 job.shell.hash partitions.sizes (passesOf first second)).1 = .ok () :=
    congrArg Prod.fst hval
  have hout : (validateCapture crc32 job.shell.hash partitions.sizes (passesOf first second)).2 = out :=
    congrArg Prod.snd hval
  rw [← hout] at T
  constructor
  · rintro ⟨v, hv⟩
    obtain ⟨hsource, hroot, hdisks, -⟩ := prepare_eq_ok.mp hv
    exact ⟨(caseDistinct_iff hg _).mp (caseDistinct_of_accepted F hok T hsource), hroot, hdisks⟩
  · intro hcopy
    obtain ⟨_, gpt1, gpt2, artifacts, slots, hcert, H, hitems, hconv, hcertified⟩ := certified_of_ok hok
    rw [hcertified] at T
    have hdistinct := (hconv job.shell.casing).mpr ((caseDistinct_iff hg _).mpr hcopy.names)
    obtain ⟨v, hv, -⟩ := exists_run F H hitems T (F.readJson _ _ hcert) hdistinct
    exact ⟨v, prepare_eq_ok.mpr ⟨hv, hcopy.root, hcopy.disks, rfl, rfl⟩⟩

/-- a faithful copy of the capture has the tablet's own bytes -/
theorem Holds.captured (hholds : Holds job contents) {out : OutputDir}
    (T : Transferred out job.shell.casing job.vol job.root) (D : Describes job.shell.hash first g out)
    (hp : p ∈ capturePasses) (ha : a ∈ partitions.artifacts) :
    contents.leaf job.shell.casing [p, binName a] = some (first.captured a) :=
  hholds.leaf (List.cons_ne_nil _ _) (T.files p hp a ha _ (D.copies p hp a ha))

end

/-- **From the tablet to the rollback copy.** A capture has ended well. Whatever has happened to it
since, what any sequence of runs of the copy tool publishes with its manifest holds the tablet's own
bytes in both passes. And the capture itself is copied, where no two partition names are equal up to
case and the disks differ. -/
theorem rollback_of_tablet {crc32 : Bytes → UInt32} {hash : Bytes → Digest}
    {client : Mtkclient} {first second : Tablet crc32} {tablets : Nat → Tablet crc32} {host : Host}
    {args : Args} {output : PosixPath} {out : OutputDir} (H : Captures client tablets)
    (hprep : Prepared host args output) (hone : OneLine output.str)
    (hpasses : Passes tablets first second) (hfree : ∀ a ∈ partitions.artifacts,
      hash (first.captured a) = hash (second.captured a) → first.captured a = second.captured a)
    (hrun : execute crc32 hash client host args = .ok (some out)) (place : Place) :
    ∃ g, first.Sound g ∧
      (∀ target₀ jobs target (job : Job place) contents, Reaches target₀ jobs target (some job) →
        target.destination = some (.tree contents) → job.shell.hash = hash →
        Vouched job first second out contents → ∀ p ∈ capturePasses, ∀ a ∈ partitions.artifacts,
          contents.leaf job.shell.casing [p, binName a] = some (first.captured a)) ∧
      ∀ job : Job place, job.shell.hash = hash → Faithful job.shell crc32 (passesOf first second) →
        Transferred out job.shell.casing job.vol job.root →
        ((∃ v, prepare job ⟨none, none⟩ = .ok v) ↔ Copyable job g) ∧
        (Copyable job g → job.execute = true → ∀ contents, Holds job contents →
          During job ⟨none, none⟩ (.published, ⟨some (.tree contents), none⟩) ∧
          ∀ p ∈ capturePasses, ∀ a ∈ partitions.artifacts,
            contents.leaf job.shell.casing [p, binName a] = some (first.captured a)) := by
  obtain ⟨hreadable, hval⟩ := execute_ok H hprep hone hpasses hrun
  cases validateCapture_passesOf hreadable (collisionFree_passesOf hfree) with
  | inl hbad =>
    obtain ⟨-, message, herror⟩ := hbad
    rw [hval] at herror
    cases herror
  | inr hgood =>
    obtain ⟨-, g, out', hval', hdesc⟩ := hgood
    cases hval.symm.trans hval'
    refine ⟨g, hdesc.sound, ?_, ?_⟩
    · rintro target₀ jobs target job contents hreach hdest rfl V p hp a ha
      obtain ⟨-, contents', hdest', hholds, v, hv⟩ := reaches_standing hreach
      cases hdest.symm.trans hdest'
      exact V.leaf_eq hval hholds hv hp ha
    · rintro job rfl F T
      have hg : PassOk crc32 ((passesOf first second).pass "pass1") g :=
        (passOk_passesOf hreadable).mpr hdesc.sound
      have hiff := prepare_captured hval F T hg
      refine ⟨hiff, fun hcopy hexecute contents hholds => ?_⟩
      obtain ⟨v, hv⟩ := hiff.mpr hcopy
      exact ⟨during_published hv hexecute hholds,
        fun p hp a ha => hholds.captured T hdesc hp ha⟩

/-! ## a tablet, and the copy of its capture -/

section
variable {place : Place} {job : Job place}

/-- the files of the source, copied plainly -/
def plainCopy (job : Job place) : Volume := (sourceFiles job).map fun f => (f.1, .file f.2)

/-- The plain copy is faithful where every file of the drive is found by its path. -/
theorem holds_plainCopy (hfound : ∀ e ∈ job.vol, ∀ content, e.2 = .file content →
    job.vol.leaf job.shell.casing e.1 = some content) : Holds job (plainCopy job) := by
  -- what the path of a file is on the drive
  have hsource : ∀ f ∈ sourceFiles job, f.1 ≠ [] ∧ ∃ path, path.map job.shell.casing.key
      = (job.root.parts ++ f.1).map job.shell.casing.key ∧
        job.vol.leaf job.shell.casing path = some f.2 := by
    intro f hf
    obtain ⟨e, he, hfile⟩ := List.mem_filterMap.mp hf
    unfold sourceFile at hfile
    cases hcontent : e.2 with
    | directory =>
      rw [hcontent] at hfile
      cases hfile
    | file content =>
      rw [hcontent] at hfile
      dsimp only at hfile
      split_ifs at hfile with hcond
      cases hfile
      refine ⟨?_, e.1, ?_, hfound e he content hcontent⟩
      · exact List.ne_nil_of_length_pos (by rw [List.length_drop]; omega)
      · rw [List.map_append, ← hcond.1, ← List.map_append, List.take_append_drop]
  intro f hf
  obtain ⟨hne, path, hkey, hleaf⟩ := hsource f hf
  refine Volume.leaf_eq_some.mpr (Volume.lookup_of_unique hne (List.mem_map_of_mem hf) ?_)
  intro e he hsame
  obtain ⟨f', hf', rfl⟩ := List.mem_map.mp he
  obtain ⟨-, path', hkey', hleaf'⟩ := hsource f' hf'
  have hpaths : path'.map job.shell.casing.key = path.map job.shell.casing.key := by
    rw [hkey', hkey, List.map_append, List.map_append, hsame]
  rw [Volume.leaf_congr hpaths, hleaf] at hleaf'
  rw [Option.some.inj hleaf']

end

theorem getLast_root : Fixture.root.parts.getLast? = some Fixture.place.leaf := rfl

/-- the copy tool on a drive that holds nothing but the capture -/
def tableJob (out : OutputDir) : Job Fixture.place where
  shell := captureShell Crc32.crc32 Sha256.sha256 (passesOf tableTablet tableTablet)
  vol := volumeOf Fixture.root.parts out
  root := Fixture.root
  named := getLast_root
  destinationRootExists := true
  disks letter := if letter = 'C' then [1] else [2]
  execute := true

section
variable {out : OutputDir}

theorem found_volumeOf {parts : List String} {cs : Casing}
    (hnames : ∀ p ∈ capturePasses, ((out.pass p).keys.map cs.key).Nodup) :
    ∀ e ∈ volumeOf parts out, ∀ content, e.2 = .file content →
      (volumeOf parts out).leaf cs e.1 = some content := by
  intro e he content hfile
  refine Volume.leaf_eq_some.mpr ?_
  rcases mem_volumeOf.mp he with rfl | ⟨m, hm, rfl⟩ | ⟨p, -, rfl⟩ | ⟨p, hp, f, hf, rfl⟩
  · cases hfile
  · cases hfile
    exact lookup_manifest hm
  · cases hfile
  · cases hfile
    exact lookup_pass hp hf (hnames p hp)

theorem plain_tableLayout : PlainNames tableLayout.parsed.partitions.keys := by decide +kernel

theorem artifactSize_table {a : String} (ha : a ∈ partitions.artifacts) :
    artifactSize tableLayout.parsed a < 0x8000000000000000 := by
  have hspans : tableLayout.parsed.firstUsableLba * tableLayout.parsed.sectorSize < 0x8000000000000000 ∧
      (tableLayout.parsed.firstUsableLba - 1) * tableLayout.parsed.sectorSize < 0x8000000000000000 := by
    decide
  unfold artifactSize
  split_ifs with h1 h2
  · exact hspans.1
  · exact hspans.2
  · exact ((artifactSize_lt a ha).resolve_left h1).resolve_left h2

theorem exists_execute_table : ∃ out, execute Crc32.crc32 Sha256.sha256 (clientOf tableTablet)
    (readyHost containerLayout) { execute := true } = .ok (some out) := by
  have hone : OneLine defaultOutput.str := by decide +kernel
  have hpasses : Passes (fun _ => tableTablet) tableTablet tableTablet := fun _ _ => ⟨rfl, rfl⟩
  have hsound := sound_tableTablet
  cases execute_cases Sha256.sha256 (captures_clientOf tableTablet) prepared_table hone hpasses with
  | inl hfail => exact absurd ⟨hsound.complete, hsound.complete⟩ hfail.1
  | inr hok =>
    obtain ⟨-, heq⟩ := hok
    have hfree : Capture.CollisionFree Sha256.sha256 (passesOf tableTablet tableTablet) :=
      collisionFree_passesOf fun _ _ _ => rfl
    cases validateCapture_passesOf hsound.readable hfree with
    | inl hbad => exact absurd ((certifiable_passesOf hsound.readable).mpr ⟨⟨_, hsound⟩, fun _ _ => rfl⟩) hbad.1
    | inr hgood =>
      obtain ⟨-, g, out, hval, -⟩ := hgood
      rw [heq, hval]
      exact ⟨out, rfl⟩

theorem rollback_of_tablet_table : ∃ out contents,
    execute Crc32.crc32 Sha256.sha256 (clientOf tableTablet) (readyHost containerLayout) { execute := true }
      = .ok (some out) ∧
    During (tableJob out) ⟨none, none⟩ (.published, ⟨some (.tree contents), none⟩) ∧
    ∀ p ∈ capturePasses, ∀ a ∈ partitions.artifacts,
      contents.leaf (tableJob out).shell.casing [p, binName a] = some (tableTablet.captured a) := by
  have hone : OneLine defaultOutput.str := by decide +kernel
  have hpasses : Passes (fun _ => tableTablet) tableTablet tableTablet := fun _ _ => ⟨rfl, rfl⟩
  obtain ⟨out, hrun⟩ := exists_execute_table
  obtain ⟨g, hsound, -, hcopied⟩ := rollback_of_tablet (captures_clientOf tableTablet)
    prepared_table hone hpasses (fun _ _ _ => rfl) hrun Fixture.place
  obtain ⟨hread, hval⟩ := execute_ok (captures_clientOf tableTablet) prepared_table hone hpasses hrun
  have hpass : ∀ p, out.pass p = tableTablet.directory := by
    intro p
    have h : (validateCapture Crc32.crc32 Sha256.sha256 partitions.sizes
        (passesOf tableTablet tableTablet)).2.pass p = (passesOf tableTablet tableTablet).pass p :=
      pass_validateCapture partitions.sizes p
    rw [hval] at h
    exact h.trans (ite_self _)
  have hnames : ∀ p ∈ capturePasses,
      ((out.pass p).keys.map (tableJob out).shell.casing.key).Nodup := by
    intro p _
    rw [hpass, keys_directory]
    exact plain_artifacts.nodup_key _ (List.Nodup.of_map _ plain_artifacts.2) (List.Subset.refl _)
  have htransferred : Transferred out (tableJob out).shell.casing (tableJob out).vol (tableJob out).root := by
    refine transferred_volumeOf hnames fun p _ a ha content hc => ?_
    have hok := (passOk_directory sound_tableTablet.readable).mpr sound_tableTablet
    rw [hpass] at hc
    rw [hok.length_eq ha hc]
    exact artifactSize_table ha
  have hcopyable : Copyable (tableJob out) g := by
    obtain rfl : tableLayout.parsed = g := flashTable_tableFlash.mp hsound.table
    exact ⟨plain_tableLayout.nodup_key _ (Dict.nodup _) (List.Subset.refl _), rfl, 1, 2, rfl, rfl, by decide⟩
  have hholds : Holds (tableJob out) (plainCopy (tableJob out)) := holds_plainCopy (found_volumeOf hnames)
  obtain ⟨-, hpublished⟩ := hcopied (tableJob out) rfl (faithful_captureShell _ _ _) htransferred
  obtain ⟨hduring, hleaf⟩ := hpublished hcopyable rfl _ hholds
  exact ⟨out, _, hrun, hduring, hleaf⟩

end

end RT7.Copy
