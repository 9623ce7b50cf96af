import RT7.Copy.Complete
import RT7.Copy.Accept
import Mathlib.Logic.Relation

/-!
# The independent copy is published all or nothing

* `Target`          what stands at the destination path and at its `.copying` path;
* `Job`             one run of the script: its source, its disks, and whether `-Execute` is given;
* `prepare`         the script up to the dry run; `verifyCopy` the check of the files copied;
* `Step`            the steps of one run, in which the copy may write anything to the staging area;
* `Inv`, `step_inv`, `during_inv`   what holds at every point of one run;
* `Reaches`         a sequence of runs, each of which may stop at any step;
* `reaches_published`   what holds at every point of every sequence.

What is published was checked twice: the source against its manifests before the copy, and every
file of the copy against the source after it.
-/

namespace RT7.Copy

open Py Text

/-- A file or a directory; a directory by what stands below it. -/
inductive Item where
  | file (content : Bytes)
  | tree (contents : Volume)

structure Target where
  destination : Option Item
  staging : Option Item

/-- `Get-Partition` and `Get-Disk`: the disk numbers of the partitions with a drive letter. -/
abbrev Disks := Char → List Nat

/-- The destination root, and the leaf name of the sources that are copied to it. -/
structure Place where
  root : SourceRoot
  leaf : String

namespace Place
variable (place : Place)

def destination : String := joinPath place.root.text place.leaf

def staging : String := place.destination ++ ".copying"

end Place

/-- One run. -/
structure Job (place : Place) where
  shell : Shell
  vol : Volume
  root : SourceRoot
  named : root.parts.getLast? = some place.leaf
  destinationRootExists : Bool
  disks : Disks
  execute : Bool

def getPhysicalDiskForPath (disks : Disks) (path : SourceRoot) : Except Fault Nat :=
  match disks path.letter with
  | [number] => .ok number
  | _ => .error (.throw s!"Exactly one partition must resolve drive {path.drive}.")

section
variable {place : Place} (job : Job place)

/-- the script up to the end of the dry run -/
def prepare (target : Target) : Except Fault Verification := do
  checkSource job.shell job.vol job.root
  raiseIf (job.destinationRootExists = false)
    (.throw s!"Destination root does not exist: {place.root.text}")
  let sourceDisk ← getPhysicalDiskForPath job.disks job.root
  let destinationDisk ← getPhysicalDiskForPath job.disks place.root
  raiseIf (sourceDisk = destinationDisk)
    (.throw s!"Source and destination resolve to the same physical disk {sourceDisk}.")
  let verification ← verifyCapture job.shell job.vol job.root
  raiseIf (target.destination.isSome = true)
    (.throw s!"Refusing to overwrite an existing recovery path: {place.destination}")
  raiseIf (target.staging.isSome = true)
    (.throw s!"Refusing to overwrite an existing recovery path: {place.staging}")
  return verification

/-- a file below the source, by its relative path -/
def sourceFile (e : List String × Entry) : Option (List String × Bytes) :=
  let depth := job.root.parts.length
  match e.2 with
  | .directory => none
  | .file content =>
    if (e.1.take depth).map job.shell.casing.key = job.root.parts.map job.shell.casing.key ∧
        depth < e.1.length then
      some (e.1.drop depth, content)
    else none

/-- `Get-ChildItem -Recurse -Force -File` -/
def sourceFiles : List (List String × Bytes) := job.vol.filterMap (sourceFile job)

/-- one turn of the loop over the source files -/
def verifyFile (staged : Volume) (f : List String × Bytes) : Except Fault Unit := do
  let relativePath := join '\\' f.1
  let copied ← require (staged.leaf job.shell.casing f.1)
    (.throw s!"Copied recovery file is missing: {joinPath place.staging relativePath}")
  raiseIf (job.shell.casing.key (job.shell.fileHash f.2)
      ≠ job.shell.casing.key (job.shell.fileHash copied))
    (.throw s!"Independent recovery copy hash mismatch: {relativePath}")

def verifyCopy (staged : Volume) : Except Fault Unit :=
  (sourceFiles job).forM (verifyFile job staged)

/-! ## one run -/

/-- Where a run stands. -/
inductive Phase where
  | started
  | checked
  | copying
  | copied
  | published
  | dryRun
  | failed (fault : Fault)
  deriving DecidableEq

/-- A copy that differs from its source has another hash. -/
def CollisionFree (staged : Volume) : Prop :=
  ∀ f ∈ sourceFiles job, ∀ copied, staged.leaf job.shell.casing f.1 = some copied →
    job.shell.hash f.2 = job.shell.hash copied → f.2 = copied

/-- The script, step by step. The copy may leave any tree in the staging directory. -/
inductive Step : Phase × Target → Phase × Target → Prop where
  | refused {target : Target} {fault : Fault} (h : prepare job target = .error fault) :
      Step (.started, target) (.failed fault, target)
  | dryRun {target : Target} {verification : Verification}
      (h : prepare job target = .ok verification) (hx : job.execute = false) :
      Step (.started, target) (.dryRun, target)
  | checked {target : Target} {verification : Verification}
      (h : prepare job target = .ok verification) (hx : job.execute = true) :
      Step (.started, target) (.checked, target)
  | newItem {target : Target} :
      Step (.checked, target) (.copying, { target with staging := some (.tree []) })
  | copyItem {target : Target} {staged staged' : Volume}
      (hs : target.staging = some (.tree staged)) (hfree : CollisionFree job staged') :
      Step (.copying, target) (.copying, { target with staging := some (.tree staged') })
  | copied {target : Target} : Step (.copying, target) (.copied, target)
  | mismatch {target : Target} {staged : Volume} {fault : Fault}
      (hs : target.staging = some (.tree staged)) (h : verifyCopy job staged = .error fault) :
      Step (.copied, target) (.failed fault, target)
  | moveItem {target : Target} {staged : Volume} (hs : target.staging = some (.tree staged))
      (h : verifyCopy job staged = .ok ()) :
      Step (.copied, target) (.published, ⟨some (.tree staged), none⟩)
  /-- a command that fails ends the script -/
  | terminated {phase : Phase} {target : Target} {operation : String}
      (h : phase = .checked ∨ phase = .copying ∨ phase = .copied) :
      Step (phase, target) (.failed (.terminating operation), target)

/-- A point of a run that began with `target`. -/
def During (target : Target) (c : Phase × Target) : Prop :=
  Relation.ReflTransGen (Step job) (.started, target) c

end

/-! ## a sequence of runs -/

/-- The creator is the run that published what stands at the destination, if one of them did. -/
def creatorAfter {place : Place} (job : Job place) (phase : Phase) (creator : Option (Job place)) :
    Option (Job place) :=
  if phase = .published then some job else creator

/-- The points of the sequences that begin with `target₀`, with the runs so far. -/
inductive Reaches {place : Place} (target₀ : Target) :
    List (Job place) → Target → Option (Job place) → Prop where
  | nil : Reaches target₀ [] target₀ none
  | run {jobs : List (Job place)} {target target' : Target} {creator : Option (Job place)}
      {job : Job place} {phase : Phase} (h : Reaches target₀ jobs target creator)
      (hrun : During job target (phase, target')) :
      Reaches target₀ (jobs ++ [job]) target' (creatorAfter job phase creator)

/-! ## what is promised -/

section
variable {place : Place} (job : Job place)

/-- Every file of the source has its copy at the same relative path. -/
def Holds (contents : Volume) : Prop :=
  ∀ f ∈ sourceFiles job, contents.leaf job.shell.casing f.1 = some f.2

/-- Every artifact that the manifest lists has its size and hash in both passes. -/
def Matches (contents : Volume) : Prop :=
  ∃ captureManifestRaw captureManifest artifacts,
    contents.leaf job.shell.casing ["capture-manifest.json"] = some captureManifestRaw ∧
    convertFromJson job.shell captureManifestRaw = .ok captureManifest ∧
    member job.shell.casing "artifacts" captureManifest = .ok (.obj artifacts) ∧
    ∀ passName ∈ passNames, ∀ artifact ∈ artifacts, ∃ expected content,
      ArtifactMeta job.shell artifact expected ∧
      contents.leaf job.shell.casing (below passName artifact.1) = some content ∧
      (content.length : Int) = expected.size ∧
      job.shell.casing.key (job.shell.fileHash content) = job.shell.casing.key expected.hash

/-- The manifest of the source lists the two passes, as two entries. -/
def Job.TwoPasses : Prop :=
  ∀ captureManifestRaw captureManifest readPasses,
    job.vol.leaf job.shell.casing
      (segmentsOf (joinPath job.root.text "capture-manifest.json")) = some captureManifestRaw →
    convertFromJson job.shell captureManifestRaw = .ok captureManifest →
    member job.shell.casing "read_passes" captureManifest = .ok readPasses →
    Copy.TwoPasses job.shell (elements readPasses)

end

/-! ## the guards -/

section
variable {place : Place} {job : Job place}

theorem prepare_eq_ok {target : Target} {v : Verification} : prepare job target = .ok v ↔
    sourceVerification job.shell job.vol job.root = .ok v ∧ job.destinationRootExists = true ∧
      (∃ sourceDisk destinationDisk, getPhysicalDiskForPath job.disks job.root = .ok sourceDisk ∧
        getPhysicalDiskForPath job.disks place.root = .ok destinationDisk ∧
        sourceDisk ≠ destinationDisk) ∧
      target.destination = none ∧ target.staging = none := by
  unfold prepare sourceVerification
  simp only [bind_eq_ok, raiseIf_eq_ok, exists_const, pure_eq_ok, Bool.not_eq_true,
    Bool.not_eq_false, Option.isSome_eq_false_iff, Option.isNone_iff_eq_none]
  constructor
  · rintro ⟨u, hsource, hroot, s, hs, d, hd, hne, w, hverify, hdest, hstaging, rfl⟩
    exact ⟨⟨u, hsource, hverify⟩, hroot, ⟨s, d, hs, hd, hne⟩, hdest, hstaging⟩
  · rintro ⟨⟨u, hsource, hverify⟩, hroot, ⟨s, d, hs, hd, hne⟩, hdest, hstaging⟩
    exact ⟨u, hsource, hroot, s, hs, d, hd, hne, v, hverify, hdest, hstaging, rfl⟩

theorem verifyCopy_eq_ok {staged : Volume} : verifyCopy job staged = .ok () ↔
    ∀ f ∈ sourceFiles job, ∃ copied, staged.leaf job.shell.casing f.1 = some copied ∧
      job.shell.casing.key (job.shell.fileHash f.2)
        = job.shell.casing.key (job.shell.fileHash copied) := by
  rw [verifyCopy, forM_eq_ok]
  refine forall₂_congr fun f _ => ?_
  unfold verifyFile
  simp only [bind_eq_ok, require_eq_ok, raiseIf_eq_ok, not_not]

/-- Without collisions, a copy that passes the check is the source. -/
theorem holds_of_verifyCopy {staged : Volume} (hfree : CollisionFree job staged)
    (h : verifyCopy job staged = .ok ()) : Holds job staged := by
  intro f hf
  obtain ⟨copied, hleaf, hkey⟩ := verifyCopy_eq_ok.mp h f hf
  rw [key_fileHash, key_fileHash] at hkey
  rw [hleaf, hfree f hf copied hleaf (key_hexdigest_injective hkey)]

/-- a file found below the source is one of its files -/
theorem mem_sourceFiles {path : List String} {content : Bytes} (hne : path ≠ [])
    (h : job.vol.leaf job.shell.casing (job.root.parts ++ path) = some content) :
    ∃ relative, (relative, content) ∈ sourceFiles job ∧
      relative.map job.shell.casing.key = path.map job.shell.casing.key := by
  have hlookup := Volume.leaf_eq_some.mp h
  have hpath : job.root.parts ++ path ≠ [] := List.append_ne_nil_of_right_ne_nil _ hne
  rw [Volume.lookup, if_neg hpath, Option.map_eq_some_iff] at hlookup
  obtain ⟨e, hfind, he⟩ := hlookup
  have hfound := List.find?_some hfind
  have hkey : e.1.map job.shell.casing.key
      = (job.root.parts ++ path).map job.shell.casing.key := of_decide_eq_true hfound
  have hlen : e.1.length = job.root.parts.length + path.length := by
    have hl := congrArg List.length hkey
    rwa [List.length_map, List.length_map, List.length_append] at hl
  have htake : (e.1.take job.root.parts.length).map job.shell.casing.key
      = job.root.parts.map job.shell.casing.key := by
    rw [List.map_take, hkey, List.map_append, ← List.length_map (f := job.shell.casing.key),
      List.take_left]
  have hdrop : (e.1.drop job.root.parts.length).map job.shell.casing.key
      = path.map job.shell.casing.key := by
    rw [List.map_drop, hkey, List.map_append, ← List.length_map (f := job.shell.casing.key),
      List.drop_left]
  have hpos : 0 < path.length := List.length_pos_iff.mpr hne
  refine ⟨e.1.drop job.root.parts.length, ?_, hdrop⟩
  refine List.mem_filterMap.mpr ⟨e, List.mem_of_find?_eq_some hfind, ?_⟩
  rw [sourceFile, he]
  exact if_pos ⟨htake, by omega⟩

/-- a file of the source is found in the copy, at the same relative path -/
theorem Holds.leaf {contents : Volume} (H : Holds job contents) {path : List String}
    {content : Bytes} (hne : path ≠ [])
    (h : job.vol.leaf job.shell.casing (job.root.parts ++ path) = some content) :
    contents.leaf job.shell.casing path = some content := by
  obtain ⟨relative, hmem, hkey⟩ := mem_sourceFiles hne h
  rw [← Volume.leaf_congr hkey]
  exact H _ hmem

theorem below_ne_nil (passName artifactName : String) : below passName artifactName ≠ [] := by
  unfold below
  split_ifs
  · exact List.cons_ne_nil _ _
  · exact List.cons_ne_nil _ _

/-- **A copy of a verified source matches its manifest**, when the manifest lists two passes. -/
theorem Holds.matches {contents : Volume} (H : Holds job contents) {v : Verification}
    (h : sourceVerification job.shell job.vol job.root = .ok v) (htwo : job.TwoPasses) :
    Matches job contents := by
  obtain ⟨hsource, hverify⟩ := sourceVerification_eq_ok.mp h
  obtain ⟨_, _, _, _, _, _, hrun⟩ := verifyCapture_eq_ok.mp hverify
  have hpasses : Copy.TwoPasses job.shell v.readPasses := by
    rw [hrun.readPasses]
    exact htwo _ _ _ hrun.captureManifestFile hrun.document hrun.readPassesMember
  have hcomplete := hrun.complete hsource hpasses
  have hmanifest := hrun.captureManifestFile
  rw [segmentsOf_joinPath (by decide)] at hmanifest
  refine ⟨_, _, v.artifacts, H.leaf (List.cons_ne_nil _ _) hmanifest, hrun.document,
    hrun.artifacts, ?_⟩
  intro passName hp artifact ha
  obtain ⟨expected, line, listedHash, path, content, hok⟩ := hcomplete.verified passName hp artifact ha
  exact ⟨expected, content, hok.valid,
    H.leaf (below_ne_nil _ _) (Volume.leaf_eq_some.mpr hok.file), hok.size, hok.manifestHash⟩

/-! ## every point of one run -/

/-- The run may go on: both paths were free and the source is verified. -/
structure Ready (job : Job place) (target : Target) : Prop where
  execute : job.execute = true
  destination : target.destination = none
  staging : target.staging = none
  verified : ∃ v, sourceVerification job.shell job.vol job.root = .ok v

/-- A tree that the copy can have left stands in the staging directory. -/
def Staged (job : Job place) (target₀ target : Target) : Prop :=
  Ready job target₀ ∧ target.destination = none ∧
    ∃ staged, target.staging = some (.tree staged) ∧ CollisionFree job staged

/-- What holds at every point of a run that began with `target₀`. -/
def Inv (job : Job place) (target₀ : Target) : Phase × Target → Prop
  | (.started, target) => target = target₀
  | (.dryRun, target) => target = target₀
  | (.checked, target) => target = target₀ ∧ Ready job target₀
  | (.copying, target) => Staged job target₀ target
  | (.copied, target) => Staged job target₀ target
  | (.published, target) => Ready job target₀ ∧ ∃ contents,
      target = ⟨some (.tree contents), none⟩ ∧ Holds job contents
  | (.failed _, target) => target = target₀ ∨ Staged job target₀ target

theorem ready_of_prepare {target : Target} {v : Verification} (h : prepare job target = .ok v)
    (hx : job.execute = true) : Ready job target := by
  obtain ⟨hv, -, -, hd, hs⟩ := prepare_eq_ok.mp h
  exact ⟨hx, hd, hs, v, hv⟩

theorem collisionFree_nil : CollisionFree job [] := by
  intro f _ copied hleaf
  have hnone : ∀ path, Volume.leaf job.shell.casing [] path = none := by
    intro path
    unfold Volume.leaf Volume.lookup
    by_cases hp : path = []
    · rw [if_pos hp]
    · rw [if_neg hp]
      rfl
  rw [hnone] at hleaf
  cases hleaf

/-- One case for each step of the script. -/
theorem step_inv {target₀ : Target} {c c' : Phase × Target} (h : Step job c c')
    (hi : Inv job target₀ c) : Inv job target₀ c' := by
  cases h with
  | refused h => exact .inl hi
  | dryRun h hx => exact hi
  | checked h hx =>
    have hi : _ = target₀ := hi
    subst hi
    exact ⟨rfl, ready_of_prepare h hx⟩
  | newItem =>
    obtain ⟨rfl, hready⟩ := hi
    exact ⟨hready, hready.destination, [], rfl, collisionFree_nil⟩
  | copyItem hs hfree =>
    obtain ⟨hready, hd, -⟩ := hi
    exact ⟨hready, hd, _, rfl, hfree⟩
  | copied => exact hi
  | mismatch hs h => exact .inr hi
  | moveItem hs h =>
    obtain ⟨hready, -, staged, hs', hfree⟩ := hi
    cases hs.symm.trans hs'
    exact ⟨hready, _, rfl, holds_of_verifyCopy hfree h⟩
  | terminated h =>
    rcases h with rfl | rfl | rfl
    · exact .inl hi.1
    · exact .inr hi
    · exact .inr hi

/-- Induction on the steps of the run. -/
theorem during_inv {target : Target} {c : Phase × Target} (h : During job target c) :
    Inv job target c := by
  induction h with
  | refl => exact rfl
  | tail _ hstep ih => exact step_inv hstep ih

/-- The destination is as the run found it, unless the run published its copy there. -/
theorem during_destination {target target' : Target} {phase : Phase}
    (h : During job target (phase, target')) :
    (phase ≠ .published ∧ target'.destination = target.destination) ∨
      (phase = .published ∧ Ready job target ∧
        ∃ contents, target'.destination = some (.tree contents) ∧ Holds job contents) := by
  have hi := during_inv h
  cases phase with
  | started => exact .inl ⟨by decide, congrArg Target.destination hi⟩
  | dryRun => exact .inl ⟨by decide, congrArg Target.destination hi⟩
  | checked => exact .inl ⟨by decide, congrArg Target.destination hi.1⟩
  | copying => exact .inl ⟨by decide, hi.2.1.trans hi.1.destination.symm⟩
  | copied => exact .inl ⟨by decide, hi.2.1.trans hi.1.destination.symm⟩
  | published =>
    obtain ⟨hready, contents, rfl, hholds⟩ := hi
    exact .inr ⟨rfl, hready, contents, rfl, hholds⟩
  | failed fault =>
    refine .inl ⟨by simp, ?_⟩
    cases hi with
    | inl e => exact congrArg Target.destination e
    | inr hi => exact hi.2.1.trans hi.1.destination.symm

/-- A run that may not go on changes nothing. -/
theorem during_of_not_ready {target target' : Target} {phase : Phase}
    (h : During job target (phase, target')) (hready : ¬ Ready job target) : target' = target := by
  have hi := during_inv h
  cases phase with
  | started => exact hi
  | dryRun => exact hi
  | checked => exact hi.1
  | copying => exact absurd hi.1 hready
  | copied => exact absurd hi.1 hready
  | published => exact absurd hi.1 hready
  | failed fault => exact hi.resolve_right fun hi => hready hi.1

/-- A faithful copy of a verified source is published. -/
theorem during_published {v : Verification} (h : prepare job ⟨none, none⟩ = .ok v)
    (hx : job.execute = true) {contents : Volume} (hholds : Holds job contents) :
    During job ⟨none, none⟩ (.published, ⟨some (.tree contents), none⟩) := by
  have hfree : CollisionFree job contents := by
    intro f hf copied hleaf _
    exact Option.some.inj ((hholds f hf).symm.trans hleaf)
  have hcheck : verifyCopy job contents = .ok () :=
    verifyCopy_eq_ok.mpr fun f hf => ⟨f.2, hholds f hf, rfl⟩
  have h1 : During job ⟨none, none⟩ (.checked, ⟨none, none⟩) := .single (.checked h hx)
  have h2 : During job ⟨none, none⟩ (.copying, ⟨none, some (.tree [])⟩) := h1.tail .newItem
  have h3 : During job ⟨none, none⟩ (.copying, ⟨none, some (.tree contents)⟩) :=
    h2.tail (.copyItem rfl hfree)
  have h4 : During job ⟨none, none⟩ (.copied, ⟨none, some (.tree contents)⟩) := h3.tail .copied
  exact h4.tail (.moveItem rfl hcheck)

end

/-! ## every point of every sequence -/

section
variable {place : Place} {target₀ target : Target} {jobs : List (Job place)}
  {creator : Option (Job place)}

/-- What the next run may do, at every point of it. -/
structure RunSafe (job : Job place) (target : Target) (phase : Phase) (target' : Target) :
    Prop where
  destination : target.destination ≠ none → target'.destination = target.destination
  staging : target.staging ≠ none → target' = target
  dryRun : job.execute = false → target' = target
  failed : ∀ fault, phase = .failed fault → target'.destination = target.destination

theorem runSafe_of_during {job : Job place} {target' : Target} {phase : Phase}
    (h : During job target (phase, target')) : RunSafe job target phase target' := by
  refine ⟨?_, ?_, ?_, ?_⟩
  · intro hd
    rw [during_of_not_ready h fun hready => hd hready.destination]
  · intro hs
    exact during_of_not_ready h fun hready => hs hready.staging
  · intro hx
    exact during_of_not_ready h fun hready => Bool.false_ne_true (hx.symm.trans hready.execute)
  · rintro fault rfl
    rcases during_destination h with ⟨-, hd⟩ | ⟨hp, -⟩
    · exact hd
    · cases hp

/-- What stands at the destination was there before all runs, or is the verified copy of the run
that published it. -/
def Standing (target₀ target : Target) (jobs : List (Job place)) : Option (Job place) → Prop
  | none => target.destination = target₀.destination
  | some job => job ∈ jobs ∧ ∃ contents, target.destination = some (.tree contents) ∧
      Holds job contents ∧ ∃ v, sourceVerification job.shell job.vol job.root = .ok v

/-- Induction on the runs of the sequence. -/
theorem reaches_standing (h : Reaches target₀ jobs target creator) :
    Standing target₀ target jobs creator := by
  induction h with
  | nil => exact rfl
  | @run jobs target target' creator job phase h hrun ih =>
    rcases during_destination hrun with ⟨hp, hd⟩ | ⟨rfl, hready, contents, hd, hholds⟩
    · rw [creatorAfter, if_neg hp]
      cases creator with
      | none => exact hd.trans ih
      | some creator =>
        obtain ⟨hmem, contents, hdest, hholds⟩ := ih
        exact ⟨List.mem_append_left _ hmem, contents, hd.trans hdest, hholds⟩
    · rw [creatorAfter, if_pos rfl]
      exact ⟨List.mem_append_right _ (List.mem_singleton_self job), contents, hd, hholds,
        hready.verified⟩

/-- **The copy is published all or nothing**, in every sequence of runs whose manifests list two
passes. -/
theorem reaches_published (h : Reaches target₀ jobs target creator)
    (htwo : ∀ job ∈ jobs, job.TwoPasses) :
    (∀ job, creator = some job → ∃ contents, target.destination = some (.tree contents) ∧
      Holds job contents ∧ Matches job contents) ∧
    (creator = none → target.destination = target₀.destination) ∧
    ∀ (job : Job place) phase target', During job target (phase, target') →
      RunSafe job target phase target' := by
  have hstanding := reaches_standing h
  refine ⟨?_, ?_, ?_⟩
  · rintro job rfl
    obtain ⟨hmem, contents, hdest, hholds, v, hv⟩ := hstanding
    exact ⟨contents, hdest, hholds, hholds.matches hv (htwo job hmem)⟩
  · rintro rfl
    exact hstanding
  · intro job phase target' hrun
    exact runSafe_of_during hrun

end

/-! ## the fixture of the tests -/

namespace Fixture

def place : Place where
  root :=
    { letter := 'D', parts := ["RT7-Recovery"], trailing := false, alpha := rfl, plain := by decide }
  leaf := "rt7-test-capture"

variable (readPasses : List String)

def job : Job place where
  shell := shell readPasses
  vol := volume readPasses
  root := root
  named := rfl
  destinationRootExists := true
  disks letter := if letter = 'C' then [1] else [2]
  execute := true

def contents : Volume :=
  [(["capture-manifest.json"], .file (asciiBytes (manifest readPasses))),
    (["SHA256SUMS.txt"], .file (asciiBytes (sums readPasses)))] ++
  readPasses.map fun p => ([p, "test.bin"], .file payload)

variable {readPasses}

theorem prepare_job {v : Verification} (h : run readPasses = .ok v) :
    prepare (job readPasses) ⟨none, none⟩ = .ok v :=
  prepare_eq_ok.mpr ⟨h, rfl, ⟨1, 2, rfl, rfl, by decide⟩, rfl, rfl⟩

/-- the files of the source, by their relative paths -/
theorem sourceFiles_job : sourceFiles (job readPasses) =
    [(["capture-manifest.json"], asciiBytes (manifest readPasses)),
      (["SHA256SUMS.txt"], asciiBytes (sums readPasses))] ++
    readPasses.map fun p => ([p, "test.bin"], payload) := by
  have hpass : ∀ l : List String, (l.flatMap fun p => [(root.parts ++ [p], Entry.directory),
      (root.parts ++ [p, "test.bin"], .file payload)]).filterMap (sourceFile (job readPasses))
        = l.map fun p => ([p, "test.bin"], payload) := by
    intro l
    induction l with
    | nil => rfl
    | cons p l ih =>
      rw [List.flatMap_cons, List.filterMap_append, ih]
      rfl
  show List.filterMap _ (volume readPasses) = _
  rw [volume, List.filterMap_append, hpass]
  rfl

/-- the faithful copy -/
theorem holds_contents
    (h : ((contents readPasses).map fun e => e.1.map Casing.ordinal.key).Nodup) :
    Holds (job readPasses) (contents readPasses) := by
  intro f hf
  have hmap : (sourceFiles (job readPasses)).map (fun f => (f.1, Entry.file f.2))
      = contents readPasses := by
    rw [sourceFiles_job, List.map_append, List.map_map]
    rfl
  have hmem : (f.1, Entry.file f.2) ∈ contents readPasses := hmap ▸ List.mem_map_of_mem hf
  have hne : ∀ e ∈ contents readPasses, e.1 ≠ [] := by
    intro e he
    cases List.mem_append.mp he with
    | inl he =>
      have hpaths : ∀ x ∈ [["capture-manifest.json"], ["SHA256SUMS.txt"]], x ≠ [] := by decide
      refine hpaths e.1 (List.mem_map_of_mem (f := Prod.fst) he)
    | inr he =>
      obtain ⟨p, -, rfl⟩ := List.mem_map.mp he
      exact List.cons_ne_nil _ _
  exact Volume.leaf_eq_some.mpr (Volume.lookup_of_nodup h (hne _ hmem) hmem)

theorem published_job {v : Verification} (h : run readPasses = .ok v)
    (hnd : ((contents readPasses).map fun e => e.1.map Casing.ordinal.key).Nodup) :
    Reaches ⟨none, none⟩ [job readPasses] ⟨some (.tree (contents readPasses)), none⟩
      (some (job readPasses)) := by
  have hduring := during_published (prepare_job h) rfl (holds_contents hnd)
  exact Reaches.run .nil hduring

theorem convertFromJson_document {raw : Bytes} {captureManifest : Json} :
    convertFromJson (shell readPasses) raw = .ok captureManifest ↔
      captureManifest = document readPasses := by
  refine (convertFromJson_obj rfl).trans ?_
  exact and_iff_right convertible_document

theorem twoPasses_job : (job passNames).TwoPasses := by
  intro raw captureManifest value _ hdoc hmember
  cases convertFromJson_document.mp hdoc
  have h : member Casing.ordinal "read_passes" (document passNames)
      = .ok (.arr (passNames.map .str)) := member_of_mem keysOk_document (by simp)
  cases h.symm.trans hmember
  rfl

end Fixture

theorem reaches_published_fixture :
    Holds (Fixture.job passNames) (Fixture.contents passNames) ∧
      Matches (Fixture.job passNames) (Fixture.contents passNames) := by
  obtain ⟨v, hv⟩ := Fixture.run_two
  have hreach := Fixture.published_job hv (by decide)
  have htwo : ∀ job ∈ [Fixture.job passNames], job.TwoPasses := by
    intro job hj
    rw [List.mem_singleton.mp hj]
    exact Fixture.twoPasses_job
  obtain ⟨contents, hdest, hholds, hmatches⟩ := (reaches_published hreach htwo).1 _ rfl
  cases hdest
  exact ⟨hholds, hmatches⟩

/-- A run on the joined entry publishes a copy that has nothing of either pass. -/
theorem reaches_joined :
    Reaches ⟨none, none⟩ [Fixture.job ["pass1,pass2"]]
      ⟨some (.tree (Fixture.contents ["pass1,pass2"])), none⟩
      (some (Fixture.job ["pass1,pass2"])) ∧
    ¬ Matches (Fixture.job ["pass1,pass2"]) (Fixture.contents ["pass1,pass2"]) := by
  obtain ⟨v, hv, -⟩ := Fixture.run_joined
  refine ⟨Fixture.published_job hv (by decide), ?_⟩
  rintro ⟨raw, captureManifest, artifacts, -, hdoc, hmember, hall⟩
  cases Fixture.convertFromJson_document.mp hdoc
  have h : member Casing.ordinal "artifacts" (Fixture.document ["pass1,pass2"]) 
      = .ok (.obj Fixture.artifacts) := member_of_mem Fixture.keysOk_document (by simp)
  cases h.symm.trans hmember
  obtain ⟨expected, content, -, hleaf, -⟩ := hall "pass1" (by decide) _ (List.mem_singleton_self _)
  have hnone : (Fixture.contents ["pass1,pass2"]).leaf Casing.ordinal ["pass1", "test.bin"]
      = none := by decide
  cases hnone.symm.trans hleaf

end RT7.Copy
