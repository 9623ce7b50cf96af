import RT7.Base.Ensures
import RT7.Base.Sums
import RT7.Kernel.Series

/-!
# Building the kernel (`scripts/build-kernel.sh`)

* `Work`            the checkouts, the output directory of `make`, and the artifacts beside it;
* `Series`          a patch series that keeps what it has applied;
* `Make`            a call of `make`: what it makes, and what it leaves when it is cut off;
* `applyKernelPatches`, `buildKernel`   the script; every artifact is written piece by piece over the
  one of an earlier build;
* `Release.product`   what each artifact of a build is to be;
* `Verified`        what `sha256sum -c SHA256SUMS` says of the artifacts.
-/

namespace RT7.Kernel.Build

open Shell

abbrev Files := String → Option Bytes

/-- the sources that `make Image` has seen, and its output directory when it was done -/
structure Release where
  kernel : Source
  modules : Source
  output : Files

structure Work where
  kernel : Source
  modules : Source
  /-- `[ -x "$toolchain_dir/bin/clang" ]` -/
  clang : Bool
  sourceConfig : Option Bytes
  /-- `$output_dir` -/
  output : Files
  /-- `$artifact_dir` -/
  artifacts : Files
  /-- what every `make Image` that was completed has made -/
  releases : List Release

inductive Failure where
  | kernelNotPrepared
  | clangNotPrepared
  | configNotReadable
  | patches
  | mkdir
  | cp (name : String)
  | olddefconfig
  | make
  | gzip
  | sha256sum
  | cat
  deriving DecidableEq, Repr

/-- a patch directory -/
structure Series {P : Type} (git : GitApply P) where
  patches : Option (List P)
  kept : (patches.getD []).Pairwise (KeptBy git)

/-- A call of `make`, and what it leaves when it is cut off. -/
structure Make where
  debris : Work → Files
  result : Work → Option Files

/-- what a run finds: `olddefconfig` and `image` are its two calls of `make` -/
structure Setup (P ι : Type) where
  git : GitApply P
  kernelSeries : Series git
  modulesSeries : Series git
  hash : Bytes → Digest
  /-- `gzip -9 -n` -/
  gzip : Bytes → Bytes
  olddefconfig : ι → Make
  image : ι → Make

def bootImage : String := "arch/arm64/boot/Image"

def sumsName : String := "SHA256SUMS"

def lensKernel : Lens Work Source where
  get s := s.kernel
  set u s := { s with kernel := u }
  get_set _ _ := rfl
  set_get _ := rfl

def lensModules : Lens Work Source where
  get s := s.modules
  set u s := { s with modules := u }
  get_set _ _ := rfl
  set_get _ := rfl

def Work.putOutput (name : String) (content : Bytes) (s : Work) : Work :=
  { s with output := Function.update s.output name (some content) }

def Work.putArtifact (name : String) (content : Bytes) (s : Work) : Work :=
  { s with artifacts := Function.update s.artifacts name (some content) }

variable {P ι : Type} (x : Setup P ι)

/-- `scripts/apply-kernel-patches.sh` -/
def applyKernelPatches : Shell Work Failure Unit := do
  ifThen (fun s => !s.kernel.prepared) (exit .patches)
  within lensKernel (relabel (fun _ => .patches) (applySeries x.git x.kernelSeries.patches))
  within lensModules (relabel (fun _ => .patches) (applySeries x.git x.modulesSeries.patches))

def readFile (e : Failure) (read : Work → Option Bytes) : Shell Work Failure Bytes :=
  command e fun s => (read s).map fun content => (content, s)

/-- `cp` -/
def copyFile (e : Failure) (read : Work → Option Bytes) (put : Bytes → Work → Work) :
    Shell Work Failure Unit := do
  let content ← readFile e read
  writeOut e put content

/-- `command > file`: the file is emptied before the command is started -/
def redirect (e : Failure) (read : Work → Option Bytes) (put : Bytes → Work → Work) :
    Shell Work Failure Unit := do
  act e fun s => some (put [] s)
  copyFile e read put

/-- `make olddefconfig` -/
def makeConfig (m : Make) : Shell Work Failure Unit := do
  act .olddefconfig fun s => some { s with output := m.debris s }
  act .olddefconfig fun s => (m.result s).map fun output => { s with output := output }

/-- `make Image` -/
def makeImage (m : Make) : Shell Work Failure Unit := do
  act .make fun s => some { s with output := m.debris s }
  act .make fun s => (m.result s).map fun output =>
    { s with output := output, releases := ⟨s.kernel, s.modules, output⟩ :: s.releases }

def artifactNames : List String := ["Image", "Image.gz", "System.map", "kernel.config"]

/-- `sha256sum Image Image.gz System.map kernel.config` -/
def sumsOf (files : Files) : Option Bytes :=
  (Sums.sha256sum x.hash files artifactNames).map fun text => Text.asciiBytes (String.ofList text)

def copyArtifacts : Shell Work Failure Unit := do
  copyFile (.cp "Image") (fun s => s.output bootImage) (Work.putArtifact "Image")
  redirect .gzip (fun s => (s.output bootImage).map x.gzip) (Work.putArtifact "Image.gz")
  copyFile (.cp "System.map") (fun s => s.output "System.map") (Work.putArtifact "System.map")
  copyFile (.cp "kernel.config") (fun s => s.output ".config") (Work.putArtifact "kernel.config")
  redirect .sha256sum (fun s => sumsOf x s.artifacts) (Work.putArtifact sumsName)
  act .cat fun s => some s

def buildKernel (i : ι) : Shell Work Failure Unit := do
  ifThen (fun s => !s.kernel.prepared) (exit .kernelNotPrepared)
  ifThen (fun s => !s.clang) (exit .clangNotPrepared)
  ifThen (fun s => s.sourceConfig.isNone) (exit .configNotReadable)
  applyKernelPatches x
  act .mkdir fun s => some s
  copyFile (.cp ".config") Work.sourceConfig (Work.putOutput ".config")
  makeConfig (x.olddefconfig i)
  makeImage (x.image i)
  copyArtifacts x

/-- what an artifact is to be -/
def Release.product (b : Release) (name : String) : Option Bytes :=
  if name = "Image" then b.output bootImage
  else if name = "Image.gz" then (b.output bootImage).map x.gzip
  else if name = "System.map" then b.output "System.map"
  else if name = "kernel.config" then b.output ".config"
  else none

/-- Every patch of both series stands in the sources: it can be taken back. -/
structure Release.Patched (b : Release) : Prop where
  kernel : ∀ p ∈ x.kernelSeries.patches.getD [], x.git.checkReverse p b.kernel = true
  modules : ∀ p ∈ x.modulesSeries.patches.getD [], x.git.checkReverse p b.modules = true

/-- `sha256sum -c SHA256SUMS` is content, and has looked at every artifact. -/
def Verified (s : Work) : Prop :=
  ∃ content, s.artifacts sumsName = some content ∧
    Sums.check x.hash s.artifacts (Text.decodeAscii content).toList = true ∧
    ∀ name ∈ artifactNames, name ∈ (Sums.entries (Text.decodeAscii content).toList).map Prod.snd

end RT7.Kernel.Build
