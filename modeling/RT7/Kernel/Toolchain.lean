import RT7.Base.Killed
import RT7.Base.Sha256
import Mathlib.Data.List.Infix

/-!
# The toolchain (`scripts/prepare-toolchain.sh`)

* `Toolchain`        the expected digest, and what `tar` and the installed `clang` do;
* `prepareToolchain` one run; `served` is what the server has at the address of the archive;
* `Complete`         the destination holds every file of the verified archive;
* `Misleading`       it does not, and `verify_toolchain` succeeds;
* `Window`, `InWindow`   how far `tar` has come then;
* `yields_prepareToolchain`, `stops_prepareToolchain`   the two ways in which a run ends.
-/

namespace RT7.Kernel

open Py Shell

/-- `ν` are the entries of a directory: contents, links, modes. -/
structure Toolchain (ν : Type) where
  hash : Bytes → Digest
  expected : String
  /-- `tar -xzf`: the members of an archive, in the order in which they are created -/
  members : Bytes → List (String × ν)
  /-- what `bin/clang --version` prints -/
  clangVersion : Dict String ν → String
  /-- a shell finds no command where there is no file -/
  absent : ∀ {files}, files.get? "bin/clang" = none → clangVersion files = ""

structure ToolchainState (ν : Type) where
  archive : Option Bytes
  destination : Dict String ν

inductive ToolchainFailure where
  | mkdir
  | curl
  | mv
  | sha256sum
  | mismatch (actual : String)
  | notEmpty
  | tar
  | notIdentified
  deriving DecidableEq, Repr

variable {ν : Type}

/-- `"$destination/bin/clang" --version | grep -q 'based on r383902'` -/
def verifyToolchain (tc : Toolchain ν) (files : Dict String ν) : Bool :=
  decide ("based on r383902".toList <:+: (tc.clangVersion files).toList)

def extract (m : String × ν) (s : ToolchainState ν) : ToolchainState ν :=
  { s with destination := s.destination.set m.1 m.2 }

/-- `curl` writes a temporary file of its own, which no other run reads. -/
def download (served : Bytes) : Shell (ToolchainState ν) ToolchainFailure Unit :=
  ifThen (fun s => s.archive.isNone) do
    let downloaded ← command .curl fun s => some (served, s)
    act .mv fun s => some { s with archive := some downloaded }

def checkArchive (tc : Toolchain ν) : Shell (ToolchainState ν) ToolchainFailure Unit := do
  let actual ← command .sha256sum fun s => s.archive.map fun a => ((tc.hash a).hexdigest, s)
  ifThen (fun _ => actual != tc.expected) (exit (.mismatch actual))

def unpack (tc : Toolchain ν) : Shell (ToolchainState ν) ToolchainFailure Unit := do
  ifThen (fun s => !s.destination.items.isEmpty) (exit .notEmpty)
  act .mkdir some
  let members ← command .tar fun s => s.archive.map fun a => (tc.members a, s)
  forEach .tar extract members

def prepareToolchain (tc : Toolchain ν) (served : Bytes) :
    Shell (ToolchainState ν) ToolchainFailure Unit :=
  ifThen (fun s => !verifyToolchain tc s.destination) do
    act .mkdir some
    download served
    checkArchive tc
    unpack tc
    ifThen (fun s => !verifyToolchain tc s.destination) (exit .notIdentified)

namespace Toolchain

/-- what `sha256sum` accepts -/
def Verified (tc : Toolchain ν) (a : Bytes) : Prop := (tc.hash a).hexdigest = tc.expected

/-- The destination holds every file of the verified archive. -/
def Complete (tc : Toolchain ν) (s : ToolchainState ν) : Prop :=
  ∃ a, s.archive = some a ∧ tc.Verified a ∧ Holds s.destination (tc.members a)

/-- The version string is that of a complete toolchain. -/
def Misleading (tc : Toolchain ν) (s : ToolchainState ν) : Prop :=
  verifyToolchain tc s.destination = true ∧ ¬ tc.Complete s

/-- what `tar` has created after `k` members -/
def unpacked (tc : Toolchain ν) (a : Bytes) (k : Nat) : Dict String ν :=
  Dict.empty.setAll ((tc.members a).take k)

/-- After `k` members `clang` runs, and files of the archive are missing. -/
def Window (tc : Toolchain ν) (a : Bytes) (k : Nat) : Prop :=
  verifyToolchain tc (tc.unpacked a k) = true ∧ ¬ Holds (tc.unpacked a k) (tc.members a)

/-- The verified archive is unpacked up to a member in the window. -/
def InWindow (tc : Toolchain ν) (s : ToolchainState ν) : Prop :=
  ∃ a k, s.archive = some a ∧ tc.Verified a ∧ s.destination = tc.unpacked a k ∧ tc.Window a k

/-- Nothing is unpacked, or the verified archive is up to some member. -/
def Begun (tc : Toolchain ν) (s : ToolchainState ν) : Prop :=
  s.destination = Dict.empty ∨
    ∃ a k, s.archive = some a ∧ tc.Verified a ∧ s.destination = tc.unpacked a k

end Toolchain

variable {tc : Toolchain ν} {served : Bytes} {s t : ToolchainState ν} {e : ToolchainFailure}

theorem verifyToolchain_empty (tc : Toolchain ν) : verifyToolchain tc Dict.empty = false := by
  have hsilent : tc.clangVersion Dict.empty = "" := tc.absent rfl
  have hno : ¬ "based on r383902".toList <:+: "".toList := by decide +kernel
  apply decide_eq_false
  rw [hsilent]
  exact hno

theorem not_misleading_of_empty (h : s.destination = Dict.empty) : ¬ tc.Misleading s := by
  intro hmislead
  have hv := hmislead.1
  rw [h, verifyToolchain_empty] at hv
  cases hv

theorem foldl_extract (s : ToolchainState ν) (l : List (String × ν)) :
    l.foldl (fun s m => extract m s) s = { s with destination := s.destination.setAll l } := by
  induction l generalizing s with
  | nil => rfl
  | cons m l ih =>
    show l.foldl (fun s m => extract m s) (extract m s) = _
    rw [ih]
    rfl

/-! ## the parts of a run -/

/-- The destination is as it was, and so is the archive if there was one. -/
def Keeps (s t : ToolchainState ν) : Prop :=
  t.destination = s.destination ∧ ∀ a, s.archive = some a → t.archive = some a

theorem Keeps.refl (s : ToolchainState ν) : Keeps s s := ⟨rfl, fun _ h => h⟩

theorem yields_download (h : Yields (download served) s () t) : Keeps s t := by
  rcases h.of_ifThen with ⟨hnone, h1⟩ | ⟨-, rfl⟩
  · obtain ⟨downloaded, r, hcurl, hmv⟩ := h1.of_bind
    have hr := hcurl.of_command
    cases hr
    have ht := hmv.of_act_some
    subst ht
    refine ⟨rfl, fun a ha => ?_⟩
    rw [ha] at hnone
    cases hnone
  · exact Keeps.refl t

theorem stops_download (h : Stops (download served) s e t) : t = s := by
  rcases h.of_ifThen.2.of_bind with hcurl | ⟨downloaded, r, hcurl, hmv⟩
  · exact hcurl.of_command.2
  · have hr := hcurl.of_command
    cases hr
    exact hmv.of_act.2

theorem yields_checkArchive (h : Yields (checkArchive tc) s () t) :
    t = s ∧ ∃ a, s.archive = some a ∧ tc.Verified a := by
  obtain ⟨actual, r, hsum, hguard⟩ := h.of_bind
  obtain ⟨a, ha, heq⟩ := Option.map_eq_some_iff.mp hsum.of_command
  cases heq
  obtain ⟨hmatch, rfl⟩ := hguard.of_guard
  exact ⟨rfl, a, ha, bne_eq_false_iff_eq.mp hmatch⟩

theorem stops_checkArchive (h : Stops (checkArchive tc) s e t) : t = s := by
  rcases h.of_bind with hsum | ⟨actual, r, hsum, hguard⟩
  · exact hsum.of_command.2
  · obtain ⟨a, -, heq⟩ := Option.map_eq_some_iff.mp hsum.of_command
    cases heq
    exact hguard.of_guard.2.2

theorem yields_unpack {a : Bytes} (ha : s.archive = some a) (h : Yields (unpack tc) s () t) :
    t = { s with destination := Dict.empty.setAll (tc.members a) } := by
  obtain ⟨r, hguard, h1⟩ := h.of_then
  obtain ⟨u, hmkdir, h2⟩ := h1.of_then
  obtain ⟨members, v, htar, hextract⟩ := h2.of_bind
  obtain ⟨hempty, rfl⟩ := hguard.of_guard
  have hu := hmkdir.of_act
  cases hu
  have heq := htar.of_command
  rw [ha] at heq
  cases heq
  rw [hextract.of_forEach, foldl_extract, eq_empty_of_isEmpty hempty]

/-- What is cut off here leaves the first members of the archive. -/
theorem stops_unpack {a : Bytes} (ha : s.archive = some a) (h : Stops (unpack tc) s e t) :
    t = s ∨ ∃ k < (tc.members a).length, t = { s with destination := tc.unpacked a k } := by
  rcases h.of_then with hguard | ⟨r, hguard, h1⟩
  · exact Or.inl hguard.of_guard.2.2
  rcases h1.of_then with hmkdir | ⟨u, hmkdir, h2⟩
  · exact Or.inl (hmkdir.of_act.2.trans hguard.of_guard.2)
  obtain ⟨hempty, rfl⟩ := hguard.of_guard
  have hu := hmkdir.of_act
  cases hu
  rcases h2.of_bind with htar | ⟨members, v, htar, hextract⟩
  · exact Or.inl htar.of_command.2
  have heq := htar.of_command
  rw [ha] at heq
  cases heq
  obtain ⟨-, k, hk, ht⟩ := hextract.of_forEach
  rw [foldl_extract, eq_empty_of_isEmpty hempty] at ht
  exact Or.inr ⟨k, hk, ht⟩

/-! ## a run -/

/-- A run that ends well found the version string, or has unpacked the whole verified archive. -/
theorem yields_prepareToolchain (h : Yields (prepareToolchain tc served) s () t) :
    (verifyToolchain tc s.destination = true ∧ t = s) ∨ ∃ a, t.archive = some a ∧ tc.Verified a ∧
      t.destination = Dict.empty.setAll (tc.members a) := by
  rcases h.of_ifThen with ⟨-, h0⟩ | ⟨hv, ht⟩
  · obtain ⟨r, -, h1⟩ := h0.of_then
    obtain ⟨u, -, h2⟩ := h1.of_then
    obtain ⟨v, hcheck, h3⟩ := h2.of_then
    obtain ⟨w, hunpack, hverify⟩ := h3.of_then
    obtain ⟨rfl, a, ha, hverified⟩ := yields_checkArchive hcheck
    have hw := yields_unpack ha hunpack
    have ht := hverify.of_guard.2
    subst ht hw
    exact Or.inr ⟨a, ha, hverified, rfl⟩
  · exact Or.inl ⟨by simpa using hv, ht⟩

theorem complete_of_unpacked {a : Bytes} (ha : s.archive = some a) (hverified : tc.Verified a)
    (hfiles : s.destination = Dict.empty.setAll (tc.members a)) : tc.Complete s := by
  refine ⟨a, ha, hverified, ?_⟩
  rw [hfiles]
  exact holds_setAll _

/-- A run that stops leaves the destination as it was, or the first members of the archive. -/
theorem stops_prepareToolchain (h : Stops (prepareToolchain tc served) s e t) :
    Keeps s t ∨ ∃ a k, t.archive = some a ∧ tc.Verified a ∧
      t.destination = tc.unpacked a k := by
  rcases h.of_ifThen.2.of_then with hmkdir | ⟨r, hmkdir, h1⟩
  · rw [hmkdir.of_act.2]
    exact Or.inl (Keeps.refl s)
  have hr := hmkdir.of_act
  cases hr
  rcases h1.of_then with hdownload | ⟨u, hdownload, h2⟩
  · rw [stops_download hdownload]
    exact Or.inl (Keeps.refl s)
  have hkeep := yields_download hdownload
  rcases h2.of_then with hcheck | ⟨v, hcheck, h3⟩
  · rw [stops_checkArchive hcheck]
    exact Or.inl hkeep
  obtain ⟨rfl, a, ha, hverified⟩ := yields_checkArchive hcheck
  rcases h3.of_then with hunpack | ⟨w, hunpack, hverify⟩
  · rcases stops_unpack ha hunpack with rfl | ⟨k, -, rfl⟩
    · exact Or.inl hkeep
    · exact Or.inr ⟨a, k, ha, hverified, rfl⟩
  · have ht := hverify.of_guard.2.2
    have hw := yields_unpack ha hunpack
    subst ht hw
    refine Or.inr ⟨a, (tc.members a).length, ha, hverified, ?_⟩
    unfold Toolchain.unpacked
    rw [List.take_length]

/-- The version string alone ends a run. -/
theorem prepareToolchain_again (h : verifyToolchain tc s.destination = true) (fails : Nat → Bool)
    (n : Nat) : prepareToolchain tc served fails n s = .done () n s := by
  apply ifThen_of_false
  show (!verifyToolchain tc s.destination) = false
  rw [h, Bool.not_true]

/-! ## sequences of runs -/

theorem Keeps.begun (h : Keeps s t) (hs : tc.Begun s) : tc.Begun t := by
  obtain ⟨hfiles, harchive⟩ := h
  rcases hs with hs | ⟨a, k, ha, hverified, hs⟩
  · exact Or.inl (hfiles.trans hs)
  · exact Or.inr ⟨a, k, harchive a ha, hverified, hfiles.trans hs⟩

/-- Whatever the runs were and wherever they were killed. -/
theorem toolchain_reached {s₀ : ToolchainState ν} (h₀ : s₀.destination = Dict.empty)
    (h : Runs (prepareToolchain tc) (fun _ => True) s₀ s) : tc.Begun s := by
  induction h with
  | start => exact Or.inl h₀
  | @run s before served fails n clear ih =>
    cases hrun : prepareToolchain tc served fails n s with
    | done u k t =>
      rcases yields_prepareToolchain ⟨fails, n, k, hrun⟩ with ⟨-, rfl⟩ | ⟨a, ha, hverified, hfiles⟩
      · exact ih
      · refine Or.inr ⟨a, (tc.members a).length, ha, hverified, ?_⟩
        unfold Toolchain.unpacked
        rw [List.take_length]
        exact hfiles
    | stopped e t =>
      rcases stops_prepareToolchain ⟨fails, n, hrun⟩ with hkeep | hpart
      · exact hkeep.begun ih
      · exact Or.inr hpart

theorem Toolchain.InWindow.misleading (h : tc.InWindow s) : tc.Misleading s := by
  obtain ⟨a, k, ha, -, hfiles, hv, hmissing⟩ := h
  rw [← hfiles] at hv hmissing
  refine ⟨hv, fun ⟨a', ha', _, hholds⟩ => ?_⟩
  rw [ha] at ha'
  cases ha'
  exact hmissing hholds

theorem Toolchain.Misleading.inWindow (h : tc.Begun s) (hs : tc.Misleading s) : tc.InWindow s := by
  rcases h with hempty | ⟨a, k, ha, hverified, hfiles⟩
  · exact absurd hs (not_misleading_of_empty hempty)
  · obtain ⟨hv, hmissing⟩ := hs
    refine ⟨a, k, ha, hverified, hfiles, ?_⟩
    unfold Toolchain.Window
    rw [← hfiles]
    exact ⟨hv, fun hholds => hmissing ⟨a, ha, hverified, hholds⟩⟩

end RT7.Kernel
