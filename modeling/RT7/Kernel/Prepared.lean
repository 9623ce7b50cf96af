import RT7.Kernel.Toolchain
import RT7.Kernel.Repo

/-!
# Preparations that are killed

* `toolchainInstaller`, `repoInstaller`   both scripts judge a directory from one mark in it;
* `preparations_sound`     when no run is killed in the window, a run that exits 0 leaves every file; and
  after any runs, exactly when they have not left the directory in it;
* `preparations_mislead`   killed in the window they are taken for complete.
-/

namespace RT7.Kernel

open Py Shell

variable {ν : Type}

def toolchainInstaller (tc : Toolchain ν) :
    Installer Bytes (ToolchainState ν) ToolchainFailure where
  script := prepareToolchain tc
  marked s := verifyToolchain tc s.destination = true
  complete := tc.Complete
  ends h := (yields_prepareToolchain h).imp_right fun ⟨_, ha, hverified, hfiles⟩ =>
    complete_of_unpacked ha hverified hfiles
  skips _ _ h := ⟨0, prepareToolchain_again h _ 0⟩

def repoInstaller (repo : Repo ν) : Installer Origin (WorkTree ν) RepoFailure where
  script := prepareRepo repo
  marked w := w.head = some (some repo.commit)
  complete := repo.Complete
  ends h := (yields_prepareRepo h).imp_right fun ht => by
    rw [ht]
    exact complete_of_checkedOut _
  skips _ _ h := prepareRepo_again h

section sound
variable {tc : Toolchain ν} {repo : Repo ν} {s₀ s t : ToolchainState ν} {w v : WorkTree ν}

theorem toolchain_sound (h₀ : s₀.destination = Dict.empty)
    (h : Runs (prepareToolchain tc) (fun s => ¬ tc.InWindow s) s₀ s) {served : Bytes}
    (hrun : Yields (prepareToolchain tc served) s () t) : tc.Complete t := by
  have hruns : Runs (prepareToolchain tc) (fun s => ¬ tc.Misleading s) s₀ s :=
    (h.imp fun r hr hclear hmislead =>
      hclear (Toolchain.Misleading.inWindow (toolchain_reached h₀ hr) hmislead)).1
  exact (toolchainInstaller tc).sound (not_misleading_of_empty h₀) hruns hrun

theorem repo_sound (h : Runs (prepareRepo repo) (fun w => ¬ repo.InWindow w) freshTree w)
    {origin : Origin} (hrun : Yields (prepareRepo repo origin) w () v) : repo.Complete v := by
  have hruns : Runs (prepareRepo repo) (fun w => ¬ repo.Misleading w) freshTree w :=
    (h.imp fun r hr hclear hmislead =>
      hclear (Repo.Misleading.inWindow (repo_reached hr) hmislead)).1
  exact (repoInstaller repo).sound (not_misleading_of_fresh rfl) hruns hrun

theorem toolchain_trusted_iff (h₀ : s₀.destination = Dict.empty)
    (h : Runs (prepareToolchain tc) (fun _ => True) s₀ s) :
    (∀ served t, Yields (prepareToolchain tc served) s () t → tc.Complete t) ↔
      ¬ tc.InWindow s := by
  have hwindow : tc.InWindow s ↔ tc.Misleading s :=
    ⟨Toolchain.InWindow.misleading, Toolchain.Misleading.inWindow (toolchain_reached h₀ h)⟩
  have : Nonempty Bytes := ⟨[]⟩
  rw [hwindow]
  exact (toolchainInstaller tc).trusted_iff

theorem repo_trusted_iff (h : Runs (prepareRepo repo) (fun _ => True) freshTree w) :
    (∀ origin v, Yields (prepareRepo repo origin) w () v → repo.Complete v) ↔
      ¬ repo.InWindow w := by
  have hwindow : repo.InWindow w ↔ repo.Misleading w :=
    ⟨Repo.InWindow.misleading, Repo.Misleading.inWindow (repo_reached h)⟩
  have : Nonempty Origin := ⟨⟨none, ""⟩⟩
  rw [hwindow]
  exact (repoInstaller repo).trusted_iff

end sound

/-- **What the scripts take for complete.** -/
theorem preparations_sound (tc : Toolchain ν) (repo : Repo ν) :
    (∀ s₀ s : ToolchainState ν, s₀.destination = Dict.empty →
      Runs (prepareToolchain tc) (fun s => ¬ tc.InWindow s) s₀ s →
      ∀ served t, Yields (prepareToolchain tc served) s () t → tc.Complete t) ∧
    (∀ w : WorkTree ν, Runs (prepareRepo repo) (fun w => ¬ repo.InWindow w) freshTree w →
      ∀ origin v, Yields (prepareRepo repo origin) w () v → repo.Complete v) ∧
    (∀ s₀ s : ToolchainState ν, s₀.destination = Dict.empty →
      Runs (prepareToolchain tc) (fun _ => True) s₀ s →
      ((∀ served t, Yields (prepareToolchain tc served) s () t → tc.Complete t) ↔
        ¬ tc.InWindow s)) ∧
    (∀ w : WorkTree ν, Runs (prepareRepo repo) (fun _ => True) freshTree w →
      ((∀ origin v, Yields (prepareRepo repo origin) w () v → repo.Complete v) ↔
        ¬ repo.InWindow w)) := by
  refine ⟨fun s₀ s h₀ hs served t hrun => ?_, fun w hw origin v hrun => ?_, fun s₀ s h₀ hs => ?_,
    fun w hw => ?_⟩
  · exact toolchain_sound h₀ hs hrun
  · exact repo_sound hw hrun
  · exact toolchain_trusted_iff h₀ hs
  · exact repo_trusted_iff hw

/-! ## a run that is killed -/

def sampleArchive : Bytes := [0x1f, 0x8b]

def sampleMembers : List (String × Bytes) :=
  [("bin/clang", [1]), ("lib64/libc++.so.1", [2]), ("lib64/clang/11.0.1/include/stddef.h", [3])]

/-- `clang` prints its version once it finds its library. -/
def sampleToolchain : Toolchain Bytes where
  hash := Sha256.sha256
  expected := (Sha256.sha256 sampleArchive).hexdigest
  members _ := sampleMembers
  clangVersion files :=
    match files.get? "bin/clang" with
    | none => ""
    | some _ =>
      match files.get? "lib64/libc++.so.1" with
      | none => ""
      | some _ => "Android (6443078 based on r383902) clang version 11.0.1"
  absent h := by rw [h]

def sampleRepo : Repo Bytes where
  commit := "f1ac3e53"
  filesOf _ := [("Makefile", [1]), ("kernel/fork.c", [2])]

/-- a cache whose default branch is at the pinned commit -/
def sampleOrigin : Origin := ⟨some ⟨some "f1ac3e53", fun _ => true⟩, ""⟩

def freshToolchain : ToolchainState Bytes := ⟨none, Dict.empty⟩

/-- killed when the archive was there, and run again -/
def downloadedToolchain : ToolchainState Bytes :=
  (prepareToolchain sampleToolchain sampleArchive (fun n => n == 3) 0 freshToolchain).state

def retriedToolchain : Ending (ToolchainState Bytes) ToolchainFailure Unit :=
  (prepareToolchain sampleToolchain []).undisturbed downloadedToolchain

/-- killed before `git clone`, and run again -/
def unclonedRepo : WorkTree Bytes :=
  (prepareRepo sampleRepo sampleOrigin (fun n => n == 0) 0 freshTree).state

def retriedRepo : Ending (WorkTree Bytes) RepoFailure Unit :=
  (prepareRepo sampleRepo sampleOrigin).undisturbed unclonedRepo

theorem preparations_sound_sample :
    sampleToolchain.Complete retriedToolchain.state ∧ sampleRepo.Complete retriedRepo.state := by
  have hruns : downloadedToolchain.destination = Dict.empty ∧ retriedToolchain.failure = none ∧
      unclonedRepo.head = none ∧ retriedRepo.failure = none := by decide +kernel
  obtain ⟨hempty, hdone, hfresh, hdone'⟩ := hruns
  obtain ⟨htoolchain, hrepo, -, -⟩ := preparations_sound sampleToolchain sampleRepo
  obtain ⟨_, k, hk⟩ := Ending.exists_done hdone
  obtain ⟨_, k', hk'⟩ := Ending.exists_done hdone'
  have hbefore : Runs (prepareToolchain sampleToolchain) (fun s => ¬ sampleToolchain.InWindow s)
      freshToolchain downloadedToolchain := by
    refine Runs.start.run sampleArchive (fun n => n == 3) 0 fun e t ht => ?_
    have hst : downloadedToolchain = t := congrArg Ending.state ht
    exact fun hwindow => not_misleading_of_empty (hst ▸ hempty) hwindow.misleading
  have hbefore' : Runs (prepareRepo sampleRepo) (fun w => ¬ sampleRepo.InWindow w) freshTree
      unclonedRepo := by
    refine Runs.start.run sampleOrigin (fun n => n == 0) 0 fun e t ht => ?_
    have hst : unclonedRepo = t := congrArg Ending.state ht
    exact fun hwindow => not_misleading_of_fresh (hst ▸ hfresh) hwindow.misleading
  exact ⟨htoolchain _ _ rfl hbefore [] _ ⟨_, 0, k, hk⟩,
    hrepo _ hbefore' sampleOrigin _ ⟨_, 0, k', hk'⟩⟩

/-- killed before the last member is extracted -/
def killedToolchain : ToolchainState Bytes :=
  (prepareToolchain sampleToolchain sampleArchive (fun n => n == 8) 0 freshToolchain).state

/-- killed right after `git clone --no-checkout` -/
def killedRepo : WorkTree Bytes :=
  (prepareRepo sampleRepo sampleOrigin (fun n => n == 2) 0 freshTree).state

theorem killedToolchain_misleading : sampleToolchain.Misleading killedToolchain := by
  have hkilled : verifyToolchain sampleToolchain killedToolchain.destination = true ∧
      (Dict.empty.setAll sampleMembers).get? "lib64/clang/11.0.1/include/stddef.h" = some [3] ∧
      killedToolchain.destination.get? "lib64/clang/11.0.1/include/stddef.h" = none := by
    decide +kernel
  obtain ⟨hv, hmember, hnone⟩ := hkilled
  refine ⟨hv, fun ⟨_, _, _, hholds⟩ => ?_⟩
  rw [hholds _ _ hmember] at hnone
  cases hnone

theorem killedRepo_misleading : sampleRepo.Misleading killedRepo := by
  have hkilled : killedRepo.head = some (some sampleRepo.commit) ∧
      (Dict.empty.setAll (sampleRepo.filesOf sampleRepo.commit)).get? "Makefile" = some [1] ∧
      killedRepo.files.get? "Makefile" = none := by decide +kernel
  obtain ⟨hhead, hmember, hnone⟩ := hkilled
  refine ⟨hhead, fun hholds => ?_⟩
  rw [hholds _ _ hmember] at hnone
  cases hnone

theorem preparations_mislead :
    (¬ ∀ (tc : Toolchain Bytes) (s₀ s : ToolchainState Bytes), s₀.destination = Dict.empty →
      Runs (prepareToolchain tc) (fun _ => True) s₀ s →
      ∀ served t, Yields (prepareToolchain tc served) s () t → tc.Complete t) ∧
    ¬ ∀ (repo : Repo Bytes) (w : WorkTree Bytes),
      Runs (prepareRepo repo) (fun _ => True) freshTree w →
      ∀ origin t, Yields (prepareRepo repo origin) w () t → repo.Complete t := by
  constructor
  · intro h
    have hreach : Runs (prepareToolchain sampleToolchain) (fun _ => True) freshToolchain
        killedToolchain :=
      Runs.start.run sampleArchive (fun n => n == 8) 0 fun _ _ _ => trivial
    obtain ⟨hv, hmissing⟩ := killedToolchain_misleading
    have hagain : Yields (prepareToolchain sampleToolchain []) killedToolchain ()
        killedToolchain := ⟨_, 0, 0, prepareToolchain_again hv (fun _ => false) 0⟩
    exact hmissing (h sampleToolchain freshToolchain killedToolchain rfl hreach [] _ hagain)
  · intro h
    have hreach : Runs (prepareRepo sampleRepo) (fun _ => True) freshTree killedRepo :=
      Runs.start.run sampleOrigin (fun n => n == 2) 0 fun _ _ _ => trivial
    obtain ⟨hhead, hmissing⟩ := killedRepo_misleading
    obtain ⟨k, hk⟩ : ∃ k, (prepareRepo sampleRepo sampleOrigin).undisturbed killedRepo =
      .done () k killedRepo := prepareRepo_again hhead
    exact hmissing (h sampleRepo killedRepo hreach sampleOrigin _ ⟨_, 0, k, hk⟩)

end RT7.Kernel
