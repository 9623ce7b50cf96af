import RT7.Base.Blocks
import RT7.Base.Shell
import Mathlib.Logic.Function.Basic

/-!
# The patch series (`scripts/apply-kernel-patches.sh`)

* `GitApply`         the calls of `git apply` that the script makes, for patches of any kind;
* `applyPatch`, `applySeries`   a patch is skipped when its reverse can be applied;
* `patchPhase`       a patch of the series, as a part of the script that can be run again;
* `KeptBy`           no patch of the series takes another one back;
* `Patch`, `Git`     one block of lines in one file, and the block that comes in its place: where
  `git apply` finds the block of a patch; it finds one wherever there is one;
* `Applied p s`      the new block of the patch stands in its file;
* `applySeries_again`   the series, run again on what it left, leaves it as it is where every patch
  stands in it; `applied_of_again`: and only there, if every patch adds more lines than it takes;
* `taken_back`       a patch that has to be applied again was taken back by another one;
* `applySeries_idempotent`   no patch takes another one back: the run again changes nothing.
-/

namespace RT7.Kernel

open Blocks Shell

/-- a source checkout: whether it holds a `.git`, and the lines of its files -/
structure Source where
  prepared : Bool
  files : String → Option (List String)

/-- `git apply --ignore-space-change` -/
structure GitApply (P : Type) where
  /-- `--reverse --check` -/
  checkReverse : P → Source → Bool
  /-- `--check` -/
  check : P → Source → Bool
  apply : P → Source → Option Source
  /-- A patch that was applied can be taken back. -/
  reversible : ∀ {p s t}, apply p s = some t → checkReverse p t = true
  prepared : ∀ {p s t}, apply p s = some t → t.prepared = s.prepared

inductive Failure (P : Type) where
  | notPrepared
  | gitApply (patch : P)
  | doesNotApply (patch : P)
  deriving DecidableEq, Repr

section series
variable {P : Type}

/-- the body of the loop -/
def applyPatch (git : GitApply P) (p : P) : Shell Source (Failure P) Unit :=
  ifElse (git.checkReverse p) (pure ())
    (ifElse (git.check p) (act (.gitApply p) (git.apply p)) (exit (.doesNotApply p)))

/-- `patches` are those of the patch directory, if there is one. -/
def applySeries (git : GitApply P) (patches : Option (List P)) : Shell Source (Failure P) Unit :=
  match patches with
  | none => pure ()
  | some patches => do
    ifThen (fun s => !s.prepared) (exit .notPrepared)
    inSequence (patches.map (applyPatch git))

/-- No patch takes back what one before it has brought. -/
def KeptBy (git : GitApply P) (p q : P) : Prop :=
  ∀ u v, git.checkReverse p u = true → git.apply q u = some v → git.checkReverse p v = true

variable {git : GitApply P} {p q : P} {s t : Source} {e : Failure P} {patches : Option (List P)} {l : List P}

/-! ## one patch -/

theorem applyPatch_idle (h : git.checkReverse p s = true) (fails : Nat → Bool) (n : Nat) :
    applyPatch git p fails n s = .done () n s := by
  unfold applyPatch
  rw [ifElse_of_true h]
  rfl

theorem yields_applyPatch (h : Yields (applyPatch git p) s () t) :
    (git.checkReverse p s = true ∧ t = s) ∨ (git.checkReverse p s = false ∧ git.apply p s = some t) := by
  rcases h.of_ifElse with ⟨hc, h⟩ | ⟨hc, h⟩
  · exact Or.inl ⟨hc, h.of_pure.2⟩
  · rcases h.of_ifElse with ⟨-, h⟩ | ⟨-, h⟩
    · exact Or.inr ⟨hc, h.of_act⟩
    · exact absurd h not_yields_exit

theorem stops_applyPatch (h : Stops (applyPatch git p) s e t) : t = s := by
  rcases h.of_ifElse with ⟨-, h⟩ | ⟨-, h⟩
  · exact absurd h not_stops_pure
  · rcases h.of_ifElse with ⟨-, h⟩ | ⟨-, h⟩
    · exact h.of_act.2
    · exact h.of_exit.2

theorem steady_applyPatch : Steady (applyPatch git p) :=
  Steady.ifElse (Steady.pure ()) (Steady.ifElse (Steady.act _) Steady.exit)

/-- A patch of the series as a part of the script that can be run again. -/
def patchPhase (git : GitApply P) (p : P) : Phase Source fun _ : Failure P => True where
  script := applyPatch git p
  Over s := git.checkReverse p s = true
  steady := steady_applyPatch
  undone h _ := stops_applyPatch h
  settles h := by
    rcases yields_applyPatch h with ⟨ha, rfl⟩ | ⟨-, hput⟩
    · exact ha
    · exact git.reversible hput
  idle ha h := by
    rcases yields_applyPatch h with ⟨-, h⟩ | ⟨hn, -⟩
    · exact h
    · exact absurd (ha.symm.trans hn) Bool.noConfusion

def phases (git : GitApply P) (l : List P) : List (Phase Source fun _ : Failure P => True) :=
  l.map (patchPhase git)

theorem scriptOf_phases (git : GitApply P) (l : List P) :
    scriptOf (phases git l) = inSequence (l.map (applyPatch git)) := by
  unfold scriptOf phases
  rw [List.map_map]
  rfl

theorem forall_over : (∀ f ∈ phases git l, f.Over s) ↔ ∀ p ∈ l, git.checkReverse p s = true :=
  List.forall_mem_map

theorem phases_idle : ∀ f ∈ phases git l, f.Over s → Yields f.script s () s := by
  intro f hf hover
  obtain ⟨p, -, rfl⟩ := List.mem_map.mp hf
  exact ⟨fun _ => false, 0, 0, applyPatch_idle hover _ 0⟩

theorem prepared_of_passes (h : Passes (phases git l) s t) : t.prepared = s.prepared := by
  induction l generalizing s with
  | nil => exact congrArg Source.prepared h
  | cons p l ih =>
    obtain ⟨r, hp, hl⟩ := h
    rw [ih hl]
    rcases yields_applyPatch hp with ⟨-, rfl⟩ | ⟨-, hput⟩
    · rfl
    · exact git.prepared hput

/-! ## the series -/

theorem yields_applySeries (h : Yields (applySeries git patches) s () t) :
    (patches.isSome = true → s.prepared = true) ∧ Passes (phases git (patches.getD [])) s t := by
  cases patches with
  | none => exact ⟨fun h => absurd h Bool.false_ne_true, h.of_pure.2⟩
  | some l =>
    obtain ⟨r, hguard, hloop⟩ := h.of_then
    rcases hguard.of_ifThen with ⟨-, hguard⟩ | ⟨hguard, rfl⟩
    · exact absurd hguard not_yields_exit
    · rw [← scriptOf_phases] at hloop
      exact ⟨fun _ => by simpa using hguard, hloop.passes⟩

theorem applySeries_undisturbed (hp : patches.isSome = true → s.prepared = true)
    (h : Passes (phases git (patches.getD [])) s t) :
    ∃ k, (applySeries git patches).undisturbed s = .done () k t := by
  cases patches with
  | none =>
    cases h
    exact ⟨0, rfl⟩
  | some l =>
    obtain ⟨k, hk⟩ := h.undisturbed 0
    have hguard : ifThen (fun s : Source => !s.prepared) (exit (Failure.notPrepared (P := P)))
        (fun _ => false) 0 s = .done () 0 s := by
      refine ifThen_of_false ?_ _ 0
      rw [hp rfl, Bool.not_true]
    rw [scriptOf_phases] at hk
    exact ⟨k, bind_eq_done.mpr ⟨(), 0, s, hguard, hk⟩⟩

theorem again_iff_passes (hfirst : Yields (applySeries git patches) s () t) :
    (∃ k, (applySeries git patches).undisturbed t = .done () k t) ↔
      Passes (phases git (patches.getD [])) t t := by
  obtain ⟨hprepared, hpass⟩ := yields_applySeries hfirst
  refine ⟨fun h => ?_, fun hself => ?_⟩
  · obtain ⟨k, hk⟩ := h
    exact (yields_applySeries ⟨_, 0, k, hk⟩).2
  · apply applySeries_undisturbed _ hself
    intro hsome
    show t.prepared = true
    rw [prepared_of_passes hpass]
    exact hprepared hsome

theorem lasting_phases (h : l.Pairwise (KeptBy git)) : Lasting (phases git l) := by
  refine List.pairwise_map.mpr (h.imp fun {p q} hkeep u v hu hstep => ?_)
  rcases yields_applyPatch hstep with ⟨-, rfl⟩ | ⟨-, hput⟩
  · exact hu
  · exact hkeep u v hu hput

/-- A series of which no patch takes another one back leaves every patch applied. -/
theorem checkReverse_of_yields (hkeep : (patches.getD []).Pairwise (KeptBy git))
    (h : Yields (applySeries git patches) s () t) :
    ∀ p ∈ patches.getD [], git.checkReverse p t = true :=
  forall_over.mp ((lasting_phases hkeep).over (yields_applySeries h).2)

theorem applySeries_idempotent (hkeep : (patches.getD []).Pairwise (KeptBy git))
    (hfirst : Yields (applySeries git patches) s () t) :
    ∃ k, (applySeries git patches).undisturbed t = .done () k t := by
  have hover := forall_over.mpr (checkReverse_of_yields hkeep hfirst)
  exact (again_iff_passes hfirst).mpr (Passes.again phases_idle hover)

end series

/-! ## blocks of lines -/

/-- one hunk: `oldStart` and `newStart` are the lines at which its two blocks are expected -/
structure Patch where
  file : String
  oldStart : Nat
  old : List String
  newStart : Nat
  new : List String
  deriving DecidableEq, Repr

/-- `--reverse` -/
def Patch.reverse (p : Patch) : Patch := ⟨p.file, p.newStart, p.new, p.oldStart, p.old⟩

/-- the search for the place of a hunk -/
structure Git where
  locate : Patch → List String → Option Nat
  found : ∀ {p lines i}, locate p lines = some i → OccursAt p.old lines i
  missing : ∀ {p lines}, locate p lines = none → ¬ p.old <:+: lines

namespace Git

/-- `git apply --check` -/
def check (git : Git) (p : Patch) (s : Source) : Bool :=
  match s.files p.file with
  | none => false
  | some lines => (git.locate p lines).isSome

/-- `git apply` -/
def apply (git : Git) (p : Patch) (s : Source) : Option Source := do
  let lines ← s.files p.file
  let i ← git.locate p lines
  some { s with
    files := Function.update s.files p.file (some (splice lines i p.old.length p.new)) }

end Git

/-- The new block of the patch stands in its file. -/
def Applied (p : Patch) (s : Source) : Prop := ∃ lines, s.files p.file = some lines ∧ p.new <:+: lines

variable {git : Git} {p q : Patch} {s t u v : Source} {patches : Option (List Patch)} {l : List Patch}
  {lines : List String}

namespace Git

theorem locate_isSome : (git.locate p lines).isSome = true ↔ p.old <:+: lines := by
  cases h : git.locate p lines with
  | none => exact iff_of_false Bool.false_ne_true (git.missing h)
  | some i => exact iff_of_true rfl (git.found h).isInfix

theorem check_iff : git.check p s = true ↔ ∃ lines, s.files p.file = some lines ∧ p.old <:+: lines := by
  unfold check
  cases s.files p.file with
  | none =>
    refine iff_of_false Bool.false_ne_true fun h => ?_
    obtain ⟨lines, h, -⟩ := h
    cases h
  | some lines =>
    show (git.locate p lines).isSome = true ↔ _
    rw [locate_isSome]
    refine ⟨fun hold => ⟨lines, rfl, hold⟩, fun h => ?_⟩
    obtain ⟨_, h, hold⟩ := h
    cases h
    exact hold

/-- the first question the script asks -/
theorem check_reverse : git.check p.reverse s = true ↔ Applied p s := check_iff

theorem apply_eq_some : git.apply p s = some t ↔ ∃ lines i, s.files p.file = some lines ∧
    git.locate p lines = some i ∧ t = { s with
      files := Function.update s.files p.file (some (splice lines i p.old.length p.new)) } := by
  unfold apply
  refine ⟨fun h => ?_, fun h => ?_⟩
  · obtain ⟨lines, hl, h⟩ := Option.bind_eq_some_iff.mp h
    obtain ⟨i, hi, h⟩ := Option.bind_eq_some_iff.mp h
    exact ⟨lines, i, hl, hi, (Option.some.inj h).symm⟩
  · obtain ⟨lines, i, hl, hi, ht⟩ := h
    apply Option.bind_eq_some_iff.mpr
    refine ⟨lines, hl, Option.bind_eq_some_iff.mpr ⟨i, hi, ?_⟩⟩
    rw [ht]

theorem applied_of_apply (h : git.apply p s = some t) : Applied p t := by
  obtain ⟨lines, i, hl, hi, rfl⟩ := apply_eq_some.mp h
  exact ⟨_, Function.update_self p.file _ s.files, infix_splice (git.found hi)⟩

theorem prepared_of_apply (h : git.apply p s = some t) : t.prepared = s.prepared := by
  obtain ⟨lines, i, -, -, rfl⟩ := apply_eq_some.mp h
  rfl

/-- the calls of the script, for patches of one block -/
def calls (git : Git) : GitApply Patch where
  checkReverse p := git.check p.reverse
  check := git.check
  apply := git.apply
  reversible h := check_reverse.mpr (applied_of_apply h)
  prepared := prepared_of_apply

theorem checkReverse_calls : git.calls.checkReverse p s = true ↔ Applied p s := check_reverse

end Git

/-! ## the series of such patches -/

theorem forall_over_calls : (∀ f ∈ phases git.calls l, f.Over s) ↔ ∀ p ∈ l, Applied p s :=
  forall_over.trans (forall₂_congr fun _ _ => Git.checkReverse_calls)

theorem keptBy_calls : KeptBy git.calls p q ↔
    ∀ u v, Applied p u → git.apply q u = some v → Applied p v :=
  forall₂_congr fun _ _ =>
    imp_congr Git.checkReverse_calls (imp_congr Iff.rfl Git.checkReverse_calls)

/-- **The series run again.** Where every patch of the series stands in what a first run has left, a
second run ends well and changes nothing. -/
theorem applySeries_again (hfirst : Yields (applySeries git.calls patches) s () t)
    (hstands : ∀ p ∈ patches.getD [], Applied p t) :
    ∃ k, (applySeries git.calls patches).undisturbed t = .done () k t :=
  (again_iff_passes hfirst).mpr (Passes.again phases_idle (forall_over_calls.mpr hstands))

/-! ## the converse -/

/-- the number of lines of a file -/
def lineCount (file : String) (s : Source) : Nat := ((s.files file).getD []).length

theorem lineCount_apply (hput : git.apply p s = some t) (file : String) :
    lineCount file t + (if p.file = file then p.old.length else 0)
      = lineCount file s + (if p.file = file then p.new.length else 0) := by
  obtain ⟨lines, i, hl, hi, rfl⟩ := Git.apply_eq_some.mp hput
  by_cases hfile : p.file = file
  · subst hfile
    rw [if_pos rfl, if_pos rfl]
    dsimp only [lineCount]
    rw [Function.update_self, hl, Option.getD_some, Option.getD_some]
    exact length_splice (git.found hi)
  · rw [if_neg hfile, if_neg hfile]
    dsimp only [lineCount]
    rw [Function.update_of_ne (Ne.symm hfile)]

/-- **A series that only adds lines:** where the second run ends well and changes nothing, every patch
of the series stood in its file. -/
theorem applied_of_again (hgrow : ∀ p ∈ patches.getD [], p.old.length < p.new.length)
    (hfirst : Yields (applySeries git.calls patches) s () t)
    (hagain : ∃ k, (applySeries git.calls patches).undisturbed t = .done () k t) :
    ∀ p ∈ patches.getD [], Applied p t := by
  have hpass := (again_iff_passes hfirst).mp hagain
  refine forall_over_calls.mp ((hpass.over_of_grows lineCount ?_ ?_).2 fun _ => Nat.le_refl _)
  · refine List.forall_mem_map.mpr fun p hp u v hstep file => ?_
    rcases yields_applyPatch hstep with ⟨-, rfl⟩ | ⟨-, hput⟩
    · exact Nat.le_refl _
    · have hcount := lineCount_apply hput file
      have hlonger := hgrow p hp
      split_ifs at hcount <;> omega
  · refine List.forall_mem_map.mpr fun p hp u v hstep hmissing => ⟨p.file, ?_⟩
    rcases yields_applyPatch hstep with ⟨happlied, -⟩ | ⟨-, hput⟩
    · exact absurd happlied hmissing
    · have hcount := lineCount_apply hput p.file
      have hlonger := hgrow p hp
      rw [if_pos rfl, if_pos rfl] at hcount
      omega

/-- a search that takes the first place -/
def firstGit : Git where
  locate p lines := firstAt p.old lines
  found := occursAt_of_firstAt
  missing := not_infix_of_firstAt

def sourceOf (file : String) (lines : List String) : Source :=
  ⟨true, fun name => if name = file then some lines else none⟩

/-- two patches of one file that leave each other alone -/
def apartSeries : List Patch :=
  [⟨"tune.c", 1, ["a", "b"], 1, ["a", "new", "b"]⟩, ⟨"tune.c", 4, ["c", "d"], 5, ["c", "D"]⟩]

def apartRun : Ending Source (Failure Patch) Unit :=
  (applySeries firstGit.calls (some apartSeries)).undisturbed (sourceOf "tune.c" ["a", "b", "", "c", "d"])

theorem applySeries_again_apart :
    apartRun.state.files "tune.c" = some ["a", "new", "b", "", "c", "D"] ∧
      ∃ k, (applySeries firstGit.calls (some apartSeries)).undisturbed apartRun.state =
        .done () k apartRun.state := by
  have hrun : apartRun.failure = none ∧
      apartRun.state.files "tune.c" = some ["a", "new", "b", "", "c", "D"] ∧
      ∀ p ∈ apartSeries, firstGit.check p.reverse apartRun.state = true := by decide +kernel
  obtain ⟨hdone, hfile, hchecks⟩ := hrun
  obtain ⟨_, k, hk⟩ := Ending.exists_done hdone
  have hfirst : Yields (applySeries firstGit.calls (some apartSeries))
      (sourceOf "tune.c" ["a", "b", "", "c", "d"]) () apartRun.state := ⟨_, 0, k, hk⟩
  refine ⟨hfile, applySeries_again hfirst fun p hp => ?_⟩
  exact Git.check_reverse.mp (hchecks p hp)

/-- the second patch changes the line that the first one has brought -/
def dependentSeries : List Patch :=
  [⟨"tune.c", 1, ["a", "one", "c"], 1, ["a", "two", "c"]⟩,
    ⟨"tune.c", 1, ["a", "two", "c"], 1, ["a", "three", "c"]⟩]

def dependentRun : Ending Source (Failure Patch) Unit :=
  (applySeries firstGit.calls (some dependentSeries)).undisturbed (sourceOf "tune.c" ["a", "one", "c"])

theorem applySeries_not_idempotent :
    ¬ ∀ (git : Git) (patches : Option (List Patch)) (s t : Source) (k : Nat),
      (applySeries git.calls patches).undisturbed s = .done () k t →
        ∃ j, (applySeries git.calls patches).undisturbed t = .done () j t := by
  intro h
  have hrun : dependentRun.failure = none ∧
      ((applySeries firstGit.calls (some dependentSeries)).undisturbed dependentRun.state).failure =
        some (.doesNotApply ⟨"tune.c", 1, ["a", "one", "c"], 1, ["a", "two", "c"]⟩) := by
    decide +kernel
  obtain ⟨hdone, hstop⟩ := hrun
  obtain ⟨_, k, hk⟩ := Ending.exists_done hdone
  obtain ⟨j, hj⟩ := h firstGit (some dependentSeries) _ _ k hk
  rw [hj] at hstop
  cases hstop

/-! ## series that can be run again -/

/-- What has to be applied again some patch of the series has taken back. -/
theorem taken_back (hfirst : Yields (applySeries git.calls patches) s () t) (hp : p ∈ patches.getD [])
    (hn : ¬ Applied p t) :
    ∃ q ∈ patches.getD [], ∃ u v, Applied p u ∧ git.apply q u = some v ∧ ¬ Applied p v := by
  obtain ⟨-, hpass⟩ := yields_applySeries hfirst
  obtain ⟨before, after, hl⟩ := List.append_of_mem hp
  rw [hl, phases, List.map_append, List.map_cons] at hpass
  obtain ⟨r, -, u, hput, hafter⟩ := hpass.of_append
  have hmissing : ¬ (patchPhase git.calls p).Over t := fun hover => hn (Git.checkReverse_calls.mp hover)
  obtain ⟨f, hf, u, v, hu, hstep, hv⟩ := hafter.taken ((patchPhase git.calls p).settles hput) hmissing
  obtain ⟨q, hq, rfl⟩ := List.mem_map.mp hf
  have hmem : q ∈ patches.getD [] := by
    rw [hl]
    exact List.mem_append_right before (List.mem_cons_of_mem p hq)
  have happlied : git.calls.checkReverse q u = false ∧ git.apply q u = some v := by
    rcases yields_applyPatch hstep with ⟨-, rfl⟩ | hput
    · exact absurd hu hv
    · exact hput
  exact ⟨q, hmem, u, v, Git.checkReverse_calls.mp hu, happlied.2, fun hstands =>
    hv (Git.checkReverse_calls.mpr hstands)⟩

end RT7.Kernel
