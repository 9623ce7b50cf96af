import RT7.Base.Killed

/-!
# A source checkout (`prepare_repo` of `scripts/prepare-kernel-source.sh`)

* `Repo`, `Origin`   the pinned commit; what a run finds at the address and at the path of the cache;
* `WorkTree`         a `.git` with its HEAD, and the files beside it;
* `prepareRepo`      one run: `git clone` and `git checkout` create the files one at a time;
* `Complete`         the destination holds every file of the pinned commit;
* `Misleading`       it does not, and HEAD is the pinned commit;
* `Window`, `InWindow`   how far the checkout has come then;
* `yields_prepareRepo`, `stops_prepareRepo`   the two ways in which a run ends;
* `origin_of_misleading`   whose HEAD can mislead: a cache that is at the pinned commit, or the branch;
* `repo_reached`     what any sequence of runs leaves.
-/

namespace RT7.Kernel

open Py Shell

/-- the commit to be checked out, and the files of each commit in the order of a checkout -/
structure Repo (ν : Type) where
  commit : String
  filesOf : String → List (String × ν)

/-- a bare repository: its HEAD, if that has a commit, and the commits it holds -/
structure Cache where
  head : Option String
  has : String → Bool

/-- What a run finds: a cache, or the tip of the branch at the address. -/
structure Origin where
  cache : Option Cache
  tip : String

/-- `head` is there when the directory holds a `.git`; its HEAD can be without a commit. -/
structure WorkTree (ν : Type) where
  head : Option (Option String)
  files : Dict String ν

/-- the HEAD of a clone before its files are there -/
def Origin.head (origin : Origin) : Option String :=
  match origin.cache with
  | some cache => cache.head
  | none => some origin.tip

inductive RepoFailure where
  | revParse
  | unexpectedCommit (actual : String)
  | notEmpty
  | clone
  | checkout
  | wrongCommit (actual : String)
  deriving DecidableEq, Repr

variable {ν : Type}

/-- `git -C "$destination" rev-parse HEAD` -/
def revParse : Shell (WorkTree ν) RepoFailure String :=
  command .revParse fun w => w.head.join.map fun commit => (commit, w)

def writeFile (m : String × ν) (w : WorkTree ν) : WorkTree ν :=
  { w with files := w.files.set m.1 m.2 }

def setHead (head : Option String) (w : WorkTree ν) : WorkTree ν := { w with head := some head }

/-- `git clone --no-checkout --no-hardlinks "$cache" "$destination"` -/
def cloneCache (cache : Cache) : Shell (WorkTree ν) RepoFailure Unit := do
  act .clone fun w => some (setHead none w)
  act .clone fun w => some (setHead cache.head w)

/-- `git -C "$destination" checkout --detach "$commit"`: HEAD moves when the files are there. -/
def checkoutDetach (repo : Repo ν) (cache : Cache) : Shell (WorkTree ν) RepoFailure Unit := do
  act .checkout fun w => if cache.has repo.commit then some w else none
  forEach .checkout writeFile (repo.filesOf repo.commit)
  act .checkout fun w => some (setHead (some repo.commit) w)

/-- `git clone --depth 1 --single-branch --branch "$branch" "$url" "$destination"` -/
def cloneBranch (repo : Repo ν) (tip : String) : Shell (WorkTree ν) RepoFailure Unit := do
  act .clone fun w => some (setHead none w)
  act .clone fun w => some (setHead (some tip) w)
  forEach .clone writeFile (repo.filesOf tip)

def fetch (repo : Repo ν) (origin : Origin) : Shell (WorkTree ν) RepoFailure Unit :=
  match origin.cache with
  | some cache => do
    cloneCache cache
    checkoutDetach repo cache
  | none => cloneBranch repo origin.tip

def prepareRepo (repo : Repo ν) (origin : Origin) : Shell (WorkTree ν) RepoFailure Unit :=
  ifElse (fun w => w.head.isSome)
    (do
      let actual ← revParse
      ifThen (fun _ => actual != repo.commit) (exit (.unexpectedCommit actual)))
    (do
      ifThen (fun w => !w.files.items.isEmpty) (exit .notEmpty)
      fetch repo origin
      let actual ← revParse
      ifThen (fun _ => actual != repo.commit) (exit (.wrongCommit actual)))

namespace Repo

/-- The destination holds every file of the pinned commit. -/
def Complete (repo : Repo ν) (w : WorkTree ν) : Prop := Holds w.files (repo.filesOf repo.commit)

/-- HEAD is that of a complete checkout. -/
def Misleading (repo : Repo ν) (w : WorkTree ν) : Prop :=
  w.head = some (some repo.commit) ∧ ¬ repo.Complete w

/-- what the checkout has created after `k` files -/
def checkedOut (repo : Repo ν) (k : Nat) : Dict String ν :=
  Dict.empty.setAll ((repo.filesOf repo.commit).take k)

/-- After `k` files some of the pinned commit are missing. -/
def Window (repo : Repo ν) (k : Nat) : Prop :=
  ¬ Holds (repo.checkedOut k) (repo.filesOf repo.commit)

/-- HEAD is the pinned commit, and the checkout has not come to the end. -/
def InWindow (repo : Repo ν) (w : WorkTree ν) : Prop :=
  w.head = some (some repo.commit) ∧ ∃ k, w.files = repo.checkedOut k ∧ repo.Window k

/-- Without a `.git` there are no files; beside the pinned HEAD there are some of its own. -/
def Begun (repo : Repo ν) (w : WorkTree ν) : Prop :=
  (w.head = none → w.files = Dict.empty) ∧
    (w.head = some (some repo.commit) → ∃ k, w.files = repo.checkedOut k)

end Repo

/-- no `.git` and no files -/
def freshTree : WorkTree ν := ⟨none, Dict.empty⟩

variable {repo : Repo ν} {origin : Origin} {cache : Cache} {tip : String} {w r t : WorkTree ν}
  {e : RepoFailure}

theorem not_misleading_of_fresh (h : w.head = none) : ¬ repo.Misleading w := by
  intro hmislead
  have hhead := hmislead.1
  rw [h] at hhead
  cases hhead

theorem foldl_writeFile (w : WorkTree ν) (l : List (String × ν)) :
    l.foldl (fun w m => writeFile m w) w = { w with files := w.files.setAll l } := by
  induction l generalizing w with
  | nil => rfl
  | cons m l ih =>
    show l.foldl (fun w m => writeFile m w) (writeFile m w) = _
    rw [ih]
    rfl

theorem yields_revParse {actual : String} (h : Yields revParse w actual t) :
    w.head = some (some actual) ∧ t = w := by
  obtain ⟨commit, hcommit, heq⟩ := Option.map_eq_some_iff.mp h.of_command
  cases heq
  exact ⟨Option.join_eq_some_iff.mp hcommit, rfl⟩

/-! ## cloning -/

theorem yields_cloneCache (h : Yields (cloneCache cache) w () t) : t = setHead cache.head w := by
  obtain ⟨r, hinit, hhead⟩ := h.of_then
  have hr := hinit.of_act_some
  subst hr
  exact hhead.of_act_some

/-- no file yet, and a HEAD without a commit -/
theorem stops_cloneCache (h : Stops (cloneCache cache) w e t) : t = w ∨ t = setHead none w := by
  rcases h.of_then with hinit | ⟨r, hinit, hhead⟩
  · exact Or.inl hinit.of_act.2
  · have hr := hinit.of_act_some
    subst hr
    exact Or.inr hhead.of_act.2

theorem yields_checkoutDetach (h : Yields (checkoutDetach repo cache) w () t) :
    t = ⟨some (some repo.commit), w.files.setAll (repo.filesOf repo.commit)⟩ := by
  obtain ⟨r, hhas, h1⟩ := h.of_then
  obtain ⟨u, hfiles, hhead⟩ := h1.of_then
  have hr := Option.some.inj (Option.ite_none_right_eq_some.mp hhas.of_act).2
  subst hr
  rw [hhead.of_act_some, hfiles.of_forEach, foldl_writeFile]
  rfl

/-- A checkout that is cut off has not moved HEAD. -/
theorem stops_checkoutDetach (h : Stops (checkoutDetach repo cache) w e t) :
    ∃ k, t = { w with files := w.files.setAll ((repo.filesOf repo.commit).take k) } := by
  rcases h.of_then with hhas | ⟨r, hhas, h1⟩
  · exact ⟨0, hhas.of_act.2⟩
  have hr := Option.some.inj (Option.ite_none_right_eq_some.mp hhas.of_act).2
  subst hr
  rcases h1.of_then with hfiles | ⟨u, hfiles, hhead⟩
  · obtain ⟨-, k, -, ht⟩ := hfiles.of_forEach
    exact ⟨k, ht.trans (foldl_writeFile w _)⟩
  · refine ⟨(repo.filesOf repo.commit).length, ?_⟩
    rw [hhead.of_act.2, hfiles.of_forEach, foldl_writeFile, List.take_length]

theorem yields_cloneBranch (h : Yields (cloneBranch repo tip) w () t) :
    t = ⟨some (some tip), w.files.setAll (repo.filesOf tip)⟩ := by
  obtain ⟨r, hinit, h1⟩ := h.of_then
  obtain ⟨u, hhead, hfiles⟩ := h1.of_then
  have hr := hinit.of_act_some
  have hu := hhead.of_act_some
  subst hr hu
  exact hfiles.of_forEach.trans (foldl_writeFile _ _)

/-- `git clone` sets HEAD before it checks the files out. -/
theorem stops_cloneBranch (h : Stops (cloneBranch repo tip) w e t) :
    t = w ∨ t = setHead none w ∨
      ∃ k, t = ⟨some (some tip), w.files.setAll ((repo.filesOf tip).take k)⟩ := by
  rcases h.of_then with hinit | ⟨r, hinit, h1⟩
  · exact Or.inl hinit.of_act.2
  have hr := hinit.of_act_some
  subst hr
  rcases h1.of_then with hhead | ⟨u, hhead, hfiles⟩
  · exact Or.inr (Or.inl hhead.of_act.2)
  have hu := hhead.of_act_some
  subst hu
  obtain ⟨-, k, -, ht⟩ := hfiles.of_forEach
  exact Or.inr (Or.inr ⟨k, ht.trans (foldl_writeFile _ _)⟩)

/-- Whichever way the files came, they are those of the commit that HEAD names. -/
theorem yields_fetch (h : Yields (fetch repo origin) w () t) :
    ∃ commit, t = ⟨some (some commit), w.files.setAll (repo.filesOf commit)⟩ := by
  unfold fetch at h
  cases hcache : origin.cache with
  | some cache =>
    rw [hcache] at h
    obtain ⟨r, hclone, hcheckout⟩ := Yields.of_then h
    have hr := yields_cloneCache hclone
    subst hr
    have ht := yields_checkoutDetach hcheckout
    exact ⟨repo.commit, ht⟩
  | none =>
    rw [hcache] at h
    exact ⟨origin.tip, yields_cloneBranch h⟩

/-- What is cut off leaves the HEAD of the clone and the first files of a commit, of the pinned one if
HEAD names it. -/
theorem stops_fetch (h : Stops (fetch repo origin) w e t) :
    t = w ∨ t = setHead none w ∨
      ∃ commit k, (origin.head = some repo.commit → commit = repo.commit) ∧
        t = ⟨some origin.head, w.files.setAll ((repo.filesOf commit).take k)⟩ := by
  unfold fetch at h
  unfold Origin.head
  cases hcache : origin.cache with
  | some cache =>
    rw [hcache] at h
    rcases Stops.of_then h with hclone | ⟨r, hclone, hcheckout⟩
    · exact (stops_cloneCache hclone).imp_right Or.inl
    · have hr := yields_cloneCache hclone
      subst hr
      obtain ⟨k, ht⟩ := stops_checkoutDetach hcheckout
      exact Or.inr (Or.inr ⟨repo.commit, k, fun _ => rfl, ht⟩)
  | none =>
    rw [hcache] at h
    rcases stops_cloneBranch h with ht | ht | ⟨k, ht⟩
    · exact Or.inl ht
    · exact Or.inr (Or.inl ht)
    · exact Or.inr (Or.inr ⟨origin.tip, k, Option.some.inj, ht⟩)

/-! ## a run -/

/-- A run that ends well found the pinned commit, or has checked all its files out. -/
theorem yields_prepareRepo (h : Yields (prepareRepo repo origin) w () t) :
    (w.head = some (some repo.commit) ∧ t = w) ∨
      t = ⟨some (some repo.commit), Dict.empty.setAll (repo.filesOf repo.commit)⟩ := by
  rcases h.of_ifElse with ⟨-, h0⟩ | ⟨-, h0⟩
  · obtain ⟨actual, r, hrev, hguard⟩ := h0.of_bind
    obtain ⟨hhead, rfl⟩ := yields_revParse hrev
    obtain ⟨hsame, ht⟩ := hguard.of_guard
    rw [bne_eq_false_iff_eq] at hsame
    subst hsame
    exact Or.inl ⟨hhead, ht⟩
  · obtain ⟨r, hguard, h1⟩ := h0.of_then
    obtain ⟨u, hfetch, h2⟩ := h1.of_then
    obtain ⟨actual, v, hrev, hguard'⟩ := h2.of_bind
    obtain ⟨hempty, rfl⟩ := hguard.of_guard
    obtain ⟨commit, hu⟩ := yields_fetch hfetch
    obtain ⟨hhead, rfl⟩ := yields_revParse hrev
    obtain ⟨hsame, rfl⟩ := hguard'.of_guard
    rw [bne_eq_false_iff_eq] at hsame
    subst hu hsame
    injection hhead with hhead
    injection hhead with hhead
    rw [hhead, eq_empty_of_isEmpty hempty]
    exact Or.inr rfl

theorem complete_of_checkedOut (head : Option (Option String)) :
    repo.Complete ⟨head, Dict.empty.setAll (repo.filesOf repo.commit)⟩ := holds_setAll _

/-- A run that stops: before anything is there, without a commit, in a checkout, or behind it. -/
theorem stops_prepareRepo (h : Stops (prepareRepo repo origin) w e t) :
    t = w ∨ t = setHead none w ∨
      (∃ commit k, (origin.head = some repo.commit → commit = repo.commit) ∧
        t = ⟨some origin.head, Dict.empty.setAll ((repo.filesOf commit).take k)⟩) ∨
      ∃ commit, t = ⟨some (some commit), Dict.empty.setAll (repo.filesOf commit)⟩ := by
  rcases h.of_ifElse with ⟨-, h0⟩ | ⟨-, h0⟩
  · rcases h0.of_bind with hrev | ⟨actual, r, hrev, hguard⟩
    · exact Or.inl hrev.of_command.2
    · obtain ⟨-, rfl⟩ := yields_revParse hrev
      exact Or.inl hguard.of_guard.2.2
  · rcases h0.of_then with hguard | ⟨r, hguard, h1⟩
    · exact Or.inl hguard.of_guard.2.2
    obtain ⟨hempty, rfl⟩ := hguard.of_guard
    rcases h1.of_then with hfetch | ⟨u, hfetch, h2⟩
    · rw [← eq_empty_of_isEmpty hempty]
      exact (stops_fetch hfetch).imp_right fun hrest => hrest.imp_right Or.inl
    · obtain ⟨commit, hu⟩ := yields_fetch hfetch
      have htu : t = u := by
        rcases h2.of_bind with hrev | ⟨actual, v, hrev, hguard'⟩
        · exact hrev.of_command.2
        · obtain ⟨-, rfl⟩ := yields_revParse hrev
          exact hguard'.of_guard.2.2
      rw [← eq_empty_of_isEmpty hempty]
      exact Or.inr (Or.inr (Or.inr ⟨commit, htu.trans hu⟩))

/-- HEAD alone ends a run. -/
theorem prepareRepo_again (h : w.head = some (some repo.commit)) :
    ∃ k, (prepareRepo repo origin).undisturbed w = .done () k w := by
  have hdir : w.head.isSome = true := by rw [h]; rfl
  have hguard : ifThen (fun _ : WorkTree ν => repo.commit != repo.commit)
      (exit (RepoFailure.unexpectedCommit repo.commit)) (fun _ => false) 1 w = .done () 1 w := by
    apply ifThen_of_false
    show (repo.commit != repo.commit) = false
    rw [bne_self_eq_false]
  have hrev : revParse (fun _ => false) 0 w = .done repo.commit 1 w :=
    command_eq_done.mpr ⟨rfl, by rw [h]; rfl, rfl⟩
  refine ⟨1, ?_⟩
  show prepareRepo repo origin (fun _ => false) 0 w = _
  unfold prepareRepo ifElse
  rw [if_pos hdir]
  exact bind_eq_done.mpr ⟨repo.commit, 1, w, hrev, hguard⟩

/-- Only a clone whose HEAD is at the pinned commit from the start can mislead. -/
theorem origin_of_misleading (h : Stops (prepareRepo repo origin) w e t)
    (hw : ¬ repo.Misleading w) (ht : repo.Misleading t) : origin.head = some repo.commit := by
  rcases stops_prepareRepo h with rfl | rfl | ⟨commit, k, -, rfl⟩ | ⟨commit, rfl⟩
  · exact absurd ht hw
  · cases ht.1
  · exact Option.some.inj ht.1
  · have hcommit : commit = repo.commit := Option.some.inj (Option.some.inj ht.1)
    rw [hcommit] at ht
    exact absurd (complete_of_checkedOut _) ht.2

/-! ## sequences of runs -/

theorem begun_of_stops (h : Stops (prepareRepo repo origin) w e t) (hw : repo.Begun w) :
    repo.Begun t := by
  rcases stops_prepareRepo h with rfl | rfl | ⟨commit, k, hcommit, rfl⟩ | ⟨commit, rfl⟩
  · exact hw
  · refine ⟨fun hhead => ?_, fun hhead => ?_⟩
    · cases hhead
    · cases hhead
  · refine ⟨fun hhead => ?_, fun hhead => ⟨k, ?_⟩⟩
    · cases hhead
    · show Dict.empty.setAll ((repo.filesOf commit).take k) = _
      rw [hcommit (Option.some.inj hhead)]
      rfl
  · refine ⟨fun hhead => ?_, fun hhead => ⟨(repo.filesOf repo.commit).length, ?_⟩⟩
    · cases hhead
    · have hcommit : commit = repo.commit := Option.some.inj (Option.some.inj hhead)
      unfold Repo.checkedOut
      rw [List.take_length, hcommit]

/-- Whatever the runs were and wherever they were killed. -/
theorem repo_reached (h : Runs (prepareRepo repo) (fun _ => True) freshTree w) : repo.Begun w := by
  induction h with
  | start =>
    refine ⟨fun _ => rfl, fun hhead => ?_⟩
    cases hhead
  | @run w before origin fails n clear ih =>
    cases hrun : prepareRepo repo origin fails n w with
    | done u k t =>
      rcases yields_prepareRepo ⟨fails, n, k, hrun⟩ with ⟨-, rfl⟩ | rfl
      · exact ih
      · refine ⟨fun hhead => ?_, fun _ => ⟨(repo.filesOf repo.commit).length, ?_⟩⟩
        · cases hhead
        · unfold Repo.checkedOut
          rw [List.take_length]
          rfl
    | stopped e t => exact begun_of_stops ⟨fails, n, hrun⟩ ih

theorem Repo.InWindow.misleading (h : repo.InWindow w) : repo.Misleading w := by
  obtain ⟨hhead, k, hfiles, hmissing⟩ := h
  unfold Repo.Window at hmissing
  rw [← hfiles] at hmissing
  exact ⟨hhead, hmissing⟩

theorem Repo.Misleading.inWindow (h : repo.Begun w) (hw : repo.Misleading w) : repo.InWindow w := by
  obtain ⟨k, hfiles⟩ := h.2 hw.1
  refine ⟨hw.1, k, hfiles, ?_⟩
  show ¬ Holds (repo.checkedOut k) _
  rw [← hfiles]
  exact hw.2

end RT7.Kernel
