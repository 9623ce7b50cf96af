import RT7.Base.Bytes
import RT7.Base.Once
import RT7.Base.Python

/-!
# The Android boot tools (`scripts/prepare-android-boot-tools.sh`)

* `Programs W A`     what git and the fetched tools do in a directory `W`, given the answers `A` of a
  server; `Programs.Reads`, `Programs.Clones`, `Programs.HasTools`: what is assumed of them;
* `Alike`            two states of a directory in which git sees the same;
* `prepareRepo`      one repository; unlike the kernel's it compares the index and the files as well;
* `prepareTools`     the script: both repositories, and a call of each tool;
* `Prepared`, `Ready`   git sees the pinned commit and no difference; nothing is there yet, or that;
* `bootTools_exact`  when a run can end well, and what it leaves.
-/

namespace RT7.Kernel.BootTools

open Shell

/-- git and python, and the two tests of the script, in a directory. A program may leave something
behind in it; `clone` is the list of its writes. -/
structure Programs (W A : Type) where
  /-- `[ -d "$destination/.git" ]` -/
  isRepository : W → Bool
  /-- it is not there, or `ls -A` lists nothing -/
  isEmpty : W → Bool
  /-- `git rev-parse HEAD` -/
  revParse : W → Option (String × W)
  /-- `git diff --quiet` -/
  diff : W → Bool × W
  /-- `git diff --cached --quiet` -/
  diffCached : W → Bool × W
  /-- `git clone --depth 1 --branch "$ref" "$url" "$destination"` -/
  clone : A → W → List (W → Option W)
  /-- `python3` with a tool of the directory -/
  runTool : String → W → Bool × W

inductive Failure where
  | revParse
  | unexpectedCommit (actual : String)
  | localChanges
  | notEmpty
  | mkdir
  | clone
  | wrongCommit (actual : String)
  | tool (path : String)
  deriving DecidableEq, Repr

variable {W A : Type} (g : Programs W A)

/-- each write of `git clone` may be its last -/
def clone (answer : A) : Shell W Failure Unit := fun fails n w =>
  inSequence ((g.clone answer w).map (act .clone)) fails n w

/-- a program that has to end well -/
def require (e : Failure) (program : W → Bool × W) : Shell W Failure Unit := do
  let ok ← command e fun w => some (program w)
  ifThen (fun _ => !ok) (exit e)

def prepareRepo (commit : String) (answer : A) : Shell W Failure Unit :=
  ifElse g.isRepository
    (do
      let actual ← command .revParse g.revParse
      ifThen (fun _ => actual != commit) (exit (.unexpectedCommit actual))
      require .localChanges g.diff
      require .localChanges g.diffCached)
    (do
      ifThen (fun w => !g.isEmpty w) (exit .notEmpty)
      act .mkdir some
      clone g answer
      let actual ← command .revParse g.revParse
      ifThen (fun _ => actual != commit) (exit (.wrongCommit actual)))

/-- the two directories under `$tools_root` -/
structure ToolsRoot (W : Type) where
  mkbootimg : W
  avb : W

def ToolsRoot.lensMkbootimg : Lens (ToolsRoot W) W where
  get := ToolsRoot.mkbootimg
  set u s := { s with mkbootimg := u }
  get_set _ _ := rfl
  set_get _ := rfl

def ToolsRoot.lensAvb : Lens (ToolsRoot W) W where
  get := ToolsRoot.avb
  set u s := { s with avb := u }
  get_set _ _ := rfl
  set_get _ := rfl

def runTool (path : String) : Shell W Failure Unit := require (.tool path) (g.runTool path)

def commitMkbootimg : String := "6cb944b82c819b691bc21d8228e155f1db07a446"

def commitAvb : String := "8261ecd67956f6e9647ff5fd4aeb829f75fb3f66"

/-- `answers` are those of the servers of the two repositories. -/
def prepareTools (answers : A × A) : Shell (ToolsRoot W) Failure Unit := do
  within ToolsRoot.lensMkbootimg (prepareRepo g commitMkbootimg answers.1)
  within ToolsRoot.lensAvb (prepareRepo g commitAvb answers.2)
  within ToolsRoot.lensMkbootimg (runTool g "unpack_bootimg.py")
  within ToolsRoot.lensMkbootimg (runTool g "mkbootimg.py")
  within ToolsRoot.lensAvb (runTool g "avbtool.py")

/-! ## what is assumed of git and of the tools -/

/-- Git sees the same in both, and so do the tests of the script. -/
structure Alike (w w' : W) : Prop where
  isRepository : g.isRepository w' = g.isRepository w
  isEmpty : g.isEmpty w' = g.isEmpty w
  head : (g.revParse w').map Prod.fst = (g.revParse w).map Prod.fst
  diff : (g.diff w').1 = (g.diff w).1
  diffCached : (g.diffCached w').1 = (g.diffCached w).1

/-- HEAD is the pinned commit, and git sees no difference between it, the index and the files. -/
structure Prepared (commit : String) (w : W) : Prop where
  isRepository : g.isRepository w = true
  head : (g.revParse w).map Prod.fst = some commit
  diff : (g.diff w).1 = true
  diffCached : (g.diffCached w).1 = true

/-- Nothing is there, or everything. -/
def Ready (commit : String) (w : W) : Prop :=
  (g.isRepository w = false ∧ g.isEmpty w = true) ∨ Prepared g commit w

namespace Programs

/-- The commands that only look, and the tools with `--help` and `version`, change nothing that git
compares: an index that is refreshed and files that are not tracked do not count. -/
structure Reads (g : Programs W A) : Prop where
  revParse : ∀ w commit w', g.revParse w = some (commit, w') → Alike g w w'
  diff : ∀ w, Alike g w (g.diff w).2
  diffCached : ∀ w, Alike g w (g.diffCached w).2
  runTool : ∀ path w, Alike g w (g.runTool path w).2

/-- A clone into an empty directory that ends well is at the tip of the server, without a
difference; where there is a tip it can end well. -/
structure Clones (g : Programs W A) (tip : A → Option String) : Prop where
  complete : ∀ answer w t, g.isRepository w = false → g.isEmpty w = true →
    (g.clone answer w).foldlM (fun w write => write w) w = some t →
      ∃ commit, tip answer = some commit ∧ Prepared g commit t
  possible : ∀ answer w commit, g.isRepository w = false → g.isEmpty w = true →
    tip answer = some commit → ∃ t, (g.clone answer w).foldlM (fun w write => write w) w = some t

/-- The tools of the pinned commits work. -/
structure HasTools (g : Programs W A) : Prop where
  mkbootimg : ∀ path ∈ ["unpack_bootimg.py", "mkbootimg.py"], ∀ w, Prepared g commitMkbootimg w →
    (g.runTool path w).1 = true
  avb : ∀ w, Prepared g commitAvb w → (g.runTool "avbtool.py" w).1 = true

end Programs

variable {g} {tip : A → Option String} {answer : A} {commit path : String} {w w' r t : W} {e : Failure}

theorem Alike.refl (g : Programs W A) (w : W) : Alike g w w := ⟨rfl, rfl, rfl, rfl, rfl⟩

theorem Alike.trans (h : Alike g w w') (h' : Alike g w' t) : Alike g w t where
  isRepository := h'.isRepository.trans h.isRepository
  isEmpty := h'.isEmpty.trans h.isEmpty
  head := h'.head.trans h.head
  diff := h'.diff.trans h.diff
  diffCached := h'.diffCached.trans h.diffCached

theorem Alike.prepared_iff (h : Alike g w w') : Prepared g commit w' ↔ Prepared g commit w := by
  constructor
  · intro hp
    exact ⟨h.isRepository ▸ hp.isRepository, h.head ▸ hp.head, h.diff ▸ hp.diff,
      h.diffCached ▸ hp.diffCached⟩
  · intro hp
    exact ⟨h.isRepository.trans hp.isRepository, h.head.trans hp.head, h.diff.trans hp.diff,
      h.diffCached.trans hp.diffCached⟩

theorem Alike.ready_iff (h : Alike g w w') : Ready g commit w' ↔ Ready g commit w := by
  rw [Ready, Ready, h.prepared_iff, h.isRepository, h.isEmpty]

/-! ## one repository -/

theorem yields_inSequence {writes : List (W → Option W)}
    (h : Yields (inSequence (writes.map (act Failure.clone))) w () t) :
    writes.foldlM (fun w write => write w) w = some t := by
  induction writes generalizing w with
  | nil =>
    rw [h.of_pure.2]
    rfl
  | cons write writes ih =>
    obtain ⟨r, hfirst, hrest⟩ := h.of_then
    rw [List.foldlM_cons, hfirst.of_act]
    exact ih hrest

theorem goes_inSequence {writes : List (W → Option W)}
    (h : writes.foldlM (fun w write => write w) w = some t) :
    Goes (inSequence (writes.map (act Failure.clone))) w () t := by
  induction writes generalizing w with
  | nil =>
    have ht : w = t := Option.some.inj h
    rw [ht]
    exact goes_pure () t
  | cons write writes ih =>
    rw [List.foldlM_cons] at h
    obtain ⟨r, hfirst, hrest⟩ := Option.bind_eq_some_iff.mp h
    exact Goes.bind (goes_act hfirst) (ih hrest)

theorem yields_revParse (hreads : g.Reads) {actual : String}
    (h : Yields (command Failure.revParse g.revParse) w actual t) :
    Alike g w t ∧ (g.revParse w).map Prod.fst = some actual := by
  have hrev := h.of_command
  refine ⟨hreads.revParse w actual t hrev, ?_⟩
  rw [hrev]
  rfl

section
variable {program : W → Bool × W}

theorem yields_require (h : Yields (require e program) w () t) :
    t = (program w).2 ∧ (program w).1 = true := by
  obtain ⟨ok, r, hcommand, hguard⟩ := h.of_bind
  have hprogram := Option.some.inj hcommand.of_command
  obtain ⟨hok, rfl⟩ := hguard.of_guard
  rw [hprogram]
  exact ⟨rfl, by simpa using hok⟩

theorem stops_require {e' : Failure} (h : Stops (require e program) w e' t) :
    t = w ∨ t = (program w).2 := by
  rcases h.of_bind with hcommand | ⟨ok, r, hcommand, hguard⟩
  · exact Or.inl hcommand.of_command.2
  · rw [hguard.of_guard.2.2, Option.some.inj hcommand.of_command]
    exact Or.inr rfl

theorem goes_require (h : (program w).1 = true) : Goes (require e program) w () (program w).2 := by
  refine Goes.bind (a := true) (r := (program w).2) (goes_command ?_) (goes_skip rfl)
  rw [← h]

end

/-- A run that ends well has found the pinned commit, or has cloned it. -/
theorem yields_prepareRepo (hreads : g.Reads) (hclones : g.Clones tip)
    (h : Yields (prepareRepo g commit answer) w () t) :
    (Prepared g commit w ∧ Alike g w t) ∨
      (g.isRepository w = false ∧ g.isEmpty w = true ∧ Prepared g commit t) := by
  rcases h.of_ifElse with ⟨hdir, h0⟩ | ⟨hdir, h0⟩
  · obtain ⟨actual, r, hrev, h1⟩ := h0.of_bind
    obtain ⟨hr, hhead⟩ := yields_revParse hreads hrev
    obtain ⟨u, hguard, h2⟩ := h1.of_then
    obtain ⟨hsame, rfl⟩ := hguard.of_guard
    rw [bne_eq_false_iff_eq.mp hsame] at hhead
    obtain ⟨v, hdiff, hcached⟩ := h2.of_then
    obtain ⟨rfl, hclean⟩ := yields_require hdiff
    obtain ⟨rfl, hstaged⟩ := yields_require hcached
    have hv := hr.trans (hreads.diff _)
    refine Or.inl ⟨⟨hdir, hhead, hr.diff ▸ hclean, hv.diffCached ▸ hstaged⟩,
      hv.trans (hreads.diffCached _)⟩
  · obtain ⟨r, hguard, h1⟩ := h0.of_then
    obtain ⟨hempty, rfl⟩ := hguard.of_guard
    have hempty : g.isEmpty r = true := by simpa using hempty
    obtain ⟨u, hmkdir, h2⟩ := h1.of_then
    cases hmkdir.of_act
    obtain ⟨v, ⟨fails, n, k, hclone⟩, h3⟩ := h2.of_then
    obtain ⟨actual, x, hrev, hcheck⟩ := h3.of_bind
    obtain ⟨hx, hhead⟩ := yields_revParse hreads hrev
    obtain ⟨hsame, rfl⟩ := hcheck.of_guard
    rw [bne_eq_false_iff_eq.mp hsame] at hhead
    obtain ⟨cloned, -, hprepared⟩ :=
      hclones.complete answer r v hdir hempty (yields_inSequence ⟨fails, n, k, hclone⟩)
    have hcommit : cloned = commit := Option.some.inj (hprepared.head.symm.trans hhead)
    exact Or.inr ⟨hdir, hempty, hx.prepared_iff.mpr (hcommit ▸ hprepared)⟩

theorem goes_revParse (hreads : g.Reads) (h : (g.revParse w).map Prod.fst = some commit) :
    ∃ r, Goes (command Failure.revParse g.revParse) w commit r ∧ Alike g w r := by
  obtain ⟨⟨actual, r⟩, hrev, rfl⟩ := Option.map_eq_some_iff.mp h
  exact ⟨r, goes_command hrev, hreads.revParse w actual r hrev⟩

theorem goes_prepareRepo (hreads : g.Reads) (hclones : g.Clones tip) (htip : tip answer = some commit)
    (h : Ready g commit w) :
    ∃ t, Goes (prepareRepo g commit answer) w () t ∧ Prepared g commit t := by
  rcases h with ⟨hdir, hempty⟩ | h
  · obtain ⟨v, hv⟩ := hclones.possible answer w commit hdir hempty htip
    obtain ⟨cloned, hcloned, hprepared⟩ := hclones.complete answer w v hdir hempty hv
    have hcommit : cloned = commit := Option.some.inj (hcloned.symm.trans htip)
    rw [hcommit] at hprepared
    obtain ⟨t, hrev, ht⟩ := goes_revParse hreads hprepared.head
    have hguard : (!g.isEmpty w) = false := by
      rw [hempty]
      rfl
    have hclone : Goes (clone g answer) w () v := goes_inSequence hv
    refine ⟨t, goes_else hdir ?_, ht.prepared_iff.mpr hprepared⟩
    refine Goes.bind (goes_skip hguard) ?_
    refine Goes.bind (goes_act rfl) ?_
    refine Goes.bind hclone ?_
    exact Goes.bind hrev (goes_skip (bne_self_eq_false commit))
  · obtain ⟨r, hrev, hr⟩ := goes_revParse hreads h.head
    have hr' := hr.prepared_iff.mpr h
    have hv := hreads.diff r
    have hv' := hv.prepared_iff.mpr hr'
    refine ⟨_, goes_then h.isRepository (Goes.bind hrev ?_),
      (hreads.diffCached _).prepared_iff.mpr hv'⟩
    refine Goes.bind (goes_skip (bne_self_eq_false commit)) ?_
    exact Goes.bind (goes_require hr'.diff) (goes_require hv'.diffCached)

/-- What was left half done stays so, as git sees it, and no run ends well. -/
theorem refuses_prepareRepo (hreads : g.Reads) (hclones : g.Clones tip) (h : ¬ Ready g commit w) :
    ¬ Yields (prepareRepo g commit answer) w () t ∧
      (Stops (prepareRepo g commit answer) w e t → Alike g w t) := by
  refine ⟨fun hrun => ?_, fun hrun => ?_⟩
  · rcases yields_prepareRepo hreads hclones hrun with ⟨hprepared, -⟩ | ⟨hdir, hempty, -⟩
    · exact h (Or.inr hprepared)
    · exact h (Or.inl ⟨hdir, hempty⟩)
  · rcases hrun.of_ifElse with ⟨-, h0⟩ | ⟨hdir, h0⟩
    · rcases h0.of_bind with hrev | ⟨actual, r, hrev, h1⟩
      · rw [hrev.of_command.2]
        exact Alike.refl g w
      have hr := (yields_revParse hreads hrev).1
      rcases h1.of_then with hguard | ⟨u, hguard, h2⟩
      · rw [hguard.of_guard.2.2]
        exact hr
      obtain ⟨-, rfl⟩ := hguard.of_guard
      rcases h2.of_then with hdiff | ⟨v, hdiff, hcached⟩
      · rcases stops_require hdiff with rfl | rfl
        · exact hr
        · exact hr.trans (hreads.diff _)
      obtain ⟨rfl, -⟩ := yields_require hdiff
      have hv := hr.trans (hreads.diff _)
      rcases stops_require hcached with rfl | rfl
      · exact hv
      · exact hv.trans (hreads.diffCached _)
    · rcases h0.of_then with hguard | ⟨u, hguard, -⟩
      · rw [hguard.of_guard.2.2]
        exact Alike.refl g w
      · obtain ⟨hempty, -⟩ := hguard.of_guard
        exact absurd (Or.inl ⟨hdir, by simpa using hempty⟩) h

/-! ## both repositories -/

/-- Both directories are as `P` says of the pinned commit. -/
def Both (P : String → W → Prop) (s : ToolsRoot W) : Prop :=
  P commitMkbootimg s.mkbootimg ∧ P commitAvb s.avb

/-- In a repository that was there git sees the same. -/
def Keeps (g : Programs W A) (s t : ToolsRoot W) : Prop :=
  (g.isRepository s.mkbootimg = true → Alike g s.mkbootimg t.mkbootimg) ∧
    (g.isRepository s.avb = true → Alike g s.avb t.avb)

variable {answers : A × A} {s s' u : ToolsRoot W}

/-- A run that ends well has gone through both, and the tools have changed nothing then. -/
theorem yields_prepareTools (hreads : g.Reads) (h : Yields (prepareTools g answers) s () u) :
    ∃ v : ToolsRoot W, Yields (prepareRepo g commitMkbootimg answers.1) s.mkbootimg () v.mkbootimg ∧
      Yields (prepareRepo g commitAvb answers.2) s.avb () v.avb ∧
      Alike g v.mkbootimg u.mkbootimg ∧ Alike g v.avb u.avb := by
  obtain ⟨r, hmkbootimg, h1⟩ := h.of_then
  obtain ⟨v, havb, h2⟩ := h1.of_then
  obtain ⟨w, hunpack, h3⟩ := h2.of_then
  obtain ⟨y, hmake, hversion⟩ := h3.of_then
  obtain ⟨hfirst, hr⟩ := hmkbootimg.of_within
  obtain ⟨hsecond, hv⟩ := havb.of_within
  rw [hr] at hsecond hv
  obtain ⟨htool, hw⟩ := hunpack.of_within
  obtain ⟨htool', hy⟩ := hmake.of_within
  obtain ⟨htool'', hu⟩ := hversion.of_within
  have hmk : Alike g v.mkbootimg w.mkbootimg := by
    have heq : w.mkbootimg = _ := (yields_require htool).1
    rw [heq]
    exact hreads.runTool _ _
  have hmk' : Alike g w.mkbootimg y.mkbootimg := by
    have heq : y.mkbootimg = _ := (yields_require htool').1
    rw [heq]
    exact hreads.runTool _ _
  have havb' : Alike g y.avb u.avb := by
    have heq : u.avb = _ := (yields_require htool'').1
    rw [heq]
    exact hreads.runTool _ _
  refine ⟨v, ?_, hsecond, ?_, ?_⟩
  · rw [hv]
    exact hfirst
  · rw [hu]
    exact hmk.trans hmk'
  · have heq : y.avb = v.avb := by
      rw [hy, hw]
      rfl
    exact heq ▸ havb'

theorem ready_of_yields (hreads : g.Reads) (hclones : g.Clones tip)
    (h : Yields (prepareRepo g commit answer) w () t) : Ready g commit w :=
  by_contra fun hn => (refuses_prepareRepo (e := .mkdir) hreads hclones hn).1 h

theorem prepared_of_yields (hreads : g.Reads) (hclones : g.Clones tip)
    (h : Yields (prepareRepo g commit answer) w () t) :
    Prepared g commit t ∧ (g.isRepository w = true → Alike g w t) := by
  rcases yields_prepareRepo hreads hclones h with ⟨hprepared, halike⟩ | ⟨hdir, -, hprepared⟩
  · exact ⟨halike.prepared_iff.mpr hprepared, fun _ => halike⟩
  · refine ⟨hprepared, fun hrepository => ?_⟩
    rw [hdir] at hrepository
    cases hrepository

theorem goes_prepareTools (hreads : g.Reads) (hclones : g.Clones tip) (htools : g.HasTools)
    (htip : tip answers.1 = some commitMkbootimg ∧ tip answers.2 = some commitAvb)
    (h : Both (Ready g) s) : ∃ u, Goes (prepareTools g answers) s () u := by
  obtain ⟨v, hv, hprepared⟩ := goes_prepareRepo hreads hclones htip.1 h.1
  obtain ⟨w, hw, hprepared'⟩ := goes_prepareRepo hreads hclones htip.2 h.2
  have htool := htools.mkbootimg "unpack_bootimg.py" List.mem_cons_self v hprepared
  have hprepared'' := (hreads.runTool "unpack_bootimg.py" v).prepared_iff.mpr hprepared
  have htool' := htools.mkbootimg "mkbootimg.py" (List.mem_cons_of_mem _ List.mem_cons_self) _
    hprepared''
  refine ⟨⟨(g.runTool "mkbootimg.py" (g.runTool "unpack_bootimg.py" v).2).2,
    (g.runTool "avbtool.py" w).2⟩, ?_⟩
  refine Goes.bind (r := ⟨v, s.avb⟩) (Goes.within hv) ?_
  refine Goes.bind (r := ⟨v, w⟩) (Goes.within hw) ?_
  refine Goes.bind (r := ⟨(g.runTool "unpack_bootimg.py" v).2, w⟩) (Goes.within (goes_require htool)) ?_
  refine Goes.bind (r := ⟨(g.runTool "mkbootimg.py" (g.runTool "unpack_bootimg.py" v).2).2, w⟩)
    (Goes.within (goes_require htool')) ?_
  exact Goes.within (goes_require (htools.avb w hprepared'))

/-- No run gets beyond a repository that is neither empty nor complete. -/
theorem not_ready_state (hreads : g.Reads) (hclones : g.Clones tip) (h : ¬ Both (Ready g) s)
    (fails : Nat → Bool) (n : Nat) : ¬ Both (Ready g) (prepareTools g answers fails n s).state := by
  cases hrun : prepareTools g answers fails n s with
  | done _ k u =>
    obtain ⟨v, hfirst, hsecond, -⟩ := yields_prepareTools hreads ⟨fails, n, k, hrun⟩
    exact absurd ⟨ready_of_yields hreads hclones hfirst, ready_of_yields hreads hclones hsecond⟩ h
  | stopped e u =>
    show ¬ Both (Ready g) u
    have hstop : Stops (prepareTools g answers) s e u := ⟨fails, n, hrun⟩
    rcases hstop.of_then with hmkbootimg | ⟨r, hmkbootimg, h1⟩
    · obtain ⟨hfirst, hu⟩ := hmkbootimg.of_within
      have havb : u.avb = s.avb := by
        rw [hu]
        rfl
      rintro ⟨hready, hready'⟩
      by_cases hs : Ready g commitMkbootimg s.mkbootimg
      · exact h ⟨hs, havb ▸ hready'⟩
      · have halike := (refuses_prepareRepo (t := u.mkbootimg) hreads hclones hs).2 hfirst
        exact hs (halike.ready_iff.mp hready)
    · obtain ⟨hfirst, hr⟩ := hmkbootimg.of_within
      have havb : r.avb = s.avb := by
        rw [hr]
        rfl
      have hs : ¬ Ready g commitAvb r.avb := by
        rw [havb]
        exact fun hready => h ⟨ready_of_yields hreads hclones hfirst, hready⟩
      rcases h1.of_then with hstop' | ⟨v, hyields, -⟩
      · have halike := (refuses_prepareRepo (t := u.avb) hreads hclones hs).2 hstop'.of_within.1
        exact fun hready => hs (halike.ready_iff.mp hready.2)
      · exact absurd hyields.of_within.1 (refuses_prepareRepo (e := .mkdir) hreads hclones hs).1

theorem not_ready_runs (hreads : g.Reads) (hclones : g.Clones tip) (h : ¬ Both (Ready g) s)
    (hruns : Runs (prepareTools g) (fun _ => True) s s') : ¬ Both (Ready g) s' := by
  induction hruns with
  | start => exact h
  | run before i fails n clear ih => exact not_ready_state hreads hclones ih fails n

/-- **The script that is not misled**: from whatever earlier runs have left, a run that ends well leaves
both pinned trees, it can end well only where each directory is empty or complete, and there it does
when nothing disturbs it. -/
theorem bootTools_exact (g : Programs W A) (tip : A → Option String) (hreads : g.Reads)
    (hclones : g.Clones tip) (htools : g.HasTools) :
    (∀ answers s u, Yields (prepareTools g answers) s () u →
        Both (Prepared g) u ∧ Keeps g s u ∧ Both (Ready g) s) ∧
      (∀ answers s, tip answers.1 = some commitMkbootimg → tip answers.2 = some commitAvb →
        Both (Ready g) s → ∃ u, Goes (prepareTools g answers) s () u) ∧
      ∀ s s', ¬ Both (Ready g) s → Runs (prepareTools g) (fun _ => True) s s' →
        ∀ answers u, ¬ Yields (prepareTools g answers) s' () u := by
  have hready : ∀ answers s u, Yields (prepareTools g answers) s () u → Both (Ready g) s := by
    intro answers s u h
    obtain ⟨v, hfirst, hsecond, -⟩ := yields_prepareTools hreads h
    exact ⟨ready_of_yields hreads hclones hfirst, ready_of_yields hreads hclones hsecond⟩
  refine ⟨fun answers s u h => ?_, fun answers s htip htip' h => ?_, fun s s' h hruns answers u hrun => ?_⟩
  · obtain ⟨v, hfirst, hsecond, hmk, havb⟩ := yields_prepareTools hreads h
    obtain ⟨h1, h1'⟩ := prepared_of_yields hreads hclones hfirst
    obtain ⟨h2, h2'⟩ := prepared_of_yields hreads hclones hsecond
    exact ⟨⟨hmk.prepared_iff.mpr h1, havb.prepared_iff.mpr h2⟩,
      ⟨fun hs => (h1' hs).trans hmk, fun hs => (h2' hs).trans havb⟩, hready answers s u h⟩
  · exact goes_prepareTools hreads hclones htools ⟨htip, htip'⟩ h
  · exact not_ready_runs hreads hclones h hruns (hready answers s' u hrun)

/-! ## a clone that is killed -/

/-- A directory with the HEAD and the index of its `.git`; HEAD is without a commit at first. -/
structure GitTree where
  head : Option (Option String)
  index : List (String × Bytes)
  files : List (String × Bytes)
  untracked : List String

def sampleTree (commit : String) : List (String × Bytes) :=
  if commit = commitMkbootimg then [("mkbootimg.py", [1]), ("unpack_bootimg.py", [2])]
  else if commit = commitAvb then [("avbtool.py", [3]), ("libavb/avb.h", [4])]
  else []

/-- `clone` sets HEAD first, creates the files, and writes the index behind them. -/
def sampleGit : Programs GitTree String where
  isRepository w := w.head.isSome
  isEmpty w := w.head.isNone && w.files.isEmpty && w.untracked.isEmpty
  revParse w := w.head.join.map fun commit => (commit, w)
  diff w := (w.index.all fun p => w.files.lookup p.1 == some p.2, w)
  diffCached w := (w.index == (w.head.join.map sampleTree).getD [], w)
  clone tip _ :=
    [fun w => some { w with head := some none }, fun w => some { w with head := some (some tip) }] ++
      (sampleTree tip).map (fun file w => some { w with files := w.files ++ [file] }) ++
      [fun w => some { w with index := sampleTree tip }]
  runTool path w :=
    if w.files.any fun file => file.1 == path then
      (true, { w with untracked := "__pycache__" :: w.untracked })
    else (false, w)

theorem sampleGit_reads : sampleGit.Reads where
  revParse w commit w' h := by
    obtain ⟨actual, -, heq⟩ := Option.map_eq_some_iff.mp h
    cases heq
    exact Alike.refl _ _
  diff w := Alike.refl _ w
  diffCached w := Alike.refl _ w
  runTool path w := by
    show Alike sampleGit w (if w.files.any fun file => file.1 == path then
      (true, { w with untracked := "__pycache__" :: w.untracked }) else (false, w)).2
    by_cases hpath : (w.files.any fun file => file.1 == path) = true
    · rw [if_pos hpath]
      have hempty : w.files.isEmpty = false := by
        cases hfiles : w.files with
        | nil =>
          rw [hfiles] at hpath
          cases hpath
        | cons file files => rfl
      refine ⟨rfl, ?_, ?_, rfl, rfl⟩
      · show (w.head.isNone && w.files.isEmpty && false)
          = (w.head.isNone && w.files.isEmpty && w.untracked.isEmpty)
        rw [hempty, Bool.and_false, Bool.and_false, Bool.false_and]
      · show (Option.map _ w.head.join).map Prod.fst = (Option.map _ w.head.join).map Prod.fst
        rw [Option.map_map, Option.map_map]
        rfl
    · rw [if_neg hpath]
      exact Alike.refl _ _

theorem foldlM_files (l : List (String × Bytes)) (w : GitTree) :
    (l.map fun file (w : GitTree) => some { w with files := w.files ++ [file] }).foldlM
      (fun w write => write w) w = some { w with files := w.files ++ l } := by
  induction l generalizing w with
  | nil =>
    rw [List.append_nil]
    rfl
  | cons file l ih =>
    rw [List.map_cons, List.foldlM_cons]
    refine (ih { w with files := w.files ++ [file] }).trans ?_
    rw [List.append_assoc]
    rfl

theorem sampleGit_clone (tip : String) (w : GitTree) :
    (sampleGit.clone tip w).foldlM (fun w write => write w) w = some
      { w with head := some (some tip), index := sampleTree tip, files := w.files ++ sampleTree tip } := by
  show (([_, _] : List (GitTree → Option GitTree)) ++ _ ++ [_]).foldlM _ w = _
  rw [List.foldlM_append, List.foldlM_append]
  show ((sampleTree tip).map _).foldlM _ _ >>= _ = _
  rw [foldlM_files]
  rfl

theorem sampleTree_holds (commit : String) :
    ((sampleTree commit).all fun p => (sampleTree commit).lookup p.1 == some p.2) = true := by
  rw [sampleTree]
  split_ifs
  · decide
  · decide
  · decide

theorem sampleGit_clones : sampleGit.Clones some where
  complete tip w t _ hempty h := by
    rw [sampleGit_clone] at h
    have hfiles : w.files = [] := by
      have hempty : (w.head.isNone && w.files.isEmpty && w.untracked.isEmpty) = true := hempty
      simp only [Bool.and_eq_true, List.isEmpty_iff] at hempty
      exact hempty.1.2
    rw [hfiles, List.nil_append] at h
    cases h
    exact ⟨tip, rfl, rfl, rfl, sampleTree_holds tip, beq_self_eq_true _⟩
  possible tip w _ _ _ _ := ⟨_, sampleGit_clone tip w⟩

/-- a tool of the tree of a commit is found where git sees no difference -/
theorem sampleGit_tool {w : GitTree} {commit path : String} (h : Prepared sampleGit commit w)
    (hpath : ∃ content, (path, content) ∈ sampleTree commit) : (sampleGit.runTool path w).1 = true := by
  obtain ⟨content, hmem⟩ := hpath
  have hhead : w.head.join = some commit := by
    have hhead : (w.head.join.map fun commit => (commit, w)).map Prod.fst = some commit := h.head
    rw [Option.map_map] at hhead
    obtain ⟨actual, hactual, rfl⟩ := Option.map_eq_some_iff.mp hhead
    exact hactual
  have hindex : w.index = sampleTree commit := by
    have hcached : (w.index == (w.head.join.map sampleTree).getD []) = true := h.diffCached
    rw [hhead] at hcached
    exact beq_iff_eq.mp hcached
  have hdiff : (w.index.all fun p => w.files.lookup p.1 == some p.2) = true := h.diff
  rw [← hindex] at hmem
  have hlookup := beq_iff_eq.mp (List.all_eq_true.mp hdiff _ hmem)
  have hfound : (w.files.any fun file => file.1 == path) = true := by
    obtain ⟨file, hfile, hname⟩ := List.lookup_isSome_iff.mp (Option.isSome_of_mem hlookup)
    exact List.any_eq_true.mpr ⟨file, hfile, by rw [beq_iff_eq] at hname ⊢; exact hname.symm⟩
  show (if (w.files.any fun file => file.1 == path) = true then _ else _ : Bool × GitTree).1 = true
  rw [if_pos hfound]

theorem sampleGit_hasTools : sampleGit.HasTools where
  mkbootimg path hpath w h := by
    refine sampleGit_tool h ?_
    have htree : ∀ path ∈ ["unpack_bootimg.py", "mkbootimg.py"],
        path ∈ (sampleTree commitMkbootimg).map Prod.fst := by decide
    obtain ⟨p, hp, rfl⟩ := List.mem_map.mp (htree path hpath)
    exact ⟨p.2, hp⟩
  avb w h := by
    refine sampleGit_tool h ⟨[3], ?_⟩
    have htree : ("avbtool.py", [3]) ∈ sampleTree commitAvb := by decide
    exact htree

def emptyRoot : ToolsRoot GitTree := ⟨⟨none, [], [], []⟩, none, [], [], []⟩

/-- killed before the last file of `avb`: HEAD is the pinned commit, and there is no index -/
def killedRoot : ToolsRoot GitTree :=
  (prepareTools sampleGit (commitMkbootimg, commitAvb) (fun n => n == 11) 0 emptyRoot).state

theorem bootTools_exact_sample :
    (killedRoot.avb.head = some (some commitAvb) ∧ killedRoot.avb.index = [] ∧
      killedRoot.avb.files = [("avbtool.py", [3])]) ∧
    (∃ u, Goes (prepareTools sampleGit (commitMkbootimg, commitAvb)) emptyRoot () u) ∧
      ∀ s, Runs (prepareTools sampleGit) (fun _ => True) killedRoot s →
        ∀ answers u, ¬ Yields (prepareTools sampleGit answers) s () u := by
  have hkilled : killedRoot.avb.head = some (some commitAvb) ∧ killedRoot.avb.index = [] ∧
      killedRoot.avb.files = [("avbtool.py", [3])] := by decide +kernel
  have hstaged : (sampleGit.diffCached killedRoot.avb).1 = false := by decide +kernel
  obtain ⟨-, hgoes, hstuck⟩ :=
    bootTools_exact sampleGit some sampleGit_reads sampleGit_clones sampleGit_hasTools
  refine ⟨hkilled, hgoes _ emptyRoot rfl rfl ⟨Or.inl ⟨rfl, rfl⟩, Or.inl ⟨rfl, rfl⟩⟩, fun s hruns => ?_⟩
  refine hstuck killedRoot s (fun hready => ?_) hruns
  rcases hready.2 with ⟨hdir, -⟩ | hprepared
  · have hdir : killedRoot.avb.head.isSome = false := hdir
    rw [hkilled.1] at hdir
    cases hdir
  · rw [hprepared.diffCached] at hstaged
    cases hstaged

end RT7.Kernel.BootTools
