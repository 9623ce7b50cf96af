import RT7.Recovery.Phases

/-!
# What a run of the starter leaves

* `RootMounted`, `BoundOnce`, `Started`   the root once from the recorded loop device, and every
  source once below it, as a slave;
* `Startable`       what is mounted already at these places is what the script puts there;
* `CgroupsMounted`  the tmpfs once more, and every controller once over it;
* `started_iff`     the phases, run once, end in such a state exactly from a startable one;
* `cgroups_of_passes`   and without a cgroup hierarchy they make one.
-/

namespace RT7.Recovery

open Text Shell

/-- The image is mounted at the root, once, from a loop device that the file names. -/
def RootMounted (image : String) (s : State) : Prop :=
  ∃ n m, stack s.mounts root = [m] ∧ m.device = loopDevice n ∧ m.fstype = "ext4" ∧ m.bound = none ∧
    s.loops[n]? = some (some image) ∧ s.loopState = some (loopDevice n ++ "\n")

/-- The source is bound below the root, once, as a slave. -/
def BoundOnce (source : String) (s : State) : Prop :=
  ∃ m, stack s.mounts (target source) = [m] ∧ m.bound = some (.parse source) ∧ m.slave = true

/-- **What the script is there for.** -/
structure Started (image : String) (s : State) : Prop where
  root : RootMounted image s
  bound : ∀ source ∈ ["/dev", "/proc", "/sys"], BoundOnce source s
  nested : ∀ source ∈ ["/dev/pts", "/sys/fs/cgroup"],
    mountpoint s.mounts (.parse source) = true → BoundOnce source s

/-- Every path is a mount point. -/
def AllMounted (paths : List PosixPath) (s : State) : Prop :=
  ∀ p ∈ paths, mountpoint s.mounts p = true

/-- A nested source is a mount point, or becomes one with the control groups. -/
def SourceMounted (source : String) (s : State) : Prop :=
  mountpoint s.mounts (.parse source) = true ∨ (source = cgroupText ∧ ¬ HasCgroups s)

/-- What the script finds mounted at its places, it would have mounted itself. A place that one of
its own mounts hides does not count. -/
structure Startable (image : String) (s : State) : Prop where
  rootMounted : AllMounted [root] s → RootMounted image s
  bound : ∀ source ∈ ["/dev", "/proc", "/sys"],
    AllMounted [root, target source] s → BoundOnce source s
  nested : ∀ n ∈ [("/dev", "/dev/pts"), ("/sys", "/sys/fs/cgroup")], SourceMounted n.2 s →
    AllMounted [root, target n.1, target n.2] s → BoundOnce n.2 s

/-- where the root is no mount point, nothing else matters -/
theorem startable_of_not_mounted {image : String} {s : State}
    (h : mountpoint s.mounts root = false) : Startable image s := by
  have hnot {paths : List PosixPath} : ¬ AllMounted (root :: paths) s := by
    intro hall
    exact absurd ((hall root List.mem_cons_self).symm.trans h) Bool.noConfusion
  constructor
  · intro hall
    exact absurd hall hnot
  · intro source _ hall
    exact absurd hall hnot
  · intro n _ _ hall
    exact absurd hall hnot

/-- A cgroup hierarchy came to the table: the tmpfs and, over it, every controller once. -/
structure CgroupsMounted (s t : State) : Prop where
  tmpfs : stack t.mounts (.parse cgroupText) = cgroupRoot :: stack s.mounts (.parse cgroupText)
  controllers : ∀ controllers ∈ controllersList,
    stack t.mounts (cgroupOf controllers).target = [cgroupOf controllers]

/-! ## what the phases keep -/

section keep
variable {s s₀ a b t : State} {image source : String} {path p : PosixPath} {above : List PosixPath}

theorem allMounted_concat : AllMounted (above ++ [p]) s ↔
    AllMounted above s ∧ mountpoint s.mounts p = true := by
  constructor
  · intro h
    exact ⟨fun q hq => h q (List.mem_append_left _ hq),
      h p (List.mem_append_right above (List.mem_singleton_self p))⟩
  · rintro ⟨h, hp⟩ q hq
    cases List.mem_append.mp hq with
    | inl hq => exact h q hq
    | inr hq => exact List.mem_singleton.mp hq ▸ hp

/-- Since `s₀` the mounts at a path have stayed, where every place above it was a mount point, and
are hidden otherwise. -/
def Kept (above : List PosixPath) (s₀ s : State) (path : PosixPath) : Prop :=
  (AllMounted above s₀ ∧ stack s.mounts path = stack s₀.mounts path) ∨
    (¬ AllMounted above s₀ ∧ stack s.mounts path = [])

theorem Kept.frame (h : Kept above s₀ a path) (hstack : stack b.mounts path = stack a.mounts path) :
    Kept above s₀ b path := by
  rcases h with ⟨hall, h⟩ | ⟨hall, h⟩
  · exact Or.inl ⟨hall, hstack.trans h⟩
  · exact Or.inr ⟨hall, hstack.trans h⟩

/-- one more place above the path, mounted over unless it is a mount point -/
theorem Kept.step (h : Kept above s₀ a path) (hp : Kept above s₀ a p)
    (hstep : (mountpoint a.mounts p = true ∧ stack b.mounts path = stack a.mounts path) ∨
      (mountpoint a.mounts p = false ∧ stack b.mounts path = [])) :
    Kept (above ++ [p]) s₀ b path := by
  have hmount : mountpoint a.mounts p = true ↔ AllMounted (above ++ [p]) s₀ := by
    rw [allMounted_concat]
    rcases hp with ⟨hall, hp⟩ | ⟨hall, hp⟩
    · rw [mountpoint_congr hp]
      exact ⟨fun h => ⟨hall, h⟩, fun h => h.2⟩
    · rw [mountpoint_iff, hp]
      exact ⟨fun h => absurd rfl h, fun h => absurd h.1 hall⟩
  rcases hstep with ⟨htrue, hstack⟩ | ⟨hfalse, hstack⟩
  · have hall := hmount.mp htrue
    rcases h with ⟨-, h⟩ | ⟨hnot, -⟩
    · exact Or.inl ⟨hall, hstack.trans h⟩
    · exact absurd (allMounted_concat.mp hall).1 hnot
  · refine Or.inr ⟨fun hall => ?_, hstack⟩
    rw [hmount.mpr hall] at hfalse
    exact Bool.noConfusion hfalse

theorem boundOnce_congr (h : stack b.mounts (target source) = stack a.mounts (target source)) :
    BoundOnce source b ↔ BoundOnce source a := by
  rw [BoundOnce, BoundOnce, h]

theorem Kept.boundOnce_iff (h : Kept above s₀ a (target source)) :
    (mountpoint a.mounts (target source) = true → BoundOnce source a) ↔
      (AllMounted (above ++ [target source]) s₀ → BoundOnce source s₀) := by
  rw [allMounted_concat]
  rcases h with ⟨hall, h⟩ | ⟨hall, h⟩
  · rw [mountpoint_congr h, boundOnce_congr h]
    exact ⟨fun hb hm => hb hm.2, fun hb hm => hb ⟨hall, hm⟩⟩
  · constructor
    · intro _ hm
      exact absurd hm.1 hall
    · intro _ hm
      exact absurd h (mountpoint_iff.mp hm)

/-! ## the single phases -/

/-- a bind mount leaves its source bound once, if it has not found something else there -/
theorem boundOnce_bind {nested : Bool}
    (h : Yields (bindWhen (bindTest nested source) source) a () b) :
    BoundOnce source b ↔ (bindTest nested source a = false → BoundOnce source a) := by
  rcases yields_bindWhen h with ⟨hover, rfl⟩ | ⟨htest, m, hm, rfl⟩
  · exact ⟨fun hb _ => hb, fun hb => hb hover⟩
  · have hfree : mountpoint a.mounts (target source) = false := by
      cases hmount : mountpoint a.mounts (target source) with
      | false => rfl
      | true => exact absurd (htest.symm.trans (bindTest_of_mountpoint hmount)) Bool.noConfusion
    have hat : m.target ∉ (target source).parents := hm.1 ▸ not_mem_parents_self _
    have hstack : stack (a.mount m).mounts (target source) = [m] := by
      rw [State.mount, stack_cons_at hm.1 hat, mountpoint_eq_false.mp hfree]
    constructor
    · intro _ hover
      exact absurd (htest.symm.trans hover) Bool.noConfusion
    · intro _
      exact ⟨m, hstack, hm.2⟩

theorem rootMounted_congr (hstack : stack b.mounts root = stack a.mounts root)
    (hloops : b.loops = a.loops) (hstate : b.loopState = a.loopState) :
    RootMounted image b ↔ RootMounted image a := by
  rw [RootMounted, RootMounted, hstack, hloops, hstate]

/-- the root phase leaves the image mounted, if it has not found something else at the root -/
theorem rootMounted_mountRoot (h : Yields (mountRoot image) a () b) :
    RootMounted image b ↔ (mountpoint a.mounts root = true → RootMounted image a) := by
  rcases yields_mountRoot h with ⟨htrue, rfl⟩ | ⟨hfalse, n, hfree, rfl⟩
  · exact ⟨fun hb _ => hb, fun hb => hb htrue⟩
  · have hstack : stack (a.withRoot n image).mounts root = [ext4Of n] := by
      have hat : (ext4Of n).target = root := rfl
      rw [State.withRoot, stack_cons_at hat (not_mem_parents_self root),
        mountpoint_eq_false.mp hfalse]
    have hn : n < a.loops.length := (List.getElem?_eq_some_iff.mp hfree).1
    have hloop : (a.withRoot n image).loops[n]? = some (some image) := List.getElem?_set_self hn
    constructor
    · intro _ htrue
      exact absurd (htrue.symm.trans hfalse) Bool.noConfusion
    · intro _
      exact ⟨n, ext4Of n, hstack, rfl, rfl, rfl, hloop, rfl⟩

/-- below the root everything is hidden once it is mounted -/
theorem stack_mountRoot (h : Yields (mountRoot image) a () b) (hpath : root ∈ path.parents) :
    (mountpoint a.mounts root = true ∧ stack b.mounts path = stack a.mounts path) ∨
      (mountpoint a.mounts root = false ∧ stack b.mounts path = []) := by
  rcases yields_mountRoot h with ⟨htrue, rfl⟩ | ⟨hfalse, n, -, rfl⟩
  · exact Or.inl ⟨htrue, rfl⟩
  · exact Or.inr ⟨hfalse, stack_cons_above hpath⟩

/-- and the same for a bind mount that is not a nested one -/
theorem stack_bindSource (h : Yields (bindWhen (bindTest false source) source) a () b)
    (hpath : target source ∈ path.parents) :
    (mountpoint a.mounts (target source) = true ∧ stack b.mounts path = stack a.mounts path) ∨
      (mountpoint a.mounts (target source) = false ∧ stack b.mounts path = []) := by
  rcases yields_bindWhen h with ⟨hover, rfl⟩ | ⟨htest, m, hm, rfl⟩
  · exact Or.inl ⟨by simpa [bindTest] using hover, rfl⟩
  · refine Or.inr ⟨by simpa [bindTest] using htest, stack_cons_above ?_⟩
    rw [hm.1]
    exact hpath

end keep

/-! ## the phases in their order -/

section order
variable {s₀ s₁ s t : State} {image source outer : String} {path : PosixPath}
  {front mid back : List (Bool × String)} {targets : List PosixPath}

abbrev bindPhases (l : List (Bool × String)) : List (Phase State Failure.Harmless) :=
  l.map fun b => bindPhase b.1 b.2

theorem Adds.trans {r : State} (h : Adds targets s r) (h' : Adds targets r t) :
    Adds targets s t := by
  obtain ⟨hr, new, hnew, hm⟩ := h
  obtain ⟨hr', new', hnew', hm'⟩ := h'
  refine ⟨hr'.trans hr, new' ++ new, by rw [hnew', hnew, List.append_assoc], fun m hmem => ?_⟩
  cases List.mem_append.mp hmem with
  | inl hmem => exact hm' m hmem
  | inr hmem => exact hm m hmem

theorem Adds.mono {targets' : List PosixPath} (h : Adds targets s t)
    (hsub : ∀ p ∈ targets, p ∈ targets') : Adds targets' s t := by
  obtain ⟨hr, new, hnew, hm⟩ := h
  exact ⟨hr, new, hnew, fun m hmem => hsub _ (hm m hmem)⟩

theorem adds_bindPhases {l : List (Bool × String)} (h : Passes (bindPhases l) s t) :
    Adds (l.map fun b => target b.2) s t := by
  induction l generalizing s with
  | nil =>
    cases h
    exact Adds.refl _
  | cons b l ih =>
    obtain ⟨r, hb, hl⟩ := h
    have h1 : Adds [target b.2] s r := adds_bindWhen hb
    refine Adds.trans (h1.mono fun p hp => ?_) ((ih hl).mono fun p hp => List.mem_cons_of_mem _ hp)
    rw [List.mem_singleton.mp hp]
    exact List.mem_cons_self

theorem stack_bindPhases {l : List (Bool × String)} (h : Passes (bindPhases l) s t)
    (hpath : ∀ b ∈ l, ¬ Covers (target b.2) path) :
    stack t.mounts path = stack s.mounts path := by
  refine (adds_bindPhases h).stack fun p hp => ?_
  obtain ⟨b, hb, rfl⟩ := List.mem_map.mp hp
  exact hpath b hb

theorem loops_bindPhases {l : List (Bool × String)} (h : Passes (bindPhases l) s t) :
    t.loops = s.loops ∧ t.loopState = s.loopState := by
  induction l generalizing s with
  | nil =>
    cases h
    exact ⟨rfl, rfl⟩
  | cons b l ih =>
    obtain ⟨r, hb, hl⟩ := h
    obtain ⟨h1, h2⟩ := ih hl
    rcases yields_bindWhen hb with ⟨-, rfl⟩ | ⟨-, m, -, rfl⟩
    · exact ⟨h1, h2⟩
    · exact ⟨h1, h2⟩

/-- what one bind mount of the script leaves, seen from the end of the script -/
theorem boundOnce_bindPhases {nested : Bool}
    (hsplit : bindings = front ++ (nested, source) :: back) (h : Passes (bindPhases bindings) s t) :
    ∃ r, Passes (bindPhases front) s r ∧
      (BoundOnce source t ↔ (bindTest nested source r = false → BoundOnce source r)) := by
  have hpairs := covers_bindings.2
  rw [hsplit, bindPhases, List.map_append, List.map_cons] at h
  rw [hsplit] at hpairs
  have hback := (List.pairwise_cons.mp (List.pairwise_append.mp hpairs).2.1).1
  obtain ⟨r, hfront, u, hbind, hrest⟩ := h.of_append
  refine ⟨r, hfront, ?_⟩
  rw [← boundOnce_bind hbind]
  exact boundOnce_congr (stack_bindPhases hrest fun b hb => (hback b hb).2)

theorem boundOnce_source (hsplit : bindings = front ++ (false, source) :: back)
    (hfront : ∀ b ∈ front, ¬ Covers (target b.2) (target source))
    (hk : Kept [root] s₀ s (target source)) (h : Passes (bindPhases bindings) s t) :
    BoundOnce source t ↔ (AllMounted [root, target source] s₀ → BoundOnce source s₀) := by
  obtain ⟨r, hpass, hiff⟩ := boundOnce_bindPhases hsplit h
  have hkept := hk.frame (stack_bindPhases hpass hfront)
  rw [hiff, ← List.singleton_append, ← hkept.boundOnce_iff, bindTest, Bool.not_eq_false']

theorem boundOnce_nested
    (hsplit : bindings = (front ++ (false, outer) :: mid) ++ (true, source) :: back)
    (hfront : ∀ b ∈ front, ¬ Covers (target b.2) (target source) ∧ ¬ Covers (target b.2) (target outer))
    (hmid : ∀ b ∈ mid, ¬ Covers (target b.2) (target source))
    (hsource : ∀ b ∈ bindings, ¬ Covers (target b.2) (.parse source))
    (habove : target outer ∈ (target source).parents)
    (hk : Kept [root] s₀ s (target source)) (hk' : Kept [root] s₀ s (target outer))
    (hm : mountpoint s.mounts (.parse source) = true ↔ SourceMounted source s₀)
    (h : Passes (bindPhases bindings) s t) :
    (mountpoint t.mounts (.parse source) = true → BoundOnce source t) ↔
      (SourceMounted source s₀ →
        AllMounted [root, target outer, target source] s₀ → BoundOnce source s₀) := by
  obtain ⟨r, hpass, hiff⟩ := boundOnce_bindPhases hsplit h
  have hbefore : ∀ b ∈ front ++ (false, outer) :: mid, ¬ Covers (target b.2) (.parse source) := by
    intro b hb
    refine hsource b ?_
    rw [hsplit]
    exact List.mem_append_left _ hb
  have hmr : mountpoint r.mounts (.parse source) = mountpoint s.mounts (.parse source) :=
    mountpoint_congr (stack_bindPhases hpass hbefore)
  have hmt : mountpoint t.mounts (.parse source) = mountpoint s.mounts (.parse source) :=
    mountpoint_congr (stack_bindPhases h hsource)
  have hkept : Kept [root, target outer] s₀ r (target source) := by
    rw [bindPhases, List.map_append, List.map_cons] at hpass
    obtain ⟨a, h1, b, h2, h3⟩ := hpass.of_append
    have hsa := hk.frame (stack_bindPhases h1 fun b hb => (hfront b hb).1)
    have hoa := hk'.frame (stack_bindPhases h1 fun b hb => (hfront b hb).2)
    exact (hsa.step hoa (stack_bindSource h2 habove)).frame (stack_bindPhases h3 hmid)
  have hkey := hkept.boundOnce_iff
  rw [hmt, hm, hiff]
  refine imp_congr_right fun hsource => ?_
  rw [bindTest, hmr, hm.mpr hsource, Bool.true_and, Bool.not_eq_false']
  exact hkey

end order

/-- the places of the script, and those of the control groups, in their relation -/
theorem covers_script :
    (∀ p ∈ cgroupMounts.map Mount.target, ∀ q ∈ root :: .parse "/dev/pts" :: bindings.map fun b =>
      target b.2, ¬ Covers p q) ∧
    (∀ p ∈ root :: bindings.map fun b => target b.2, ∀ q ∈ .parse "/dev/pts" :: .parse cgroupText ::
      controllersList.map fun controllers => (cgroupOf controllers).target, ¬ Covers p q) ∧
    (∀ b ∈ bindings, root ∈ (target b.2).parents) ∧
    (∀ n ∈ [("/dev", "/dev/pts"), ("/sys", "/sys/fs/cgroup")], target n.1 ∈ (target n.2).parents) ∧
    (∀ controllers ∈ controllersList, ¬ Covers (cgroupOf controllers).target (.parse cgroupText) ∧
      cgroupRoot.target ∈ (cgroupOf controllers).target.parents) ∧
    controllersList.Pairwise fun c c' => ¬ Covers (cgroupOf c).target (cgroupOf c').target ∧
      ¬ Covers (cgroupOf c').target (cgroupOf c).target := by
  decide +kernel

/-- what the bind mounts before one of them do not hide -/
theorem covers_before :
    (∀ b ∈ [(false, "/dev")], ¬ Covers (target b.2) (target "/proc")) ∧
    (∀ b ∈ [(false, "/dev"), (false, "/proc")], ¬ Covers (target b.2) (target "/sys")) ∧
    (∀ b ∈ [(false, "/proc"), (false, "/sys")], ¬ Covers (target b.2) (target "/dev/pts")) ∧
    (∀ b ∈ [(false, "/dev"), (false, "/proc")],
      ¬ Covers (target b.2) (target "/sys/fs/cgroup") ∧ ¬ Covers (target b.2) (target "/sys")) ∧
    ∀ b ∈ [(true, "/dev/pts")], ¬ Covers (target b.2) (target "/sys/fs/cgroup") := by
  decide +kernel

/-! ## the control groups -/

section cgroups
variable {s₀ s₁ s t : State}

theorem adds_setUpCgroups (h : Yields setUpCgroups s () t) :
    Adds (cgroupMounts.map Mount.target) s t := by
  rcases yields_setUpCgroups h with ⟨-, rfl⟩ | ⟨-, rfl⟩
  · exact ⟨rfl, cgroupMounts, rfl, fun m hm => List.mem_map_of_mem hm⟩
  · exact Adds.refl _

theorem loops_setUpCgroups (h : Yields setUpCgroups s () t) :
    t.loops = s.loops ∧ t.loopState = s.loopState := by
  rcases yields_setUpCgroups h with ⟨-, rfl⟩ | ⟨-, rfl⟩
  · exact ⟨rfl, rfl⟩
  · exact ⟨rfl, rfl⟩

theorem stack_cgroupRoot (mounts : List Mount) :
    stack (cgroupMounts ++ mounts) (.parse cgroupText) =
      cgroupRoot :: stack mounts (.parse cgroupText) := by
  obtain ⟨-, -, -, -, hover, -⟩ := covers_script
  have hat : cgroupRoot.target = .parse cgroupText := rfl
  rw [cgroupMounts, List.append_assoc, stack_append, List.singleton_append,
    stack_cons_at hat (not_mem_parents_self _)]
  intro m hm
  obtain ⟨controllers, hc, rfl⟩ := List.mem_map.mp (List.mem_reverse.mp hm)
  exact (hover controllers hc).1

theorem stack_cgroupOf (mounts : List Mount) {controllers : String} (hc : controllers ∈ controllersList) :
    stack (cgroupMounts ++ mounts) (cgroupOf controllers).target = [cgroupOf controllers] := by
  obtain ⟨-, -, -, -, hover, hpairs⟩ := covers_script
  have habove := (hover controllers hc).2
  obtain ⟨front, back, hsplit⟩ := List.append_of_mem hc
  rw [hsplit] at hpairs
  obtain ⟨-, hback, hfront⟩ := List.pairwise_append.mp hpairs
  have hmounts : cgroupMounts ++ mounts = (back.map cgroupOf).reverse ++
      (cgroupOf controllers :: ((front.map cgroupOf).reverse ++ cgroupRoot :: mounts)) := by
    rw [cgroupMounts, hsplit]
    simp
  rw [hmounts, stack_append, stack_cons_at rfl (not_mem_parents_self _), stack_append,
    stack_cons_above habove]
  · intro m hm
    obtain ⟨c, hc, rfl⟩ := List.mem_map.mp (List.mem_reverse.mp hm)
    exact (hfront c hc controllers List.mem_cons_self).1
  · intro m hm
    obtain ⟨c, hc, rfl⟩ := List.mem_map.mp (List.mem_reverse.mp hm)
    exact ((List.pairwise_cons.mp hback).1 c hc).2

theorem sourceMounted_setUpCgroups {source : String} (hs : source ∈ ["/dev/pts", "/sys/fs/cgroup"])
    (h : Yields setUpCgroups s₀ () s) :
    mountpoint s.mounts (.parse source) = true ↔ SourceMounted source s₀ := by
  have hapart : ∀ p ∈ cgroupMounts.map Mount.target, ¬ Covers p (.parse "/dev/pts") := fun p hp =>
    covers_script.1 p hp _ (List.mem_cons_of_mem _ List.mem_cons_self)
  have hne : "/dev/pts" ≠ cgroupText := by decide
  simp only [List.mem_cons, List.not_mem_nil, or_false] at hs
  rcases hs with rfl | rfl
  · rw [(adds_setUpCgroups h).mountpoint hapart, SourceMounted]
    exact ⟨Or.inl, fun h => h.resolve_right fun h => hne h.1⟩
  · rcases yields_setUpCgroups h with ⟨hno, rfl⟩ | ⟨hhas, rfl⟩
    · have hcgroups : ¬ HasCgroups s₀ := by
        rw [← noCgroups_eq_false, hno]
        exact Bool.true_eq_false.mp
      have hmount : mountpoint (cgroupMounts ++ s₀.mounts) (.parse cgroupText) = true := by
        rw [mountpoint_iff, stack_cgroupRoot]
        exact List.cons_ne_nil _ _
      exact ⟨fun _ => Or.inr ⟨rfl, hcgroups⟩, fun _ => hmount⟩
    · have hcgroups := noCgroups_eq_false.mp hhas
      exact ⟨Or.inl, fun h => h.resolve_right fun h => h.2 hcgroups⟩

end cgroups

/-! ## the whole script -/

section script
variable {s₀ s₁ s₂ t : State} {image : String}

theorem passes_starter (h : Passes (starter image) s₀ t) :
    ∃ s₁ s₂, Yields setUpCgroups s₀ () s₁ ∧ Yields (mountRoot image) s₁ () s₂ ∧
      Passes (bindPhases bindings) s₂ t := by
  obtain ⟨s₁, hc, s₂, hr, hrest⟩ := h
  obtain ⟨s₃, hb, s₄, he, hlast⟩ := hrest.of_append
  have h4 : s₄ = s₃ := enterPhase.idle trivial he
  have h5 : t = s₄ := hlast
  subst h4
  subst h5
  exact ⟨s₁, s₂, hc, hr, hb⟩

theorem kept_root (hc : Yields setUpCgroups s₀ () s₁)
    (hr : Yields (mountRoot image) s₁ () s₂) {b : Bool × String} (hb : b ∈ bindings) :
    Kept [root] s₀ s₂ (target b.2) := by
  obtain ⟨hapart, -, hbelow, -⟩ := covers_script
  have hall : AllMounted [] s₀ := fun _ h => absurd h List.not_mem_nil
  have hpath : Kept [] s₀ s₁ (target b.2) := by
    refine Or.inl ⟨hall, (adds_setUpCgroups hc).stack fun p hp => hapart p hp _ ?_⟩
    exact List.mem_cons_of_mem _ (List.mem_cons_of_mem _ (List.mem_map_of_mem hb))
  have hroot : Kept [] s₀ s₁ root :=
    Or.inl ⟨hall, (adds_setUpCgroups hc).stack fun p hp => hapart p hp _ List.mem_cons_self⟩
  exact hpath.step hroot (stack_mountRoot hr (hbelow b hb))

theorem rootMounted_iff (hc : Yields setUpCgroups s₀ () s₁) (hr : Yields (mountRoot image) s₁ () s₂)
    (hb : Passes (bindPhases bindings) s₂ t) :
    RootMounted image t ↔ (AllMounted [root] s₀ → RootMounted image s₀) := by
  have hstack : stack s₁.mounts root = stack s₀.mounts root :=
    (adds_setUpCgroups hc).stack fun p hp => covers_script.1 p hp _ List.mem_cons_self
  have hall : AllMounted [root] s₀ ↔ mountpoint s₁.mounts root = true := by
    rw [mountpoint_congr hstack]
    exact List.forall_mem_singleton
  obtain ⟨hloops, hstate⟩ := loops_bindPhases hb
  obtain ⟨hloops', hstate'⟩ := loops_setUpCgroups hc
  rw [rootMounted_congr (stack_bindPhases hb covers_bindings.1) hloops hstate,
    rootMounted_mountRoot hr, rootMounted_congr hstack hloops' hstate', hall]

/-- the sources and the control groups are not below the root -/
theorem stack_sources (hr : Yields (mountRoot image) s₁ () s₂) (hb : Passes (bindPhases bindings) s₂ t)
    {path : PosixPath} (hpath : path ∈ PosixPath.parse "/dev/pts" :: .parse cgroupText ::
      controllersList.map fun controllers => (cgroupOf controllers).target) :
    stack s₂.mounts path = stack s₁.mounts path ∧ stack t.mounts path = stack s₁.mounts path := by
  obtain ⟨-, hsources, -⟩ := covers_script
  have h1 : stack s₂.mounts path = stack s₁.mounts path := by
    refine (adds_mountRoot hr).stack fun p hp => ?_
    rw [List.mem_singleton.mp hp]
    exact hsources root List.mem_cons_self path hpath
  have h2 : stack t.mounts path = stack s₂.mounts path :=
    stack_bindPhases hb fun b hmem =>
      hsources _ (List.mem_cons_of_mem root (List.mem_map_of_mem hmem)) path hpath
  exact ⟨h1, h2.trans h1⟩

theorem boundOnce_sources_iff (hc : Yields setUpCgroups s₀ () s₁)
    (hr : Yields (mountRoot image) s₁ () s₂) (hb : Passes (bindPhases bindings) s₂ t) {source : String}
    (hs : source ∈ ["/dev", "/proc", "/sys"]) :
    BoundOnce source t ↔ (AllMounted [root, target source] s₀ → BoundOnce source s₀) := by
  obtain ⟨hproc, hsys, -⟩ := covers_before
  have hkept (b : Bool × String) (hmem : b ∈ bindings) := kept_root hc hr hmem
  simp only [List.mem_cons, List.not_mem_nil, or_false] at hs
  rcases hs with rfl | rfl | rfl
  · have hnone : ∀ b ∈ ([] : List (Bool × String)), ¬ Covers (target b.2) (target "/dev") :=
      fun b h => absurd h List.not_mem_nil
    exact boundOnce_source rfl hnone (hkept (false, "/dev") (by decide)) hb
  · exact boundOnce_source rfl hproc (hkept (false, "/proc") (by decide)) hb
  · exact boundOnce_source rfl hsys (hkept (false, "/sys") (by decide)) hb

theorem boundOnce_nested_iff (hc : Yields setUpCgroups s₀ () s₁)
    (hr : Yields (mountRoot image) s₁ () s₂) (hb : Passes (bindPhases bindings) s₂ t)
    {n : String × String} (hn : n ∈ [("/dev", "/dev/pts"), ("/sys", "/sys/fs/cgroup")]) :
    (mountpoint t.mounts (.parse n.2) = true → BoundOnce n.2 t) ↔
      (SourceMounted n.2 s₀ →
        AllMounted [root, target n.1, target n.2] s₀ → BoundOnce n.2 s₀) := by
  obtain ⟨-, -, hpts, hcgroup, hmid⟩ := covers_before
  obtain ⟨-, hsources, -, habove, -⟩ := covers_script
  have hkept (b : Bool × String) (hmem : b ∈ bindings) := kept_root hc hr hmem
  have hsource : ∀ path ∈ [PosixPath.parse "/dev/pts", .parse cgroupText], ∀ b ∈ bindings,
      ¬ Covers (target b.2) path := by
    intro path hpath b hmem
    refine hsources _ (List.mem_cons_of_mem root (List.mem_map_of_mem hmem)) path ?_
    exact List.mem_append_left _ hpath
  have hmount : ∀ source ∈ ["/dev/pts", "/sys/fs/cgroup"],
      PosixPath.parse source ∈ [PosixPath.parse "/dev/pts", .parse cgroupText] →
      (mountpoint s₂.mounts (.parse source) = true ↔ SourceMounted source s₀) := by
    intro source hs hpath
    have hstack := (stack_sources hr hb (List.mem_append_left _ hpath)).1
    rw [mountpoint_congr hstack]
    exact sourceMounted_setUpCgroups hs hc
  simp only [List.mem_cons, List.not_mem_nil, or_false] at hn
  rcases hn with rfl | rfl
  · have hnone : ∀ b ∈ ([] : List (Bool × String)),
        ¬ Covers (target b.2) (target "/dev/pts") ∧ ¬ Covers (target b.2) (target "/dev") :=
      fun b h => absurd h List.not_mem_nil
    exact boundOnce_nested rfl hnone hpts (hsource _ List.mem_cons_self)
      (habove ("/dev", "/dev/pts") List.mem_cons_self) (hkept (true, "/dev/pts") (by decide))
      (hkept (false, "/dev") (by decide)) (hmount _ List.mem_cons_self List.mem_cons_self) hb
  · have hlast : PosixPath.parse cgroupText ∈ [PosixPath.parse "/dev/pts", .parse cgroupText] :=
      List.mem_cons_of_mem _ List.mem_cons_self
    exact boundOnce_nested rfl hcgroup hmid (hsource _ hlast)
      (habove ("/sys", "/sys/fs/cgroup") (List.mem_cons_of_mem _ List.mem_cons_self))
      (hkept (true, "/sys/fs/cgroup") (by decide)) (hkept (false, "/sys") (by decide))
      (hmount _ (List.mem_cons_of_mem _ List.mem_cons_self) hlast) hb

/-- **One run of the phases leaves what the script is there for exactly when nothing else was
mounted at its places.** -/
theorem started_iff (h : Passes (starter image) s₀ t) : Started image t ↔ Startable image s₀ := by
  obtain ⟨s₁, s₂, hc, hr, hb⟩ := passes_starter h
  constructor
  · intro hstarted
    constructor
    · exact (rootMounted_iff hc hr hb).mp hstarted.root
    · intro source hs
      exact (boundOnce_sources_iff hc hr hb hs).mp (hstarted.bound source hs)
    · intro n hn
      exact (boundOnce_nested_iff hc hr hb hn).mp (hstarted.nested n.2 (List.mem_map_of_mem hn))
  · intro hstartable
    constructor
    · exact (rootMounted_iff hc hr hb).mpr hstartable.rootMounted
    · intro source hs
      exact (boundOnce_sources_iff hc hr hb hs).mpr (hstartable.bound source hs)
    · intro source hs
      obtain ⟨n, hn, rfl⟩ : ∃ n ∈ [("/dev", "/dev/pts"), ("/sys", "/sys/fs/cgroup")],
          n.2 = source := List.mem_map.mp hs
      exact (boundOnce_nested_iff hc hr hb hn).mpr (hstartable.nested n hn)

/-- Where there was no cgroup hierarchy, one run of the phases makes one. -/
theorem cgroups_of_passes (h : Passes (starter image) s₀ t) (hno : ¬ HasCgroups s₀) :
    CgroupsMounted s₀ t := by
  obtain ⟨s₁, s₂, hc, hr, hb⟩ := passes_starter h
  have hs₁ : s₁.mounts = cgroupMounts ++ s₀.mounts := by
    rcases yields_setUpCgroups hc with ⟨-, rfl⟩ | ⟨hhas, rfl⟩
    · rfl
    · exact absurd (noCgroups_eq_false.mp hhas) hno
  constructor
  · rw [(stack_sources hr hb (List.mem_cons_of_mem _ List.mem_cons_self)).2, hs₁, stack_cgroupRoot]
  · intro controllers hmem
    have hpath := List.mem_map_of_mem (f := fun controllers => (cgroupOf controllers).target) hmem
    rw [(stack_sources hr hb (List.mem_cons_of_mem _ (List.mem_cons_of_mem _ hpath))).2, hs₁,
      stack_cgroupOf _ hmem]

end script

end RT7.Recovery
