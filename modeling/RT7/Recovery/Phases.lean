import RT7.Recovery.Start

/-!
# The parts of the starter that can be run again

* `Failure.halfDone`, `Failure.Harmless`   whether the part that a failed command belongs to has
  done something before it;
* `yields_setUpCgroups`, `yields_mountRoot`, `yields_bindSource`, `yields_bindNested`   what each part
  does when it ends well;
* `cgroupPhase`, `rootPhase`, `bindPhase`, `nestedPhase`, `enterPhase`   the parts as phases;
* `scriptOf_starter`   the script is the script of these phases.
-/

namespace RT7.Recovery

open Text Shell

/-- The failures that leave a part half done. Behind them a later run finds a mount that its tests
take for the whole part: the tmpfs without its controllers, a root whose loop device was not written
down, a bind mount that is not a slave; or a loop device stays attached. -/
def Failure.halfDone : Failure → Bool
  | .mkdirController _ => true
  | .mountController _ => true
  | .losetupDetach => true
  | .recordLoop => true
  | .rslave _ => true
  | _ => false

def Failure.Harmless (e : Failure) : Prop := e.halfDone = false

instance (e : Failure) : Decidable e.Harmless := inferInstanceAs (Decidable (_ = _))

variable {s t : State} {e : Failure} {image source controllers : String}

theorem yields_mkdir {path : String} (h : Yields (mkdir path) s () t) : t = s := h.of_act_some

/-! ## the control groups -/

theorem yields_mountController (h : Yields (mountController controllers) s () t) :
    t = s.mount (cgroupOf controllers) := by
  obtain ⟨r, h1, h2⟩ := h.of_then
  have hr : r = s := h1.of_act_some
  subst hr
  exact h2.of_act_some

theorem yields_controllers {l : List String} (h : Yields (inSequence (l.map mountController)) s () t) :
    t = { s with mounts := (l.map cgroupOf).reverse ++ s.mounts } := by
  induction l generalizing s with
  | nil => exact (Yields.of_pure h).2
  | cons controllers l ih =>
    obtain ⟨r, h1, h2⟩ := Yields.of_then h
    have hr := yields_mountController h1
    subst hr
    rw [ih h2, State.mount, List.map_cons, List.reverse_cons, List.append_assoc]
    rfl

theorem stops_mountController (h : Stops (mountController controllers) s e t) : ¬ e.Harmless := by
  rcases h.of_then with h | ⟨r, -, h⟩
  · obtain ⟨rfl, -⟩ := h.of_act
    exact Bool.noConfusion
  · obtain ⟨rfl, -⟩ := h.of_act
    exact Bool.noConfusion

theorem stops_controllers {l : List String} (h : Stops (inSequence (l.map mountController)) s e t) :
    ¬ e.Harmless := by
  induction l generalizing s with
  | nil => exact absurd h not_stops_pure
  | cons controllers l ih =>
    rcases Stops.of_then h with h | ⟨r, -, h⟩
    · exact stops_mountController h
    · exact ih h

/-- the mounts of a cgroup hierarchy, the newest first -/
def cgroupMounts : List Mount := (controllersList.map cgroupOf).reverse ++ [cgroupRoot]

theorem yields_setUpCgroups (h : Yields setUpCgroups s () t) :
    (noCgroups s = true ∧ t = { s with mounts := cgroupMounts ++ s.mounts }) ∨
      (noCgroups s = false ∧ t = s) := by
  cases h.of_ifThen with
  | inr h => exact Or.inr h
  | inl h =>
    obtain ⟨hno, h⟩ := h
    obtain ⟨r, h1, hrest⟩ := h.of_then
    have hr : r = s := yields_mkdir h1
    subst hr
    obtain ⟨u, h2, hcontrollers⟩ := hrest.of_then
    have hu : u = r.mount cgroupRoot := h2.of_act_some
    subst hu
    refine Or.inl ⟨hno, ?_⟩
    rw [yields_controllers hcontrollers, cgroupMounts, List.append_assoc]
    rfl

theorem stops_setUpCgroups (h : Stops setUpCgroups s e t) (he : e.Harmless) : t = s := by
  obtain ⟨-, h⟩ := h.of_ifThen
  rcases h.of_then with h | ⟨r, h1, hrest⟩
  · exact h.of_act.2
  · have hr : r = s := yields_mkdir h1
    subst hr
    rcases hrest.of_then with h2 | ⟨u, -, hcontrollers⟩
    · exact h2.of_act.2
    · exact absurd he (stops_controllers hcontrollers)

/-- A cgroup hierarchy is there: its unified form, or a mount of type `cgroup`. -/
def HasCgroups (s : State) : Prop :=
  s.controllersReadable = true ∨ ∃ m ∈ s.mounts, m.fstype = "cgroup"

theorem noCgroups_eq_false : noCgroups s = false ↔ HasCgroups s := by
  rw [noCgroups, HasCgroups, Bool.and_eq_false_iff, Bool.not_eq_false', Bool.not_eq_false',
    List.any_eq_true]
  simp only [grep_cgroup]

theorem steady_mkdir {path : String} : Steady (mkdir path) := .act some

/-- the part that sets up the control groups -/
def cgroupPhase : Phase State Failure.Harmless where
  script := setUpCgroups
  Over := HasCgroups
  steady := .ifThen (.bind steady_mkdir fun _ => .bind (.act _) fun _ => .inSequence fun p hp => by
    obtain ⟨controllers, -, rfl⟩ := List.mem_map.mp hp
    exact .bind (.act _) fun _ => .act _)
  undone h he := stops_setUpCgroups h he
  settles h := by
    rcases yields_setUpCgroups h with ⟨-, rfl⟩ | ⟨hno, rfl⟩
    · have hpids : "pids" ∈ controllersList := by decide
      have hmem : cgroupOf "pids" ∈ cgroupMounts :=
        List.mem_append_left _ (List.mem_reverse.mpr (List.mem_map_of_mem hpids))
      exact Or.inr ⟨cgroupOf "pids", List.mem_append_left _ hmem, rfl⟩
    · exact noCgroups_eq_false.mp hno
  idle hover h := by
    rcases yields_setUpCgroups h with ⟨hno, -⟩ | ⟨-, rfl⟩
    · rw [noCgroups_eq_false.mpr hover] at hno
      exact absurd hno Bool.false_ne_true
    · rfl

/-! ## the root -/

/-- the state with the image mounted from the loop device `n` -/
def State.withRoot (n : Nat) (image : String) (s : State) : State where
  mounts := ext4Of n :: s.mounts
  loops := s.loops.set n (some image)
  loopState := some (loopDevice n ++ "\n")
  controllersReadable := s.controllersReadable

theorem attach_eq_some {n : Nat} : s.attach n image = some t ↔
    s.loops[n]? = some none ∧ t = { s with loops := s.loops.set n (some image) } := by
  rw [State.attach]
  by_cases h : s.loops[n]? = some none
  · rw [if_pos h, Option.some.injEq]
    exact ⟨fun e => ⟨h, e.symm⟩, fun e => e.2.symm⟩
  · rw [if_neg h]
    exact ⟨fun e => absurd e.symm (Option.some_ne_none t), fun e => absurd e.1 h⟩

theorem detach_attach {n : Nat} (h : s.attach n image = some t) : t.detach n = some s := by
  obtain ⟨hfree, rfl⟩ := attach_eq_some.mp h
  obtain ⟨hn, hnone⟩ := List.getElem?_eq_some_iff.mp hfree
  have hset : (s.loops.set n (some image))[n]? = some (some image) :=
    List.getElem?_set_self hn
  rw [State.detach, if_pos]
  · have hback : (s.loops.set n (some image)).set n none = s.loops := by
      rw [List.set_set, ← hnone, List.set_getElem_self]
    dsimp only
    rw [hback]
  · rw [hset]
    rfl

theorem yields_mountRoot (h : Yields (mountRoot image) s () t) :
    (mountpoint s.mounts root = true ∧ t = s) ∨
      (mountpoint s.mounts root = false ∧ ∃ n, s.loops[n]? = some none ∧ t = s.withRoot n image) := by
  obtain ⟨r, h1, h2⟩ := h.of_then
  have hr : r = s := yields_mkdir h1
  subst hr
  cases h2.of_ifThen with
  | inr h3 => exact Or.inl ⟨by simpa using h3.1, h3.2⟩
  | inl h3 =>
    obtain ⟨hno, hroot⟩ := h3
    refine Or.inr ⟨by simpa using hno, ?_⟩
    obtain ⟨n, u, hfind, hrest⟩ := hroot.of_bind
    obtain ⟨n', -, hn'⟩ := Option.map_eq_some_iff.mp hfind.of_command
    cases hn'
    obtain ⟨v, hattach, hrest⟩ := hrest.of_then
    obtain ⟨hfree, rfl⟩ := attach_eq_some.mp hattach.of_act
    obtain ⟨w, hmount, hrecord⟩ := hrest.of_then
    rcases hmount.of_ifFails with hmount | hfailed
    · have hw := (Option.some.inj hmount).symm
      subst hw
      exact ⟨n, hfree, hrecord.of_act_some⟩
    · obtain ⟨x, -, hexit⟩ := hfailed.of_then
      exact absurd hexit not_yields_exit

theorem stops_mountRoot (h : Stops (mountRoot image) s e t) (he : e.Harmless) : t = s := by
  rcases h.of_then with h1 | ⟨r, h1, h2⟩
  · exact h1.of_act.2
  · have hr : r = s := yields_mkdir h1
    subst hr
    obtain ⟨-, hroot⟩ := h2.of_ifThen
    rcases hroot.of_bind with hfind | ⟨n, u, hfind, hrest⟩
    · exact hfind.of_command.2
    · obtain ⟨n', -, hn'⟩ := Option.map_eq_some_iff.mp hfind.of_command
      cases hn'
      rcases hrest.of_then with hattach | ⟨v, hattach, hrest⟩
      · exact hattach.of_act.2
      · have hback := detach_attach hattach.of_act
        rcases hrest.of_then with hmount | ⟨w, -, hrecord⟩
        · rcases hmount.of_ifFails.of_then with hdetach | ⟨x, hdetach, hexit⟩
          · obtain ⟨rfl, -⟩ := hdetach.of_act
            exact Bool.noConfusion he
          · obtain ⟨-, rfl⟩ := hexit.of_exit
            exact Option.some.inj (hdetach.of_act.symm.trans hback)
        · obtain ⟨rfl, -⟩ := hrecord.of_act
          exact Bool.noConfusion he

/-- the part that mounts the image -/
def rootPhase (image : String) : Phase State Failure.Harmless where
  script := mountRoot image
  Over s := mountpoint s.mounts root = true
  steady := .bind steady_mkdir fun _ => .ifThen <| .bind (.command _) fun _ =>
    .bind (.act _) fun _ => .bind (.ifFails fun s t h => by
      obtain ⟨r, -, hexit⟩ := h.of_then
      exact not_yields_exit hexit) fun _ => .act _
  undone h he := stops_mountRoot h he
  settles h := by
    rcases yields_mountRoot h with ⟨hover, rfl⟩ | ⟨-, n, -, rfl⟩
    · exact hover
    · exact mountpoint_cons rfl
  idle hover h := by
    rcases yields_mountRoot h with ⟨-, rfl⟩ | ⟨hno, -⟩
    · rfl
    · exact absurd (hover.symm.trans hno) Bool.noConfusion

/-! ## the bind mounts -/

/-- A bind mount of the source, as the script leaves it. -/
def SlaveOf (source : String) (m : Mount) : Prop :=
  m.target = target source ∧ m.bound = some (.parse source) ∧ m.slave = true

theorem yields_bindSlave (h : Yields (bindSlave source) s () t) :
    ∃ m, SlaveOf source m ∧ t = s.mount m := by
  obtain ⟨r, hbind, hslave⟩ := h.of_then
  obtain ⟨m, hm, rfl⟩ := Option.map_eq_some_iff.mp hbind.of_act
  obtain ⟨m₀, -, rfl⟩ := Option.map_eq_some_iff.mp hm
  obtain ⟨mounts, hmounts, rfl⟩ := Option.map_eq_some_iff.mp hslave.of_act
  rw [State.mount, rslave_cons rfl] at hmounts
  cases hmounts
  exact ⟨_, ⟨rfl, rfl, rfl⟩, rfl⟩

theorem stops_bindSlave (h : Stops (bindSlave source) s e t) (he : e.Harmless) : t = s := by
  rcases h.of_then with hbind | ⟨r, -, hslave⟩
  · exact hbind.of_act.2
  · obtain ⟨rfl, -⟩ := hslave.of_act
    exact Bool.noConfusion he

theorem steady_bindSlave : Steady (bindSlave source) := .bind (.act _) fun _ => .act _

theorem yields_bindWhen {test : State → Bool} (h : Yields (bindWhen test source) s () t) :
    (test s = false ∧ t = s) ∨ (test s = true ∧ ∃ m, SlaveOf source m ∧ t = s.mount m) := by
  obtain ⟨r, h1, h2⟩ := h.of_then
  have hr : r = s := yields_mkdir h1
  subst hr
  cases h2.of_ifThen with
  | inl h3 => exact Or.inr ⟨h3.1, yields_bindSlave h3.2⟩
  | inr h3 => exact Or.inl h3

theorem stops_bindWhen {test : State → Bool} (h : Stops (bindWhen test source) s e t)
    (he : e.Harmless) : t = s := by
  rcases h.of_then with h1 | ⟨r, h1, h2⟩
  · exact h1.of_act.2
  · have hr : r = s := yields_mkdir h1
    subst hr
    exact stops_bindSlave h2.of_ifThen.2 he

/-- the test before a bind mount: a nested source has to be a mount point itself -/
def bindTest (nested : Bool) (source : String) (s : State) : Bool :=
  match nested with
  | false => !mountpoint s.mounts (target source)
  | true => mountpoint s.mounts (.parse source) && !mountpoint s.mounts (target source)

theorem bindTest_of_mountpoint {nested : Bool} (h : mountpoint s.mounts (target source) = true) :
    bindTest nested source s = false := by
  cases nested with
  | false => rw [bindTest, h, Bool.not_true]
  | true => rw [bindTest, h, Bool.not_true, Bool.and_false]

/-- one round of the loops over the bind mounts -/
def bindPhase (nested : Bool) (source : String) : Phase State Failure.Harmless where
  script := bindWhen (bindTest nested source) source
  Over s := bindTest nested source s = false
  steady := .bind steady_mkdir fun _ => .ifThen steady_bindSlave
  undone h he := stops_bindWhen h he
  settles h := by
    rcases yields_bindWhen h with ⟨hover, rfl⟩ | ⟨-, m, hm, rfl⟩
    · exact hover
    · exact bindTest_of_mountpoint (mountpoint_cons hm.1)
  idle hover h := by
    rcases yields_bindWhen h with ⟨-, rfl⟩ | ⟨htrue, -⟩
    · rfl
    · exact absurd (htrue.symm.trans hover) Bool.noConfusion

/-- the start of the services in the root -/
def enterPhase : Phase State Failure.Harmless where
  script := enterRoot
  Over _ := True
  steady := .act some
  undone h _ := h.of_act.2
  settles _ := trivial
  idle _ h := Yields.of_act_some h

/-! ## all parts together -/

/-- the bind mounts in the order of the script, each with whether it is a nested one -/
def bindings : List (Bool × String) :=
  [(false, "/dev"), (false, "/proc"), (false, "/sys"), (true, "/dev/pts"), (true, "/sys/fs/cgroup")]

def starter (image : String) : List (Phase State Failure.Harmless) :=
  cgroupPhase :: rootPhase image :: (bindings.map (fun b => bindPhase b.1 b.2) ++ [enterPhase])

theorem scriptOf_starter (image : String) : scriptOf (starter image) = inSequence (phases image) := rfl

/-- From `s` to `t` mounts came to the table, at some of the targets. -/
def Adds (targets : List PosixPath) (s t : State) : Prop :=
  t.controllersReadable = s.controllersReadable ∧
    ∃ new, t.mounts = new ++ s.mounts ∧ ∀ m ∈ new, m.target ∈ targets

section adds
variable {targets : List PosixPath} {path : PosixPath}

theorem Adds.refl (s : State) : Adds targets s s :=
  ⟨rfl, [], rfl, fun _ h => absurd h List.not_mem_nil⟩

theorem adds_mount {m : Mount} (h : m.target ∈ targets) : Adds targets s (s.mount m) := by
  refine ⟨rfl, [m], rfl, fun m' hm' => ?_⟩
  rw [List.mem_singleton.mp hm']
  exact h

theorem Adds.stack (h : Adds targets s t) (hpath : ∀ p ∈ targets, ¬ Covers p path) :
    stack t.mounts path = stack s.mounts path := by
  obtain ⟨-, new, hnew, htargets⟩ := h
  rw [hnew]
  exact stack_append fun m hm => hpath m.target (htargets m hm)

theorem Adds.mountpoint (h : Adds targets s t) (hpath : ∀ p ∈ targets, ¬ Covers p path) :
    mountpoint t.mounts path = mountpoint s.mounts path := mountpoint_congr (h.stack hpath)

theorem Adds.hasCgroups (h : Adds targets s t) (hs : HasCgroups s) : HasCgroups t := by
  obtain ⟨hreadable, new, hnew, -⟩ := h
  rcases hs with hs | ⟨m, hm, hfstype⟩
  · exact Or.inl (hreadable.trans hs)
  · refine Or.inr ⟨m, ?_, hfstype⟩
    rw [hnew]
    exact List.mem_append_right new hm

theorem adds_mountRoot (h : Yields (mountRoot image) s () t) : Adds [root] s t := by
  rcases yields_mountRoot h with ⟨-, rfl⟩ | ⟨-, n, -, rfl⟩
  · exact Adds.refl t
  · refine ⟨rfl, [ext4Of n], rfl, fun m hm => ?_⟩
    rw [List.mem_singleton.mp hm]
    exact List.mem_singleton_self root

theorem adds_bindWhen {test : State → Bool} (h : Yields (bindWhen test source) s () t) :
    Adds [target source] s t := by
  rcases yields_bindWhen h with ⟨-, rfl⟩ | ⟨-, m, hm, rfl⟩
  · exact Adds.refl t
  · refine adds_mount ?_
    rw [hm.1]
    exact List.mem_singleton_self _

theorem Adds.bindTest {nested : Bool} (h : Adds targets s t)
    (hs : ∀ p ∈ targets, ¬ Covers p (.parse source))
    (ht : ∀ p ∈ targets, ¬ Covers p (target source)) :
    bindTest nested source t = bindTest nested source s := by
  cases nested with
  | false => rw [RT7.Recovery.bindTest, RT7.Recovery.bindTest, h.mountpoint ht]
  | true => rw [RT7.Recovery.bindTest, RT7.Recovery.bindTest, h.mountpoint hs, h.mountpoint ht]

end adds

/-- No mount of the script hides an earlier one, or a source. -/
theorem covers_bindings :
    (∀ b ∈ bindings, ¬ Covers (target b.2) root) ∧
      bindings.Pairwise fun b b' =>
        ¬ Covers (target b'.2) (.parse b.2) ∧ ¬ Covers (target b'.2) (target b.2) := by
  decide +kernel

theorem lasting_starter (image : String) : Lasting (starter image) := by
  obtain ⟨hroot, hpairs⟩ := covers_bindings
  refine List.pairwise_cons.mpr ⟨?_, List.pairwise_cons.mpr ⟨?_, List.pairwise_append.mpr
    ⟨?_, List.pairwise_singleton _ _, ?_⟩⟩⟩
  · -- a cgroup hierarchy does not go away
    intro q hq s t hs h
    rcases List.mem_cons.mp hq with rfl | hq
    · exact (adds_mountRoot h).hasCgroups hs
    · rcases List.mem_append.mp hq with hq | hq
      · obtain ⟨b, -, rfl⟩ := List.mem_map.mp hq
        exact (adds_bindWhen h).hasCgroups hs
      · cases List.mem_singleton.mp hq
        rw [enterPhase.idle trivial h]
        exact hs
  · -- the root stays a mount point
    intro q hq s t hs h
    rcases List.mem_append.mp hq with hq | hq
    · obtain ⟨b, hb, rfl⟩ := List.mem_map.mp hq
      have hapart : ∀ p ∈ [target b.2], ¬ Covers p root := by
        intro p hp
        rw [List.mem_singleton.mp hp]
        exact hroot b hb
      exact ((adds_bindWhen h).mountpoint hapart).trans hs
    · cases List.mem_singleton.mp hq
      rw [enterPhase.idle trivial h]
      exact hs
  · -- a later bind mount does not change the test of an earlier one
    rw [List.pairwise_map]
    refine hpairs.imp fun {b b'} hb s t hs h => ?_
    refine Eq.trans ((adds_bindWhen h).bindTest ?_ ?_) hs
    · intro p hp
      rw [List.mem_singleton.mp hp]
      exact hb.1
    · intro p hp
      rw [List.mem_singleton.mp hp]
      exact hb.2
  · intro p _ q hq s t hs h
    cases List.mem_singleton.mp hq
    rw [enterPhase.idle trivial h]
    exact hs

end RT7.Recovery
