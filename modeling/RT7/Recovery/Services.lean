import RT7.Recovery.Chroot
import RT7.Recovery.Restart

/-!
# Which services a run starts

* `Tracked`         at most one process of each daemon, and its pid file names it;
* `Launched`, `Leaves`   when the script starts a daemon, and everything that a run can change;
* `Intact`          what holds of the root at every moment, with `intact_event` and `Leaves.intact`;
* `binder`          the phases of the starter before it enters the root;
* `Reached`         what runs of the whole starter leave, with anything between them;
* `device_started`  a run that ends well after such runs.
-/

namespace RT7.Recovery

open Shell
open RT7.Script (isSpace)

/-- At most one process of each daemon; once it has written its pid file, that names it. -/
structure Tracked (s : Debian) : Prop where
  pids : (s.processes.map Process.pid).Nodup
  single : ∀ p ∈ s.processes, ∀ q ∈ s.processes, ∀ daemon, p.daemon = some daemon →
    q.daemon = some daemon → p = q
  named : ∀ p ∈ s.processes, ∀ daemon, p.daemon = some daemon → p.settled = true →
    s.pidFiles daemon = some (pidText daemon p.pid)

/-- Every daemon has written its pid file. -/
def Settled (s : Debian) : Prop := ∀ p ∈ s.processes, p.settled = true

def Alive (daemon : Daemon) (s : Debian) : Prop := ∃ p ∈ s.processes, p.daemon = some daemon

instance (daemon : Daemon) (s : Debian) : Decidable (Alive daemon s) :=
  inferInstanceAs (Decidable (∃ p ∈ s.processes, p.daemon = some daemon))

/-- `kill -0` takes what the pid file holds, though there is no such daemon. -/
def Stale (daemon : Daemon) (s : Debian) : Prop := s.running daemon = true ∧ ¬ Alive daemon s

/-- What holds of the root at every moment. -/
structure Intact (s : Debian) : Prop where
  tracked : Tracked s
  started : ∀ x ∈ s.started, (∃ keys, x.authorizedKeys = some keys ∧ keys ≠ []) ∧ x.mounted = true

variable {s t r : Device} {d d' : Debian} {daemon other : Daemon} {pid : Nat} {p q : Process}

/-! ## pid files -/

theorem isSpace_of_isDigit {c : Char} (h : c.isDigit = true) : isSpace c = false := by
  have hlow : 48 ≤ c.toNat := (Char.isDigit_iff_toNat.mp h).1
  have hblank : c ≠ ' ' := by
    rintro rfl
    exact absurd hlow (by decide)
  have hhigh : ¬ c.toNat ≤ 13 := by omega
  rw [isSpace, decide_eq_false hblank, decide_eq_false hhigh, Bool.and_false, Bool.or_false]

theorem digits_eq {text : List Char} (hne : text ≠ []) (h : ∀ c ∈ text, c.isDigit = true) :
    digits text = some (Nat.ofDigitChars 10 text 0) := by
  have hnumber : text.takeWhile Char.isDigit = text := List.takeWhile_eq_self_iff.mpr h
  have hrest : text.dropWhile Char.isDigit = [] := List.dropWhile_eq_nil_iff.mpr h
  rw [digits, hnumber, hrest, if_pos ⟨hne, rfl⟩]

/-- digits are neither blanks nor a sign -/
theorem number_eq {text : List Char} (hne : text ≠ []) (h : ∀ c ∈ text, c.isDigit = true) :
    number text = some (Nat.ofDigitChars 10 text 0) := by
  obtain ⟨c, cs, rfl⟩ := List.exists_cons_of_ne_nil hne
  have hc : c.isDigit = true := h c List.mem_cons_self
  have hblank : (c :: cs).dropWhile isSpace = c :: cs := by
    rw [List.dropWhile_cons, isSpace_of_isDigit hc, if_neg Bool.false_ne_true]
  rw [number, hblank]
  split
  · next hplus =>
    rw [(List.cons.inj hplus).1] at hc
    exact absurd hc (by decide)
  · next hminus =>
    rw [(List.cons.inj hminus).1] at hc
    exact absurd hc (by decide)
  · exact digits_eq hne h

theorem repr_isDigit (n : Nat) :
    (Nat.repr n).toList ≠ [] ∧ ∀ c ∈ (Nat.repr n).toList, c.isDigit = true := by
  have htext : (Nat.repr n).toList = Nat.toDigits 10 n := String.toList_ofList
  rw [htext]
  exact ⟨Nat.toDigits_ne_nil, fun c hc => Nat.isDigit_of_mem_toDigits (by decide) (by decide) hc⟩

theorem number_repr (n : Nat) : number (Nat.repr n).toList = some n := by
  obtain ⟨hne, hdigits⟩ := repr_isDigit n
  have htext : (Nat.repr n).toList = Nat.toDigits 10 n := String.toList_ofList
  rw [number_eq hne hdigits, htext, Nat.ofDigitChars_ten_toDigits]

theorem kill0_repr (s : Debian) (n : Nat) :
    s.kill0 (Nat.repr n).toList = (n = 0 || s.processes.any fun p => p.pid = n) := by
  obtain ⟨hne, hdigits⟩ := repr_isDigit n
  unfold Debian.kill0
  split
  · next rest hminus =>
    have hc := hdigits '-' (hminus ▸ List.mem_cons_self)
    exact absurd hc (by decide)
  · rw [number_repr]
    rfl

theorem catText_pidText (daemon : Daemon) (n : Nat) :
    catText (pidText daemon n) = (Nat.repr n).toList := by
  obtain ⟨hne, hdigits⟩ := repr_isDigit n
  have hfilter : (Nat.repr n).toList.filter (· ≠ '\x00') = (Nat.repr n).toList := by
    refine List.filter_eq_self.mpr fun c hc => decide_eq_true ?_
    rintro rfl
    exact absurd (hdigits _ hc) (by decide)
  have hlast : (Nat.repr n).toList.rdropWhile (· = '\n') = (Nat.repr n).toList := by
    refine List.rdropWhile_eq_self_iff.mpr fun hl h => ?_
    have hdigit := hdigits _ (List.getLast_mem hl)
    rw [of_decide_eq_true h] at hdigit
    exact absurd hdigit (by decide)
  cases daemon with
  | dockerd =>
    show ((Nat.repr n).toList.filter (· ≠ '\x00')).rdropWhile (· = '\n') = _
    rw [hfilter, hlast]
  | sshd =>
    have hline : (pidText .sshd n).toList = (Nat.repr n).toList ++ ['\n'] := by
      rw [pidText, String.toList_append]
      rfl
    have hend : ['\n'].filter (· ≠ '\x00') = ['\n'] := by decide
    rw [catText, hline, List.filter_append, hfilter, hend, List.rdropWhile_concat_pos _ _ _ (by decide),
      hlast]

theorem pidText_ne_empty (daemon : Daemon) (n : Nat) : pidText daemon n ≠ "" := by
  intro hempty
  have hcat := catText_pidText daemon n
  rw [hempty] at hcat
  exact (repr_isDigit n).1 hcat.symm

theorem running_of_live (h : Tracked d) (hp : p ∈ d.processes) (hdaemon : p.daemon = some daemon)
    (hsettled : p.settled = true) : d.running daemon = true := by
  have hlive : (d.processes.any fun q => q.pid = p.pid) = true :=
    List.any_eq_true.mpr ⟨p, hp, decide_eq_true rfl⟩
  rw [Debian.running, h.named p hp daemon hdaemon hsettled]
  show (decide (pidText daemon p.pid ≠ "") && d.kill0 (catText (pidText daemon p.pid))) = true
  rw [decide_eq_true (pidText_ne_empty daemon p.pid), Bool.true_and, catText_pidText, kill0_repr, hlive,
    Bool.or_true]

/-- Where the script does not take a daemon for running, none runs. -/
theorem not_alive_of_not_running (h : Tracked d) (hsettled : ∀ p ∈ d.processes,
    p.daemon = some daemon → p.settled = true) (hno : d.running daemon = false) : ¬ Alive daemon d := by
  rintro ⟨p, hp, hdaemon⟩
  rw [running_of_live h hp hdaemon (hsettled p hp hdaemon)] at hno
  cases hno

/-! ## between two runs -/

/-- fewer processes, and pid files that are the same for those that are left -/
theorem Tracked.fewer (h : Tracked d) (hsub : List.Sublist d'.processes d.processes)
    (hfiles : ∀ p ∈ d'.processes, ∀ daemon, p.daemon = some daemon →
      d'.pidFiles daemon = d.pidFiles daemon) : Tracked d' where
  pids := h.pids.sublist (hsub.map Process.pid)
  single p hp q hq := h.single p (hsub.subset hp) q (hsub.subset hq)
  named p hp daemon hdaemon hsettled := by
    rw [hfiles p hp daemon hdaemon]
    exact h.named p (hsub.subset hp) daemon hdaemon hsettled

theorem Tracked.settles (h : Tracked d) (hp : p ∈ d.processes) (hkind : p.daemon = some daemon) :
    Tracked { d with
      processes := d.processes.map fun q => if q = p then { q with settled := true } else q
      pidFiles := Function.update d.pidFiles daemon (some (pidText daemon p.pid)) } := by
  have hmem : ∀ q' ∈ d.processes.map (fun q => if q = p then { q with settled := true } else q),
      ∃ q ∈ d.processes, q'.pid = q.pid ∧ q'.daemon = q.daemon ∧
        q' = (if q = p then { q with settled := true } else q) := by
    intro q' hq'
    obtain ⟨q, hq, rfl⟩ := List.mem_map.mp hq'
    refine ⟨q, hq, ?_, ?_, rfl⟩
    · split
      · rfl
      · rfl
    · split
      · rfl
      · rfl
  constructor
  · have hpids : (d.processes.map fun q => if q = p then { q with settled := true } else q).map
        Process.pid = d.processes.map Process.pid := by
      rw [List.map_map]
      refine List.map_congr_left fun q _ => ?_
      show Process.pid (if q = p then { q with settled := true } else q) = q.pid
      split
      · rfl
      · rfl
    rw [hpids]
    exact h.pids
  · intro a ha b hb k hak hbk
    obtain ⟨x, hx, -, hdx, rfl⟩ := hmem a ha
    obtain ⟨y, hy, -, hdy, rfl⟩ := hmem b hb
    rw [h.single x hx y hy k (hdx ▸ hak) (hdy ▸ hbk)]
  · intro a ha k hak hset
    obtain ⟨x, hx, hpid, hdx, heq⟩ := hmem a ha
    rw [hdx] at hak
    by_cases hk : k = daemon
    · subst hk
      rw [h.single x hx p hp k hak hkind] at hpid
      rw [hpid]
      exact Function.update_self _ _ _
    · have hne : x ≠ p := by
        rintro rfl
        exact hk (Option.some.inj (hak.symm.trans hkind))
      rw [if_neg hne] at heq
      subst heq
      show Function.update d.pidFiles daemon _ k = _
      rw [Function.update_of_ne hk]
      exact h.named a hx k hak hset

theorem intact_event (h : Event d d') (hd : Intact d) : Intact d' := by
  cases h with
  | exits p live => exact ⟨hd.tracked.fewer List.filter_sublist fun _ _ _ _ => rfl, hd.started⟩
  | unlinks p live kind =>
    refine ⟨hd.tracked.fewer List.filter_sublist fun q hq k hk => ?_, hd.started⟩
    apply Function.update_of_ne
    rintro rfl
    obtain ⟨hq, hne⟩ := List.mem_filter.mp hq
    exact of_decide_eq_true hne (hd.tracked.single q hq p live k hk kind ▸ rfl)
  | settles p live kind => exact ⟨hd.tracked.settles live kind, hd.started⟩
  | regroups groups => exact ⟨⟨hd.tracked.pids, hd.tracked.single, hd.tracked.named⟩, hd.started⟩
  | spawns pid free =>
    refine ⟨⟨?_, ?_, ?_⟩, hd.started⟩
    · refine List.nodup_cons.mpr ⟨fun hmem => ?_, hd.tracked.pids⟩
      obtain ⟨p, hp, hpid⟩ := List.mem_map.mp hmem
      exact free p hp hpid
    · intro a ha b hb k hak hbk
      cases ha with
      | head => cases hak
      | tail _ ha =>
        cases hb with
        | head => cases hbk
        | tail _ hb => exact hd.tracked.single a ha b hb k hak hbk
    · intro a ha k hak hset
      cases ha with
      | head => cases hak
      | tail _ ha => exact hd.tracked.named a ha k hak hset
  | configures directories hostKeys configuration authorizedKeys =>
    exact ⟨⟨hd.tracked.pids, hd.tracked.single, hd.tracked.named⟩, hd.started⟩

/-! ## what a run can change -/

/-- The directories and the host keys may have been made. -/
def Prepares (s r : Device) : Prop :=
  ∃ directories hostKeys, r = { s with debian := { s.debian with
    directories := directories, hostKeys := hostKeys } }

/-- A daemon is only started where the script does not see one, with keys, and inside the mounts. -/
structure Launched (daemon : Daemon) (pid : Nat) (s t : Device) : Prop where
  idle : s.debian.running daemon = false
  keys : s.debian.hasKeys = true
  mounted : mountpoints.all s.mounted = true
  start : s.start daemon pid = some t

/-- everything that a run can change -/
def Leaves (pids : Nat × Nat) (s t : Device) : Prop :=
  ∃ a b, Prepares s a ∧ (b = a ∨ Launched .sshd pids.1 a b) ∧ (t = b ∨ Launched .dockerd pids.2 b t)

theorem start_eq_some (h : s.start daemon pid = some t) :
    (∀ p ∈ s.debian.processes, p.pid ≠ pid) ∧ t = { s with debian := { s.debian with
      processes := ⟨pid, some daemon, false⟩ :: s.debian.processes
      started := ⟨daemon, s.debian.authorizedKeys, mountpoints.all s.mounted⟩ :: s.debian.started } } := by
  obtain ⟨⟨-, hfree⟩, heq⟩ := Option.ite_none_right_eq_some.mp h
  exact ⟨hfree, (Option.some.inj heq).symm⟩

theorem Launched.intact (h : Launched daemon pid s t) (hs : Intact s.debian)
    (hsettled : ∀ p ∈ s.debian.processes, p.daemon = some daemon → p.settled = true) :
    Intact t.debian := by
  obtain ⟨hfree, rfl⟩ := start_eq_some h.start
  have hnone := not_alive_of_not_running hs.tracked hsettled h.idle
  refine ⟨⟨?_, ?_, ?_⟩, ?_⟩
  · refine List.nodup_cons.mpr ⟨fun hmem => ?_, hs.tracked.pids⟩
    obtain ⟨p, hp, hpid⟩ := List.mem_map.mp hmem
    exact hfree p hp hpid
  · intro a ha b hb k hak hbk
    cases ha with
    | head =>
      cases hb with
      | head => rfl
      | tail _ hb =>
        cases hak
        exact absurd ⟨b, hb, hbk⟩ hnone
    | tail _ ha =>
      cases hb with
      | head =>
        cases hbk
        exact absurd ⟨a, ha, hak⟩ hnone
      | tail _ hb => exact hs.tracked.single a ha b hb k hak hbk
  · intro a ha k hak hset
    cases ha with
    | head => cases hset
    | tail _ ha => exact hs.tracked.named a ha k hak hset
  · intro x hx
    cases hx with
    | head =>
      obtain ⟨keys, hkeys, hne⟩ := (Option.any_eq_true _ _).mp h.keys
      exact ⟨⟨keys, hkeys, of_decide_eq_true hne⟩, h.mounted⟩
    | tail _ hx => exact hs.started x hx

theorem Leaves.intact {pids : Nat × Nat} (h : Leaves pids s t) (hs : Intact s.debian)
    (hsettled : Settled s.debian) : Intact t.debian := by
  obtain ⟨a, b, ⟨directories, hostKeys, rfl⟩, hb, ht⟩ := h
  have ha : Intact { s.debian with directories := directories, hostKeys := hostKeys } :=
    ⟨⟨hs.tracked.pids, hs.tracked.single, hs.tracked.named⟩, hs.started⟩
  have hbsettled : ∀ p ∈ b.debian.processes, p.daemon = some .dockerd → p.settled = true := by
    intro p hp hkind
    rcases hb with rfl | hlaunch
    · exact hsettled p hp
    · obtain ⟨-, rfl⟩ := start_eq_some hlaunch.start
      cases hp with
      | head => cases hkind
      | tail _ hp => exact hsettled p hp
  have hbintact : Intact b.debian := by
    rcases hb with rfl | hlaunch
    · exact ha
    · exact hlaunch.intact ha fun p hp _ => hsettled p hp
  rcases ht with rfl | hlaunch
  · exact hbintact
  · exact hlaunch.intact hbintact hbsettled

/-! ## the script in the root -/

section script
variable {uid : Nat} {pids : Nat × Nat} {e : ChrootFailure} {paths : List String}

theorem yields_requireMounts (h : Yields (inSequence (paths.map requireMount)) s () t) :
    t = s ∧ paths.all s.mounted = true := by
  induction paths with
  | nil => exact ⟨h.of_pure.2, rfl⟩
  | cons path paths ih =>
    obtain ⟨r, hguard, hrest⟩ := Yields.of_then h
    obtain ⟨hmounted, rfl⟩ := hguard.of_guard
    obtain ⟨ht, hall⟩ := ih hrest
    refine ⟨ht, ?_⟩
    rw [List.all_cons, hall, Bool.and_true]
    exact (Bool.not_eq_false' _).mp hmounted

theorem stops_requireMounts (h : Stops (inSequence (paths.map requireMount)) s e t) : t = s := by
  induction paths with
  | nil => exact absurd h not_stops_pure
  | cons path paths ih =>
    rcases Stops.of_then h with hguard | ⟨r, hguard, hrest⟩
    · exact hguard.of_guard.2.2
    · obtain ⟨-, rfl⟩ := hguard.of_guard
      exact ih hrest

/-- what a run has found when it comes to the daemons -/
structure Ready (s : Device) : Prop where
  keys : s.debian.hasKeys = true
  mounted : mountpoints.all s.mounted = true

theorem launched_of_yields {g : ChrootFailure} (hready : Ready s)
    (h : Yields (unlessRunning daemon (act g (Device.start daemon pid))) s () t) :
    (s.debian.running daemon = true ∧ t = s) ∨ Launched daemon pid s t := by
  rcases h.of_ifThen with ⟨hno, hstart⟩ | ⟨hyes, rfl⟩
  · exact Or.inr ⟨(Bool.not_eq_true' _).mp hno, hready.keys, hready.mounted, hstart.of_act⟩
  · exact Or.inl ⟨(Bool.not_eq_false' _).mp hyes, rfl⟩

theorem launched_in_background (hready : Ready s)
    (h : Yields (unlessRunning daemon (ifFails (Device.start daemon pid) (pure ()))) s () t) :
    t = s ∨ Launched daemon pid s t := by
  rcases h.of_ifThen with ⟨hno, hstart⟩ | ⟨-, rfl⟩
  · rcases hstart.of_ifFails with hstart | hpure
    · exact Or.inr ⟨(Bool.not_eq_true' _).mp hno, hready.keys, hready.mounted, hstart⟩
    · exact Or.inl hpure.of_pure.2
  · exact Or.inl rfl

theorem Ready.launched (hready : Ready s) (h : Launched other pid s t) : Ready t := by
  obtain ⟨-, rfl⟩ := start_eq_some h.start
  exact ⟨hready.keys, hready.mounted⟩

theorem yields_checkRoot (h : Yields (checkRoot uid) s () t) : Prepares s t ∧ Ready t := by
  obtain ⟨s₁, h1, hrest1⟩ := h.of_then
  obtain ⟨s₂, h2, hrest2⟩ := hrest1.of_then
  obtain ⟨s₃, h3, hrest3⟩ := hrest2.of_then
  obtain ⟨s₄, h4, hrest4⟩ := hrest3.of_then
  obtain ⟨s₅, h5, h6⟩ := hrest4.of_then
  obtain ⟨-, rfl⟩ := h1.of_guard
  obtain ⟨rfl, hmounted⟩ := yields_requireMounts h2
  have hs₃ := h3.of_act_some
  have hs₄ := h4.of_act_some
  have hs₅ := (Option.ite_none_right_eq_some.mp h5.of_act).2
  obtain ⟨hkeys, rfl⟩ := h6.of_guard
  subst hs₃ hs₄
  cases hs₅
  exact ⟨⟨true, true, rfl⟩, (Bool.not_eq_false' _).mp hkeys, hmounted⟩

theorem stops_checkRoot (h : Stops (checkRoot uid) s e t) : Prepares s t := by
  have hself : Prepares s s := ⟨s.debian.directories, s.debian.hostKeys, rfl⟩
  rcases h.of_then with h1 | ⟨s₁, h1, hrest1⟩
  · exact h1.of_guard.2.2 ▸ hself
  obtain ⟨-, rfl⟩ := h1.of_guard
  rcases hrest1.of_then with h2 | ⟨s₂, h2, hrest2⟩
  · exact stops_requireMounts h2 ▸ hself
  obtain ⟨rfl, -⟩ := yields_requireMounts h2
  rcases hrest2.of_then with h3 | ⟨s₃, h3, hrest3⟩
  · exact h3.of_act.2 ▸ hself
  have hs₃ := h3.of_act_some
  subst hs₃
  rcases hrest3.of_then with h4 | ⟨s₄, h4, hrest4⟩
  · exact h4.of_act.2 ▸ ⟨true, s₂.debian.hostKeys, rfl⟩
  have hs₄ := h4.of_act_some
  subst hs₄
  have hboth : Prepares s₂ { s₂ with debian := { s₂.debian with directories := true, hostKeys := true } } :=
    ⟨true, true, rfl⟩
  rcases hrest4.of_then with h5 | ⟨s₅, h5, h6⟩
  · exact h5.of_act.2 ▸ hboth
  cases (Option.ite_none_right_eq_some.mp h5.of_act).2
  exact h6.of_guard.2.2 ▸ hboth

/-- the daemons are looked for, and started, one after the other -/
theorem yields_startDaemons (hready : Ready s) (h : Yields (startDaemons pids) s () t) :
    ∃ b, ((s.debian.running .sshd = true ∧ b = s) ∨ Launched .sshd pids.1 s b) ∧
      (t = b ∨ Launched .dockerd pids.2 b t) := by
  obtain ⟨s₁, h1, hrest⟩ := h.of_then
  obtain ⟨s₂, h2, h3⟩ := hrest.of_then
  have ht := h3.of_act_some
  subst ht
  have hsshd := launched_of_yields hready h1
  refine ⟨s₁, hsshd, launched_in_background ?_ h2⟩
  rcases hsshd with ⟨-, rfl⟩ | hlaunch
  · exact hready
  · exact hready.launched hlaunch

theorem stops_startDaemons (hready : Ready s) (h : Stops (startDaemons pids) s e t) :
    ∃ b, (b = s ∨ Launched .sshd pids.1 s b) ∧ (t = b ∨ Launched .dockerd pids.2 b t) := by
  rcases h.of_then with h1 | ⟨s₁, h1, hrest⟩
  · exact ⟨s, Or.inl rfl, Or.inl h1.of_ifThen.2.of_act.2⟩
  have hsshd := (launched_of_yields hready h1).imp_left And.right
  have hready' : Ready s₁ := by
    rcases hsshd with rfl | hlaunch
    · exact hready
    · exact hready.launched hlaunch
  rcases hrest.of_then with h2 | ⟨s₂, h2, h3⟩
  · exact absurd h2.of_ifThen.2.of_ifFails not_stops_pure
  · have ht := h3.of_act.2
    subst ht
    exact ⟨s₁, hsshd, launched_in_background hready' h2⟩

theorem yields_chrootStart (h : Yields (chrootStart uid pids) s () t) :
    ∃ a, Prepares s a ∧ Ready a ∧ ∃ b,
      ((a.debian.running .sshd = true ∧ b = a) ∨ Launched .sshd pids.1 a b) ∧
        (t = b ∨ Launched .dockerd pids.2 b t) := by
  obtain ⟨a, hcheck, hstart⟩ := h.of_then
  obtain ⟨hprepares, hready⟩ := yields_checkRoot hcheck
  exact ⟨a, hprepares, hready, yields_startDaemons hready hstart⟩

/-- whatever a run comes to -/
theorem leaves_chrootStart (fails : Nat → Bool) (n : Nat) :
    Leaves pids s (chrootStart uid pids fails n s).state := by
  cases hrun : chrootStart uid pids fails n s with
  | done _ k t =>
    obtain ⟨a, hprepares, -, b, hb, ht⟩ := yields_chrootStart ⟨fails, n, k, hrun⟩
    exact ⟨a, b, hprepares, hb.imp_left And.right, ht⟩
  | stopped e t =>
    have hstop : Stops (chrootStart uid pids) s e t := ⟨fails, n, hrun⟩
    rcases hstop.of_then with hcheck | ⟨a, hcheck, hstart⟩
    · exact ⟨t, t, stops_checkRoot hcheck, Or.inl rfl, Or.inl rfl⟩
    · obtain ⟨hprepares, hready⟩ := yields_checkRoot hcheck
      obtain ⟨b, hb, ht⟩ := stops_startDaemons hready hstart
      exact ⟨a, b, hprepares, hb, ht⟩

/-- What a health check that ends well has found. -/
theorem yields_healthcheck (h : Yields healthcheck d () d') :
    d' = d ∧ d.sshdTest = true ∧ Alive .dockerd d := by
  obtain ⟨d₁, h1, hrest1⟩ := h.of_then
  obtain ⟨d₂, h2, hrest2⟩ := hrest1.of_then
  obtain ⟨d₃, h3, hrest3⟩ := hrest2.of_then
  obtain ⟨d₄, h4, h5⟩ := hrest3.of_then
  have hd₁ := h1.of_act_some
  have hd₂ := h2.of_act_some
  subst hd₁ hd₂
  obtain ⟨htest, hd₃⟩ := Option.ite_none_right_eq_some.mp h3.of_act
  obtain ⟨hdocker, hd₄⟩ := Option.ite_none_right_eq_some.mp h4.of_act
  obtain ⟨-, hd'⟩ := Option.ite_none_right_eq_some.mp h5.of_act
  cases hd₃
  cases hd₄
  obtain ⟨p, hp, hkind⟩ := List.any_eq_true.mp hdocker
  exact ⟨(Option.some.inj hd').symm, htest, p, hp, of_decide_eq_true hkind⟩

end script

/-! ## the whole starter -/

/-- the phases before the starter enters the root -/
def binder (image : String) : List (Phase State Failure.Harmless) :=
  cgroupPhase :: rootPhase image :: bindPhases bindings

theorem starter_eq (image : String) : starter image = binder image ++ [enterPhase] := rfl

theorem scriptOf_binder (image : String) : scriptOf (binder image) = inSequence (mountPhases image) := rfl

theorem lasting_binder (image : String) : Lasting (binder image) := by
  have hl := lasting_starter image
  rw [starter_eq] at hl
  exact (List.pairwise_append.mp hl).1

theorem passes_of_binder {image : String} {s t : State} (h : Passes (binder image) s t) :
    Passes (starter image) s t := by
  rw [starter_eq]
  have hidle : Yields enterPhase.script t () t := ⟨fun _ => false, 0, 1, rfl⟩
  exact h.append ⟨t, hidle, rfl⟩

section device
variable {argument : Option String} {uid : Nat} {isFile : String → Bool} {pids : Nat × Nat}
  {Allowed : Failure → Prop} {e : Failure} {s₀ : Device} {a b : State}

theorem yields_prepareRoot (h : Yields (prepareRoot argument uid isFile) a () b) :
    Passes (binder (imageArgument argument)) a b := by
  obtain ⟨r, h1, hrest⟩ := h.of_then
  obtain ⟨u, h2, hphases⟩ := hrest.of_then
  obtain ⟨-, rfl⟩ := h1.of_guard
  obtain ⟨-, rfl⟩ := h2.of_guard
  rw [← scriptOf_binder] at hphases
  exact hphases.passes

theorem stops_prepareRoot (h : Stops (prepareRoot argument uid isFile) a e b) :
    b = a ∨ Stops (scriptOf (binder (imageArgument argument))) a e b := by
  rcases h.of_then with h1 | ⟨r, h1, hrest⟩
  · exact Or.inl h1.of_guard.2.2
  obtain ⟨-, rfl⟩ := h1.of_guard
  rcases hrest.of_then with h2 | ⟨u, h2, hphases⟩
  · exact Or.inl h2.of_guard.2.2
  obtain ⟨-, rfl⟩ := h2.of_guard
  rw [scriptOf_binder]
  exact Or.inr hphases

/-- A run either mounts only, or has mounted everything and enters the root. -/
theorem startDevice_cases (fails : Nat → Bool) (n : Nat) :
    (∃ e r, startDevice argument uid isFile pids fails n s = .stopped e { s with recovery := r } ∧
      Stops (prepareRoot argument uid isFile) s.recovery e r) ∨
    ∃ r m, Yields (prepareRoot argument uid isFile) s.recovery () r ∧
      (startDevice argument uid isFile pids fails n s).state =
        (chrootStart uid pids fails m { s with recovery := r }).state := by
  cases hroot : prepareRoot argument uid isFile fails n s.recovery with
  | stopped e r =>
    refine Or.inl ⟨e, r, ?_, fails, n, hroot⟩
    show Shell.bind (within _ _) _ fails n s = _
    rw [Shell.bind, within, show Device.lensRecovery.get s = s.recovery from rfl, hroot]
    rfl
  | done u m r =>
    refine Or.inr ⟨r, m, ⟨fails, n, m, hroot⟩, ?_⟩
    show (Shell.bind (within _ _) _ fails n s).state = _
    rw [Shell.bind, within, show Device.lensRecovery.get s = s.recovery from rfl, hroot]
    show (Shell.bind (relabel _ _) _ fails m { s with recovery := r }).state = _
    rw [Shell.bind, relabel]
    cases chrootStart uid pids fails m { s with recovery := r } with
    | stopped e t => rfl
    | done u k t =>
      show (act Failure.message some fails k t).state = t
      rw [act, command]
      split
      · rfl
      · rfl

/-! ## runs, with anything between them -/

/-- What runs of the starter leave; a run begins when each daemon has written its pid file. -/
inductive Reached (Allowed : Failure → Prop) (argument : Option String) (s₀ : Device) : Device → Prop
  | start : Reached Allowed argument s₀ s₀
  | event {s : Device} (before : Reached Allowed argument s₀ s) {d : Debian} (event : Event s.debian d) :
      Reached Allowed argument s₀ { s with debian := d }
  | run {s : Device} (before : Reached Allowed argument s₀ s) (settled : Settled s.debian) (uid : Nat)
      (isFile : String → Bool) (pids : Nat × Nat) (fails : Nat → Bool)
      (allowed : ∀ e ∈ (startDevice argument uid isFile pids fails 0 s).failure, Allowed e) :
      Reached Allowed argument s₀ (startDevice argument uid isFile pids fails 0 s).state

theorem intact_run (hs : Intact s.debian) (hsettled : Settled s.debian) (fails : Nat → Bool) :
    Intact (startDevice argument uid isFile pids fails 0 s).state.debian := by
  rcases startDevice_cases fails 0 with ⟨e, r, hrun, -⟩ | ⟨r, m, -, hstate⟩
  · rw [hrun]
    exact hs
  · rw [hstate]
    exact (leaves_chrootStart fails m).intact hs hsettled

theorem reached_intact (h₀ : Intact s₀.debian) (h : Reached Allowed argument s₀ s) : Intact s.debian := by
  induction h with
  | start => exact h₀
  | event before event ih => exact intact_event event ih
  | run before settled uid isFile pids fails allowed ih => exact intact_run ih settled fails

theorem Launched.recovery (h : Launched daemon pid s t) : t.recovery = s.recovery := by
  obtain ⟨-, rfl⟩ := start_eq_some h.start
  rfl

theorem Leaves.recovery (h : Leaves pids s t) : t.recovery = s.recovery := by
  obtain ⟨a, b, ha, hb, ht⟩ := h
  have h1 : a.recovery = s.recovery := by
    obtain ⟨directories, hostKeys, rfl⟩ := ha
    rfl
  have h2 : b.recovery = a.recovery := by
    rcases hb with rfl | hlaunch
    · rfl
    · exact hlaunch.recovery
  rcases ht with rfl | hlaunch
  · exact h2.trans h1
  · exact hlaunch.recovery.trans (h2.trans h1)

theorem recovery_of_chrootStart (h : Yields (chrootStart uid pids) s () t) :
    t.recovery = s.recovery := by
  obtain ⟨a, ha, -, b, hb, ht⟩ := yields_chrootStart h
  have hleaves : Leaves pids s t := ⟨a, b, ha, hb.imp_left And.right, ht⟩
  exact hleaves.recovery

/-- After harmless failures a run resumes the mounts where the earlier ones have stopped. -/
theorem reached_resumes (h : Reached Failure.Harmless argument s₀ s) :
    Resumes (binder (imageArgument argument)) s₀.recovery s.recovery := by
  have hl := lasting_binder (imageArgument argument)
  induction h with
  | start => exact Resumes.refl _ _
  | event before event ih => exact ih
  | run before settled uid isFile pids fails allowed ih =>
    rcases startDevice_cases fails 0 with ⟨e, r, hrun, hstop⟩ | ⟨r, m, hroot, hstate⟩
    · rw [hrun] at allowed ⊢
      rcases stops_prepareRoot hstop with rfl | hphases
      · exact ih
      · exact ih.stop hl hphases (allowed e rfl)
    · rw [hstate, (leaves_chrootStart fails m).recovery]
      exact ih.complete hl (yields_prepareRoot hroot)

theorem yields_startDevice (h : Yields (startDevice argument uid isFile pids) s () t) :
    ∃ r, Passes (binder (imageArgument argument)) s.recovery r ∧
      Yields (chrootStart uid pids) { s with recovery := r } () t := by
  obtain ⟨u, hroot, hrest⟩ := h.of_then
  obtain ⟨v, hchroot, hmessage⟩ := hrest.of_then
  have ht := hmessage.of_act_some
  subst ht
  obtain ⟨hroot, hu⟩ := hroot.of_within
  rw [hu] at hchroot
  exact ⟨u.recovery, yields_prepareRoot hroot, hchroot.of_relabel⟩

theorem alive_launched (h : Launched daemon pid s t) :
    Alive other t.debian ↔ other = daemon ∨ Alive other s.debian := by
  obtain ⟨-, rfl⟩ := start_eq_some h.start
  constructor
  · rintro ⟨p, hp, hkind⟩
    cases hp with
    | head => exact Or.inl (Option.some.inj hkind).symm
    | tail _ hp => exact Or.inr ⟨p, hp, hkind⟩
  · rintro (rfl | ⟨p, hp, hkind⟩)
    · exact ⟨_, List.mem_cons_self, rfl⟩
    · exact ⟨p, List.mem_cons_of_mem _ hp, hkind⟩

/-- what a run that ends well has done to the daemons -/
theorem daemons_of_yields (hs : Tracked s.debian) (hsettled : Settled s.debian)
    (h : Yields (chrootStart uid pids) s () t) :
    Ready t ∧ (Alive .sshd t.debian ↔ ¬ Stale .sshd s.debian) ∧
      (Alive .sshd s.debian → Alive .dockerd s.debian → t.debian.processes = s.debian.processes) := by
  obtain ⟨a, ⟨directories, hostKeys, rfl⟩, hready, b, hb, ht⟩ := yields_chrootStart h
  have hb' := hb.imp_left And.right
  have hbready : Ready b := by
    rcases hb' with rfl | hlaunch
    · exact hready
    · exact hready.launched hlaunch
  refine ⟨?_, ?_, fun hsshd hdockerd => ?_⟩
  · rcases ht with rfl | hlaunch
    · exact hbready
    · exact hbready.launched hlaunch
  · have htb : Alive .sshd t.debian ↔ Alive .sshd b.debian := by
      rcases ht with rfl | hlaunch
      · exact Iff.rfl
      · rw [alive_launched hlaunch, or_iff_right Daemon.noConfusion]
    rw [htb]
    rcases hb with ⟨hrunning, rfl⟩ | hlaunch
    · exact ⟨fun halive hstale => hstale.2 halive, fun hno => by_contra fun hdead => hno ⟨hrunning, hdead⟩⟩
    · refine iff_of_true ((alive_launched hlaunch).mpr (Or.inl rfl)) fun hstale => ?_
      have hidle : s.debian.running .sshd = false := hlaunch.idle
      rw [hstale.1] at hidle
      cases hidle
  · have hlive : ∀ {k : Daemon}, Alive k s.debian → s.debian.running k = true := by
      rintro k ⟨p, hp, hkind⟩
      exact running_of_live hs hp hkind (hsettled p hp)
    rcases hb' with rfl | hlaunch
    · rcases ht with rfl | hlaunch
      · rfl
      · exact absurd ((hlive hdockerd).symm.trans hlaunch.idle) Bool.noConfusion
    · exact absurd ((hlive hsshd).symm.trans hlaunch.idle) Bool.noConfusion

/-- **The services of the device.** Whatever runs of the starter came before, and whatever happened
between them, there is at most one process of each daemon, and none was started without keys or
outside the mounts. A run that ends well after runs that left nothing half done leaves the mounts that
the starter is there for, and `sshd` unless its pid file passed for that of another one; it starts nothing where
both daemons run. -/
theorem device_started {argument : Option String} {s₀ : Device} (h₀ : Intact s₀.debian) :
    (∀ s, Reached (fun _ => True) argument s₀ s → Intact s.debian) ∧
      ∀ s, Reached Failure.Harmless argument s₀ s → Settled s.debian →
        ∀ uid isFile pids t, Yields (startDevice argument uid isFile pids) s () t →
          (Started (imageArgument argument) t.recovery ↔ Startable (imageArgument argument) s₀.recovery) ∧
          Ready t ∧ (Alive .sshd t.debian ↔ ¬ Stale .sshd s.debian) ∧
          (Alive .sshd s.debian → Alive .dockerd s.debian →
            t.debian.processes = s.debian.processes) := by
  refine ⟨fun s h => reached_intact h₀ h, fun s h hsettled uid isFile pids t hrun => ?_⟩
  obtain ⟨r, hpasses, hchroot⟩ := yields_startDevice hrun
  have ht : t.recovery = r := recovery_of_chrootStart hchroot
  have hall := passes_of_binder ((reached_resumes h).passes hpasses)
  have hdaemons := daemons_of_yields (s := { s with recovery := r }) (reached_intact h₀ h).tracked
    hsettled hchroot
  rw [ht]
  exact ⟨started_iff hall, hdaemons⟩

end device

/-! ## a start from a recovery that has just booted -/

/-- an old pid file, and no keys yet -/
def sampleDebian : Debian where
  directories := false
  hostKeys := false
  configuration := true
  authorizedKeys := none
  pidFiles := fun daemon => if daemon = .sshd then some "217\n" else none
  processes := [⟨1, none, true⟩]
  groups := fun group => group ≤ 1
  started := []

def sampleKeys : Bytes := Text.asciiBytes "ssh-ed25519 AAAA"

/-- somebody has put keys into the root -/
def sampleDevice : Device := ⟨booted, { sampleDebian with authorizedKeys := some sampleKeys }⟩

/-- a start as root, with the image in its place -/
def sampleStart : Ending Device Failure Unit :=
  startDevice none 0 (fun _ => true) (300, 301) (fun _ => false) 0 sampleDevice

theorem device_started_sample :
    sampleStart.failure = none ∧ Started (imageArgument none) sampleStart.state.recovery ∧
      Alive .sshd sampleStart.state.debian := by
  have hrun : sampleStart.failure = none ∧ sampleDevice.debian.running .sshd = false ∧
      mountpoint sampleDevice.recovery.mounts root = false := by decide +kernel
  obtain ⟨hend, hidle, hroot⟩ := hrun
  have hfirst : ∀ p ∈ sampleDebian.processes, p = ⟨1, none, true⟩ := fun p hp => List.mem_singleton.mp hp
  have h₀ : Intact (Device.debian ⟨booted, sampleDebian⟩) := by
    refine ⟨⟨List.nodup_singleton 1, fun p hp q hq k hk _ => ?_, fun p hp k hk _ => ?_⟩, fun x hx => ?_⟩
    · rw [hfirst p hp] at hk
      cases hk
    · rw [hfirst p hp] at hk
      cases hk
    · cases hx
  have hreached : Reached Failure.Harmless none ⟨booted, sampleDebian⟩ sampleDevice :=
    .event .start (.configures _ _ _ _)
  obtain ⟨u, k, hdone⟩ := Ending.exists_done hend
  obtain ⟨hstarted, -, halive, -⟩ := (device_started h₀).2 sampleDevice hreached
    (fun p hp => by rw [hfirst p hp]) 0 (fun _ => true) (300, 301) _ ⟨_, 0, k, hdone⟩
  refine ⟨hend, hstarted.mpr (startable_of_not_mounted hroot), halive.mpr fun hstale => ?_⟩
  rw [hstale.1] at hidle
  cases hidle

end RT7.Recovery
