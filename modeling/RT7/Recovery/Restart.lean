import RT7.Recovery.Started

/-!
# Starting again

* `Earlier`         the states that earlier runs with the same image leave, when each of them may stop
  at an allowed failure;
* `resumes_earlier` after harmless failures a run resumes where the earlier ones have stopped;
* `restarted`       a run that gets to its final message after such runs leaves what one run from the
  start leaves;
* `loop_state_lost` after a failure that leaves a part half done it need not.
-/

namespace RT7.Recovery

open Text Shell

/-- What any number of earlier runs leave, whoever started them and whichever commands failed. -/
inductive Earlier (Allowed : Failure → Prop) (argument : Option String) (s₀ : State) : State → Prop
  | start : Earlier Allowed argument s₀ s₀
  | run {s : State} (before : Earlier Allowed argument s₀ s) (uid : Nat) (isFile : String → Bool)
      (fails : Nat → Bool)
      (allowed : ∀ e ∈ (main argument uid isFile fails 0 s).failure, Allowed e) :
      Earlier Allowed argument s₀ (main argument uid isFile fails 0 s).state

variable {argument : Option String} {uid : Nat} {isFile : String → Bool} {s₀ s t : State}
  {e : Failure}

theorem yields_prepare (h : Yields (prepare argument uid isFile) s () t) :
    (uid = 0 ∧ isFile (imageArgument argument) = true) ∧
      Yields (scriptOf (starter (imageArgument argument))) s () t := by
  obtain ⟨r, h1, hrest⟩ := h.of_then
  obtain ⟨u, h2, hphases⟩ := hrest.of_then
  obtain ⟨huid, rfl⟩ := h1.of_guard
  obtain ⟨hfile, rfl⟩ := h2.of_guard
  rw [scriptOf_starter]
  exact ⟨⟨by simpa using huid, by simpa using hfile⟩, hphases⟩

/-- what the checks at the top of the script stop has done nothing -/
theorem stops_prepare (h : Stops (prepare argument uid isFile) s e t) :
    t = s ∨ Stops (scriptOf (starter (imageArgument argument))) s e t := by
  rcases h.of_then with h1 | ⟨r, h1, hrest⟩
  · exact Or.inl h1.of_guard.2.2
  obtain ⟨-, rfl⟩ := h1.of_guard
  rcases hrest.of_then with h2 | ⟨u, h2, hphases⟩
  · exact Or.inl h2.of_guard.2.2
  obtain ⟨-, rfl⟩ := h2.of_guard
  rw [scriptOf_starter]
  exact Or.inr hphases

theorem prepare_undisturbed (huid : uid = 0) (hfile : isFile (imageArgument argument) = true)
    (h : Passes (starter (imageArgument argument)) s t) :
    ∃ j, (main argument uid isFile).undisturbed s = .done () j t := by
  obtain ⟨j, hj⟩ := h.undisturbed 0
  have huser : decide (uid ≠ 0) = false := decide_eq_false (not_not_intro huid)
  have himage : (!isFile (imageArgument argument)) = false := by rw [hfile, Bool.not_true]
  refine ⟨j + 1, bind_eq_done.mpr ⟨(), j, t, ?_, rfl⟩⟩
  refine bind_eq_done.mpr ⟨(), 0, s, ?_, bind_eq_done.mpr ⟨(), 0, s, ?_, hj⟩⟩
  · apply ifThen_of_false
    exact huser
  · apply ifThen_of_false
    exact himage

/-- One more run, whatever it comes to, keeps the earlier work resumable. -/
theorem resumes_run (hr : Resumes (starter (imageArgument argument)) s₀ s) (fails : Nat → Bool)
    (allowed : ∀ e ∈ (main argument uid isFile fails 0 s).failure, e.Harmless) :
    Resumes (starter (imageArgument argument)) s₀ (main argument uid isFile fails 0 s).state := by
  have hl := lasting_starter (imageArgument argument)
  cases hrun : main argument uid isFile fails 0 s with
  | done value k t =>
    have h : Yields (main argument uid isFile) s value t := ⟨fails, 0, k, hrun⟩
    obtain ⟨r, hprepare, hmessage⟩ := h.of_then
    have ht : t = r := hmessage.of_act_some
    subst ht
    exact hr.complete hl (yields_prepare hprepare).2.passes
  | stopped e t =>
    have h : Stops (main argument uid isFile) s e t := ⟨fails, 0, hrun⟩
    have he : e.Harmless := by
      refine allowed e ?_
      rw [hrun]
      rfl
    rcases h.of_then with hprepare | ⟨r, hprepare, hmessage⟩
    · rcases stops_prepare hprepare with rfl | hphases
      · exact hr
      · exact hr.stop hl hphases he
    · obtain ⟨-, rfl⟩ := hmessage.of_act
      exact hr.complete hl (yields_prepare hprepare).2.passes

theorem resumes_earlier (h : Earlier Failure.Harmless argument s₀ s) :
    Resumes (starter (imageArgument argument)) s₀ s := by
  induction h with
  | start => exact Resumes.refl _ s₀
  | run _ uid isFile fails allowed ih => exact resumes_run ih fails allowed

/-- **The starter can be started again** after runs that stopped where nothing was half done: it
leaves what a run without failures leaves, and this is what it is there for exactly when nothing
else was mounted at its places. -/
theorem restarted (earlier : Earlier Failure.Harmless argument s₀ s) {fails : Nat → Bool} {k : Nat}
    (last : prepare argument uid isFile fails 0 s = .done () k t) :
    (∃ j, (main argument uid isFile).undisturbed s₀ = .done () j t) ∧
      (Started (imageArgument argument) t ↔ Startable (imageArgument argument) s₀) ∧
      (¬ HasCgroups s₀ → CgroupsMounted s₀ t) := by
  obtain ⟨⟨huid, hfile⟩, h⟩ := yields_prepare ⟨fails, 0, k, last⟩
  have hpasses := (resumes_earlier earlier).passes h.passes
  exact ⟨prepare_undisturbed huid hfile hpasses, started_iff hpasses, cgroups_of_passes hpasses⟩

/-! ## a recovery that has just booted -/

/-- a mount that the recovery makes when it boots -/
def bootMount (device path fstype : String) : Mount where
  device := device
  target := .parse ("/" ++ path)
  fstype := mangle fstype
  readOnly := false
  options := ["relatime"]
  bound := none
  slave := false
  absolute := absolute_parse (head_append rfl)
  bare := blank_not_mem_mangle fstype

def booted : State where
  mounts := [
    bootMount "tmpfs" "tmp" "tmpfs",
    bootMount "sysfs" "sys" "sysfs",
    bootMount "proc" "proc" "proc",
    bootMount "devpts" "dev/pts" "devpts",
    bootMount "tmpfs" "dev" "tmpfs",
    bootMount "rootfs" "" "rootfs"]
  loops := [some "/tmp/other.img", none, none]
  loopState := none
  controllersReadable := false

/-- a run as root, with the image in its place, in which the commands `failing` fail -/
def sampleRun (failing : List Nat) (s : State) : Ending State Failure Unit :=
  main none 0 (fun _ => true) (fun n => n ∈ failing) 0 s

theorem earlier_sampleRun {Allowed : Failure → Prop} (failing : List Nat)
    (before : Earlier Allowed none s₀ s)
    (allowed : ∀ e ∈ (sampleRun failing s).failure, Allowed e) :
    Earlier Allowed none s₀ (sampleRun failing s).state := .run before 0 _ _ allowed

/-- a run that nothing disturbs, up to its final message -/
def lastRun (s : State) : Ending State Failure Unit :=
  prepare none 0 (fun _ => true) (fun _ => false) 0 s

theorem lastRun_done (h : (lastRun s).failure = none) :
    ∃ k, prepare none 0 (fun _ => true) (fun _ => false) 0 s = .done () k (lastRun s).state := by
  obtain ⟨_, k, hdone⟩ := Ending.exists_done h
  exact ⟨k, hdone⟩

/-- the first run could not mount the image, the second could not bind `/sys` -/
def stoppedTwice : State := (sampleRun [12] (sampleRun [25] booted).state).state

/-- the run could not write the loop device down -/
def stoppedAtRecord : State := (sampleRun [26] booted).state

theorem sample_runs :
    (sampleRun [25] booted).failure = some .mountImage ∧
    (sampleRun [12] (sampleRun [25] booted).state).failure = some (.rbind "/sys") ∧
    (lastRun stoppedTwice).failure = none ∧
    (lastRun stoppedAtRecord).failure = none ∧
    (lastRun stoppedAtRecord).state.loopState = none ∧
    ((main none 0 fun _ => true).undisturbed booted).state.loopState = some "/dev/block/loop1\n" ∧
    mountpoint booted.mounts root = false ∧ noCgroups booted = true := by
  decide +kernel

/-- The starter on a recovery that has just booted, after two runs that came to nothing. -/
theorem restarted_booted :
    (∃ j, (main none 0 fun _ => true).undisturbed booted = .done () j (lastRun stoppedTwice).state) ∧
      Started (imageArgument none) (lastRun stoppedTwice).state ∧
      CgroupsMounted booted (lastRun stoppedTwice).state := by
  obtain ⟨h1, h2, hlast, -, -, -, hroot, hno⟩ := sample_runs
  have hearlier : Earlier Failure.Harmless none booted stoppedTwice := by
    unfold stoppedTwice
    refine earlier_sampleRun [12] (earlier_sampleRun [25] .start ?_) ?_
    · rw [h1]
      exact fun e he => Option.mem_some_iff.mp he ▸ rfl
    · rw [h2]
      exact fun e he => Option.mem_some_iff.mp he ▸ rfl
  obtain ⟨k, hdone⟩ := lastRun_done hlast
  have hcgroups : ¬ HasCgroups booted := by
    rw [← noCgroups_eq_false, hno]
    exact Bool.true_eq_false.mp
  obtain ⟨hsame, hstarted, hmounted⟩ := restarted hearlier hdone
  exact ⟨hsame, hstarted.mpr (startable_of_not_mounted hroot), hmounted hcgroups⟩

/-- Once the root is mounted and its loop device is not written down, no later run writes it down. -/
theorem loop_state_lost : ¬ ∀ (argument : Option String) (uid : Nat) (isFile : String → Bool)
    (s₀ s t : State) (fails : Nat → Bool) (k : Nat), Earlier (fun _ => True) argument s₀ s →
      prepare argument uid isFile fails 0 s = .done () k t →
      ∃ j, (main argument uid isFile).undisturbed s₀ = .done () j t := by
  intro h
  obtain ⟨-, -, -, hlast, hlost, hwritten, -⟩ := sample_runs
  have hearlier : Earlier (fun _ => True) none booted stoppedAtRecord := by
    unfold stoppedAtRecord
    exact earlier_sampleRun [26] .start fun _ _ => trivial
  obtain ⟨k, hdone⟩ := lastRun_done hlast
  obtain ⟨j, hj⟩ := h none 0 (fun _ => true) booted stoppedAtRecord _ _ k hearlier hdone
  rw [hj, Ending.state, hlost] at hwritten
  exact absurd hwritten.symm (Option.some_ne_none _)

end RT7.Recovery
