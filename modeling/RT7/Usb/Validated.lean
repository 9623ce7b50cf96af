import RT7.Usb.Safety

/-!
# The BUSID that a command names

* `Validated`       a `bind` or `attach` names a BUSID that the last reply lists for a boot transport;
* `Stays`           a reply that confirms a binding lists the bound BUSID, unless it shows a client;
* `Lists`           what a run knows about the last reply, by the place where it stands;
* `events_validated`   in a run whose replies stay, every command names a validated BUSID;
* `events_stale`    a run in which the device is gone when its binding is confirmed.

The `bind` names the BUSID of the reply just read. The `attach` after it names the same BUSID, while
the record that was read again is asked for its instance and its binding only.
-/

namespace RT7.Usb

open Trace

variable (cs : Casing) (sw : Switches)

/-- The last reply lists the BUSID of a boot-transport device. -/
def Listed (trace : List Event) (busId : String) : Prop :=
  ∃ devices, (replies trace).getLast? = some (some devices) ∧ ∃ d ∈ devices,
    d.busId = some busId ∧ (transportPid cs (castString d.instanceId)).isSome = true

/-- What is promised of the commands that name a BUSID. -/
def Validated (pre : List Event) : Event → Prop
  | .command (.bind _ busId) _ => Listed cs pre busId
  | .command (.attach busId) _ => Listed cs pre busId
  | _ => True

/-- A reply that confirms the binding just made, for a device that no client uses, still lists the
BUSID that was bound. -/
def Stays (pre : List Event) (e : Event) : Prop :=
  ∀ devices it device f busId r, e = .state (some devices) → current pre = some it →
    detected cs it = some device → pre.getLast? = some (.command (.bind f busId) 0) →
    boundDevices cs sw (castString device.instanceId) devices = [r] →
    isTrue r.clientIPAddress = false →
    ∃ d ∈ devices, d.busId = some busId ∧
      (transportPid cs (castString d.instanceId)).isSome = true

/-- What a run knows about the last reply. -/
def Lists (trace : List Event) : Control → Prop
  | .detected device => Listed cs trace (castString device.busId)
  | .bound device => ∃ f, trace.getLast? = some (.command (.bind f (castString device.busId)) 0)
  | .ready device r => Always (Stays cs sw) trace → isTrue r.clientIPAddress = false →
      Listed cs trace (castString device.busId)
  | _ => True

section
variable {cs sw} {trace : List Event} {device : Device}

/-- a connected device is listed with its BUSID -/
theorem listed_of_connected {devices : List Device}
    (hlast : (replies trace).getLast? = some (some devices)) (h : device ∈ connected cs devices) :
    Listed cs trace (castString device.busId) := by
  obtain ⟨hmem, hcond⟩ := List.mem_filter.mp h
  obtain ⟨hpid, hbus⟩ := Bool.and_eq_true_iff.mp hcond
  refine ⟨devices, hlast, device, hmem, ?_, hpid⟩
  cases hb : device.busId with
  | none =>
    rw [hb] at hbus
    exact absurd hbus (by decide)
  | some busId => rfl

/-- Every command of the step is validated, if the replies before it stay. -/
def Checks (cs : Casing) (sw : Switches) (pre : List Event) (e : Event) : Prop :=
  Always (Stays cs sw) pre → Validated cs pre e

theorem replies_concat_last (trace : List Event) (devices : List Device) :
    (replies (trace ++ [.state (some devices)])).getLast? = some (some devices) := by
  rw [replies_concat_state, List.getLast?_concat]

/-- the events that name no BUSID -/
def Event.IsPlain : Event → Prop
  | .command (.bind _ _) _ => False
  | .command (.attach _) _ => False
  | _ => True

theorem extends_of_plain {events : List Event} (h : ∀ e ∈ events, e.IsPlain) :
    Extends (Checks cs sw) trace events := by
  refine extends_of_forall fun pre e he _ => ?_
  have hplain := h e he
  cases e with
  | command c exitCode =>
    cases c with
    | unbind pid => trivial
    | bind force busId => exact hplain.elim
    | attach busId => exact hplain.elim
  | clock expired => trivial
  | state reply => trivial
  | output busId => trivial
  | throw => trivial

theorem plain_start (w : World) : ∀ e ∈ (step cs sw w .start).1, e.IsPlain := by
  rw [step]
  split_ifs
  · simp [Event.IsPlain]
  · cases w.reply with
    | none => simp [Event.IsPlain]
    | some devices => simp [Event.IsPlain]
  · simp

theorem lists_start (w : World) : Lists cs sw trace (step cs sw w .start).2 := by
  rw [step]
  split_ifs
  · trivial
  · cases w.reply with
    | none => trivial
    | some devices => trivial
  · trivial

theorem plain_unbinding (w : World) (initial : List Device) (pids : List Pid) :
    ∀ e ∈ (step cs sw w (.unbinding initial pids)).1, e.IsPlain := by
  cases pids with
  | nil => simp [step]
  | cons pid pids =>
    rw [step]
    split_ifs
    · simp
    · simp [Event.IsPlain]
    · simp [Event.IsPlain]
    · simp [Event.IsPlain]

theorem lists_unbinding (w : World) (initial : List Device) (pids : List Pid) :
    Lists cs sw trace (step cs sw w (.unbinding initial pids)).2 := by
  cases pids with
  | nil => trivial
  | cons pid pids =>
    rw [step]
    split_ifs
    · trivial
    · trivial
    · trivial
    · trivial

theorem step_poll (trace : List Event) (w : World) :
    (∀ e ∈ (step cs sw w .poll).1, e.IsPlain) ∧
    Lists cs sw (trace ++ (step cs sw w .poll).1) (step cs sw w .poll).2 := by
  rw [step]
  split_ifs
  · exact ⟨by simp [Event.IsPlain], trivial⟩
  cases w.reply with
  | none => exact ⟨by simp [Event.IsPlain], trivial⟩
  | some devices =>
    dsimp only
    cases hc : connected cs devices with
    | nil => exact ⟨by simp [Event.IsPlain], trivial⟩
    | cons device rest =>
      cases rest with
      | cons d rest => exact ⟨by simp [Event.IsPlain], trivial⟩
      | nil =>
        have hlast := replies_concat_last (trace ++ [.clock false]) devices
        rw [List.append_assoc] at hlast
        refine ⟨by simp [Event.IsPlain], listed_of_connected hlast ?_⟩
        rw [hc]
        exact List.mem_cons_self

theorem lists_step (w : World) (s : Control) (hinv : Inv cs sw trace s) (h : Lists cs sw trace s) :
    Extends (Checks cs sw) trace (step cs sw w s).1 ∧
      Lists cs sw (trace ++ (step cs sw w s).1) (step cs sw w s).2 := by
  cases s with
  | start => exact ⟨extends_of_plain (plain_start w), lists_start w⟩
  | unbinding initial pids =>
    exact ⟨extends_of_plain (plain_unbinding w initial pids), lists_unbinding w initial pids⟩
  | poll => exact ⟨extends_of_plain (step_poll trace w).1, (step_poll trace w).2⟩
  | detected device =>
    rw [step]
    split_ifs with hexec hready hadmin hexit
    · exact ⟨extends_of_plain (by simp [Event.IsPlain]), trivial⟩
    · refine ⟨trivial, fun _ _ => ?_⟩
      rw [List.append_nil]
      exact h
    · exact ⟨extends_of_plain (by simp [Event.IsPlain]), trivial⟩
    · exact ⟨⟨fun _ => h, trivial⟩, trivial⟩
    · refine ⟨⟨fun _ => h, trivial⟩, sw.force, ?_⟩
      show (trace ++ [_]).getLast? = _
      rw [List.getLast?_concat, not_not.mp hexit]
  | bound device =>
    rw [step]
    cases w.reply with
    | none => exact ⟨extends_of_plain (by simp [Event.IsPlain]), trivial⟩
    | some devices =>
      dsimp only
      cases hb : boundDevices cs sw (castString device.instanceId) devices with
      | nil => exact ⟨extends_of_plain (by simp [Event.IsPlain]), trivial⟩
      | cons r rest =>
        cases rest with
        | cons r' rest => exact ⟨extends_of_plain (by simp [Event.IsPlain]), trivial⟩
        | nil =>
          refine ⟨extends_of_plain (by simp [Event.IsPlain]), fun hstays hclient => ?_⟩
          obtain ⟨f, hbind⟩ := h
          obtain ⟨-, hs⟩ | ⟨hab, -⟩ | ⟨hst, -⟩ := hinv
          · obtain ⟨-, it, hit, hdet⟩ := hs
            refine ⟨devices, replies_concat_last trace devices, ?_⟩
            exact hstays trace (.state (some devices)) [] rfl devices it device f _ r rfl hit hdet
              hbind hb hclient
          · cases hab
          · cases hst
  | ready device r =>
    rw [step]
    split_ifs with hclient
    · exact ⟨trivial, trivial⟩
    · exact ⟨⟨fun hstays => h hstays (Bool.eq_false_iff.mpr hclient), trivial⟩, trivial⟩
    · exact ⟨⟨fun hstays => h hstays (Bool.eq_false_iff.mpr hclient), trivial⟩, trivial⟩
  | attached device =>
    rw [step]
    split_ifs
    · exact ⟨extends_of_plain (by simp [Event.IsPlain]), trivial⟩
    · exact ⟨trivial, trivial⟩
  | stopped => exact ⟨trivial, trivial⟩
  | aborted => exact ⟨trivial, trivial⟩

end

/-- **A run whose replies stay names validated BUSIDs only.** -/
theorem events_validated (cs : Casing) (sw : Switches) (worlds : List World)
    (h : Always (Stays cs sw) (events cs sw worlds)) :
    Always (Validated cs) (events cs sw worlds) := by
  have hstep : ∀ w s trace, Inv cs sw trace s ∧ Lists cs sw trace s →
      Extends (Checks cs sw) trace (step cs sw w s).1 ∧
        Inv cs sw (trace ++ (step cs sw w s).1) (step cs sw w s).2 ∧
        Lists cs sw (trace ++ (step cs sw w s).1) (step cs sw w s).2 := by
    intro w s trace hinv
    obtain ⟨hchecks, hlists⟩ := lists_step w s hinv.1 hinv.2
    exact ⟨hchecks, (keeps_step w s hinv.1).2, hlists⟩
  have hchecks := (run_rule hstep ⟨inv_start, trivial⟩ always_nil worlds).1
  intro pre e post heq
  refine hchecks pre e post heq ?_
  have hpre : Always (Stays cs sw) (pre ++ e :: post) := heq ▸ h
  exact hpre.prefix

/-! ## two runs -/

/-- A boot ROM that is connected and not bound yet. -/
def bootRom : Device where
  instanceId := some "USB\\VID_0E8D&PID_0003\\RT7"
  busId := some "3-4"
  persistedGuid := none
  isForced := false
  clientIPAddress := none

def shared : Device := { bootRom with persistedGuid := some "00000000-0000-0000-0000-000000000003" }

/-- its record when it is bound, but no longer connected -/
def vanished : Device := { shared with busId := none }

/-- a run with `-Execute` that sees the boot ROM, binds it and reads the state again -/
def oneBind (confirmation : Device) : List World :=
  let answer (reply : List Device) : World := ⟨some reply, 0, true, false⟩
  [answer [], answer [bootRom], answer [], answer [confirmation], answer [], answer []]

def oneBindEvents (confirmation : Device) : List Event :=
  [.clock false, .state (some [bootRom]), .command (.bind false "3-4") 0,
    .state (some [confirmation]), .command (.attach "3-4") 0, .output "3-4"]

theorem events_validated_shared :
    Always (Stays .ordinal ⟨true, false⟩) (events .ordinal ⟨true, false⟩ (oneBind shared)) ∧
    Always (Validated .ordinal) (events .ordinal ⟨true, false⟩ (oneBind shared)) := by
  have hrun : events .ordinal ⟨true, false⟩ (oneBind shared) = oneBindEvents shared := by
    decide +kernel
  have hstays : Always (Stays .ordinal ⟨true, false⟩)
      (events .ordinal ⟨true, false⟩ (oneBind shared)) := by
    rw [hrun]
    refine always_nil.extend ⟨?_, ?_, ?_, ?_, ?_, ?_, trivial⟩
    · intro _ _ _ _ _ _ h
      cases h
    · intro _ _ _ _ _ _ _ _ _ hbind
      cases hbind
    · intro _ _ _ _ _ _ h
      cases h
    · intro devices it device f busId r h _ _ hbind _ _
      cases h
      cases hbind
      exact ⟨shared, List.mem_cons_self, rfl, by decide +kernel⟩
    · intro _ _ _ _ _ _ h
      cases h
    · intro _ _ _ _ _ _ h
      cases h
  exact ⟨hstays, events_validated .ordinal ⟨true, false⟩ (oneBind shared) hstays⟩

/-- The boot ROM is gone when its binding is confirmed, and its BUSID is attached. -/
theorem events_stale : ¬ ∀ cs sw worlds, Always (Validated cs) (events cs sw worlds) := by
  intro h
  have hrun : events .ordinal ⟨true, false⟩ (oneBind vanished) = oneBindEvents vanished := by
    decide +kernel
  have hall := h .ordinal ⟨true, false⟩ (oneBind vanished)
  rw [hrun] at hall
  obtain ⟨devices, hlast, d, hd, hbus, -⟩ :=
    hall ((oneBindEvents vanished).take 4) (.command (.attach "3-4") 0) [.output "3-4"] rfl
  cases hlast
  cases List.mem_singleton.mp hd
  cases hbus

end RT7.Usb
