import RT7.Usb.WaitBind

/-!
# What a run of the helper may do

* `current`         the events of the iteration that a run is in; there is none before polling;
* `detected`, `Crowded`, `Observed`   what the replies of an iteration have shown;
* `Allowed`         what every event of a run must satisfy, in view of the events before it;
* `Stands`, `Inv`   what the trace says about the place where a run stands;
* `step_allowed`    one step, by the place it starts from;
* `events_allowed`  every event of every run is allowed.
-/

namespace RT7.Usb

open Trace

/-! ## reading a trace -/

/-- the events since the clock was read last -/
def current (trace : List Event) : Option (List Event) :=
  trace.foldl (fun it e => match e with
    | .clock _ => some []
    | e => it.map fun l => l ++ [e]) none

/-- the replies of `usbipd state`, in order -/
def replies (trace : List Event) : List Reply :=
  trace.filterMap fun e => match e with
    | .state reply => some reply
    | _ => none

section
variable {trace it : List Event}

theorem current_concat (trace : List Event) (e : Event) : current (trace ++ [e]) =
    (match e with
      | .clock _ => some []
      | e => (current trace).map fun l => l ++ [e]) := by
  rw [current, List.foldl_concat]
  rfl

theorem replies_concat_state (trace : List Event) (reply : Reply) :
    replies (trace ++ [.state reply]) = replies trace ++ [reply] := by
  rw [replies, List.filterMap_append]
  rfl

theorem replies_concat_command (trace : List Event) (c : Command) (exitCode : Int) :
    replies (trace ++ [.command c exitCode]) = replies trace := by
  rw [replies, List.filterMap_append]
  exact List.append_nil _

theorem replies_concat_output (trace : List Event) (busId : String) :
    replies (trace ++ [.output busId]) = replies trace := by
  rw [replies, List.filterMap_append]
  exact List.append_nil _

end

variable (cs : Casing) (sw : Switches)

/-- the single device that the first reply of an iteration showed -/
def detected (it : List Event) : Option Device :=
  match (replies it).head? with
  | some (some devices) =>
    match connected cs devices with
    | [device] => some device
    | _ => none
  | _ => none

/-- The first reply of an iteration showed two or more connected boot-transport devices. -/
def Crowded (it : List Event) : Prop :=
  ∃ devices, (replies it).head? = some (some devices) ∧ 2 ≤ (connected cs devices).length

/-- A reply showed this record of the detected device, with the binding that was asked for. -/
def Shown (it : List Event) (device r : Device) : Prop :=
  ∃ devices, some devices ∈ replies it ∧ r ∈ devices ∧
    sameInstance cs r (castString device.instanceId) = true ∧
    isTrue r.persistedGuid = true ∧ (sw.force = true → r.isForced = true)

/-- The last record of the detected device: its first one, or the one that a reply after the bind
showed. -/
def Observed (it : List Event) (device r : Device) : Prop :=
  Shown cs sw it device r ∧ ∃ devices, (replies it).getLast? = some (some devices) ∧
    (r = device ∧ connected cs devices = [device] ∨
      boundDevices cs sw (castString device.instanceId) devices = [r])

def Event.IsFinal (e : Event) : Prop := e = .throw ∨ ∃ busId, e = .output busId

/-- What an event must satisfy in view of the events before it. -/
def AllowedEvent (pre : List Event) : Event → Prop
  | .clock _ => True
  | .state _ => True
  | .throw => True
  | .command (.unbind pid) _ => sw.execute = true ∧ sw.force = true ∧ current pre = none ∧
      ∃ initial, (replies pre).head? = some (some initial) ∧ ∃ d ∈ initial,
        isTransport cs pid (castString d.instanceId) = true ∧ isTrue d.persistedGuid = true ∧
        d.isForced = false
  | .command (.bind force busId) _ => sw.execute = true ∧ force = sw.force ∧
      ∃ it device, current pre = some it ∧ detected cs it = some device ∧
        busId = castString device.busId ∧
        (isTrue device.persistedGuid = false ∨ sw.force = true ∧ device.isForced = false)
  | .command (.attach busId) _ => sw.execute = true ∧
      ∃ it device r, current pre = some it ∧ detected cs it = some device ∧
        busId = castString device.busId ∧ Shown cs sw it device r
  | .output busId => ∃ it device, current pre = some it ∧ detected cs it = some device ∧
      busId = castString device.busId ∧ (sw.execute = true →
        transportPid cs (castString device.instanceId) = some .bootRom ∧
        ((∃ r, Observed cs sw it device r ∧ isTrue r.clientIPAddress = true) ∨
          .command (.attach busId) 0 ∈ it))

/-- Nothing follows a result or an error, and nothing but an error follows a crowded reply. -/
def Allowed (pre : List Event) (e : Event) : Prop :=
  (∀ e' ∈ pre, ¬ e'.IsFinal) ∧ (∀ it, current pre = some it → Crowded cs it → e = .throw) ∧
    AllowedEvent cs sw pre e

/-! ## where a run stands -/

/-- What the trace says about the place where a run stands. -/
def Stands (trace : List Event) : Control → Prop
  | .start => trace = []
  | .unbinding initial _ => sw.execute = true ∧ sw.force = true ∧ current trace = none ∧
      (replies trace).head? = some (some initial)
  | .poll => True
  | .detected device => ∃ it devices, current trace = some it ∧ replies it = [some devices] ∧
      connected cs devices = [device]
  | .bound device => sw.execute = true ∧
      ∃ it, current trace = some it ∧ detected cs it = some device
  | .ready device r => sw.execute = true ∧
      ∃ it, current trace = some it ∧ detected cs it = some device ∧ Observed cs sw it device r
  | .attached device => sw.execute = true ∧
      ∃ it, current trace = some it ∧ detected cs it = some device ∧
        ((∃ r, Observed cs sw it device r ∧ isTrue r.clientIPAddress = true) ∨
          .command (.attach (castString device.busId)) 0 ∈ it)
  | .stopped => False
  | .aborted => False

/-- No result, no error and no crowded reply so far. -/
def Live (trace : List Event) : Prop :=
  (∀ e ∈ trace, ¬ e.IsFinal) ∧ ∀ it, current trace = some it → ¬ Crowded cs it

/-- A run goes on from a trace that says where it stands, or has ended. -/
def Inv (trace : List Event) (s : Control) : Prop :=
  (Live cs trace ∧ Stands cs sw trace s) ∨
  (s = .aborted ∧ .throw ∈ trace) ∨
  (s = .stopped ∧ ∀ it, current trace = some it → ¬ Crowded cs it)

/-! ## small steps -/

section
variable {cs sw} {trace it : List Event} {device r : Device} {e : Event}

theorem bindingReady_eq_true : bindingReady sw r = true ↔
    isTrue r.persistedGuid = true ∧ (sw.force = true → r.isForced = true) := by
  cases hp : isTrue r.persistedGuid <;> cases hf : sw.force <;> simp [bindingReady, hp, hf]

theorem bindingReady_eq_false (h : ¬ bindingReady sw r = true) :
    isTrue r.persistedGuid = false ∨ sw.force = true ∧ r.isForced = false := by
  rw [bindingReady_eq_true] at h
  cases hp : isTrue r.persistedGuid with
  | false => exact .inl rfl
  | true =>
    have hforced := not_and.mp h hp
    exact .inr (by simpa using hforced)

theorem exists_of_nonForced {pid : Pid} {initial : List Device} (h : nonForced cs pid initial ≠ []) :
    ∃ d ∈ initial, isTransport cs pid (castString d.instanceId) = true ∧
      isTrue d.persistedGuid = true ∧ d.isForced = false := by
  obtain ⟨d, hd⟩ := List.exists_mem_of_ne_nil _ h
  obtain ⟨hmem, hcond⟩ := List.mem_filter.mp hd
  refine ⟨d, hmem, ?_⟩
  simpa [and_assoc] using hcond

theorem not_crowded_of_detected (h : detected cs it = some device) : ¬ Crowded cs it := by
  rintro ⟨devices, hhead, hlen⟩
  rw [detected, hhead] at h
  show False
  cases hc : connected cs devices with
  | nil => simp [hc] at hlen
  | cons d ds =>
    cases ds with
    | nil => simp [hc] at hlen
    | cons d' ds => simp [hc] at h

theorem detected_concat_command (it : List Event) (c : Command) (exitCode : Int) :
    detected cs (it ++ [.command c exitCode]) = detected cs it := by
  rw [detected, replies_concat_command]
  rfl

theorem detected_concat_state (h : detected cs it = some device) (reply : Reply) :
    detected cs (it ++ [.state reply]) = some device := by
  rw [detected] at h ⊢
  rw [replies_concat_state]
  cases hr : replies it with
  | nil => simp [hr] at h
  | cons first rest =>
    rw [hr] at h
    exact h

theorem Live.concat (h : Live cs trace) (he : ¬ e.IsFinal)
    (hc : ∀ it, current (trace ++ [e]) = some it → ¬ Crowded cs it) : Live cs (trace ++ [e]) := by
  refine ⟨?_, hc⟩
  intro e' he'
  cases List.mem_append.mp he' with
  | inl h' => exact h.1 e' h'
  | inr h' => exact List.mem_singleton.mp h' ▸ he

theorem Live.allowed (h : Live cs trace) (he : AllowedEvent cs sw trace e) :
    Allowed cs sw trace e :=
  ⟨h.1, fun it hit hc => absurd hc (h.2 it hit), he⟩

theorem not_final_clock (b : Bool) : ¬ (Event.clock b).IsFinal := by
  rintro (h | ⟨_, h⟩)
  · cases h
  · cases h

theorem not_final_state (reply : Reply) : ¬ (Event.state reply).IsFinal := by
  rintro (h | ⟨_, h⟩)
  · cases h
  · cases h

theorem not_final_command (c : Command) (exitCode : Int) : ¬ (Event.command c exitCode).IsFinal := by
  rintro (h | ⟨_, h⟩)
  · cases h
  · cases h

/-- The next events of a run are allowed, and the trace with them says where it stands. -/
def Keeps (cs : Casing) (sw : Switches) (trace : List Event) (next : List Event × Control) : Prop :=
  Extends (Allowed cs sw) trace next.1 ∧ Inv cs sw (trace ++ next.1) next.2

theorem keeps_nil {s : Control} (hl : Live cs trace) (hs : Stands cs sw trace s) :
    Keeps cs sw trace ([], s) := by
  refine ⟨trivial, .inl ?_⟩
  rw [List.append_nil]
  exact ⟨hl, hs⟩

theorem keeps_cons {events : List Event} {s : Control} (he : Allowed cs sw trace e)
    (h : Keeps cs sw (trace ++ [e]) (events, s)) : Keeps cs sw trace (e :: events, s) := by
  refine ⟨⟨he, h.1⟩, ?_⟩
  have hinv := h.2
  rwa [List.append_assoc] at hinv

theorem keeps_throw (h : ∀ e ∈ trace, ¬ e.IsFinal) : Keeps cs sw trace ([.throw], .aborted) := by
  refine ⟨⟨⟨h, fun _ _ _ => rfl, trivial⟩, trivial⟩, .inr (.inl ⟨rfl, ?_⟩)⟩
  exact List.mem_append_right trace List.mem_cons_self

theorem keeps_output {busId : String} (hl : Live cs trace)
    (h : AllowedEvent cs sw trace (.output busId)) :
    Keeps cs sw trace ([.output busId], .stopped) := by
  refine ⟨⟨hl.allowed h, trivial⟩, .inr (.inr ⟨rfl, ?_⟩)⟩
  obtain ⟨it, device, hit, hdet, -⟩ := h
  intro it' hit' hc
  rw [current_concat, hit] at hit'
  cases hit'
  have hcalm : ¬ Crowded cs it := not_crowded_of_detected hdet
  refine hcalm ?_
  obtain ⟨devices, hhead, hlen⟩ := hc
  refine ⟨devices, ?_, hlen⟩
  rwa [replies_concat_output] at hhead

/-- an event of the script itself, within an iteration that has shown one device -/
theorem Live.concat_detected (h : Live cs trace) (he : ¬ e.IsFinal) {it' : List Event}
    (hit : current (trace ++ [e]) = some it') (hdet : detected cs it' = some device) :
    Live cs (trace ++ [e]) := by
  refine h.concat he ?_
  intro it'' hit''
  rw [hit] at hit''
  cases hit''
  exact not_crowded_of_detected hdet

/-! ## the steps -/

theorem keeps_start (w : World) (hl : Live cs trace) (hs : Stands cs sw trace .start) :
    Keeps cs sw trace (step cs sw w .start) := by
  have htrace : trace = [] := hs
  subst htrace
  by_cases hforce : (sw.force && !sw.execute) = true
  · rw [step, if_pos hforce]
    exact keeps_throw hl.1
  by_cases hboth : (sw.execute && sw.force) = true
  · rw [step, if_neg hforce, if_pos hboth]
    have hlive : ∀ reply, Live cs ([] ++ [.state reply]) := by
      intro reply
      refine hl.concat (not_final_state reply) ?_
      intro it hit
      cases hit
    cases w.reply with
    | none => exact keeps_cons (hl.allowed trivial) (keeps_throw (hlive none).1)
    | some devices =>
      obtain ⟨hexec, hforce⟩ := Bool.and_eq_true_iff.mp hboth
      exact keeps_cons (hl.allowed trivial)
        (keeps_nil (hlive (some devices)) ⟨hexec, hforce, rfl, rfl⟩)
  · rw [step, if_neg hforce, if_neg hboth]
    exact keeps_nil hl trivial

theorem keeps_unbinding (w : World) {initial : List Device} {pids : List Pid} (hl : Live cs trace)
    (hs : Stands cs sw trace (.unbinding initial pids)) :
    Keeps cs sw trace (step cs sw w (.unbinding initial pids)) := by
  cases pids with
  | nil => exact keeps_nil hl trivial
  | cons pid pids =>
    obtain ⟨hexec, hforce, hcur, hhead⟩ := hs
    by_cases hnone : nonForced cs pid initial = []
    · rw [step, if_pos hnone]
      exact keeps_nil hl ⟨hexec, hforce, hcur, hhead⟩
    by_cases hadmin : (!w.administrator) = true
    · rw [step, if_neg hnone, if_pos hadmin]
      exact keeps_throw hl.1
    have hallowed : Allowed cs sw trace (.command (.unbind pid) w.exitCode) :=
      hl.allowed ⟨hexec, hforce, hcur, initial, hhead, exists_of_nonForced hnone⟩
    have hcur' : current (trace ++ [.command (.unbind pid) w.exitCode]) = none := by
      rw [current_concat, hcur]
      rfl
    have hlive : Live cs (trace ++ [.command (.unbind pid) w.exitCode]) := by
      refine hl.concat (not_final_command _ _) ?_
      intro it hit
      rw [hcur'] at hit
      cases hit
    by_cases hexit : w.exitCode ≠ 0
    · rw [step, if_neg hnone, if_neg hadmin, if_pos hexit]
      exact keeps_cons hallowed (keeps_throw hlive.1)
    · rw [step, if_neg hnone, if_neg hadmin, if_neg hexit]
      refine keeps_cons hallowed (keeps_nil hlive ⟨hexec, hforce, hcur', ?_⟩)
      rw [replies_concat_command]
      exact hhead

theorem keeps_poll (w : World) (hl : Live cs trace) :
    Keeps cs sw trace (step cs sw w .poll) := by
  have hclock : ∀ b, Live cs (trace ++ [.clock b]) := by
    intro b
    refine hl.concat (not_final_clock b) ?_
    intro it hit
    rw [current_concat] at hit
    cases hit
    rintro ⟨devices, hhead, -⟩
    cases hhead
  have hcur : ∀ reply, current (trace ++ [.clock false] ++ [.state reply]) = some [.state reply] := by
    intro reply
    rw [current_concat, current_concat]
    rfl
  have hfinal : ∀ reply, ∀ e ∈ trace ++ [.clock false] ++ [.state reply], ¬ e.IsFinal := by
    intro reply e he
    cases List.mem_append.mp he with
    | inl he => exact (hclock false).1 e he
    | inr he => exact List.mem_singleton.mp he ▸ not_final_state reply
  by_cases hexp : w.expired = true
  · rw [step, if_pos hexp]
    exact keeps_cons (hl.allowed trivial) (keeps_throw (hclock true).1)
  rw [step, if_neg hexp]
  cases w.reply with
  | none =>
    exact keeps_cons (hl.allowed trivial)
      (keeps_cons ((hclock false).allowed trivial) (keeps_throw (hfinal none)))
  | some devices =>
    have hlive : (connected cs devices).length ≤ 1 →
        Live cs (trace ++ [.clock false] ++ [.state (some devices)]) := by
      intro hlen
      refine (hclock false).concat (not_final_state _) ?_
      intro it hit
      rw [hcur] at hit
      cases hit
      rintro ⟨devices', hhead, hlen'⟩
      cases hhead
      omega
    dsimp only
    cases hc : connected cs devices with
    | nil =>
      exact keeps_cons (hl.allowed trivial) (keeps_cons ((hclock false).allowed trivial)
        (keeps_nil (hlive (by rw [hc]; exact Nat.zero_le 1)) trivial))
    | cons device rest =>
      cases rest with
      | nil =>
        refine keeps_cons (hl.allowed trivial) (keeps_cons ((hclock false).allowed trivial)
          (keeps_nil (hlive (by rw [hc]; exact Nat.le_refl 1)) ?_))
        exact ⟨_, devices, hcur _, rfl, hc⟩
      | cons d rest =>
        exact keeps_cons (hl.allowed trivial)
          (keeps_cons ((hclock false).allowed trivial) (keeps_throw (hfinal _)))

theorem detected_of_replies {devices : List Device} (h : replies it = [some devices])
    (hc : connected cs devices = [device]) : detected cs it = some device := by
  rw [detected, h]
  show (match connected cs devices with
    | [device] => some device
    | _ => none) = _
  rw [hc]

theorem keeps_detected (w : World) (hl : Live cs trace)
    (hs : Stands cs sw trace (.detected device)) :
    Keeps cs sw trace (step cs sw w (.detected device)) := by
  obtain ⟨it, devices, hit, hreplies, hc⟩ := hs
  have hdet := detected_of_replies hreplies hc
  by_cases hexec : (!sw.execute) = true
  · rw [step, if_pos hexec]
    refine keeps_output hl ⟨it, device, hit, hdet, rfl, ?_⟩
    intro h
    rw [h] at hexec
    cases hexec
  have hexec' : sw.execute = true := by simpa using hexec
  by_cases hready : bindingReady sw device = true
  · rw [step, if_neg hexec, if_pos hready]
    have hmem : device ∈ devices := by
      have h : device ∈ connected cs devices := by rw [hc]; exact List.mem_cons_self
      exact List.mem_of_mem_filter h
    have hsame : sameInstance cs device (castString device.instanceId) = true := decide_eq_true rfl
    refine keeps_nil hl ⟨hexec', it, hit, hdet,
      ⟨devices, ?_, hmem, hsame, bindingReady_eq_true.mp hready⟩, devices, ?_, ?_⟩
    · rw [hreplies]
      exact List.mem_cons_self
    · rw [hreplies]
      rfl
    · exact .inl ⟨rfl, hc⟩
  by_cases hadmin : (!w.administrator) = true
  · rw [step, if_neg hexec, if_neg hready, if_pos hadmin]
    exact keeps_throw hl.1
  have hallowed : Allowed cs sw trace
      (.command (.bind sw.force (castString device.busId)) w.exitCode) :=
    hl.allowed ⟨hexec', rfl, it, device, hit, hdet, rfl, bindingReady_eq_false hready⟩
  have hit' : current (trace ++ [.command (.bind sw.force (castString device.busId)) w.exitCode])
      = some (it ++ [.command (.bind sw.force (castString device.busId)) w.exitCode]) := by
    rw [current_concat, hit]
    rfl
  have hdet' := hdet
  rw [← detected_concat_command it (.bind sw.force (castString device.busId)) w.exitCode] at hdet'
  have hlive := hl.concat_detected (not_final_command _ _) hit' hdet'
  by_cases hexit : w.exitCode ≠ 0
  · rw [step, if_neg hexec, if_neg hready, if_neg hadmin]
    simp only [if_pos hexit]
    exact keeps_cons hallowed (keeps_nil hlive trivial)
  · rw [step, if_neg hexec, if_neg hready, if_neg hadmin]
    simp only [if_neg hexit]
    exact keeps_cons hallowed (keeps_nil hlive ⟨hexec', _, hit', hdet'⟩)

theorem keeps_bound (w : World) (hl : Live cs trace) (hs : Stands cs sw trace (.bound device)) :
    Keeps cs sw trace (step cs sw w (.bound device)) := by
  obtain ⟨hexec, it, hit, hdet⟩ := hs
  have hit' : ∀ reply, current (trace ++ [.state reply]) = some (it ++ [.state reply]) := by
    intro reply
    rw [current_concat, hit]
    rfl
  have hlive : ∀ reply, Live cs (trace ++ [.state reply]) := fun reply =>
    hl.concat_detected (not_final_state reply) (hit' reply) (detected_concat_state hdet reply)
  rw [step]
  cases w.reply with
  | none => exact keeps_cons (hl.allowed trivial) (keeps_throw (hlive none).1)
  | some devices =>
    dsimp only
    cases hb : boundDevices cs sw (castString device.instanceId) devices with
    | nil => exact keeps_cons (hl.allowed trivial) (keeps_nil (hlive _) trivial)
    | cons r rest =>
      cases rest with
      | nil =>
        have hmem : r ∈ boundDevices cs sw (castString device.instanceId) devices := by
          rw [hb]
          exact List.mem_cons_self
        obtain ⟨hr, hshown⟩ := List.mem_filter.mp hmem
        obtain ⟨hsame, hready⟩ := Bool.and_eq_true_iff.mp hshown
        refine keeps_cons (hl.allowed trivial) (keeps_nil (hlive _) ⟨hexec, _, hit' _,
          detected_concat_state hdet _, ⟨devices, ?_, hr, hsame, bindingReady_eq_true.mp hready⟩,
          devices, ?_, .inr hb⟩)
        · rw [replies_concat_state]
          exact List.mem_append_right _ List.mem_cons_self
        · rw [replies_concat_state, List.getLast?_concat]
      | cons r' rest => exact keeps_cons (hl.allowed trivial) (keeps_nil (hlive _) trivial)

theorem keeps_ready (w : World) (hl : Live cs trace) (hs : Stands cs sw trace (.ready device r)) :
    Keeps cs sw trace (step cs sw w (.ready device r)) := by
  obtain ⟨hexec, it, hit, hdet, hobs⟩ := hs
  by_cases hclient : isTrue r.clientIPAddress = true
  · rw [step, if_pos hclient]
    exact keeps_nil hl ⟨hexec, it, hit, hdet, .inl ⟨r, hobs, hclient⟩⟩
  have hallowed : Allowed cs sw trace
      (.command (.attach (castString device.busId)) w.exitCode) :=
    hl.allowed ⟨hexec, it, device, r, hit, hdet, rfl, hobs.1⟩
  have hit' : current (trace ++ [.command (.attach (castString device.busId)) w.exitCode])
      = some (it ++ [.command (.attach (castString device.busId)) w.exitCode]) := by
    rw [current_concat, hit]
    rfl
  have hdet' := hdet
  rw [← detected_concat_command it (.attach (castString device.busId)) w.exitCode] at hdet'
  have hlive := hl.concat_detected (not_final_command _ _) hit' hdet'
  by_cases hexit : w.exitCode ≠ 0
  · rw [step, if_neg hclient]
    simp only [if_pos hexit]
    exact keeps_cons hallowed (keeps_nil hlive trivial)
  · rw [step, if_neg hclient]
    simp only [if_neg hexit]
    refine keeps_cons hallowed (keeps_nil hlive ⟨hexec, _, hit', hdet', .inr ?_⟩)
    rw [not_not.mp hexit]
    exact List.mem_append_right it List.mem_cons_self

theorem keeps_attached (w : World) (hl : Live cs trace)
    (hs : Stands cs sw trace (.attached device)) :
    Keeps cs sw trace (step cs sw w (.attached device)) := by
  obtain ⟨hexec, it, hit, hdet, hdone⟩ := hs
  by_cases hpid : transportPid cs (castString device.instanceId) = some .bootRom
  · rw [step, if_pos hpid]
    exact keeps_output hl ⟨it, device, hit, hdet, rfl, fun _ => ⟨hpid, hdone⟩⟩
  · rw [step, if_neg hpid]
    exact keeps_nil hl trivial

theorem keeps_step (w : World) (s : Control) (h : Inv cs sw trace s) :
    Keeps cs sw trace (step cs sw w s) := by
  obtain ⟨hl, hs⟩ | ⟨rfl, hthrow⟩ | ⟨rfl, hcalm⟩ := h
  · cases s with
    | start => exact keeps_start w hl hs
    | unbinding initial pids => exact keeps_unbinding w hl hs
    | poll => exact keeps_poll w hl
    | detected device => exact keeps_detected w hl hs
    | bound device => exact keeps_bound w hl hs
    | ready device current => exact keeps_ready w hl hs
    | attached device => exact keeps_attached w hl hs
    | stopped => exact hs.elim
    | aborted => exact hs.elim
  · refine ⟨trivial, .inr (.inl ⟨rfl, ?_⟩)⟩
    exact List.mem_append_left [] hthrow
  · refine ⟨trivial, .inr (.inr ⟨rfl, ?_⟩)⟩
    intro it hit
    rw [step, List.append_nil] at hit
    exact hcalm it hit

theorem inv_start : Inv cs sw [] .start := by
  refine .inl ⟨⟨fun e he => absurd he List.not_mem_nil, ?_⟩, rfl⟩
  intro it hit
  cases hit

theorem events_inv (cs : Casing) (sw : Switches) (worlds : List World) :
    Always (Allowed cs sw) (events cs sw worlds) ∧
    Inv cs sw (events cs sw worlds) (run (step cs sw) worlds .start).2 := by
  exact run_rule (fun w s trace h => keeps_step w s h) inv_start always_nil worlds

end

/-- **Every event of every run is allowed**, and an iteration with two connected devices ends in an
error. -/
theorem events_allowed (cs : Casing) (sw : Switches) (worlds : List World) :
    (∀ pre e post, events cs sw worlds = pre ++ e :: post → Allowed cs sw pre e) ∧
    ∀ it, current (events cs sw worlds) = some it → Crowded cs it →
      .throw ∈ events cs sw worlds := by
  obtain ⟨hallowed, hinv⟩ := events_inv cs sw worlds
  refine ⟨hallowed, ?_⟩
  intro it hit hc
  obtain ⟨hl, -⟩ | ⟨-, hthrow⟩ | ⟨-, hcalm⟩ := hinv
  · exact absurd hc (hl.2 it hit)
  · exact hthrow
  · exact absurd hc (hcalm it hit)

end RT7.Usb
