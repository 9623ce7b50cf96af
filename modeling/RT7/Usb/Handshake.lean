import RT7.Usb.Probe

/-!
# What a probe can do to the device

* `chosen`, `configuration`, `claimed`, `transfers`   what a talk has shown and done so far;
* `Allowed`         what every call must satisfy in view of the calls before it;
* `synced`          the exchanges of the first bytes of the synchronization, each of them answered
  with its complement;
* `Ended`           what the exit code says about a talk;
* `findEndpointPair_eq_ok`   which interface a probe talks to: the first of the CDC data class that has
  both endpoints, otherwise the first that has them;
* `probe_talks`     every run, whatever the device, the bus, the drivers and the clock answer.
-/

namespace RT7.Probe

open Dialogue

abbrev Call := Exchange Answer

/-! ## reading a talk -/

def Exchange.chosen : Call → Option UsbDevice
  | ⟨.find, .ok devices⟩ => (matchingDevices devices).head?
  | _ => none

def Exchange.configuration : Call → Option Configuration
  | ⟨.getActiveConfiguration _, .ok configuration⟩ => some configuration
  | _ => none

def Exchange.claimed : Call → Option (UsbDevice × Nat)
  | ⟨.claimInterface device interface, .ok _⟩ => some (device, interface)
  | _ => none

def Exchange.isTransfer : Call → Bool
  | ⟨.write _ _ _ _, _⟩ => true
  | ⟨.read _ _ _ _, _⟩ => true
  | _ => false

def Exchange.isControl : Call → Bool
  | ⟨.ctrlTransfer _ _ _ _ _ _ _, _⟩ => true
  | _ => false

/-- libusb does not support the transfer. -/
def Exchange.unsupported : Call → Bool
  | ⟨.write _ _ _ _, .error .notImplemented⟩ => true
  | ⟨.read _ _ _ _, .error .notImplemented⟩ => true
  | _ => false

/-- the first device that a list of devices offered -/
def chosen (t : List Call) : Option UsbDevice := t.findSome? Exchange.chosen

/-- the first configuration that could be read -/
def configuration (t : List Call) : Option Configuration := t.findSome? Exchange.configuration

/-- the first interface that could be claimed -/
def claimed (t : List Call) : Option (UsbDevice × Nat) := t.findSome? Exchange.claimed

/-- the exchanges with the endpoints -/
def transfers (t : List Call) : List Call := t.filter Exchange.isTransfer

/-- the control requests -/
def controls (t : List Call) : List Call := t.filter Exchange.isControl

def Exchange.sent : Call → Bytes
  | ⟨.write _ _ data _, _⟩ => data
  | _ => []

/-- the bytes that were written to an endpoint -/
def sent (t : List Call) : Bytes := t.flatMap Exchange.sent

/-- The first `k` bytes of the synchronization, each answered with its complement. -/
def synced (device : UsbDevice) (pair : EndpointPair) (k : Nat) : List Call :=
  (startCommand.take k).flatMap fun value =>
    [⟨.write device pair.endpointOut [value] 250, .ok 1⟩,
      ⟨.read device pair.endpointIn 1 250, .ok [value ^^^ 0xFF]⟩]

/-- the last exchange found the device without a configuration -/
def Unconfigured (t : List Call) (device : UsbDevice) : Prop :=
  ∃ error : UsbError, t.getLast? = some ⟨.getActiveConfiguration device, .error (.usb error)⟩ ∧
    "Configuration not set".toList <:+: error.text.toList

/-- The talk is about this device and its endpoints. -/
structure Opened (t : List Call) (device : UsbDevice) (pair : EndpointPair) : Prop where
  chosen : chosen t = some device
  paired : ∃ c, configuration t = some c ∧ findEndpointPair c = .ok pair

/-- What a call must satisfy in view of the calls before it. -/
def Allowed (before : List Call) : Question → Prop
  | .getBackend => before = []
  | .setOption => chosen before = none
  | .monotonic => chosen before = none
  | .find => chosen before = none
  | .sleep => chosen before = none
  | .getActiveConfiguration device => chosen before = some device ∧ configuration before = none
  | .setConfiguration device => chosen before = some device ∧ Unconfigured before device
  | .isKernelDriverActive device interface =>
    ∃ pair, Opened before device pair ∧ interface = pair.interfaceNumber
  | .detachKernelDriver device interface => (∃ pair, Opened before device pair ∧
      interface = pair.interfaceNumber) ∧
      before.getLast? = some ⟨.isKernelDriverActive device interface, .ok true⟩
  | .claimInterface device interface =>
    ∃ pair, Opened before device pair ∧ interface = pair.interfaceNumber
  | .ctrlTransfer device requestType request value index payload _ =>
    (∃ pair, Opened before device pair ∧ claimed before = some (device, pair.interfaceNumber)) ∧
      transfers before = [] ∧
      ((requestType, request, value, index, payload) = (0x21, 0x20, 0, 0, lineCoding) ∧
          controls before = [] ∨
        (requestType, request, value, index, payload) = (0x21, 0x01, 2, 0, []) ∧
          ∃ sent, controls before = [⟨.ctrlTransfer device 0x21 0x20 0 0 lineCoding 100, sent⟩])
  | .write device endpoint data _ => ∃ pair k value, Opened before device pair ∧
      claimed before = some (device, pair.interfaceNumber) ∧ endpoint = pair.endpointOut ∧
      startCommand[k]? = some value ∧ data = [value] ∧ transfers before = synced device pair k
  | .read device endpoint length _ => ∃ pair k value written, Opened before device pair ∧
      claimed before = some (device, pair.interfaceNumber) ∧ endpoint = pair.endpointIn ∧
      length = 1 ∧ startCommand[k]? = some value ∧
      transfers before = synced device pair k ++
        [⟨.write device pair.endpointOut [value] 250, .ok written⟩]

/-- There was no transfer, or the last one is not supported. -/
def Broken (t : List Call) : Prop :=
  transfers t = [] ∨ ∃ e, (transfers t).getLast? = some e ∧ Exchange.unsupported e = true

/-- What the exit code says: 0 for a complete synchronization, 1 for none or for a transfer that is
not supported, 2 for one that failed. -/
def Ended (t : List Call) : Except Failure Int → Prop
  | .error _ => False
  | .ok code => (code = 0 ∨ code = 1 ∨ code = 2) ∧
      (code = 0 ↔ ∃ device pair, Opened t device pair ∧ transfers t = synced device pair 4) ∧
      (code = 1 ↔ Broken t)

/-! ## where a run stands -/

section
variable {t : List Call} {device : UsbDevice} {pair : EndpointPair} {d : Option UsbDevice}
  {c : Option Configuration} {k : Option (UsbDevice × Nat)} {x y : List Call} {α β : Type}

/-- What a talk has come to: `y` are its control requests and `x` its transfers. -/
structure Stands (t : List Call) (d : Option UsbDevice) (c : Option Configuration)
    (k : Option (UsbDevice × Nat)) (y x : List Call) : Prop where
  chosen : chosen t = d
  configuration : configuration t = c
  claimed : claimed t = k
  controls : controls t = y
  transfers : transfers t = x

theorem stands_nil : Stands [] none none none [] [] := ⟨rfl, rfl, rfl, rfl, rfl⟩

theorem Stands.concat (h : Stands t d c k y x) (e : Call) :
    Stands (t ++ [e]) (d.or (Exchange.chosen e)) (c.or (Exchange.configuration e))
      (k.or (Exchange.claimed e)) (y ++ [e].filter Exchange.isControl)
      (x ++ [e].filter Exchange.isTransfer) := by
  have hone : ∀ {β : Type} (f : Call → Option β), [e].findSome? f = f e := by
    intro β f
    rw [List.findSome?_cons, List.findSome?_nil]
    cases f e with
    | none => rfl
    | some b => rfl
  refine ⟨?_, ?_, ?_, ?_, ?_⟩
  · rw [Probe.chosen, List.findSome?_append, hone]
    exact congrArg (Option.or · _) h.chosen
  · rw [Probe.configuration, List.findSome?_append, hone]
    exact congrArg (Option.or · _) h.configuration
  · rw [Probe.claimed, List.findSome?_append, hone]
    exact congrArg (Option.or · _) h.claimed
  · rw [Probe.controls, List.filter_append]
    exact congrArg (· ++ _) h.controls
  · rw [Probe.transfers, List.filter_append]
    exact congrArg (· ++ _) h.transfers

theorem Stands.broken (h : Stands t d c k y []) : Broken t := Or.inl h.transfers

/-- The part ends with a value as `R` says, or with an error before any transfer or in one. -/
def Begun (R : List Call → α → Prop) (t : List Call) : Except Failure α → Prop
  | .ok a => R t a
  | .error _ => Broken t

theorem begun_bind {part : Script α} {f : α → Script β} {R : List Call → α → Prop}
    {S : List Call → β → Prop} (h : Safe Allowed (Begun R) part t)
    (hf : ∀ a t', R t' a → Safe Allowed (Begun S) (f a) t') :
    Safe Allowed (Begun S) (part >>= f) t := by
  refine safe_bind.mpr (h.mono fun t' r hr => ?_)
  cases r with
  | error e => exact hr
  | ok a => exact hf a t' hr

theorem begun_call {q : Question} {f : Answer q → Script β} {S : List Call → β → Prop}
    (hq : Allowed t q) (hf : ∀ answer, Safe Allowed (Begun S) (f answer) (t ++ [⟨q, answer⟩])) :
    Safe Allowed (Begun S) (call q >>= f) t := ⟨hq, hf⟩

/-! ## the parts of the script -/

theorem safe_loadBackend (windows : Bool) :
    Safe Allowed (Begun fun t _ => Stands t none none none [] []) (loadBackend windows) [] := by
  refine begun_call rfl fun found => ?_
  have h1 := stands_nil.concat ⟨.getBackend, found⟩
  refine begun_bind (R := fun t _ => Stands t none none none [] []) ?_ fun _ t ht => ?_
  · exact safe_failIf.mpr ⟨fun _ => h1.broken, fun _ => h1⟩
  · cases windows with
    | false => exact ht
    | true =>
      refine begun_call ht.chosen fun answer => ?_
      have h2 := ht.concat ⟨.setOption, answer⟩
      cases answer with
      | error e => exact h2.broken
      | ok result => exact safe_failIf.mpr ⟨fun _ => h2.broken, fun _ => h2⟩

/-- what the list of devices has offered, when no list before it did -/
theorem Stands.find (h : Stands t none none none [] []) (devices : List UsbDevice) :
    Stands (t ++ [⟨.find, .ok devices⟩]) (matchingDevices devices).head? none none [] [] := h.concat _

theorem safe_pollTransport (deadline : Int) (ht : Stands t none none none [] []) :
    Safe Allowed (afterTurn (fun t _ => Stands t none none none [] [])
      (Begun fun t device => Stands t (some device) none none [] [])) (pollTransport deadline) t := by
  refine safe_query_bind.mpr ⟨ht.chosen, fun now => ?_⟩
  have h1 := ht.concat ⟨.monotonic, now⟩
  by_cases hnow : now < deadline
  · rw [if_pos hnow]
    refine safe_bind.mpr (safe_request.mpr ⟨h1.chosen, fun answer => ?_⟩)
    cases answer with
    | error e => exact (h1.concat ⟨.find, .error e⟩).broken
    | ok devices =>
      have h2 := h1.find devices
      dsimp only [raised, Except.mapError]
      cases hmatching : matchingDevices devices with
      | cons device rest =>
        rw [hmatching] at h2
        exact h2
      | nil =>
        rw [hmatching] at h2
        exact safe_query_bind.mpr ⟨h2.chosen, fun answer => h2.concat ⟨.sleep, answer⟩⟩
  · rw [if_neg hnow]
    exact h1.broken

theorem safe_waitForTransport (timeout : Int) (polls : Nat) (ht : Stands t none none none [] []) :
    Safe Allowed (Begun fun t device => Stands t (some device) none none [] [])
      (waitForTransport timeout polls) t := by
  refine begun_call ht.chosen fun start => ?_
  refine safe_loop (fun t _ => Stands t none none none [] []) ?_ polls (ht.concat ⟨.monotonic, start⟩)
  intro t _ ht
  exact safe_pollTransport (start + timeout) ht

theorem safe_prepareConfiguration (ht : Stands t (some device) none none [] []) :
    Safe Allowed (Begun fun t configuration => Stands t (some device) (some configuration) none [] [])
      (prepareConfiguration device) t := by
  refine begun_call ⟨ht.chosen, ht.configuration⟩ fun answer => ?_
  cases answer with
  | ok configuration => exact ht.concat ⟨.getActiveConfiguration device, .ok configuration⟩
  | error failure =>
    have h1 := ht.concat ⟨.getActiveConfiguration device, .error failure⟩
    cases failure with
    | notImplemented => exact h1.broken
    | usb error =>
    refine begun_bind (R := fun t _ => Stands t (some device) none none [] [] ∧ Unconfigured t device)
      (safe_failIf.mpr ⟨fun _ => h1.broken, fun hset => ⟨h1, error, ?_, not_not.mp hset⟩⟩) ?_
    · exact List.getLast?_concat
    · intro _ t ht
      obtain ⟨h2, hunset⟩ := ht
      refine begun_bind (R := fun t _ => Stands t (some device) none none [] [])
        (safe_request.mpr ⟨⟨h2.chosen, hunset⟩, fun answer => ?_⟩) fun _ t h3 => ?_
      · have h3 := h2.concat ⟨.setConfiguration device, answer⟩
        cases answer with
        | error e => exact h3.broken
        | ok _ => exact h3
      · refine safe_request.mpr ⟨⟨h3.chosen, h3.configuration⟩, fun answer => ?_⟩
        have h4 := h3.concat ⟨.getActiveConfiguration device, answer⟩
        cases answer with
        | error e => exact h4.broken
        | ok configuration => exact h4

variable {configured : Configuration}

/-- A device with its configuration and the endpoints to be used, before the interface is claimed
or after that. -/
theorem Stands.opened (h : Stands t (some device) (some configured) k y x)
    (hpair : findEndpointPair configured = .ok pair) : Opened t device pair :=
  ⟨h.chosen, configured, h.configuration, hpair⟩

theorem safe_detachDriver (hpair : findEndpointPair configured = .ok pair)
    (ht : Stands t (some device) (some configured) none [] []) :
    Safe Allowed (Begun fun t _ => Stands t (some device) (some configured) none [] [])
      (detachDriver device pair.interfaceNumber) t := by
  refine begun_call ⟨pair, ht.opened hpair, rfl⟩ fun active => ?_
  have h1 := ht.concat ⟨.isKernelDriverActive device pair.interfaceNumber, active⟩
  cases active with
  | error e => exact h1
  | ok active =>
    cases active with
    | false => exact h1
    | true =>
      refine begun_call ⟨⟨pair, h1.opened hpair, rfl⟩, List.getLast?_concat⟩ fun answer => ?_
      exact h1.concat ⟨.detachKernelDriver device pair.interfaceNumber, answer⟩

theorem safe_claimInterface (hpair : findEndpointPair configured = .ok pair)
    (ht : Stands t (some device) (some configured) none [] []) :
    Safe Allowed (Begun fun t _ =>
        Stands t (some device) (some configured) (some (device, pair.interfaceNumber)) [] [])
      (claimInterface device pair.interfaceNumber) t := by
  refine begun_bind (safe_detachDriver hpair ht) fun _ t ht => ?_
  refine safe_request.mpr ⟨⟨pair, ht.opened hpair, rfl⟩, fun answer => ?_⟩
  have h1 := ht.concat ⟨.claimInterface device pair.interfaceNumber, answer⟩
  cases answer with
  | error e => exact h1.broken
  | ok _ => exact h1

theorem safe_sendControl {claim : UsbDevice × Nat} {request value : Nat} {payload : Bytes}
    (ht : Stands t (some device) (some configured) (some claim) y [])
    (hallowed : Allowed t (.ctrlTransfer device 0x21 request value 0 payload 100)) :
    Safe Allowed (Begun fun t' _ => ∃ sent, Stands t' (some device) (some configured) (some claim)
        (y ++ [⟨.ctrlTransfer device 0x21 request value 0 payload 100, sent⟩]) [])
      (sendControl device request value payload) t := by
  refine begun_call hallowed fun sent => ?_
  have h1 := ht.concat ⟨.ctrlTransfer device 0x21 request value 0 payload 100, sent⟩
  cases sent with
  | ok length => exact ⟨_, h1⟩
  | error failure =>
    cases failure with
    | notImplemented => exact h1.broken
    | usb error => exact ⟨_, h1⟩

theorem safe_configureCdc (hpair : findEndpointPair configured = .ok pair)
    (ht : Stands t (some device) (some configured) (some (device, pair.interfaceNumber)) [] []) :
    Safe Allowed (Begun fun t _ => ∃ y,
        Stands t (some device) (some configured) (some (device, pair.interfaceNumber)) y [])
      (configureCdc device) t := by
  refine begun_bind (safe_sendControl ht ⟨⟨pair, ht.opened hpair, ht.claimed⟩, ht.transfers,
    Or.inl ⟨rfl, ht.controls⟩⟩) fun _ t h1 => ?_
  obtain ⟨sent, h1⟩ := h1
  refine (safe_sendControl h1 ⟨⟨pair, h1.opened hpair, h1.claimed⟩, h1.transfers,
    Or.inr ⟨rfl, sent, h1.controls⟩⟩).mono fun t r hr => ?_
  cases r with
  | error e => exact hr
  | ok _ =>
    obtain ⟨sent', h2⟩ := hr
    exact ⟨_, h2⟩

/-! ## the synchronization -/

theorem synced_succ {n : Nat} {value : UInt8} (h : startCommand[n]? = some value) :
    synced device pair (n + 1) = synced device pair n ++
      [⟨.write device pair.endpointOut [value] 250, .ok 1⟩,
        ⟨.read device pair.endpointIn 1 250, .ok [value ^^^ 0xFF]⟩] := by
  rw [synced, List.take_add_one, h, List.flatMap_append]
  rfl

theorem length_synced {n : Nat} (hn : n ≤ 4) : (synced device pair n).length = 2 * n := by
  have hfour : startCommand.length = 4 := rfl
  rw [synced, List.length_flatMap]
  show ((startCommand.take n).map fun _ => 2).sum = 2 * n
  rw [List.map_const', List.sum_replicate_nat, List.length_take, hfour, Nat.min_eq_left hn,
    Nat.mul_comm]

/-- half an exchange more is not the whole synchronization -/
theorem synced_concat_ne {n : Nat} (hn : n < 4) (e : Call) :
    synced device pair n ++ [e] ≠ synced device pair 4 := by
  intro heq
  have hlen := congrArg List.length heq
  rw [List.length_append, length_synced hn.le, length_synced le_rfl, List.length_singleton] at hlen
  omega

/-- The synchronization is complete when its last byte was written and answered as it should be. -/
theorem eq_synced {n : Nat} {value : UInt8} {written : Except CallError Nat}
    {echo : Except CallError Bytes} (hn : n < 4) (h : startCommand[n]? = some value)
    (heq : synced device pair n ++ [⟨.write device pair.endpointOut [value] 250, written⟩,
      ⟨.read device pair.endpointIn 1 250, echo⟩] = synced device pair 4) :
    written = .ok 1 ∧ echo = .ok [value ^^^ 0xFF] := by
  have hlen := congrArg List.length heq
  rw [List.length_append, length_synced hn.le, length_synced le_rfl] at hlen
  have h3 : n + 1 = 4 := by
    simp only [List.length_cons, List.length_nil] at hlen
    omega
  rw [← h3, synced_succ h, List.append_cancel_left_eq] at heq
  injection heq with hwrite hread
  injection hwrite with _ hwritten
  injection hread with hread _
  injection hread with _ hecho
  exact ⟨hwritten, hecho⟩

/-- a write -/
theorem Stands.write {configured : Configuration} {claim : UsbDevice × Nat}
    (h : Stands t (some device) (some configured) (some claim) y x) (endpoint : Endpoint) (data : Bytes)
    (timeout : Nat) (written : Except CallError Nat) :
    Stands (t ++ [⟨.write device endpoint data timeout, written⟩]) (some device) (some configured)
      (some claim) y (x ++ [⟨.write device endpoint data timeout, written⟩]) := by
  have h1 := h.concat ⟨.write device endpoint data timeout, written⟩
  exact ⟨h1.chosen, h1.configuration, h1.claimed, h1.controls.trans (List.append_nil y), h1.transfers⟩

/-- a write and the read behind it -/
theorem Stands.exchange {configured : Configuration} {claim : UsbDevice × Nat}
    (h : Stands t (some device) (some configured) (some claim) y x) (endpoint endpoint' : Endpoint)
    (data : Bytes) (length timeout timeout' : Nat) (written : Except CallError Nat)
    (echo : Except CallError Bytes) :
    Stands (t ++ [⟨.write device endpoint data timeout, written⟩] ++
        [⟨.read device endpoint' length timeout', echo⟩]) (some device) (some configured) (some claim)
      y (x ++ [⟨.write device endpoint data timeout, written⟩,
        ⟨.read device endpoint' length timeout', echo⟩]) := by
  have h2 := (h.write endpoint data timeout written).concat
    ⟨.read device endpoint' length timeout', echo⟩
  exact ⟨h2.chosen, h2.configuration, h2.claimed, h2.controls.trans (List.append_nil y),
    h2.transfers.trans (List.append_assoc _ _ _)⟩

theorem eq_singleton_of_echo {echo : Bytes} {expected : UInt8}
    (h : (if echo.length = 1 then echo.head? else none) = some expected) : echo = [expected] := by
  by_cases hlen : echo.length = 1
  · rw [if_pos hlen] at h
    obtain ⟨value, rfl⟩ := List.length_eq_one_iff.mp hlen
    exact congrArg (fun v => [v]) (Option.some.inj h)
  · rw [if_neg hlen] at h
    cases h

/-- the last transfer decides -/
theorem Stands.broken_iff {e : Call} (h : Stands t d c k y (x ++ [e])) :
    Broken t ↔ Exchange.unsupported e = true := by
  rw [Broken, h.transfers]
  constructor
  · rintro (hnil | ⟨last, hlast, hunsupported⟩)
    · exact absurd hnil (List.append_ne_nil_of_right_ne_nil _ (List.cons_ne_nil e []))
    · rw [List.getLast?_concat] at hlast
      cases hlast
      exact hunsupported
  · exact fun hunsupported => Or.inr ⟨e, List.getLast?_concat, hunsupported⟩

/-- what the handshake has come to -/
def Shaken (device : UsbDevice) (pair : EndpointPair) (configured : Configuration) (t : List Call)
    (ok : Bool) : Prop :=
  ∃ y x, Stands t (some device) (some configured) (some (device, pair.interfaceNumber)) y x ∧
    ¬ Broken t ∧ (ok = true ↔ x = synced device pair 4)

/-- An exchange that was not what was sought ends the handshake. -/
theorem shaken_false {e : Call}
    (h : Stands t (some device) (some configured) (some (device, pair.interfaceNumber)) y (x ++ [e]))
    (hsupported : Exchange.unsupported e = false) (hne : x ++ [e] ≠ synced device pair 4) :
    Shaken device pair configured t false := by
  refine ⟨y, x ++ [e], h, fun hbroken => ?_, iff_of_false Bool.false_ne_true hne⟩
  rw [h.broken_iff, hsupported] at hbroken
  exact Bool.false_ne_true hbroken

theorem safe_runHandshake (hpair : findEndpointPair configured = .ok pair) {rest : Bytes} {n : Nat}
    (hrest : startCommand.drop n = rest) (hn : n ≤ 4)
    (ht : Stands t (some device) (some configured) (some (device, pair.interfaceNumber)) y
      (synced device pair n)) :
    Safe Allowed (Begun (Shaken device pair configured)) (runHandshake device pair rest) t := by
  induction rest generalizing n t with
  | nil =>
    have h4 : n = 4 := Nat.le_antisymm hn (List.drop_eq_nil_iff.mp hrest)
    subst h4
    refine ⟨y, _, ht, ?_, iff_of_true rfl rfl⟩
    have hlast := ht
    rw [synced_succ (show startCommand[3]? = some 0x05 from rfl), List.append_cons] at hlast
    rw [hlast.broken_iff]
    exact Bool.false_ne_true
  | cons value rest ih =>
    have hvalue : startCommand[n]? = some value := by
      rw [← List.head?_drop, hrest]
      rfl
    have hlt : n < 4 := (List.getElem?_eq_some_iff.mp hvalue).1
    have hopened := ht.opened hpair
    refine begun_call ⟨pair, n, value, hopened, ht.claimed, rfl, hvalue, rfl, ht.transfers⟩
      fun written => ?_
    have h1 := ht.write pair.endpointOut [value] 250 written
    cases written with
    | error failure =>
      cases failure with
      | notImplemented => exact h1.broken_iff.mpr rfl
      | usb e => exact shaken_false h1 rfl (synced_concat_ne hlt _)
    | ok written =>
      refine begun_call ⟨pair, n, value, written, h1.opened hpair, h1.claimed, rfl, rfl, hvalue,
        h1.transfers⟩ fun echo => ?_
      have h2 := ht.exchange pair.endpointOut pair.endpointIn [value] 1 250 250 (.ok written) echo
      have hlast := h2
      rw [List.append_cons (synced device pair n)] at hlast
      cases echo with
      | error failure =>
        cases failure with
        | notImplemented => exact hlast.broken_iff.mpr rfl
        | usb e =>
          refine shaken_false hlast rfl fun heq => ?_
          rw [← List.append_cons] at heq
          cases (eq_synced hlt hvalue heq).2
      | ok echo =>
        dsimp only
        by_cases hwrong : written ≠ 1 ∨ (if echo.length = 1 then echo.head? else none)
            ≠ some (value ^^^ 0xFF)
        · rw [if_pos hwrong]
          refine shaken_false hlast rfl fun heq => ?_
          rw [← List.append_cons] at heq
          obtain ⟨hw, he⟩ := eq_synced hlt hvalue heq
          cases hw
          cases he
          rcases hwrong with hw | he
          · exact hw rfl
          · exact he rfl
        · rw [if_neg hwrong]
          obtain ⟨hw, he⟩ := not_or.mp hwrong
          have hw : written = 1 := not_not.mp hw
          have he := eq_singleton_of_echo (not_not.mp he)
          subst hw he
          rw [← synced_succ hvalue] at h2
          refine ih ?_ hlt h2
          rw [← List.tail_drop, hrest]
          rfl

/-! ## a whole run -/

theorem safe_probe (windows : Bool) (timeout : Int) (polls : Nat) :
    Safe Allowed (Begun fun t code => ∃ device pair, Opened t device pair ∧ ¬ Broken t ∧
        (code = 0 ∧ transfers t = synced device pair 4 ∨
          code = 2 ∧ transfers t ≠ synced device pair 4))
      (probe windows timeout polls) [] := by
  refine begun_bind (safe_loadBackend windows) fun _ t ht => ?_
  refine begun_bind (safe_waitForTransport timeout polls ht) fun device t ht => ?_
  refine begun_bind (safe_prepareConfiguration ht) fun configured t ht => ?_
  refine begun_bind (R := fun t pair => findEndpointPair configured = .ok pair ∧
    Stands t (some device) (some configured) none [] []) (safe_ofExcept.mpr ?_) fun pair t hp => ?_
  · cases hpair : findEndpointPair configured with
    | error e => exact ht.broken
    | ok pair => exact ⟨rfl, ht⟩
  obtain ⟨hpair, ht⟩ := hp
  refine begun_bind (safe_claimInterface hpair ht) fun _ t ht => ?_
  refine begun_bind (safe_configureCdc hpair ht) fun _ t ht => ?_
  obtain ⟨y, ht⟩ := ht
  refine begun_bind (safe_runHandshake hpair (n := 0) rfl (Nat.zero_le 4) ht) fun ok t hok => ?_
  obtain ⟨y, x, hx, hbroken, hiff⟩ := hok
  have hopened := hx.opened hpair
  rw [← hx.transfers] at hiff
  cases ok with
  | true => exact ⟨device, pair, hopened, hbroken, Or.inl ⟨rfl, hiff.mp rfl⟩⟩
  | false =>
    exact ⟨device, pair, hopened, hbroken,
      Or.inr ⟨rfl, fun heq => Bool.false_ne_true (hiff.mpr heq)⟩⟩

theorem Opened.unique {device' : UsbDevice} {pair' : EndpointPair} (h : Opened t device pair)
    (h' : Opened t device' pair') : device = device' ∧ pair = pair' := by
  obtain ⟨c, hc, hpair⟩ := h.paired
  obtain ⟨c', hc', hpair'⟩ := h'.paired
  obtain rfl : c = c' := Option.some.inj (hc.symm.trans hc')
  exact ⟨Option.some.inj (h.chosen.symm.trans h'.chosen), Except.ok.inj (hpair.symm.trans hpair')⟩

/-- a complete synchronization ends in a read that was answered -/
theorem not_broken_of_synced (h : transfers t = synced device pair 4) : ¬ Broken t := by
  rw [synced_succ (show startCommand[3]? = some 0x05 from rfl), List.append_cons] at h
  rintro (hnil | ⟨last, hlast, hunsupported⟩)
  · rw [h] at hnil
    exact absurd hnil (List.append_ne_nil_of_right_ne_nil _ (List.cons_ne_nil _ []))
  · rw [h, List.getLast?_concat] at hlast
    cases hlast
    exact Bool.false_ne_true hunsupported

theorem safe_main (windows : Bool) (timeout : Int) (polls : Nat) :
    Safe Allowed Ended (main windows timeout polls) [] := by
  refine safe_handle.mpr ((safe_probe windows timeout polls).mono fun t r hr => ?_)
  cases r with
  | error e =>
    refine ⟨Or.inr (Or.inl rfl), iff_of_false (by decide) ?_, iff_of_true rfl hr⟩
    intro h
    obtain ⟨device, pair, -, hall⟩ := h
    exact not_broken_of_synced hall hr
  | ok code =>
    obtain ⟨device, pair, hopened, hne, ⟨rfl, hall⟩ | ⟨rfl, hall⟩⟩ := hr
    · exact ⟨Or.inl rfl, iff_of_true rfl ⟨device, pair, hopened, hall⟩, iff_of_false (by decide) hne⟩
    · refine ⟨Or.inr (Or.inr rfl), iff_of_false (by decide) fun h => ?_, iff_of_false (by decide) hne⟩
      obtain ⟨device', pair', hopened', hall'⟩ := h
      obtain ⟨rfl, rfl⟩ := hopened.unique hopened'
      exact hall hall'

/-! ## the bytes on the wire -/

theorem sent_concat (t : List Call) (e : Call) : sent (t ++ [e]) = sent t ++ Exchange.sent e := by
  rw [sent, List.flatMap_append, List.flatMap_singleton]
  rfl

theorem sent_of_not_transfer {e : Call} (h : Exchange.isTransfer e = false) : Exchange.sent e = [] := by
  obtain ⟨q, answer⟩ := e
  cases q with
  | write device endpoint data timeout => cases h
  | _ => rfl

theorem sent_transfers (t : List Call) : sent (transfers t) = sent t := by
  induction t with
  | nil => rfl
  | cons e t ih =>
    rw [transfers, List.filter_cons]
    cases he : Exchange.isTransfer e with
    | true =>
      rw [if_pos rfl]
      exact congrArg (Exchange.sent e ++ ·) ih
    | false =>
      rw [if_neg Bool.false_ne_true]
      show _ = Exchange.sent e ++ sent t
      rw [sent_of_not_transfer he]
      exact ih

theorem sent_synced (device : UsbDevice) (pair : EndpointPair) (n : Nat) :
    sent (synced device pair n) = startCommand.take n := by
  rw [sent, synced, List.flatMap_assoc]
  exact List.flatMap_singleton' (startCommand.take n)

theorem sent_prefix (h : Trace.Always (fun pre e => Allowed pre e.question) t) :
    sent t <+: startCommand := by
  induction t using List.reverseRecOn with
  | nil => exact List.nil_prefix
  | append_singleton t e ih =>
    have hlast := h t e [] rfl
    have hprefix := ih h.prefix
    rw [sent_concat]
    obtain ⟨q, answer⟩ := e
    cases q with
    | write device endpoint data timeout =>
      obtain ⟨pair, n, value, -, -, -, hvalue, rfl, hsynced⟩ := hlast
      have htake : sent t ++ [value] = startCommand.take (n + 1) := by
        rw [← sent_transfers, hsynced, sent_synced, List.take_add_one, hvalue]
        rfl
      exact htake ▸ List.take_prefix (n + 1) startCommand
    | _ =>
      show sent t ++ [] <+: startCommand
      rwa [List.append_nil]

/-- there are at most the two control requests -/
theorem controls_length (h : Trace.Always (fun pre e => Allowed pre e.question) t) :
    (controls t).length ≤ 2 := by
  induction t using List.reverseRecOn with
  | nil => exact Nat.zero_le 2
  | append_singleton t e ih =>
    have hlast := h t e [] rfl
    have hlength := ih h.prefix
    rw [controls, List.filter_append, List.length_append]
    obtain ⟨q, answer⟩ := e
    cases q with
    | ctrlTransfer device requestType request value index payload timeout =>
      obtain ⟨-, -, ⟨-, hfirst⟩ | ⟨-, sent, hsecond⟩⟩ := hlast
      · rw [controls] at hfirst
        rw [hfirst]
        exact Nat.le_succ 1
      · rw [controls] at hsecond
        rw [hsecond]
        exact Nat.le_refl 2
    | _ => exact hlength

/-! ## the choice of the endpoints -/

def endpointsOf : Option EndpointPair → Except Failure EndpointPair
  | some pair => .ok pair
  | none => .error (.runtimeError "transport has no interface with both IN and OUT endpoints")

def Interface.isCdcData (interface : Interface) : Bool := interface.bInterfaceClass = 0x0A

theorem scanInterfaces_eq (l : List Interface) (candidates : List EndpointPair) :
    scanInterfaces l candidates =
      endpointsOf (((l.filter Interface.isCdcData).findSome? Interface.pair).or
        (candidates.head?.or (l.findSome? Interface.pair))) := by
  induction l generalizing candidates with
  | nil =>
    cases candidates with
    | nil => rfl
    | cons candidate rest => rfl
  | cons i l ih =>
    rw [scanInterfaces, List.filter_cons, List.findSome?_cons]
    cases hpair : i.pair with
    | none =>
      dsimp only
      rw [ih]
      cases i.isCdcData with
      | true => rw [if_pos rfl, List.findSome?_cons, hpair]
      | false => rw [if_neg Bool.false_ne_true]
    | some pair =>
      by_cases hclass : i.bInterfaceClass = 0x0A
      · have hcdc : i.isCdcData = true := decide_eq_true hclass
        rw [hcdc, if_pos rfl, List.findSome?_cons, hpair]
        exact if_pos hclass
      · have hcdc : i.isCdcData = false := decide_eq_false hclass
        rw [hcdc, if_neg Bool.false_ne_true]
        dsimp only
        rw [if_neg hclass, ih, List.head?_append]
        cases candidates.head? with
        | none => rfl
        | some candidate => rfl

/-- The first interface of the CDC data class that has both endpoints, otherwise the first that has
them. -/
theorem findEndpointPair_eq_ok {configured : Configuration} : findEndpointPair configured = .ok pair ↔
    ((configured.filter Interface.isCdcData).findSome? Interface.pair).or
      (configured.findSome? Interface.pair) = some pair := by
  rw [findEndpointPair, scanInterfaces_eq, List.head?_nil, Option.none_or]
  cases ((configured.filter Interface.isCdcData).findSome? Interface.pair).or
      (configured.findSome? Interface.pair) with
  | none =>
    refine iff_of_false (fun h => ?_) (Option.some_ne_none pair).symm
    cases h
  | some p =>
    show (Except.ok p : Except Failure EndpointPair) = .ok pair ↔ _
    rw [Except.ok.injEq, Option.some.injEq]

theorem mem_of_findDescriptor {i : Interface} {direction : UInt8} {endpoint : Endpoint}
    (h : findDescriptor i direction = some endpoint) :
    endpoint ∈ i.endpoints ∧ endpointDirection endpoint.bEndpointAddress = direction := by
  have hfound := List.find?_some h
  exact ⟨List.mem_of_find?_eq_some h, of_decide_eq_true hfound⟩

/-- The two endpoints are those of one interface, one of them for each direction. -/
theorem pair_of_findEndpointPair {configured : Configuration}
    (h : findEndpointPair configured = .ok pair) : ∃ i ∈ configured,
      pair.interfaceNumber = i.bInterfaceNumber ∧
      (pair.endpointIn ∈ i.endpoints ∧ endpointDirection pair.endpointIn.bEndpointAddress = 0x80) ∧
      pair.endpointOut ∈ i.endpoints ∧ endpointDirection pair.endpointOut.bEndpointAddress = 0x00 := by
  have hsome : ∃ i ∈ configured, i.pair = some pair := by
    rcases Option.or_eq_some_iff.mp (findEndpointPair_eq_ok.mp h) with h | ⟨-, h⟩
    · obtain ⟨i, hi, hpair⟩ := List.exists_of_findSome?_eq_some h
      exact ⟨i, List.mem_of_mem_filter hi, hpair⟩
    · exact List.exists_of_findSome?_eq_some h
  obtain ⟨i, hi, hpair⟩ := hsome
  unfold Interface.pair at hpair
  split at hpair
  · next endpointIn endpointOut hin hout =>
    cases hpair
    exact ⟨i, hi, rfl, mem_of_findDescriptor hin, mem_of_findDescriptor hout⟩
  · cases hpair

/-! ## runs -/

/-- **What a probe does to the device**, whatever it is and whatever its surroundings answer. -/
theorem probe_talks {windows : Bool} {timeout : Int} {polls : Nat} {r : Option (Except Failure Int)}
    (h : Talk (main windows timeout polls) t r) :
    Trace.Always (fun pre e => Allowed pre e.question) t ∧ (controls t).length ≤ 2 ∧
      sent t <+: startCommand ∧ ∀ x, r = some x → Ended t x := by
  obtain ⟨halways, hend⟩ := (safe_main windows timeout polls).sound h Trace.always_nil
  exact ⟨halways, controls_length halways, sent_prefix halways, hend⟩

end

/-- a device in its BootROM, without a configuration when it is found -/
def bootRom : UsbDevice := ⟨0x0E8D, 0x0003, 1, 5⟩

def bootRomInterfaces : Configuration :=
  [⟨0, 0x02, [⟨0x84⟩]⟩, ⟨1, 0x0A, [⟨0x01⟩, ⟨0x81⟩]⟩]

/-- It answers every byte with its complement. -/
def bootRomAnswers (before : List Call) : (q : Question) → Answer q
  | .getBackend => true
  | .setOption => .ok 0
  | .monotonic => before.length
  | .find => .ok (if before.length < 6 then [] else [bootRom])
  | .sleep => ()
  | .getActiveConfiguration _ =>
    if ∃ e ∈ before, e.question = .setConfiguration bootRom then .ok bootRomInterfaces
    else .error (.usb ⟨"Configuration not set"⟩)
  | .setConfiguration _ => .ok ()
  | .isKernelDriverActive _ _ => .error .notImplemented
  | .detachKernelDriver _ _ => .ok ()
  | .claimInterface _ _ => .ok ()
  | .ctrlTransfer _ _ _ _ _ _ _ => .error (.usb ⟨"pipe error"⟩)
  | .write _ _ data _ => .ok data.length
  | .read _ _ _ _ => .ok ((sent before).getLast?.toList.map fun value => value ^^^ 0xFF)

def bootRomTalk : Conversation Answer Failure Int (List Call) :=
  converse (remembers bootRomAnswers) (main false 180 4) []

theorem probe_talks_bootRom : bootRomTalk.result = some (.ok 0) ∧ sent bootRomTalk.talk = startCommand ∧
    Trace.Always (fun pre e => Allowed pre e.question) bootRomTalk.talk := by
  have hrun : bootRomTalk.result = some (.ok 0) ∧ sent bootRomTalk.talk = startCommand := by
    decide +kernel
  exact ⟨hrun.1, hrun.2, (probe_talks (talk_converse _ (main false 180 4) [])).1⟩

end RT7.Probe
