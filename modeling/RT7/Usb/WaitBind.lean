import RT7.Base.Casing
import RT7.Base.Trace

/-!
# Waiting for the boot transport and binding it

* `Device`          a record of `usbipd state`;
* `isTransport`, `connected`, `nonForced`, `boundDevices`   the filters of the script;
* `Event`           what a run does that can be seen from outside: it reads the clock and the state,
  runs a command, gives a result, or ends with an error;
* `Control`         where a run stands, with the values that it keeps;
* `step`            the next thing a run does; the answers of its surroundings are arbitrary.
-/

namespace RT7.Usb

structure Switches where
  execute : Bool
  force : Bool

/-- The two identities of the boot transport. -/
inductive Pid where
  | preloader
  | bootRom
  deriving DecidableEq, Repr

def Pid.text : Pid → String
  | .preloader => "2000"
  | .bootRom => "0003"

def targetPids : List Pid := [.preloader, .bootRom]

/-- One record of the list `Devices`; a missing text is `$null`. -/
structure Device where
  instanceId : Option String
  busId : Option String
  persistedGuid : Option String
  isForced : Bool
  clientIPAddress : Option String
  deriving DecidableEq, Repr

/-- `[string]$value` -/
def castString (value : Option String) : String := value.getD ""

/-- a text in a condition -/
def isTrue (value : Option String) : Bool := castString value ≠ ""

variable (cs : Casing) (sw : Switches)

/-- `^USB\\VID_0E8D&PID_<pid>\\`, ignoring case -/
def isTransport (pid : Pid) (instanceId : String) : Bool :=
  let pattern := "USB\\VID_0E8D&PID_" ++ pid.text ++ "\\"
  (cs.key instanceId).take pattern.length = cs.key pattern

/-- the group `pid` of a match of the transport pattern -/
def transportPid (instanceId : String) : Option Pid :=
  if isTransport cs .bootRom instanceId then some .bootRom
  else if isTransport cs .preloader instanceId then some .preloader
  else none

/-- the connected boot-transport devices -/
def connected (devices : List Device) : List Device :=
  devices.filter fun d => (transportPid cs (castString d.instanceId)).isSome && isTrue d.busId

/-- the records that keep a hardware identity bound without force -/
def nonForced (pid : Pid) (devices : List Device) : List Device :=
  devices.filter fun d =>
    isTransport cs pid (castString d.instanceId) && isTrue d.persistedGuid && !d.isForced

def bindingReady (d : Device) : Bool := isTrue d.persistedGuid && (!sw.force || d.isForced)

/-- `[string]$_.InstanceId -eq $instanceId`, ignoring case -/
def sameInstance (d : Device) (instanceId : String) : Bool :=
  cs.key (castString d.instanceId) = cs.key instanceId

/-- the records that show the requested binding of an instance -/
def boundDevices (instanceId : String) (devices : List Device) : List Device :=
  devices.filter fun d => sameInstance cs d instanceId && bindingReady sw d

/-! ## one run -/

inductive Command where
  | unbind (pid : Pid)
  | bind (force : Bool) (busId : String)
  | attach (busId : String)
  deriving DecidableEq, Repr

/-- A reply that cannot be read, or that lists no devices, is `none`. -/
abbrev Reply := Option (List Device)

inductive Event where
  | clock (expired : Bool)
  | state (reply : Reply)
  | command (issued : Command) (exitCode : Int)
  | output (busId : String)
  | throw
  deriving DecidableEq

/-- What the surroundings of a run answer next, whichever question is asked. -/
structure World where
  reply : Reply
  exitCode : Int
  administrator : Bool
  expired : Bool

inductive Control where
  | start
  /-- the identities that are still to be unbound, after the initial reply -/
  | unbinding (initial : List Device) (pids : List Pid)
  | poll
  /-- the reply showed one device -/
  | detected (device : Device)
  /-- the device was bound, and its record is to be read again -/
  | bound (device : Device)
  /-- the binding is there; `current` is the last record of the device -/
  | ready (device current : Device)
  | attached (device : Device)
  | stopped
  | aborted

/-- The next thing a run does. -/
def step (w : World) : Control → List Event × Control
  | .start =>
    if sw.force && !sw.execute then ([.throw], .aborted)
    else if sw.execute && sw.force then
      match w.reply with
      | none => ([.state none, .throw], .aborted)
      | some devices => ([.state (some devices)], .unbinding devices targetPids)
    else ([], .poll)
  | .unbinding _ [] => ([], .poll)
  | .unbinding initial (pid :: pids) =>
    if nonForced cs pid initial = [] then ([], .unbinding initial pids)
    else if !w.administrator then ([.throw], .aborted)
    else if w.exitCode ≠ 0 then ([.command (.unbind pid) w.exitCode, .throw], .aborted)
    else ([.command (.unbind pid) w.exitCode], .unbinding initial pids)
  | .poll =>
    if w.expired then ([.clock true, .throw], .aborted)
    else match w.reply with
      | none => ([.clock false, .state none, .throw], .aborted)
      | some devices =>
        match connected cs devices with
        | [] => ([.clock false, .state (some devices)], .poll)
        | [device] => ([.clock false, .state (some devices)], .detected device)
        | _ => ([.clock false, .state (some devices), .throw], .aborted)
  | .detected device =>
    if !sw.execute then ([.output (castString device.busId)], .stopped)
    else if bindingReady sw device then ([], .ready device device)
    else if !w.administrator then ([.throw], .aborted)
    else
      let bind := Command.bind sw.force (castString device.busId)
      -- a failed bind goes back to the loop: the identity vanished
      if w.exitCode ≠ 0 then ([.command bind w.exitCode], .poll)
      else ([.command bind w.exitCode], .bound device)
  | .bound device =>
    match w.reply with
    | none => ([.state none, .throw], .aborted)
    | some devices =>
      match boundDevices cs sw (castString device.instanceId) devices with
      | [current] => ([.state (some devices)], .ready device current)
      | _ => ([.state (some devices)], .poll)
  | .ready device current =>
    if isTrue current.clientIPAddress then ([], .attached device)
    else
      -- the BUSID is that of the first record of the iteration
      let attach := Command.attach (castString device.busId)
      if w.exitCode ≠ 0 then ([.command attach w.exitCode], .poll)
      else ([.command attach w.exitCode], .attached device)
  | .attached device =>
    if transportPid cs (castString device.instanceId) = some .bootRom then
      ([.output (castString device.busId)], .stopped)
    else ([], .poll)
  | .stopped => ([], .stopped)
  | .aborted => ([], .aborted)

/-- The events of a run, as far as its surroundings have answered. -/
def events (worlds : List World) : List Event := (Trace.run (step cs sw) worlds .start).1

end RT7.Usb
