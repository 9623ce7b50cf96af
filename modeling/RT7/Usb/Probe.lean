import RT7.Base.Bytes
import RT7.Base.Dialogue
import Mathlib.Data.List.Infix

/-!
# Probing the boot transport (`scripts/probe-mtk-handshake.py`)

* `UsbDevice`, `Configuration`, `Interface`, `Endpoint`   what the script looks at;
* `Question`, `Answer`   the calls of libusb and of the clock, and what they can come to;
* `waitForTransport`, `prepareConfiguration`, `findEndpointPair`, `claimInterface`, `configureCdc`,
  `runHandshake`   the parts of the script;
* `main`            a run, with the first `polls` turns of its polling loop.
-/

namespace RT7.Probe

open Dialogue

def vidMediatek : Nat := 0x0E8D

def transportPids : List Nat := [0x0003, 0x2000, 0x2001, 0x20FF, 0x3000, 0x6000]

def startCommand : Bytes := [0xA0, 0x0A, 0x50, 0x05]

structure UsbDevice where
  idVendor : Nat
  idProduct : Nat
  bus : Nat
  address : Nat
  deriving DecidableEq, Repr

structure Endpoint where
  bEndpointAddress : UInt8
  deriving DecidableEq, Repr

structure Interface where
  bInterfaceNumber : Nat
  bInterfaceClass : Nat
  endpoints : List Endpoint
  deriving DecidableEq, Repr

abbrev Configuration := List Interface

structure EndpointPair where
  interfaceNumber : Nat
  endpointIn : Endpoint
  endpointOut : Endpoint
  deriving DecidableEq, Repr

/-- `usb.core.USBError`, with its text -/
structure UsbError where
  text : String
  deriving DecidableEq, Repr

/-- The calls that reach beyond the script. -/
inductive Question where
  | getBackend
  | setOption
  | monotonic
  | find
  | sleep
  | getActiveConfiguration (device : UsbDevice)
  | setConfiguration (device : UsbDevice)
  | isKernelDriverActive (device : UsbDevice) (interface : Nat)
  | detachKernelDriver (device : UsbDevice) (interface : Nat)
  | claimInterface (device : UsbDevice) (interface : Nat)
  | ctrlTransfer (device : UsbDevice) (requestType request value index : Nat) (payload : Bytes)
      (timeout : Nat)
  | write (device : UsbDevice) (endpoint : Endpoint) (data : Bytes) (timeout : Nat)
  | read (device : UsbDevice) (endpoint : Endpoint) (length timeout : Nat)
  deriving DecidableEq, Repr

/-- What a call of pyusb raises: `NotImplementedError`, which is a `RuntimeError`, where libusb does
not support the operation. -/
inductive CallError where
  | notImplemented
  | usb (error : UsbError)
  deriving DecidableEq, Repr

@[reducible] def Answer : Question → Type
  | .getBackend => Bool
  | .setOption => Except String Int
  | .monotonic => Int
  | .find => Except CallError (List UsbDevice)
  | .sleep => Unit
  | .getActiveConfiguration _ => Except CallError Configuration
  | .setConfiguration _ => Except CallError Unit
  | .isKernelDriverActive _ _ => Except CallError Bool
  | .detachKernelDriver _ _ => Except CallError Unit
  | .claimInterface _ _ => Except CallError Unit
  | .ctrlTransfer _ _ _ _ _ _ _ => Except CallError Nat
  | .write _ _ _ _ => Except CallError Nat
  | .read _ _ _ _ => Except CallError Bytes

inductive Failure where
  | runtimeError (text : String)
  | notImplementedError
  | timeoutError
  | usbError (error : UsbError)
  deriving DecidableEq, Repr

abbrev Script := Dialogue Question Answer Failure

def call (q : Question) : Script (Answer q) := query q

def CallError.failure : CallError → Failure
  | .notImplemented => .notImplementedError
  | .usb error => .usbError error

/-- the answer of a call whose errors are passed on -/
def raised {α : Type} (answer : Except CallError α) : Except Failure α :=
  answer.mapError CallError.failure

/-! ## the parts of the script -/

def loadBackend (windows : Bool) : Script Unit := do
  let found ← call .getBackend
  failIf (found = false) (.runtimeError "libusb-1.0 backend is unavailable")
  if windows then
    match ← call .setOption with
    | Except.error error => .fail (.runtimeError s!"cannot enable the UsbDk backend: {error}")
    | Except.ok result => failIf (result ≠ 0) (.runtimeError s!"enabling the UsbDk backend returned {result}")

def matchingDevices (devices : List UsbDevice) : List UsbDevice :=
  devices.filter fun device => device.idVendor = vidMediatek ∧ device.idProduct ∈ transportPids

/-- one turn of the polling loop -/
def pollTransport (deadline : Int) : Script (Turn Unit UsbDevice) := do
  let now ← call .monotonic
  if now < deadline then
    let devices ← request .find raised
    match matchingDevices devices with
    | device :: _ => return .returned device
    | [] =>
      call .sleep
      return .again ()
  else
    .fail .timeoutError

def waitForTransport (timeout : Int) (polls : Nat) : Script UsbDevice := do
  let start ← call .monotonic
  loop (fun _ => pollTransport (start + timeout)) polls ()

def prepareConfiguration (device : UsbDevice) : Script Configuration := do
  match ← call (.getActiveConfiguration device) with
  | Except.ok configuration => return configuration
  | Except.error .notImplemented => .fail .notImplementedError
  | Except.error (.usb error) =>
    failIf (¬ "Configuration not set".toList <:+: error.text.toList) (.usbError error)
    request (.setConfiguration device) raised
    request (.getActiveConfiguration device) raised

def endpointDirection (address : UInt8) : UInt8 := address &&& 0x80

/-- `usb.util.find_descriptor` for the endpoints of one direction -/
def findDescriptor (interface : Interface) (direction : UInt8) : Option Endpoint :=
  interface.endpoints.find? fun endpoint => endpointDirection endpoint.bEndpointAddress = direction

/-- the two endpoints of an interface that has both -/
def Interface.pair (interface : Interface) : Option EndpointPair :=
  match findDescriptor interface 0x80, findDescriptor interface 0x00 with
  | some endpointIn, some endpointOut => some ⟨interface.bInterfaceNumber, endpointIn, endpointOut⟩
  | _, _ => none

/-- the loop over the interfaces, with the candidates so far -/
def scanInterfaces : List Interface → List EndpointPair → Except Failure EndpointPair
  | [], candidates =>
    match candidates with
    | candidate :: _ => .ok candidate
    | [] => .error (.runtimeError "transport has no interface with both IN and OUT endpoints")
  | interface :: rest, candidates =>
    match interface.pair with
    | some pair =>
      if interface.bInterfaceClass = 0x0A then .ok pair else scanInterfaces rest (candidates ++ [pair])
    | none => scanInterfaces rest candidates

def findEndpointPair (configuration : Configuration) : Except Failure EndpointPair :=
  scanInterfaces configuration []

/-- the `try` block of `claim_interface`: what it raises is passed over -/
def detachDriver (device : UsbDevice) (interfaceNumber : Nat) : Script Unit := do
  match ← call (.isKernelDriverActive device interfaceNumber) with
  | Except.ok true =>
    let _ ← call (.detachKernelDriver device interfaceNumber)
  | _ => return ()

def claimInterface (device : UsbDevice) (interfaceNumber : Nat) : Script Unit := do
  detachDriver device interfaceNumber
  request (.claimInterface device interfaceNumber) raised

def lineCoding : Bytes := [0x00, 0x10, 0x0E, 0x00, 0x00, 0x00, 0x08]

/-- the body of the loop of `configure_cdc`: a `USBError` is ignored -/
def sendControl (device : UsbDevice) (request value : Nat) (payload : Bytes) : Script Unit := do
  match ← call (.ctrlTransfer device 0x21 request value 0 payload 100) with
  | Except.error .notImplemented => .fail .notImplementedError
  | _ => return ()

/-- `SET_LINE_CODING` and `SET_CONTROL_LINE_STATE` -/
def configureCdc (device : UsbDevice) : Script Unit := do
  sendControl device 0x20 0 lineCoding
  sendControl device 0x01 2 []

def runHandshake (device : UsbDevice) (pair : EndpointPair) : Bytes → Script Bool
  | [] => return true
  | value :: rest => do
    match ← call (.write device pair.endpointOut [value] 250) with
    | Except.error .notImplemented => .fail .notImplementedError
    | Except.error (.usb _) => return false
    | Except.ok written =>
      match ← call (.read device pair.endpointIn 1 250) with
      | Except.error .notImplemented => .fail .notImplementedError
      | Except.error (.usb _) => return false
      | Except.ok echo =>
        let expected := value ^^^ 0xFF
        let actual := if echo.length = 1 then echo.head? else none
        if written ≠ 1 ∨ actual ≠ some expected then return false else runHandshake device pair rest

/-- `main` up to its handlers -/
def probe (windows : Bool) (timeout : Int) (polls : Nat) : Script Int := do
  loadBackend windows
  let device ← waitForTransport timeout polls
  let configuration ← prepareConfiguration device
  let pair ← ofExcept (findEndpointPair configuration)
  claimInterface device pair.interfaceNumber
  configureCdc device
  if ← runHandshake device pair startCommand then return 0 else return 2

/-- The exit code of a run. -/
def main (windows : Bool) (timeout : Int) (polls : Nat) : Script Int :=
  (probe windows timeout polls).handle fun _ => return 1

end RT7.Probe
