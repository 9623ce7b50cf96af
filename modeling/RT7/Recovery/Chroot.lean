import RT7.Base.Bytes
import RT7.Base.Once
import RT7.Base.Script
import RT7.Recovery.Started

/-!
# The services of the Debian root (`rootfs/bin/rt7-chroot-start`)

* `Debian`          the files that the script looks at, and the processes; a daemon writes its pid file
  some time after it was started;
* `kill0`           what `kill -0` takes, with signs and blanks as the shell reads them;
* `running`         what the script takes for a daemon that runs: `kill -0` of its pid file succeeds;
* `checkRoot`, `startDaemons`, `chrootStart`   the script;
* `startDevice`     the starter of the recovery, with this script for its last command;
* `healthcheck`     what the host asks for until it ends well;
* `Event`           what happens between two runs: daemons write their files and die, other processes
  come and go, and somebody changes the configuration.
-/

namespace RT7.Recovery

open Shell
open RT7.Script (isSpace)

inductive Daemon where
  | sshd
  | dockerd
  deriving DecidableEq, Repr

/-- `settled` once the daemon has written its pid file -/
structure Process where
  pid : Nat
  daemon : Option Daemon
  settled : Bool
  deriving DecidableEq, Repr

/-- what was there when a daemon was started -/
structure Start where
  daemon : Daemon
  authorizedKeys : Option Bytes
  mounted : Bool

structure Debian where
  /-- `/run/sshd` -/
  directories : Bool
  hostKeys : Bool
  /-- `sshd_config` can be read -/
  configuration : Bool
  /-- `/home/rt7/.ssh/authorized_keys` -/
  authorizedKeys : Option Bytes
  pidFiles : Daemon → Option String
  processes : List Process
  /-- whether a signal to a process group reaches a process; to group `1` it is one to all of them -/
  groups : Nat → Bool
  started : List Start

structure Device where
  recovery : State
  debian : Debian

inductive ChrootFailure where
  | notRoot
  | mountMissing (path : String)
  | install
  | sshKeygen
  | sshdTest
  | noAuthorizedKeys
  | sshd
  | message
  deriving DecidableEq, Repr

/-! ## commands -/

/-- digits, with nothing but blanks after them -/
def digits (text : List Char) : Option Nat :=
  if text.takeWhile Char.isDigit ≠ [] ∧ (text.dropWhile Char.isDigit).all isSpace then
    some (Nat.ofDigitChars 10 (text.takeWhile Char.isDigit) 0)
  else none

/-- `number` of the shell: `strtoimax`, and no negative number. One that is out of range is an error
there; here it is the number of no process. -/
def number (text : List Char) : Option Nat :=
  match text.dropWhile isSpace with
  | '+' :: rest => digits rest
  | '-' :: rest => (digits rest).filter (· = 0)
  | rest => digits rest

example : [" +217 ", "217x", "-217", "- 0", "+ 217"].map (fun text => number text.toList) =
    [some 217, none, none, none, none] := by decide

/-- `"$(cat file)"` -/
def catText (text : String) : List Char :=
  (text.toList.filter (· ≠ '\x00')).rdropWhile (· = '\n')

namespace Debian

/-- `kill -0 text`; `0` is the group of the script itself -/
def kill0 (s : Debian) : List Char → Bool
  | '-' :: rest => (number rest).any fun n => n = 0 || s.groups n
  | text => (number text).any fun n => n = 0 || s.processes.any fun p => p.pid = n

/-- `[ -s file ] && kill -0 "$(cat file)"` -/
def running (s : Debian) (daemon : Daemon) : Bool :=
  match s.pidFiles daemon with
  | some text => text ≠ "" && s.kill0 (catText text)
  | none => false

/-- `sshd -t` -/
def sshdTest (s : Debian) : Bool := s.configuration && s.hostKeys && s.directories

/-- `[ -s /home/rt7/.ssh/authorized_keys ]` -/
def hasKeys (s : Debian) : Bool := s.authorizedKeys.any fun keys => keys ≠ []

end Debian

def mountpoints : List String := ["/proc", "/sys", "/dev"]

/-- `mountpoint -q` inside the root -/
def Device.mounted (s : Device) (path : String) : Bool := mountpoint s.recovery.mounts (target path)

/-- A daemon is started under a number that is free, and writes its pid file later. -/
def Device.start (daemon : Daemon) (pid : Nat) (s : Device) : Option Device :=
  if pid ≠ 0 ∧ ∀ p ∈ s.debian.processes, p.pid ≠ pid then
    some { s with debian := { s.debian with
      processes := ⟨pid, some daemon, false⟩ :: s.debian.processes
      started := ⟨daemon, s.debian.authorizedKeys, mountpoints.all s.mounted⟩ :: s.debian.started } }
  else none

/-! ## the script -/

def requireMount (path : String) : Shell Device ChrootFailure Unit :=
  ifThen (fun s => !s.mounted path) (exit (.mountMissing path))

/-- `if [ ! -s "$file" ] || ! kill -0 "$(cat "$file")"; then p; fi` -/
def unlessRunning (daemon : Daemon) (p : Shell Device ChrootFailure Unit) :
    Shell Device ChrootFailure Unit := ifThen (fun s => !s.debian.running daemon) p

/-- the checks at the top, and what they need -/
def checkRoot (uid : Nat) : Shell Device ChrootFailure Unit := do
  ifThen (fun _ => uid ≠ 0) (exit .notRoot)
  inSequence (mountpoints.map requireMount)
  act .install fun s => some { s with debian := { s.debian with directories := true } }
  act .sshKeygen fun s => some { s with debian := { s.debian with hostKeys := true } }
  act .sshdTest fun s => if s.debian.sshdTest then some s else none
  ifThen (fun s => !s.debian.hasKeys) (exit .noAuthorizedKeys)

/-- `pids` are the numbers that the two daemons would get. -/
def startDaemons (pids : Nat × Nat) : Shell Device ChrootFailure Unit := do
  unlessRunning .sshd (act .sshd (Device.start .sshd pids.1))
  -- `dockerd` goes to the background: the script does not see whether it starts
  unlessRunning .dockerd (ifFails (Device.start .dockerd pids.2) (pure ()))
  act .message some

def chrootStart (uid : Nat) (pids : Nat × Nat) : Shell Device ChrootFailure Unit := do
  checkRoot uid
  startDaemons pids

/-- the parts of the starter before it enters the root -/
def mountPhases (image : String) : List (Script Unit) :=
  [setUpCgroups, mountRoot image] ++ ["/dev", "/proc", "/sys"].map bindSource ++
    ["/dev/pts", "/sys/fs/cgroup"].map bindNested

def prepareRoot (argument : Option String) (uid : Nat) (isFile : String → Bool) : Script Unit := do
  ifThen (fun _ => uid ≠ 0) (exit .notRoot)
  ifThen (fun _ => !isFile (imageArgument argument)) (exit .imageNotFound)
  inSequence (mountPhases (imageArgument argument))

def Device.lensRecovery : Lens Device State where
  get := Device.recovery
  set r s := { s with recovery := r }
  get_set _ _ := rfl
  set_get _ := rfl

/-- the whole starter, with `chroot "$root" /usr/local/sbin/rt7-chroot-start` -/
def startDevice (argument : Option String) (uid : Nat) (isFile : String → Bool) (pids : Nat × Nat) :
    Shell Device Failure Unit := do
  within Device.lensRecovery (prepareRoot argument uid isFile)
  relabel (fun _ => .chroot) (chrootStart uid pids)
  act .message some

/-! ## `rootfs/bin/rt7-healthcheck` -/

inductive HealthFailure where
  | echo
  | sshdTest
  | dockerVersion
  | dockerInfo
  deriving DecidableEq, Repr

/-- The client of `docker` fails where no daemon answers it. -/
def Debian.dockerAnswers (s : Debian) : Bool := s.processes.any fun p => p.daemon = some .dockerd

/-- The lines with `dpkg` and `uname` end well whatever these give. -/
def healthcheck : Shell Debian HealthFailure Unit := do
  act .echo some
  act .echo some
  act .sshdTest fun s => if s.sshdTest then some s else none
  act .dockerVersion fun s => if s.dockerAnswers then some s else none
  act .dockerInfo fun s => if s.dockerAnswers then some s else none

/-! ## between two runs -/

/-- what a daemon writes into its pid file -/
def pidText (daemon : Daemon) (pid : Nat) : String :=
  match daemon with
  | .sshd => Nat.repr pid ++ "\n"
  | .dockerd => Nat.repr pid

inductive Event : Debian → Debian → Prop
  /-- a process ends, and leaves its pid file -/
  | exits {s : Debian} (p : Process) (live : p ∈ s.processes) :
      Event s { s with processes := s.processes.filter fun q => q.pid ≠ p.pid }
  /-- a daemon ends, and removes its pid file -/
  | unlinks {s : Debian} (p : Process) (live : p ∈ s.processes) {daemon : Daemon}
      (kind : p.daemon = some daemon) :
      Event s { s with
        processes := s.processes.filter fun q => q.pid ≠ p.pid
        pidFiles := Function.update s.pidFiles daemon none }
  /-- a daemon writes its pid file -/
  | settles {s : Debian} (p : Process) (live : p ∈ s.processes) {daemon : Daemon}
      (kind : p.daemon = some daemon) :
      Event s { s with
        processes := s.processes.map fun q => if q = p then { q with settled := true } else q
        pidFiles := Function.update s.pidFiles daemon (some (pidText daemon p.pid)) }
  | regroups {s : Debian} (groups : Nat → Bool) : Event s { s with groups := groups }
  /-- another process starts -/
  | spawns {s : Debian} (pid : Nat) (free : ∀ p ∈ s.processes, p.pid ≠ pid) :
      Event s { s with processes := ⟨pid, none, true⟩ :: s.processes }
  | configures {s : Debian} (directories hostKeys configuration : Bool) (authorizedKeys : Option Bytes) :
      Event s { s with
        directories := directories
        hostKeys := hostKeys
        configuration := configuration
        authorizedKeys := authorizedKeys }

end RT7.Recovery
