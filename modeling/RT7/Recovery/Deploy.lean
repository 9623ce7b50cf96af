import RT7.Base.Dialogue
import RT7.Base.PowerShell
import RT7.Base.Sha256
import RT7.Copy.Path

/-!
# Starting Debian from the host (`scripts/start-recovery-linux.ps1`)

* `Options`         the parameters of the script, and where it lies;
* `Question`        what it asks: files and hashes of the host, `docker`, `ssh`;
* `invokeAdb`       one command of `adb`, run in a container beside the server;
* `checkContainer`, `pushImage`, `startRemote`, `checkHealth`   the parts of the script;
* `main`            a run, with its exit code.
-/

namespace RT7.Recovery.Deploy

open Dialogue Copy PowerShell

structure Options where
  workDir : String
  serial : String := ""
  adbContainer : String := "rt7-adb"
  adbImage : String := "local/oukitel-rt7-android-tools:34.0.4"
  imageName : String := "rt7-debian-bookworm-arm64-recovery-test-v2.ext4"
  sshPort : Int := 22007
  skipPush : Bool := false
  repoRoot : String
  scriptRoot : String

namespace Options
variable (o : Options)

def image : String := joinPath (joinPath o.workDir "rootfs") o.imageName

def sshKey : String := joinPath (joinPath o.workDir "keys") "rt7_admin_ed25519"

def knownHosts : String := joinPath (joinPath o.workDir "keys") "rt7_recovery_known_hosts"

def starter : String := joinPath o.scriptRoot "rt7-recovery-linux-start.sh"

def containerImage : String := "/rt7-work/rootfs/" ++ o.imageName

end Options

def containerStarter : String := "/project/scripts/rt7-recovery-linux-start.sh"

def remoteImage : String := "/tmp/rt7-debian-recovery-test.ext4"

def remoteStarter : String := "/tmp/rt7-recovery-linux-start.sh"

inductive Question where
  | testPath (path : String)
  | docker (command : List String)
  | getFileHash (path : String)
  | ssh (command : List String)
  | sleep
  deriving DecidableEq, Repr

@[reducible] def Answer : Question → Type
  | .testPath _ => Bool
  | .docker _ => Result
  | .getFileHash _ => Except String Digest
  | .ssh _ => Int
  | .sleep => Unit

abbrev Script := Dialogue Question Answer Thrown

def call (q : Question) : Script (Answer q) := query q

variable (culture : Culture) (o : Options)

/-! ## commands -/

def adbPrefix : List String :=
  ["run", "--rm",
    "--network", "container:" ++ o.adbContainer,
    "--volume", o.workDir ++ ":/rt7-work:ro",
    "--volume", o.repoRoot ++ ":/project:ro",
    "--entrypoint", "adb",
    o.adbImage] ++ (if o.serial ≠ "" then ["-s", o.serial] else [])

def dockerCommand (arguments : List String) : List String := adbPrefix o ++ arguments

def invokeAdb (arguments : List String) : Script String := do
  let result ← call (.docker (dockerCommand o arguments))
  let joined := Text.join ' ' arguments
  failIf (result.code ≠ 0) ⟨s!"adb failed with status {result.code}: {joined}"⟩
  return result.output

def inspectCommand : List String :=
  ["inspect", o.adbContainer, "--format", "\x7b\x7b.State.Running\x7d\x7d|\x7b\x7b.Config.Image\x7d\x7d"]

def getState : List String := ["get-state"]
def getBootMode : List String := ["shell", "getprop", "ro.bootmode"]
def getHardware : List String := ["shell", "getprop", "ro.hardware"]
def pushImageArguments : List String := ["push", o.containerImage, remoteImage]
def hashImage : List String := ["shell", "sha256sum", remoteImage]
def pushStarter : List String := ["push", containerStarter, remoteStarter]
def makeExecutable : List String := ["shell", "chmod", "0755", remoteStarter]
def runStarter : List String := ["shell", remoteStarter, remoteImage]
def forwardPort : List String := ["forward", s!"tcp:{o.sshPort}", "tcp:22"]

def sshArguments : List String :=
  ["-i", o.sshKey,
    "-p", toString o.sshPort,
    "-o", "BatchMode=yes",
    "-o", "ConnectTimeout=2",
    "-o", "StrictHostKeyChecking=accept-new",
    "-o", "UserKnownHostsFile=" ++ o.knownHosts,
    "rt7@127.0.0.1",
    "sudo /usr/local/sbin/rt7-healthcheck"]

/-! ## the parts of the script -/

def requireFile (path : String) : Script Unit := do
  let found ← call (.testPath path)
  failIf (found = false) ⟨"Required file not found: " ++ path⟩

def checkContainer : Script Unit := do
  let result ← call (.docker (inspectCommand o))
  failIf (result.code ≠ 0) ⟨s!"Docker ADB container '{o.adbContainer}' is unavailable."⟩
  let parts := splitBar (trim result.output)
  failIf (culture.equals parts.1 "true" = false)
    ⟨s!"Docker ADB container '{o.adbContainer}' is not running."⟩
  -- in strict mode an index beyond the end is an error
  match parts.2 with
  | none => .fail ⟨"Index was outside the bounds of the array."⟩
  | some image =>
    failIf (culture.equals image o.adbImage = false)
      ⟨s!"ADB container image mismatch: expected '{o.adbImage}', got '{String.ofList image}'."⟩

def checkTarget : Script Unit := do
  let _ ← invokeAdb o getState
  let bootMode ← invokeAdb o getBootMode
  let hardware ← invokeAdb o getHardware
  failIf (culture.equals (trim bootMode) "recovery" = false)
    ⟨s!"Refusing to continue outside recovery mode (reported '{String.ofList (trim bootMode)}')."⟩
  failIf (culture.equals (trim hardware) "mt6853" = false)
    ⟨s!"Refusing unexpected hardware '{String.ofList (trim hardware)}'; expected mt6853."⟩

/-- what the script reads from the line of `sha256sum` -/
def actualHash (line : String) : List Char := (firstField (trim line)).map culture.lower

def pushImage : Script Unit := do
  let digest ← request (.getFileHash o.image) fun answer => answer.mapError Thrown.mk
  let expectedHash := digest.hexdigest
  let _ ← invokeAdb o (pushImageArguments o)
  let line ← invokeAdb o hashImage
  failIf (culture.equals (actualHash culture line) expectedHash = false)
    ⟨s!"Transferred ext4 hash mismatch: expected {expectedHash}, got {String.ofList (actualHash culture line)}"⟩
  let _ ← invokeAdb o pushStarter

def startRemote : Script Unit := do
  let _ ← invokeAdb o makeExecutable
  let _ ← invokeAdb o runStarter
  let _ ← invokeAdb o (forwardPort o)

/-- the loop over the attempts, with those that are left -/
def checkHealth : Nat → Script Int
  | 0 => .fail ⟨"SSH/Docker health check did not pass within 30 seconds."⟩
  | attempts + 1 => do
    let exitCode ← call (.ssh (sshArguments o))
    if exitCode = 0 then return 0
    else do
      call .sleep
      checkHealth attempts

def main : Script Int := do
  requireFile o.image
  requireFile o.sshKey
  requireFile o.starter
  failIf (o.sshPort < 1024 ∨ o.sshPort > 65535) ⟨"SshPort must be between 1024 and 65535."⟩
  checkContainer culture o
  checkTarget culture o
  if o.skipPush then pure () else pushImage culture o
  startRemote o
  checkHealth o 30

end RT7.Recovery.Deploy
