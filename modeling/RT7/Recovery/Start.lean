import RT7.Base.Shell
import RT7.Recovery.Mounts

/-!
# Starting Debian from the recovery

* `State`           the mounts, the loop devices and the file with the loop device of the root;
* `Failure`         the command at which a run of the script has ended;
* `setUpCgroups`, `mountRoot`, `bindSource`, `bindNested`, `enterRoot`   the parts of the script;
* `phases`, `prepare`, `main`   the script, `prepare` without its final message.
-/

namespace RT7.Recovery

open Text Shell

structure State where
  /-- the newest mount is the first -/
  mounts : List Mount
  /-- the image that each loop device shows -/
  loops : List (Option String)
  /-- the text of `/tmp/rt7-debian.loop` -/
  loopState : Option String
  /-- `/sys/fs/cgroup/cgroup.controllers` is there and can be read -/
  controllersReadable : Bool

inductive Failure where
  | notRoot
  | imageNotFound
  | mkdir (path : String)
  | mountCgroupRoot
  | mkdirController (controllers : String)
  | mountController (controllers : String)
  | losetupFind
  | losetupAttach
  | mountImage
  | losetupDetach
  | recordLoop
  | rbind (source : String)
  | rslave (source : String)
  | chroot
  | message
  deriving DecidableEq, Repr

abbrev Script := Shell State Failure

/-! ## commands -/

def mkdir (path : String) : Script Unit := act (.mkdir path) some

/-- `mount` -/
def State.mount (m : Mount) (s : State) : State := { s with mounts := m :: s.mounts }

def loopDevice (n : Nat) : String := "/dev/block/loop" ++ toString n

/-- `losetup -f` -/
def freeLoop (loops : List (Option String)) : Option Nat := loops.findIdx? fun image => image = none

/-- `losetup device image` -/
def State.attach (n : Nat) (image : String) (s : State) : Option State :=
  if s.loops[n]? = some none then some { s with loops := s.loops.set n (some image) } else none

/-- `losetup -d device` -/
def State.detach (n : Nat) (s : State) : Option State :=
  if (s.loops[n]?.getD none).isSome then some { s with loops := s.loops.set n none } else none

theorem root_ofText_ne_relative {text : String} (h : text.toList.head? = some '/') :
    Root.ofText text ≠ .relative := by
  obtain ⟨cs, hcs⟩ := List.head?_eq_some_iff.mp h
  rw [Root.ofText, hcs]
  split
  · exact Root.noConfusion
  · exact Root.noConfusion
  · exact Root.noConfusion
  · next hno => exact absurd rfl (hno cs)

/-- the path of a text that begins with a slash -/
theorem absolute_parse {text : String} (h : text.toList.head? = some '/') :
    (PosixPath.parse text).root ≠ .relative := root_ofText_ne_relative h

theorem head_append {s t : String} (h : s.toList.head? = some '/') :
    (s ++ t).toList.head? = some '/' := by
  rw [String.toList_append, List.head?_append, h]
  rfl

/-! ## the parts of the script -/

def imageArgument (argument : Option String) : String :=
  match argument with
  | none => "/tmp/rt7-debian-recovery-test.ext4"
  | some image => if image = "" then "/tmp/rt7-debian-recovery-test.ext4" else image

def rootText : String := "/mnt/rt7-debian"

def root : PosixPath := .parse rootText

/-- `[ ! -r /sys/fs/cgroup/cgroup.controllers ] && ! grep -q ' cgroup ' /proc/mounts` -/
def noCgroups (s : State) : Bool :=
  !s.controllersReadable && !s.mounts.any fun m => grep " cgroup " m.line

def cgroupText : String := "/sys/fs/cgroup"

/-- `mount -t tmpfs -o mode=0755 cgroup-root /sys/fs/cgroup` -/
def cgroupRoot : Mount where
  device := "cgroup-root"
  target := .parse cgroupText
  fstype := "tmpfs"
  readOnly := false
  options := ["mode=0755"]
  bound := none
  slave := false
  absolute := absolute_parse rfl
  bare := by decide

def controllerText (controllers : String) : String := cgroupText ++ "/" ++ controllers

/-- `mount -t cgroup -o "$controllers" cgroup "/sys/fs/cgroup/$controllers"` -/
def cgroupOf (controllers : String) : Mount where
  device := "cgroup"
  target := .parse (controllerText controllers)
  fstype := "cgroup"
  readOnly := false
  options := split ',' controllers
  bound := none
  slave := false
  absolute := absolute_parse (head_append rfl)
  bare := by decide

def controllersList : List String :=
  ["blkio", "cpu,cpuacct", "cpuset", "devices", "freezer", "hugetlb", "memory",
    "net_cls,net_prio", "perf_event", "pids"]

def mountController (controllers : String) : Script Unit := do
  act (.mkdirController controllers) some
  act (.mountController controllers) fun s => some (s.mount (cgroupOf controllers))

def setUpCgroups : Script Unit :=
  ifThen noCgroups do
    mkdir cgroupText
    act .mountCgroupRoot fun s => some (s.mount cgroupRoot)
    inSequence (controllersList.map mountController)

/-- `mount -t ext4 -o rw,noatime "$loopdev" "$root"` -/
def ext4Of (n : Nat) : Mount where
  device := loopDevice n
  target := root
  fstype := "ext4"
  readOnly := false
  options := ["noatime"]
  bound := none
  slave := false
  absolute := absolute_parse rfl
  bare := by decide

def mountRoot (image : String) : Script Unit := do
  mkdir rootText
  ifThen (fun s => !mountpoint s.mounts root) do
    let loopdev ← command .losetupFind fun s => (freeLoop s.loops).map fun n => (n, s)
    act .losetupAttach (State.attach loopdev image)
    ifFails (fun s => some (s.mount (ext4Of loopdev))) do
      act .losetupDetach (State.detach loopdev)
      exit .mountImage
    act .recordLoop fun s => some { s with loopState := some (loopDevice loopdev ++ "\n") }

/-- `$root$source` -/
def target (source : String) : PosixPath := .parse (rootText ++ source)

theorem absolute_target (source : String) : (target source).root ≠ .relative :=
  absolute_parse (head_append rfl)

def bindSlave (source : String) : Script Unit := do
  act (.rbind source) fun s =>
    (bindOf s.mounts (.parse source) (target source) (absolute_target source)).map fun m => s.mount m
  act (.rslave source) fun s =>
    (rslave s.mounts (target source)).map fun mounts => { s with mounts := mounts }

/-- the body of the two loops over bind mounts, which differ in their test -/
def bindWhen (test : State → Bool) (source : String) : Script Unit := do
  mkdir (rootText ++ source)
  ifThen test (bindSlave source)

def bindSource (source : String) : Script Unit :=
  bindWhen (fun s => !mountpoint s.mounts (target source)) source

def bindNested (source : String) : Script Unit :=
  bindWhen (fun s => mountpoint s.mounts (.parse source) && !mountpoint s.mounts (target source))
    source

/-- `chroot "$root" /usr/local/sbin/rt7-chroot-start` -/
def enterRoot : Script Unit := act .chroot some

def phases (image : String) : List (Script Unit) :=
  [setUpCgroups, mountRoot image] ++ ["/dev", "/proc", "/sys"].map bindSource ++
    ["/dev/pts", "/sys/fs/cgroup"].map bindNested ++ [enterRoot]

/-- the script up to its final message -/
def prepare (argument : Option String) (uid : Nat) (isFile : String → Bool) : Script Unit := do
  ifThen (fun _ => uid ≠ 0) (exit .notRoot)
  ifThen (fun _ => !isFile (imageArgument argument)) (exit .imageNotFound)
  inSequence (phases (imageArgument argument))

def main (argument : Option String) (uid : Nat) (isFile : String → Bool) : Script Unit := do
  prepare argument uid isFile
  act .message some

end RT7.Recovery
