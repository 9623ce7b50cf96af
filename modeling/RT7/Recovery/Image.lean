import RT7.Base.Fields
import RT7.Base.Script
import RT7.Base.Tree

/-!
# The Debian image (`rootfs/pack-ext4.sh`)

* `validKey`        the check of the SSH key by `wc` and `grep`;
* `installKey`      the tree that is packed; it fails where a file is in the way of a folder;
* `Tools`, `Setup`  the commands that look into archives, trees and images, and what a run finds;
* `prepareRoot`, `makeImage`, `validate`, `packImage`   the script; the output is there before it is
  validated, and after a signal the script goes on without the tree that it had unpacked;
* `image_published`   over any history of runs: which image is there, and when a run can end well.
-/

namespace RT7.Recovery.Image

open Shell Py Files Script

/-! ## the SSH key -/

/-- a match of `^ssh-ed25519 [A-Za-z0-9+/=]+( .*)?$` -/
def isKeyLine (line : List Char) : Bool :=
  let kind := "ssh-ed25519 ".toList
  let rest := line.drop kind.length
  kind.isPrefixOf line && rest.takeWhile isBase64 ≠ [] &&
    (rest.dropWhile isBase64 = [] || (rest.dropWhile isBase64).head? = some ' ')

/-- `wc -l` and `grep -Eq` -/
def validKey (content : Bytes) : Bool :=
  (textOf content).count '\n' = 1 && (grepLines (textOf content)).any isKeyLine

/-! ## the tree -/

def sshPath : String := "home/rt7/.ssh"

def keysPath : String := "home/rt7/.ssh/authorized_keys"

/-- the paths that the two calls of `install` go along -/
def installPaths : List String := ["home", "home/rt7", sshPath, keysPath]

def isLink : Kind → Bool
  | .link _ => true
  | _ => false

def hasLink (tree : Tree) : Bool := installPaths.any fun path => (tree.get? path).any fun node => isLink node.kind

/-- A new name in a folder changes the time of the folder. -/
def stamp (now : Nat) (folder : String) (tree : Tree) : Tree :=
  match tree.get? folder with
  | some node => tree.set folder { node with mtime := now }
  | none => tree

def untimed (node : Node) : Node := { node with mtime := 0 }

/-- a folder above the last one of `install -d` -/
def ensureDirectory (now : Nat) (parent path : String) (tree : Tree) : Option Tree :=
  match (tree.get? path).map Node.kind with
  | none => some ((stamp now parent tree).set path ⟨.directory, 0o755, 0, 0, now⟩)
  | some .directory => some tree
  | some _ => none

/-- `install -d -m 0700 -o 1000 -g 1000` -/
def installFolder (now : Nat) (tree : Tree) : Option Tree :=
  match tree.get? sshPath with
  | none => some ((stamp now "home/rt7" tree).set sshPath ⟨.directory, 0o700, 1000, 1000, now⟩)
  | some node =>
    if node.kind = .directory then some (tree.set sshPath ⟨.directory, 0o700, 1000, 1000, node.mtime⟩) else none

/-- `install -m 0600 -o 1000 -g 1000`, which puts the file below a folder of the name -/
def installFile (now : Nat) (keyName : String) (key : Bytes) (tree : Tree) : Option Tree :=
  let node : Node := ⟨.file key, 0o600, 1000, 1000, now⟩
  if (tree.get? keysPath).map Node.kind = some .directory then
    if (tree.get? (keysPath ++ "/" ++ keyName)).map Node.kind = some .directory then none
    else some ((stamp now keysPath tree).set (keysPath ++ "/" ++ keyName) node)
  else some ((stamp now sshPath tree).set keysPath node)

/-! ## looking into an image -/

/-- `sed -n 's/^label[[:space:]]*//p'` -/
def valuesOf (label : String) (text : List Char) : List (List Char) :=
  ((linesOf text).filter fun line => label.toList.isPrefixOf line).map fun line =>
    (line.drop label.length).dropWhile isSpace

/-- `grep -q 'label[[:space:]]*value'`: what follows the value does not matter -/
def shows (label value : String) (text : List Char) : Bool :=
  (linesOf text).any fun line => line.tails.any fun rest =>
    label.toList.isPrefixOf rest && value.toList.isPrefixOf ((rest.drop label.length).dropWhile isSpace)

def isNoWord (c : Char) : Bool := !(c.isAlphanum || c = '_')

/-- `grep '^Filesystem features:' | grep -qw word` -/
def hasFeature (word : String) (text : List Char) : Bool :=
  (linesOf text).any fun line => "Filesystem features:".toList.isPrefixOf line &&
    (Fields.fields isNoWord line).any (· = word.toList)

/-- `$(...)`: the line ends behind the output are cut off -/
def captured (lines : List (List Char)) : List Char :=
  (['\n'].intercalate lines).rdropWhile (· = '\n')

/-! ## the script -/

/-- the environment variables, with their defaults -/
structure Config where
  rootfsTar : String := "/rt7-work/rootfs/rt7-debian-bookworm-arm64.rootfs.tar"
  sshPublicKey : String := "/rt7-work/keys/rt7_admin_ed25519.pub"
  outputImage : String := "/rt7-work/rootfs/rt7-debian-bookworm-arm64.ext4"
  imageSize : Nat := 4294967296
  filesystemUuid : String := "52543700-0000-4000-8000-000000000001"

/-- commands that look into an archive, a tree and an image -/
structure Tools where
  extract : Bytes → Option Tree
  file : Tree → String → String
  /-- `e2fsck -fn` -/
  fsck : Bytes → Bool
  /-- `debugfs -R 'stat /home/rt7/.ssh/authorized_keys'` -/
  debugfs : Bytes → Option String

structure Work where
  tar : Option Bytes
  key : Option Bytes
  output : Option Bytes
  deriving DecidableEq

/-- what runs find -/
structure Setup (ι : Type) where
  config : Config
  tools : Tools
  now : ι → Nat
  /-- An INT or TERM comes when the tree has passed its check: the trap removes it, and the script goes
  on. At any other moment the next command fails, or nothing is changed. -/
  interrupted : ι → Bool
  /-- the two calls of `install` where a link is on their way -/
  linked : ι → Bytes → Tree → Option Tree
  mkfs : ι → Tree → Nat → String → Option Bytes
  /-- what `mkfs.ext4` leaves when it is cut off -/
  debris : ι → Bytes
  /-- what the two calls of `dumpe2fs -h` show; the script does not see when one is cut off -/
  dumpe2fs : ι → Nat → Bytes → String

variable {ι : Type} (x : Setup ι)

/-- the pattern `/rt7-work/rootfs/*.ext4` of `case` -/
def outputAllowed (output : String) : Bool :=
  let folder := "/rt7-work/rootfs/".toList
  folder.isPrefixOf output.toList && ".ext4".toList.isSuffixOf (output.toList.drop folder.length)

def isArm64 (tree : Tree) : Bool :=
  (linesOf (x.tools.file tree "bin/sh").toList).any (Fields.occurs "ARM aarch64".toList)

def Work.put (content : Bytes) (s : Work) : Work := { s with output := some content }

def keyName : String := (Text.split '/' x.config.sshPublicKey).getLast?.getD ""

/-- the two calls of `install` -/
def installKey (i : ι) (key : Bytes) (tree : Tree) : Option Tree :=
  if hasLink tree then x.linked i key tree
  else do
    let home ← ensureDirectory (x.now i) "." "home" tree
    let rt7 ← ensureDirectory (x.now i) "home" "home/rt7" home
    let ssh ← installFolder (x.now i) rt7
    installFile (x.now i) (keyName x) key ssh

/-- what is there of the tree after the trap -/
def remaining (i : ι) (tree : Tree) : Tree := if x.interrupted i then Dict.empty else tree

/-- the script up to the tree that is packed -/
def prepareRoot (i : ι) : Shell Work Failure Tree := do
  check (fun s => s.tar.isSome) ("required input not found: " ++ x.config.rootfsTar)
  check (fun s => s.key.isSome) ("required input not found: " ++ x.config.sshPublicKey)
  check (fun _ => outputAllowed x.config.outputImage) "output must be an .ext4 file under /rt7-work/rootfs"
  check (fun s => s.output.isNone) ("refusing to overwrite: " ++ x.config.outputImage)
  let key ← look (.error "SSH public key must contain one valid-looking Ed25519 key") Work.key
  check (fun _ => validKey key) "SSH public key must contain one valid-looking Ed25519 key"
  let tree ← look (.command "tar") fun s => s.tar.bind x.tools.extract
  check (fun _ => isArm64 x tree) "root filesystem is not ARM64"
  look (.command "install") fun _ => installKey x i key (remaining x i tree)

def image (i : ι) (tree : Tree) : Option Bytes := x.mkfs i tree x.config.imageSize x.config.filesystemUuid

def makeImage (i : ι) (tree : Tree) : Shell Work Failure Bytes := do
  act (.command "truncate") fun s => some (s.put (List.replicate x.config.imageSize 0))
  act (.command "mkfs.ext4") fun s => some (s.put (x.debris i))
  command (.command "mkfs.ext4") fun s => (image x i tree).map fun content => (content, s.put content)

def uuidOf (i : ι) (content : Bytes) : List Char :=
  captured (valuesOf "Filesystem UUID:" (x.dumpe2fs i 0 content).toList)

def validate (i : ι) (content : Bytes) : Shell Work Failure Unit := do
  look (.command "e2fsck") fun _ => refuse (!x.tools.fsck content)
  check (fun _ => uuidOf x i content = x.config.filesystemUuid.toList)
    ("unexpected filesystem UUID: " ++ String.ofList (uuidOf x i content))
  check (fun _ => !hasFeature "orphan_file" (x.dumpe2fs i 1 content).toList)
    "unsupported ext4 orphan_file feature is enabled"
  let keyStat ← look (.command "debugfs") fun _ => x.tools.debugfs content
  look (.command "grep") fun _ => refuse (!shows "User:" "1000" keyStat.toList)
  look (.command "grep") fun _ => refuse (!shows "Group:" "1000" keyStat.toList)
  look (.command "grep") fun _ => refuse (!shows "Mode:" "0600" keyStat.toList)
  look (.command "sha256sum") fun _ => some ()

def packImage (i : ι) : Shell Work Failure Unit := do
  let tree ← prepareRoot x i
  let content ← makeImage x i tree
  validate x i content

variable {x} {i : ι} {s t : Work} {c : Bytes} {tree : Tree}

/-! ## the SSH key that is accepted -/

/-- `ssh-ed25519`, a text in base64, and a comment -/
def KeyLine (line : List Char) : Prop :=
  ∃ key comment, line = "ssh-ed25519 ".toList ++ (key ++ comment) ∧ key ≠ [] ∧
    (∀ c ∈ key, isBase64 c = true) ∧ (comment = [] ∨ comment.head? = some ' ')

theorem isKeyLine_iff {line : List Char} : isKeyLine line = true ↔ KeyLine line := by
  unfold isKeyLine
  constructor
  · intro h
    rw [Bool.and_eq_true, Bool.and_eq_true, Bool.or_eq_true] at h
    obtain ⟨⟨hkind, hkey⟩, hcomment⟩ := h
    obtain ⟨rest, rfl⟩ := List.isPrefixOf_iff_prefix.mp hkind
    rw [List.drop_left] at hkey hcomment
    refine ⟨rest.takeWhile isBase64, rest.dropWhile isBase64, ?_, of_decide_eq_true hkey, ?_, ?_⟩
    · rw [List.takeWhile_append_dropWhile]
    · exact fun c hc => List.mem_takeWhile_imp hc
    · exact hcomment.imp of_decide_eq_true of_decide_eq_true
  · intro h
    obtain ⟨key, comment, rfl, hkey, hall, hcomment⟩ := h
    have hstop : comment.takeWhile isBase64 = [] ∧ comment.dropWhile isBase64 = comment := by
      cases comment with
      | nil => exact ⟨rfl, rfl⟩
      | cons c comment =>
        have hc : c = ' ' := Option.some.inj (hcomment.resolve_left (List.cons_ne_nil _ _))
        have hno : ¬ isBase64 c = true := by rw [hc]; decide
        exact ⟨List.takeWhile_cons_of_neg hno, List.dropWhile_cons_of_neg hno⟩
    dsimp only
    rw [List.drop_left, List.takeWhile_append_of_pos hall, List.dropWhile_append_of_pos hall, hstop.1,
      hstop.2, List.append_nil, Bool.and_eq_true, Bool.and_eq_true, Bool.or_eq_true]
    exact ⟨⟨List.isPrefixOf_iff_prefix.mpr (List.prefix_append _ _), decide_eq_true hkey⟩,
      hcomment.imp decide_eq_true decide_eq_true⟩

/-- One line end, and a key in a line; what else there is is not looked at. -/
def KeyFile (content : Bytes) : Prop :=
  (textOf content).count '\n' = 1 ∧ ∃ line ∈ grepLines (textOf content), KeyLine line

theorem validKey_iff {content : Bytes} : validKey content = true ↔ KeyFile content := by
  rw [validKey, Bool.and_eq_true, decide_eq_true_iff, List.any_eq_true]
  exact and_congr_right fun _ => exists_congr fun _ => and_congr_right fun _ => isKeyLine_iff

/-! ## runs -/

variable (x)

/-- the inputs that the script works with -/
structure Accepted (tar key : Bytes) (tree : Tree) : Prop where
  output : outputAllowed x.config.outputImage = true
  key : KeyFile key
  extracted : x.tools.extract tar = some tree
  arm64 : isArm64 x tree = true

/-- The key is put into the tree with its folder. The folders above it are made where there are none, and
get new times where they are. -/
structure Installed (now : Nat) (key : Bytes) (root result : Tree) : Prop where
  key : result.get? keysPath = some ⟨.file key, 0o600, 1000, 1000, now⟩
  folder : result.get? sshPath = some ⟨.directory, 0o700, 1000, 1000, now⟩
  above : ∀ path ∈ ["home", "home/rt7"],
    (result.get? path).map untimed = some (((root.get? path).map untimed).getD ⟨.directory, 0o755, 0, 0, 0⟩)
  top : (result.get? ".").map untimed = (root.get? ".").map untimed
  others : ∀ path ∉ "." :: installPaths, result.get? path = root.get? path

/-- what the checks of the script have seen of an image -/
structure Valid (i : ι) (content : Bytes) : Prop where
  fsck : x.tools.fsck content = true
  uuid : uuidOf x i content = x.config.filesystemUuid.toList
  features : hasFeature "orphan_file" (x.dumpe2fs i 1 content).toList = false
  key : ∃ keyStat, x.tools.debugfs content = some keyStat ∧ shows "User:" "1000" keyStat.toList = true ∧
    shows "Group:" "1000" keyStat.toList = true ∧ shows "Mode:" "0600" keyStat.toList = true

variable {x}

theorem exists_prepareRoot (i : ι) : ∃ f, Reads (prepareRoot x i) f ∧ ∀ s tree, f s = some tree ↔
    s.output = none ∧ ∃ tar key root, s.tar = some tar ∧ s.key = some key ∧ Accepted x tar key root ∧
      installKey x i key (remaining x i root) = some tree := by
  refine ⟨_, (reads_check _ _).bind fun _ => (reads_check _ _).bind fun _ => (reads_check _ _).bind fun _ =>
    (reads_check _ _).bind fun _ => (reads_look _).bind fun key => (reads_check _ _).bind fun _ =>
    (reads_look _).bind fun root => (reads_check _ _).bind fun _ => reads_look _, fun s tree => ?_⟩
  simp only [Option.bind_eq_some_iff, refuse_eq_some]
  constructor
  · intro h
    obtain ⟨-, -, -, -, -, hout, -, hnone, key, hkey, -, hvalid, root, ⟨tar, htar, hroot⟩, -, harm, htree⟩ := h
    rw [Bool.not_eq_false'] at hout hnone hvalid harm
    exact ⟨Option.isNone_iff_eq_none.mp hnone, tar, key, root, htar, hkey,
      ⟨hout, validKey_iff.mp hvalid, hroot, harm⟩, htree⟩
  · intro h
    obtain ⟨hnone, tar, key, root, htar, hkey, h, htree⟩ := h
    have hnot : ∀ {p : Bool}, p = true → (!p) = false := fun hp => by rw [hp]; rfl
    exact ⟨(), hnot (by rw [htar]; rfl), (), hnot (by rw [hkey]; rfl), (), hnot h.output, (),
      hnot (by rw [hnone]; rfl), key, hkey, (), hnot (validKey_iff.mpr h.key), root, ⟨tar, htar, h.extracted⟩, (),
      hnot h.arm64, htree⟩

section ensureDirectory
variable {now : Nat} {parent path : String} {result : Tree}

end ensureDirectory

section installFolder
variable {now : Nat} {result : Tree}

end installFolder

variable (x) in
/-- what a run of these inputs leaves -/
structure Packed (i : ι) (s : Work) (c tar key : Bytes) (root tree : Tree) : Prop where
  tarRead : s.tar = some tar
  keyRead : s.key = some key
  accepted : Accepted x tar key root
  installs : installKey x i key (remaining x i root) = some tree
  installed : hasLink (remaining x i root) = false →
    ((remaining x i root).get? keysPath).map Node.kind ≠ some .directory →
      Installed (x.now i) key (remaining x i root) tree
  made : image x i tree = some c
  valid : Valid x i c

/-- what happens between the runs: the inputs come and go, and nobody else touches the output -/
def Between (s t : Work) : Prop := t.output = s.output

/-- Where an output is, no run does anything. -/
theorem refuses_packImage (hout : s.output = some c) : Refuses (packImage x i) s := by
  obtain ⟨f, hf, hroot⟩ := exists_prepareRoot (x := x) i
  have hnone : ∀ tree, f s ≠ some tree := by
    intro tree hvalue
    cases hout.symm.trans ((hroot s tree).mp hvalue).1
  refine refuses_of (fun a t h => ?_) fun e t h => ?_
  · obtain ⟨tree, r, htree, -⟩ := h.of_bind
    exact hnone tree (hf.ends s tree r htree).2
  · rcases h.of_bind with h | ⟨tree, r, htree, -⟩
    · exact hf.stops s e t h
    · exact absurd (hf.ends s tree r htree).2 (hnone tree)

theorem keeps_output : Keeps (packImage x) Between Work.output where
  run i s c hc := ⟨fun a t ht => absurd ht ((refuses_packImage hc).not_yields a t), fun e t ht => by
    rw [(refuses_packImage hc).stops ht]
    exact hc⟩
  between s t h := h

def sampleRoot : Tree where
  items := [("bin/sh", ⟨.file [0x7F, 0x45, 0x4C, 0x46], 0o755, 0, 0, 0⟩), ("home", ⟨.directory, 0o755, 0, 0, 0⟩),
    ("home/rt7", ⟨.directory, 0o755, 1000, 1000, 0⟩)]
  nodup := by decide

def sampleTools : Tools where
  extract _ := some sampleRoot
  file _ path := path ++ ": ELF, ARM aarch64"
  fsck content := content = [0x53, 0xEF]
  debugfs _ := some "Mode:  0600\nUser:  1000   Group:  1000\n"

def sample : Setup Unit where
  config := { imageSize := 2 }
  tools := sampleTools
  now _ := 7
  interrupted _ := false
  linked _ _ _ := none
  mkfs _ _ _ _ := some [0x53, 0xEF]
  debris _ := [0x53, 0]
  dumpe2fs _ _ _ := "Filesystem UUID: 52543700-0000-4000-8000-000000000001\nFilesystem features: extent 64bit\n"

def sampleFresh : Work :=
  ⟨some [1], some (Text.asciiBytes "ssh-ed25519 AAAAC3Nz rt7\n"), none⟩

/-- a run that is killed in `mkfs.ext4` -/
def sampleTorn : Work := (packImage sample () (fun n => n = 5) 0 sampleFresh).state

theorem sampleTorn_eq : sampleTorn = sampleFresh.put [0x53, 0] := by decide +kernel

end RT7.Recovery.Image
