import Mathlib.Data.List.Sort
import RT7.Base.Fields
import RT7.Base.Script
import RT7.Base.Sha256
import RT7.Base.Tree

/-!
# The personal recovery ramdisk (`scripts/prepare-recovery-ramdisk.sh`)

* `install`, `touch`   what the script does to the tree; a link is followed, in the tree or out of it;
* `standardKey`     the check of `adbkey.pub` by `awk`;
* `Pipeline`        `find | sort | cpio | gzip`, of which the script sees the status of `gzip` only;
* `prepareCandidate`, `publish`, `prepareRamdisk`   the script; `mv` writes the output piece by piece;
* `candidate`       what a run publishes, when all of its checks pass.
-/

namespace RT7.Recovery.Ramdisk

open Shell Py Files Script

/-! ## ramdisks -/

def keyPath : String := "adb_keys"

/-- `find -exec touch -h -d '@0' {} +` -/
def touch (tree : Tree) : Tree where
  items := tree.items.map fun e => (e.1, { e.2 with mtime := 0 })
  nodup := by
    rw [List.map_map]
    exact tree.nodup

/-- what stands out of the tree, where its links lead -/
structure Elsewhere where
  stat : Tree → List String → Option Kind
  /-- the tree after the key was installed into a folder out of it, unless that fails -/
  install : Bytes → Tree → List String → Option Tree

def Elsewhere.find (e : Elsewhere) (tree : Tree) (path : String) : Option Kind := tree.stat (e.stat tree) path

/-- `install -m 0640 -o 0 -g 2000`: a file goes into a folder that its name leads to, and any other
name is replaced -/
def install (e : Elsewhere) (keyName : String) (key : Bytes) (tree : Tree) : Option Tree :=
  let node : Node := ⟨.file key, 0o640, 0, 2000, 0⟩
  if e.find tree keyPath = some .directory then
    match tree.lead 40 [] [keyPath] with
    | .inside names =>
      if tree.kindAt (names ++ [keyName]) = some .directory then none
      else some (tree.set (nameOf (names ++ [keyName])) node)
    | .outside names => e.install key tree names
    | .nowhere => none
  else some (tree.set keyPath node)

/-! ## the checks of the script -/

/-- a match of `^/adb_keys[[:space:]]` -/
def isKeyRule (line : List Char) : Bool :=
  "/adb_keys".toList.isPrefixOf line && (line.drop 9).head?.any isSpace

/-- `grep -q '^/adb_keys[[:space:]]' "$tree/plat_file_contexts"` -/
def hasKeyRule (e : Elsewhere) (tree : Tree) : Bool :=
  match e.find tree "plat_file_contexts" with
  | some (.file content) => (grepLines (textOf content)).any isKeyRule
  | _ => false

def isBlank (c : Char) : Bool := c = ' ' || c = '\t'

/-- what `awk` reads: no record follows the last line end -/
def records (content : Bytes) : List (List Char) :=
  let lines := linesOf (textOf content)
  if lines.getLast? = some [] then lines.dropLast else lines

def standardKey (content : Bytes) : Bool :=
  match records content with
  | [line] =>
    match Fields.fields isBlank line with
    | [key, _] => key.all isBase64
    | _ => false
  | _ => false

/-- the pattern `/rt7-work/build/boot/*.ramdisk.gz` of `case` -/
def outputAllowed (output : String) : Bool :=
  let folder := "/rt7-work/build/boot/".toList
  let suffix := ".ramdisk.gz".toList
  folder.isPrefixOf output.toList && suffix.isSuffixOf (output.toList.drop folder.length)

def required : List String :=
  ["system/bin/init", "system/bin/adbd", "system/bin/sh", "plat_file_contexts", "sepolicy"]

/-! ## packing -/

/-- the pipeline that packs a tree -/
structure Pipeline where
  /-- the names in the order of the file system -/
  find : Tree → List String
  /-- what `gzip` has got to write when a command before it failed -/
  broken : Tree → Option Bytes

/-- the commands `cpio` and `gzip` -/
structure Tools where
  /-- `gzip -dc | cpio -idmu`, when `cpio` is content -/
  extract : Bytes → Option Tree
  /-- `cpio --create | gzip -9 -n` -/
  archive : List (String × Option Node) → Bytes

/-- `LC_ALL=C sort -z` -/
def sort (names : List String) : List String := names.insertionSort (· ≤ ·)

def Pipeline.write (tools : Tools) (pipeline : Pipeline) (tree : Tree) : Bytes :=
  match pipeline.broken tree with
  | some content => content
  | none => tools.archive ((sort (pipeline.find tree)).map fun name => (name, tree.get? name))

/-! ## the script -/

/-- the environment variables, with their defaults -/
structure Config where
  stockRamdisk : String := "/rt7-work/firmware/unpacked/V1.4.8/boot/ramdisk"
  expectedStockSha256 : String := "2ccef512b82aa029939334cae4745e23ec0923e9c2b096e3d0258ef26f7d0028"
  adbPublicKey : String := "/rt7-work/keys/adbkey.pub"
  outputRamdisk : String := "/rt7-work/build/boot/rt7-v148-recovery-adb-personalized.ramdisk.gz"

structure Work where
  stock : Option Bytes
  key : Option Bytes
  output : Option Bytes
  deriving DecidableEq

/-- what runs find: the commands, and for each how its pipeline goes and what the host has -/
structure Setup (ι : Type) where
  config : Config
  hash : Bytes → Digest
  tools : Tools
  pipeline : ι → Pipeline
  elsewhere : ι → Elsewhere

variable {ι : Type} (x : Setup ι)

def personalize (i : ι) (key : Bytes) (tree : Tree) : Option Tree :=
  (install (x.elsewhere i) ((Text.split '/' x.config.adbPublicKey).getLast?.getD "") key tree).map touch

/-- the four checks of `adb_keys` in the archive that was unpacked again; `stat` takes a link as it is -/
def verified (key : Bytes) (tree : Tree) : Bool :=
  match tree.get? keyPath with
  | some node => node.kind = .file key ∧ node.mode = 0o640 ∧ node.uid = 0 ∧ node.gid = 2000
  | none => false

def checkRequired (e : Elsewhere) (tree : Tree) : List String → Shell Work Failure Unit
  | [] => pure ()
  | path :: paths => do
    check (fun _ => (e.find tree path).isSome) ("error: stock recovery ramdisk is missing " ++ path)
    checkRequired e tree paths

/-- the script up to the verified candidate -/
def prepareCandidate (i : ι) : Shell Work Failure Bytes := do
  check (fun s => s.stock.isSome) ("error: required input is not a file: " ++ x.config.stockRamdisk)
  check (fun s => s.key.isSome) ("error: required input is not a file: " ++ x.config.adbPublicKey)
  check (fun _ => outputAllowed x.config.outputRamdisk)
    "error: output must be a .ramdisk.gz under /rt7-work/build/boot"
  let stock ← look (.error "error: stock ramdisk hash mismatch: ") Work.stock
  let actual := (x.hash stock).hexdigest
  check (fun _ => actual = x.config.expectedStockSha256) ("error: stock ramdisk hash mismatch: " ++ actual)
  let key ← look (.error "error: ADB public key must be one standard adbkey.pub line") Work.key
  check (fun _ => standardKey key) "error: ADB public key must be one standard adbkey.pub line"
  let tree ← look (.command "cpio") fun _ => x.tools.extract stock
  checkRequired (x.elsewhere i) tree required
  check (fun _ => hasKeyRule (x.elsewhere i) tree) "error: stock policy has no /adb_keys file-context rule"
  let personal ← look (.command "install") fun _ => personalize x i key tree
  let candidate := (x.pipeline i).write x.tools personal
  let verify ← look (.command "cpio") fun _ => x.tools.extract candidate
  look (.command "test") fun _ => refuse (!verified key verify)
  return candidate

def Work.put (content : Bytes) (s : Work) : Work := { s with output := some content }

def publish (candidate : Bytes) : Shell Work Failure Unit := do
  act (.command "mkdir") some
  ifElse (fun s => s.output.isSome)
    (check (fun s => s.output = some candidate)
      ("error: refusing to overwrite different output: " ++ x.config.outputRamdisk))
    (writeOut (.command "mv") Work.put candidate)
  act (.command "sha256sum") some

def prepareRamdisk (i : ι) : Shell Work Failure Unit := do
  let candidate ← prepareCandidate x i
  publish x candidate

/-- the inputs that the script works with -/
structure Accepted (i : ι) (stock key : Bytes) (tree : Tree) : Prop where
  output : outputAllowed x.config.outputRamdisk = true
  pinned : (x.hash stock).hexdigest = x.config.expectedStockSha256
  key : standardKey key = true
  extracted : x.tools.extract stock = some tree
  required : ∀ path ∈ required, ((x.elsewhere i).find tree path).isSome = true
  rule : hasKeyRule (x.elsewhere i) tree = true

instance (i : ι) (stock key : Bytes) (tree : Tree) : Decidable (Accepted x i stock key tree) :=
  decidable_of_iff (outputAllowed x.config.outputRamdisk = true ∧
      (x.hash stock).hexdigest = x.config.expectedStockSha256 ∧ standardKey key = true ∧
      x.tools.extract stock = some tree ∧
      (∀ path ∈ required, ((x.elsewhere i).find tree path).isSome = true) ∧
      hasKeyRule (x.elsewhere i) tree = true)
    ⟨fun ⟨h1, h2, h3, h4, h5, h6⟩ => ⟨h1, h2, h3, h4, h5, h6⟩,
      fun h => ⟨h.output, h.pinned, h.key, h.extracted, h.required, h.rule⟩⟩

/-- what a run publishes, when all of its checks pass -/
def candidate (i : ι) (s : Work) : Option Bytes := do
  let stock ← s.stock
  let key ← s.key
  let tree ← x.tools.extract stock
  let personal ← personalize x i key tree
  let packed := (x.pipeline i).write x.tools personal
  let verify ← x.tools.extract packed
  if Accepted x i stock key tree ∧ verified key verify = true then some packed else none

variable {x} {i : ι} {s t : Work} {c : Bytes}

theorem reads_checkRequired (e : Elsewhere) (tree : Tree) (paths : List String) :
    Reads (checkRequired e tree paths) fun _ => refuse (!paths.all fun path => (e.find tree path).isSome) := by
  induction paths with
  | nil => exact reads_pure ()
  | cons path paths ih =>
    have hboth := (reads_check (fun _ => (e.find tree path).isSome)
      ("error: stock recovery ramdisk is missing " ++ path)).bind fun _ => ih
    refine hboth.congr fun s => ?_
    rw [List.all_cons]
    cases (e.find tree path).isSome with
    | true => rfl
    | false => rfl

theorem candidate_eq_some : candidate x i s = some c ↔ ∃ stock key tree personal verify,
    s.stock = some stock ∧ s.key = some key ∧ Accepted x i stock key tree ∧
      personalize x i key tree = some personal ∧ c = (x.pipeline i).write x.tools personal ∧
      x.tools.extract c = some verify ∧ verified key verify = true := by
  constructor
  · intro h
    obtain ⟨stock, hstock, h⟩ := Option.bind_eq_some_iff.mp h
    obtain ⟨key, hkey, h⟩ := Option.bind_eq_some_iff.mp h
    obtain ⟨tree, htree, h⟩ := Option.bind_eq_some_iff.mp h
    obtain ⟨personal, hpersonal, h⟩ := Option.bind_eq_some_iff.mp h
    obtain ⟨verify, hverify, h⟩ := Option.bind_eq_some_iff.mp h
    obtain ⟨⟨haccepted, hverified⟩, hpacked⟩ := Option.ite_none_right_eq_some.mp h
    cases hpacked
    exact ⟨stock, key, tree, personal, verify, hstock, hkey, haccepted, hpersonal, rfl, hverify, hverified⟩
  · intro h
    obtain ⟨stock, key, tree, personal, verify, hstock, hkey, haccepted, hpersonal, rfl, hverify,
      hverified⟩ := h
    refine Option.bind_eq_some_iff.mpr ⟨stock, hstock, ?_⟩
    refine Option.bind_eq_some_iff.mpr ⟨key, hkey, ?_⟩
    refine Option.bind_eq_some_iff.mpr ⟨tree, haccepted.extracted, ?_⟩
    refine Option.bind_eq_some_iff.mpr ⟨personal, hpersonal, ?_⟩
    exact Option.bind_eq_some_iff.mpr ⟨verify, hverify, if_pos ⟨haccepted, hverified⟩⟩

theorem reads_prepareCandidate (i : ι) : Reads (prepareCandidate x i) (candidate x i) := by
  refine Reads.congr ((reads_check _ _).bind fun _ => (reads_check _ _).bind fun _ =>
    (reads_check _ _).bind fun _ => (reads_look _).bind fun stock => (reads_check _ _).bind fun _ =>
    (reads_look _).bind fun key => (reads_check _ _).bind fun _ => (reads_look _).bind fun tree =>
    (reads_checkRequired _ _ _).bind fun _ => (reads_check _ _).bind fun _ =>
    (reads_look _).bind fun personal => (reads_look _).bind fun verify => (reads_look _).bind fun _ =>
    reads_pure _) fun s => ?_
  ext c
  rw [candidate_eq_some]
  simp only [Option.bind_eq_some_iff, refuse_eq_some]
  constructor
  · intro h
    obtain ⟨-, -, -, -, -, houtput, stock, hstock, -, hpinned, key, hkey, -, hstandard, tree, htree, -,
      hrequired, -, hrule, personal, hpersonal, verify, hverify, -, hverified, hc⟩ := h
    have hc' : (x.pipeline i).write x.tools personal = c := Option.some.inj hc
    rw [Bool.not_eq_false'] at houtput hpinned hstandard hrequired hrule hverified
    refine ⟨stock, key, tree, personal, verify, hstock, hkey, ?_, hpersonal, hc'.symm, hc' ▸ hverify,
      hverified⟩
    exact ⟨houtput, of_decide_eq_true hpinned, hstandard, htree, List.all_eq_true.mp hrequired, hrule⟩
  · intro h
    obtain ⟨stock, key, tree, personal, verify, hstock, hkey, h, hpersonal, rfl, hverify, hverified⟩ := h
    have hnot : ∀ {p : Bool}, p = true → (!p) = false := fun hp => by rw [hp]; rfl
    refine ⟨(), hnot (by rw [hstock]; rfl), (), hnot (by rw [hkey]; rfl), (), hnot h.output,
      stock, hstock, (), hnot (decide_eq_true h.pinned), key, hkey, (), hnot h.key,
      tree, h.extracted, (), hnot (List.all_eq_true.mpr h.required), (), hnot h.rule,
      personal, hpersonal, verify, hverify, (), hnot hverified, rfl⟩

/-! ## whole runs -/

theorem put_put (c c' : Bytes) (s : Work) : (s.put c').put c = s.put c := rfl

/-- The output is written only where there was none. -/
theorem ensures_publish {R : Work → Prop} {Q : Unit → Work → Prop} (hstart : R s)
    (hsame : s.output = some c → Q () s)
    (hwrite : s.output = none → (∀ k, R (s.put (c.take k))) ∧ Q () (s.put c)) :
    Ensures (publish x c) s Q R := by
  refine Ensures.bind (ensures_act hstart fun r hr => ?_)
  cases hr
  refine Ensures.bind (ensures_ifElse (fun _ => ensures_guard hstart fun htest => ?_) fun hnone => ?_)
  · have hc : s.output = some c := by
      rw [Bool.not_eq_false'] at htest
      exact of_decide_eq_true htest
    refine ensures_act hstart fun t ht => ?_
    cases ht
    exact hsame hc
  · obtain ⟨htorn, hdone⟩ := hwrite (Option.not_isSome_iff_eq_none.mp ((Bool.not_eq_true _).mpr hnone))
    have hwhole := htorn c.length
    rw [List.take_length] at hwhole
    refine ensures_writeOut put_put hstart htorn (ensures_act hwhole fun t ht => ?_)
    cases ht
    exact hdone

theorem put_of_output (h : s.output = some c) : s.put c = s := by
  rw [Work.put, ← h]

/-- **When a run ends well, and what it leaves.** -/
theorem yields_prepareRamdisk : Yields (prepareRamdisk x i) s () t ↔
    ∃ c, candidate x i s = some c ∧ (s.output = none ∨ s.output = some c) ∧ t = s.put c := by
  constructor
  · intro h
    obtain ⟨c, r, hc, hpublish⟩ := h.of_bind
    obtain ⟨rfl, hcandidate⟩ := (reads_prepareCandidate i).ends s c r hc
    have hends : Ensures (publish x c) r
        (fun _ t => (r.output = none ∨ r.output = some c) ∧ t = r.put c) fun _ => True := by
      refine ensures_publish trivial (fun hsame => ⟨Or.inr hsame, (put_of_output hsame).symm⟩) fun hnone => ?_
      exact ⟨fun _ => trivial, Or.inl hnone, rfl⟩
    obtain ⟨hout, ht⟩ := hends.ends () t hpublish
    exact ⟨c, hcandidate, hout, ht⟩
  · intro h
    obtain ⟨c, hcandidate, hout, rfl⟩ := h
    refine Goes.yields (((reads_prepareCandidate i).goes s c hcandidate).bind ?_)
    refine Goes.bind (goes_act rfl) ?_
    rcases hout with hnone | hsame
    · refine Goes.bind (goes_else (by rw [hnone]; rfl) (goes_forEach _ _ _)) ?_
      rw [foldl_put put_put, List.take_length]
      exact goes_act rfl
    · rw [put_of_output hsame]
      refine Goes.bind (goes_then (by rw [hsame]; rfl) (goes_skip ?_)) (goes_act rfl)
      show (!decide (s.output = some c)) = false
      rw [decide_eq_true hsame]
      rfl

/-- what happens between the runs: the inputs come and go, and nobody else touches the output -/
def Between (s t : Work) : Prop := t.output = s.output

theorem keeps_output : Keeps (prepareRamdisk x) Between Work.output where
  run i s c hc := by
    refine Ensures.bind ((reads_prepareCandidate i).ensures hc fun c' _ => ?_)
    exact ensures_publish hc (fun _ => hc) fun hnone => absurd (hc.symm.trans hnone) (Option.some_ne_none c)
  between s t h := h

theorem torn_of_run (hnone : s.output = none) {fails : Nat → Bool}
    (hc : (prepareRamdisk x i fails 0 s).state.output = some c) :
    ∃ whole, candidate x i s = some whole ∧ c <+: whole := by
  have hrun : Ensures (prepareRamdisk x i) s
      (fun _ t => ∀ c, t.output = some c → ∃ whole, candidate x i s = some whole ∧ c <+: whole)
      fun t => ∀ c, t.output = some c → ∃ whole, candidate x i s = some whole ∧ c <+: whole := by
    have hstart : ∀ c, s.output = some c → ∃ whole, candidate x i s = some whole ∧ c <+: whole :=
      fun c hc => absurd (hc.symm.trans hnone) (Option.some_ne_none c)
    refine Ensures.bind ((reads_prepareCandidate i).ensures hstart fun whole hwhole => ?_)
    refine ensures_publish hstart (fun hsame => absurd (hsame.symm.trans hnone) (Option.some_ne_none _))
      fun _ => ⟨fun k c hc => ?_, fun c hc => ?_⟩
    · cases hc
      exact ⟨whole, hwhole, List.take_prefix k whole⟩
    · cases hc
      exact ⟨whole, hwhole, List.prefix_refl _⟩
  exact hrun.state fails 0 c hc

/-! ## what is published -/

/-- a file of one line with two fields, the first of them in base64 -/
def OneKey (content : Bytes) : Prop :=
  ∃ line rest before key between user after,
    textOf content = line ++ rest ∧ (rest = [] ∨ rest = ['\n']) ∧ '\n' ∉ line ∧
      line = before ++ (key ++ (between ++ (user ++ after))) ∧ (∀ c ∈ key, isBase64 c = true) ∧
      Fields.Field isBlank key ∧ Fields.Field isBlank user ∧ Fields.Blank isBlank before ∧
      Fields.Blank isBlank between ∧ between ≠ [] ∧ Fields.Blank isBlank after

theorem records_eq_singleton {content : Bytes} {line : List Char} (h : records content = [line]) :
    ∃ rest, textOf content = line ++ rest ∧ (rest = [] ∨ rest = ['\n']) ∧ '\n' ∉ line := by
  have htext := intercalate_linesOf (textOf content)
  have hline : ∀ l ∈ linesOf (textOf content), '\n' ∉ l := fun l hl => not_mem_of_mem_linesOf hl
  unfold records at h
  by_cases hlast : (linesOf (textOf content)).getLast? = some []
  · rw [if_pos hlast] at h
    have hlines : linesOf (textOf content) = [line, []] := by
      rw [← List.dropLast_append_getLast? [] hlast, h]
      rfl
    rw [hlines] at htext hline
    refine ⟨['\n'], ?_, Or.inr rfl, hline line List.mem_cons_self⟩
    rw [← htext]
    rfl
  · rw [if_neg hlast] at h
    rw [h] at htext hline
    refine ⟨[], ?_, Or.inl rfl, hline line List.mem_cons_self⟩
    rw [← htext]
    rfl

theorem oneKey_of_standardKey {content : Bytes} (h : standardKey content = true) : OneKey content := by
  unfold standardKey at h
  split at h
  · next line hrecords =>
    split at h
    · next key user hfields =>
      obtain ⟨rest, htext, hrest, hline⟩ := records_eq_singleton hrecords
      obtain ⟨before, between, after, heq, hkey, huser, hblanks⟩ := Fields.fields_eq_pair.mp hfields
      exact ⟨line, rest, before, key, between, user, after, htext, hrest, hline, heq,
        List.all_eq_true.mp h, hkey, huser, hblanks⟩
    · cases h
  · cases h

variable (x)

/-- Nothing but the key is put into the tree; the times of all files are set to 0. -/
structure Injected (key : Bytes) (tree result : Tree) : Prop where
  key : result.get? keyPath = some ⟨.file key, 0o640, 0, 2000, 0⟩
  others : ∀ path, path ≠ keyPath → result.get? path = (tree.get? path).map fun node => { node with mtime := 0 }

/-- what a run of these inputs publishes -/
structure Personal (i : ι) (s : Work) (c stock key : Bytes) (tree personal verify : Tree) : Prop where
  stockRead : s.stock = some stock
  keyRead : s.key = some key
  accepted : Accepted x i stock key tree
  oneKey : OneKey key
  personalized : personalize x i key tree = some personal
  injected : (x.elsewhere i).find tree keyPath ≠ some .directory → Injected key tree personal
  packed : c = (x.pipeline i).write x.tools personal
  extracted : x.tools.extract c = some verify
  installed : ∃ mtime, verify.get? keyPath = some ⟨.file key, 0o640, 0, 2000, mtime⟩

def Publishes (i : ι) (s : Work) (c : Bytes) : Prop :=
  ∃ stock key tree personal verify, Personal x i s c stock key tree personal verify

/-- Every command of the pipeline does its work. -/
def Undisturbed (i : ι) : Prop :=
  ∀ tree, (x.pipeline i).broken tree = none ∧ ((x.pipeline i).find tree).Perm tree.keys

variable {x}

theorem get?_touch (tree : Tree) (path : String) :
    (touch tree).get? path = (tree.get? path).map fun node => { node with mtime := 0 } := by
  ext node
  rw [Dict.get?_eq_some, Option.map_eq_some_iff]
  constructor
  · intro h
    obtain ⟨e, he, heq⟩ := List.mem_map.mp h
    cases heq
    exact ⟨e.2, Dict.get?_eq_some.mpr he, rfl⟩
  · intro h
    obtain ⟨old, hold, rfl⟩ := h
    exact List.mem_map.mpr ⟨_, Dict.get?_eq_some.mp hold, rfl⟩

/-- **Only the key is injected**, where its name does not lead to a folder. -/
theorem injected_personalize {key : Bytes} {tree personal : Tree} (hp : personalize x i key tree = some personal)
    (h : (x.elsewhere i).find tree keyPath ≠ some .directory) : Injected key tree personal := by
  rw [personalize, install, if_neg h, Option.map_some] at hp
  cases hp
  refine ⟨?_, fun path hne => ?_⟩
  · rw [get?_touch, get?_set, if_pos rfl]
    rfl
  · rw [get?_touch, get?_set, if_neg hne]

theorem verified_iff {key : Bytes} {tree : Tree} : verified key tree = true ↔
    ∃ mtime, tree.get? keyPath = some ⟨.file key, 0o640, 0, 2000, mtime⟩ := by
  unfold verified
  cases tree.get? keyPath with
  | none => exact ⟨fun h => (by cases h), fun h => (by obtain ⟨_, h⟩ := h; cases h)⟩
  | some node =>
    obtain ⟨kind, mode, uid, gid, mtime⟩ := node
    constructor
    · intro h
      obtain ⟨rfl, rfl, rfl, rfl⟩ := of_decide_eq_true h
      exact ⟨mtime, rfl⟩
    · intro h
      obtain ⟨mtime', h⟩ := h
      cases h
      exact decide_eq_true ⟨rfl, rfl, rfl, rfl⟩

theorem publishes_iff : Publishes x i s c ↔ candidate x i s = some c := by
  rw [candidate_eq_some]
  constructor
  · intro h
    obtain ⟨stock, key, tree, personal, verify, h⟩ := h
    exact ⟨stock, key, tree, personal, verify, h.stockRead, h.keyRead, h.accepted, h.personalized, h.packed,
      h.extracted, verified_iff.mpr h.installed⟩
  · intro h
    obtain ⟨stock, key, tree, personal, verify, hstock, hkey, haccepted, hpersonal, hc, hverify,
      hverified⟩ := h
    exact ⟨stock, key, tree, personal, verify, hstock, hkey, haccepted,
      oneKey_of_standardKey haccepted.key, hpersonal, injected_personalize hpersonal, hc, hverify,
      verified_iff.mp hverified⟩

theorem sort_eq_of_perm {names names' : List String} (h : names.Perm names') : sort names = sort names' := by
  have hperm := (List.perm_insertionSort (· ≤ ·) names).trans
    (h.trans (List.perm_insertionSort (· ≤ ·) names').symm)
  exact hperm.eq_of_pairwise' (List.pairwise_insertionSort (· ≤ ·) names)
    (List.pairwise_insertionSort (· ≤ ·) names')

/-- Without a failure the candidate does not depend on the order of the file system. -/
theorem write_undisturbed (h : Undisturbed x i) (tree : Tree) :
    (x.pipeline i).write x.tools tree =
      x.tools.archive ((sort tree.keys).map fun name => (name, tree.get? name)) := by
  obtain ⟨hbroken, hfind⟩ := h tree
  rw [Pipeline.write, hbroken, sort_eq_of_perm hfind]

theorem Publishes.again {j : ι} {r : Work} (h : Publishes x i s c) (hi : Undisturbed x i) (hj : Undisturbed x j)
    (hsame : x.elsewhere j = x.elsewhere i) (hstock : r.stock = s.stock) (hkey : r.key = s.key) :
    Publishes x j r c := by
  obtain ⟨stock, key, tree, personal, verify, h⟩ := h
  have hpersonal : personalize x j key tree = some personal := by
    rw [personalize, hsame]
    exact h.personalized
  refine ⟨stock, key, tree, personal, verify, hstock.trans h.stockRead, hkey.trans h.keyRead, ?_, h.oneKey,
    hpersonal, injected_personalize hpersonal, ?_, h.extracted, h.installed⟩
  · have ha := h.accepted
    exact ⟨ha.output, ha.pinned, ha.key, ha.extracted, hsame ▸ ha.required, hsame ▸ ha.rule⟩
  · rw [h.packed, write_undisturbed hi, write_undisturbed hj]

/-- **The personal ramdisk, over any history of runs.** -/
theorem ramdisk_published {s₀ : Work} (h₀ : s₀.output = none)
    (h : History (prepareRamdisk x) Between s₀ s) :
    (∀ c, s.output = some c → ∃ r i whole, History (prepareRamdisk x) Between s₀ r ∧ Publishes x i r whole ∧
      c <+: whole ∧ ∀ t, History (prepareRamdisk x) Between s t → t.output = some c) ∧
    (∀ i t, Yields (prepareRamdisk x i) s () t ↔
      ∃ c, Publishes x i s c ∧ (s.output = none ∨ s.output = some c) ∧ t = s.put c) ∧
    ∀ i j r c, Publishes x i s c → Undisturbed x i → Undisturbed x j → x.elsewhere j = x.elsewhere i →
      r.stock = s.stock → r.key = s.key → Publishes x j r c := by
  refine ⟨fun c hc => ?_, fun i t => ?_, fun i j r c hs hi hj hsame hstock hkey =>
    hs.again hi hj hsame hstock hkey⟩
  · obtain ⟨r, i, fails, hr, hnone, hmade⟩ := h.made keeps_output h₀ hc
    obtain ⟨whole, hwhole, htorn⟩ := torn_of_run hnone hmade
    exact ⟨r, i, whole, hr, publishes_iff.mpr hwhole, htorn, fun t ht => ht.kept keeps_output hc⟩
  · rw [yields_prepareRamdisk]
    exact exists_congr fun c => and_congr_left fun _ => publishes_iff.symm

/-! ## a ramdisk that was cut off -/

def sampleNode (content : String) : Node := ⟨.file (Text.asciiBytes content), 0o755, 0, 2000, 1690000000⟩

def sampleTree : Tree where
  items := [("system", ⟨.directory, 0o755, 0, 0, 1690000000⟩), ("system/bin", ⟨.directory, 0o755, 0, 0, 1690000000⟩),
    ("system/bin/init", sampleNode "ELF init"), ("system/bin/adbd", sampleNode "ELF adbd"),
    ("system/bin/sh", ⟨.link "init", 0o777, 0, 0, 1690000000⟩),
    ("plat_file_contexts", sampleNode "/acct u:object_r:cgroup:s0\n/adb_keys u:object_r:adb_keys_file:s0\n"),
    ("sepolicy", sampleNode "policy")]
  nodup := by decide

def sampleStock : Bytes := [0x1F, 0x8B, 8]

def sampleKey : Bytes := Text.asciiBytes "QAAAAJ3/+w== owner@host\n"

/-- an archive of the names alone -/
def sampleArchive (l : List (String × Option Node)) : Bytes :=
  [0x1F, 0x8B, 9] ++ l.flatMap fun e => Text.asciiBytes e.1 ++ [0]

def samplePipeline : Pipeline := ⟨Dict.keys, fun _ => none⟩

/-- a host that no link of the tree leads to -/
def sampleElsewhere : Elsewhere := ⟨fun _ _ => none, fun _ _ _ => none⟩

def samplePersonal : Tree := touch (sampleTree.set keyPath ⟨.file sampleKey, 0o640, 0, 2000, 0⟩)

def samplePacked : Bytes :=
  sampleArchive ((sort samplePersonal.keys).map fun name => (name, samplePersonal.get? name))

def sample : Setup Unit where
  config := { expectedStockSha256 := (Sha256.sha256 sampleStock).hexdigest }
  hash := Sha256.sha256
  tools := ⟨fun b => if b = sampleStock then some sampleTree else if b = samplePacked then some samplePersonal
    else none, sampleArchive⟩
  pipeline _ := samplePipeline
  elsewhere _ := sampleElsewhere

def sampleFresh : Work := ⟨some sampleStock, some sampleKey, none⟩

/-- a run whose `mv` is killed after one byte -/
def sampleTorn : Work := (prepareRamdisk sample () (fun n => n = 9) 0 sampleFresh).state

theorem sampleTorn_eq : sampleTorn = sampleFresh.put [0x1F] := by decide +kernel

theorem candidate_sample : candidate sample () sampleFresh = some samplePacked := by decide +kernel

/-- The first run from a clean state ends well; no run does after one that was cut off. -/
theorem ramdisk_published_sample :
    Yields (prepareRamdisk sample ()) sampleFresh () (sampleFresh.put samplePacked) ∧
      ∀ t, ¬ Yields (prepareRamdisk sample ()) sampleTorn () t := by
  obtain ⟨-, hfresh, -⟩ := ramdisk_published (x := sample) (rfl : sampleFresh.output = none) .start
  obtain ⟨-, htorn, -⟩ := ramdisk_published (x := sample) (rfl : sampleFresh.output = none)
    (History.run .start () fun n => n = 9)
  refine ⟨(hfresh () _).mpr ⟨samplePacked, publishes_iff.mpr candidate_sample, Or.inl rfl, rfl⟩, fun t ht => ?_⟩
  obtain ⟨c, hc, hout, -⟩ := (htorn () t).mp ht
  change Publishes sample () sampleTorn c at hc
  change sampleTorn.output = none ∨ sampleTorn.output = some c at hout
  rw [sampleTorn_eq] at hc hout
  have hsame := publishes_iff.mp hc
  change candidate sample () sampleFresh = some c at hsame
  rw [candidate_sample] at hsame
  cases hsame
  rcases hout with hnone | hwhole
  · cases hnone
  · exact absurd hwhole (by decide +kernel)

end RT7.Recovery.Ramdisk
