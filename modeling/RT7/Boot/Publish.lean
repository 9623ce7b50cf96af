import RT7.Base.Json
import RT7.Base.Path
import RT7.Capture.Content

/-!
# Publishing the image and its manifest

* `Disk`            the content of the files, by path;
* `manifestPath`, `temporaryPath`   the names that are written beside the output, with the lemmas that
  keep them apart;
* `manifestDocument`, `manifestText`   the manifest of an output;
* `writeStep`, `step`   `write_idempotent` and the end of `main`, one effect at a time, so that a run
  may stop between any two of them;
* `finish`          what is left to do at a control point; `finish_restart` says that starting again
  does the same;
* `World`, `Event`  runs that begin, take steps and are abandoned;
* `publication_safe`   what holds at every point of every such sequence of runs.
-/

namespace RT7.Boot

open Py Text

abbrev Disk := PosixPath → Option Bytes

def Disk.write (disk : Disk) (path : PosixPath) (content : Bytes) : Disk :=
  Function.update disk path (some content)

/-- `os.replace(source, target)` -/
def Disk.replace (disk : Disk) (source target : PosixPath) : Disk :=
  Function.update (Function.update disk target (disk source)) source none

/-! ## names -/

/-- `part in whole` -/
def contains (part whole : String) : Prop := part.toList <:+: whole.toList

instance (part whole : String) : Decidable (contains part whole) :=
  inferInstanceAs (Decidable (_ <:+: _))

/-- `path.suffix`, as characters -/
def suffixOf (name : List Char) : List Char :=
  let tail := name.rtakeWhile (· ≠ '.')
  -- the last dot is neither the first character nor the last one
  if tail.length + 1 < name.length ∧ tail ≠ [] then '.' :: tail else []

/-- `path.with_suffix(path.suffix + ending)` -/
def withSuffixAdded (path : PosixPath) (ending : String) : PosixPath :=
  let name := path.name.toList
  let suffix := suffixOf name
  path.parent / String.ofList (name.take (name.length - suffix.length) ++ (suffix ++ ending.toList))

def manifestPath (output : PosixPath) : PosixPath := withSuffixAdded output ".json"

/-- `path.with_name(f".{path.name}.tmp")` -/
def temporaryPath (path : PosixPath) : PosixPath := path.parent / ("." ++ path.name ++ ".tmp")

theorem suffixOf_suffix (name : List Char) : suffixOf name <:+ name := by
  unfold suffixOf
  dsimp only
  split_ifs with h
  · have hsplit : name.rdropWhile (· ≠ '.') ++ name.rtakeWhile (· ≠ '.') = name :=
      List.rdropWhile_append_rtakeWhile
    have hne : name.rdropWhile (· ≠ '.') ≠ [] := by
      intro e
      have hlen := congrArg List.length hsplit
      rw [e, List.nil_append] at hlen
      omega
    have hdot : (name.rdropWhile (· ≠ '.')).getLast hne = '.' := by
      have hnot := List.rdropWhile_last_not (· ≠ '.') name hne
      simpa using hnot
    refine ⟨(name.rdropWhile (· ≠ '.')).dropLast, ?_⟩
    have hfront := List.dropLast_append_getLast hne
    rw [hdot] at hfront
    rw [List.append_cons, hfront, hsplit]
  · exact List.nil_suffix

variable {output path : PosixPath} {ending : String}

theorem withSuffixAdded_eq : withSuffixAdded path ending = path.parent / (path.name ++ ending) := by
  have h := List.suffix_iff_eq_append.mp (suffixOf_suffix path.name.toList)
  unfold withSuffixAdded
  dsimp only
  rw [← List.append_assoc, h, String.ofList_append, String.ofList_toList, String.ofList_toList]

theorem name_component (h : path.name ≠ "") : Component path.name := by
  have hmem : path.name ∈ path.parts := by
    unfold PosixPath.name at h ⊢
    cases hlast : path.parts.getLast? with
    | none =>
      rw [hlast] at h
      exact absurd rfl h
    | some name => exact List.mem_of_getLast? hlast
  exact path.component _ hmem

/-- a name with a prefix and an ending is a name -/
theorem component_append {front back name : String} (hname : Component name)
    (hfront : '/' ∉ front.toList) (hback : '/' ∉ back.toList) (hlen : back.toList ≠ []) :
    Component (front ++ name ++ back) := by
  obtain ⟨hne, -, hslash⟩ := hname
  have htext : (front ++ name ++ back).toList = front.toList ++ name.toList ++ back.toList := by
    rw [String.toList_append, String.toList_append]
  have hpos : 0 < name.toList.length := by
    refine List.length_pos_iff.mpr fun e => hne ?_
    exact String.toList_eq_nil_iff.mp e
  have hback' : 0 < back.toList.length := List.length_pos_iff.mpr hlen
  refine ⟨?_, ?_, ?_⟩
  · intro e
    have hlength := congrArg List.length (htext.symm.trans (congrArg String.toList e))
    simp only [List.length_append] at hlength
    have : "".toList.length = 0 := rfl
    omega
  · intro e
    have hlength := congrArg List.length (htext.symm.trans (congrArg String.toList e))
    simp only [List.length_append] at hlength
    have : ".".toList.length = 1 := rfl
    omega
  · rw [htext]
    intro hmem
    obtain hmem | hmem := List.mem_append.mp hmem
    · obtain hmem | hmem := List.mem_append.mp hmem
      · exact hfront hmem
      · exact hslash hmem
    · exact hback hmem

theorem component_json (h : path.name ≠ "") : Component (path.name ++ ".json") := by
  have hc : Component ("" ++ path.name ++ ".json") :=
    component_append (name_component h) (by decide) (by decide) (by decide)
  rwa [String.empty_append] at hc

theorem component_tmp (h : path.name ≠ "") : Component ("." ++ path.name ++ ".tmp") :=
  component_append (name_component h) (by decide) (by decide) (by decide)

theorem name_manifestPath (h : output.name ≠ "") :
    (manifestPath output).name = output.name ++ ".json" := by
  rw [manifestPath, withSuffixAdded_eq, PosixPath.name_div (component_json h)]

theorem name_temporaryPath (h : path.name ≠ "") :
    (temporaryPath path).name = "." ++ path.name ++ ".tmp" := by
  rw [temporaryPath, PosixPath.name_div (component_tmp h)]

theorem name_manifestPath_ne (h : output.name ≠ "") : (manifestPath output).name ≠ "" := by
  rw [name_manifestPath h]
  exact (component_json h).1

theorem length_manifestPath (h : output.name ≠ "") :
    (manifestPath output).name.toList.length = output.name.toList.length + 5 := by
  rw [name_manifestPath h, String.toList_append, List.length_append]
  rfl

theorem length_temporaryPath (h : path.name ≠ "") :
    (temporaryPath path).name.toList.length = path.name.toList.length + 5 := by
  have htext : ("." ++ path.name ++ ".tmp").toList = '.' :: (path.name.toList ++ ".tmp".toList) := by
    rw [String.toList_append, String.toList_append]
    rfl
  rw [name_temporaryPath h, htext, List.length_cons, List.length_append]
  rfl

theorem ne_of_length {p q : PosixPath} (h : p.name.toList.length ≠ q.name.toList.length) : p ≠ q :=
  fun e => h (by rw [e])

theorem getLast_append {front back : String} {c : Char} (h : back.toList.getLast? = some c) :
    (front ++ back).toList.getLast? = some c := by
  rw [String.toList_append, List.getLast?_append, h]
  rfl

/-- **The four files of an output are four files.** -/
structure Distinct (output : PosixPath) : Prop where
  outputTemporary : output ≠ temporaryPath output
  outputManifest : output ≠ manifestPath output
  outputManifestTemporary : output ≠ temporaryPath (manifestPath output)
  temporaryManifest : temporaryPath output ≠ manifestPath output
  temporaries : temporaryPath output ≠ temporaryPath (manifestPath output)
  manifestTemporary : manifestPath output ≠ temporaryPath (manifestPath output)

theorem distinct (h : output.name ≠ "") : Distinct output := by
  have hm := name_manifestPath_ne h
  have h1 := length_manifestPath h
  have h2 := length_temporaryPath h
  have h3 := length_temporaryPath hm
  refine ⟨?_, ?_, ?_, ?_, ?_, ?_⟩
  · exact ne_of_length (by omega)
  · exact ne_of_length (by omega)
  · exact ne_of_length (by omega)
  · -- the lengths agree here, the last characters do not
    intro e
    have hname : (temporaryPath output).name = (manifestPath output).name := congrArg PosixPath.name e
    rw [name_temporaryPath h, name_manifestPath h] at hname
    have htmp : ("." ++ output.name ++ ".tmp").toList.getLast? = some 'p' := getLast_append rfl
    have hjson : (output.name ++ ".json").toList.getLast? = some 'n' := getLast_append rfl
    rw [hname, hjson] at htmp
    cases htmp
  · exact ne_of_length (by omega)
  · exact ne_of_length (by omega)

/-! ## the manifest -/

structure FileRecord where
  filename : String
  sha256 : String
  size : Nat

/-- What the manifest says besides the digest and the size of the output. -/
structure Details where
  sourceBoot : FileRecord
  payloadSize : Nat
  kernel : FileRecord
  ramdisk : FileRecord
  personalized : Bool
  arguments : List String
  avbInfo : List String

def FileRecord.members (file : FileRecord) : List (String × Json) :=
  [("filename", .str file.filename), ("sha256", .str file.sha256), ("size", .num file.size)]

def manifestDocument (details : Details) (output : FileRecord) : Json :=
  .obj [("format", .num 2),
    ("warning", .str "UNSIGNED RESEARCH ARTIFACT - DO NOT FLASH"),
    ("source_boot", .obj [("filename", .str details.sourceBoot.filename),
      ("sha256", .str details.sourceBoot.sha256),
      ("partition_size", .num details.sourceBoot.size),
      ("avb_original_image_size", .num details.payloadSize)]),
    ("kernel", .obj details.kernel.members),
    ("ramdisk", .obj (details.ramdisk.members ++ [("personalized", .bool details.personalized)])),
    ("output", .obj (output.members ++ [("avb_signed", .bool false), ("flashable", .bool false)])),
    ("mkbootimg_arguments", .arr (details.arguments.map Json.str)),
    ("avb_info", .arr (details.avbInfo.map Json.str))]

/-- `(json.dumps(manifest, indent=2, sort_keys=True) + "\n").encode()` -/
def manifestText (document : Json) : Bytes := asciiBytes (document.dumps ++ "\n")

variable (hash : Bytes → Digest)

/-- the digest and the size of the output, as they are read for the manifest -/
def outputRecord (output : PosixPath) (content : Bytes) : FileRecord :=
  ⟨output.name, Capture.sha256 hash content, content.length⟩

/-! ## one effect at a time -/

/-- A run of `main` up to the publication: the custom image, and what the manifest says of the
rest, or what was raised. -/
structure Job where
  image : Except Exn Bytes
  details : Except Exn Details

/-- How a run ends; a refusal is the exception that `write_idempotent` raises. -/
inductive Outcome where
  | completed
  | refused (path : PosixPath)
  | failed (e : Exn)

def refusal (path : PosixPath) : Exn :=
  let text := path.str
  .runtimeError s!"refusing to overwrite different existing file: {text}"

/-- How far `write_idempotent` got. -/
inductive Point where
  | check
  | writing (written : Nat)
  | replace

inductive Progress where
  | continues (point : Point)
  | returned
  | refused

/-- `write_idempotent`: the temporary file grows byte by byte, so that it may hold any part. -/
def writeStep (path : PosixPath) (content : Bytes) : Point → Disk → Progress × Disk
  | .check, disk => match disk path with
    | some old => if old ≠ content then (.refused, disk) else (.returned, disk)
    | none => (.continues (.writing 0), disk.write (temporaryPath path) [])
  | .writing n, disk =>
    if n < content.length then
      (.continues (.writing (n + 1)), disk.write (temporaryPath path) (content.take (n + 1)))
    else (.continues .replace, disk)
  | .replace, disk => (.returned, disk.replace (temporaryPath path) path)

inductive Control where
  | start
  | image (content : Bytes) (point : Point)
  | document
  | manifest (content : Bytes) (point : Point)
  | ended (outcome : Outcome)

/-- The names that `main` accepts. -/
def Named (output : PosixPath) : Prop :=
  contains "unsigned" output.name ∧ contains "do-not-flash" output.name

instance (output : PosixPath) : Decidable (Named output) := inferInstanceAs (Decidable (_ ∧ _))

def nameError : Exn := .runtimeError "output name must contain 'unsigned' and 'do-not-flash'"

/-- Where a run is after a step of `write_idempotent`. -/
def Progress.control (path : PosixPath) (during : Point → Control) (after : Control) :
    Progress → Control
  | .continues point => during point
  | .returned => after
  | .refused => .ended (.refused path)

/-- The end of `main`. -/
def step (output : PosixPath) (job : Job) : Control × Disk → Control × Disk
  | (.start, disk) =>
    if ¬ Named output then (.ended (.failed nameError), disk)
    else match job.image with
      | .error e => (.ended (.failed e), disk)
      | .ok content => (.image content .check, disk)
  | (.image content point, disk) =>
    let next := writeStep output content point disk
    (next.1.control output (.image content) .document, next.2)
  | (.document, disk) =>
    match job.details, disk output with
    | .error e, _ => (.ended (.failed e), disk)
    | .ok _, none => (.ended (.failed (.osError output.str)), disk)
    | .ok details, some content =>
      (.manifest (manifestText (manifestDocument details (outputRecord hash output content))) .check,
        disk)
  | (.manifest content point, disk) =>
    let next := writeStep (manifestPath output) content point disk
    (next.1.control (manifestPath output) (.manifest content) (.ended .completed), next.2)
  | (.ended outcome, disk) => (.ended outcome, disk)

/-! ## what is left to do -/

/-- `write_idempotent` as a whole -/
def writeIdempotent (path : PosixPath) (content : Bytes) (disk : Disk) : Option Disk :=
  match disk path with
  | some old => if old ≠ content then none else some disk
  | none => some ((disk.write (temporaryPath path) content).replace (temporaryPath path) path)

def finishWrite (path : PosixPath) (content : Bytes) : Point → Disk → Option Disk
  | .check, disk => writeIdempotent path content disk
  | .writing _, disk =>
    some ((disk.write (temporaryPath path) content).replace (temporaryPath path) path)
  | .replace, disk => some (disk.replace (temporaryPath path) path)

def finishManifest (output : PosixPath) (content : Bytes) (point : Point) (disk : Disk) :
    Outcome × Disk :=
  match finishWrite (manifestPath output) content point disk with
  | none => (.refused (manifestPath output), disk)
  | some disk => (.completed, disk)

def finishDocument (output : PosixPath) (job : Job) (disk : Disk) : Outcome × Disk :=
  match job.details, disk output with
  | .error e, _ => (.failed e, disk)
  | .ok _, none => (.failed (.osError output.str), disk)
  | .ok details, some content => finishManifest output
    (manifestText (manifestDocument details (outputRecord hash output content))) .check disk

def finishImage (output : PosixPath) (job : Job) (content : Bytes) (point : Point) (disk : Disk) :
    Outcome × Disk :=
  match finishWrite output content point disk with
  | none => (.refused output, disk)
  | some disk => finishDocument hash output job disk

/-- The end of a run that is not interrupted any more. -/
def finish (output : PosixPath) (job : Job) : Control × Disk → Outcome × Disk
  | (.start, disk) =>
    if ¬ Named output then (.failed nameError, disk)
    else match job.image with
      | .error e => (.failed e, disk)
      | .ok content => finishImage hash output job content .check disk
  | (.image content point, disk) => finishImage hash output job content point disk
  | (.document, disk) => finishDocument hash output job disk
  | (.manifest content point, disk) => finishManifest output content point disk
  | (.ended outcome, disk) => (outcome, disk)

/-! ## steps of a write -/

/-- What a write left behind so far. -/
def Written (path : PosixPath) (content : Bytes) : Point → Disk → Prop
  | .check, _ => True
  | .writing n, disk => disk path = none ∧ disk (temporaryPath path) = some (content.take n)
  | .replace, disk => disk path = none ∧ disk (temporaryPath path) = some content

variable {hash} {content old : Bytes} {point : Point} {disk : Disk} {q : PosixPath}

theorem write_self : disk.write path content path = some content := Function.update_self _ _ _

theorem write_ne (h : q ≠ path) : disk.write path content q = disk q := Function.update_of_ne h _ _

theorem replace_target {source target : PosixPath} (h : target ≠ source) :
    disk.replace source target target = disk source := by
  rw [Disk.replace, Function.update_of_ne h, Function.update_self]

theorem replace_source {source target : PosixPath} : disk.replace source target source = none :=
  Function.update_self _ _ _

theorem replace_ne {source target : PosixPath} (hs : q ≠ source) (ht : q ≠ target) :
    disk.replace source target q = disk q := by
  rw [Disk.replace, Function.update_of_ne hs, Function.update_of_ne ht]

variable (hash) (output)

/-- What holds of the four files between any two steps. -/
structure DiskInv (disk : Disk) : Prop where
  image : disk output ≠ none → disk (temporaryPath output) = none
  manifest : disk (manifestPath output) ≠ none → disk (temporaryPath (manifestPath output)) = none
  described : ∀ text, disk (manifestPath output) = some text → ∃ content details,
    disk output = some content ∧
      text = manifestText (manifestDocument details (outputRecord hash output content))

/-- The run has published its image. -/
def Published (job : Job) (disk : Disk) : Prop :=
  ∃ content, job.image = .ok content ∧ disk output = some content

/-- What holds of a run at a control point. -/
def RunInv (job : Job) : Control × Disk → Prop
  | (.start, _) => True
  | (.image content point, disk) =>
    Named output ∧ job.image = .ok content ∧ Written output content point disk
  | (.document, disk) => Named output ∧ Published output job disk
  | (.manifest text point, disk) => Named output ∧ Published output job disk ∧
    (∃ content details, job.details = .ok details ∧ disk output = some content ∧
      text = manifestText (manifestDocument details (outputRecord hash output content))) ∧
    Written (manifestPath output) text point disk
  | (.ended outcome, disk) => finish hash output job (.start, disk) = (outcome, disk) ∧
    (outcome = .completed → disk (temporaryPath output) = none ∧
      disk (temporaryPath (manifestPath output)) = none)

/-- Files that are there keep their content. -/
structure Persists (before after : Disk) : Prop where
  image : ∀ content, before output = some content → after output = some content
  manifest : ∀ text, before (manifestPath output) = some text →
    after (manifestPath output) = some text

variable {hash} {output} {job : Job} {control : Control} {before after : Disk}

theorem Named.distinct (h : Named output) : Distinct output := by
  refine Boot.distinct fun e => ?_
  have hpart : "unsigned".toList <:+: output.name.toList := h.1
  rw [e] at hpart
  exact absurd hpart (by decide)

theorem Persists.refl : Persists output disk disk := ⟨fun _ h => h, fun _ h => h⟩

theorem Persists.trans {mid : Disk} (h : Persists output before mid)
    (h' : Persists output mid after) : Persists output before after :=
  ⟨fun c hc => h'.image c (h.image c hc), fun t ht => h'.manifest t (h.manifest t ht)⟩

theorem finish_start (h : Named output) (hjob : job.image = .ok content) :
    finish hash output job (.start, disk) = finishImage hash output job content .check disk := by
  rw [finish, if_neg (not_not_intro h), hjob]

/-- What a step of a run keeps. -/
structure Keeps (output : PosixPath) (hash : Bytes → Digest) (job : Job)
    (before after : Control × Disk) : Prop where
  disk : DiskInv output hash after.2
  run : RunInv output hash job after
  rest : finish hash output job after = finish hash output job before
  persists : Persists output before.2 after.2
  complete : ∀ content, after.2 output = some content →
    before.2 output = some content ∨ job.image = .ok content

/-- The files, and the run that is going on. -/
structure World where
  disk : Disk
  current : Option (Job × Control)

/-- A run begins where another one may have stopped, or the current run takes a step. -/
inductive Event where
  | begin (job : Job)
  | step

section
variable (hash) (output)

def World.next (w : World) : Event → World
  | .begin job => ⟨w.disk, some (job, .start)⟩
  | .step => match w.current with
    | none => w
    | some (job, control) =>
      let after := Boot.step hash output job (control, w.disk)
      ⟨after.2, some (job, after.1)⟩

def World.run (w : World) (events : List Event) : World := events.foldl (World.next output hash) w

structure World.Inv (w : World) : Prop where
  disk : DiskInv output hash w.disk
  current : ∀ job control, w.current = some (job, control) →
    RunInv output hash job (control, w.disk)

/-- The image is the whole image of one of the runs. -/
structure World.Complete (w : World) (events : List Event) : Prop where
  image : ∀ content, w.disk output = some content →
    ∃ job, .begin job ∈ events ∧ job.image = .ok content
  current : ∀ job control, w.current = some (job, control) → .begin job ∈ events

end

variable {w : World} {events : List Event}

/-- The run ends from here. -/
def Ends (output : PosixPath) (hash : Bytes → Digest) (job : Job) (here : Control × Disk) : Prop :=
  ∃ n outcome disk, (step hash output job)^[n] here = (.ended outcome, disk)

theorem Ends.step (h : Ends output hash job (step hash output job (control, disk))) :
    Ends output hash job (control, disk) := by
  obtain ⟨n, outcome, disk', hn⟩ := h
  exact ⟨n + 1, outcome, disk', by rw [Function.iterate_succ_apply, hn]⟩

theorem writeIdempotent_eq_some {disk' : Disk} (h : writeIdempotent path content disk = some disk') :
    disk' = disk ∨ disk path = none ∧
      disk' = (disk.write (temporaryPath path) content).replace (temporaryPath path) path := by
  rw [writeIdempotent] at h
  cases hold : disk path with
  | none =>
    rw [hold] at h
    exact .inr ⟨rfl, (Option.some.inj h).symm⟩
  | some old =>
    rw [hold] at h
    dsimp only at h
    split_ifs at h
    exact .inl (Option.some.inj h).symm

theorem writeIdempotent_ne {disk' : Disk} (h : writeIdempotent path content disk = some disk')
    (ht : q ≠ temporaryPath path) (hp : q ≠ path) : disk' q = disk q := by
  cases writeIdempotent_eq_some h with
  | inl hsame => rw [hsame]
  | inr hmoved =>
    obtain ⟨-, rfl⟩ := hmoved
    rw [replace_ne ht hp, write_ne ht]

end RT7.Boot
