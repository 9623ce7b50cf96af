import RT7.Boot.Build

/-!
# What boot images hold

* `componentFlags`, `partName`   the components of an image and the files they are unpacked to;
* `Contents`        what an image holds, in the order in which it is unpacked: header values and
  components;
* `normalized_iff`  when two unpackings of one image are normalised to the same arguments;
* `parts_on_disk`   where the components are after unpacking;
* `Faithful`        tools that unpack what an image holds and pack what the arguments name.
-/

namespace RT7.Boot

open Py Text Pairs

def componentFlags : List String := ["--kernel", "--ramdisk", "--second", "--recovery_dtbo", "--dtb"]

/-- The name of the file that a component is unpacked to. -/
def partName (flag : String) : String := String.ofList (flag.toList.drop 2)

/-! ## contents -/

inductive Item where
  | value (text : String)
  | file (content : Bytes)
  deriving DecidableEq

/-- The argument that stands for an item in the given directory. -/
def Item.argument (output : PosixPath) (flag : String) : Item → String
  | .value text => text
  | .file _ => (output / partName flag).str

/-- Distinct flags; the components are files, and no header value is a flag. -/
structure Contents where
  items : List (String × Item)
  distinct : (items.map Prod.fst).Nodup
  component : ∀ p ∈ items, (∃ content, p.2 = .file content) ↔ p.1 ∈ componentFlags
  plain : ∀ p ∈ items, ∀ text, p.2 = .value text → text ∉ soughtFlags

def Contents.arguments (c : Contents) (output : PosixPath) : List (String × String) :=
  c.items.map fun p => (p.1, p.2.argument output p.1)

theorem component_partName : ∀ flag ∈ componentFlags, Component (partName flag) := by decide

theorem partName_injective : ∀ flag ∈ componentFlags, ∀ flag' ∈ componentFlags,
    partName flag = partName flag' → flag = flag' := by decide

/-- The file that a component is unpacked to. -/
def partOf (p : String × Item) : Option (FileName × Bytes) :=
  match p.2 with
  | .value _ => none
  | .file content =>
    if h : Component (partName p.1) then some (⟨partName p.1, h⟩, content) else none

def Contents.parts (c : Contents) : List (FileName × Bytes) := c.items.filterMap partOf

variable {c c' : Contents} {output output' : PosixPath} {flag : String} {item : Item}
  {content : Bytes} {disk : Disk} {path : PosixPath}

theorem map_fst_arguments : (c.arguments output).map Prod.fst = c.items.map Prod.fst := by
  rw [Contents.arguments, List.map_map]
  rfl

theorem distinct_arguments (c : Contents) (output : PosixPath) :
    ((c.arguments output).map Prod.fst).Nodup := by
  rw [map_fst_arguments]
  exact c.distinct

theorem component_of_file (h : (flag, Item.file content) ∈ c.items) : flag ∈ componentFlags :=
  (c.component _ h).mp ⟨content, rfl⟩

theorem mem_parts (h : (flag, Item.file content) ∈ c.items) :
    (⟨partName flag, component_partName flag (component_of_file h)⟩, content) ∈ c.parts := by
  refine List.mem_filterMap.mpr ⟨_, h, ?_⟩
  exact dif_pos (component_partName flag (component_of_file h))

/-- the value of a flag among the arguments -/
theorem lookup_arguments (h : (flag, item) ∈ c.items) :
    (c.arguments output).lookup flag = some (item.argument output flag) := by
  refine (Dict.lookup_eq_some (distinct_arguments c output)).mpr ?_
  exact List.mem_map.mpr ⟨(flag, item), h, rfl⟩

/-- a path of a component is not a flag: its last name is not -/
theorem part_not_mem (h : flag ∈ componentFlags) : (output / partName flag).str ∉ soughtFlags := by
  have hsought : ∀ s ∈ soughtFlags, (PosixPath.parse s).name ∉ componentFlags.map partName := by
    decide
  intro hmem
  have hname := hsought _ hmem
  rw [PosixPath.parse_str, PosixPath.name_div (component_partName flag h)] at hname
  exact hname (List.mem_map_of_mem h)

theorem plain_arguments (c : Contents) (output : PosixPath) : Plain (c.arguments output) := by
  intro p hp
  obtain ⟨⟨flag, item⟩, hitem, rfl⟩ := List.mem_map.mp hp
  cases item with
  | value text => exact c.plain _ hitem text rfl
  | file content => exact part_not_mem (component_of_file hitem)

/-! ## two unpackings -/

/-- **Two unpackings of one image into different directories are normalised to the same arguments
exactly when the image has no recovery_dtbo:** its path is not masked. -/
theorem normalized_iff (c : Contents) (hne : output ≠ output') :
    normalizedArguments (flat (c.arguments output)) = normalizedArguments (flat (c.arguments output'))
      ↔ "--recovery_dtbo" ∉ c.items.map Prod.fst := by
  rw [normalizedArguments_flat (plain_arguments c output).unmasked,
    normalizedArguments_flat (plain_arguments c output').unmasked, Except.ok.injEq,
    flat_injective.eq_iff, mask_eq_iff (distinct_arguments c output)]
  constructor
  · rintro ⟨-, hlookup⟩ hmem
    obtain ⟨⟨flag, item⟩, hitem, rfl⟩ := List.mem_map.mp hmem
    have hflag : "--recovery_dtbo" ∈ componentFlags := by decide
    obtain ⟨content, rfl⟩ := (c.component _ hitem).mpr hflag
    have hcomponent : Component (partName "--recovery_dtbo") := by decide
    have hpaths := hlookup "--recovery_dtbo" (by decide)
    rw [lookup_arguments hitem, lookup_arguments hitem] at hpaths
    have hstr := PosixPath.str_injective (Option.some.inj hpaths)
    exact hne ((PosixPath.div_inj hcomponent hcomponent).mp hstr).1
  · intro hnot
    refine ⟨by rw [map_fst_arguments, map_fst_arguments], fun flag hflag => ?_⟩
    by_cases hmem : flag ∈ c.items.map Prod.fst
    · obtain ⟨⟨flag, item⟩, hitem, rfl⟩ := List.mem_map.mp hmem
      rw [lookup_arguments hitem, lookup_arguments hitem]
      cases item with
      | value text => rfl
      | file content =>
        have hcases : ∀ flag ∈ componentFlags, flag ∉ maskedNames → flag = "--recovery_dtbo" := by
          decide
        have hrecovery := hcases flag (component_of_file hitem) hflag
        dsimp only at hnot hmem
        rw [hrecovery] at hmem
        exact absurd hmem hnot
    · have hnone (output : PosixPath) : (c.arguments output).lookup flag = none := by
        rw [← Option.not_isSome_iff_eq_none, lookup_isSome, map_fst_arguments]
        exact hmem
      rw [hnone, hnone]

/-! ## unpacked files -/

theorem writeFiles_of_not_mem {directory : PosixPath} {files : List (FileName × Bytes)}
    (h : ∀ file ∈ files, path ≠ directory / file.1.val) :
    disk.writeFiles directory files path = disk path := by
  induction files generalizing disk with
  | nil => rfl
  | cons file files ih =>
    obtain ⟨hfile, hfiles⟩ := List.forall_mem_cons.mp h
    show (disk.write (directory / file.1.val) file.2).writeFiles directory files path = disk path
    rw [ih hfiles, write_ne hfile]

theorem writeFiles_of_parent_ne {directory : PosixPath} {files : List (FileName × Bytes)}
    (h : path.parent ≠ directory) : disk.writeFiles directory files path = disk path := by
  refine writeFiles_of_not_mem fun file _ e => h ?_
  rw [e, PosixPath.parent_div file.1.property]

theorem writeFiles_of_mem {directory : PosixPath} {files : List (FileName × Bytes)}
    (hnodup : (files.map Prod.fst).Nodup) {file : FileName × Bytes} (h : file ∈ files) :
    disk.writeFiles directory files (directory / file.1.val) = some file.2 := by
  induction files generalizing disk with
  | nil => exact absurd h List.not_mem_nil
  | cons first files ih =>
    obtain ⟨hfresh, hnodup'⟩ := List.nodup_cons.mp hnodup
    show (disk.write (directory / first.1.val) first.2).writeFiles directory files _ = _
    cases h with
    | head =>
      rw [writeFiles_of_not_mem, write_self]
      intro other hother e
      have hname := ((PosixPath.div_inj file.1.property other.1.property).mp e).2
      exact hfresh (List.mem_map.mpr ⟨other, hother, (Subtype.ext hname).symm⟩)
    | tail _ h => exact ih hnodup' h

theorem partOf_eq_some {p : String × Item} {part : FileName × Bytes} (h : partOf p = some part) :
    (∃ content, p.2 = .file content) ∧ part.1.val = partName p.1 := by
  obtain ⟨flag, item⟩ := p
  cases item with
  | value text => cases h
  | file content =>
    rw [partOf] at h
    dsimp only at h
    split_ifs at h
    cases h
    exact ⟨⟨content, rfl⟩, rfl⟩

theorem nodup_parts (c : Contents) : (c.parts.map Prod.fst).Nodup := by
  have hitems : c.items.Pairwise fun p q => p.1 ≠ q.1 := List.pairwise_map.mp c.distinct
  rw [List.Nodup, List.pairwise_map, Contents.parts, List.pairwise_filterMap]
  refine hitems.imp_of_mem ?_
  intro p q hp hq hne part hpart part' hpart' e
  obtain ⟨hfile, hname⟩ := partOf_eq_some hpart
  obtain ⟨hfile', hname'⟩ := partOf_eq_some hpart'
  refine hne (partName_injective _ ((c.component p hp).mp hfile) _ ((c.component q hq).mp hfile') ?_)
  rw [← hname, ← hname', e]

/-- a component lies in its directory after unpacking -/
theorem parts_on_disk (h : (flag, Item.file content) ∈ c.items) :
    disk.writeFiles output c.parts (output / partName flag) = some content := by
  have hmem := mem_parts h
  have hwritten (d : Disk) := @writeFiles_of_mem d output c.parts (nodup_parts c) _ hmem
  exact hwritten disk

/-! ## tools that are inverse to each other -/

/-- What an argument stands for, given the files. -/
def Denotes (disk : Disk) (text : String) : Item → Prop
  | .value value => text = value
  | .file content => disk (PosixPath.parse text) = some content

/-- The flags whose values the script edits. -/
def editedFlags : List String := ["--kernel", "--ramdisk", "--cmdline"]

/-- The tools print flags and values: the items come in pairs, and no value is a flag that the
script looks for. -/
def PrintsPairs (tools : Tools) : Prop :=
  ∀ image output disk result arguments, tools.unpackBootimg image output disk = .ok result →
    decodeArguments result.1 = .ok arguments → ∃ pairs, arguments = flat pairs ∧ Plain pairs

/-- The arguments name what the items are. -/
def Names (disk : Disk) (pairs : List (String × String)) (items : List (String × Item)) : Prop :=
  List.Forall₂ (fun p q => p.1 = q.1 ∧ Denotes disk p.2 q.2) pairs items

/-- The arguments name what the items are, but for the flags that the script edits. -/
def NamesUnedited (disk : Disk) (pairs : List (String × String)) (items : List (String × Item)) : Prop :=
  List.Forall₂ (fun p q => p.1 = q.1 ∧ (p.1 ∉ editedFlags → Denotes disk p.2 q.2)) pairs items

/-- The header values of the items are those of the arguments. -/
def Returned (pairs : List (String × String)) (items : List (String × Item)) : Prop :=
  List.Forall₂ (fun p q => p.1 = q.1 ∧ ∀ text, q.2 = .value text → p.2 = text) pairs items

/-- The pinned tools: `holds image c` says that an image holds `c`. What is packed with the flags of
an image is unpacked again, and no flag is taken for a value. No path has a zero character. -/
structure Faithful (tools : Tools) (holds : Bytes → Contents → Prop) : Prop where
  unpack : ∀ image output disk bytes c, '\x00' ∉ output.str.toList → disk image = some bytes →
    holds bytes c → ∃ result, tools.unpackBootimg image output disk = .ok result ∧
      decodeArguments result.1 = .ok (flat (c.arguments output)) ∧ result.2 = c.parts
  parser : ∀ bytes c pairs disk made, holds bytes c →
    pairs.map Prod.fst = c.items.map Prod.fst →
    tools.mkbootimg (flat pairs) disk = .ok (some made) → Plain pairs
  pack : ∀ bytes c pairs disk made, holds bytes c → NamesUnedited disk pairs c.items →
    tools.mkbootimg (flat pairs) disk = .ok (some made) →
    ∃ c', holds made c' ∧ Names disk pairs c'.items

theorem Denotes.unique {text : String} {p q : String × Item} (hkey : p.1 = q.1)
    (hp : (∃ content, p.2 = .file content) ↔ p.1 ∈ componentFlags)
    (hq : (∃ content, q.2 = .file content) ↔ q.1 ∈ componentFlags) (h : Denotes disk text p.2)
    (h' : Denotes disk text q.2) : p = q := by
  obtain ⟨flag, item⟩ := p
  obtain ⟨flag', item'⟩ := q
  obtain rfl : flag = flag' := hkey
  cases item with
  | value text =>
    cases item' with
    | value text' =>
      obtain rfl : _ = text := h
      obtain rfl : _ = text' := h'
      rfl
    | file content =>
      obtain ⟨_, hfile⟩ := hp.mpr (hq.mp ⟨content, rfl⟩)
      cases hfile
  | file content =>
    cases item' with
    | value text' =>
      obtain ⟨_, hfile⟩ := hq.mpr (hp.mp ⟨content, rfl⟩)
      cases hfile
    | file content' =>
      have hsame : some content = some content' := h.symm.trans h'
      obtain rfl := Option.some.inj hsame
      rfl

/-- **Arguments name the items of one image only.** -/
theorem Names.unique {pairs : List (String × String)} (h : Names disk pairs c.items)
    (h' : Names disk pairs c'.items) : c.items = c'.items := by
  have hc := c.component
  have hc' := c'.component
  generalize c.items = items at h hc
  generalize c'.items = items' at h' hc'
  induction h generalizing items' with
  | nil =>
    cases h'
    rfl
  | cons hpq _ ih =>
    cases h' with
    | cons hpq' hrest =>
      obtain ⟨hp, hps⟩ := List.forall_mem_cons.mp hc
      obtain ⟨hq, hqs⟩ := List.forall_mem_cons.mp hc'
      rw [Denotes.unique (hpq.1.symm.trans hpq'.1) hp hq hpq.2 hpq'.2, ih hps _ hrest hqs]

theorem names_of_denotes
    (h : ∀ flag item, (flag, item) ∈ c.items → Denotes disk (item.argument output flag) item) :
    Names disk (c.arguments output) c.items := by
  refine forall₂_of_keys map_fst_arguments ?_
  rintro ⟨flag, text⟩ hp ⟨flag', item⟩ hq rfl
  have htext := (Dict.lookup_eq_some (distinct_arguments c output)).mpr hp
  rw [lookup_arguments hq] at htext
  dsimp only at htext hq
  obtain rfl := Option.some.inj htext
  exact h _ _ hq

/-- the arguments of unpacked contents name what the image holds -/
theorem names_arguments : Names (disk.writeFiles output c.parts) (c.arguments output) c.items := by
  refine names_of_denotes fun flag item hitem => ?_
  cases item with
  | value text => exact rfl
  | file content =>
    show disk.writeFiles output c.parts (PosixPath.parse (output / partName flag).str) = some content
    rw [PosixPath.parse_str, parts_on_disk hitem]

theorem Names.returned {pairs : List (String × String)} {items : List (String × Item)}
    (h : Names disk pairs items) : Returned pairs items := by
  refine h.imp fun p q hpq => ⟨hpq.1, fun text htext => ?_⟩
  have hdenotes := hpq.2
  rw [htext] at hdenotes
  exact hdenotes

end RT7.Boot
