import RT7.Base.Pairs
import RT7.Base.Objects
import RT7.Base.Realpath

/-!
# The arguments of mkbootimg

* `replaceArgument`, `appendCmdline`, `normalizedArguments`   the edits of an argument list, on the
  lists as values; `customArguments` is their composition in `main`;
* `Arguments`       a list of flags and values in turn: the flags are distinct and no value is a flag
  that the script looks for;
* `replaceArgument_flat`, `appendCmdline_flat`, `normalizedArguments_flat`   the edits on such lists;
* `InPlace`         the same functions on list objects, which assign to the items of a copy;
* `custom_arguments_exact`   what the edits change, and what the normalised lists tell apart.
-/

namespace RT7.Boot

open Py Text Pairs

def replaceArgument (arguments : List String) (name : String) (value : PosixPath) :
    Except Exn (List String) := do
  let index ← require (arguments.idxOf? name)
    (.runtimeError s!"missing {name} in unpacked mkbootimg arguments")
  setItem arguments (index + 1) value.str

def appendCmdline (arguments : List String) (suffix : String) : Except Exn (List String) := do
  raiseIf (suffix = "" ∨ suffix.toList.any fun character => character ∈ ['\r', '\n', '\x00'])
    (.runtimeError "invalid boot command-line suffix")
  let index ← require (arguments.idxOf? "--cmdline")
    (.runtimeError "missing --cmdline in unpacked arguments")
  let cmdline ← require arguments[index + 1]? .indexError
  setItem arguments (index + 1) (strip (cmdline ++ " " ++ suffix))

/-- the flags whose values name files that are unpacked elsewhere -/
def maskedNames : List String := ["--kernel", "--ramdisk", "--second", "--dtb"]

/-- `f"<{name[2:]}>"` -/
def placeholder (name : String) : String := String.ofList ('<' :: name.toList.drop 2 ++ ['>'])

def maskArgument (normalized : List String) (name : String) : Except Exn (List String) :=
  match normalized.idxOf? name with
  | none => .ok normalized
  | some index => setItem normalized (index + 1) (placeholder name)

def normalizedArguments (arguments : List String) : Except Exn (List String) :=
  maskedNames.foldlM maskArgument arguments

/-- `if ramdisk:` -/
def replaceRamdisk (arguments : List String) (ramdisk : Option PosixPath) :
    Except Exn (List String) :=
  match ramdisk with
  | none => .ok arguments
  | some ramdisk => replaceArgument arguments "--ramdisk" ramdisk

/-- `if options.append_cmdline:`, which is false of an empty text -/
def appendOption (arguments : List String) (option : Option String) : Except Exn (List String) :=
  match option with
  | none => .ok arguments
  | some suffix => if suffix = "" then .ok arguments else appendCmdline arguments suffix

/-- The arguments of the custom image. -/
def customArguments (stock : List String) (kernel : PosixPath) (ramdisk : Option PosixPath)
    (option : Option String) : Except Exn (List String) := do
  let custom ← replaceArgument stock "--kernel" kernel
  let custom ← replaceRamdisk custom ramdisk
  appendOption custom option

/-! ## flags and values -/

/-- The flags that the script looks for. -/
def soughtFlags : List String := "--cmdline" :: maskedNames

/-- No value is a flag that the script looks for. -/
def Plain (pairs : List (String × String)) : Prop := ∀ p ∈ pairs, p.2 ∉ soughtFlags

instance (pairs : List (String × String)) : Decidable (Plain pairs) := List.decidableBAll _ pairs

/-- Distinct flags, each with its value. -/
structure Arguments where
  pairs : List (String × String)
  distinct : (pairs.map Prod.fst).Nodup
  plain : Plain pairs

variable {pairs : List (String × String)} {name flag value suffix : String} {path : PosixPath}

theorem Plain.notValue (h : Plain pairs) (hname : name ∈ soughtFlags) : NotValue name pairs := by
  intro p hp e
  exact h p hp (e ▸ hname)

theorem Plain.assign (h : Plain pairs) (hvalue : value ∉ soughtFlags) :
    Plain (assign flag value pairs) := by
  intro p hp
  cases mem_assign hp with
  | inl hp => exact h p hp
  | inr hp => rwa [hp]

/-- a path text begins with a slash and no flag does -/
theorem str_not_mem_soughtFlags (path : ResolvedPath) : path.path.str ∉ soughtFlags := by
  have hhead : ∀ flag ∈ soughtFlags, flag.toList.head? ≠ some '/' := by decide
  intro h
  exact hhead _ h (PosixPath.head_str path.absolute)

theorem placeholder_not_mem : ∀ name ∈ maskedNames, placeholder name ∉ soughtFlags := by decide

theorem maskedNames_subset (h : name ∈ maskedNames) : name ∈ soughtFlags :=
  List.mem_cons_of_mem _ h

/-! ## the edits on flags and values -/

theorem replaceArgument_flat (h : NotValue name pairs) (hname : name ∈ pairs.map Prod.fst) :
    replaceArgument (flat pairs) name path = .ok (flat (assign name path.str pairs)) := by
  obtain ⟨i, hi, hlt, -, hset⟩ := exists_index h hname
  rw [replaceArgument, hi, require, ok_bind, setItem_of_lt hlt, hset]

/-- The suffixes that are appended. -/
def AcceptedSuffix (suffix : String) : Prop :=
  suffix ≠ "" ∧ ∀ c ∈ suffix.toList, c ∉ ['\r', '\n', '\x00']

instance (suffix : String) : Decidable (AcceptedSuffix suffix) :=
  @instDecidableAnd _ _ _ (List.decidableBAll _ suffix.toList)

theorem not_invalid_iff :
    ¬ (suffix = "" ∨ suffix.toList.any fun character => character ∈ ['\r', '\n', '\x00']) ↔
      AcceptedSuffix suffix := by
  rw [not_or, Bool.not_eq_true, List.any_eq_false]
  refine and_congr_right fun _ => forall_congr' fun c => forall_congr' fun _ => ?_
  rw [decide_eq_true_iff]

theorem appendCmdline_flat (hs : AcceptedSuffix suffix) (h : NotValue "--cmdline" pairs) {old : String}
    (hold : pairs.lookup "--cmdline" = some old) :
    appendCmdline (flat pairs) suffix
      = .ok (flat (assign "--cmdline" (strip (old ++ " " ++ suffix)) pairs)) := by
  have hname : "--cmdline" ∈ pairs.map Prod.fst := by
    rw [← lookup_isSome, hold]
    rfl
  obtain ⟨i, hi, hlt, hget, hset⟩ := exists_index h hname
  rw [appendCmdline, raiseIf_neg (not_invalid_iff.mpr hs), ok_bind, hi, require, ok_bind, hget, hold,
    require, ok_bind, setItem_of_lt hlt, hset]

/-- No value is a flag that is masked. -/
def Unmasked (pairs : List (String × String)) : Prop := ∀ name ∈ maskedNames, NotValue name pairs

theorem Plain.unmasked (h : Plain pairs) : Unmasked pairs :=
  fun _ hname => h.notValue (maskedNames_subset hname)

theorem maskArgument_flat (h : NotValue name pairs) :
    maskArgument (flat pairs) name = .ok (flat (assign name (placeholder name) pairs)) := by
  by_cases hname : name ∈ pairs.map Prod.fst
  · obtain ⟨i, hi, hlt, -, hset⟩ := exists_index h hname
    rw [maskArgument, hi]
    show setItem (flat pairs) (2 * i + 1) (placeholder name) = _
    rw [setItem_of_lt hlt, hset]
  · have hnone : (flat pairs).idxOf? name = none := by
      rwa [List.idxOf?_eq_none_iff, mem_flat h]
    rw [maskArgument, hnone, assign_of_not_mem hname]

/-- **Normalising masks the values of four flags.** -/
theorem normalizedArguments_flat (h : Unmasked pairs) :
    normalizedArguments (flat pairs) = .ok (flat (mask placeholder maskedNames pairs)) := by
  have step : ∀ names, names ⊆ maskedNames → ∀ pairs, Unmasked pairs →
      names.foldlM maskArgument (flat pairs) = .ok (flat (mask placeholder names pairs)) := by
    intro names
    induction names with
    | nil => exact fun _ pairs _ => rfl
    | cons name names ih =>
      intro hsub pairs h
      obtain ⟨hname, hnames⟩ := List.cons_subset.mp hsub
      have hmasked : Unmasked (assign name (placeholder name) pairs) := by
        intro other hother
        refine (h other hother).assign fun e => placeholder_not_mem name hname ?_
        rw [e]
        exact maskedNames_subset hother
      rw [List.foldlM_cons, maskArgument_flat (h name hname), ok_bind, ih hnames _ hmasked, mask_cons]
  exact step maskedNames (List.Subset.refl _) pairs h

theorem Plain.mask (h : Plain pairs) : Plain (mask placeholder maskedNames pairs) := by
  have step : ∀ names, names ⊆ maskedNames → ∀ pairs, Plain pairs →
      Plain (Pairs.mask placeholder names pairs) := by
    intro names
    induction names with
    | nil => exact fun _ _ h => h
    | cons name names ih =>
      intro hsub pairs h
      obtain ⟨hname, hnames⟩ := List.cons_subset.mp hsub
      exact ih hnames _ (h.assign (placeholder_not_mem name hname))
  exact step maskedNames (List.Subset.refl _) pairs h

/-! ## the custom arguments -/

/-- The suffix that is appended, if any. -/
def givenSuffix (option : Option String) : Option String := option.filter fun suffix => suffix ≠ ""

def assignRamdisk (pairs : List (String × String)) (ramdisk : Option PosixPath) :
    List (String × String) :=
  match ramdisk with
  | none => pairs
  | some ramdisk => assign "--ramdisk" ramdisk.str pairs

def assignCmdline (pairs : List (String × String)) (option : Option String) :
    List (String × String) :=
  match givenSuffix option with
  | none => pairs
  | some suffix =>
    let cmdline := (pairs.lookup "--cmdline").getD ""
    assign "--cmdline" (strip (cmdline ++ " " ++ suffix)) pairs

/-- The custom arguments, as flags and values. -/
def customPairs (stock : List (String × String)) (kernel : PosixPath) (ramdisk : Option PosixPath)
    (option : Option String) : List (String × String) :=
  assignCmdline (assignRamdisk (assign "--kernel" kernel.str stock) ramdisk) option

section
variable {ramdisk : Option PosixPath} {option : Option String}

theorem map_fst_assignRamdisk : (assignRamdisk pairs ramdisk).map Prod.fst = pairs.map Prod.fst := by
  cases ramdisk with
  | none => rfl
  | some ramdisk => exact map_fst_assign _ _ _

theorem map_fst_assignCmdline : (assignCmdline pairs option).map Prod.fst = pairs.map Prod.fst := by
  unfold assignCmdline
  cases givenSuffix option with
  | none => rfl
  | some suffix => exact map_fst_assign _ _ _

theorem map_fst_customPairs {kernel : PosixPath} :
    (customPairs pairs kernel ramdisk option).map Prod.fst = pairs.map Prod.fst := by
  rw [customPairs, map_fst_assignCmdline, map_fst_assignRamdisk, map_fst_assign]

theorem lookup_assignRamdisk_ne (h : ramdisk.isSome → flag ≠ "--ramdisk") :
    (assignRamdisk pairs ramdisk).lookup flag = pairs.lookup flag := by
  cases ramdisk with
  | none => rfl
  | some ramdisk => exact lookup_assign_ne (h rfl)

theorem lookup_assignCmdline_ne (h : (givenSuffix option).isSome → flag ≠ "--cmdline") :
    (assignCmdline pairs option).lookup flag = pairs.lookup flag := by
  unfold assignCmdline
  cases hg : givenSuffix option with
  | none => rfl
  | some suffix =>
    rw [hg] at h
    exact lookup_assign_ne (h rfl)

theorem lookup_customPairs_ne {kernel : PosixPath} (hk : flag ≠ "--kernel")
    (hr : ramdisk.isSome → flag ≠ "--ramdisk") (hc : flag ≠ "--cmdline") :
    (customPairs pairs kernel ramdisk option).lookup flag = pairs.lookup flag := by
  rw [customPairs, lookup_assignCmdline_ne fun _ => hc, lookup_assignRamdisk_ne hr,
    lookup_assign_ne hk]

theorem appendOption_eq (arguments : List String) (option : Option String) :
    appendOption arguments option
      = match givenSuffix option with
        | none => .ok arguments
        | some suffix => appendCmdline arguments suffix := by
  cases option with
  | none => rfl
  | some suffix =>
    rw [appendOption, givenSuffix]
    by_cases h : suffix = ""
    · rw [if_pos h, Option.filter_some, if_neg (by simpa using h)]
    · rw [if_neg h, Option.filter_some, if_pos (by simpa using h)]

end

section
variable {kernel : ResolvedPath} {ramdisk : Option ResolvedPath} {option : Option String}

theorem replaceRamdisk_flat (h : Plain pairs)
    (hramdisk : ramdisk.isSome → "--ramdisk" ∈ pairs.map Prod.fst) :
    replaceRamdisk (flat pairs) (ramdisk.map ResolvedPath.path)
      = .ok (flat (assignRamdisk pairs (ramdisk.map ResolvedPath.path))) := by
  cases ramdisk with
  | none => rfl
  | some ramdisk => exact replaceArgument_flat (h.notValue (by decide)) (hramdisk rfl)

theorem Plain.assignRamdisk (h : Plain pairs) :
    Plain (assignRamdisk pairs (ramdisk.map ResolvedPath.path)) := by
  cases ramdisk with
  | none => exact h
  | some ramdisk => exact h.assign (str_not_mem_soughtFlags ramdisk)

theorem appendOption_flat (h : NotValue "--cmdline" pairs)
    (hcmdline : (givenSuffix option).isSome → "--cmdline" ∈ pairs.map Prod.fst)
    (hs : ∀ s ∈ givenSuffix option, AcceptedSuffix s) :
    appendOption (flat pairs) option = .ok (flat (assignCmdline pairs option)) := by
  rw [appendOption_eq, assignCmdline]
  cases hg : givenSuffix option with
  | none => rfl
  | some suffix =>
    rw [hg] at hcmdline hs
    obtain ⟨old, hold⟩ := Option.isSome_iff_exists.mp (lookup_isSome.mpr (hcmdline rfl))
    dsimp only
    rw [appendCmdline_flat (hs suffix rfl) h hold, hold, Option.getD_some]

/-- **The edits go through where the flags are there and the suffix is accepted.** -/
theorem customArguments_flat (h : Plain pairs) (hkernel : "--kernel" ∈ pairs.map Prod.fst)
    (hramdisk : ramdisk.isSome → "--ramdisk" ∈ pairs.map Prod.fst)
    (hcmdline : (givenSuffix option).isSome → "--cmdline" ∈ pairs.map Prod.fst)
    (hs : ∀ s ∈ givenSuffix option, AcceptedSuffix s) :
    customArguments (flat pairs) kernel.path (ramdisk.map ResolvedPath.path) option
      = .ok (flat (customPairs pairs kernel.path (ramdisk.map ResolvedPath.path) option)) := by
  have hk : Plain (assign "--kernel" kernel.path.str pairs) :=
    h.assign (str_not_mem_soughtFlags kernel)
  have hr : Plain (assignRamdisk _ (ramdisk.map ResolvedPath.path)) := hk.assignRamdisk
  rw [customArguments, replaceArgument_flat (h.notValue (by decide)) hkernel, ok_bind,
    replaceRamdisk_flat hk (by rwa [map_fst_assign]), ok_bind,
    appendOption_flat (hr.notValue (by decide)) (by rwa [map_fst_assignRamdisk, map_fst_assign]) hs]
  rfl

end

/-! ## the edits on list objects -/

namespace InPlace

open Objects

def replaceArgument (arguments : Ref) (name : String) (value : PosixPath) (heap : Heap String) :
    Except Exn (Ref × Heap String) := do
  let (updated, heap) := copy heap arguments
  let index ← require ((load heap updated).idxOf? name)
    (.runtimeError s!"missing {name} in unpacked mkbootimg arguments")
  let heap ← Objects.setItem heap updated (index + 1) value.str
  return (updated, heap)

def appendCmdline (arguments : Ref) (suffix : String) (heap : Heap String) :
    Except Exn (Ref × Heap String) := do
  raiseIf (suffix = "" ∨ suffix.toList.any fun character => character ∈ ['\r', '\n', '\x00'])
    (.runtimeError "invalid boot command-line suffix")
  let (updated, heap) := copy heap arguments
  let index ← require ((load heap updated).idxOf? "--cmdline")
    (.runtimeError "missing --cmdline in unpacked arguments")
  let cmdline ← require (load heap updated)[index + 1]? .indexError
  let heap ← Objects.setItem heap updated (index + 1) (strip (cmdline ++ " " ++ suffix))
  return (updated, heap)

def maskArgument (normalized : Ref) (heap : Heap String) (name : String) :
    Except Exn (Heap String) :=
  match (load heap normalized).idxOf? name with
  | none => .ok heap
  | some index => Objects.setItem heap normalized (index + 1) (placeholder name)

def normalizedArguments (arguments : Ref) (heap : Heap String) : Except Exn (Ref × Heap String) := do
  let (normalized, heap) := copy heap arguments
  let heap ← maskedNames.foldlM (maskArgument normalized) heap
  return (normalized, heap)

def replaceRamdisk (arguments : Ref) (ramdisk : Option PosixPath) (heap : Heap String) :
    Except Exn (Ref × Heap String) :=
  match ramdisk with
  | none => .ok (arguments, heap)
  | some ramdisk => replaceArgument arguments "--ramdisk" ramdisk heap

def appendOption (arguments : Ref) (option : Option String) (heap : Heap String) :
    Except Exn (Ref × Heap String) :=
  match option with
  | none => .ok (arguments, heap)
  | some suffix => if suffix = "" then .ok (arguments, heap) else appendCmdline arguments suffix heap

def customArguments (stock : Ref) (kernel : PosixPath) (ramdisk : Option PosixPath)
    (option : Option String) (heap : Heap String) : Except Exn (Ref × Heap String) := do
  let (custom, heap) ← replaceArgument stock "--kernel" kernel heap
  let (custom, heap) ← replaceRamdisk custom ramdisk heap
  appendOption custom option heap

/-- What is made of a list in a new object. -/
def fresh (heap : Heap String) (made : Except Exn (List String)) : Except Exn (Ref × Heap String) :=
  made.map fun items => (heap.length, heap ++ [items])

variable {heap : Heap String} {arguments : Ref}

theorem replaceArgument_eq : replaceArgument arguments name path heap
    = fresh heap (Boot.replaceArgument (load heap arguments) name path) := by
  rw [replaceArgument, copy, Boot.replaceArgument]
  dsimp only
  rw [load_last]
  cases (load heap arguments).idxOf? name with
  | none => rfl
  | some index =>
    rw [require, ok_bind, ok_bind, setItem_append]
    cases Py.setItem (load heap arguments) (index + 1) path.str with
    | error e => rfl
    | ok items => rfl

theorem appendCmdline_eq : appendCmdline arguments suffix heap
    = fresh heap (Boot.appendCmdline (load heap arguments) suffix) := by
  rw [appendCmdline, copy, Boot.appendCmdline]
  dsimp only
  rw [load_last]
  by_cases h : AcceptedSuffix suffix
  · rw [raiseIf_neg (not_invalid_iff.mpr h), ok_bind, ok_bind]
    cases (load heap arguments).idxOf? "--cmdline" with
    | none => rfl
    | some index =>
      rw [require, ok_bind, ok_bind]
      cases (load heap arguments)[index + 1]? with
      | none => rfl
      | some cmdline =>
        rw [require, ok_bind, ok_bind, setItem_append]
        cases Py.setItem (load heap arguments) (index + 1) (strip (cmdline ++ " " ++ suffix)) with
        | error e => rfl
        | ok items => rfl
  · rw [raiseIf, if_pos (Decidable.not_not.mp fun hn => h (not_invalid_iff.mp hn))]
    rfl

theorem maskArgument_eq (heap : Heap String) (items : List String) (name : String) :
    maskArgument heap.length (heap ++ [items]) name
      = (Boot.maskArgument items name).map fun items => heap ++ [items] := by
  rw [maskArgument, load_last, Boot.maskArgument]
  cases items.idxOf? name with
  | none => rfl
  | some index => exact setItem_append heap items (index + 1) (placeholder name)

theorem normalizedArguments_eq : normalizedArguments arguments heap
    = fresh heap (Boot.normalizedArguments (load heap arguments)) := by
  have loop : ∀ (names items : List String), names.foldlM (maskArgument heap.length) (heap ++ [items])
      = (names.foldlM Boot.maskArgument items).map fun items => heap ++ [items] := by
    intro names
    induction names with
    | nil => exact fun items => rfl
    | cons name names ih =>
      intro items
      rw [List.foldlM_cons, List.foldlM_cons, maskArgument_eq]
      cases Boot.maskArgument items name with
      | error e => rfl
      | ok items' => exact ih items'
  rw [normalizedArguments, copy, Boot.normalizedArguments]
  dsimp only
  rw [loop]
  cases maskedNames.foldlM Boot.maskArgument (load heap arguments) with
  | error e => rfl
  | ok items => rfl

/-- A call that leaves the objects it found and returns one that holds `items`. -/
def Returns (call : Except Exn (Ref × Heap String)) (heap : Heap String) (items : List String) :
    Prop :=
  ∃ r rest, call = .ok (r, heap ++ rest) ∧ load (heap ++ rest) r = items

theorem returns_fresh {made : Except Exn (List String)} {items : List String} (h : made = .ok items) :
    Returns (fresh heap made) heap items := by
  subst h
  exact ⟨heap.length, [items], rfl, load_last heap items⟩

theorem returns_self : Returns (.ok (arguments, heap)) heap (load heap arguments) :=
  ⟨arguments, [], by rw [List.append_nil], by rw [List.append_nil]⟩

theorem Returns.bind {call : Except Exn (Ref × Heap String)} {items items' : List String}
    {next : Ref × Heap String → Except Exn (Ref × Heap String)} (h : Returns call heap items)
    (hnext : ∀ r heap, load heap r = items → Returns (next (r, heap)) heap items') :
    Returns (call >>= next) heap items' := by
  obtain ⟨r, rest, rfl, hload⟩ := h
  obtain ⟨r', rest', hcall, hload'⟩ := hnext r (heap ++ rest) hload
  rw [List.append_assoc] at hcall hload'
  exact ⟨r', rest ++ rest', by rw [ok_bind, hcall], hload'⟩

/-- **On list objects the edits make the same list, in a new object.** -/
theorem returns_customArguments {kernel : PosixPath} {ramdisk : Option PosixPath}
    {option : Option String} {items : List String}
    (h : Boot.customArguments (load heap arguments) kernel ramdisk option = .ok items) :
    Returns (customArguments arguments kernel ramdisk option heap) heap items := by
  obtain ⟨first, hfirst, h⟩ := bind_eq_ok.mp h
  obtain ⟨second, hsecond, h⟩ := bind_eq_ok.mp h
  have hkernel : Returns (replaceArgument arguments "--kernel" kernel heap) heap first := by
    rw [replaceArgument_eq]
    exact returns_fresh hfirst
  refine hkernel.bind ?_
  intro r heap hr
  subst hr
  have hramdisk : Returns (replaceRamdisk r ramdisk heap) heap second := by
    cases ramdisk with
    | none =>
      cases hsecond
      exact returns_self
    | some ramdisk =>
      rw [replaceRamdisk, replaceArgument_eq]
      exact returns_fresh hsecond
  refine hramdisk.bind ?_
  intro r heap hr
  subst hr
  show Returns (appendOption r option heap) heap items
  cases option with
  | none =>
    cases h
    exact returns_self
  | some suffix =>
    rw [Boot.appendOption] at h
    rw [appendOption]
    by_cases hempty : suffix = ""
    · rw [if_pos hempty] at h ⊢
      cases h
      exact returns_self
    · rw [if_neg hempty] at h ⊢
      rw [appendCmdline_eq]
      exact returns_fresh h

end InPlace

/-! ## what the edits change -/

/-- Only what was asked for is different. -/
structure Edited (stock custom : List (String × String)) (kernel : PosixPath)
    (ramdisk : Option PosixPath) (option : Option String) : Prop where
  flags : custom.map Prod.fst = stock.map Prod.fst
  newKernel : custom.lookup "--kernel" = some kernel.str
  newRamdisk : ∀ path ∈ ramdisk, custom.lookup "--ramdisk" = some path.str
  newCmdline : ∀ suffix ∈ option, ∃ old new, stock.lookup "--cmdline" = some old ∧
    custom.lookup "--cmdline" = some new ∧ words new = words old ++ words suffix
  frame : ∀ flag, flag ≠ "--kernel" → (ramdisk.isSome → flag ≠ "--ramdisk") →
    (option.isSome → flag ≠ "--cmdline") → custom.lookup flag = stock.lookup flag

theorem givenSuffix_eq {option : Option String} (h : ∀ s ∈ option, AcceptedSuffix s) :
    givenSuffix option = option := by
  cases option with
  | none => rfl
  | some suffix =>
    have hne : suffix ≠ "" := (h suffix rfl).1
    rw [givenSuffix, Option.filter_some, if_pos (decide_eq_true hne)]

theorem edited_customPairs {kernel : PosixPath} {ramdisk : Option PosixPath} {option : Option String}
    (hflags : ∀ flag ∈ ["--kernel", "--ramdisk", "--cmdline"], flag ∈ pairs.map Prod.fst)
    (hs : ∀ s ∈ option, AcceptedSuffix s) :
    Edited pairs (customPairs pairs kernel ramdisk option) kernel ramdisk option := by
  have hkernel : "--kernel" ∈ pairs.map Prod.fst := hflags "--kernel" (by decide)
  have hramdisk : "--ramdisk" ∈ pairs.map Prod.fst := hflags "--ramdisk" (by decide)
  have hcmdline : "--cmdline" ∈ pairs.map Prod.fst := hflags "--cmdline" (by decide)
  have hgiven : givenSuffix option = option := givenSuffix_eq hs
  refine ⟨map_fst_customPairs, ?_, ?_, ?_, ?_⟩
  · rw [customPairs, lookup_assignCmdline_ne fun _ => by decide,
      lookup_assignRamdisk_ne fun _ => by decide, lookup_assign_self hkernel]
  · intro path hpath
    cases hpath
    rw [customPairs, lookup_assignCmdline_ne fun _ => by decide, assignRamdisk]
    exact lookup_assign_self (by rwa [map_fst_assign])
  · intro suffix hsuffix
    cases hsuffix
    obtain ⟨old, hold⟩ := Option.isSome_iff_exists.mp (lookup_isSome.mpr hcmdline)
    have hpaths : (assignRamdisk (assign "--kernel" kernel.str pairs) ramdisk).lookup "--cmdline"
        = some old := by
      rw [lookup_assignRamdisk_ne fun _ => by decide, lookup_assign_ne (by decide), hold]
    refine ⟨old, strip (old ++ " " ++ suffix), hold, ?_, ?_⟩
    · rw [customPairs, assignCmdline, hgiven]
      dsimp only
      rw [hpaths, Option.getD_some]
      exact lookup_assign_self (by rwa [map_fst_assignRamdisk, map_fst_assign])
    · rw [words_strip, words_append]
  · intro flag hk hr hc
    rw [customPairs, lookup_assignCmdline_ne (by rwa [hgiven]), lookup_assignRamdisk_ne hr,
      lookup_assign_ne hk]

/-- **The custom arguments differ from the stock arguments in what was asked for and in nothing
else, the stock list is not touched, and the normalised lists tell all other differences apart.** -/
theorem custom_arguments_exact {stock : Arguments} {kernel : ResolvedPath}
    {ramdisk : Option ResolvedPath} {option : Option String} {heap : Objects.Heap String}
    {r : Objects.Ref} (hr : r < heap.length) (hload : Objects.load heap r = flat stock.pairs)
    (hflags : ∀ flag ∈ ["--kernel", "--ramdisk", "--cmdline"], flag ∈ stock.pairs.map Prod.fst)
    (hs : ∀ s ∈ option, AcceptedSuffix s) :
    (∃ custom r' heap',
      InPlace.customArguments r kernel.path (ramdisk.map ResolvedPath.path) option heap
        = .ok (r', heap') ∧
      Objects.load heap' r' = flat custom ∧
      Edited stock.pairs custom kernel.path (ramdisk.map ResolvedPath.path) option ∧
      Objects.load heap' r = flat stock.pairs) ∧
    ∀ a b : Arguments, ∃ left right, normalizedArguments (flat a.pairs) = .ok left ∧
      normalizedArguments (flat b.pairs) = .ok right ∧
      (left = right ↔ a.pairs.map Prod.fst = b.pairs.map Prod.fst ∧
        ∀ flag, flag ∉ maskedNames → a.pairs.lookup flag = b.pairs.lookup flag) := by
  refine ⟨?_, ?_⟩
  · have hgiven : givenSuffix option = option := givenSuffix_eq hs
    have hcustom : customArguments (flat stock.pairs) kernel.path (ramdisk.map ResolvedPath.path)
        option = _ :=
      customArguments_flat stock.plain (hflags "--kernel" (by decide))
        (fun _ => hflags "--ramdisk" (by decide)) (fun _ => hflags "--cmdline" (by decide))
        (by rwa [hgiven])
    rw [← hload] at hcustom
    obtain ⟨r', rest, hcall, hitems⟩ := InPlace.returns_customArguments hcustom
    refine ⟨_, r', heap ++ rest, hcall, hitems, edited_customPairs hflags hs, ?_⟩
    rw [Objects.load_append hr, hload]
  · intro a b
    refine ⟨_, _, normalizedArguments_flat a.plain.unmasked,
      normalizedArguments_flat b.plain.unmasked, ?_⟩
    rw [flat_injective.eq_iff, mask_eq_iff a.distinct]

/-- Arguments as they are unpacked, with a blank in front of the command line. -/
def sampleArguments : Arguments where
  pairs := [("--cmdline", " console=tty0"), ("--kernel", "stock/kernel"),
    ("--ramdisk", "stock/ramdisk"), ("--dtb", "stock/dtb")]
  distinct := by decide
  plain := by decide

def sampleKernel : ResolvedPath := ⟨PosixPath.parse "/Image.gz", by decide⟩

theorem custom_arguments_exact_sample :
    ∃ custom r' heap',
      InPlace.customArguments 0 sampleKernel.path none (some "quiet") [flat sampleArguments.pairs]
        = .ok (r', heap') ∧
      Objects.load heap' r' = flat custom ∧
      Edited sampleArguments.pairs custom sampleKernel.path none (some "quiet") ∧
      Objects.load heap' 0 = flat sampleArguments.pairs := by
  have hs : ∀ s ∈ some "quiet", AcceptedSuffix s := by
    intro s h
    cases h
    decide
  have hflags : ∀ flag ∈ ["--kernel", "--ramdisk", "--cmdline"],
      flag ∈ sampleArguments.pairs.map Prod.fst := by decide
  have hr : 0 < [flat sampleArguments.pairs].length := Nat.zero_lt_one
  have h := @custom_arguments_exact sampleArguments sampleKernel none (some "quiet")
    [flat sampleArguments.pairs] 0 hr rfl hflags hs
  exact h.1

end RT7.Boot
