import RT7.Capture.Table
import RT7.Capture.Content
import RT7.Gpt.Pair

/-!
# One read pass: `validate_capture_pass`

* `PassDir`         a directory of regular files;
* `validateCapturePass`   the function: failures are collected in order, then raised together;
* `PassOk`          what makes a pass acceptable, check by check;
* `validateCapturePass_eq_ok`   the function returns exactly on acceptable passes;
* `validateCapturePass_raises`  every other pass is refused with `SystemExit`: the assertion is
  never reached.
-/

namespace RT7.Capture

open Py Gpt

/-- The regular files of a directory, by name. -/
abbrev PassDir := Dict String Bytes

/-- `directory.glob("*.bin")`, the names only -/
def glob (directory : PassDir) : List String :=
  directory.keys.filter fun name => ".bin".toList.isSuffixOf name.toList

/-- `required_magic`; the keys are partition names -/
def requiredMagic : List (String × Bytes) :=
  [("boot_a", [0x41, 0x4E, 0x44, 0x52, 0x4F, 0x49, 0x44, 0x21]),
    ("dtbo_a", [0xD7, 0xB7, 0xAB, 0x1E]), ("vbmeta_a", [0x41, 0x56, 0x42, 0x30]),
    ("vbmeta_system_a", [0x41, 0x56, 0x42, 0x30]), ("vbmeta_vendor_a", [0x41, 0x56, 0x42, 0x30])]

/-- the images that must not be one repeated byte -/
def scannedNames : List String := ["lk_a", "tee_a", "seccfg", "preloader_lu0", "preloader_lu1"]

/-- `sorted(names - others)` -/
def difference (names others : List String) : List String :=
  sorted (names.filter fun name => name ∉ others)

section
variable (passName : String) (directory : PassDir)

def sizeFailure (item : String × Nat) : Option String :=
  let name := binName item.1
  let size := item.2
  match directory.get? name with
  | none => none
  | some content =>
    if content.length ≠ size then
      some s!"wrong size for {passName}/{name}: {content.length}, expected {size}"
    else none

def gptFailure (gpt : ParsedGpt) (item : String × Nat) : Option String :=
  let name := item.1
  let expectedSize := item.2
  match gpt.partitions.get? name with
  | none => some s!"GPT is missing required partition {name}"
  | some partition =>
    if partition.size ≠ expectedSize then
      some s!"GPT size for {name} is {partition.size}, expected {expectedSize}"
    else none

def magicFailure (item : String × Bytes) : Option String :=
  let name := binName item.1
  let magic := item.2
  match directory.get? name with
  | none => none
  | some content =>
    if content.take magic.length ≠ magic then some s!"{passName}/{name} has invalid magic" else none

def uniformFailure (item : String) : Option String :=
  let name := binName item
  match directory.get? name with
  | none => none
  | some content =>
    if hasNonuniformContent content = false then some s!"{passName}/{name} contains one repeated byte"
    else none

end

section
variable (crc32 : Bytes → UInt32)

/-- The GPT of the pass, if both spans are there and agree, and the failure of the parse. -/
def parseCaptured (directory : PassDir) : Except Exn (Option ParsedGpt × List String) :=
  match directory.get? "gpt.bin", directory.get? "gpt_backup.bin" with
  | some primary, some backup =>
    match parseGptPair crc32 primary backup with
    | .ok gpt => .ok (some gpt, [])
    | .error (.valueError message) => .ok (none, [message])
    | .error e => .error e
  | _, _ => .ok (none, [])

/-- everything that `validate_capture_pass` appends to `failures` -/
def collectFailures (table : Dict String Nat) (passName : String) (directory : PassDir)
    (parsed : Option ParsedGpt × List String) : List String :=
  let expectedNames := expectedNames table
  let actualNames := glob directory
  ((difference expectedNames actualNames).map fun name => s!"missing {passName}/{name}") ++
  ((difference actualNames expectedNames).map fun name =>
    s!"unexpected private artifact {passName}/{name}") ++
  (fixedSizes table).items.filterMap (sizeFailure passName directory) ++
  parsed.2 ++
  parsed.1.elim [] (fun gpt => table.items.filterMap (gptFailure gpt)) ++
  requiredMagic.filterMap (magicFailure passName directory) ++
  scannedNames.filterMap (uniformFailure passName directory)

def validateCapturePass (table : Dict String Nat) (passName : String) (directory : PassDir) :
    Except Exn ParsedGpt := do
  let parsed ← parseCaptured crc32 directory
  let failures := collectFailures table passName directory parsed
  raiseIf (failures ≠ [])
    (.systemExit ("Capture validation failed:\n- " ++ String.intercalate "\n- " failures))
  match parsed.1 with
  | none => .error .assertionError
  | some gpt => .ok gpt

end

/-! ## what a pass must hold -/

/-- The directory holds the image of that name, with a content that satisfies `P`. -/
def Holds (directory : PassDir) (name : String) (P : Bytes → Prop) : Prop :=
  ∃ content, directory.get? (binName name) = some content ∧ P content

/-- The pass is complete, every image is plausible, and its GPT is `gpt`. -/
structure PassOk (crc32 : Bytes → UInt32) (directory : PassDir) (gpt : ParsedGpt) : Prop where
  names : ∀ name, name ∈ glob directory ↔ ∃ a ∈ partitions.artifacts, binName a = name
  sizes : ∀ item ∈ partitions.sizes.items, Holds directory item.1 fun c => c.length = item.2
  preloaders : ∀ name ∈ ["preloader_lu0", "preloader_lu1"],
    Holds directory name fun c => c.length = 0x80000
  parsed : ∃ primary backup, directory.get? "gpt.bin" = some primary ∧
    directory.get? "gpt_backup.bin" = some backup ∧ parseGptPair crc32 primary backup = .ok gpt
  listed : ∀ item ∈ partitions.sizes.items,
    ∃ partition, gpt.partitions.get? item.1 = some partition ∧ partition.size = item.2
  magic : ∀ item ∈ requiredMagic, Holds directory item.1 fun c => item.2 <+: c
  nonuniform : ∀ name ∈ scannedNames, Holds directory name fun c => ∃ a ∈ c, ∃ b ∈ c, a ≠ b

/-! ## no failure -/

section
variable {passName : String} {directory : PassDir}

theorem mem_glob {name : String} :
    name ∈ glob directory ↔ name ∈ directory.keys ∧ ".bin".toList <:+ name.toList := by
  rw [glob, List.mem_filter, List.isSuffixOf_iff_suffix]

theorem suffix_binName (name : String) : ".bin".toList <:+ (binName name).toList := by
  rw [toList_binName]
  exact List.suffix_append _ _

/-- an image that the scan of the directory finds is there -/
theorem binName_mem_glob {name : String} :
    binName name ∈ glob directory ↔ ∃ content, directory.get? (binName name) = some content := by
  rw [mem_glob, and_iff_left (suffix_binName name), ← Dict.get?_isSome, Option.isSome_iff_exists]

theorem difference_eq_nil {names others : List String} :
    difference names others = [] ↔ ∀ name ∈ names, name ∈ others := by
  have hlen : difference names others = [] ↔ names.filter (fun name => name ∉ others) = [] := by
    rw [← List.length_eq_zero_iff, difference, (sorted_perm _).length_eq, List.length_eq_zero_iff]
  rw [hlen, List.filter_eq_nil_iff]
  simp

theorem sizeFailure_eq_none {item : String × Nat} :
    sizeFailure passName directory item = none ↔
      ∀ c, directory.get? (binName item.1) = some c → c.length = item.2 := by
  unfold sizeFailure
  dsimp only
  cases directory.get? (binName item.1) with
  | none => simp
  | some content => simp

theorem gptFailure_eq_none {gpt : ParsedGpt} {item : String × Nat} :
    gptFailure gpt item = none ↔
      ∃ partition, gpt.partitions.get? item.1 = some partition ∧ partition.size = item.2 := by
  unfold gptFailure
  dsimp only
  cases gpt.partitions.get? item.1 with
  | none => simp
  | some partition => simp

theorem magicFailure_eq_none {item : String × Bytes} :
    magicFailure passName directory item = none ↔
      ∀ c, directory.get? (binName item.1) = some c → item.2 <+: c := by
  unfold magicFailure
  dsimp only
  cases directory.get? (binName item.1) with
  | none => simp
  | some content => simp [List.prefix_iff_eq_take, eq_comm]

theorem uniformFailure_eq_none {name : String} :
    uniformFailure passName directory name = none ↔
      ∀ c, directory.get? (binName name) = some c → ∃ a ∈ c, ∃ b ∈ c, a ≠ b := by
  unfold uniformFailure
  dsimp only
  cases directory.get? (binName name) with
  | none => simp
  | some content => simp [← hasNonuniformContent_iff]

/-- when the image is there, a check of its content is a property it has -/
theorem holds_iff {name : String} {P : Bytes → Prop}
    (h : ∃ content, directory.get? (binName name) = some content) :
    Holds directory name P ↔ ∀ c, directory.get? (binName name) = some c → P c := by
  obtain ⟨content, hc⟩ := h
  unfold Holds
  rw [hc]
  simp

end

/-! ## the function -/

section
variable {crc32 : Bytes → UInt32} {passName : String} {directory : PassDir} {gpt : ParsedGpt}

/-- The three ways in which the two spans are read; no other exception comes out of the parse. -/
theorem parseCaptured_cases (crc32 : Bytes → UInt32) (directory : PassDir) :
    (∃ gpt, parseCaptured crc32 directory = .ok (some gpt, []) ∧
      ∃ primary backup, directory.get? "gpt.bin" = some primary ∧
        directory.get? "gpt_backup.bin" = some backup ∧
        parseGptPair crc32 primary backup = .ok gpt) ∨
    (∃ message, parseCaptured crc32 directory = .ok (none, [message]) ∧
      ∀ primary backup, directory.get? "gpt.bin" = some primary →
        directory.get? "gpt_backup.bin" = some backup →
        parseGptPair crc32 primary backup = .error (.valueError message)) ∨
    (parseCaptured crc32 directory = .ok (none, []) ∧
      (directory.get? "gpt.bin" = none ∨ directory.get? "gpt_backup.bin" = none)) := by
  unfold parseCaptured
  cases hp : directory.get? "gpt.bin" with
  | none => exact .inr (.inr ⟨rfl, .inl rfl⟩)
  | some primary => cases hb : directory.get? "gpt_backup.bin" with
    | none => exact .inr (.inr ⟨rfl, .inr rfl⟩)
    | some backup => cases hrun : parseGptPair crc32 primary backup with
      | ok gpt =>
        refine .inl ⟨gpt, ?_, primary, backup, rfl, rfl, hrun⟩
        simp only [hrun]
      | error e =>
        obtain ⟨message, rfl⟩ := parseGptPair_raises primary backup e hrun
        refine .inr (.inl ⟨message, ?_, ?_⟩)
        · simp only [hrun]
        · rintro _ _ ⟨rfl⟩ ⟨rfl⟩
          exact hrun

/-- with the names right, every artifact is there -/
theorem present (h : ∀ name, name ∈ glob directory ↔ ∃ a ∈ partitions.artifacts, binName a = name)
    {a : String} (ha : a ∈ partitions.artifacts) :
    ∃ content, directory.get? (binName a) = some content :=
  binName_mem_glob.mp ((h _).mpr ⟨a, ha, rfl⟩)

theorem mem_artifacts_of_item {item : String × Nat} (h : item ∈ partitions.sizes.items) :
    item.1 ∈ partitions.artifacts := by
  refine List.mem_append_left _ (List.mem_append_right _ ?_)
  exact List.mem_map_of_mem h

theorem mem_artifacts_of_magic : ∀ item ∈ requiredMagic, item.1 ∈ partitions.artifacts := by decide

theorem mem_artifacts_of_scanned : ∀ name ∈ scannedNames, name ∈ partitions.artifacts := by decide

theorem mem_artifacts_of_preloader :
    ∀ name ∈ ["preloader_lu0", "preloader_lu1"], name ∈ partitions.artifacts := by decide

/-- no failure is collected exactly when every check of `PassOk` holds -/
theorem collectFailures_eq_nil
    (hparsed : ∃ primary backup, directory.get? "gpt.bin" = some primary ∧
      directory.get? "gpt_backup.bin" = some backup ∧
      parseGptPair crc32 primary backup = .ok gpt) :
    collectFailures partitions.sizes passName directory (some gpt, []) = [] ↔
      PassOk crc32 directory gpt := by
  have hnames : (∀ name ∈ expectedNames partitions.sizes, name ∈ glob directory) ∧
      (∀ name ∈ glob directory, name ∈ expectedNames partitions.sizes) ↔
      ∀ name, name ∈ glob directory ↔ ∃ a ∈ partitions.artifacts, binName a = name := by
    rw [← forall_and]
    refine forall_congr' fun name => ?_
    rw [← partitions.mem_expectedNames]
    tauto
  unfold collectFailures
  simp only [List.append_eq_nil_iff, List.map_eq_nil_iff, difference_eq_nil,
    List.filterMap_eq_nil_iff, Option.elim_some, sizeFailure_eq_none, gptFailure_eq_none,
    magicFailure_eq_none, uniformFailure_eq_none, Table.items_fixedSizes, List.forall_mem_append]
  rw [hnames]
  constructor
  · rintro ⟨⟨⟨⟨⟨hn, hsizes, hpre⟩, -⟩, hlisted⟩, hmagic⟩, hscan⟩
    refine ⟨hn, ?_, ?_, hparsed, hlisted, ?_, ?_⟩
    · intro item hi
      exact (holds_iff (present hn (mem_artifacts_of_item hi))).mpr (hsizes item hi)
    · intro name hname
      refine (holds_iff (present hn (mem_artifacts_of_preloader name hname))).mpr ?_
      exact hpre (name, 0x80000) (by simpa using hname)
    · intro item hi
      exact (holds_iff (present hn (mem_artifacts_of_magic item hi))).mpr (hmagic item hi)
    · intro name hname
      exact (holds_iff (present hn (mem_artifacts_of_scanned name hname))).mpr (hscan name hname)
  · intro H
    have hn := H.names
    refine ⟨⟨⟨⟨⟨hn, ?_, ?_⟩, trivial⟩, H.listed⟩, ?_⟩, ?_⟩
    · intro item hi
      exact (holds_iff (present hn (mem_artifacts_of_item hi))).mp (H.sizes item hi)
    · intro item hi
      have hitem : item.1 ∈ ["preloader_lu0", "preloader_lu1"] ∧ item.2 = 0x80000 := by
        rcases List.mem_cons.mp hi with rfl | hi
        · decide
        · rw [List.mem_singleton.mp hi]
          decide
      rw [hitem.2]
      exact (holds_iff (present hn (mem_artifacts_of_preloader _ hitem.1))).mp
        (H.preloaders _ hitem.1)
    · intro item hi
      exact (holds_iff (present hn (mem_artifacts_of_magic item hi))).mp (H.magic item hi)
    · intro name hname
      exact (holds_iff (present hn (mem_artifacts_of_scanned name hname))).mp
        (H.nonuniform name hname)

/-- **A pass is accepted exactly when it is complete and plausible.** -/
theorem validateCapturePass_eq_ok :
    validateCapturePass crc32 partitions.sizes passName directory = .ok gpt ↔
      PassOk crc32 directory gpt := by
  unfold validateCapturePass
  rcases parseCaptured_cases crc32 directory with ⟨g, hrun, hspans⟩ | ⟨message, hrun, hspans⟩ |
    ⟨hrun, hmissing⟩
  · rw [hrun, ok_bind, raiseIf_bind_eq_ok, not_not, collectFailures_eq_nil hspans]
    constructor
    · rintro ⟨H, e⟩
      cases e
      exact H
    · intro H
      obtain ⟨primary, backup, hp, hb, hok⟩ := hspans
      obtain ⟨primary', backup', hp', hb', hok'⟩ := H.parsed
      cases hp.symm.trans hp'
      cases hb.symm.trans hb'
      cases hok.symm.trans hok'
      exact ⟨H, rfl⟩
  · rw [hrun, ok_bind, raiseIf_bind_eq_ok]
    constructor
    · rintro ⟨-, e⟩
      cases e
    · intro H
      obtain ⟨primary, backup, hp, hb, hok⟩ := H.parsed
      cases hok.symm.trans (hspans primary backup hp hb)
  · rw [hrun, ok_bind, raiseIf_bind_eq_ok]
    constructor
    · rintro ⟨-, e⟩
      cases e
    · intro H
      obtain ⟨primary, backup, hp, hb, -⟩ := H.parsed
      cases hmissing with
      | inl h => cases h.symm.trans hp
      | inr h => cases h.symm.trans hb

/-- **A pass that is not accepted ends the script**; the final assertion cannot fail. -/
theorem validateCapturePass_raises :
    RaisesOnly Exn.IsSystemExit
      (validateCapturePass crc32 partitions.sizes passName directory) := by
  unfold validateCapturePass
  rcases parseCaptured_cases crc32 directory with ⟨g, hrun, -⟩ | ⟨message, hrun, -⟩ |
    ⟨hrun, hmissing⟩
  · rw [hrun, ok_bind]
    exact .guard (fun _ => ⟨_, rfl⟩) fun _ => .ok g
  · rw [hrun, ok_bind]
    refine .guard (fun _ => ⟨_, rfl⟩) fun hnil => ?_
    refine absurd (not_not.mp hnil) ?_
    simp [collectFailures]
  · rw [hrun, ok_bind]
    refine .guard (fun _ => ⟨_, rfl⟩) fun hnil => ?_
    -- a span that is not there was reported as missing
    have hall : ∀ name ∈ expectedNames partitions.sizes, name ∈ glob directory := by
      have h := not_not.mp hnil
      simp only [collectFailures, List.append_eq_nil_iff, List.map_eq_nil_iff,
        difference_eq_nil] at h
      exact h.1.1.1.1.1.1
    have hspan : ∀ a ∈ ["gpt", "gpt_backup"], ∃ c, directory.get? (binName a) = some c := by
      intro a ha
      refine binName_mem_glob.mp (hall _ (partitions.mem_expectedNames.mpr ⟨a, ?_, rfl⟩))
      exact List.mem_append_left _ (List.mem_append_left _ ha)
    have e1 : binName "gpt" = "gpt.bin" := by decide
    have e2 : binName "gpt_backup" = "gpt_backup.bin" := by decide
    obtain ⟨primary, hp⟩ := hspan "gpt" (by decide)
    obtain ⟨backup, hb⟩ := hspan "gpt_backup" (by decide)
    rw [e1] at hp
    rw [e2] at hb
    cases hmissing with
    | inl h => cases h.symm.trans hp
    | inr h => cases h.symm.trans hb

end

end RT7.Capture
