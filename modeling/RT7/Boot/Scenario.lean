import RT7.Boot.Contents

/-!
# A run on a stock image of given contents

* `Scenario`        the inputs of a run, what the stock image holds and the custom image that is made;
* `Scenario.Runs`   the tools do that, and the custom image is unpacked as given contents;
* `normalized_eq_iff`   when the check of the header arguments passes;
* `Scenario.Runs.repack`    the run comes to its publication when the other checks pass too.
-/

namespace RT7.Boot

open Py Text Pairs

/-- The data of a run. -/
structure Scenario where
  inputs : Inputs
  option : Option String
  disk : Disk
  name : FileName
  boot : Bytes
  payloadSize : Nat
  avbInfo : String
  contents : Contents
  image : Bytes

namespace Scenario
variable (s : Scenario)

def temporary : PosixPath := s.inputs.output.path.parent / s.name.val

def stockPairs : List (String × String) := s.contents.arguments (stockParts s.temporary)

def customPairs : List (String × String) :=
  Boot.customPairs s.stockPairs s.inputs.kernel.path (s.inputs.ramdisk.map ResolvedPath.path) s.option

/-- with the unpacked stock components -/
def unpackedDisk : Disk := s.disk.writeFiles (stockParts s.temporary) s.contents.parts

/-- with the rebuilt stock payload -/
def stockDisk : Disk :=
  s.unpackedDisk.write (stockRoundtrip s.temporary) (s.boot.take s.payloadSize)

/-- with the custom image -/
def customDisk : Disk := s.stockDisk.write (customTemporary s.temporary) s.image

/-- with the unpacked custom components -/
def finalDisk (c : Contents) : Disk := s.customDisk.writeFiles (customParts s.temporary) c.parts

end Scenario

/-- What the tools and the system do in a run: the stock image is unpacked and rebuilt, the custom
image is made, and it is unpacked as `c`. -/
structure Scenario.Runs (host : Host) (s : Scenario) (c : Contents) : Prop where
  mkdir : host.mkdir s.inputs.output.path.parent = .ok ()
  mkdtemp : host.mkdtemp s.inputs.output.path.parent = .ok s.name
  fresh : ∀ path, s.temporary ∈ path.parents → s.disk path = none
  size : originalPayloadSize host.tools s.inputs.bootImage.path s.disk
    = .ok (s.payloadSize, s.avbInfo)
  boot : s.disk s.inputs.bootImage.path = some s.boot
  payload : s.payloadSize ≤ s.boot.length
  kernel : "--kernel" ∈ s.contents.items.map Prod.fst
  ramdisk : s.inputs.ramdisk.isSome → "--ramdisk" ∈ s.contents.items.map Prod.fst
  cmdline : (givenSuffix s.option).isSome → "--cmdline" ∈ s.contents.items.map Prod.fst
  suffix : ∀ suffix ∈ givenSuffix s.option, AcceptedSuffix suffix
  unpackStock : unpackArgs host.tools s.inputs.bootImage.path (stockParts s.temporary) s.disk
    = .ok (flat s.stockPairs, s.unpackedDisk)
  rebuilt : host.tools.mkbootimg (flat s.stockPairs) s.unpackedDisk
    = .ok (some (s.boot.take s.payloadSize))
  made : host.tools.mkbootimg (flat s.customPairs) s.stockDisk = .ok (some s.image)
  unpackCustom : unpackArgs host.tools (customTemporary s.temporary) (customParts s.temporary)
    s.customDisk = .ok (flat (c.arguments (customParts s.temporary)), s.finalDisk c)

/-- What such a run has when it comes to its publication. -/
def Scenario.repacked (s : Scenario) (c : Contents) (ramdisk : FileRecord) : Repacked where
  temporary := s.temporary
  payloadSize := s.payloadSize
  avbInfo := s.avbInfo
  stockArguments := flat s.stockPairs
  customArguments := flat s.customPairs
  unpackedArguments := flat (c.arguments (customParts s.temporary))
  disk := s.finalDisk c
  ramdisk := ramdisk
  image := s.image

/-! ## files in and beside the temporary directory -/

section
variable {s : Scenario} {c : Contents} {flag : String} {item : Item} {content : Bytes}
  {path : PosixPath} {host : Host}

/-- files outside the temporary directory keep their content -/
theorem stockDisk_outside (h : s.temporary ∉ path.parents) : s.stockDisk path = s.disk path := by
  have hroundtrip : path ≠ s.temporary / "stock-roundtrip.img" := by
    rintro rfl
    exact h (PosixPath.mem_parents_div (by decide))
  have hstock : ∀ file ∈ s.contents.parts, path ≠ stockParts s.temporary / file.1.val := by
    rintro file - rfl
    exact h (PosixPath.mem_parents_div_div (by decide) file.1.property)
  rw [Scenario.stockDisk, stockRoundtrip, write_ne hroundtrip, Scenario.unpackedDisk,
    writeFiles_of_not_mem hstock]

theorem finalDisk_outside (h : s.temporary ∉ path.parents) (c : Contents) :
    s.finalDisk c path = s.disk path := by
  have himage : path ≠ s.temporary / "custom-unsigned-do-not-flash.img" := by
    rintro rfl
    exact h (PosixPath.mem_parents_div (by decide))
  have hcustom : ∀ file ∈ c.parts, path ≠ customParts s.temporary / file.1.val := by
    rintro file - rfl
    exact h (PosixPath.mem_parents_div_div (by decide) file.1.property)
  rw [Scenario.finalDisk, writeFiles_of_not_mem hcustom, Scenario.customDisk, customTemporary,
    write_ne himage, stockDisk_outside h]

theorem Scenario.Runs.outside (h : s.Runs host c) (hpath : s.disk path ≠ none) :
    s.temporary ∉ path.parents := fun hmem => hpath (h.fresh path hmem)

/-- the stock components stay where they were unpacked -/
theorem stock_part (h : (flag, Item.file content) ∈ s.contents.items) :
    s.stockDisk (stockParts s.temporary / partName flag) = some content := by
  have hcomponent := component_partName flag (component_of_file h)
  have hne : stockParts s.temporary / partName flag ≠ stockRoundtrip s.temporary :=
    PosixPath.div_div_ne (by decide) hcomponent (by decide)
  rw [Scenario.stockDisk, write_ne hne, Scenario.unpackedDisk, parts_on_disk h]

theorem final_stock_part (hflag : flag ∈ componentFlags) (c : Contents) :
    s.finalDisk c (stockParts s.temporary / partName flag)
      = s.stockDisk (stockParts s.temporary / partName flag) := by
  have hcomponent := component_partName flag hflag
  have hparent : (stockParts s.temporary / partName flag).parent ≠ customParts s.temporary := by
    rw [PosixPath.parent_div hcomponent]
    intro e
    have hnames := ((PosixPath.div_inj (by decide) (by decide)).mp e).2
    exact absurd hnames (by decide)
  have hne : stockParts s.temporary / partName flag ≠ customTemporary s.temporary :=
    PosixPath.div_div_ne (by decide) hcomponent (by decide)
  rw [Scenario.finalDisk, writeFiles_of_parent_ne hparent, Scenario.customDisk, write_ne hne]

theorem final_image (c : Contents) :
    s.finalDisk c (customTemporary s.temporary) = some s.image := by
  have hparent : (customTemporary s.temporary).parent ≠ customParts s.temporary := by
    rw [customTemporary, PosixPath.parent_div (by decide)]
    exact (PosixPath.div_ne_self (by decide)).symm
  rw [Scenario.finalDisk, writeFiles_of_parent_ne hparent, Scenario.customDisk, write_self]

/-! ## the arguments of the custom image -/

theorem map_fst_scenario : s.customPairs.map Prod.fst = s.contents.items.map Prod.fst := by
  rw [Scenario.customPairs, map_fst_customPairs, Scenario.stockPairs, map_fst_arguments]

theorem distinct_scenario : (s.customPairs.map Prod.fst).Nodup := by
  rw [map_fst_scenario]
  exact s.contents.distinct

theorem lookup_scenario_ne (h : flag ∉ editedFlags) :
    s.customPairs.lookup flag = s.stockPairs.lookup flag := by
  have hne : flag ≠ "--kernel" ∧ flag ≠ "--ramdisk" ∧ flag ≠ "--cmdline" := by
    refine ⟨?_, ?_, ?_⟩
    · rintro rfl
      exact h (by decide)
    · rintro rfl
      exact h (by decide)
    · rintro rfl
      exact h (by decide)
  exact lookup_customPairs_ne hne.1 (fun _ => hne.2.1) hne.2.2

/-- the stock arguments name the stock components -/
theorem denotes_stock (h : (flag, item) ∈ s.contents.items) :
    Denotes s.stockDisk (item.argument (stockParts s.temporary) flag) item := by
  cases item with
  | value text => exact rfl
  | file content =>
    show s.stockDisk (PosixPath.parse (stockParts s.temporary / partName flag).str) = some content
    rw [PosixPath.parse_str, stock_part h]

theorem returned_flags (h : Returned s.customPairs c.items) :
    c.items.map Prod.fst = s.contents.items.map Prod.fst := by
  rw [← keys_of_forall₂ h, map_fst_scenario]

theorem returned_value {text : String} (h : Returned s.customPairs c.items)
    (hitem : (flag, Item.value text) ∈ c.items) : s.customPairs.lookup flag = some text := by
  obtain ⟨⟨flag', text'⟩, hp, rfl, hvalue⟩ := exists_of_forall₂ h hitem
  rw [← hvalue text rfl]
  exact (Dict.lookup_eq_some distinct_scenario).mpr hp

/-- an argument that is masked, or one that no item has, or a header value that came back -/
theorem lookup_returned (h : Returned s.customPairs c.items) (hflag : flag ∉ maskedNames)
    (hrecovery : flag ≠ "--recovery_dtbo") :
    s.customPairs.lookup flag = (c.arguments (customParts s.temporary)).lookup flag := by
  by_cases hmem : flag ∈ c.items.map Prod.fst
  · obtain ⟨⟨flag, item⟩, hitem, rfl⟩ := List.mem_map.mp hmem
    rw [lookup_arguments hitem]
    cases item with
    | value text => exact returned_value h hitem
    | file content =>
      have hcases : ∀ flag ∈ componentFlags, flag ∉ maskedNames → flag = "--recovery_dtbo" := by
        decide
      exact absurd (hcases flag (component_of_file hitem) hflag) hrecovery
  · have hleft : s.customPairs.lookup flag = none := by
      rw [← Option.not_isSome_iff_eq_none, lookup_isSome, map_fst_scenario, ← returned_flags h]
      exact hmem
    have hright : (c.arguments (customParts s.temporary)).lookup flag = none := by
      rw [← Option.not_isSome_iff_eq_none, lookup_isSome, map_fst_arguments]
      exact hmem
    rw [hleft, hright]

theorem lookup_recovery_ne (h : Returned s.customPairs c.items)
    (hmem : "--recovery_dtbo" ∈ s.contents.items.map Prod.fst) :
    s.customPairs.lookup "--recovery_dtbo"
      ≠ (c.arguments (customParts s.temporary)).lookup "--recovery_dtbo" := by
  have hflag : "--recovery_dtbo" ∈ componentFlags := by decide
  have hcomponent : Component (partName "--recovery_dtbo") := by decide
  have path_of (c : Contents) (output : PosixPath) (hc : "--recovery_dtbo" ∈ c.items.map Prod.fst) :
      (c.arguments output).lookup "--recovery_dtbo"
        = some (output / partName "--recovery_dtbo").str := by
    obtain ⟨⟨flag, item⟩, hitem, hname⟩ := List.mem_map.mp hc
    dsimp only at hname
    subst hname
    obtain ⟨content, rfl⟩ := (c.component _ hitem).mpr hflag
    exact lookup_arguments hitem
  intro hpaths
  have hmem' := hmem
  rw [← returned_flags h] at hmem'
  rw [lookup_scenario_ne (by decide), Scenario.stockPairs, path_of _ _ hmem, path_of _ _ hmem'] at hpaths
  have hstr := PosixPath.str_injective (Option.some.inj hpaths)
  have hdirectories := ((PosixPath.div_inj hcomponent hcomponent).mp hstr).1
  have hnames := ((PosixPath.div_inj (by decide) (by decide)).mp hdirectories).2
  exact absurd hnames (by decide)

/-- **Where the header values came back, the check of the arguments passes exactly when there is no
recovery_dtbo.** -/
theorem normalized_eq_iff (h : Returned s.customPairs c.items) (hplain : Plain s.customPairs) :
    (∃ l, normalizedArguments (flat s.customPairs) = .ok l ∧
      normalizedArguments (flat (c.arguments (customParts s.temporary))) = .ok l) ↔
      "--recovery_dtbo" ∉ s.contents.items.map Prod.fst := by
  have hmask : (∃ l, normalizedArguments (flat s.customPairs) = .ok l ∧
      normalizedArguments (flat (c.arguments (customParts s.temporary))) = .ok l) ↔
      mask placeholder maskedNames s.customPairs
        = mask placeholder maskedNames (c.arguments (customParts s.temporary)) := by
    rw [normalizedArguments_flat hplain.unmasked,
      normalizedArguments_flat (plain_arguments c _).unmasked]
    constructor
    · rintro ⟨l, hleft, hright⟩
      exact flat_injective (Except.ok.inj (hleft.trans hright.symm))
    · exact fun e => ⟨_, rfl, by rw [e]⟩
  rw [hmask, mask_eq_iff distinct_scenario]
  constructor
  · rintro ⟨-, hlookup⟩ hmem
    exact lookup_recovery_ne h hmem (hlookup "--recovery_dtbo" (by decide))
  · intro hnot
    refine ⟨by rw [map_fst_scenario, map_fst_arguments, returned_flags h], fun flag hflag => ?_⟩
    by_cases hrecovery : flag = "--recovery_dtbo"
    · subst hrecovery
      have none_of (pairs : List (String × String))
          (hkeys : pairs.map Prod.fst = s.contents.items.map Prod.fst) :
          pairs.lookup "--recovery_dtbo" = none := by
        rw [← Option.not_isSome_iff_eq_none, lookup_isSome, hkeys]
        exact hnot
      rw [none_of _ map_fst_scenario, none_of _ (by rw [map_fst_arguments, returned_flags h])]
    · exact lookup_returned h hflag hrecovery

/-! ## up to the publication -/

theorem Scenario.Runs.roundTripped (h : s.Runs host c) :
    RoundTripped host.tools s.inputs s.temporary s.payloadSize s.disk
      (flat s.stockPairs, s.stockDisk) := by
  have hboot : s.disk s.inputs.bootImage.path ≠ none := by
    rw [h.boot]
    exact Option.some_ne_none _
  refine ⟨⟨s.unpackedDisk, h.unpackStock, ?_⟩, s.boot, ?_, h.payload, write_self⟩
  · rw [runMkbootimg, h.rebuilt]
    rfl
  · show s.stockDisk s.inputs.bootImage.path = some s.boot
    rw [stockDisk_outside (h.outside hboot), h.boot]

theorem Scenario.Runs.built (h : s.Runs host c) :
    buildCustom host.tools s.inputs s.temporary s.option (flat s.stockPairs) s.stockDisk
      = .ok (flat s.customPairs, s.customDisk) := by
  have hflags : s.stockPairs.map Prod.fst = s.contents.items.map Prod.fst := map_fst_arguments
  have hcustom : customArguments (flat s.stockPairs) s.inputs.kernel.path
      (s.inputs.ramdisk.map ResolvedPath.path) s.option = .ok (flat s.customPairs) := by
    refine customArguments_flat (plain_arguments _ _) ?_ ?_ ?_ h.suffix
    · rw [hflags]
      exact h.kernel
    · rw [hflags]
      exact h.ramdisk
    · rw [hflags]
      exact h.cmdline
  rw [buildCustom, hcustom, ok_bind, runMkbootimg, h.made]
  rfl

/-- What the script checks of the custom image. -/
def Scenario.Checked (host : Host) (s : Scenario) (c : Contents) : Prop :=
  Verified host.tools s.inputs s.temporary s.payloadSize (flat s.customPairs) s.customDisk
    (flat (c.arguments (customParts s.temporary)), s.finalDisk c)

/-- **The run comes to its publication exactly when the checks of the custom image pass.** -/
theorem Scenario.Runs.repack_iff {hash : Bytes → Digest} (h : s.Runs host c) {r : Repacked} :
    repack hash host s.inputs s.option s.disk = .ok r ↔
      s.Checked host c ∧ ∃ ramdisk, r = s.repacked c ramdisk ∧
        fileRecord hash (s.finalDisk c) (selectedRamdisk s.inputs s.temporary) = .ok ramdisk := by
  constructor
  · intro hr
    obtain ⟨⟨-, name, hname, htemporary⟩, hsize, ⟨stockDisk, customDisk, hstock, hcustom, hverified⟩,
      hramdisk, himage⟩ := repack_eq_ok.mp hr
    obtain ⟨temporary, payloadSize, avbInfo, stockArguments, customArguments, unpackedArguments,
      rdisk, ramdisk, image⟩ := r
    dsimp only at *
    cases h.mkdtemp.symm.trans hname
    cases h.size.symm.trans hsize
    have htemporary' : temporary = s.temporary := htemporary
    subst htemporary'
    cases (roundTrip_eq_ok.mpr h.roundTripped).symm.trans (roundTrip_eq_ok.mpr hstock)
    cases h.built.symm.trans hcustom
    cases h.unpackCustom.symm.trans hverified.unpack
    cases final_image c |>.symm.trans himage
    exact ⟨hverified, ramdisk, rfl, hramdisk⟩
  · rintro ⟨hverified, ramdisk, rfl, hramdisk⟩
    exact repack_eq_ok.mpr ⟨⟨h.mkdir, s.name, h.mkdtemp, rfl⟩, h.size,
      ⟨s.stockDisk, s.customDisk, h.roundTripped, h.built, hverified⟩, hramdisk, final_image c⟩

/-- The components of the custom image are those that were asked for, and it fits. -/
structure Scenario.Intact (s : Scenario) (c : Contents) : Prop where
  kernel : ∃ content, ("--kernel", Item.file content) ∈ c.items ∧
    s.disk s.inputs.kernel.path = some content
  ramdisk : ∃ content, ("--ramdisk", Item.file content) ∈ c.items ∧
    match s.inputs.ramdisk with
    | none => ("--ramdisk", Item.file content) ∈ s.contents.items
    | some ramdisk => s.disk ramdisk.path = some content
  dtb : ∃ content, ("--dtb", Item.file content) ∈ c.items ∧
    ("--dtb", Item.file content) ∈ s.contents.items
  fits : s.image.length ≤ s.payloadSize

theorem final_given (h : s.Runs host c) (hpath : s.disk path = some content) :
    s.finalDisk c path = some content := by
  have hsome : s.disk path ≠ none := by
    rw [hpath]
    exact Option.some_ne_none _
  rw [finalDisk_outside (h.outside hsome), hpath]

theorem final_stock {name : String} (hstock : (flag, Item.file content) ∈ s.contents.items)
    (hname : partName flag = name) :
    s.finalDisk c (stockParts s.temporary / name) = some content := by
  rw [← hname, final_stock_part (component_of_file hstock), stock_part hstock]

theorem final_custom {name : String} (hitem : (flag, Item.file content) ∈ c.items)
    (hname : partName flag = name) :
    s.finalDisk c (customParts s.temporary / name) = some content := by
  rw [← hname]
  exact parts_on_disk hitem

/-- **With intact components the checks pass exactly when there is no recovery_dtbo.** -/
theorem Scenario.Intact.checked_iff (hintact : s.Intact c) (h : s.Runs host c)
    (hreturned : Returned s.customPairs c.items) (hplain : Plain s.customPairs) :
    s.Checked host c ↔ "--recovery_dtbo" ∉ s.contents.items.map Prod.fst := by
  rw [← normalized_eq_iff hreturned hplain]
  constructor
  · exact fun hchecked => hchecked.arguments
  · intro harguments
    refine ⟨h.unpackCustom, harguments, ?_, ?_, ?_, s.image, final_image c, hintact.fits⟩
    · obtain ⟨content, hitem, hcontent⟩ := hintact.kernel
      exact ⟨content, final_given h hcontent, final_custom hitem (by decide)⟩
    · obtain ⟨content, hitem, hcontent⟩ := hintact.ramdisk
      refine ⟨content, ?_, final_custom hitem (by decide)⟩
      rw [selectedRamdisk]
      cases hgiven : s.inputs.ramdisk with
      | none =>
        rw [hgiven] at hcontent
        exact final_stock hcontent (by decide)
      | some ramdisk =>
        rw [hgiven] at hcontent
        exact final_given h hcontent
    · obtain ⟨content, hitem, hcontent⟩ := hintact.dtb
      exact ⟨content, final_stock hcontent (by decide), final_custom hitem (by decide)⟩

theorem exists_repacked {hash : Bytes → Digest} (h : s.Runs host c) (hchecked : s.Checked host c) :
    ∃ ramdisk, repack hash host s.inputs s.option s.disk = .ok (s.repacked c ramdisk) := by
  obtain ⟨content, hcontent, -⟩ := hchecked.ramdisk
  have hrecord : fileRecord hash (s.finalDisk c) (selectedRamdisk s.inputs s.temporary)
      = .ok ⟨(selectedRamdisk s.inputs s.temporary).name, Capture.sha256 hash content,
        content.length⟩ := by
    rw [fileRecord, read_eq_ok.mpr hcontent, ok_bind]
    rfl
  exact ⟨_, h.repack_iff.mpr ⟨hchecked, _, rfl, hrecord⟩⟩

/-! ## as a whole -/

theorem files_prepared {hash : Bytes → Digest} {options : Options} {inputs : Inputs} {disk : Disk}
    (h : Prepared hash host options disk inputs) :
    disk inputs.kernel.path ≠ none ∧ ∀ ramdisk ∈ inputs.ramdisk, disk ramdisk.path ≠ none := by
  obtain ⟨toolsDir, -, hfiles⟩ := h.files
  refine ⟨hfiles _ (by simp [requiredPaths]), fun ramdisk hramdisk => ?_⟩
  refine hfiles _ (List.mem_append_right _ ?_)
  rw [Option.mem_toList, Option.map_eq_some_iff]
  exact ⟨ramdisk, hramdisk, rfl⟩

/-- **A run whose checks of the inputs pass is published with its manifest exactly when the custom
image passes too and no input has the temporary name of the output.** -/
theorem main_iff {hash : Bytes → Digest} {options : Options} (h : s.Runs host c)
    (hprepared : Prepared hash host options s.disk s.inputs)
    (hoption : options.appendCmdline = s.option) (houtput : s.disk s.inputs.output.path = none)
    (hmanifest : s.disk (manifestPath s.inputs.output.path) = none) :
    (∃ final, main hash host options s.disk = .ok final ∧
        final s.inputs.output.path = some s.image ∧
        final (manifestPath s.inputs.output.path) ≠ none) ↔
      s.Checked host c ∧ s.inputs.bootImage.path ≠ temporaryPath s.inputs.output.path ∧
        s.inputs.kernel.path ≠ temporaryPath s.inputs.output.path := by
  have hnamed := hprepared.named
  have hkernel := (files_prepared hprepared).1
  have hboot : s.disk s.inputs.bootImage.path ≠ none := by
    rw [h.boot]
    exact Option.some_ne_none _
  obtain ⟨houtside, houtsideManifest⟩ := @outside_output s.inputs s.temporary s.name hnamed rfl
  have hmain (r : Repacked) (hr : repack hash host s.inputs s.option s.disk = .ok r) :
      main hash host options s.disk = publish hash s.inputs r := by
    rw [main, prepare_eq_ok.mpr hprepared, ok_bind, hoption, hr, ok_bind]
  have hpublish (ramdisk : FileRecord) (hchecked : s.Checked host c) :
      (∃ final, publish hash s.inputs (s.repacked c ramdisk) = .ok final ∧
        final s.inputs.output.path = some s.image ∧
        final (manifestPath s.inputs.output.path) ≠ none) ↔
      s.inputs.bootImage.path ≠ temporaryPath s.inputs.output.path ∧
        s.inputs.kernel.path ≠ temporaryPath s.inputs.output.path := by
    obtain ⟨normalized, hnormalized, -⟩ := hchecked.arguments
    refine @publish_iff s.inputs hash (s.repacked c ramdisk) s.name normalized hnamed rfl hnormalized
      ?_ ?_ ⟨?_, h.outside hboot⟩ ⟨?_, h.outside hkernel⟩
    · show s.finalDisk c _ = none
      rw [finalDisk_outside houtside, houtput]
    · show s.finalDisk c _ = none
      rw [finalDisk_outside houtsideManifest, hmanifest]
    · show s.finalDisk c _ ≠ none
      rwa [finalDisk_outside (h.outside hboot)]
    · show s.finalDisk c _ ≠ none
      rwa [finalDisk_outside (h.outside hkernel)]
  constructor
  · rintro ⟨final, hfinal, hresult⟩
    have hfinal' := hfinal
    rw [main, prepare_eq_ok.mpr hprepared, ok_bind, hoption] at hfinal'
    obtain ⟨r, hr, -⟩ := bind_eq_ok.mp hfinal'
    obtain ⟨hchecked, ramdisk, rfl, -⟩ := h.repack_iff.mp hr
    rw [hmain _ hr] at hfinal
    exact ⟨hchecked, (hpublish ramdisk hchecked).mp ⟨final, hfinal, hresult⟩⟩
  · rintro ⟨hchecked, hnames⟩
    obtain ⟨ramdisk, hr⟩ := exists_repacked h hchecked
    rw [hmain _ hr]
    exact (hpublish ramdisk hchecked).mpr hnames

end

end RT7.Boot
