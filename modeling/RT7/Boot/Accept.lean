import RT7.Boot.Promise

/-!
# Correct images

* `CorrectRun`      a run with faithful tools on a stock image that is rebuilt, whose custom image is
  made and fits;
* `CorrectRun.exists_custom`    what the custom image holds, `CorrectRun.runs` what the run does;
* `published_iff`   which correct runs are published.
-/

namespace RT7.Boot

open Py Text Pairs

/-- A stock image that is rebuilt, and a custom image that is made and fits. -/
structure CorrectRun (hash : Bytes → Digest) (host : Host) (options : Options)
    (holds : Bytes → Contents → Prop) (s : Scenario) : Prop where
  prepared : Prepared hash host options s.disk s.inputs
  option : options.appendCmdline = s.option
  mkdir : host.mkdir s.inputs.output.path.parent = .ok ()
  mkdtemp : host.mkdtemp s.inputs.output.path.parent = .ok s.name
  fresh : ∀ path, s.temporary ∈ path.parents → s.disk path = none
  nonzero : '\x00' ∉ s.temporary.str.toList
  size : originalPayloadSize host.tools s.inputs.bootImage.path s.disk
    = .ok (s.payloadSize, s.avbInfo)
  boot : s.disk s.inputs.bootImage.path = some s.boot
  payload : s.payloadSize ≤ s.boot.length
  held : holds s.boot s.contents
  flags : ∀ flag ∈ ["--kernel", "--ramdisk", "--dtb"], flag ∈ s.contents.items.map Prod.fst
  cmdline : (givenSuffix s.option).isSome → "--cmdline" ∈ s.contents.items.map Prod.fst
  suffix : ∀ suffix ∈ givenSuffix s.option, AcceptedSuffix suffix
  rebuilt : host.tools.mkbootimg (flat s.stockPairs) s.unpackedDisk
    = .ok (some (s.boot.take s.payloadSize))
  made : host.tools.mkbootimg (flat s.customPairs) s.stockDisk = .ok (some s.image)
  fits : s.image.length ≤ s.payloadSize
  outputAbsent : s.disk s.inputs.output.path = none
  manifestAbsent : s.disk (manifestPath s.inputs.output.path) = none

/-- What the custom image holds: what its arguments name. -/
structure HoldsCustom (s : Scenario) (holds : Bytes → Contents → Prop) (c : Contents) : Prop where
  held : holds s.image c
  names : Names s.stockDisk s.customPairs c.items

section
variable {hash : Bytes → Digest} {host : Host} {options : Options}
  {holds : Bytes → Contents → Prop} {s : Scenario} {c : Contents} {flag name : String}
  {content : Bytes} {item : Item}

theorem CorrectRun.exists_custom (hfaithful : Faithful host.tools holds)
    (h : CorrectRun hash host options holds s) : ∃ c, HoldsCustom s holds c := by
  have hpairs : NamesUnedited s.stockDisk s.customPairs s.contents.items := by
    refine forall₂_of_keys map_fst_scenario ?_
    rintro ⟨flag, text⟩ hp ⟨flag', item⟩ hq rfl hunedited
    have htext := (Dict.lookup_eq_some distinct_scenario).mpr hp
    rw [lookup_scenario_ne hunedited, Scenario.stockPairs, lookup_arguments hq] at htext
    dsimp only at htext hq
    obtain rfl := Option.some.inj htext
    exact denotes_stock hq
  obtain ⟨c, hheld, hnames⟩ := hfaithful.pack _ _ _ _ _ h.held hpairs h.made
  exact ⟨c, hheld, hnames⟩

theorem CorrectRun.plain (hfaithful : Faithful host.tools holds)
    (h : CorrectRun hash host options holds s) : Plain s.customPairs :=
  hfaithful.parser _ _ _ _ _ h.held map_fst_scenario h.made

/-- an image is unpacked as what it holds -/
theorem unpackArgs_holds (hfaithful : Faithful host.tools holds) {image output : PosixPath}
    {disk : Disk} {bytes : Bytes} (houtput : '\x00' ∉ output.str.toList)
    (hdisk : disk image = some bytes) (hheld : holds bytes c) :
    unpackArgs host.tools image output disk
      = .ok (flat (c.arguments output), disk.writeFiles output c.parts) := by
  obtain ⟨result, hresult, harguments, hparts⟩ :=
    hfaithful.unpack image output disk bytes c houtput hdisk hheld
  rw [unpackArgs, hresult, ok_bind, harguments, ok_bind, hparts]
  rfl

theorem CorrectRun.nonzero_div (h : CorrectRun hash host options holds s) (hn : Component name)
    (hzero : '\x00' ∉ name.toList) : '\x00' ∉ (s.temporary / name).str.toList := by
  intro hmem
  obtain hmem | hmem | hmem := PosixPath.mem_toList_str_div hn hmem
  · exact h.nonzero hmem
  · exact absurd hmem (by decide)
  · exact hzero hmem

theorem CorrectRun.runs (hfaithful : Faithful host.tools holds)
    (h : CorrectRun hash host options holds s) (hc : HoldsCustom s holds c) : s.Runs host c where
  mkdir := h.mkdir
  mkdtemp := h.mkdtemp
  fresh := h.fresh
  size := h.size
  boot := h.boot
  payload := h.payload
  kernel := h.flags _ (by decide)
  ramdisk _ := h.flags _ (by decide)
  cmdline := h.cmdline
  suffix := h.suffix
  unpackStock :=
    unpackArgs_holds hfaithful (h.nonzero_div (by decide) (by decide)) h.boot h.held
  rebuilt := h.rebuilt
  made := h.made
  unpackCustom :=
    unpackArgs_holds hfaithful (h.nonzero_div (by decide) (by decide)) write_self hc.held

/-- a component of the custom image is the file that its argument names -/
theorem HoldsCustom.file (hc : HoldsCustom s holds c) (hcomponent : flag ∈ componentFlags)
    (hflag : flag ∈ s.contents.items.map Prod.fst) :
    ∃ text content, s.customPairs.lookup flag = some text ∧ (flag, Item.file content) ∈ c.items ∧
      s.stockDisk (PosixPath.parse text) = some content := by
  rw [← returned_flags hc.names.returned] at hflag
  obtain ⟨⟨flag', item⟩, hitem, rfl⟩ := List.mem_map.mp hflag
  obtain ⟨⟨flag', text⟩, hp, rfl, hdenotes⟩ := exists_of_forall₂ hc.names hitem
  obtain ⟨content, rfl⟩ := (c.component _ hitem).mpr hcomponent
  exact ⟨text, content, (Dict.lookup_eq_some distinct_scenario).mpr hp, hitem, hdenotes⟩

/-- a stock component that is not edited comes back -/
theorem HoldsCustom.stock_file (hc : HoldsCustom s holds c) (hcomponent : flag ∈ componentFlags)
    (hflag : flag ∈ s.contents.items.map Prod.fst)
    (hlookup : s.customPairs.lookup flag = s.stockPairs.lookup flag) :
    ∃ content, (flag, Item.file content) ∈ c.items ∧
      (flag, Item.file content) ∈ s.contents.items := by
  obtain ⟨text, content, htext, hitem, hcontent⟩ := hc.file hcomponent hflag
  obtain ⟨⟨flag', item⟩, hstock, rfl⟩ := List.mem_map.mp hflag
  obtain ⟨content', rfl⟩ := (s.contents.component _ hstock).mpr hcomponent
  rw [hlookup, Scenario.stockPairs, lookup_arguments hstock] at htext
  obtain rfl := Option.some.inj htext
  rw [Item.argument, PosixPath.parse_str, stock_part hstock] at hcontent
  obtain rfl := Option.some.inj hcontent
  exact ⟨content', hitem, hstock⟩

/-- a given file is the component -/
theorem HoldsCustom.given_file (hc : HoldsCustom s holds c) {given : ResolvedPath}
    (hcomponent : flag ∈ componentFlags) (hflag : flag ∈ s.contents.items.map Prod.fst)
    (hlookup : s.customPairs.lookup flag = some given.path.str)
    (houtside : s.temporary ∉ given.path.parents) :
    ∃ content, (flag, Item.file content) ∈ c.items ∧ s.disk given.path = some content := by
  obtain ⟨text, content, htext, hitem, hcontent⟩ := hc.file hcomponent hflag
  rw [hlookup] at htext
  obtain rfl := Option.some.inj htext
  rw [PosixPath.parse_str, stockDisk_outside houtside] at hcontent
  exact ⟨content, hitem, hcontent⟩

theorem CorrectRun.intact (hfaithful : Faithful host.tools holds)
    (h : CorrectRun hash host options holds s) (hc : HoldsCustom s holds c) : s.Intact c := by
  have hruns := h.runs hfaithful hc
  obtain ⟨hkernel, hramdisk⟩ := files_prepared h.prepared
  refine ⟨?_, ?_, ?_, h.fits⟩
  · refine hc.given_file (by decide) hruns.kernel ?_ (hruns.outside hkernel)
    rw [Scenario.customPairs, customPairs, lookup_assignCmdline_ne fun _ => by decide,
      lookup_assignRamdisk_ne fun _ => by decide, lookup_assign_self]
    rw [Scenario.stockPairs, map_fst_arguments]
    exact hruns.kernel
  · have hflag : "--ramdisk" ∈ s.contents.items.map Prod.fst := h.flags _ (by decide)
    cases hgiven : s.inputs.ramdisk with
    | none =>
      refine hc.stock_file (by decide) hflag ?_
      rw [Scenario.customPairs, hgiven]
      exact lookup_customPairs_ne (by decide) (fun hsome => absurd hsome (by decide)) (by decide)
    | some ramdisk =>
      refine hc.given_file (by decide) hflag ?_ (hruns.outside (hramdisk ramdisk hgiven))
      rw [Scenario.customPairs, hgiven, customPairs, lookup_assignCmdline_ne fun _ => by decide]
      refine lookup_assign_self ?_
      rw [map_fst_assign, Scenario.stockPairs, map_fst_arguments]
      exact hflag
  · exact hc.stock_file (by decide) (h.flags _ (by decide)) (lookup_scenario_ne (by decide))

/-- **A correct run is published with its manifest exactly when there is no recovery_dtbo and no
input has the temporary name of the output.** And unpackings into two directories are normalised to
the same arguments exactly when there is no recovery_dtbo. -/
theorem published_iff (hfaithful : Faithful host.tools holds)
    (h : CorrectRun hash host options holds s) :
    ((∃ final, main hash host options s.disk = .ok final ∧
        final s.inputs.output.path = some s.image ∧
        final (manifestPath s.inputs.output.path) ≠ none) ↔
      "--recovery_dtbo" ∉ s.contents.items.map Prod.fst ∧
        s.inputs.bootImage.path ≠ temporaryPath s.inputs.output.path ∧
        s.inputs.kernel.path ≠ temporaryPath s.inputs.output.path) ∧
    ∀ output output', output ≠ output' →
      (normalizedArguments (flat (s.contents.arguments output))
          = normalizedArguments (flat (s.contents.arguments output')) ↔
        "--recovery_dtbo" ∉ s.contents.items.map Prod.fst) := by
  obtain ⟨c, hc⟩ := h.exists_custom hfaithful
  have hruns := h.runs hfaithful hc
  have hchecked := (h.intact hfaithful hc).checked_iff hruns hc.names.returned (h.plain hfaithful)
  refine ⟨?_, fun output output' hne => normalized_iff s.contents hne⟩
  rw [← hchecked]
  exact main_iff hruns h.prepared h.option h.outputAbsent h.manifestAbsent

theorem sample_faithful (hflag : flag ∈ ["--second", "--recovery_dtbo"]) :
    Faithful (sampleRegistry hflag [0x53]).tools
      fun bytes c => (sampleRegistry hflag [0x53]).known bytes = some c := by
  refine faithful _ fun image himage => ?_
  cases himage with
  | head => rfl
  | tail _ himage =>
    obtain rfl := List.mem_singleton.mp himage
    rfl

theorem sample_correct (hflag : flag ∈ ["--second", "--recovery_dtbo"]) :
    CorrectRun Sha256.sha256 (sampleHost (sampleRegistry hflag [0x53]).tools) sampleOptions
      (fun bytes c => (sampleRegistry hflag [0x53]).known bytes = some c) (sampleScenario hflag) := by
  have hruns := sample_runs hflag [0x53]
  exact {
    prepared := sample_prepared _
    option := rfl
    mkdir := rfl
    mkdtemp := rfl
    fresh := hruns.fresh
    nonzero := sample_nonzero hflag
    size := hruns.size
    boot := rfl
    payload := Nat.le_refl 1
    held := rfl
    flags := by
      have h : ∀ flag ∈ ["--second", "--recovery_dtbo"], ∀ name ∈ ["--kernel", "--ramdisk", "--dtb"],
          name ∈ ["--kernel", "--ramdisk", flag, "--dtb", "--cmdline"] := by decide
      exact h flag hflag
    cmdline := hruns.cmdline
    suffix := hruns.suffix
    rebuilt := hruns.rebuilt
    made := hruns.made
    fits := Nat.le_refl 1
    outputAbsent := (sample_absent hflag).1
    manifestAbsent := (sample_absent hflag).2 }

/-- the small image with a second component -/
theorem published_iff_sample :
    ∃ final, main Sha256.sha256 (sampleHost (@sampleRegistry "--second" (by decide) [0x53]).tools)
        sampleOptions sampleDisk = .ok final ∧ final sampleInputs.output.path = some [0x42] ∧
      final (manifestPath sampleInputs.output.path) ≠ none := by
  have hsecond : "--second" ∈ ["--second", "--recovery_dtbo"] := by decide
  have hiff := (published_iff (sample_faithful hsecond) (sample_correct hsecond)).1
  have hrecovery : "--recovery_dtbo" ∉ ["--kernel", "--ramdisk", "--second", "--dtb", "--cmdline"] := by
    decide
  exact hiff.mpr ⟨hrecovery, sample_inputs_ne hsecond⟩

/-- the small image with a recovery_dtbo -/
theorem recovery_refused : ∃ hflag : "--recovery_dtbo" ∈ ["--second", "--recovery_dtbo"],
    Faithful (sampleRegistry hflag [0x53]).tools
      (fun bytes c => (sampleRegistry hflag [0x53]).known bytes = some c) ∧
    CorrectRun Sha256.sha256 (sampleHost (sampleRegistry hflag [0x53]).tools) sampleOptions
      (fun bytes c => (sampleRegistry hflag [0x53]).known bytes = some c) (sampleScenario hflag) ∧
    (∀ final, main Sha256.sha256 (sampleHost (sampleRegistry hflag [0x53]).tools) sampleOptions
      sampleDisk ≠ .ok final) ∧
    normalizedArguments (flat ((sampleScenario hflag).contents.arguments (PosixPath.parse "/a")))
      ≠ normalizedArguments (flat ((sampleScenario hflag).contents.arguments (PosixPath.parse "/b"))) := by
  have hflag : "--recovery_dtbo" ∈ ["--second", "--recovery_dtbo"] := by decide
  have hrecovery : "--recovery_dtbo" ∈ (sampleScenario hflag).contents.items.map Prod.fst := by
    have h : "--recovery_dtbo" ∈ ["--kernel", "--ramdisk", "--recovery_dtbo", "--dtb", "--cmdline"] := by
      decide
    exact h
  refine ⟨hflag, sample_faithful hflag, sample_correct hflag, ?_, ?_⟩
  · intro final hfinal
    obtain ⟨inputs, hprepare, h⟩ := bind_eq_ok.mp hfinal
    cases (prepare_eq_ok.mpr (sample_prepared _)).symm.trans hprepare
    obtain ⟨r, hr, -⟩ := bind_eq_ok.mp h
    have hruns := sample_runs hflag [0x53]
    have hchecked := (hruns.repack_iff.mp hr).1
    exact ((sample_intact hflag [0x53]).checked_iff hruns (sample_returned hflag [0x53])
      (sample_plain hflag)).mp hchecked hrecovery
  · have hne : PosixPath.parse "/a" ≠ PosixPath.parse "/b" := by decide
    exact fun h => (normalized_iff (sampleScenario hflag).contents hne).mp h hrecovery

end

end RT7.Boot
