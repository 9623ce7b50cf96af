import RT7.Boot.Verify

/-!
# The promise of the repack check, whatever the tools do

* `StockAlike`      tools that make the same of the stock image;
* `Tools.spoil`     other tools, which unpack one file differently: no comparison sees a second
  component or a recovery_dtbo (`Verified.spoil`);
* `preserved_iff`   the check keeps its promise with all tools that are alike exactly where the stock
  arguments are comparable;
* `second_not_compared`     a run that publishes an image with a spoiled second component.
-/

namespace RT7.Boot

open Py Text Pairs

/-! ## runs with other tools -/

/-- Tools that make the same of the stock image. -/
structure StockAlike (tools tools' : Tools) (inputs : Inputs) (temporary : PosixPath) (disk : Disk) :
    Prop where
  size : originalPayloadSize tools' inputs.bootImage.path disk
    = originalPayloadSize tools inputs.bootImage.path disk
  rebuilt : ∀ payloadSize, roundTrip tools' inputs temporary payloadSize disk
    = roundTrip tools inputs temporary payloadSize disk

/-- The run writes its output. -/
structure OutputWritten (hash : Bytes → Digest) (host : Host) (inputs : Inputs) (option : Option String)
    (disk : Disk) (r : Repacked) : Prop where
  repacked : repack hash host inputs option disk = .ok r
  written : (writeIdempotent inputs.output.path r.image r.disk).isSome

/-- The directory of `mkdtemp` is new. -/
def Fresh (host : Host) (inputs : Inputs) (disk : Disk) : Prop :=
  ∀ name, host.mkdtemp inputs.output.path.parent = .ok name →
    ∀ path, inputs.output.path.parent / name.val ∈ path.parents → disk path = none

/-! ## a tool that unpacks another file -/

/-- Other tools, which leave a file more in a directory. -/
def Tools.spoil (tools : Tools) (directory : PosixPath) (file : FileName × Bytes) : Tools :=
  { tools with
    unpackBootimg := fun image output disk => do
      let result ← tools.unpackBootimg image output disk
      return (result.1, if output = directory then result.2 ++ [file] else result.2) }

section
variable {tools : Tools} {directory image output : PosixPath} {file : FileName × Bytes} {disk : Disk}

theorem PrintsPairs.spoil (h : PrintsPairs tools) : PrintsPairs (tools.spoil directory file) := by
  intro image output disk result arguments hresult harguments
  obtain ⟨result', hresult', e⟩ := bind_eq_ok.mp hresult
  cases pure_eq_ok.mp e
  exact h image output disk result' arguments hresult' harguments

theorem unpackArgs_spoil_ne (h : output ≠ directory) :
    unpackArgs (tools.spoil directory file) image output disk = unpackArgs tools image output disk := by
  rw [unpackArgs, unpackArgs, Tools.spoil]
  dsimp only
  cases tools.unpackBootimg image output disk with
  | error e => rfl
  | ok result =>
    rw [ok_bind, if_neg h]
    rfl

theorem unpackArgs_spoil {unpacked : List String × Disk}
    (h : unpackArgs tools image directory disk = .ok unpacked) :
    unpackArgs (tools.spoil directory file) image directory disk
      = .ok (unpacked.1, unpacked.2.write (directory / file.1.val) file.2) := by
  obtain ⟨result, hresult, h⟩ := bind_eq_ok.mp h
  obtain ⟨arguments, harguments, h⟩ := bind_eq_ok.mp h
  cases pure_eq_ok.mp h
  rw [unpackArgs, Tools.spoil]
  dsimp only
  rw [hresult, ok_bind, if_pos rfl]
  show decodeArguments result.1 >>= _ = _
  rw [harguments, ok_bind, Disk.writeFiles, List.foldl_append]
  rfl

end

section
variable {hash : Bytes → Digest} {host : Host} {inputs : Inputs} {option : Option String}
  {disk packed : Disk} {r : Repacked} {stock : List (String × String)} {temporary : PosixPath}
  {file : FileName × Bytes}

/-- the stock image is not unpacked into the directory of the custom one -/
theorem stockAlike_spoil :
    StockAlike host.tools (host.tools.spoil (customParts temporary) file) inputs temporary disk := by
  refine ⟨rfl, fun payloadSize => ?_⟩
  have hne : stockParts temporary ≠ customParts temporary := by
    intro e
    have hnames := ((PosixPath.div_inj (by decide) (by decide)).mp e).2
    exact absurd hnames (by decide)
  rw [roundTrip, unpackArgs_spoil_ne hne]
  rfl

/-- **The comparisons do not see a second component or a recovery_dtbo.** -/
theorem Verified.spoil {payloadSize : Nat} {custom : List String} {unpacked : List String × Disk}
    {part : PosixPath} (hpart : part = customParts temporary / file.1.val)
    (h : Verified host.tools inputs temporary payloadSize custom disk unpacked)
    (hname : file.1.val ∉ ["kernel", "ramdisk", "dtb"]) (hkernel : inputs.kernel.path ≠ part)
    (hramdisk : selectedRamdisk inputs temporary ≠ part) :
    Verified (host.tools.spoil (customParts temporary) file) inputs temporary payloadSize custom disk
      (unpacked.1, unpacked.2.write part file.2) := by
  have hchild (name : String) (hmem : name ∈ ["kernel", "ramdisk", "dtb"]) (hcomponent : Component name) :
      customParts temporary / name ≠ part := by
    rw [hpart]
    intro e
    rw [((PosixPath.div_inj hcomponent file.1.property).mp e).2] at hmem
    exact hname hmem
  have hstock : stockParts temporary / "dtb" ≠ part := by
    rw [hpart]
    intro e
    have hdirectories := ((PosixPath.div_inj (by decide) file.1.property).mp e).1
    have hnames := ((PosixPath.div_inj (by decide) (by decide)).mp hdirectories).2
    exact absurd hnames (by decide)
  have himage : customTemporary temporary ≠ part := by
    rw [hpart]
    exact (PosixPath.div_div_ne (by decide) file.1.property (by decide)).symm
  -- what is compared is what was compared
  have hsame {p q : PosixPath} (hp : p ≠ part) (hq : q ≠ part) (hsame : SameContent unpacked.2 p q) :
      SameContent (unpacked.2.write part file.2) p q := by
    rwa [SameContent, write_ne hp, write_ne hq]
  refine ⟨?_, h.arguments, ?_, ?_, ?_, ?_⟩
  · rw [hpart]
    exact unpackArgs_spoil h.unpack
  · exact hsame hkernel (hchild _ (by decide) (by decide)) h.kernel
  · exact hsame hramdisk (hchild _ (by decide) (by decide)) h.ramdisk
  · exact hsame hstock (hchild _ (by decide) (by decide)) h.dtb
  · dsimp only
    rw [write_ne himage]
    exact h.size

/-- The output is written all the same. -/
theorem OutputWritten.spoil {part : PosixPath} (hpart : part = customParts r.temporary / file.1.val)
    (h : OutputWritten hash host inputs option disk r)
    (hname : file.1.val ∉ ["kernel", "ramdisk", "dtb"]) (hkernel : inputs.kernel.path ≠ part)
    (hramdisk : selectedRamdisk inputs r.temporary ≠ part) (houtput : inputs.output.path ≠ part) :
    OutputWritten hash { host with tools := host.tools.spoil (customParts r.temporary) file } inputs
      option disk { r with disk := r.disk.write part file.2 } := by
  obtain ⟨hdirectory, hsize, ⟨packed, customDisk, hstock, hcustom, hverified⟩, hrecord, himage⟩ :=
    repack_eq_ok.mp h.repacked
  have halike := @stockAlike_spoil host inputs disk r.temporary file
  refine ⟨repack_eq_ok.mpr ⟨hdirectory, hsize, ⟨packed, customDisk, ?_, hcustom, ?_⟩, ?_, ?_⟩, ?_⟩
  · rw [← roundTrip_eq_ok] at hstock ⊢
    rw [← hstock]
    exact halike.rebuilt _
  · exact hverified.spoil hpart hname hkernel hramdisk
  · dsimp only
    rw [fileRecord, Disk.read, write_ne hramdisk]
    exact hrecord
  · have hne : customTemporary r.temporary ≠ part := by
      rw [hpart]
      exact (PosixPath.div_div_ne (by decide) file.1.property (by decide)).symm
    dsimp only
    rw [write_ne hne]
    exact himage
  · have hwritten := h.written
    rw [writeIdempotent] at hwritten ⊢
    dsimp only
    rw [write_ne houtput]
    cases hold : r.disk inputs.output.path with
    | none => rfl
    | some old =>
      rw [hold] at hwritten
      dsimp only at hwritten ⊢
      split_ifs at hwritten ⊢ with hne
      · exact hwritten
      · rfl

end

/-! ## the promise and its condition -/

section
variable {hash : Bytes → Digest} {host : Host} {options : Options} {inputs : Inputs} {disk : Disk}
  {r : Repacked}

/-- The files of the run do not lie in its temporary directory. -/
theorem OutputWritten.outside (hprepared : Prepared hash host options disk inputs)
    (hfresh : Fresh host inputs disk)
    (h : OutputWritten hash host inputs options.appendCmdline disk r) :
    (∀ given ∈ inputs.kernel :: inputs.ramdisk.toList, r.temporary ∉ given.path.parents) ∧
      r.temporary ∉ inputs.output.path.parents := by
  obtain ⟨⟨-, name, hname, htemporary⟩, -⟩ := repack_eq_ok.mp h.repacked
  obtain ⟨toolsDir, -, hfiles⟩ := hprepared.files
  refine ⟨fun given hgiven hmem => ?_, (outside_output hprepared.named htemporary).1⟩
  rw [htemporary] at hmem
  refine hfiles given.path ?_ (hfresh name hname given.path hmem)
  rw [requiredPaths]
  obtain rfl | hgiven := List.mem_cons.mp hgiven
  · exact List.mem_append_left _ (List.mem_cons_of_mem _ List.mem_cons_self)
  · refine List.mem_append_right _ ?_
    rw [Option.mem_toList] at hgiven ⊢
    rw [hgiven]
    rfl

/-- A run with tools that make the same of the stock image has the same stock arguments. -/
theorem packed_alike {tools : Tools} {option : Option String} {packed packed' : Disk} {r' : Repacked}
    {stock stock' : List (String × String)}
    (halike : StockAlike host.tools tools inputs r.temporary disk)
    (hr : repack hash host inputs option disk = .ok r)
    (hr' : repack hash { host with tools := tools } inputs option disk = .ok r')
    (h : Packed host inputs option disk packed r stock)
    (h' : Packed { host with tools := tools } inputs option disk packed' r' stock') :
    r'.temporary = r.temporary ∧ packed' = packed ∧ stock' = stock := by
  obtain ⟨⟨-, name, hname, htemporary⟩, hsize, -⟩ := repack_eq_ok.mp hr
  obtain ⟨⟨-, name', hname', htemporary'⟩, hsize', -⟩ := repack_eq_ok.mp hr'
  cases hname.symm.trans hname'
  have hdirectory : r'.temporary = r.temporary := htemporary'.trans htemporary.symm
  have hpayload : r'.payloadSize = r.payloadSize := by
    have hsizes := (halike.size.symm.trans hsize').symm.trans hsize
    exact (Prod.mk.inj (Except.ok.inj hsizes)).1
  have hstock := roundTrip_eq_ok.mpr h'.rebuilt
  rw [hdirectory, hpayload, halike.rebuilt, roundTrip_eq_ok.mpr h.rebuilt] at hstock
  obtain ⟨harguments, hdisks⟩ := Prod.mk.inj (Except.ok.inj hstock)
  refine ⟨hdirectory, hdisks.symm, flat_injective ?_⟩
  rw [← h'.arguments, ← harguments, h.arguments]

/-- another content than that of the file that is named -/
theorem exists_other_content (disk : Disk) (named : Option String) :
    ∃ content : Bytes, ∀ path, named = some path → disk (PosixPath.parse path) ≠ some content := by
  cases named with
  | none => exact ⟨[], fun path h => by cases h⟩
  | some path =>
    refine ⟨((disk (PosixPath.parse path)).getD []) ++ [0], fun path' h e => ?_⟩
    cases h
    have hlength := congrArg (fun content => (Option.getD content []).length) e
    dsimp only [Option.getD_some] at hlength
    rw [List.length_append, List.length_singleton] at hlength
    omega

/-- The ramdisk that is compared with is not among the parts of the custom image. -/
theorem selectedRamdisk_ne {temporary : PosixPath} {name : String} (hname : Component name)
    (houtside : ∀ given ∈ inputs.ramdisk.toList, temporary ∉ given.path.parents) :
    selectedRamdisk inputs temporary ≠ customParts temporary / name := by
  rw [selectedRamdisk]
  cases hgiven : inputs.ramdisk with
  | none =>
    intro e
    have hdirectories := ((PosixPath.div_inj (by decide) hname).mp e).1
    have hnames := ((PosixPath.div_inj (by decide) (by decide)).mp hdirectories).2
    exact absurd hnames (by decide)
  | some ramdisk =>
    intro e
    refine houtside ramdisk (by rw [hgiven]; exact List.mem_singleton_self _) ?_
    rw [show ramdisk.path = customParts temporary / name from e]
    exact PosixPath.mem_parents_div_div (by decide) hname

/-- a component that is not compared can come back as another file -/
theorem exists_spoiled {option : Option String} {packed : Disk} {stock : List (String × String)}
    {flag : String} (hflag : flag ∈ ["--second", "--recovery_dtbo"]) (hmem : flag ∈ stock.map Prod.fst)
    (h : OutputWritten hash host inputs option disk r)
    (hpacked : Packed host inputs option disk packed r stock)
    (houtside : (∀ given ∈ inputs.kernel :: inputs.ramdisk.toList, r.temporary ∉ given.path.parents) ∧
      r.temporary ∉ inputs.output.path.parents) :
    ∃ file r', OutputWritten hash
        { host with tools := host.tools.spoil (customParts r.temporary) file } inputs option disk r' ∧
      ¬ Kept (host.tools.spoil (customParts r.temporary) file) inputs disk packed r' := by
  have hflags : ∀ flag ∈ ["--second", "--recovery_dtbo"], flag ∈ componentFlags ∧
      flag ≠ "--kernel" ∧ flag ≠ "--ramdisk" ∧ Component (partName flag) ∧
      partName flag ∉ ["kernel", "ramdisk", "dtb"] := by decide
  obtain ⟨hcomponent, hk, hr, hname, hpart⟩ := hflags flag hflag
  obtain ⟨content, hcontent⟩ := exists_other_content packed (stock.lookup flag)
  let file : FileName × Bytes := ⟨⟨partName flag, hname⟩, content⟩
  let part := customParts r.temporary / partName flag
  have apart {path : PosixPath} (hpath : r.temporary ∉ path.parents) : path ≠ part := by
    rintro rfl
    exact hpath (PosixPath.mem_parents_div_div (by decide) hname)
  have hramdisk : selectedRamdisk inputs r.temporary ≠ part :=
    selectedRamdisk_ne hname fun given hgiven => houtside.1 given (List.mem_cons_of_mem _ hgiven)
  have hwritten := @OutputWritten.spoil hash host inputs option disk r file part rfl h hpart
    (apart (houtside.1 _ List.mem_cons_self)) hramdisk (apart houtside.2)
  refine ⟨file, _, hwritten, fun hkept => ?_⟩
  obtain ⟨unpacked, hunpacked, hkeys, -⟩ := hpacked.unpacked
  obtain ⟨custom, unpacked', hcustom, hunpacked', hpreserved⟩ := hkept
  obtain rfl := flat_injective (hpacked.custom.symm.trans hcustom)
  obtain rfl := flat_injective (hunpacked.symm.trans hunpacked')
  rw [← hkeys] at hmem
  obtain ⟨path, content', hlookup, hnamed, hdisk⟩ := hpreserved.components flag hcomponent hmem
  rw [lookup_unedited hcomponent hk fun e => absurd e hr] at hlookup
  dsimp only at hdisk
  rw [write_self] at hdisk
  cases hdisk
  exact hcontent path hlookup hnamed

/-- **For a run that writes its output: whatever tools that make the same of the stock image make of
the custom one, an output that is written holds what was asked for, exactly when the stock arguments
name the stock files that the script compares with, and no second component and no
recovery_dtbo.** -/
theorem preserved_iff (htools : PrintsPairs host.tools)
    (hprepared : Prepared hash host options disk inputs) (hfresh : Fresh host inputs disk)
    (h : OutputWritten hash host inputs options.appendCmdline disk r) :
    ∃ stock packed, r.stockArguments = flat stock ∧
      RoundTripped host.tools inputs r.temporary r.payloadSize disk (r.stockArguments, packed) ∧
      ((∀ tools, PrintsPairs tools → StockAlike host.tools tools inputs r.temporary disk →
          ∀ r', OutputWritten hash { host with tools := tools } inputs options.appendCmdline disk r' →
            Kept tools inputs disk packed r') ↔
        Comparable inputs r.temporary packed stock) := by
  obtain ⟨stock, packed, hpacked⟩ := exists_packed htools h.repacked
  have houtside := h.outside hprepared hfresh
  refine ⟨stock, packed, hpacked.arguments, hpacked.rebuilt, ?_, ?_⟩
  · intro hall
    have hkept := hall host.tools htools ⟨rfl, fun _ => rfl⟩ r h
    have hasked := hpacked.kept_iff.mp hkept
    refine ⟨fun flag hflag hgiven hmem => ?_, fun flag hflag hmem => ?_⟩
    · have hsubset : ∀ flag ∈ ["--ramdisk", "--dtb"], flag ∈ componentFlags := by decide
      exact (hpacked.asked_stock_iff hflag hgiven).mp (hasked flag (hsubset flag hflag) hmem)
    · obtain ⟨file, r', hwritten, hspoiled⟩ := exists_spoiled hflag hmem h hpacked houtside
      exact hspoiled (hall _ htools.spoil stockAlike_spoil r' hwritten)
  · intro hcomparable tools htools' halike r' h'
    obtain ⟨stock', packed', hpacked'⟩ :=
      exists_packed (show PrintsPairs { host with tools := tools }.tools from htools') h'.repacked
    obtain ⟨htemporary, rfl, rfl⟩ := packed_alike halike h.repacked h'.repacked hpacked hpacked'
    rw [← htemporary] at houtside hcomparable
    exact hpacked'.kept houtside.1 hcomparable

/-- A scenario that checks writes its output where nothing is. -/
theorem OutputWritten.of_runs {s : Scenario} {c : Contents} (hruns : s.Runs host c)
    (hchecked : s.Checked host c) (habsent : s.finalDisk c s.inputs.output.path = none) :
    ∃ ramdisk, OutputWritten hash host s.inputs s.option s.disk (s.repacked c ramdisk) := by
  obtain ⟨ramdisk, hr⟩ := exists_repacked hruns hchecked
  refine ⟨ramdisk, hr, ?_⟩
  show (writeIdempotent s.inputs.output.path s.image (s.finalDisk c)).isSome
  rw [writeIdempotent, habsent]
  rfl

end

/-! ## runs on a small image -/

/-- A stock image with one more component. -/
def sampleContents (flag : String) (hflag : flag ∈ ["--second", "--recovery_dtbo"])
    (kernel extra : Bytes) : Contents where
  items := [("--kernel", .file kernel), ("--ramdisk", .file [0x52]), (flag, .file extra),
    ("--dtb", .file [0x44]), ("--cmdline", .value "quiet")]
  distinct := by
    have h : ∀ flag ∈ ["--second", "--recovery_dtbo"],
        ["--kernel", "--ramdisk", flag, "--dtb", "--cmdline"].Nodup := by decide
    exact h flag hflag
  component := by
    have hkernel : "--kernel" ∈ componentFlags := by decide
    have hsubset : ∀ flag ∈ ["--second", "--recovery_dtbo"], flag ∈ componentFlags := by decide
    intro p hp
    simp only [List.mem_cons, List.not_mem_nil, or_false] at hp
    obtain rfl | rfl | rfl | rfl | rfl := hp
    · exact iff_of_true ⟨kernel, rfl⟩ hkernel
    · exact iff_of_true ⟨[0x52], rfl⟩ (by decide)
    · exact iff_of_true ⟨extra, rfl⟩ (hsubset flag hflag)
    · exact iff_of_true ⟨[0x44], rfl⟩ (by decide)
    · refine iff_of_false ?_ (by decide)
      rintro ⟨content, h⟩
      cases h
  plain := by
    intro p hp text htext
    simp only [List.mem_cons, List.not_mem_nil, or_false] at hp
    obtain rfl | rfl | rfl | rfl | rfl := hp
    · cases htext
    · cases htext
    · cases htext
    · cases htext
    · cases htext
      decide

def sampleInputs : Inputs where
  bootImage := ⟨PosixPath.parse "/in/boot.img", by decide⟩
  kernel := ⟨PosixPath.parse "/in/Image.gz", by decide⟩
  ramdisk := none
  output := ⟨PosixPath.parse "/out/kernel-unsigned-do-not-flash.img", by decide⟩
  bootSha256 := Capture.sha256 Sha256.sha256 [0x41]

def sampleOptions : Options where
  bootImg := PosixPath.parse "/in/boot.img"
  expectedBootSha256 := Capture.sha256 Sha256.sha256 [0x41]
  kernel := PosixPath.parse "/in/Image.gz"
  output := PosixPath.parse "/out/kernel-unsigned-do-not-flash.img"
  toolsDir := PosixPath.parse "/tools"

def sampleDisk : Disk := fun path =>
  if path = PosixPath.parse "/in/boot.img" then some [0x41]
  else if path = PosixPath.parse "/in/Image.gz" then some [0x4B, 0x32]
  else if path ∈ [PosixPath.parse "/tools/mkbootimg/unpack_bootimg.py",
      PosixPath.parse "/tools/mkbootimg/mkbootimg.py",
      PosixPath.parse "/tools/avb/avbtool.py"] then some []
  else none

def sampleHost (tools : Tools) : Host where
  layout := ⟨PosixPath.parse "/", by decide, Dict.empty⟩
  loops _ := false
  tools := tools
  mkdir _ := .ok ()
  mkdtemp _ := .ok ⟨"rt7-boot-x", by decide⟩

def sampleInfo : String := "Original image size:      1 bytes\n"

section
variable {flag : String} (hflag : flag ∈ ["--second", "--recovery_dtbo"]) (extra : Bytes)

/-- The second component of a custom image is unpacked as given. -/
def sampleRegistry : Registry where
  known image :=
    if image = [0x41] then some (sampleContents flag hflag [0x4B] [0x53])
    else if image = [0x42] then some (sampleContents flag hflag [0x4B, 0x32] extra)
    else none
  packed := [([0x41], sampleContents flag hflag [0x4B] [0x53]),
    ([0x42], sampleContents flag hflag [0x4B, 0x32] [0x53])]
  info := encodeUtf8 sampleInfo
  printable := by
    intro image c hc
    have hc' : ∃ kernel extra, c = sampleContents flag hflag kernel extra := by
      split_ifs at hc
      · exact ⟨_, _, (Option.some.inj hc).symm⟩
      · exact ⟨_, _, (Option.some.inj hc).symm⟩
    obtain ⟨kernel, extra, rfl⟩ := hc'
    have hzero : ∀ flag ∈ ["--second", "--recovery_dtbo"], '\x00' ∉ flag.toList := by decide
    have hsought : ∀ flag ∈ "--kernel" :: soughtFlags, '\x00' ∉ flag.toList := by decide
    intro p hp
    simp only [sampleContents, List.mem_cons, List.not_mem_nil, or_false] at hp
    obtain rfl | rfl | rfl | rfl | rfl := hp
    · exact ⟨hsought "--kernel" (by decide), fun text htext => by cases htext⟩
    · exact ⟨hsought "--ramdisk" (by decide), fun text htext => by cases htext⟩
    · exact ⟨hzero _ hflag, fun text htext => by cases htext⟩
    · exact ⟨hsought "--dtb" (by decide), fun text htext => by cases htext⟩
    · refine ⟨hsought "--cmdline" (by decide), ?_⟩
      rintro text ⟨⟩
      decide

def sampleScenario : Scenario where
  inputs := sampleInputs
  option := none
  disk := sampleDisk
  name := ⟨"rt7-boot-x", by decide⟩
  boot := [0x41]
  payloadSize := 1
  avbInfo := sampleInfo
  contents := sampleContents flag hflag [0x4B] [0x53]
  image := [0x42]

theorem sample_prepared (tools : Tools) :
    Prepared Sha256.sha256 (sampleHost tools) sampleOptions sampleDisk sampleInputs := by
  have resolve_eq (path : PosixPath) (resolved : ResolvedPath)
      (h : LinkLayout.resolved ⟨PosixPath.parse "/", by decide, Dict.empty⟩ path.str = resolved) :
      (sampleHost tools).resolve path = .ok resolved := by
    rw [← h]
    rfl
  have hfiles : ∀ path ∈ requiredPaths sampleInputs.bootImage sampleInputs.kernel none
      ⟨PosixPath.parse "/tools", by decide⟩, sampleDisk path ≠ none := by decide +kernel
  exact {
    bootImage := resolve_eq _ _ (by decide +kernel)
    kernel := resolve_eq _ _ (by decide +kernel)
    ramdisk := rfl
    output := resolve_eq _ _ (by decide +kernel)
    files := ⟨⟨PosixPath.parse "/tools", by decide⟩, resolve_eq _ _ (by decide +kernel), hfiles⟩
    outside := by decide +kernel
    named := by decide +kernel
    digest := ⟨[0x41], rfl, rfl, rfl⟩ }

/-- the paths of the run -/
theorem sample_paths :
    sampleInputs.output.path.parent / "rt7-boot-x" = PosixPath.parse "/out/rt7-boot-x" ∧
    sampleInputs.kernel.path.str = "/in/Image.gz" ∧
    (∀ directory ∈ [PosixPath.parse "/out/rt7-boot-x", stockParts (PosixPath.parse "/out/rt7-boot-x"),
      customParts (PosixPath.parse "/out/rt7-boot-x")], '\x00' ∉ directory.str.toList) ∧
    sampleInputs.bootImage.path ≠ temporaryPath sampleInputs.output.path ∧
    sampleInputs.kernel.path ≠ temporaryPath sampleInputs.output.path := by decide +kernel

/-- the files of the run: outside the temporary directory, and none where the output will be -/
theorem sample_files :
    (∀ path ∈ [PosixPath.parse "/in/boot.img", PosixPath.parse "/in/Image.gz",
      PosixPath.parse "/tools/mkbootimg/unpack_bootimg.py",
      PosixPath.parse "/tools/mkbootimg/mkbootimg.py", PosixPath.parse "/tools/avb/avbtool.py"],
      PosixPath.parse "/out/rt7-boot-x" ∉ path.parents) ∧
    sampleDisk sampleInputs.kernel.path = some [0x4B, 0x32] ∧
    sampleDisk sampleInputs.output.path = none ∧
    sampleDisk (manifestPath sampleInputs.output.path) = none := by decide +kernel

theorem sample_temporary :
    (sampleScenario hflag).temporary = PosixPath.parse "/out/rt7-boot-x" := sample_paths.1

theorem sample_outside : ∀ path, PosixPath.parse "/out/rt7-boot-x" ∈ path.parents →
    sampleDisk path = none := by
  intro path hpath
  by_contra hsome
  refine sample_files.1 path ?_ hpath
  rw [sampleDisk] at hsome
  split_ifs at hsome with hboot hkernel htool
  · exact List.mem_cons.mpr (.inl hboot)
  · exact List.mem_cons_of_mem _ (List.mem_cons.mpr (.inl hkernel))
  · exact List.mem_cons_of_mem _ (List.mem_cons_of_mem _ htool)
  · exact absurd rfl hsome

theorem sample_size (image : PosixPath) (disk : Disk) :
    originalPayloadSize (sampleRegistry hflag extra).tools image disk = .ok (1, sampleInfo) := by
  have hsize : searchSize true sampleInfo.toList = some 1 := by decide +kernel
  have hinfo : (sampleRegistry hflag extra).tools.infoImage image disk
      = .ok (encodeUtf8 sampleInfo) := rfl
  rw [originalPayloadSize, hinfo, ok_bind, decodeUtf8_encodeUtf8, ok_bind, hsize]
  rfl

theorem sample_unique (kernel : Bytes) {made : Bytes}
    (hmade : made = if kernel = [0x4B] then [0x41] else [0x42]) :
    ∀ image ∈ (sampleRegistry hflag extra).packed,
      (sampleContents flag hflag kernel [0x53]).items = image.2.items → image.1 = made := by
  intro image himage hitems
  have hkernel : kernel = [0x4B] ∧ image.1 = [0x41] ∨ kernel = [0x4B, 0x32] ∧ image.1 = [0x42] := by
    cases himage with
    | head =>
      injection hitems with hfirst
      cases hfirst
      exact .inl ⟨rfl, rfl⟩
    | tail _ himage =>
      obtain rfl := List.mem_singleton.mp himage
      injection hitems with hfirst
      cases hfirst
      exact .inr ⟨rfl, rfl⟩
  obtain ⟨rfl, himage⟩ | ⟨rfl, himage⟩ := hkernel
  · rw [himage, hmade]
    rfl
  · rw [himage, hmade]
    rfl

theorem sample_rebuilt : (sampleRegistry hflag extra).tools.mkbootimg
    (flat (sampleScenario hflag).stockPairs) (sampleScenario hflag).unpackedDisk
      = .ok (some [0x41]) :=
  mkbootimg_eq List.mem_cons_self names_arguments (plain_arguments _ _)
    (sample_unique hflag extra [0x4B] rfl)

/-- the arguments of the custom image: another kernel -/
theorem sample_customPairs : (sampleScenario hflag).customPairs =
    ("--kernel", "/in/Image.gz") :: (sampleScenario hflag).stockPairs.tail := by
  rw [← sample_paths.2.1]
  rfl

theorem sample_kernel : (sampleScenario hflag).stockDisk (PosixPath.parse "/in/Image.gz")
    = some [0x4B, 0x32] := by
  have houtside : (sampleScenario hflag).temporary ∉ (PosixPath.parse "/in/Image.gz").parents := by
    rw [sample_temporary]
    exact sample_files.1 _ (List.mem_cons_of_mem _ List.mem_cons_self)
  rw [stockDisk_outside houtside]
  exact sample_files.2.1

theorem sample_names :
    Names (sampleScenario hflag).stockDisk (sampleScenario hflag).customPairs
      (sampleContents flag hflag [0x4B, 0x32] [0x53]).items := by
  have hstock : Names (sampleScenario hflag).stockDisk (sampleScenario hflag).stockPairs
      (sampleContents flag hflag [0x4B] [0x53]).items :=
    names_of_denotes fun flag item hitem => denotes_stock hitem
  rw [sample_customPairs]
  exact .cons ⟨rfl, sample_kernel hflag⟩ (List.forall₂_cons.mp hstock).2

theorem sample_plain : Plain (sampleScenario hflag).customPairs := by
  rw [sample_customPairs]
  refine List.forall_mem_cons.mpr ⟨by decide, fun p hp => ?_⟩
  exact plain_arguments _ _ p (List.mem_of_mem_tail hp)

theorem sample_made : (sampleRegistry hflag extra).tools.mkbootimg
    (flat (sampleScenario hflag).customPairs) (sampleScenario hflag).stockDisk
      = .ok (some [0x42]) :=
  mkbootimg_eq (List.mem_cons_of_mem _ List.mem_cons_self) (sample_names hflag)
    (sample_plain hflag) (sample_unique hflag extra [0x4B, 0x32] rfl)

theorem sample_nonzero : '\x00' ∉ (sampleScenario hflag).temporary.str.toList := by
  rw [sample_temporary]
  exact sample_paths.2.2.1 _ List.mem_cons_self

theorem sample_runs : (sampleScenario hflag).Runs (sampleHost (sampleRegistry hflag extra).tools)
    (sampleContents flag hflag [0x4B, 0x32] extra) where
  mkdir := rfl
  mkdtemp := rfl
  fresh path hpath := sample_outside path (sample_temporary hflag ▸ hpath)
  size := sample_size hflag extra _ _
  boot := rfl
  payload := Nat.le_refl 1
  kernel := List.mem_cons_self
  ramdisk h := absurd h Bool.false_ne_true
  cmdline h := absurd h Bool.false_ne_true
  suffix _ h := by cases h
  unpackStock := by
    refine unpackArgs_eq rfl rfl ?_
    rw [sample_temporary]
    exact sample_paths.2.2.1 _ (List.mem_cons_of_mem _ List.mem_cons_self)
  rebuilt := sample_rebuilt hflag extra
  made := sample_made hflag extra
  unpackCustom := by
    refine unpackArgs_eq write_self rfl ?_
    rw [sample_temporary]
    exact sample_paths.2.2.1 _ (List.mem_cons_of_mem _ (List.mem_cons_of_mem _ List.mem_cons_self))

theorem sample_intact : (sampleScenario hflag).Intact
    (sampleContents flag hflag [0x4B, 0x32] extra) where
  kernel := ⟨[0x4B, 0x32], List.mem_cons_self, sample_files.2.1⟩
  ramdisk := ⟨[0x52], List.mem_cons_of_mem _ List.mem_cons_self,
    List.mem_cons_of_mem _ List.mem_cons_self⟩
  dtb := by
    have h (kernel extra : Bytes) : ("--dtb", Item.file [0x44])
        ∈ (sampleContents flag hflag kernel extra).items :=
      List.mem_cons_of_mem _ (List.mem_cons_of_mem _ (List.mem_cons_of_mem _ List.mem_cons_self))
    exact ⟨[0x44], h _ _, h _ _⟩
  fits := Nat.le_refl 1

theorem sample_returned : Returned (sampleScenario hflag).customPairs
    (sampleContents flag hflag [0x4B, 0x32] extra).items := by
  have h := (sample_names hflag).returned
  rw [sample_customPairs] at h ⊢
  cases h with
  | cons hkernel h =>
    cases h with
    | cons hramdisk h =>
      cases h with
      | cons hextra h =>
        exact .cons hkernel (.cons hramdisk (.cons ⟨hextra.1, fun text htext => by cases htext⟩ h))

theorem sample_checked (hrecovery : "--recovery_dtbo" ≠ flag) :
    (sampleScenario hflag).Checked (sampleHost (sampleRegistry hflag extra).tools)
      (sampleContents flag hflag [0x4B, 0x32] extra) := by
  refine ((sample_intact hflag extra).checked_iff (sample_runs hflag extra)
    (sample_returned hflag extra) (sample_plain hflag)).mpr ?_
  show "--recovery_dtbo" ∉ ["--kernel", "--ramdisk", flag, "--dtb", "--cmdline"]
  simp [hrecovery]

theorem sample_absent : (sampleScenario hflag).disk (sampleScenario hflag).inputs.output.path = none ∧
    (sampleScenario hflag).disk (manifestPath (sampleScenario hflag).inputs.output.path) = none := by
  dsimp only [sampleScenario]
  exact sample_files.2.2

theorem sample_inputs_ne : (sampleScenario hflag).inputs.bootImage.path
      ≠ temporaryPath (sampleScenario hflag).inputs.output.path ∧
    (sampleScenario hflag).inputs.kernel.path
      ≠ temporaryPath (sampleScenario hflag).inputs.output.path := sample_paths.2.2.2

theorem sample_published (hrecovery : "--recovery_dtbo" ≠ flag) :
    ∃ final, main Sha256.sha256 (sampleHost (sampleRegistry hflag extra).tools) sampleOptions
        sampleDisk = .ok final ∧ final sampleInputs.output.path = some [0x42] := by
  have hiff := main_iff (sample_runs hflag extra) (sample_prepared _) rfl (sample_absent hflag).1
    (sample_absent hflag).2
  have hleft := hiff.mpr ⟨sample_checked hflag extra hrecovery, sample_inputs_ne hflag⟩
  cases hleft with
  | intro final h => exact ⟨final, h.1, h.2.1⟩

theorem sample_fresh (tools : Tools) : Fresh (sampleHost tools) sampleInputs sampleDisk := by
  intro name hname path hpath
  cases hname
  rw [sample_paths.1] at hpath
  exact sample_outside path hpath

theorem sample_written (hrecovery : "--recovery_dtbo" ≠ flag) :
    ∃ ramdisk, OutputWritten Sha256.sha256 (sampleHost (sampleRegistry hflag extra).tools) sampleInputs
      none sampleDisk
      ((sampleScenario hflag).repacked (sampleContents flag hflag [0x4B, 0x32] extra) ramdisk) := by
  have houtside := (@outside_output (sampleScenario hflag).inputs (sampleScenario hflag).temporary
    (sampleScenario hflag).name (sample_prepared (sampleRegistry hflag extra).tools).named rfl).1
  have habsent : (sampleScenario hflag).finalDisk (sampleContents flag hflag [0x4B, 0x32] extra)
      (sampleScenario hflag).inputs.output.path = none := by
    rw [finalDisk_outside houtside]
    exact (sample_absent hflag).1
  exact OutputWritten.of_runs (sample_runs hflag extra) (sample_checked hflag extra hrecovery) habsent

end

/-- the small image, with its second component -/
theorem preserved_iff_sample : ∃ r : Repacked, ∃ stock packed, r.stockArguments = flat stock ∧
    RoundTripped (@sampleRegistry "--second" (by decide) [0x53]).tools sampleInputs r.temporary
      r.payloadSize sampleDisk (r.stockArguments, packed) ∧
    ((∀ tools, PrintsPairs tools → StockAlike (@sampleRegistry "--second" (by decide) [0x53]).tools tools
        sampleInputs r.temporary sampleDisk →
        ∀ r', OutputWritten Sha256.sha256 (sampleHost tools) sampleInputs none sampleDisk r' →
          Kept tools sampleInputs sampleDisk packed r') ↔
      Comparable sampleInputs r.temporary packed stock) := by
  obtain ⟨ramdisk, hwritten⟩ := @sample_written "--second" (by decide) [0x53] (by decide)
  have hprepared := sample_prepared (@sampleRegistry "--second" (by decide) [0x53]).tools
  exact ⟨_, preserved_iff (printsPairs _) hprepared (sample_fresh _) hwritten⟩

/-- a tool that unpacks another second component: the image is published -/
theorem second_not_compared :
    PrintsPairs (@sampleRegistry "--second" (by decide) [0x58]).tools ∧
    (∃ final, main Sha256.sha256 (sampleHost (@sampleRegistry "--second" (by decide) [0x58]).tools)
        sampleOptions sampleDisk = .ok final ∧ final sampleInputs.output.path = some [0x42]) ∧
    ∃ r, repack Sha256.sha256 (sampleHost (@sampleRegistry "--second" (by decide) [0x58]).tools)
        sampleInputs none sampleDisk = .ok r ∧ r.image = [0x42] ∧
      ∀ packed, ¬ Kept (@sampleRegistry "--second" (by decide) [0x58]).tools sampleInputs sampleDisk
        packed r := by
  have hsecond : "--second" ∈ ["--second", "--recovery_dtbo"] := by decide
  have hruns := @sample_runs "--second" hsecond [0x58]
  have hchecked := @sample_checked "--second" hsecond [0x58] (by decide)
  refine ⟨printsPairs _, sample_published hsecond [0x58] (by decide), ?_⟩
  obtain ⟨ramdisk, hr⟩ := @exists_repacked _ _ _ Sha256.sha256 hruns hchecked
  refine ⟨_, hr, rfl, ?_⟩
  rintro packed ⟨custom, unpacked, hcustom, hunpacked, hpreserved⟩
  obtain rfl := flat_injective hcustom
  obtain rfl := flat_injective hunpacked
  have hpacked := (roundTrip_eq_ok.mpr hruns.roundTripped).symm.trans
    (roundTrip_eq_ok.mpr hpreserved.rebuilt)
  obtain rfl : (sampleScenario hsecond).stockDisk = packed := (Prod.mk.inj (Except.ok.inj hpacked)).2
  have hmem (kernel extra : Bytes) : ("--second", Item.file extra)
      ∈ (sampleContents "--second" hsecond kernel extra).items :=
    List.mem_cons_of_mem _ (List.mem_cons_of_mem _ List.mem_cons_self)
  obtain ⟨path, content, hpath, hnamed, hpart⟩ := hpreserved.components "--second" (by decide) (by
    rw [map_fst_arguments]
    exact List.mem_map.mpr ⟨_, hmem _ _, rfl⟩)
  have hstockMem : ("--second", Item.file [0x53]) ∈ (sampleScenario hsecond).contents.items :=
    hmem _ _
  rw [lookup_scenario_ne (by decide), Scenario.stockPairs, lookup_arguments hstockMem] at hpath
  obtain rfl := Option.some.inj hpath
  rw [Item.argument, PosixPath.parse_str, stock_part hstockMem] at hnamed
  have hnew : (sampleScenario hsecond).finalDisk (sampleContents "--second" hsecond [0x4B, 0x32] [0x58])
      (customParts (sampleScenario hsecond).temporary / partName "--second") = some [0x58] :=
    final_custom (hmem _ _) rfl
  cases hnamed.trans (hpart.symm.trans hnew)

end RT7.Boot
