import RT7.Boot.Registry
import RT7.Boot.Scenario

/-!
# What the repack check establishes

* `customArguments_eq_ok`   the custom arguments of a run, as flags and values;
* `mask_eq_of_normalized`   what equal normalised arguments say, also where the command line is a
  flag that is masked;
* `Preserved`       every component unpacked from the custom image is the file that was asked for,
  and every other argument is the one that was asked for;
* `Comparable`      the stock arguments leave nothing to compare but what the script compares;
* `Packed`          what a run has when it packs its custom image;
* `Packed.kept`     where the second holds, the first does.
-/

namespace RT7.Boot

open Py Text Pairs

/-! ## the custom arguments of a run -/

section
variable {pairs : List (String × String)} {arguments : List String} {name : String}
  {path : PosixPath}

theorem replaceArgument_eq_ok (h : NotValue name pairs)
    (hok : replaceArgument (flat pairs) name path = .ok arguments) :
    name ∈ pairs.map Prod.fst ∧ arguments = flat (assign name path.str pairs) := by
  have hmem : name ∈ pairs.map Prod.fst := by
    obtain ⟨index, hindex, -⟩ := bind_eq_ok.mp hok
    rw [require_eq_ok] at hindex
    by_contra hnot
    rw [← mem_flat h, ← List.idxOf?_eq_none_iff] at hnot
    rw [hnot] at hindex
    cases hindex
  rw [replaceArgument_flat h hmem] at hok
  exact ⟨hmem, (Except.ok.inj hok).symm⟩

theorem appendOption_eq_ok {option : Option String} (h : NotValue "--cmdline" pairs)
    (hok : appendOption (flat pairs) option = .ok arguments) :
    ((givenSuffix option).isSome → "--cmdline" ∈ pairs.map Prod.fst) ∧
      arguments = flat (assignCmdline pairs option) := by
  have hok' := hok
  rw [appendOption_eq] at hok'
  have hmem : (givenSuffix option).isSome → "--cmdline" ∈ pairs.map Prod.fst := by
    intro hsome
    obtain ⟨suffix, hsuffix⟩ := Option.isSome_iff_exists.mp hsome
    rw [hsuffix] at hok'
    obtain ⟨-, hrest⟩ := raiseIf_bind_eq_ok.mp hok'
    obtain ⟨index, hindex, -⟩ := bind_eq_ok.mp hrest
    rw [require_eq_ok] at hindex
    by_contra hnot
    rw [← mem_flat h, ← List.idxOf?_eq_none_iff] at hnot
    rw [hnot] at hindex
    cases hindex
  have haccepted : ∀ s ∈ givenSuffix option, AcceptedSuffix s := by
    intro s hs
    rw [Option.mem_def] at hs
    rw [hs] at hok'
    exact not_invalid_iff.mp (raiseIf_bind_eq_ok.mp hok').1
  rw [appendOption_flat h hmem haccepted] at hok
  exact ⟨hmem, (Except.ok.inj hok).symm⟩

/-- **The custom arguments of a run that gets that far.** -/
theorem customArguments_eq_ok {kernel : ResolvedPath} {ramdisk : Option ResolvedPath}
    {option : Option String} (h : Plain pairs)
    (hok : customArguments (flat pairs) kernel.path (ramdisk.map ResolvedPath.path) option
      = .ok arguments) :
    "--kernel" ∈ pairs.map Prod.fst ∧ (ramdisk.isSome → "--ramdisk" ∈ pairs.map Prod.fst) ∧
      ((givenSuffix option).isSome → "--cmdline" ∈ pairs.map Prod.fst) ∧
      arguments = flat (customPairs pairs kernel.path (ramdisk.map ResolvedPath.path) option) := by
  obtain ⟨first, hfirst, hok⟩ := bind_eq_ok.mp hok
  obtain ⟨second, hsecond, hok⟩ := bind_eq_ok.mp hok
  have hk : Plain (assign "--kernel" kernel.path.str pairs) :=
    h.assign (str_not_mem_soughtFlags kernel)
  obtain ⟨hkernel, rfl⟩ := replaceArgument_eq_ok (h.notValue (by decide)) hfirst
  have hramdisk : (ramdisk.isSome → "--ramdisk" ∈ pairs.map Prod.fst) ∧
      second = flat (assignRamdisk (assign "--kernel" kernel.path.str pairs)
        (ramdisk.map ResolvedPath.path)) := by
    cases ramdisk with
    | none =>
      cases hsecond
      exact ⟨fun h => absurd h (by decide), rfl⟩
    | some ramdisk =>
      obtain ⟨hmem, rfl⟩ := replaceArgument_eq_ok (hk.notValue (by decide)) hsecond
      rw [map_fst_assign] at hmem
      exact ⟨fun _ => hmem, rfl⟩
  obtain ⟨hmem, rfl⟩ := hramdisk
  have hr : Plain (assignRamdisk _ (ramdisk.map ResolvedPath.path)) := hk.assignRamdisk
  obtain ⟨hcmdline, rfl⟩ := appendOption_eq_ok (hr.notValue (by decide)) hok
  rw [map_fst_assignRamdisk, map_fst_assign] at hcmdline
  exact ⟨hkernel, hmem, hcmdline, rfl⟩

end

/-! ## equal normalised arguments -/

section
variable {l l' : List String} {name x v : String} {j : Nat}

/-- a mask keeps an item that does not stand behind a masked flag -/
theorem maskArgument_keeps (hname : name ∈ maskedNames) (h : maskArgument l name = .ok l')
    (hx : l[j]? = some x) (hmasked : x ∉ maskedNames) (hv : l[j + 1]? = some v) :
    (∃ x', l'[j]? = some x' ∧ x' ∉ maskedNames) ∧ l'[j + 1]? = some v := by
  rw [maskArgument] at h
  cases hindex : l.idxOf? name with
  | none =>
    rw [hindex] at h
    cases h
    exact ⟨⟨x, hx, hmasked⟩, hv⟩
  | some index =>
    rw [hindex] at h
    dsimp only at h
    rw [setItem] at h
    split_ifs at h with hlt
    cases h
    have hat : l[index]? = some name := by
      obtain ⟨hlt', heq, -⟩ := List.idxOf?_eq_some_iff.mp hindex
      rw [List.getElem?_eq_getElem hlt', heq]
    have hne : index ≠ j := by
      intro e
      rw [e, hx] at hat
      cases hat
      exact hmasked hname
    refine ⟨?_, ?_⟩
    · by_cases hj : index + 1 = j
      · refine ⟨placeholder name, ?_, ?_⟩
        · rw [← hj, List.getElem?_set_self hlt]
        · exact fun hmem => placeholder_not_mem name hname (maskedNames_subset hmem)
      · exact ⟨x, by rw [List.getElem?_set_ne hj, hx], hmasked⟩
    · rw [List.getElem?_set_ne (by omega), hv]

theorem foldlM_maskArgument_keeps {names : List String} (hnames : names ⊆ maskedNames)
    (h : names.foldlM maskArgument l = .ok l') (hx : l[j]? = some x) (hmasked : x ∉ maskedNames)
    (hv : l[j + 1]? = some v) : l'[j + 1]? = some v := by
  induction names generalizing l x with
  | nil =>
    cases h
    exact hv
  | cons name names ih =>
    obtain ⟨hname, hrest⟩ := List.cons_subset.mp hnames
    rw [List.foldlM_cons] at h
    obtain ⟨next, hnext, h⟩ := bind_eq_ok.mp h
    obtain ⟨⟨x', hx', hmasked'⟩, hv'⟩ := maskArgument_keeps hname hnext hx hmasked hv
    exact ih hrest h hx' hmasked' hv'

/-- a command line that is a masked flag survives the mask, and the other list has no such value -/
theorem unmasked_assign {pre unpacked : List (String × String)} (hpre : Plain pre)
    (hunpacked : Plain unpacked) (hcmdline : "--cmdline" ∈ pre.map Prod.fst)
    (hleft : normalizedArguments (flat (assign "--cmdline" v pre)) = .ok l)
    (hright : normalizedArguments (flat unpacked) = .ok l) : Unmasked (assign "--cmdline" v pre) := by
  intro name hname
  refine (hpre.unmasked name hname).assign fun e => ?_
  subst e
  obtain ⟨i, hindex, hlt, -, hset⟩ := exists_index (hpre.notValue (by decide)) hcmdline
  have hflag : (flat (assign "--cmdline" v pre))[2 * i]? = some "--cmdline" := by
    obtain ⟨hlt', heq, -⟩ := List.idxOf?_eq_some_iff.mp hindex
    rw [← hset v, List.getElem?_set_ne (by omega), List.getElem?_eq_getElem hlt', heq]
  have hvalue : (flat (assign "--cmdline" v pre))[2 * i + 1]? = some v := by
    rw [← hset v, List.getElem?_set_self hlt]
  have hkept : l[2 * i + 1]? = some v :=
    foldlM_maskArgument_keeps (List.Subset.refl _) hleft hflag (by decide) hvalue
  rw [normalizedArguments_flat hunpacked.unmasked] at hright
  cases hright
  rw [getElem?_flat_snd, Option.map_eq_some_iff] at hkept
  obtain ⟨p, hp, rfl⟩ := hkept
  exact hunpacked.mask p (List.mem_of_getElem? hp) (maskedNames_subset hname)

/-- **Equal normalised arguments are equal masked arguments.** -/
theorem mask_eq_of_normalized {stock unpacked : List (String × String)} {kernel : ResolvedPath}
    {ramdisk : Option ResolvedPath} {option : Option String} (hstock : Plain stock)
    (hunpacked : Plain unpacked)
    (hcmdline : (givenSuffix option).isSome → "--cmdline" ∈ stock.map Prod.fst)
    (hleft : normalizedArguments
      (flat (customPairs stock kernel.path (ramdisk.map ResolvedPath.path) option)) = .ok l)
    (hright : normalizedArguments (flat unpacked) = .ok l) :
    mask placeholder maskedNames
        (customPairs stock kernel.path (ramdisk.map ResolvedPath.path) option)
      = mask placeholder maskedNames unpacked := by
  have hpre : Plain (assignRamdisk (assign "--kernel" kernel.path.str stock)
      (ramdisk.map ResolvedPath.path)) :=
    (hstock.assign (str_not_mem_soughtFlags kernel)).assignRamdisk
  have hunmasked : Unmasked (customPairs stock kernel.path (ramdisk.map ResolvedPath.path) option) := by
    rw [customPairs, assignCmdline] at hleft ⊢
    cases hgiven : givenSuffix option with
    | none => exact hpre.unmasked
    | some suffix =>
      rw [hgiven] at hleft hcmdline
      refine unmasked_assign hpre hunpacked ?_ hleft hright
      rw [map_fst_assignRamdisk, map_fst_assign]
      exact hcmdline rfl
  rw [normalizedArguments_flat hunmasked] at hleft
  rw [normalizedArguments_flat hunpacked.unmasked] at hright
  refine flat_injective ?_
  rw [Except.ok.inj hleft, Except.ok.inj hright]

end

/-! ## what is established -/

/-- The arguments that name no component. -/
def headerPairs (pairs : List (String × String)) : List (String × String) :=
  pairs.filter fun p => decide (p.1 ∉ componentFlags)

/-- The custom image holds what was asked for: `packed` is the disk that it was packed from. -/
structure Preserved (tools : Tools) (inputs : Inputs) (disk packed : Disk) (r : Repacked)
    (custom unpacked : List (String × String)) : Prop where
  components : ∀ flag ∈ componentFlags, flag ∈ unpacked.map Prod.fst →
    ∃ path content, custom.lookup flag = some path ∧
      packed (PosixPath.parse path) = some content ∧
      r.disk (customParts r.temporary / partName flag) = some content
  header : headerPairs unpacked = headerPairs custom
  size : r.image.length ≤ r.payloadSize
  rebuilt : RoundTripped tools inputs r.temporary r.payloadSize disk (r.stockArguments, packed)

/-- What the run printed as flags and values. -/
def Kept (tools : Tools) (inputs : Inputs) (disk packed : Disk) (r : Repacked) : Prop :=
  ∃ custom unpacked, r.customArguments = flat custom ∧ r.unpackedArguments = flat unpacked ∧
    Preserved tools inputs disk packed r custom unpacked

/-- The stock arguments leave nothing to compare but what the script compares: they name the stock
files that it compares with, and neither of the components that it does not look at. -/
structure Comparable (inputs : Inputs) (temporary : PosixPath) (packed : Disk)
    (stock : List (String × String)) : Prop where
  named : ∀ flag ∈ ["--ramdisk", "--dtb"], (flag = "--ramdisk" → inputs.ramdisk = none) →
    flag ∈ stock.map Prod.fst → ∃ path, stock.lookup flag = some path ∧
      SameContent packed (stockParts temporary / partName flag) (PosixPath.parse path)
  absent : ∀ flag ∈ ["--second", "--recovery_dtbo"], flag ∉ stock.map Prod.fst

theorem exists_pairs {tools : Tools} (htools : PrintsPairs tools) {image output : PosixPath}
    {disk : Disk} {unpacked : List String × Disk}
    (h : unpackArgs tools image output disk = .ok unpacked) :
    ∃ pairs, unpacked.1 = flat pairs ∧ Plain pairs := by
  obtain ⟨result, hresult, h⟩ := bind_eq_ok.mp h
  obtain ⟨arguments, harguments, h⟩ := bind_eq_ok.mp h
  cases pure_eq_ok.mp h
  exact htools _ _ _ _ _ hresult harguments

/-! ## the disk while the custom image is made -/

section
variable {tools : Tools} {inputs : Inputs} {temporary path : PosixPath} {option : Option String}
  {stock : List String} {packed : Disk} {custom unpacked : List String × Disk} {flag : String}

theorem runMkbootimg_ne {image : PosixPath} {arguments : List String} {disk disk' : Disk}
    (h : runMkbootimg tools image arguments disk = .ok disk') (hne : path ≠ image) :
    disk' path = disk path := by
  obtain ⟨made, -, h⟩ := bind_eq_ok.mp h
  cases made with
  | none =>
    cases h
    rfl
  | some content =>
    cases h
    exact write_ne hne

theorem unpackArgs_ne {image output : PosixPath} {disk : Disk}
    (h : unpackArgs tools image output disk = .ok unpacked) (hne : path.parent ≠ output) :
    unpacked.2 path = disk path := by
  obtain ⟨result, -, h⟩ := bind_eq_ok.mp h
  obtain ⟨arguments, -, h⟩ := bind_eq_ok.mp h
  cases pure_eq_ok.mp h
  exact writeFiles_of_parent_ne hne

/-- what is packed stays, but for the custom image and its parts -/
theorem unpacked_ne (hbuild : buildCustom tools inputs temporary option stock packed = .ok custom)
    (hunpack : unpackArgs tools (customTemporary temporary) (customParts temporary) custom.2
      = .ok unpacked) (himage : path ≠ customTemporary temporary)
    (hparts : path.parent ≠ customParts temporary) : unpacked.2 path = packed path := by
  obtain ⟨arguments, -, hbuild⟩ := bind_eq_ok.mp hbuild
  obtain ⟨disk, hmake, hbuild⟩ := bind_eq_ok.mp hbuild
  cases pure_eq_ok.mp hbuild
  dsimp only at hunpack ⊢
  rw [unpackArgs_ne hunpack hparts, runMkbootimg_ne hmake himage]

theorem stock_part_apart (hflag : flag ∈ componentFlags) :
    stockParts temporary / partName flag ≠ customTemporary temporary ∧
      (stockParts temporary / partName flag).parent ≠ customParts temporary := by
  have hcomponent := component_partName flag hflag
  refine ⟨PosixPath.div_div_ne (by decide) hcomponent (by decide), ?_⟩
  rw [PosixPath.parent_div hcomponent]
  intro e
  have hnames := ((PosixPath.div_inj (by decide) (by decide)).mp e).2
  exact absurd hnames (by decide)

theorem outside_apart (h : temporary ∉ path.parents) :
    path ≠ customTemporary temporary ∧ path.parent ≠ customParts temporary := by
  constructor
  · rintro rfl
    exact h (PosixPath.mem_parents_div (by decide))
  · intro e
    obtain ⟨hroot, hpre, hne⟩ := PosixPath.mem_parents.mp
      (PosixPath.mem_parents_div (p := temporary) (n := "custom") (by decide))
    rw [show temporary / "custom" = path.parent from e.symm] at hroot hpre hne
    have hpre' := hpre.trans (List.dropLast_prefix path.parts)
    refine h (PosixPath.mem_parents.mpr ⟨hroot, hpre', fun e' => hne ?_⟩)
    refine hpre.eq_of_length (Nat.le_antisymm hpre.length_le ?_)
    rw [e']
    exact (List.dropLast_prefix path.parts).length_le

end

/-! ## the comparisons -/

section
variable {inputs : Inputs} {r : Repacked} {stock : List (String × String)} {option : Option String}
  {tools : Tools} {payloadSize : Nat} {arguments : List String} {disk packed : Disk}

/-- The components that the script compares with what was asked for. -/
theorem compared_components (hv : Verified tools inputs r.temporary payloadSize arguments disk
      (r.unpackedArguments, r.disk)) (hkernel : "--kernel" ∈ stock.map Prod.fst)
    (hramdisk : inputs.ramdisk.isSome → "--ramdisk" ∈ stock.map Prod.fst) :
    ∀ flag ∈ ["--kernel", "--ramdisk"], (flag = "--ramdisk" → inputs.ramdisk ≠ none) →
      ∃ given : ResolvedPath, given ∈ inputs.kernel :: inputs.ramdisk.toList ∧
        (customPairs stock inputs.kernel.path (inputs.ramdisk.map ResolvedPath.path)
          option).lookup flag = some given.path.str ∧
        SameContent r.disk given.path (customParts r.temporary / partName flag) := by
  intro flag hflag hgiven
  obtain rfl | hflag := List.mem_cons.mp hflag
  · refine ⟨inputs.kernel, List.mem_cons_self, ?_, ?_⟩
    · rw [customPairs, lookup_assignCmdline_ne fun _ => by decide,
        lookup_assignRamdisk_ne fun _ => by decide, lookup_assign_self hkernel]
    · have hname : partName "--kernel" = "kernel" := by decide
      rw [hname]
      exact hv.kernel
  · obtain rfl := List.mem_singleton.mp hflag
    cases hr : inputs.ramdisk with
    | none => exact absurd hr (hgiven rfl)
    | some ramdisk =>
      rw [hr] at hramdisk
      have hname : partName "--ramdisk" = "ramdisk" := by decide
      refine ⟨ramdisk, List.mem_cons_of_mem _ List.mem_cons_self, ?_, ?_⟩
      · rw [customPairs, lookup_assignCmdline_ne fun _ => by decide]
        exact lookup_assign_self (by rw [map_fst_assign]; exact hramdisk rfl)
      · have hsame := hv.ramdisk
        rw [selectedRamdisk, hr] at hsame
        rw [hname]
        exact hsame

/-- The stock components that the script compares with what came back. -/
theorem stock_components (hv : Verified tools inputs r.temporary payloadSize arguments disk
      (r.unpackedArguments, r.disk)) :
    ∀ flag ∈ ["--ramdisk", "--dtb"], (flag = "--ramdisk" → inputs.ramdisk = none) →
      SameContent r.disk (stockParts r.temporary / partName flag)
        (customParts r.temporary / partName flag) := by
  intro flag hflag hgiven
  obtain rfl | hflag := List.mem_cons.mp hflag
  · have hname : partName "--ramdisk" = "ramdisk" := by decide
    have hsame := hv.ramdisk
    rw [selectedRamdisk, hgiven rfl] at hsame
    rw [hname]
    exact hsame
  · obtain rfl := List.mem_singleton.mp hflag
    have hname : partName "--dtb" = "dtb" := by decide
    rw [hname]
    exact hv.dtb

/-- Flags whose value is not edited. -/
theorem lookup_unedited {flag : String} (hflag : flag ∈ componentFlags) (hk : flag ≠ "--kernel")
    (hr : flag = "--ramdisk" → inputs.ramdisk = none) :
    (customPairs stock inputs.kernel.path (inputs.ramdisk.map ResolvedPath.path) option).lookup flag
      = stock.lookup flag := by
  refine lookup_customPairs_ne hk ?_ ?_
  · intro hsome e
    rw [hr e] at hsome
    exact absurd hsome (by decide)
  · intro e
    subst e
    exact absurd hflag (by decide)

end

/-! ## the run up to the custom image -/

/-- A run that packs its custom image: what it has then, as flags and values. -/
structure Packed (host : Host) (inputs : Inputs) (option : Option String) (disk packed : Disk)
    (r : Repacked) (stock : List (String × String)) : Prop where
  arguments : r.stockArguments = flat stock
  kernel : "--kernel" ∈ stock.map Prod.fst
  ramdisk : inputs.ramdisk.isSome → "--ramdisk" ∈ stock.map Prod.fst
  custom : r.customArguments
    = flat (customPairs stock inputs.kernel.path (inputs.ramdisk.map ResolvedPath.path) option)
  rebuilt : RoundTripped host.tools inputs r.temporary r.payloadSize disk (r.stockArguments, packed)
  verified : ∃ customDisk, buildCustom host.tools inputs r.temporary option r.stockArguments packed
      = .ok (r.customArguments, customDisk) ∧
    Verified host.tools inputs r.temporary r.payloadSize r.customArguments customDisk
      (r.unpackedArguments, r.disk)
  unpacked : ∃ unpacked, r.unpackedArguments = flat unpacked ∧
    unpacked.map Prod.fst = stock.map Prod.fst ∧ headerPairs unpacked = headerPairs
      (customPairs stock inputs.kernel.path (inputs.ramdisk.map ResolvedPath.path) option)
  size : r.image.length ≤ r.payloadSize

section
variable {hash : Bytes → Digest} {host : Host} {inputs : Inputs} {option : Option String}
  {disk packed : Disk} {r : Repacked} {stock : List (String × String)} {flag : String}
  {path : PosixPath}

theorem exists_packed (htools : PrintsPairs host.tools)
    (h : repack hash host inputs option disk = .ok r) :
    ∃ stock packed, Packed host inputs option disk packed r stock := by
  obtain ⟨-, -, ⟨packed, customDisk, hstock, hcustom, hverified⟩, -, himage⟩ := repack_eq_ok.mp h
  obtain ⟨unpackedStock, hunpack, -⟩ := hstock.rebuilt
  obtain ⟨stock, hstockFlat, hstockPlain⟩ := exists_pairs htools hunpack
  obtain ⟨unpacked, hunpackedFlat, hunpackedPlain⟩ := exists_pairs htools hverified.unpack
  dsimp only at hstockFlat hunpackedFlat
  have hbuilt := hcustom
  obtain ⟨arguments, harguments, hcustom⟩ := bind_eq_ok.mp hcustom
  obtain ⟨_, -, hcustom⟩ := bind_eq_ok.mp hcustom
  obtain ⟨rfl, -⟩ := Prod.mk.inj (pure_eq_ok.mp hcustom)
  rw [hstockFlat] at harguments
  obtain ⟨hkernel, hramdisk, hcmdline, hcustomFlat⟩ := customArguments_eq_ok hstockPlain harguments
  obtain ⟨l, hleft, hright⟩ := hverified.arguments
  rw [hcustomFlat] at hleft
  dsimp only at hright
  rw [hunpackedFlat] at hright
  have hmask := mask_eq_of_normalized hstockPlain hunpackedPlain hcmdline hleft hright
  have hflags : unpacked.map Prod.fst = stock.map Prod.fst := by
    rw [← map_fst_mask placeholder maskedNames unpacked, ← hmask, map_fst_mask, map_fst_customPairs]
  have hheader : headerPairs unpacked = headerPairs (customPairs stock inputs.kernel.path
      (inputs.ramdisk.map ResolvedPath.path) option) := by
    have hmasked : ∀ k ∈ maskedNames, decide (k ∉ componentFlags) = false := by decide
    have hfilter := congrArg headerPairs hmask
    rw [headerPairs, headerPairs, filter_mask hmasked, filter_mask hmasked] at hfilter
    exact hfilter.symm
  have hsize : r.image.length ≤ r.payloadSize := by
    obtain ⟨image, himage', hle⟩ := hverified.size
    cases himage.symm.trans himage'
    exact hle
  exact ⟨stock, packed, hstockFlat, hkernel, hramdisk, hcustomFlat, hstock,
    ⟨customDisk, hbuilt, hverified⟩, ⟨unpacked, hunpackedFlat, hflags, hheader⟩, hsize⟩

/-- what is packed is what is compared -/
theorem Packed.disk_ne (h : Packed host inputs option disk packed r stock)
    (hpath : path ≠ customTemporary r.temporary ∧ path.parent ≠ customParts r.temporary) :
    r.disk path = packed path := by
  obtain ⟨customDisk, hbuild, hverified⟩ := h.verified
  exact unpacked_ne hbuild hverified.unpack hpath.1 hpath.2

/-- The file that came back for a flag is the one that was asked for. -/
def Asked (inputs : Inputs) (option : Option String) (packed : Disk) (r : Repacked)
    (stock : List (String × String)) (flag : String) : Prop :=
  ∃ path content, (customPairs stock inputs.kernel.path (inputs.ramdisk.map ResolvedPath.path)
      option).lookup flag = some path ∧ packed (PosixPath.parse path) = some content ∧
    r.disk (customParts r.temporary / partName flag) = some content

theorem Packed.kept_iff (h : Packed host inputs option disk packed r stock) :
    Kept host.tools inputs disk packed r ↔
      ∀ flag ∈ componentFlags, flag ∈ stock.map Prod.fst →
        Asked inputs option packed r stock flag := by
  obtain ⟨unpacked, hunpacked, hflags, hheader⟩ := h.unpacked
  rw [← hflags]
  constructor
  · rintro ⟨custom, unpacked', hcustom, hunpacked', hpreserved⟩
    obtain rfl := flat_injective (h.custom.symm.trans hcustom)
    obtain rfl := flat_injective (hunpacked.symm.trans hunpacked')
    exact hpreserved.components
  · exact fun hcomponents => ⟨_, unpacked, h.custom, hunpacked, hcomponents, hheader, h.size, h.rebuilt⟩

/-- a component that was given is the one that was asked for -/
theorem Packed.asked_given (h : Packed host inputs option disk packed r stock)
    (houtside : ∀ given ∈ inputs.kernel :: inputs.ramdisk.toList, r.temporary ∉ given.path.parents)
    (hflag : flag ∈ ["--kernel", "--ramdisk"]) (hgiven : flag = "--ramdisk" → inputs.ramdisk ≠ none) :
    Asked inputs option packed r stock flag := by
  obtain ⟨customDisk, -, hverified⟩ := h.verified
  obtain ⟨given, hmem, hlookup, content, hpath, hpart⟩ :=
    compared_components hverified h.kernel h.ramdisk flag hflag hgiven
  refine ⟨given.path.str, content, hlookup, ?_, hpart⟩
  rw [PosixPath.parse_str, ← h.disk_ne (outside_apart (houtside given hmem)), hpath]

/-- a stock component that is compared is the one that was asked for exactly when the stock
arguments name it -/
theorem Packed.asked_stock_iff (h : Packed host inputs option disk packed r stock)
    (hflag : flag ∈ ["--ramdisk", "--dtb"]) (hgiven : flag = "--ramdisk" → inputs.ramdisk = none) :
    Asked inputs option packed r stock flag ↔ ∃ path, stock.lookup flag = some path ∧
      SameContent packed (stockParts r.temporary / partName flag) (PosixPath.parse path) := by
  have hsubset : ∀ flag ∈ ["--ramdisk", "--dtb"], flag ∈ componentFlags ∧ flag ≠ "--kernel" := by
    decide
  obtain ⟨hcomponent, hk⟩ := hsubset flag hflag
  obtain ⟨customDisk, -, hverified⟩ := h.verified
  obtain ⟨content, hstock, hpart⟩ := stock_components hverified flag hflag hgiven
  rw [h.disk_ne (stock_part_apart hcomponent)] at hstock
  rw [Asked, lookup_unedited hcomponent hk hgiven]
  constructor
  · rintro ⟨path, content', hpath, hpacked, hpart'⟩
    cases hpart.symm.trans hpart'
    exact ⟨path, hpath, content, hstock, hpacked⟩
  · rintro ⟨path, hpath, content', hstock', hpacked⟩
    cases hstock.symm.trans hstock'
    exact ⟨path, content, hpath, hpacked, hpart⟩

/-- **With comparable stock arguments the custom image holds what was asked for.** -/
theorem Packed.kept (h : Packed host inputs option disk packed r stock)
    (houtside : ∀ given ∈ inputs.kernel :: inputs.ramdisk.toList, r.temporary ∉ given.path.parents)
    (hcomparable : Comparable inputs r.temporary packed stock) :
    Kept host.tools inputs disk packed r := by
  refine h.kept_iff.mpr fun flag hflag hmem => ?_
  -- a flag of a file that was given, of a stock file that is compared, or of neither
  by_cases hedited : flag = "--kernel" ∨ flag = "--ramdisk" ∧ inputs.ramdisk ≠ none
  · refine h.asked_given houtside ?_ ?_
    · rw [List.mem_cons, List.mem_singleton]
      exact hedited.imp id And.left
    · intro e
      subst e
      exact (hedited.resolve_left (by decide)).2
  · obtain ⟨hk, hr⟩ := not_or.mp hedited
    have hgiven : flag = "--ramdisk" → inputs.ramdisk = none := fun e =>
      not_not.mp fun hne => hr ⟨e, hne⟩
    by_cases hnamed : flag ∈ ["--ramdisk", "--dtb"]
    · exact (h.asked_stock_iff hnamed hgiven).mpr (hcomparable.named flag hnamed hgiven hmem)
    · have hrest : ∀ flag ∈ componentFlags, flag ≠ "--kernel" → flag ∉ ["--ramdisk", "--dtb"] →
          flag ∈ ["--second", "--recovery_dtbo"] := by decide
      exact absurd hmem (hcomparable.absent flag (hrest flag hflag hk hnamed))

end

end RT7.Boot
