import RT7.Boot.Tools

/-!
# The run of the script

* `prepare`         the paths and the checks before the tools are called;
* `roundTrip`, `buildCustom`, `verifyCustom`   the stock payload rebuilt, the custom image made, and
  unpacked again;
* `repack`, `main`  the run up to the publication, and as a whole;
* `prepare_eq_ok`, `repack_eq_ok`   what a run that comes to its publication has done and found;
* `publish_eq_finish`   the end of `main` is the publication of what `repack` made.
-/

namespace RT7.Boot

open Py Text Pairs

structure Options where
  bootImg : PosixPath
  expectedBootSha256 : String
  kernel : PosixPath
  ramdisk : Option PosixPath := none
  appendCmdline : Option String := none
  output : PosixPath
  toolsDir : PosixPath := PosixPath.parse "/rt7-work/tools/android-13.0.0_r1"

/-- What a run finds around it. -/
structure Host where
  layout : LinkLayout
  loops : PosixPath → Bool
  tools : Tools
  mkdir : PosixPath → Except Exn Unit
  mkdtemp : PosixPath → Except Exn FileName

/-- `path.resolve()`: the `stat` at its end raises for a loop of links. -/
def Host.resolve (host : Host) (path : PosixPath) : Except Exn ResolvedPath := do
  let resolved := host.layout.resolved path.str
  let text := resolved.path.str
  raiseIf (host.loops resolved.path) (.runtimeError s!"Symlink loop from {text}")
  return resolved

def Host.resolveOption (host : Host) : Option PosixPath → Except Exn (Option ResolvedPath)
  | none => .ok none
  | some path => do
    let resolved ← host.resolve path
    return some resolved

/-- The resolved paths, and the digest of the stock image. -/
structure Inputs where
  bootImage : ResolvedPath
  kernel : ResolvedPath
  ramdisk : Option ResolvedPath
  output : ResolvedPath
  bootSha256 : String

def requiredPaths (bootImage kernel : ResolvedPath) (ramdisk : Option ResolvedPath)
    (toolsDir : ResolvedPath) : List PosixPath :=
  [bootImage.path, kernel.path,
    toolsDir.path / "mkbootimg" / "unpack_bootimg.py",
    toolsDir.path / "mkbootimg" / "mkbootimg.py",
    toolsDir.path / "avb" / "avbtool.py"] ++ (ramdisk.map ResolvedPath.path).toList

def requireFile (disk : Disk) (path : PosixPath) : Except Exn Unit :=
  let text := path.str
  raiseIf (disk path = none) (.runtimeError s!"required input is not a file: {text}")

def prepare (hash : Bytes → Digest) (host : Host) (options : Options) (disk : Disk) :
    Except Exn Inputs := do
  let bootImage ← host.resolve options.bootImg
  let kernel ← host.resolve options.kernel
  let ramdisk ← host.resolveOption options.ramdisk
  let output ← host.resolve options.output
  let toolsDir ← host.resolve options.toolsDir
  (requiredPaths bootImage kernel ramdisk toolsDir).forM (requireFile disk)
  raiseIf (PosixPath.parse "/project" ∈ output.path.parents)
    (.runtimeError "boot artifacts must stay outside the public repository")
  raiseIf (¬ Named output.path) nameError
  let boot ← disk.read bootImage.path
  let actual := Capture.sha256 hash boot
  let expected := options.expectedBootSha256
  raiseIf (actual.toLower ≠ expected.toLower)
    (.runtimeError s!"stock boot hash mismatch: expected {expected}, got {actual}")
  return ⟨bootImage, kernel, ramdisk, output, actual⟩

/-! ## in the temporary directory -/

def stockParts (temporary : PosixPath) : PosixPath := temporary / "stock"

def customParts (temporary : PosixPath) : PosixPath := temporary / "custom"

def stockRoundtrip (temporary : PosixPath) : PosixPath := temporary / "stock-roundtrip.img"

def customTemporary (temporary : PosixPath) : PosixPath :=
  temporary / "custom-unsigned-do-not-flash.img"

/-- `ramdisk or stock_parts / "ramdisk"` -/
def selectedRamdisk (inputs : Inputs) (temporary : PosixPath) : PosixPath :=
  match inputs.ramdisk with
  | none => stockParts temporary / "ramdisk"
  | some ramdisk => ramdisk.path

section
variable (tools : Tools) (inputs : Inputs) (temporary : PosixPath)

/-- The stock payload is rebuilt; the arguments it was rebuilt from. -/
def roundTrip (payloadSize : Nat) (disk : Disk) : Except Exn (List String × Disk) := do
  let stock ← unpackArgs tools inputs.bootImage.path (stockParts temporary) disk
  let disk ← runMkbootimg tools (stockRoundtrip temporary) stock.1 stock.2
  let rebuilt ← disk.read (stockRoundtrip temporary)
  raiseIf (rebuilt.length ≠ payloadSize) (.runtimeError "stock round-trip payload size changed")
  let boot ← disk.read inputs.bootImage.path
  raiseIf (filesEqual boot rebuilt (some payloadSize) = false)
    (.runtimeError "stock round-trip payload is not byte-identical")
  return (stock.1, disk)

def buildCustom (option : Option String) (stockArguments : List String) (disk : Disk) :
    Except Exn (List String × Disk) := do
  let custom ← customArguments stockArguments inputs.kernel.path
    (inputs.ramdisk.map ResolvedPath.path) option
  let disk ← runMkbootimg tools (customTemporary temporary) custom disk
  return (custom, disk)

def requireEqual (disk : Disk) (left right : PosixPath) (message : String) : Except Exn Unit := do
  let leftContent ← disk.read left
  let rightContent ← disk.read right
  raiseIf (filesEqual leftContent rightContent none = false) (.runtimeError message)

/-- The custom image is unpacked again and compared with what was asked for. -/
def verifyCustom (payloadSize : Nat) (custom : List String) (disk : Disk) :
    Except Exn (List String × Disk) := do
  let unpacked ← unpackArgs tools (customTemporary temporary) (customParts temporary) disk
  let expected ← normalizedArguments custom
  let actual ← normalizedArguments unpacked.1
  raiseIf (expected ≠ actual) (.runtimeError "custom image changed boot header arguments")
  requireEqual unpacked.2 inputs.kernel.path (customParts temporary / "kernel")
    "custom image kernel did not round-trip"
  requireEqual unpacked.2 (selectedRamdisk inputs temporary) (customParts temporary / "ramdisk")
    "custom image ramdisk did not round-trip"
  requireEqual unpacked.2 (stockParts temporary / "dtb") (customParts temporary / "dtb")
    "custom image changed stock dtb"
  let image ← unpacked.2.read (customTemporary temporary)
  raiseIf (image.length > payloadSize)
    (.runtimeError "custom boot payload exceeds the signed stock payload size")
  return unpacked

end

def fileRecord (hash : Bytes → Digest) (disk : Disk) (path : PosixPath) : Except Exn FileRecord := do
  let content ← disk.read path
  return ⟨path.name, Capture.sha256 hash content, content.length⟩

/-- What the run has when it comes to `write_idempotent`. -/
structure Repacked where
  temporary : PosixPath
  payloadSize : Nat
  avbInfo : String
  stockArguments : List String
  customArguments : List String
  unpackedArguments : List String
  disk : Disk
  ramdisk : FileRecord
  image : Bytes

def repack (hash : Bytes → Digest) (host : Host) (inputs : Inputs) (option : Option String)
    (disk : Disk) : Except Exn Repacked := do
  host.mkdir inputs.output.path.parent
  let info ← originalPayloadSize host.tools inputs.bootImage.path disk
  let name ← host.mkdtemp inputs.output.path.parent
  let temporary := inputs.output.path.parent / name.val
  let stock ← roundTrip host.tools inputs temporary info.1 disk
  let custom ← buildCustom host.tools inputs temporary option stock.1 stock.2
  let unpacked ← verifyCustom host.tools inputs temporary info.1 custom.1 custom.2
  let ramdisk ← fileRecord hash unpacked.2 (selectedRamdisk inputs temporary)
  let image ← unpacked.2.read (customTemporary temporary)
  return {
    temporary := temporary
    payloadSize := info.1
    avbInfo := info.2
    stockArguments := stock.1
    customArguments := custom.1
    unpackedArguments := unpacked.1
    disk := unpacked.2
    ramdisk := ramdisk
    image := image }

/-! ## the manifest and the end of the run -/

def isLineBreak (c : Char) : Bool :=
  let n := c.toNat
  (10 ≤ n && n ≤ 13) || (28 ≤ n && n ≤ 30) || n == 0x85 || n == 0x2028 || n == 0x2029

/-- The lines from a place on; `line` is the part of the current line that was read, backwards. -/
def splitlinesFrom : List Char → List Char → List String
  | [], [] => []
  | line@(_ :: _), [] => [String.ofList line.reverse]
  | line, '\r' :: '\n' :: rest => String.ofList line.reverse :: splitlinesFrom [] rest
  | line, c :: rest =>
    if isLineBreak c then String.ofList line.reverse :: splitlinesFrom [] rest
    else splitlinesFrom (c :: line) rest

/-- `text.rstrip().splitlines()` -/
def rstripLines (text : String) : List String := splitlinesFrom [] (text.toList.rdropWhile isspace)

/-- The temporary directory is removed. -/
def Disk.removeTree (disk : Disk) (directory : PosixPath) : Disk :=
  fun path => if directory ∈ path.parents then none else disk path

def manifestDetails (hash : Bytes → Digest) (inputs : Inputs) (repacked : Repacked) (disk : Disk) :
    Except Exn Details := do
  let boot ← disk.read inputs.bootImage.path
  let kernel ← fileRecord hash disk inputs.kernel.path
  let arguments ← normalizedArguments repacked.customArguments
  return {
    sourceBoot := ⟨inputs.bootImage.path.name, inputs.bootSha256, boot.length⟩
    payloadSize := repacked.payloadSize
    kernel := kernel
    ramdisk := repacked.ramdisk
    personalized := inputs.ramdisk.isSome
    arguments := arguments
    avbInfo := rstripLines repacked.avbInfo }

def publish (hash : Bytes → Digest) (inputs : Inputs) (repacked : Repacked) : Except Exn Disk := do
  let output := inputs.output.path
  let disk ← require (writeIdempotent output repacked.image repacked.disk) (refusal output)
  let disk := disk.removeTree repacked.temporary
  let details ← manifestDetails hash inputs repacked disk
  let content ← disk.read output
  let text := manifestText (manifestDocument details (outputRecord hash output content))
  require (writeIdempotent (manifestPath output) text disk) (refusal (manifestPath output))

/-- The files after a run that returns. -/
def main (hash : Bytes → Digest) (host : Host) (options : Options) (disk : Disk) :
    Except Exn Disk := do
  let inputs ← prepare hash host options disk
  let repacked ← repack hash host inputs options.appendCmdline disk
  publish hash inputs repacked

/-! ## what the parts of a run have found -/

/-- Two files with one content. -/
def SameContent (disk : Disk) (p q : PosixPath) : Prop :=
  ∃ content, disk p = some content ∧ disk q = some content

variable {tools : Tools} {inputs : Inputs} {temporary : PosixPath} {payloadSize : Nat} {disk : Disk}
  {hash : Bytes → Digest} {host : Host} {option : Option String}

theorem requireEqual_eq_ok {left right : PosixPath} {message : String} :
    requireEqual disk left right message = .ok () ↔ SameContent disk left right := by
  rw [requireEqual, bind_eq_ok]
  constructor
  · rintro ⟨leftContent, hleft, h⟩
    obtain ⟨rightContent, hright, h⟩ := bind_eq_ok.mp h
    have heq : filesEqual leftContent rightContent none = true := by
      simpa using raiseIf_eq_ok.mp h
    rw [filesEqual_iff] at heq
    have hsame : leftContent = rightContent := heq
    subst hsame
    exact ⟨leftContent, read_eq_ok.mp hleft, read_eq_ok.mp hright⟩
  · rintro ⟨content, hleft, hright⟩
    refine ⟨content, read_eq_ok.mpr hleft, bind_eq_ok.mpr ⟨content, read_eq_ok.mpr hright, ?_⟩⟩
    have heq : filesEqual content content none = true := (filesEqual_iff _ _ _).mpr rfl
    refine raiseIf_eq_ok.mpr ?_
    rw [heq]
    decide

theorem requireFile_eq_ok {path : PosixPath} : requireFile disk path = .ok () ↔ disk path ≠ none :=
  raiseIf_eq_ok

/-- What is known of the inputs when the first tool is called. -/
structure Prepared (hash : Bytes → Digest) (host : Host) (options : Options) (disk : Disk)
    (inputs : Inputs) : Prop where
  bootImage : host.resolve options.bootImg = .ok inputs.bootImage
  kernel : host.resolve options.kernel = .ok inputs.kernel
  ramdisk : host.resolveOption options.ramdisk = .ok inputs.ramdisk
  output : host.resolve options.output = .ok inputs.output
  files : ∃ toolsDir, host.resolve options.toolsDir = .ok toolsDir ∧
    ∀ path ∈ requiredPaths inputs.bootImage inputs.kernel inputs.ramdisk toolsDir, disk path ≠ none
  outside : PosixPath.parse "/project" ∉ inputs.output.path.parents
  named : Named inputs.output.path
  digest : ∃ boot, disk inputs.bootImage.path = some boot ∧
    inputs.bootSha256 = Capture.sha256 hash boot ∧
    inputs.bootSha256.toLower = options.expectedBootSha256.toLower

theorem prepare_eq_ok {options : Options} :
    prepare hash host options disk = .ok inputs ↔ Prepared hash host options disk inputs := by
  constructor
  · intro h
    obtain ⟨bootImage, hbootImage, h⟩ := bind_eq_ok.mp h
    obtain ⟨kernel, hkernel, h⟩ := bind_eq_ok.mp h
    obtain ⟨ramdisk, hramdisk, h⟩ := bind_eq_ok.mp h
    obtain ⟨output, houtput, h⟩ := bind_eq_ok.mp h
    obtain ⟨toolsDir, htools, h⟩ := bind_eq_ok.mp h
    obtain ⟨_, hfiles, h⟩ := bind_eq_ok.mp h
    obtain ⟨houtside, h⟩ := raiseIf_bind_eq_ok.mp h
    obtain ⟨hnamed, h⟩ := raiseIf_bind_eq_ok.mp h
    obtain ⟨boot, hboot, h⟩ := bind_eq_ok.mp h
    obtain ⟨hdigest, h⟩ := raiseIf_bind_eq_ok.mp h
    cases pure_eq_ok.mp h
    refine ⟨hbootImage, hkernel, hramdisk, houtput, ⟨toolsDir, htools, ?_⟩, houtside,
      not_not.mp hnamed, boot, read_eq_ok.mp hboot, rfl, not_not.mp hdigest⟩
    exact fun path hpath => requireFile_eq_ok.mp (forM_eq_ok.mp hfiles path hpath)
  · rintro ⟨hbootImage, hkernel, hramdisk, houtput, ⟨toolsDir, htools, hfiles⟩, houtside, hnamed,
      boot, hboot, hactual, hdigest⟩
    have hrequired : (requiredPaths inputs.bootImage inputs.kernel inputs.ramdisk toolsDir).forM
        (requireFile disk) = .ok () :=
      forM_eq_ok.mpr fun path hpath => requireFile_eq_ok.mpr (hfiles path hpath)
    rw [hactual] at hdigest
    rw [prepare, hbootImage, ok_bind, hkernel, ok_bind, hramdisk, ok_bind, houtput, ok_bind, htools,
      ok_bind, hrequired, ok_bind, raiseIf_neg houtside, ok_bind,
      raiseIf_neg (not_not_intro hnamed), ok_bind, read_eq_ok.mpr hboot, ok_bind]
    dsimp only
    rw [raiseIf_neg (not_not_intro hdigest), ok_bind, ← hactual]
    rfl

/-- The stock payload was rebuilt byte for byte. -/
structure RoundTripped (tools : Tools) (inputs : Inputs) (temporary : PosixPath) (payloadSize : Nat)
    (disk : Disk) (stock : List String × Disk) : Prop where
  rebuilt : ∃ unpacked, unpackArgs tools inputs.bootImage.path (stockParts temporary) disk
      = .ok (stock.1, unpacked) ∧
    runMkbootimg tools (stockRoundtrip temporary) stock.1 unpacked = .ok stock.2
  identical : ∃ boot, stock.2 inputs.bootImage.path = some boot ∧ payloadSize ≤ boot.length ∧
    stock.2 (stockRoundtrip temporary) = some (boot.take payloadSize)

theorem roundTrip_eq_ok {stock : List String × Disk} :
    roundTrip tools inputs temporary payloadSize disk = .ok stock ↔
      RoundTripped tools inputs temporary payloadSize disk stock := by
  constructor
  · intro h
    obtain ⟨unpacked, hunpack, h⟩ := bind_eq_ok.mp h
    obtain ⟨made, hmake, h⟩ := bind_eq_ok.mp h
    obtain ⟨rebuilt, hrebuilt, h⟩ := bind_eq_ok.mp h
    obtain ⟨hsize, h⟩ := raiseIf_bind_eq_ok.mp h
    obtain ⟨boot, hboot, h⟩ := bind_eq_ok.mp h
    obtain ⟨hequal, h⟩ := raiseIf_bind_eq_ok.mp h
    cases pure_eq_ok.mp h
    have hlength : rebuilt.length = payloadSize := not_not.mp hsize
    have heq : boot.take payloadSize = rebuilt := by
      have hcompared := (filesEqual_iff boot rebuilt (some payloadSize)).mp (by simpa using hequal)
      rw [compared, compared] at hcompared
      rw [hcompared, List.take_of_length_le (Nat.le_of_eq hlength)]
    refine ⟨⟨unpacked.2, hunpack, hmake⟩, boot, read_eq_ok.mp hboot, ?_, ?_⟩
    · have hle := congrArg List.length heq
      rw [List.length_take] at hle
      omega
    · rw [heq]
      exact read_eq_ok.mp hrebuilt
  · rintro ⟨⟨unpacked, hunpack, hmake⟩, boot, hboot, hle, hrebuilt⟩
    have hlength : (boot.take payloadSize).length = payloadSize := List.length_take_of_le hle
    have hequal : filesEqual boot (boot.take payloadSize) (some payloadSize) = true := by
      rw [filesEqual_iff, compared, compared, List.take_take, Nat.min_self]
    rw [roundTrip, hunpack, ok_bind]
    dsimp only
    rw [hmake, ok_bind, read_eq_ok.mpr hrebuilt, ok_bind, raiseIf_neg (not_not_intro hlength), ok_bind,
      read_eq_ok.mpr hboot, ok_bind, hequal, raiseIf_neg (by decide), ok_bind]
    rfl

/-- What is known of the custom image when it was unpacked again. -/
structure Verified (tools : Tools) (inputs : Inputs) (temporary : PosixPath) (payloadSize : Nat)
    (custom : List String) (disk : Disk) (unpacked : List String × Disk) : Prop where
  unpack : unpackArgs tools (customTemporary temporary) (customParts temporary) disk = .ok unpacked
  arguments : ∃ normalized, normalizedArguments custom = .ok normalized ∧
    normalizedArguments unpacked.1 = .ok normalized
  kernel : SameContent unpacked.2 inputs.kernel.path (customParts temporary / "kernel")
  ramdisk : SameContent unpacked.2 (selectedRamdisk inputs temporary)
    (customParts temporary / "ramdisk")
  dtb : SameContent unpacked.2 (stockParts temporary / "dtb") (customParts temporary / "dtb")
  size : ∃ image, unpacked.2 (customTemporary temporary) = some image ∧ image.length ≤ payloadSize

theorem verifyCustom_eq_ok {custom : List String} {unpacked : List String × Disk} :
    verifyCustom tools inputs temporary payloadSize custom disk = .ok unpacked ↔
      Verified tools inputs temporary payloadSize custom disk unpacked := by
  constructor
  · intro h
    obtain ⟨result, hunpack, h⟩ := bind_eq_ok.mp h
    obtain ⟨expected, hexpected, h⟩ := bind_eq_ok.mp h
    obtain ⟨actual, hactual, h⟩ := bind_eq_ok.mp h
    obtain ⟨hsame, h⟩ := raiseIf_bind_eq_ok.mp h
    obtain ⟨_, hkernel, h⟩ := bind_eq_ok.mp h
    obtain ⟨_, hramdisk, h⟩ := bind_eq_ok.mp h
    obtain ⟨_, hdtb, h⟩ := bind_eq_ok.mp h
    obtain ⟨image, himage, h⟩ := bind_eq_ok.mp h
    obtain ⟨hsize, h⟩ := raiseIf_bind_eq_ok.mp h
    cases pure_eq_ok.mp h
    cases not_not.mp hsame
    exact ⟨hunpack, ⟨expected, hexpected, hactual⟩, requireEqual_eq_ok.mp hkernel,
      requireEqual_eq_ok.mp hramdisk, requireEqual_eq_ok.mp hdtb,
      ⟨image, read_eq_ok.mp himage, Nat.not_lt.mp hsize⟩⟩
  · rintro ⟨hunpack, ⟨normalized, hexpected, hactual⟩, hkernel, hramdisk, hdtb, image, himage, hsize⟩
    rw [verifyCustom, hunpack, ok_bind, hexpected, ok_bind, hactual, ok_bind,
      raiseIf_neg (not_not_intro rfl), ok_bind, requireEqual_eq_ok.mpr hkernel, ok_bind,
      requireEqual_eq_ok.mpr hramdisk, ok_bind, requireEqual_eq_ok.mpr hdtb, ok_bind,
      read_eq_ok.mpr himage, ok_bind, raiseIf_neg (Nat.not_lt.mpr hsize), ok_bind]
    rfl

/-- **What a run that comes to its publication has done and found.** -/
structure RepackedBy (hash : Bytes → Digest) (host : Host) (inputs : Inputs) (option : Option String)
    (disk : Disk) (r : Repacked) : Prop where
  directory : host.mkdir inputs.output.path.parent = .ok () ∧
    ∃ name, host.mkdtemp inputs.output.path.parent = .ok name ∧
      r.temporary = inputs.output.path.parent / name.val
  size : originalPayloadSize host.tools inputs.bootImage.path disk = .ok (r.payloadSize, r.avbInfo)
  steps : ∃ stockDisk customDisk,
    RoundTripped host.tools inputs r.temporary r.payloadSize disk (r.stockArguments, stockDisk) ∧
    buildCustom host.tools inputs r.temporary option r.stockArguments stockDisk
      = .ok (r.customArguments, customDisk) ∧
    Verified host.tools inputs r.temporary r.payloadSize r.customArguments customDisk
      (r.unpackedArguments, r.disk)
  ramdisk : fileRecord hash r.disk (selectedRamdisk inputs r.temporary) = .ok r.ramdisk
  image : r.disk (customTemporary r.temporary) = some r.image

theorem repack_eq_ok {r : Repacked} :
    repack hash host inputs option disk = .ok r ↔ RepackedBy hash host inputs option disk r := by
  constructor
  · intro h
    obtain ⟨_, hmkdir, h⟩ := bind_eq_ok.mp h
    obtain ⟨info, hinfo, h⟩ := bind_eq_ok.mp h
    obtain ⟨name, hname, h⟩ := bind_eq_ok.mp h
    obtain ⟨stock, hstock, h⟩ := bind_eq_ok.mp h
    obtain ⟨custom, hcustom, h⟩ := bind_eq_ok.mp h
    obtain ⟨unpacked, hunpacked, h⟩ := bind_eq_ok.mp h
    obtain ⟨ramdisk, hramdisk, h⟩ := bind_eq_ok.mp h
    obtain ⟨image, himage, h⟩ := bind_eq_ok.mp h
    cases pure_eq_ok.mp h
    exact ⟨⟨hmkdir, name, hname, rfl⟩, hinfo,
      ⟨stock.2, custom.2, roundTrip_eq_ok.mp hstock, hcustom, verifyCustom_eq_ok.mp hunpacked⟩,
      hramdisk, read_eq_ok.mp himage⟩
  · rintro ⟨⟨hmkdir, name, hname, htemporary⟩, hinfo, ⟨stockDisk, customDisk, hstock, hcustom,
      hunpacked⟩, hramdisk, himage⟩
    obtain ⟨temporary, payloadSize, avbInfo, stockArguments, customArguments, unpackedArguments,
      rdisk, ramdisk, image⟩ := r
    dsimp only at *
    subst htemporary
    rw [repack, hmkdir, ok_bind, hinfo, ok_bind, hname, ok_bind]
    dsimp only
    rw [roundTrip_eq_ok.mpr hstock, ok_bind, hcustom, ok_bind, verifyCustom_eq_ok.mpr hunpacked,
      ok_bind, hramdisk, ok_bind, read_eq_ok.mpr himage, ok_bind]
    rfl

/-! ## the end of the run is a publication -/

theorem not_mem_parents {p q : PosixPath} (h : p.parts.length ≤ q.parts.length) : q ∉ p.parents := by
  intro hq
  obtain ⟨-, hpre, hne⟩ := PosixPath.mem_parents.mp hq
  exact hne (hpre.eq_of_length (Nat.le_antisymm hpre.length_le h))

theorem length_parts_sibling {p : PosixPath} (hp : p.name ≠ "") {n : String} (hn : Component n) :
    (p.parent / n).parts.length = p.parts.length := by
  have hne : p.parts ≠ [] := by
    intro e
    refine hp ?_
    rw [PosixPath.name, e]
    rfl
  have hpos := List.length_pos_iff.mpr hne
  rw [PosixPath.parts_div hn, List.length_append, PosixPath.parent, List.length_dropLast,
    List.length_singleton]
  omega

theorem removeTree_of_not_mem {directory path : PosixPath} (h : directory ∉ path.parents) :
    disk.removeTree directory path = disk path := if_neg h

theorem removeTree_update {directory path : PosixPath} (h : directory ∉ path.parents)
    (content : Option Bytes) :
    Disk.removeTree (Function.update disk path content) directory
      = Function.update (disk.removeTree directory) path content := by
  funext q
  by_cases hq : q = path
  · subst hq
    rw [removeTree_of_not_mem h, Function.update_self, Function.update_self]
  · rw [Function.update_of_ne hq, Disk.removeTree, Disk.removeTree, Function.update_of_ne hq]

/-- a write beside the temporary directory and its removal do not interfere -/
theorem writeIdempotent_removeTree {directory path : PosixPath} (hpath : directory ∉ path.parents)
    (htemp : directory ∉ (temporaryPath path).parents) (content : Bytes) :
    writeIdempotent path content (disk.removeTree directory)
      = (writeIdempotent path content disk).map fun disk => disk.removeTree directory := by
  rw [writeIdempotent, writeIdempotent, removeTree_of_not_mem hpath]
  cases disk path with
  | none =>
    dsimp only [Option.map_some]
    rw [Disk.replace, Disk.replace, Disk.write, Disk.write, removeTree_update htemp,
      removeTree_update hpath, removeTree_update htemp, Function.update_self, Function.update_self]
  | some old =>
    dsimp only
    by_cases h : old ≠ content
    · rw [if_pos h, if_pos h]
      rfl
    · rw [if_neg h, if_neg h]
      rfl

/-- **The end of `main` is the publication of what was made:** `finish` of a run with this image. -/
theorem publish_eq_finish {r : Repacked} {name : FileName} (hnamed : Named inputs.output.path)
    (htemporary : r.temporary = inputs.output.path.parent / name.val) :
    ∃ job : Job, job.image = .ok r.image ∧ ∀ final,
      publish hash inputs r = .ok final ↔
        finish hash inputs.output.path job (.start, r.disk.removeTree r.temporary)
          = (.completed, final) := by
  have hname : inputs.output.path.name ≠ "" := by
    intro e
    have hpart : "unsigned".toList <:+: inputs.output.path.name.toList := hnamed.1
    rw [e] at hpart
    exact absurd hpart (by decide)
  have hlength : r.temporary.parts.length = inputs.output.path.parts.length := by
    rw [htemporary, length_parts_sibling hname name.property]
  have houtput : r.temporary ∉ inputs.output.path.parents :=
    not_mem_parents (Nat.le_of_eq hlength.symm)
  have htemp : r.temporary ∉ (temporaryPath inputs.output.path).parents := by
    refine not_mem_parents ?_
    rw [temporaryPath, length_parts_sibling hname (component_tmp hname), hlength]
  have hwrite : writeIdempotent _ r.image (r.disk.removeTree r.temporary) = _ :=
    writeIdempotent_removeTree houtput htemp r.image
  cases hpublished : writeIdempotent inputs.output.path r.image r.disk with
  | none =>
    rw [hpublished] at hwrite
    refine ⟨⟨.ok r.image, .error nameError⟩, rfl, fun final => ?_⟩
    rw [publish, hpublished, finish_start hnamed rfl, finishImage, finishWrite, hwrite]
    refine iff_of_false ?_ ?_
    · intro h
      cases h
    · intro h
      cases h
  | some published =>
    rw [hpublished] at hwrite
    refine ⟨⟨.ok r.image, manifestDetails hash inputs r (published.removeTree r.temporary)⟩, rfl,
      fun final => ?_⟩
    rw [publish, hpublished, finish_start hnamed rfl, finishImage, finishWrite, hwrite, require,
      ok_bind]
    dsimp only [Option.map_some]
    rw [finishDocument]
    cases manifestDetails hash inputs r (published.removeTree r.temporary) with
    | error e => exact iff_of_false (by intro h; cases h) (by intro h; cases h)
    | ok details =>
      rw [ok_bind, Disk.read]
      cases published.removeTree r.temporary inputs.output.path with
      | none => exact iff_of_false (by intro h; cases h) (by intro h; cases h)
      | some content =>
        dsimp only [require]
        rw [ok_bind, finishManifest, finishWrite]
        cases writeIdempotent (manifestPath inputs.output.path)
            (manifestText (manifestDocument details (outputRecord hash inputs.output.path content)))
            (published.removeTree r.temporary) with
        | none => exact iff_of_false (by intro h; cases h) (by intro h; cases h)
        | some disk' =>
          constructor
          · intro h
            cases h
            rfl
          · intro h
            cases h
            rfl

/-! ## the publication of a new output -/

theorem writeIdempotent_new {path : PosixPath} {content : Bytes} (h : disk path = none)
    (hne : path ≠ temporaryPath path) :
    ∃ disk', writeIdempotent path content disk = some disk' ∧ disk' path = some content ∧
      disk' (temporaryPath path) = none := by
  refine ⟨_, by rw [writeIdempotent, h], ?_, replace_source⟩
  rw [replace_target hne, write_self]

theorem outside_output {directory : PosixPath} {name : FileName} (h : Named inputs.output.path)
    (hdirectory : directory = inputs.output.path.parent / name.val) :
    directory ∉ inputs.output.path.parents ∧
      directory ∉ (manifestPath inputs.output.path).parents := by
  have hname : inputs.output.path.name ≠ "" := by
    intro e
    have hpart : "unsigned".toList <:+: inputs.output.path.name.toList := h.1
    rw [e] at hpart
    exact absurd hpart (by decide)
  have hlength : directory.parts.length = inputs.output.path.parts.length := by
    rw [hdirectory, length_parts_sibling hname name.property]
  refine ⟨not_mem_parents (Nat.le_of_eq hlength.symm), not_mem_parents ?_⟩
  rw [manifestPath, withSuffixAdded_eq, length_parts_sibling hname (component_json hname), hlength]

theorem fileRecord_isOk {path : PosixPath} :
    (∃ record, fileRecord hash disk path = .ok record) ↔ disk path ≠ none := by
  rw [fileRecord, Option.ne_none_iff_exists']
  constructor
  · rintro ⟨record, h⟩
    obtain ⟨content, hcontent, -⟩ := bind_eq_ok.mp h
    exact ⟨content, read_eq_ok.mp hcontent⟩
  · rintro ⟨content, hcontent⟩
    rw [read_eq_ok.mpr hcontent]
    exact ⟨_, rfl⟩

theorem manifestDetails_isOk {r : Repacked} {normalized : List String}
    (hnormalized : normalizedArguments r.customArguments = .ok normalized) :
    (∃ details, manifestDetails hash inputs r disk = .ok details) ↔
      disk inputs.bootImage.path ≠ none ∧ disk inputs.kernel.path ≠ none := by
  constructor
  · rintro ⟨details, h⟩
    obtain ⟨boot, hboot, h⟩ := bind_eq_ok.mp h
    obtain ⟨kernel, hkernel, -⟩ := bind_eq_ok.mp h
    refine ⟨?_, fileRecord_isOk.mp ⟨kernel, hkernel⟩⟩
    rw [read_eq_ok.mp hboot]
    exact Option.some_ne_none _
  · rintro ⟨hboot, hkernel⟩
    obtain ⟨boot, hboot⟩ := Option.ne_none_iff_exists'.mp hboot
    obtain ⟨kernel, hkernel⟩ := fileRecord_isOk.mpr hkernel
    rw [manifestDetails, read_eq_ok.mpr hboot, ok_bind, hkernel, ok_bind, hnormalized]
    exact ⟨_, rfl⟩

/-- **A new output is published with its manifest exactly when the stock image and the kernel are
not the file of the output's temporary name.** -/
theorem publish_iff {r : Repacked} {name : FileName} {normalized : List String}
    (hnamed : Named inputs.output.path)
    (htemporary : r.temporary = inputs.output.path.parent / name.val)
    (hnormalized : normalizedArguments r.customArguments = .ok normalized)
    (houtput : r.disk inputs.output.path = none)
    (hmanifest : r.disk (manifestPath inputs.output.path) = none)
    (hboot : r.disk inputs.bootImage.path ≠ none ∧ r.temporary ∉ inputs.bootImage.path.parents)
    (hkernel : r.disk inputs.kernel.path ≠ none ∧ r.temporary ∉ inputs.kernel.path.parents) :
    (∃ final, publish hash inputs r = .ok final ∧ final inputs.output.path = some r.image ∧
        final (manifestPath inputs.output.path) ≠ none) ↔
      inputs.bootImage.path ≠ temporaryPath inputs.output.path ∧
        inputs.kernel.path ≠ temporaryPath inputs.output.path := by
  have hdistinct := hnamed.distinct
  obtain ⟨houtside, houtsideManifest⟩ := outside_output hnamed htemporary
  obtain ⟨disk', hwrite, himage, htemp⟩ :=
    @writeIdempotent_new _ _ r.image houtput hdistinct.outputTemporary
  -- an input is still there exactly when it did not have the temporary name
  have kept (path : PosixPath) (hpath : r.disk path ≠ none ∧ r.temporary ∉ path.parents) :
      disk'.removeTree r.temporary path ≠ none ↔ path ≠ temporaryPath inputs.output.path := by
    rw [removeTree_of_not_mem hpath.2]
    constructor
    · rintro hsome rfl
      exact hsome htemp
    · intro hne
      have hne' : path ≠ inputs.output.path := by
        rintro rfl
        exact hpath.1 houtput
      rw [writeIdempotent_ne hwrite hne hne']
      exact hpath.1
  have hread : disk'.removeTree r.temporary inputs.output.path = some r.image := by
    rw [removeTree_of_not_mem houtside, himage]
  have hnone : disk'.removeTree r.temporary (manifestPath inputs.output.path) = none := by
    rw [removeTree_of_not_mem houtsideManifest, writeIdempotent_ne hwrite
      hdistinct.temporaryManifest.symm hdistinct.outputManifest.symm, hmanifest]
  rw [← kept _ hboot, ← kept _ hkernel, ← manifestDetails_isOk hnormalized]
  constructor
  · rintro ⟨final, h, -⟩
    obtain ⟨disk'', hdisk, h⟩ := bind_eq_ok.mp h
    obtain ⟨details, hdetails, -⟩ := bind_eq_ok.mp h
    rw [require_eq_ok, hwrite] at hdisk
    cases hdisk
    exact ⟨details, hdetails⟩
  · rintro ⟨details, hdetails⟩
    obtain ⟨final, hfinal, htext, -⟩ := @writeIdempotent_new _ _
      (manifestText (manifestDocument details (outputRecord hash inputs.output.path r.image)))
      hnone hdistinct.manifestTemporary
    refine ⟨final, ?_, ?_, ?_⟩
    · rw [publish, hwrite, require, ok_bind]
      dsimp only
      rw [hdetails, ok_bind, read_eq_ok.mpr hread, ok_bind, hfinal]
      rfl
    · rw [writeIdempotent_ne hfinal hdistinct.outputManifestTemporary hdistinct.outputManifest, hread]
    · rw [htext]
      exact Option.some_ne_none _

end RT7.Boot
