import RT7.Base.Dialogue
import RT7.Base.PowerShell

/-!
# Inspecting the tablet in fastboot (`scripts/inspect-rt7-fastboot.ps1`)

* `deviceOf`, `devicesOf`   the serials in the output of `fastboot devices`;
* `productOf`       the product in the output of `fastboot getvar product`;
* `main`            a run, with the lines that it prints;
* `commands`        the commands of a complete run;
* `Passed`          what the answers so far have shown;
* `inspection_fixed`   what every run asks, whatever the answers, and how it ends.
-/

namespace RT7.Usb.Fastboot

open Dialogue PowerShell Fields

structure Options where
  container : String := "rt7-adb"
  image : String := "local/oukitel-rt7-android-tools:34.0.4"
  serial : String := ""

/-- The questions are the commands of `docker`. -/
abbrev Command := List String

@[reducible] def Answer (_ : Command) : Type := Result

abbrev Call := Exchange Answer

abbrev Script := Dialogue Command Answer Thrown

def call (command : Command) : Script Result := query command

variable (culture : Culture) (o : Options)

/-! ## reading the answers -/

/-- a match of `^\s*([^\s]+)\s+fastboot\s*$` -/
def deviceOf (line : List Char) : Option (List Char) :=
  match PowerShell.fields line with
  | [serial, mode] => if culture.equals mode "fastboot" then some serial else none
  | _ => none

def devicesOf (output : List Char) : List (List Char) :=
  (splitLines output).filterMap (deviceOf culture)

/-- a word of a pattern, at the start of a text -/
def afterWord (word : String) (text : List Char) : Option (List Char) :=
  if culture.equals (text.take word.length) word then some (text.drop word.length) else none

/-- a match of `\s*(?:\(bootloader\)\s*)?product:\s*([^\s]+)` at the start of a text -/
def productAt (text : List Char) : Option (List Char) :=
  let line := text.dropWhile isWhiteSpace
  let line := match afterWord culture "(bootloader)" line with
    | some rest => rest.dropWhile isWhiteSpace
    | none => line
  (afterWord culture "product:" line).bind fun rest =>
    match firstField (rest.dropWhile isWhiteSpace) with
    | [] => none
    | product => some product

/-- the first match in the lines after this one -/
def productBelow : List Char → Option (List Char)
  | [] => none
  | c :: text => if c = '\n' then (productAt culture text).or (productBelow text) else productBelow text

def productOf (output : List Char) : Option (List Char) :=
  (productAt culture output).or (productBelow culture output)

/-- a match of `(P07|TP758|6853|6893)` -/
def isFamily (product : List Char) : Bool :=
  ["P07", "TP758", "6853", "6893"].any fun name =>
    occurs (culture.casing.key name) (product.map culture.casing.fold)

/-! ## commands -/

def inspectCommand : Command :=
  ["inspect", o.container, "--format", "\x7b\x7b.State.Running\x7d\x7d|\x7b\x7b.Config.Image\x7d\x7d"]

def fastbootCommand (serial : String) (arguments : List String) : Command :=
  ["exec", o.container, "fastboot"] ++ (if serial ≠ "" then ["-s", serial] else []) ++ arguments

def queries : List (List String) :=
  [["getvar", "current-slot"],
    ["getvar", "slot-count"],
    ["getvar", "unlocked"],
    ["getvar", "secure"],
    ["getvar", "max-download-size"],
    ["flashing", "get_unlock_ability"]]

/-! ## the script -/

/-- the fields `ExitCode` and `Output` -/
def invokeDockerFastboot (serial : String) (arguments : List String) : Script (Int × List Char) := do
  let result ← call (fastbootCommand o serial arguments)
  return (result.code, trim result.output)

def checkContainer : Script Unit := do
  let result ← call (inspectCommand o)
  failIf (result.code ≠ 0) ⟨s!"Android-tools container '{o.container}' is unavailable."⟩
  match splitBar (trim result.output) with
  | (_, none) => .fail ⟨s!"Android-tools container '{o.container}' is not running."⟩
  | (state, some image) => do
    failIf (culture.equals state "true" = false)
      ⟨s!"Android-tools container '{o.container}' is not running."⟩
    failIf (culture.equals image o.image = false)
      ⟨s!"Android-tools image mismatch: expected '{o.image}', got '{String.ofList image}'."⟩

def selectSerial (devices : List (List Char)) : Except Thrown String :=
  if o.serial ≠ "" then
    if devices.any fun device => culture.equals device o.serial then .ok o.serial
    else .error ⟨s!"Requested fastboot serial '{o.serial}' is not connected."⟩
  else match devices with
    | [device] => .ok (String.ofList device)
    | _ => .error ⟨s!"Exactly one fastboot device is required; found {devices.length}."⟩

def findDevice : Script String := do
  let result ← invokeDockerFastboot o o.serial ["devices"]
  failIf (result.1 ≠ 0) ⟨"fastboot devices failed: " ++ String.ofList result.2⟩
  ofExcept (selectSerial culture o (devicesOf culture result.2))

def identify (code : Int) (output : List Char) : Except Thrown (List Char) :=
  match productOf culture output with
  | some product =>
    if code ≠ 0 then .error ⟨"Unable to identify fastboot product: " ++ String.ofList output⟩
    else if isFamily culture product then .ok product
    else .error ⟨s!"Refusing unexpected fastboot product '{String.ofList product}'."⟩
  | none => .error ⟨"Unable to identify fastboot product: " ++ String.ofList output⟩

/-- what is printed of an answer -/
def reportLine (arguments : List String) (result : Int × List Char) : String :=
  let label := Text.join ' ' arguments
  let output := String.ofList result.2
  if result.1 = 0 then s!"{label}: {output}" else s!"{label}: unsupported or failed ({output})"

def runQueries (serial : String) : List (List String) → Script (List String)
  | [] => return ["Read-only fastboot inspection complete; no boot, flash, erase, or unlock command ran."]
  | arguments :: rest => do
    let result ← invokeDockerFastboot o serial arguments
    let report ← runQueries serial rest
    return reportLine arguments result :: report

def main : Script (List String) := do
  checkContainer culture o
  let serial ← findDevice culture o
  let result ← invokeDockerFastboot o serial ["getvar", "product"]
  let product ← ofExcept (identify culture result.1 result.2)
  let report ← runQueries o serial queries
  return s!"Validated RT7-family fastboot target: serial={serial} product={String.ofList product}" ::
    ("product: " ++ String.ofList result.2) :: report

/-! ## what a run asks -/

/-- the commands of a complete run on a device -/
def commands (serial : String) : List Command :=
  [inspectCommand o, fastbootCommand o o.serial ["devices"],
    fastbootCommand o serial ["getvar", "product"]] ++ queries.map (fastbootCommand o serial)

/-- The container runs, and with the right image. -/
structure ContainerChecked (result : Result) : Prop where
  code : result.code = 0
  output : ∃ state image, trim result.output = state ++ '|' :: image ∧ '|' ∉ state ∧
    culture.equals state "true" = true ∧ culture.equals image o.image = true

/-- a line of the listing, with the serial of a device in fastboot -/
def DeviceLine (line device : List Char) : Prop :=
  ∃ before between mode after, line = before ++ (device ++ (between ++ (mode ++ after))) ∧
    Field isWhiteSpace device ∧ Field isWhiteSpace mode ∧ culture.equals mode "fastboot" = true ∧
    Blank isWhiteSpace before ∧ Blank isWhiteSpace between ∧ between ≠ [] ∧ Blank isWhiteSpace after

/-- The device is the one that was requested, or the only one that is listed. -/
structure DeviceChecked (serial : String) (result : Result) : Prop where
  code : result.code = 0
  requested : o.serial ≠ "" → serial = o.serial ∧ ∃ line ∈ splitLines (trim result.output),
    ∃ device, DeviceLine culture line device ∧ culture.equals device serial = true
  only : o.serial = "" → ∃ above line below, splitLines (trim result.output) = above ++ line :: below ∧
    DeviceLine culture line serial.toList ∧ ∀ other ∈ above ++ below, ∀ device, ¬ DeviceLine culture other device

/-- a line that names a product; the white space in it may go over the ends of lines -/
def ProductLine (line product : List Char) : Prop :=
  ∃ blank tag name gap rest, line = blank ++ (tag ++ (name ++ (gap ++ (product ++ rest)))) ∧ Blank isWhiteSpace blank ∧
    (tag = [] ∨ ∃ boot gap', tag = boot ++ gap' ∧ culture.equals boot "(bootloader)" = true ∧ Blank isWhiteSpace gap') ∧
    culture.equals name "product:" = true ∧ Blank isWhiteSpace gap ∧ Field isWhiteSpace product

/-- The device is of the family. -/
structure ProductChecked (result : Result) : Prop where
  code : result.code = 0
  product : ∃ product, productOf culture (trim result.output) = some product ∧ isFamily culture product = true ∧
    ∃ above line, trim result.output = above ++ line ∧ (above = [] ∨ above.getLast? = some '\n') ∧
      ProductLine culture line product

/-- what the answers so far have shown -/
structure Passed (serial : String) (t : List Call) : Prop where
  container : ∀ e, t[0]? = some e → ContainerChecked culture o e.answer
  device : ∀ e, t[1]? = some e → DeviceChecked culture o serial e.answer
  product : ∀ e, t[2]? = some e → ProductChecked culture e.answer

variable {culture o} {serial : String} {t t' before : List Call} {r : Option (Except Thrown (List String))}

/-! ## the texts -/

theorem deviceOf_eq_some {line device : List Char} :
    deviceOf culture line = some device ↔ DeviceLine culture line device := by
  constructor
  · intro h
    unfold deviceOf at h
    split at h
    · next serial mode hfields =>
      by_cases hmode : culture.equals mode "fastboot" = true
      · rw [if_pos hmode] at h
        cases h
        obtain ⟨before, between, after, hline, hdevice, hfield, hblanks⟩ := fields_eq_pair.mp hfields
        exact ⟨before, between, mode, after, hline, hdevice, hfield, hmode, hblanks⟩
      · rw [if_neg hmode] at h
        cases h
    · cases h
  · intro h
    obtain ⟨before, between, mode, after, hline, hdevice, hfield, hmode, hblanks⟩ := h
    have hfields : PowerShell.fields line = [device, mode] :=
      fields_eq_pair.mpr ⟨before, between, after, hline, hdevice, hfield, hblanks⟩
    rw [deviceOf, hfields]
    exact if_pos hmode

/-- **The device that the script takes.** -/
theorem selectSerial_eq_ok {result : Result} (hcode : result.code = 0) :
    selectSerial culture o (devicesOf culture (trim result.output)) = .ok serial ↔
      DeviceChecked culture o serial result := by
  by_cases hserial : o.serial ≠ ""
  · unfold selectSerial
    rw [if_pos hserial]
    have hany : ((devicesOf culture (trim result.output)).any fun device =>
        culture.equals device o.serial) = true ↔ ∃ line ∈ splitLines (trim result.output),
          ∃ device, DeviceLine culture line device ∧ culture.equals device o.serial = true := by
      rw [List.any_eq_true]
      constructor
      · intro h
        obtain ⟨device, hmem, heq⟩ := h
        obtain ⟨line, hline, hdevice⟩ := List.mem_filterMap.mp hmem
        exact ⟨line, hline, device, deviceOf_eq_some.mp hdevice, heq⟩
      · intro h
        obtain ⟨line, hline, device, hdevice, heq⟩ := h
        exact ⟨device, List.mem_filterMap.mpr ⟨line, hline, deviceOf_eq_some.mpr hdevice⟩, heq⟩
    constructor
    · intro h
      by_cases hlisted : ((devicesOf culture (trim result.output)).any fun device =>
          culture.equals device o.serial) = true
      · rw [if_pos hlisted] at h
        cases h
        exact ⟨hcode, fun _ => ⟨rfl, hany.mp hlisted⟩, fun hnone => absurd hnone hserial⟩
      · rw [if_neg hlisted] at h
        cases h
    · intro h
      obtain ⟨rfl, hlisted⟩ := h.requested hserial
      exact if_pos (hany.mpr hlisted)
  · have hempty : o.serial = "" := not_not.mp hserial
    have hone : devicesOf culture (trim result.output) = [serial.toList] ↔
        ∃ above line below, splitLines (trim result.output) = above ++ line :: below ∧
          DeviceLine culture line serial.toList ∧
          ∀ other ∈ above ++ below, ∀ device, ¬ DeviceLine culture other device := by
      have hnone : ∀ line, deviceOf culture line = none ↔ ∀ device, ¬ DeviceLine culture line device := by
        intro line
        rw [Option.eq_none_iff_forall_ne_some]
        exact forall_congr' fun device => not_congr deviceOf_eq_some
      rw [devicesOf, List.filterMap_eq_cons_iff]
      constructor
      · intro h
        obtain ⟨above, line, below, hlines, habove, hline, hbelow⟩ := h
        refine ⟨above, line, below, hlines, deviceOf_eq_some.mp hline, fun other hother => ?_⟩
        refine (hnone other).mp ((List.mem_append.mp hother).elim (habove other) ?_)
        exact List.filterMap_eq_nil_iff.mp hbelow other
      · intro h
        obtain ⟨above, line, below, hlines, hline, hothers⟩ := h
        refine ⟨above, line, below, hlines, ?_, deviceOf_eq_some.mpr hline, ?_⟩
        · exact fun other hother => (hnone other).mpr (hothers other (List.mem_append_left below hother))
        · refine List.filterMap_eq_nil_iff.mpr fun other hother => ?_
          exact (hnone other).mpr (hothers other (List.mem_append_right above hother))
    unfold selectSerial
    rw [if_neg hserial]
    constructor
    · intro h
      split at h
      · next device hdevices =>
        cases h
        rw [← String.toList_ofList (l := device)] at hdevices
        exact ⟨hcode, fun hsome => absurd hsome hserial, fun _ => hone.mp hdevices⟩
      · cases h
    · intro h
      rw [hone.mpr (h.only hempty)]
      show Except.ok (String.ofList serial.toList) = _
      rw [String.ofList_toList]

theorem afterWord_eq_some {word : String} {text rest : List Char} (h : afterWord culture word text = some rest) :
    ∃ start, text = start ++ rest ∧ culture.equals start word = true := by
  unfold afterWord at h
  by_cases hword : culture.equals (text.take word.length) word = true
  · rw [if_pos hword] at h
    rw [← Option.some.inj h]
    exact ⟨_, (List.take_append_drop _ _).symm, hword⟩
  · rw [if_neg hword] at h
    cases h

theorem dropWhile_blank (text : List Char) :
    ∃ blank, text = blank ++ text.dropWhile isWhiteSpace ∧ Blank isWhiteSpace blank :=
  ⟨_, List.takeWhile_append_dropWhile.symm, fun _ hc => List.mem_takeWhile_imp hc⟩

theorem firstField_cons {text : List Char} {c : Char} {field : List Char} (h : firstField text = c :: field) :
    ∃ rest, text = (c :: field) ++ rest ∧ Field isWhiteSpace (c :: field) := by
  unfold firstField at h
  refine ⟨text.dropWhile fun c => !isWhiteSpace c, ?_, List.cons_ne_nil _ _, fun d hd => ?_⟩
  · rw [← h]
    exact List.takeWhile_append_dropWhile.symm
  · rw [← h] at hd
    exact (Bool.not_eq_true' _).mp (List.mem_takeWhile_imp (p := fun c => !isWhiteSpace c) hd)

theorem productAt_eq_some {line product : List Char} (h : productAt culture line = some product) :
    ProductLine culture line product := by
  obtain ⟨blank, hline, hblank⟩ := dropWhile_blank line
  have htag : ∃ tag, line.dropWhile isWhiteSpace = tag ++
        (match afterWord culture "(bootloader)" (line.dropWhile isWhiteSpace) with
          | some rest => rest.dropWhile isWhiteSpace
          | none => line.dropWhile isWhiteSpace) ∧
      (tag = [] ∨ ∃ boot gap', tag = boot ++ gap' ∧ culture.equals boot "(bootloader)" = true ∧ Blank isWhiteSpace gap') := by
    cases hboot : afterWord culture "(bootloader)" (line.dropWhile isWhiteSpace) with
    | none => exact ⟨[], rfl, Or.inl rfl⟩
    | some rest =>
      obtain ⟨boot, heq, hword⟩ := afterWord_eq_some hboot
      obtain ⟨gap', hrest, hgap⟩ := dropWhile_blank rest
      refine ⟨boot ++ gap', ?_, Or.inr ⟨boot, gap', rfl, hword, hgap⟩⟩
      rw [List.append_assoc, ← hrest]
      exact heq
  obtain ⟨tag, htagged, htag⟩ := htag
  obtain ⟨rest, hrest, hproduct⟩ := Option.bind_eq_some_iff.mp h
  obtain ⟨name, hname, hword⟩ := afterWord_eq_some hrest
  obtain ⟨gap, hgap, hblank'⟩ := dropWhile_blank rest
  cases hfield : firstField (rest.dropWhile isWhiteSpace) with
  | nil =>
    rw [hfield] at hproduct
    cases hproduct
  | cons c field =>
    rw [hfield] at hproduct
    obtain ⟨after, hafter, hsolid⟩ := firstField_cons hfield
    obtain rfl : c :: field = product := Option.some.inj hproduct
    refine ⟨blank, tag, name, gap, after, ?_, hblank, htag, hword, hblank', hsolid⟩
    rw [← hafter, ← hgap, ← hname, ← htagged, ← hline]

theorem productBelow_eq_some {text product : List Char} (h : productBelow culture text = some product) :
    ∃ above line, text = above ++ line ∧ above.getLast? = some '\n' ∧ productAt culture line = some product := by
  induction text with
  | nil => cases h
  | cons c text ih =>
    have hdeeper : productBelow culture text = some product → ∃ above line,
        c :: text = above ++ line ∧ above.getLast? = some '\n' ∧ productAt culture line = some product := by
      intro hbelow
      obtain ⟨above, line, rfl, hlast, hproduct⟩ := ih hbelow
      refine ⟨c :: above, line, rfl, ?_, hproduct⟩
      rw [List.getLast?_cons, hlast]
      rfl
    rw [productBelow] at h
    by_cases hc : c = '\n'
    · rw [if_pos hc] at h
      rcases Option.or_eq_some_iff.mp h with hat | ⟨-, hbelow⟩
      · exact ⟨[c], text, rfl, by rw [hc]; rfl, hat⟩
      · exact hdeeper hbelow
    · rw [if_neg hc] at h
      exact hdeeper h

/-- **The product stands in a line of its own.** -/
theorem productOf_eq_some {output product : List Char} (h : productOf culture output = some product) :
    ∃ above line, output = above ++ line ∧ (above = [] ∨ above.getLast? = some '\n') ∧
      ProductLine culture line product := by
  rcases Option.or_eq_some_iff.mp h with hat | ⟨-, hbelow⟩
  · exact ⟨[], output, rfl, Or.inl rfl, productAt_eq_some hat⟩
  · obtain ⟨above, line, heq, hlast, hproduct⟩ := productBelow_eq_some hbelow
    exact ⟨above, line, heq, Or.inr hlast, productAt_eq_some hproduct⟩

theorem identify_eq_ok {code : Int} {output product : List Char} :
    identify culture code output = .ok product ↔
      code = 0 ∧ productOf culture output = some product ∧ isFamily culture product = true := by
  unfold identify
  cases productOf culture output with
  | none => exact ⟨fun h => (by cases h), fun h => absurd h.2.1.symm (Option.some_ne_none _)⟩
  | some found =>
    dsimp only
    by_cases hcode : code ≠ 0
    · rw [if_pos hcode]
      exact ⟨fun h => (by cases h), fun h => absurd h.1 hcode⟩
    · rw [if_neg hcode]
      by_cases hfamily : isFamily culture found = true
      · rw [if_pos hfamily]
        constructor
        · intro h
          cases h
          exact ⟨not_not.mp hcode, rfl, hfamily⟩
        · intro h
          rw [Option.some.inj h.2.1]
      · rw [if_neg hfamily]
        refine ⟨fun h => (by cases h), fun h => ?_⟩
        exact absurd (Option.some.inj h.2.1 ▸ h.2.2) hfamily

/-! ## every run -/

theorem Passed.of_append (h : Passed culture o serial (t ++ t')) : Passed culture o serial t := by
  have hget : ∀ (i : Nat) e, t[i]? = some e → (t ++ t')[i]? = some e := by
    intro i e he
    obtain ⟨hi, -⟩ := List.getElem?_eq_some_iff.mp he
    rw [List.getElem?_append_left hi, he]
  exact ⟨fun e he => h.container e (hget 0 e he), fun e he => h.device e (hget 1 e he),
    fun e he => h.product e (hget 2 e he)⟩

theorem Passed.concat (h : Passed culture o serial t) (hlength : 3 ≤ t.length) (e : Call) :
    Passed culture o serial (t ++ [e]) := by
  have hget : ∀ i, i < 3 → (t ++ [e])[i]? = t[i]? :=
    fun i hi => List.getElem?_append_left (Nat.lt_of_lt_of_le hi hlength)
  refine ⟨fun e he => ?_, fun e he => ?_, fun e he => ?_⟩
  · exact h.container e ((hget 0 (by decide)).symm.trans he)
  · exact h.device e ((hget 1 (by decide)).symm.trans he)
  · exact h.product e ((hget 2 (by decide)).symm.trans he)

variable (culture o)

/-- what every command must satisfy, in view of the exchanges before it -/
def Allowed (before : List Call) (command : Command) : Prop :=
  ∃ serial, before.map (·.question) ++ [command] <+: commands o serial ∧ Passed culture o serial before

/-- the fields `ExitCode` and `Output` of an answer -/
def read (e : Call) : Int × List Char := (e.answer.code, trim e.answer.output)

/-- the lines for the queries -/
def reported (t : List Call) : List String :=
  List.zipWith reportLine queries (t.map read) ++
    ["Read-only fastboot inspection complete; no boot, flash, erase, or unlock command ran."]

/-- A run ends well when every answer has passed, and with an error when the last has not. -/
def Ended (t : List Call) : Except Thrown (List String) → Prop
  | .ok report => ∃ serial product answered, t.map (·.question) = commands o serial ∧
      Passed culture o serial t ∧ t[2]? = some answered ∧
      productOf culture (trim answered.answer.output) = some product ∧
      report = s!"Validated RT7-family fastboot target: serial={serial} product={String.ofList product}" ::
        ("product: " ++ String.ofList (trim answered.answer.output)) :: reported (t.drop 3)
  | .error _ => ∀ serial, ¬ Passed culture o serial t

variable {culture o}

section safe
variable {α : Type} {post : List Call → Except Thrown α → Prop}

theorem safe_checkContainer {f : Unit → Script α}
    (herror : ∀ result e, ¬ ContainerChecked culture o result →
      post [⟨inspectCommand o, result⟩] (.error e))
    (hnext : ∀ result, ContainerChecked culture o result →
      Safe (Allowed culture o) post (f ()) [⟨inspectCommand o, result⟩]) :
    Safe (Allowed culture o) post (checkContainer culture o >>= f) [] := by
  have hnone : ∀ {e : Call} {i : Nat}, ([] : List Call)[i]? ≠ some e := by
    intro e i h
    cases h
  refine safe_bind.mpr (safe_query_bind.mpr ⟨⟨"", ⟨_, rfl⟩, ?_⟩, fun result => ?_⟩)
  · exact ⟨fun e he => absurd he hnone, fun e he => absurd he hnone, fun e he => absurd he hnone⟩
  refine safe_bind.mpr (safe_failIf.mpr ⟨fun hcode => ?_, fun hcode => ?_⟩)
  · exact herror result _ fun h => hcode h.code
  have hsplit : ContainerChecked culture o result → ∃ state image,
      splitBar (trim result.output) = (state, some image) ∧ culture.equals state "true" = true ∧
        culture.equals image o.image = true := by
    intro h
    obtain ⟨state, image, heq, hbar, hstate, himage⟩ := h.output
    exact ⟨state, image, splitBar_eq.mpr ⟨heq, hbar⟩, hstate, himage⟩
  rcases hbar : splitBar (trim result.output) with ⟨state, image⟩
  cases image with
  | none =>
    refine herror result _ fun h => ?_
    obtain ⟨state', image', heq, -⟩ := hsplit h
    rw [heq] at hbar
    cases hbar
  | some image =>
    have hfound : ContainerChecked culture o result →
        culture.equals state "true" = true ∧ culture.equals image o.image = true := by
      intro h
      obtain ⟨state', image', heq, hstate, himage⟩ := hsplit h
      rw [heq] at hbar
      cases hbar
      exact ⟨hstate, himage⟩
    refine safe_bind.mpr (safe_failIf.mpr ⟨fun hstate => ?_, fun hstate => ?_⟩)
    · refine herror result _ fun h => ?_
      rw [(hfound h).1] at hstate
      cases hstate
    refine safe_failIf.mpr ⟨fun himage => ?_, fun himage => ?_⟩
    · refine herror result _ fun h => ?_
      rw [(hfound h).2] at himage
      cases himage
    · obtain ⟨heq, hno⟩ := splitBar_eq.mp hbar
      exact hnext result ⟨not_not.mp hcode, state, image, heq, hno, (Bool.not_eq_false _).mp hstate,
        (Bool.not_eq_false _).mp himage⟩

theorem safe_invoke {arguments : List String} {f : Int × List Char → Script α}
    (hallowed : Allowed culture o before (fastbootCommand o serial arguments))
    (hnext : ∀ result, Safe (Allowed culture o) post (f (result.code, trim result.output))
      (before ++ [⟨fastbootCommand o serial arguments, result⟩])) :
    Safe (Allowed culture o) post (invokeDockerFastboot o serial arguments >>= f) before :=
  safe_bind.mpr (safe_query_bind.mpr ⟨hallowed, hnext⟩)

theorem safe_findDevice {f : String → Script α} {container : Result}
    (hcontainer : ContainerChecked culture o container)
    (herror : ∀ result e, (∀ serial, ¬ DeviceChecked culture o serial result) →
      post [⟨inspectCommand o, container⟩, ⟨fastbootCommand o o.serial ["devices"], result⟩] (.error e))
    (hnext : ∀ result serial, DeviceChecked culture o serial result → Safe (Allowed culture o) post (f serial)
      [⟨inspectCommand o, container⟩, ⟨fastbootCommand o o.serial ["devices"], result⟩]) :
    Safe (Allowed culture o) post (findDevice culture o >>= f) [⟨inspectCommand o, container⟩] := by
  have hpassed : Passed culture o "" [⟨inspectCommand o, container⟩] := by
    refine ⟨fun e he => ?_, fun e he => (by cases he), fun e he => (by cases he)⟩
    cases he
    exact hcontainer
  refine safe_bind.mpr (safe_invoke ⟨"", ⟨_, rfl⟩, hpassed⟩ fun result => ?_)
  refine safe_bind.mpr (safe_failIf.mpr ⟨fun hcode => ?_, fun hcode => ?_⟩)
  · exact herror result _ fun serial h => hcode h.code
  have hiff : ∀ serial, selectSerial culture o (devicesOf culture (trim result.output)) = .ok serial ↔
      DeviceChecked culture o serial result := fun serial => selectSerial_eq_ok (not_not.mp hcode)
  refine safe_ofExcept.mpr ?_
  cases hselect : selectSerial culture o (devicesOf culture (trim result.output)) with
  | error e =>
    refine herror result e fun serial h => ?_
    cases hselect.symm.trans ((hiff serial).mpr h)
  | ok serial => exact hnext result serial ((hiff serial).mp hselect)

theorem safe_runQueries {rest : List (List String)} (hpassed : Passed culture o serial before)
    (hlength : 3 ≤ before.length)
    (hcommands : before.map (·.question) ++ rest.map (fastbootCommand o serial) = commands o serial)
    {post : List Call → Except Thrown (List String) → Prop}
    (hpost : ∀ answers : List Call, answers.map (·.question) = rest.map (fastbootCommand o serial) →
      Passed culture o serial (before ++ answers) → post (before ++ answers) (.ok
        (List.zipWith reportLine rest (answers.map read) ++
          ["Read-only fastboot inspection complete; no boot, flash, erase, or unlock command ran."]))) :
    Safe (Allowed culture o) post (runQueries o serial rest) before := by
  induction rest generalizing before post with
  | nil =>
    have hnil := hpost [] rfl (by rwa [List.append_nil])
    rw [List.append_nil] at hnil
    exact hnil
  | cons arguments rest ih =>
    have hnext : before.map (·.question) ++ [fastbootCommand o serial arguments] <+: commands o serial := by
      refine ⟨rest.map (fastbootCommand o serial), ?_⟩
      rw [← hcommands, List.map_cons, List.append_assoc]
      rfl
    refine safe_invoke ⟨serial, hnext, hpassed⟩ fun result => ?_
    have hpassed' := hpassed.concat hlength ⟨fastbootCommand o serial arguments, result⟩
    refine safe_bind.mpr (ih hpassed' ?_ ?_ fun answers hanswers hall => ?_)
    · rw [List.length_append]
      exact Nat.le_add_right_of_le hlength
    · rw [List.map_append, List.append_assoc, ← hcommands]
      rfl
    · have hone := hpost (⟨fastbootCommand o serial arguments, result⟩ :: answers)
        (by rw [List.map_cons, hanswers, List.map_cons]) (by rwa [List.append_cons])
      rw [List.append_cons] at hone
      exact hone

theorem safe_main : Safe (Allowed culture o) (Ended culture o) (main culture o) [] := by
  refine safe_checkContainer (fun result e hno serial h => hno (h.container _ rfl))
    fun container hcontainer => ?_
  refine safe_findDevice hcontainer (fun result e hno serial h => hno serial (h.device _ rfl))
    fun listing serial hdevice => ?_
  have hpassed : Passed culture o serial
      [⟨inspectCommand o, container⟩, ⟨fastbootCommand o o.serial ["devices"], listing⟩] := by
    refine ⟨fun e he => ?_, fun e he => ?_, fun e he => (by cases he)⟩
    · cases he
      exact hcontainer
    · cases he
      exact hdevice
  refine safe_invoke ⟨serial, ⟨_, rfl⟩, hpassed⟩ fun answered => ?_
  refine safe_bind.mpr (safe_ofExcept.mpr ?_)
  cases hidentify : identify culture answered.code (trim answered.output) with
  | error e =>
    intro serial' h
    have hproduct := h.product _ rfl
    obtain ⟨product, hfound, hfamily, -⟩ := hproduct.product
    cases hidentify.symm.trans (identify_eq_ok.mpr ⟨hproduct.code, hfound, hfamily⟩)
  | ok product =>
    obtain ⟨hcode, hfound, hfamily⟩ := identify_eq_ok.mp hidentify
    have hall : Passed culture o serial [⟨inspectCommand o, container⟩,
        ⟨fastbootCommand o o.serial ["devices"], listing⟩,
        ⟨fastbootCommand o serial ["getvar", "product"], answered⟩] := by
      refine ⟨fun e he => ?_, fun e he => ?_, fun e he => ?_⟩
      · cases he
        exact hcontainer
      · cases he
        exact hdevice
      · cases he
        exact ⟨hcode, product, hfound, hfamily, productOf_eq_some hfound⟩
    refine safe_bind.mpr (safe_runQueries hall (Nat.le_refl 3) rfl fun answers hanswers hpassed => ?_)
    refine ⟨serial, product, _, ?_, hpassed, rfl, hfound, rfl⟩
    rw [List.map_append, hanswers]
    rfl

end safe

/-- **Every run asks the fixed commands, each after the checks before it**, whatever the answers. -/
theorem inspection_fixed (h : Talk (main culture o) t r) :
    ∃ serial, t.map (·.question) <+: commands o serial ∧
      (∀ pre e post, t = pre ++ e :: post → Passed culture o serial pre) ∧
      ∀ x, r = some x → Ended culture o t x := by
  obtain ⟨halways, hend⟩ := safe_main.sound h Trace.always_nil
  rw [List.nil_append] at halways hend
  rcases List.eq_nil_or_concat t with rfl | ⟨pre, e, rfl⟩
  · exact ⟨"", ⟨_, rfl⟩, fun pre e post heq => absurd heq.symm (by simp), hend⟩
  · rw [List.concat_eq_append] at halways hend ⊢
    obtain ⟨serial, hprefix, hpassed⟩ := halways pre e [] rfl
    refine ⟨serial, ?_, fun pre' e' post heq => ?_, hend⟩
    · rw [List.map_append]
      exact hprefix
    · rcases List.eq_nil_or_concat post with rfl | ⟨front, last, rfl⟩
      · obtain ⟨rfl, -⟩ := List.append_inj' heq rfl
        exact hpassed
      · rw [List.concat_eq_append, ← List.cons_append, ← List.append_assoc] at heq
        rw [List.append_inj_left' heq rfl] at hpassed
        exact hpassed.of_append

/-- the answers of a tablet in fastboot -/
def sampleAnswer (command : Command) : Result :=
  if command = inspectCommand {} then ⟨0, "true|local/oukitel-rt7-android-tools:34.0.4\n"⟩
  else if command = fastbootCommand {} "" ["devices"] then ⟨0, "RT7TESTSERIAL\tfastboot\r\n"⟩
  else if command = fastbootCommand {} "RT7TESTSERIAL" ["getvar", "product"] then
    ⟨0, "(bootloader) product: tP758\nFinished. Total time: 0.001s\n"⟩
  else ⟨1, "FAILED (remote: 'unknown command')\n"⟩

def sampleInspection : Conversation Answer Thrown (List String) Unit :=
  converse (fun _ command => (sampleAnswer command, ())) (main .ordinal {}) ()

theorem inspection_fixed_sample :
    ∃ serial report, sampleInspection.result = some (.ok report) ∧
      sampleInspection.talk.map (·.question) = commands {} serial ∧
        Passed .ordinal {} serial sampleInspection.talk := by
  have htalk : Talk (main .ordinal {}) sampleInspection.talk sampleInspection.result :=
    talk_converse _ _ _
  obtain ⟨-, -, -, hend⟩ := inspection_fixed htalk
  have hresult : (sampleInspection.result.bind Except.toOption).isSome = true := by decide +kernel
  obtain ⟨report, hreport⟩ := Option.isSome_iff_exists.mp hresult
  obtain ⟨x, hx, hok⟩ := Option.bind_eq_some_iff.mp hreport
  cases x with
  | error e => cases hok
  | ok report' =>
    obtain ⟨serial, product, answered, hcommands, hpassed, -⟩ := hend _ hx
    exact ⟨serial, report', hx, hcommands, hpassed⟩

end RT7.Usb.Fastboot
