import RT7.Boot.Contents

/-!
# Tools that know a table of images

* `Registry`        images with what they hold: those that are unpacked and those that are packed;
* `names_iff`       arguments that stand for the items of an image;
* `printsPairs`     the tools of a registry print flags and values;
* `faithful`        they are inverse to each other when what is packed is unpacked as it was.
-/

namespace RT7.Boot

open Py Text Pairs

structure Registry where
  known : Bytes → Option Contents
  packed : List (Bytes × Contents)
  info : Bytes
  printable : ∀ image c, known image = some c → ∀ p ∈ c.items, '\x00' ∉ p.1.toList ∧
    ∀ text, p.2 = .value text → '\x00' ∉ text.toList

def denotes (disk : Disk) (text : String) : Item → Bool
  | .value value => text == value
  | .file content => disk (PosixPath.parse text) == some content

/-- The arguments are read as flags and values, and no flag as a value. -/
def names (disk : Disk) : List String → List (String × Item) → Bool
  | [], [] => true
  | flag :: text :: rest, p :: items =>
    flag == p.1 && !soughtFlags.contains text && denotes disk text p.2 && names disk rest items
  | _, _ => false

def Registry.tools (r : Registry) : Tools where
  infoImage _ _ := .ok r.info
  unpackBootimg image output disk := do
    raiseIf ('\x00' ∈ output.str.toList) (.valueError "embedded null byte")
    let bytes ← disk.read image
    let c ← require (r.known bytes) .calledProcessError
    return (encodeArguments (flat (c.arguments output)), c.parts)
  mkbootimg arguments disk :=
    .ok ((r.packed.find? fun p => names disk arguments p.2.items).map Prod.fst)

section
variable {disk : Disk} {text : String} {item : Item} {arguments : List String}
  {items : List (String × Item)} {pairs : List (String × String)} {c : Contents}
  {image output : PosixPath} {r : Registry} {bytes : Bytes}

theorem denotes_iff : denotes disk text item = true ↔ Denotes disk text item := by
  cases item with
  | value value => exact beq_iff_eq
  | file content => exact beq_iff_eq

theorem names_iff :
    names disk (flat pairs) items = true ↔ Names disk pairs items ∧ Plain pairs := by
  induction pairs generalizing items with
  | nil =>
    cases items with
    | nil => exact iff_of_true rfl ⟨.nil, fun p hp => absurd hp List.not_mem_nil⟩
    | cons q items =>
      refine iff_of_false Bool.false_ne_true ?_
      rintro ⟨h, -⟩
      cases h
  | cons p pairs ih =>
    cases items with
    | nil =>
      refine iff_of_false Bool.false_ne_true ?_
      rintro ⟨h, -⟩
      cases h
    | cons q items =>
      have hplain : Plain (p :: pairs) ↔ p.2 ∉ soughtFlags ∧ Plain pairs := List.forall_mem_cons
      have hnames : Names disk (p :: pairs) (q :: items) ↔
          (p.1 = q.1 ∧ Denotes disk p.2 q.2) ∧ Names disk pairs items := List.forall₂_cons
      rw [flat_cons, names, Bool.and_eq_true, Bool.and_eq_true, Bool.and_eq_true, ih, denotes_iff,
        beq_iff_eq, Bool.not_eq_true', ← Bool.not_eq_true, List.contains_iff_mem, hplain, hnames]
      constructor
      · rintro ⟨⟨⟨hflag, hvalue⟩, hdenotes⟩, hrest, hplain⟩
        exact ⟨⟨⟨hflag, hdenotes⟩, hrest⟩, hvalue, hplain⟩
      · rintro ⟨⟨⟨hflag, hdenotes⟩, hrest⟩, hvalue, hplain⟩
        exact ⟨⟨⟨hflag, hvalue⟩, hdenotes⟩, hrest, hplain⟩

/-- a printed argument has no zero character -/
theorem zero_not_mem_argument (hc : r.known bytes = some c) (houtput : '\x00' ∉ output.str.toList) :
    ∀ a ∈ flat (c.arguments output), '\x00' ∉ a.toList := by
  have hpart : ∀ flag ∈ componentFlags, '\x00' ∉ (partName flag).toList := by decide
  intro a ha hzero
  obtain ⟨pair, hpair, ha⟩ := List.mem_flatMap.mp ha
  obtain ⟨⟨flag, item⟩, hitem, rfl⟩ := List.mem_map.mp hpair
  obtain ⟨hflag, hvalue⟩ := r.printable bytes c hc _ hitem
  cases ha with
  | head => exact hflag hzero
  | tail _ ha =>
    obtain rfl := List.mem_singleton.mp ha
    cases item with
    | value text => exact hvalue text rfl hzero
    | file content =>
      have hcomponent := component_of_file hitem
      have hcases := PosixPath.mem_toList_str_div (component_partName flag hcomponent) hzero
      obtain h | h | h := hcases
      · exact houtput h
      · exact absurd h (by decide)
      · exact hpart flag hcomponent h

/-- what is printed of an image is what it holds -/
theorem decode_unpacked (hc : r.known bytes = some c) (houtput : '\x00' ∉ output.str.toList) :
    decodeArguments (encodeArguments (flat (c.arguments output))) = .ok (flat (c.arguments output)) :=
  decodeArguments_encode (zero_not_mem_argument hc houtput)

theorem unpackBootimg_eq (hdisk : disk image = some bytes) (hc : r.known bytes = some c)
    (houtput : '\x00' ∉ output.str.toList) :
    r.tools.unpackBootimg image output disk
      = .ok (encodeArguments (flat (c.arguments output)), c.parts) := by
  rw [Registry.tools]
  dsimp only
  rw [raiseIf_neg houtput, ok_bind, read_eq_ok.mpr hdisk, ok_bind, hc]
  rfl

theorem unpackArgs_eq (hdisk : disk image = some bytes) (hc : r.known bytes = some c)
    (houtput : '\x00' ∉ output.str.toList) :
    unpackArgs r.tools image output disk
      = .ok (flat (c.arguments output), disk.writeFiles output c.parts) := by
  rw [unpackArgs, unpackBootimg_eq hdisk hc houtput, ok_bind]
  dsimp only
  rw [decode_unpacked hc houtput]
  rfl

theorem mkbootimg_eq_some {made : Bytes}
    (h : r.tools.mkbootimg (flat pairs) disk = .ok (some made)) :
    ∃ c, (made, c) ∈ r.packed ∧ Names disk pairs c.items ∧ Plain pairs := by
  have hfound := Except.ok.inj h
  rw [Option.map_eq_some_iff] at hfound
  obtain ⟨⟨made', c⟩, hfound, rfl⟩ := hfound
  have hnames : names disk (flat pairs) c.items = true := by
    have hp := List.find?_some hfound
    exact hp
  obtain ⟨hnames, hplain⟩ := names_iff.mp hnames
  exact ⟨c, List.mem_of_find?_eq_some hfound, hnames, hplain⟩

/-- what is packed of arguments that name the items of one image only -/
theorem mkbootimg_eq {made : Bytes} (hmem : (made, c) ∈ r.packed) (hnames : Names disk pairs c.items)
    (hplain : Plain pairs) (hunique : ∀ image ∈ r.packed, c.items = image.2.items → image.1 = made) :
    r.tools.mkbootimg (flat pairs) disk = .ok (some made) := by
  have hsome : (r.packed.find? fun p => names disk (flat pairs) p.2.items).isSome :=
    List.find?_isSome.mpr ⟨(made, c), hmem, names_iff.mpr ⟨hnames, hplain⟩⟩
  obtain ⟨image, himage⟩ := Option.isSome_iff_exists.mp hsome
  have hmade : r.tools.mkbootimg (flat pairs) disk = .ok (some image.1) := by
    rw [Registry.tools]
    dsimp only
    rw [himage]
    rfl
  have hnamed : names disk (flat pairs) image.2.items = true := by
    have hp := List.find?_some himage
    exact hp
  have hitems : c.items = image.2.items := hnames.unique (names_iff.mp hnamed).1
  rw [hmade, hunique image (List.mem_of_find?_eq_some himage) hitems]

end

theorem printsPairs (r : Registry) : PrintsPairs r.tools := by
  intro image output disk result arguments hunpack hdecode
  obtain ⟨houtput, h⟩ := raiseIf_bind_eq_ok.mp hunpack
  obtain ⟨bytes, -, h⟩ := bind_eq_ok.mp h
  obtain ⟨c, hc, h⟩ := bind_eq_ok.mp h
  cases pure_eq_ok.mp h
  rw [decode_unpacked (require_eq_ok.mp hc) houtput] at hdecode
  exact ⟨_, (Except.ok.inj hdecode).symm, plain_arguments c output⟩

/-- **The tools of a registry are inverse to each other when it packs what it knows.** -/
theorem faithful (r : Registry) (h : ∀ image ∈ r.packed, r.known image.1 = some image.2) :
    Faithful r.tools fun bytes c => r.known bytes = some c where
  unpack image output disk bytes c houtput hdisk hc :=
    ⟨_, unpackBootimg_eq hdisk hc houtput, decode_unpacked hc houtput, rfl⟩
  parser bytes c pairs disk made hc hflags hmade := by
    obtain ⟨c', -, -, hplain⟩ := mkbootimg_eq_some hmade
    exact hplain
  pack bytes c pairs disk made hc hpairs hmade := by
    obtain ⟨c', hmem, hnames, -⟩ := mkbootimg_eq_some hmade
    exact ⟨c', h _ hmem, hnames⟩

end RT7.Boot
