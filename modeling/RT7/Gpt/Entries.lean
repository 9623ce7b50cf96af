import RT7.Gpt.Header
import RT7.Base.Utf16

/-!
# GPT entry arrays: `parse_gpt_entries`

* `parseEntry`          one turn of the loop over the slots;
* `parseGptEntries`     the whole function;
* `slot`, `Used`, `slotName`, `slotItem`   what a slot of the array says, read off its bytes;
* `TableOk`             the used slots have usable ranges and distinct, non-empty names;
* `parseEntries_eq_ok`  the loop succeeds exactly on such tables, and the map it builds lists the
                        used slots in order (induction on the slot indices);
* `EntriesAt`, `parseGptEntries_eq_ok`   the same for the function, with its geometry checks;
* `entriesAt_window`    an array seen through a captured span is the array of the whole image.
-/

namespace RT7.Gpt
open Py Struct

/-- An entry of the returned `partitions` dictionary. -/
structure Partition where
  firstLba : Nat
  lastLba : Nat
  size : Nat
  deriving DecidableEq, Repr

abbrev PartitionMap := Dict String Partition

/-- `first, last = ...` -/
def unpackPair : List Value → Except Exn (Nat × Nat)
  | [.int first, .int last] => .ok (first, last)
  | _ => .error (.valueError "not enough values to unpack")

/-- `text.split("\0", 1)[0]` -/
def beforeNul (text : List Char) : String := String.ofList (text.takeWhile (· ≠ '\x00'))

/-- `entry[56:128].decode("utf-16-le").split("\0", 1)[0]`, a decoding error re-raised -/
def decodeName (entry : Bytes) (e : Exn) : Except Exn String :=
  match Utf16.decodeLE (slice entry 56 128) with
  | none => .error e
  | some text => .ok (beforeNul text)

/-- One turn of `for index in range(count)`. -/
def parseEntry (header : GptHeader) (sectorSize : Nat) (label : String) (rawEntries : Bytes)
    (partitions : PartitionMap) (index : Nat) : Except Exn PartitionMap := do
  let entrySize := header.partitionEntrySize
  let entry := slice rawEntries (index * entrySize : ℕ) ((index + 1) * entrySize : ℕ)
  if slice entry 0 16 = List.replicate 16 0 then
    return partitions
  let (firstLba, lastLba) ← unpackFrom [.Q, .Q] entry 32 >>= unpackPair
  raiseIf (firstLba > lastLba) (.valueError s!"{label} GPT entry {index} has an invalid LBA range")
  raiseIf (¬ (header.firstUsableLba ≤ firstLba ∧ firstLba ≤ lastLba ∧
      lastLba ≤ header.lastUsableLba))
    (.valueError s!"{label} GPT entry {index} is outside usable storage")
  let name ← decodeName entry (.valueError s!"{label} GPT entry {index} has an invalid name")
  raiseIf (name = "" ∨ name ∈ partitions.keys)
    (.valueError s!"{label} GPT entry {index} has an empty or duplicate name")
  return partitions.set name ⟨firstLba, lastLba, (lastLba - firstLba + 1) * sectorSize⟩

section
variable (crc32 : Bytes → UInt32)

def parseGptEntries (data : Bytes) (header : GptHeader) (captureStartLba : Int)
    (sectorSize : Nat) (label : String) : Except Exn (Bytes × PartitionMap) := do
  let count := header.numPartitionEntries
  let entrySize := header.partitionEntrySize
  raiseIf (count ≤ 0 ∨ count > 4096 ∨ entrySize < 128 ∨ entrySize % 8 ≠ 0)
    (.valueError s!"{label} GPT partition-entry geometry is invalid")
  let relativeLba := header.partitionEntryStartLba - captureStartLba
  let offset := relativeLba * sectorSize
  let length := count * entrySize
  raiseIf (offset < 0 ∨ offset + length > data.length)
    (.valueError s!"{label} GPT partition entries are outside the captured span")
  let rawEntries := slice data offset (offset + length)
  let actualCrc := (crc32 rawEntries).toNat
  raiseIf (actualCrc ≠ header.partitionEntryCrc32)
    (.valueError (s!"{label} GPT entry-array CRC mismatch: {hex08 actualCrc} != " ++
      hex08 header.partitionEntryCrc32))
  let partitions ←
    (List.range count).foldlM (parseEntry header sectorSize label rawEntries) Dict.empty
  return (rawEntries, partitions)

end

/-! ## what a slot says -/

/-- the `i`-th slot of an array with stride `n` -/
def slot (raw : Bytes) (n i : Nat) : Bytes := window raw (i * n) n

/-- the type GUID is not zero -/
def Used (entry : Bytes) : Prop := window entry 0 16 ≠ List.replicate 16 0

instance : DecidablePred Used := fun _ => inferInstanceAs (Decidable (_ ≠ _))

def slotFirst (entry : Bytes) : Nat := leNat (window entry 32 8)
def slotLast (entry : Bytes) : Nat := leNat (window entry 40 8)

/-- the name field up to its first NUL, if it is UTF-16 -/
def slotName (entry : Bytes) : Option String :=
  (Utf16.decodeLE (window entry 56 72)).map beforeNul

/-- the key of a used slot -/
def slotKey (entry : Bytes) : String := (slotName entry).getD ""

/-- what the map records of a used slot -/
def slotItem (sectorSize : Nat) (entry : Bytes) : String × Partition :=
  (slotKey entry,
    ⟨slotFirst entry, slotLast entry, (slotLast entry - slotFirst entry + 1) * sectorSize⟩)

/-- a used slot has a range inside the usable storage and a non-empty name -/
structure SlotOk (firstUsable lastUsable : Nat) (entry : Bytes) : Prop where
  usable : firstUsable ≤ slotFirst entry
  range : slotFirst entry ≤ slotLast entry
  last : slotLast entry ≤ lastUsable
  name : ∃ n, slotName entry = some n ∧ n ≠ ""

/-- the used slots of the first `count`, in order -/
def usedSlots (raw : Bytes) (n count : Nat) : List Bytes :=
  ((List.range count).map (slot raw n)).filter Used

structure TableOk (firstUsable lastUsable : Nat) (slots : List Bytes) : Prop where
  slots_ok : ∀ e ∈ slots, SlotOk firstUsable lastUsable e
  names_nodup : (slots.map slotKey).Nodup

theorem slot_window {raw : Bytes} {n i : Nat} :
    slice raw (i * n : ℕ) ((i + 1) * n : ℕ) = slot raw n i := by
  have e : (((i + 1) * n : ℕ) : Int) = ((i * n : ℕ) : Int) + (n : ℕ) := by
    push_cast
    ring
  rw [e, slice_eq_window]
  rfl

theorem length_slot {raw : Bytes} {n count i : Nat} (hraw : raw.length = count * n)
    (hi : i < count) : (slot raw n i).length = n := by
  refine length_window_of_le ?_
  rw [hraw, ← Nat.succ_mul]
  exact Nat.mul_le_mul_right n hi

/-! ## the loop -/

theorem decodeName_eq_ok {entry : Bytes} {e : Exn} {n : String} :
    decodeName entry e = .ok n ↔ slotName entry = some n := by
  have hw : slice entry 56 128 = window entry 56 72 := slice_eq_window entry 56 72
  unfold decodeName slotName
  rw [hw]
  cases Utf16.decodeLE (window entry 56 72) with
  | none => simp
  | some text => simp

theorem unpack_range {entry : Bytes} (h : 128 ≤ entry.length) :
    (unpackFrom [.Q, .Q] entry 32 >>= unpackPair) = .ok (slotFirst entry, slotLast entry) := by
  have hfit : (32 : Int) + calcsize [Code.Q, Code.Q] ≤ entry.length := by
    show (32 : Int) + (16 : Nat) ≤ entry.length
    omega
  rw [unpackFrom_of_le (by omega) hfit, ok_bind]
  show Except.ok (leNat (List.take 8 (window entry 32 16)),
    leNat (List.take 8 (List.drop 8 (window entry 32 16)))) = _
  have e1 : window (window entry 32 16) 0 8 = window entry (32 + 0) 8 :=
    window_window (by omega)
  have e2 : window (window entry 32 16) 8 8 = window entry (32 + 8) 8 :=
    window_window (by omega)
  show Except.ok (leNat (window (window entry 32 16) 0 8),
    leNat (window (window entry 32 16) 8 8)) = _
  rw [e1, e2]
  rfl

/-- **One turn of the loop**: an empty slot is skipped, a used one is checked and appended. -/
theorem parseEntry_eq_ok {header : GptHeader} {sectorSize : Nat} {label : String} {raw : Bytes}
    {d d' : PartitionMap} {i : Nat} (hlen : 128 ≤ (slot raw header.partitionEntrySize i).length) :
    parseEntry header sectorSize label raw d i = .ok d' ↔
      let entry := slot raw header.partitionEntrySize i
      if Used entry then
        SlotOk header.firstUsableLba header.lastUsableLba entry ∧
          slotKey entry ∉ d.keys ∧ d'.items = d.items ++ [slotItem sectorSize entry]
      else d' = d := by
  have hw : ∀ entry : Bytes, slice entry 0 16 = window entry 0 16 := fun entry =>
    slice_eq_window entry 0 16
  unfold parseEntry
  simp only [slot_window, hw]
  by_cases hu : window (slot raw header.partitionEntrySize i) 0 16 = List.replicate 16 0
  · have hnot : ¬ Used (slot raw header.partitionEntrySize i) := fun h => h hu
    rw [if_pos hu, if_neg hnot, pure_eq_ok]
    exact eq_comm
  · have hused : Used (slot raw header.partitionEntrySize i) := hu
    rw [if_neg hu, if_pos hused, unpack_range hlen, ok_bind]
    simp only [raiseIf_bind_eq_ok]
    rw [bind_eq_ok]
    simp only [raiseIf_bind_eq_ok, decodeName_eq_ok, pure_eq_ok, not_or]
    constructor
    · rintro ⟨_, huse, n, hn, ⟨hne, hfresh⟩, rfl⟩
      have hkey : slotKey (slot raw header.partitionEntrySize i) = n := by
        rw [slotKey, hn]
        rfl
      rw [not_not] at huse
      refine ⟨⟨huse.1, huse.2.1, huse.2.2, n, hn, hne⟩, ?_, ?_⟩
      · rw [hkey]
        exact hfresh
      · rw [Dict.items_set_of_not_mem hfresh, slotItem, hkey]
    · rintro ⟨hok, hfresh, hitems⟩
      obtain ⟨n, hn, hne⟩ := hok.name
      have hkey : slotKey (slot raw header.partitionEntrySize i) = n := by
        rw [slotKey, hn]
        rfl
      rw [hkey] at hfresh
      rw [slotItem, hkey] at hitems
      refine ⟨not_lt.mpr hok.range, not_not.mpr ⟨hok.usable, hok.range, hok.last⟩, n, hn,
        ⟨hne, hfresh⟩, ?_⟩
      exact Dict.ext (by rw [Dict.items_set_of_not_mem hfresh, hitems])

theorem decodeName_raises {entry : Bytes} {e : Exn} (h : e.IsValueError) :
    RaisesOnly Exn.IsValueError (decodeName entry e) := by
  unfold decodeName
  cases Utf16.decodeLE (slice entry 56 128) with
  | none => exact .error h
  | some text => exact .ok _

theorem parseEntry_raises {header : GptHeader} {sectorSize : Nat} {label : String} {raw : Bytes}
    {i : Nat} (hlen : 128 ≤ (slot raw header.partitionEntrySize i).length) (d : PartitionMap) :
    RaisesOnly Exn.IsValueError (parseEntry header sectorSize label raw d i) := by
  unfold parseEntry
  simp only [slot_window]
  by_cases hu : slice (slot raw header.partitionEntrySize i) 0 16 = List.replicate 16 0
  · rw [if_pos hu]
    exact .ok d
  · rw [if_neg hu, unpack_range hlen, ok_bind]
    refine .guard (fun _ => ⟨_, rfl⟩) fun _ => ?_
    refine .guard (fun _ => ⟨_, rfl⟩) fun _ => ?_
    refine .bind (decodeName_raises ⟨_, rfl⟩) fun n _ => ?_
    refine .guard (fun _ => ⟨_, rfl⟩) fun _ => ?_
    exact .ok _

theorem filter_used_pos {e : Bytes} (h : Used e) (es : List Bytes) :
    (e :: es).filter Used = e :: es.filter Used :=
  List.filter_cons_of_pos (decide_eq_true h)

theorem filter_used_neg {e : Bytes} (h : ¬ Used e) (es : List Bytes) :
    (e :: es).filter Used = es.filter Used :=
  List.filter_cons_of_neg fun h' => h (of_decide_eq_true h')

/-- The loop over the slot indices `is`, from a map `d`: the used slots are appended in order.
Induction on `is`; the invariant is that the keys stay distinct. -/
theorem parseEntries_eq_ok {header : GptHeader} {sectorSize : Nat} {label : String} {raw : Bytes}
    {is : List Nat} (hlen : ∀ i ∈ is, 128 ≤ (slot raw header.partitionEntrySize i).length)
    {d d' : PartitionMap} :
    is.foldlM (parseEntry header sectorSize label raw) d = .ok d' ↔
      let used := (is.map (slot raw header.partitionEntrySize)).filter Used
      (∀ e ∈ used, SlotOk header.firstUsableLba header.lastUsableLba e) ∧
        (d.keys ++ used.map slotKey).Nodup ∧ d'.items = d.items ++ used.map (slotItem sectorSize) := by
  induction is generalizing d with
  | nil =>
    simp only [List.foldlM_nil, pure_eq_ok, List.map_nil, List.filter_nil, List.append_nil,
      List.not_mem_nil, false_implies, implies_true, true_and]
    constructor
    · rintro rfl
      exact ⟨d.nodup, rfl⟩
    · rintro ⟨_, h⟩
      exact Dict.ext h.symm
  | cons i is ih =>
    have hi := hlen i List.mem_cons_self
    have his := fun j hj => hlen j (List.mem_cons_of_mem i hj)
    rw [List.foldlM_cons, bind_eq_ok]
    simp only [parseEntry_eq_ok hi, ih his, List.map_cons]
    by_cases hu : Used (slot raw header.partitionEntrySize i)
    · simp only [if_pos hu, filter_used_pos hu, List.map_cons,
        List.mem_cons, forall_eq_or_imp]
      constructor
      · rintro ⟨d₁, ⟨hok, hfresh, hitems⟩, hoks, hnd, hd'⟩
        have hkeys : d₁.keys = d.keys ++ [slotKey (slot raw header.partitionEntrySize i)] := by
          rw [Dict.keys, hitems, List.map_append]
          rfl
        rw [hkeys, List.append_assoc, List.singleton_append] at hnd
        refine ⟨⟨hok, hoks⟩, hnd, ?_⟩
        rw [hd', hitems, List.append_assoc, List.singleton_append]
      · rintro ⟨⟨hok, hoks⟩, hnd, hd'⟩
        have hfresh : slotKey (slot raw header.partitionEntrySize i) ∉ d.keys := fun hmem =>
          (List.nodup_append.mp hnd).2.2 _ hmem _ List.mem_cons_self rfl
        have hitems := Dict.items_set_of_not_mem hfresh
          (slotItem sectorSize (slot raw header.partitionEntrySize i)).2
        refine ⟨d.set _ _, ⟨hok, hfresh, hitems⟩, hoks, ?_, ?_⟩
        · rw [Dict.keys, hitems, List.map_append, List.append_assoc]
          exact hnd
        · rw [hd', hitems, List.append_assoc]
          rfl
    · simp only [if_neg hu, filter_used_neg hu, exists_eq_left]

/-! ## the function -/

section
variable (crc32 : Bytes → UInt32)

/-- The entry array at byte `o` of `data` is acceptable inside a span that ends at byte `stop`;
its bytes are `raw` and its map is `partitions`. -/
structure EntriesAt (data : Bytes) (o stop : Nat) (header : GptHeader) (sectorSize : Nat)
    (raw : Bytes) (partitions : PartitionMap) : Prop where
  count_pos : 0 < header.numPartitionEntries
  count_le : header.numPartitionEntries ≤ 4096
  stride : 128 ≤ header.partitionEntrySize
  aligned : header.partitionEntrySize % 8 = 0
  inside : o + header.numPartitionEntries * header.partitionEntrySize ≤ stop
  bytes : raw = window data o (header.numPartitionEntries * header.partitionEntrySize)
  crc : (crc32 raw).toNat = header.partitionEntryCrc32
  table : TableOk header.firstUsableLba header.lastUsableLba
    (usedSlots raw header.partitionEntrySize header.numPartitionEntries)
  items : partitions.items =
    (usedSlots raw header.partitionEntrySize header.numPartitionEntries).map (slotItem sectorSize)

variable {crc32}

theorem EntriesAt.length_raw {data : Bytes} {o stop : Nat} {header : GptHeader} {sectorSize : Nat}
    {raw : Bytes} {partitions : PartitionMap}
    (H : EntriesAt crc32 data o stop header sectorSize raw partitions) (hstop : stop ≤ data.length) :
    raw.length = header.numPartitionEntries * header.partitionEntrySize := by
  rw [H.bytes]
  exact length_window_of_le (by have := H.inside; omega)

/-- the names of the map are not empty -/
theorem EntriesAt.name_ne {data : Bytes} {o stop : Nat} {header : GptHeader} {sectorSize : Nat}
    {raw : Bytes} {partitions : PartitionMap}
    (H : EntriesAt crc32 data o stop header sectorSize raw partitions) :
    ∀ name ∈ partitions.keys, name ≠ "" := by
  intro name hn
  obtain ⟨partition, hp⟩ := Dict.mem_keys.mp hn
  rw [H.items] at hp
  obtain ⟨e, he, hitem⟩ := List.mem_map.mp hp
  obtain ⟨n, hname, hne⟩ := (H.table.slots_ok e he).name
  have hkey : slotKey e = name := congrArg Prod.fst hitem
  rw [← hkey, slotKey, hname]
  exact hne

/-- **`parse_gpt_entries` returns exactly the acceptable array at its offset.** -/
theorem parseGptEntries_eq_ok {data : Bytes} {header : GptHeader} {start : Int} {sectorSize : Nat}
    {label : String} {raw : Bytes} {partitions : PartitionMap} :
    parseGptEntries crc32 data header start sectorSize label = .ok (raw, partitions) ↔
      0 ≤ (header.partitionEntryStartLba - start) * sectorSize ∧
        EntriesAt crc32 data ((header.partitionEntryStartLba - start) * sectorSize).toNat
          data.length header sectorSize raw partitions := by
  unfold parseGptEntries
  dsimp only
  generalize hoff : ((header.partitionEntryStartLba : Int) - start) * sectorSize = offset
  set count := header.numPartitionEntries with hcount
  set n := header.partitionEntrySize with hn
  rw [raiseIf_bind_eq_ok, raiseIf_bind_eq_ok]
  have hslots : ∀ w : Bytes, w.length = count * n → 128 ≤ n →
      ∀ i ∈ List.range count, 128 ≤ (slot w n i).length := by
    intro w hw h128 i hi
    rw [length_slot hw (List.mem_range.mp hi)]
    exact h128
  constructor
  · rintro ⟨hgeo, hin, hrun⟩
    have h0 : 0 ≤ offset := by omega
    have hle : offset.toNat + count * n ≤ data.length := by
      have : (offset + ((count * n : ℕ) : Int)) ≤ data.length := by omega
      omega
    have hlen := length_window_of_le hle
    rw [slice_toNat h0, raiseIf_bind_eq_ok, not_not, bind_eq_ok] at hrun
    obtain ⟨hcrc, d, hloop, hret⟩ := hrun
    rw [pure_eq_ok, Prod.mk.injEq] at hret
    obtain ⟨rfl, rfl⟩ := hret
    rw [parseEntries_eq_ok (hslots _ hlen (by omega))] at hloop
    obtain ⟨hok, hnd, hitems⟩ := hloop
    exact ⟨h0, by omega, by omega, by omega, by omega, hle, rfl, hcrc, ⟨hok, hnd⟩, hitems⟩
  · rintro ⟨h0, H⟩
    have hle := H.inside
    rw [← hcount, ← hn] at hle
    have hgeo := And.intro H.count_pos (And.intro H.count_le (And.intro H.stride H.aligned))
    rw [← hcount, ← hn] at hgeo
    have hlen := H.length_raw (Nat.le_refl _)
    refine ⟨by omega, ?_, ?_⟩
    · have : (offset + ((count * n : ℕ) : Int)) ≤ data.length := by omega
      omega
    · rw [slice_toNat h0, ← H.bytes, raiseIf_bind_eq_ok, not_not, bind_eq_ok]
      refine ⟨H.crc, partitions, ?_, rfl⟩
      rw [parseEntries_eq_ok (hslots raw hlen hgeo.2.2.1)]
      exact ⟨H.table.slots_ok, H.table.names_nodup, H.items⟩

/-- an array that is not accepted is refused with a `ValueError` -/
theorem parseGptEntries_raises (data : Bytes) (header : GptHeader) (start : Int) (sectorSize : Nat)
    (label : String) :
    RaisesOnly Exn.IsValueError (parseGptEntries crc32 data header start sectorSize label) := by
  unfold parseGptEntries
  dsimp only
  refine .guard (fun _ => ⟨_, rfl⟩) fun hgeo => ?_
  refine .guard (fun _ => ⟨_, rfl⟩) fun hin => ?_
  generalize ((header.partitionEntryStartLba : Int) - start) * sectorSize = offset at *
  refine .guard (fun _ => ⟨_, rfl⟩) fun _ => ?_
  have hlen : (slice data offset (offset +
      ((header.numPartitionEntries * header.partitionEntrySize : ℕ) : Int))).length
      = header.numPartitionEntries * header.partitionEntrySize := by
    rw [slice_toNat (by omega)]
    exact length_window_of_le (by omega)
  refine .bind (.foldlM (fun i hi d => parseEntry_raises ?_ d) _) fun m _ => .ok _
  rw [length_slot hlen (List.mem_range.mp hi)]
  omega

/-- An entry array inside a captured span is the array of the image the span was cut from. -/
theorem entriesAt_window {image : Bytes} {a n o stop : Nat} {header : GptHeader} {sectorSize : Nat}
    {raw : Bytes} {partitions : PartitionMap} (hstop : stop ≤ n) :
    EntriesAt crc32 (window image a n) o stop header sectorSize raw partitions ↔
      EntriesAt crc32 image (a + o) (a + stop) header sectorSize raw partitions := by
  constructor
  · intro H
    have h1 := H.inside
    have e := H.bytes
    rw [window_window (by omega)] at e
    exact ⟨H.count_pos, H.count_le, H.stride, H.aligned, by omega, e, H.crc, H.table, H.items⟩
  · intro H
    have h1 := H.inside
    refine ⟨H.count_pos, H.count_le, H.stride, H.aligned, by omega, ?_, H.crc, H.table, H.items⟩
    rw [window_window (by omega)]
    exact H.bytes

end

end RT7.Gpt
