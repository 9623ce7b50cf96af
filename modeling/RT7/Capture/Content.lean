import RT7.Base.Sha256
import Mathlib.Data.List.Basic

/-!
# Reading a file in blocks

* `blocks`          the blocks that `iter(lambda: stream.read(1024 * 1024), b"")` delivers; put
  together they are the content (`flatten_blocks`);
* `sha256`          the digest of a file, fed block by block;
* `hasNonuniformContent`   whether a file holds two different bytes (`hasNonuniformContent_iff`).
-/

namespace RT7.Capture

def blockSize : Nat := 1024 * 1024

/-- The blocks that are read until an empty one ends the loop. -/
def blocks (stream : Bytes) : List Bytes :=
  if stream = [] then []
  else stream.take blockSize :: blocks (stream.drop blockSize)
termination_by stream.length
decreasing_by
  rename_i h
  have hpos := List.length_pos_iff.mpr h
  rw [List.length_drop, blockSize]
  omega

theorem blocks_nil : blocks [] = [] := by
  rw [blocks, if_pos rfl]

theorem blocks_of_ne_nil {stream : Bytes} (h : stream ≠ []) :
    blocks stream = stream.take blockSize :: blocks (stream.drop blockSize) := by
  rw [blocks, if_neg h]

theorem flatten_blocks (stream : Bytes) : (blocks stream).flatten = stream := by
  induction stream using blocks.induct with
  | case1 => rw [blocks_nil, List.flatten_nil]
  | case2 stream h ih =>
    rw [blocks_of_ne_nil h, List.flatten_cons, ih, List.take_append_drop]

theorem ne_nil_of_mem_blocks {stream block : Bytes} (h : block ∈ blocks stream) : block ≠ [] := by
  induction stream using blocks.induct with
  | case1 =>
    rw [blocks_nil] at h
    exact absurd h List.not_mem_nil
  | case2 stream hne ih =>
    rw [blocks_of_ne_nil hne] at h
    cases h with
    | head =>
      intro e
      cases List.take_eq_nil_iff.mp e with
      | inl e => exact absurd e (by decide)
      | inr e => exact hne e
    | tail _ h => exact ih h

/-- `sha256(path)`: the hash object is fed with the blocks of the file. -/
def sha256 (hash : Bytes → Digest) (content : Bytes) : String :=
  (hash ((blocks content).foldl (fun fed block => fed ++ block) [])).hexdigest

theorem sha256_eq (hash : Bytes → Digest) (content : Bytes) :
    sha256 hash content = (hash content).hexdigest := by
  have fed : ∀ (l : List Bytes) (acc : Bytes),
      l.foldl (fun fed block => fed ++ block) acc = acc ++ l.flatten := by
    intro l
    induction l with
    | nil => intro acc; simp
    | cons block l ih =>
      intro acc
      rw [List.foldl_cons, ih, List.flatten_cons, List.append_assoc]
  rw [sha256, fed, List.nil_append, flatten_blocks]

/-! ## one repeated byte -/

/-- The loop over the blocks; `first` is the first byte of the file, once a block was read. -/
def nonuniform (first : Option UInt8) : List Bytes → Bool
  | [] => false
  | block :: rest =>
    -- `block[0]`: a block that ends the loop is the only empty one
    let first := first.getD (block.headD 0)
    if block ≠ List.replicate block.length first then true else nonuniform (some first) rest

def hasNonuniformContent (content : Bytes) : Bool := nonuniform none (blocks content)

theorem nonuniform_some {a : UInt8} {l : List Bytes} :
    nonuniform (some a) l = true ↔ ∃ b ∈ l.flatten, b ≠ a := by
  induction l with
  | nil => simp [nonuniform]
  | cons block rest ih =>
    have hblock : block ≠ List.replicate block.length a ↔ ∃ b ∈ block, b ≠ a := by
      rw [ne_eq, List.eq_replicate_iff]
      simp
    rw [nonuniform, Option.getD_some, List.flatten_cons]
    by_cases h : block ≠ List.replicate block.length a
    · obtain ⟨b, hb, hne⟩ := hblock.mp h
      rw [if_pos h]
      exact iff_of_true rfl ⟨b, List.mem_append_left _ hb, hne⟩
    · rw [if_neg h, ih]
      constructor
      · rintro ⟨b, hb, hne⟩
        exact ⟨b, List.mem_append_right _ hb, hne⟩
      · rintro ⟨b, hb, hne⟩
        cases List.mem_append.mp hb with
        | inl hb => exact absurd (hblock.mpr ⟨b, hb, hne⟩) h
        | inr hb => exact ⟨b, hb, hne⟩

theorem exists_ne_head {a : UInt8} {l : Bytes} :
    (∃ b ∈ a :: l, b ≠ a) ↔ ∃ b ∈ a :: l, ∃ c ∈ a :: l, b ≠ c := by
  constructor
  · rintro ⟨b, hb, hne⟩
    exact ⟨b, hb, a, List.mem_cons_self, hne⟩
  · rintro ⟨b, hb, c, hc, hne⟩
    by_cases h : b = a
    · exact ⟨c, hc, fun e => hne (h.trans e.symm)⟩
    · exact ⟨b, hb, h⟩

/-- **The scan finds two different bytes exactly when the file holds them.** -/
theorem hasNonuniformContent_iff {content : Bytes} :
    hasNonuniformContent content = true ↔ ∃ a ∈ content, ∃ b ∈ content, a ≠ b := by
  have hflat := flatten_blocks content
  have hne : ∀ b ∈ blocks content, b ≠ [] := fun b h => ne_nil_of_mem_blocks h
  rw [hasNonuniformContent]
  cases hb : blocks content with
  | nil =>
    rw [hb, List.flatten_nil] at hflat
    rw [← hflat]
    simp [nonuniform]
  | cons block rest =>
    rw [hb] at hflat hne
    cases block with
    | nil => exact absurd rfl (hne [] List.mem_cons_self)
    | cons a tail =>
      have e : nonuniform none ((a :: tail) :: rest) = nonuniform (some a) ((a :: tail) :: rest) :=
        rfl
      rw [e, nonuniform_some, ← hflat, List.flatten_cons]
      exact exists_ne_head

end RT7.Capture
