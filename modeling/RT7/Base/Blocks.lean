import Mathlib.Data.List.Basic
import Mathlib.Data.List.Infix

/-!
# Blocks of lines, and one block put in the place of another

* `OccursAt block lines i`   the block stands in the lines from place `i` on;
* `splice lines i n new`     `new` in the place of the `n` lines from place `i` on;
* `infix_splice`             the new block occurs in the lines it was put into;
* `infix_splice_of_core`     a block that shares no line with what a splice removes is still there;
* `firstAt`                  the first place of a block.
-/

namespace RT7.Blocks

variable {α : Type} {block old new lines before after core core' pre post : List α} {i : Nat}

def OccursAt (block lines : List α) (i : Nat) : Prop := i ≤ lines.length ∧ block <+: lines.drop i

def splice (lines : List α) (i n : Nat) (new : List α) : List α :=
  lines.take i ++ (new ++ lines.drop (i + n))

theorem occursAt_append (before block after : List α) :
    OccursAt block (before ++ (block ++ after)) before.length := by
  refine ⟨?_, ?_⟩
  · rw [List.length_append]
    exact Nat.le_add_right _ _
  · rw [List.drop_left]
    exact List.prefix_append block after

/-- the lines before and after a block -/
theorem OccursAt.split (h : OccursAt block lines i) :
    ∃ before after, lines = before ++ (block ++ after) ∧ before.length = i := by
  obtain ⟨hi, after, hafter⟩ := h
  refine ⟨lines.take i, after, ?_, List.length_take_of_le hi⟩
  rw [hafter, List.take_append_drop]

theorem OccursAt.isInfix (h : OccursAt block lines i) : block <:+: lines := by
  obtain ⟨before, after, rfl, -⟩ := h.split
  rw [← List.append_assoc]
  exact List.infix_append before block after

theorem exists_occursAt (h : block <:+: lines) : ∃ i ≤ lines.length, OccursAt block lines i := by
  obtain ⟨before, after, rfl⟩ := h
  rw [List.append_assoc]
  have hat := occursAt_append before block after
  exact ⟨before.length, hat.1, hat⟩

theorem splice_append (before old after new : List α) :
    splice (before ++ (old ++ after)) before.length old.length new = before ++ (new ++ after) := by
  unfold splice
  rw [List.take_left, ← List.drop_drop, List.drop_left, List.drop_left]

theorem length_splice (h : OccursAt old lines i) :
    (splice lines i old.length new).length + old.length = lines.length + new.length := by
  obtain ⟨before, after, rfl, rfl⟩ := h.split
  rw [splice_append]
  simp only [List.length_append]
  omega

theorem infix_splice (h : OccursAt old lines i) : new <:+: splice lines i old.length new := by
  obtain ⟨before, after, rfl, rfl⟩ := h.split
  rw [splice_append]
  exact (occursAt_append before new after).isInfix

/-- A block without the line `c` lies before or behind it. -/
theorem infix_split {c : α} (hc : c ∉ block) (h : block <:+: before ++ c :: after) :
    block <:+: before ∨ block <:+: after := by
  obtain ⟨s, t, h⟩ := h
  rw [List.append_assoc] at h
  rcases List.append_eq_append_iff.mp h with ⟨a, rfl, hrest⟩ | ⟨a, rfl, hrest⟩
  · -- the block starts before `c`
    rcases List.append_eq_append_iff.mp hrest with ⟨b, rfl, -⟩ | ⟨b, rfl, htail⟩
    · exact Or.inl ⟨s, b, List.append_assoc s block b⟩
    · cases b with
      | nil =>
        rw [List.append_nil]
        exact Or.inl (List.suffix_append s a).isInfix
      | cons x b =>
        injection htail with hx _
        subst hx
        exact absurd (List.mem_append_right a List.mem_cons_self) hc
  · -- or behind it, or right at it
    cases a with
    | nil =>
      cases block with
      | nil => exact Or.inl List.nil_infix
      | cons x block =>
        injection hrest with hx _
        subst hx
        exact absurd List.mem_cons_self hc
    | cons x a =>
      injection hrest with _ hrest
      have hafter : after = a ++ block ++ t := by rw [List.append_assoc, hrest, List.append_eq]
      rw [hafter]
      exact Or.inr (List.infix_append a block t)

theorem infix_split_core (hne : core ≠ []) (hcore : ∀ x ∈ core, x ∉ block)
    (h : block <:+: before ++ (core ++ after)) : block <:+: before ∨ block <:+: after := by
  induction core generalizing before with
  | nil => exact absurd rfl hne
  | cons c core ih =>
    have hc : c ∉ block := hcore c List.mem_cons_self
    cases infix_split hc h with
    | inl hb => exact Or.inl hb
    | inr hb =>
      cases core with
      | nil => exact Or.inr hb
      | cons d core =>
        have hrest : block <:+: [] ∨ block <:+: after :=
          ih (List.cons_ne_nil d core) (fun x hx => hcore x (List.mem_cons_of_mem c hx)) hb
        cases hrest with
        | inl hnil => exact Or.inl (hnil.trans List.nil_infix)
        | inr hafter => exact Or.inr hafter

/-- What a splice keeps around a core of removed lines, it leaves where it was. -/
theorem infix_splice_of_core (hne : core ≠ []) (hcore : ∀ x ∈ core, x ∉ block)
    (hat : OccursAt (pre ++ (core ++ post)) lines i) (h : block <:+: lines) :
    block <:+: splice lines i (pre ++ (core ++ post)).length (pre ++ (core' ++ post)) := by
  obtain ⟨before, after, rfl, rfl⟩ := hat.split
  rw [splice_append]
  have hsplit : before ++ (pre ++ (core ++ post) ++ after) =
      (before ++ pre) ++ (core ++ (post ++ after)) := by simp only [List.append_assoc]
  have hnew : before ++ (pre ++ (core' ++ post) ++ after) =
      (before ++ pre) ++ (core' ++ (post ++ after)) := by simp only [List.append_assoc]
  rw [hsplit] at h
  rw [hnew]
  cases infix_split_core hne hcore h with
  | inl h => exact h.trans (List.prefix_append _ _).isInfix
  | inr h =>
    rw [← List.append_assoc]
    exact h.trans (List.suffix_append _ _).isInfix

section first
variable [DecidableEq α]

instance : Decidable (OccursAt block lines i) :=
  inferInstanceAs (Decidable (i ≤ lines.length ∧ block <+: lines.drop i))

/-- the first place at which a block occurs -/
def firstAt (block lines : List α) : Option Nat :=
  (List.range (lines.length + 1)).find? fun i => OccursAt block lines i

theorem occursAt_of_firstAt (h : firstAt block lines = some i) : OccursAt block lines i := by
  rw [firstAt] at h
  have hp := List.find?_some h
  exact of_decide_eq_true hp

theorem not_infix_of_firstAt (h : firstAt block lines = none) : ¬ block <:+: lines := by
  intro hin
  obtain ⟨i, hi, hat⟩ := exists_occursAt hin
  have hrange : i ∈ List.range (lines.length + 1) := List.mem_range.mpr (Nat.lt_succ_of_le hi)
  have hno := List.find?_eq_none.mp h i hrange
  exact hno (decide_eq_true hat)

end first

end RT7.Blocks
