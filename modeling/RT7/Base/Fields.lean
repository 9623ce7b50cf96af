import Mathlib.Data.List.Infix
import Mathlib.Data.List.TakeWhile

/-!
# Texts of fields with blanks between them

* `fields p text`   the runs of characters that are no blanks, where `p` says which are;
* `Blank`, `Field`  texts of blanks only, and without any;
* `fields_eq_cons`  the first field, and what stands around it;
* `fields_eq_pair`  the texts of two fields;
* `occurs`          a word somewhere in a text.
-/

namespace RT7.Fields

/-- A word stands somewhere in a text. -/
def occurs (word text : List Char) : Bool := text.tails.any fun rest => word.isPrefixOf rest

variable (p : Char → Bool)

def fields (text : List Char) : List (List Char) :=
  (text.splitOnP p).filter fun field => field ≠ []

def Blank (text : List Char) : Prop := ∀ c ∈ text, p c = true

/-- a text without blanks -/
structure Field (text : List Char) : Prop where
  nonempty : text ≠ []
  solid : ∀ c ∈ text, p c = false

variable {p}

theorem fields_append_cons (text rest : List Char) {c : Char} (h : p c = true) :
    fields p (text ++ c :: rest) = fields p text ++ fields p rest := by
  rw [fields, List.splitOnP_append_cons text rest h, List.filter_append]
  rfl

theorem fields_blank_append {blank : List Char} (h : Blank p blank) (rest : List Char) :
    fields p (blank ++ rest) = fields p rest := by
  induction blank with
  | nil => rfl
  | cons c blank ih =>
    have hcons := fields_append_cons [] (blank ++ rest) (h c List.mem_cons_self)
    rw [List.nil_append] at hcons
    rw [List.cons_append, hcons, ih fun d hd => h d (List.mem_cons_of_mem c hd)]
    rfl

theorem fields_blank {blank : List Char} (h : Blank p blank) : fields p blank = [] := by
  have hall := fields_blank_append h []
  rw [List.append_nil] at hall
  exact hall

theorem fields_of_field {text : List Char} (h : Field p text) : fields p text = [text] := by
  have hsingle : text.splitOnP p = [text] :=
    List.splitOnP_eq_singleton fun c hc => Bool.not_eq_true _ ▸ h.solid c hc
  rw [fields, hsingle]
  exact List.filter_cons_of_pos (decide_eq_true h.nonempty)

/-- The first field, what stands before it, and what follows it. -/
theorem fields_eq_cons {text field : List Char} {others : List (List Char)}
    (h : fields p text = field :: others) :
    ∃ blank rest, text = blank ++ (field ++ rest) ∧ Blank p blank ∧ Field p field ∧
      fields p rest = others ∧ (rest = [] ∨ ∃ c rest', rest = c :: rest' ∧ p c = true) := by
  have htext := (List.takeWhile_append_dropWhile (p := p) (l := text)).symm
  have hblank : Blank p (text.takeWhile p) := fun c hc => List.mem_takeWhile_imp hc
  generalize text.takeWhile p = blank at htext hblank
  generalize hstart : text.dropWhile p = start at htext
  rw [htext, fields_blank_append hblank] at h
  have hword := (List.takeWhile_append_dropWhile (p := fun c => !p c) (l := start)).symm
  have hsolid : ∀ c ∈ start.takeWhile fun c => !p c, p c = false :=
    fun c hc => (Bool.not_eq_true' _).mp (List.mem_takeWhile_imp (p := fun c => !p c) hc)
  have hne : start.takeWhile (fun c => !p c) ≠ [] := by
    intro hnil
    cases start with
    | nil => exact absurd h.symm (List.cons_ne_nil _ _)
    | cons c start =>
      have hc : p c = false := by
        have hnot := List.head?_dropWhile_not p text
        rw [hstart] at hnot
        exact hnot
      rw [List.takeWhile_cons_of_pos (by rw [hc]; rfl)] at hnil
      exact absurd hnil (List.cons_ne_nil _ _)
  generalize start.takeWhile (fun c => !p c) = word at hword hsolid hne
  have hfield : Field p word := ⟨hne, hsolid⟩
  cases hrest : start.dropWhile fun c => !p c with
  | nil =>
    rw [hrest, List.append_nil] at hword
    rw [hword, fields_of_field hfield] at h
    obtain ⟨rfl, rfl⟩ := List.cons.inj h
    refine ⟨blank, [], ?_, hblank, hfield, rfl, Or.inl rfl⟩
    rw [List.append_nil, ← hword]
    exact htext
  | cons c rest =>
    have hc : p c = true := by
      have hnot := List.head?_dropWhile_not (fun c => !p c) start
      rw [hrest] at hnot
      exact (Bool.not_eq_false' _).mp hnot
    rw [hrest] at hword
    rw [hword, fields_append_cons _ _ hc, fields_of_field hfield] at h
    obtain ⟨rfl, rfl⟩ := List.cons.inj h
    refine ⟨blank, c :: rest, ?_, hblank, hfield, ?_, Or.inr ⟨c, rest, rfl, hc⟩⟩
    · rw [← hword]
      exact htext
    · exact fields_append_cons [] rest hc

theorem blank_of_fields {text : List Char} (h : fields p text = []) : Blank p text := by
  induction text with
  | nil => exact fun c hc => absurd hc List.not_mem_nil
  | cons c text ih =>
    by_cases hc : p c = true
    · have hcons : fields p (c :: text) = fields p text := fields_append_cons [] text hc
      exact List.forall_mem_cons.mpr ⟨hc, ih (hcons ▸ h)⟩
    · rw [fields, List.splitOnP_cons_eq_if_modifyHead, if_neg hc] at h
      cases hpieces : text.splitOnP p with
      | nil => exact absurd hpieces (List.splitOnP_ne_nil _ _)
      | cons piece pieces =>
        rw [hpieces, List.modifyHead_cons, List.filter_cons_of_pos (by simp)] at h
        exact absurd h (List.cons_ne_nil _ _)

theorem fields_field_append {field rest : List Char} (h : Field p field)
    (hrest : rest = [] ∨ ∃ c rest', rest = c :: rest' ∧ p c = true) :
    fields p (field ++ rest) = field :: fields p rest := by
  rcases hrest with rfl | ⟨c, rest', rfl, hc⟩
  · rw [List.append_nil, fields_of_field h]
    rfl
  · have hcons : fields p (c :: rest') = fields p rest' := fields_append_cons [] rest' hc
    rw [fields_append_cons _ _ hc, fields_of_field h, hcons]
    rfl

theorem Blank.head {blank : List Char} (h : Blank p blank) :
    blank = [] ∨ ∃ c rest, blank = c :: rest ∧ p c = true := by
  cases blank with
  | nil => exact Or.inl rfl
  | cons c blank => exact Or.inr ⟨c, blank, rfl, h c List.mem_cons_self⟩

/-- **A text of two fields.** -/
theorem fields_eq_pair {text field field' : List Char} :
    fields p text = [field, field'] ↔ ∃ before between after,
      text = before ++ (field ++ (between ++ (field' ++ after))) ∧ Field p field ∧ Field p field' ∧
        Blank p before ∧ Blank p between ∧ between ≠ [] ∧ Blank p after := by
  constructor
  · intro h
    obtain ⟨before, rest, rfl, hbefore, hfield, hrest, hsep⟩ := fields_eq_cons h
    obtain ⟨between, after, rfl, hbetween, hfield', hafter, -⟩ := fields_eq_cons hrest
    refine ⟨before, between, after, rfl, hfield, hfield', hbefore, hbetween, ?_, blank_of_fields hafter⟩
    intro hnone
    rw [hnone, List.nil_append] at hsep
    rcases hsep with hnil | ⟨c, rest', heq, hc⟩
    · exact hfield'.nonempty (List.append_eq_nil_iff.mp hnil).1
    · cases field' with
      | nil => exact hfield'.nonempty rfl
      | cons d field' =>
        obtain ⟨rfl, -⟩ := List.cons.inj heq
        rw [hfield'.solid d List.mem_cons_self] at hc
        cases hc
  · intro h
    obtain ⟨before, between, after, rfl, hfield, hfield', hbefore, hbetween, hne, hafter⟩ := h
    obtain ⟨c, rest, rfl, hc⟩ := hbetween.head.resolve_left hne
    have hsep : c :: rest ++ (field' ++ after) = [] ∨ ∃ d rest',
        c :: rest ++ (field' ++ after) = d :: rest' ∧ p d = true :=
      Or.inr ⟨c, rest ++ (field' ++ after), rfl, hc⟩
    rw [fields_blank_append hbefore, fields_field_append hfield hsep,
      fields_blank_append hbetween, fields_field_append hfield' hafter.head, fields_blank hafter]

end RT7.Fields
