import RT7.Base.Text

/-!
# POSIX paths

* `PosixPath`       a root and its components; no component is empty, `.`, or holds a slash;
* `PosixPath.parse`, `PosixPath.str`   `Path(text)` and `str(path)`, with `parse_str`, so that
  `str` is injective;
* `path / text`     the joining of `pathlib`;
* `mem_toList_str`  a character of `str(path)` other than `/` and `.` is one of a component;
* `PosixPath.parents`   the proper ancestors.
-/

namespace RT7

open Text

/-- The text before the first component: nothing, `/` or `//`. -/
inductive Root where
  | relative
  | slash
  | slashes
  deriving DecidableEq, Repr

def Root.text : Root → String
  | .relative => ""
  | .slash => "/"
  | .slashes => "//"

theorem Root.eq_of_mem_text {r : Root} {c : Char} (h : c ∈ r.text.toList) : c = '/' := by
  cases r with
  | relative => exact absurd h List.not_mem_nil
  | slash => exact List.mem_singleton.mp h
  | slashes =>
    cases h with
    | head => rfl
    | tail _ h => exact List.mem_singleton.mp h

/-- The root that a text begins with; three slashes and more count as one. -/
def Root.ofText (text : String) : Root :=
  match text.toList with
  | '/' :: '/' :: '/' :: _ => .slash
  | '/' :: '/' :: _ => .slashes
  | '/' :: _ => .slash
  | _ => .relative

/-- A name that stands between two slashes of a parsed path. -/
def Component (name : String) : Prop := name ≠ "" ∧ name ≠ "." ∧ '/' ∉ name.toList

instance (name : String) : Decidable (Component name) := inferInstanceAs (Decidable (_ ∧ _ ∧ _))

structure PosixPath where
  root : Root
  parts : List String
  component : ∀ name ∈ parts, Component name
  deriving DecidableEq

/-- The components of a text: empty ones and `.` are dropped. -/
def components (text : String) : List String :=
  (split '/' text).filter fun name => name ≠ "" ∧ name ≠ "."

theorem component_of_mem_components {name text : String} (h : name ∈ components text) :
    Component name := by
  have hm := List.mem_filter.mp h
  have hd := of_decide_eq_true hm.2
  exact ⟨hd.1, hd.2, not_mem_of_mem_split hm.1⟩

namespace PosixPath

@[ext] theorem ext {p q : PosixPath} (hr : p.root = q.root) (hp : p.parts = q.parts) : p = q := by
  cases p; cases q; cases hr; cases hp; rfl

/-- `Path(text)` -/
def parse (text : String) : PosixPath :=
  ⟨Root.ofText text, components text, fun _ h => component_of_mem_components h⟩

/-- `str(path)` -/
def str (p : PosixPath) : String :=
  if p.parts = [] ∧ p.root = .relative then "." else p.root.text ++ join '/' p.parts

/-- `path / text` -/
def truediv (p : PosixPath) (text : String) : PosixPath :=
  if text.toList.head? = some '/' then parse text
  else ⟨p.root, p.parts ++ components text, by
    intro name h
    cases List.mem_append.mp h with
    | inl h => exact p.component name h
    | inr h => exact component_of_mem_components h⟩

instance : HDiv PosixPath String PosixPath := ⟨truediv⟩

/-- `path.name` -/
def name (p : PosixPath) : String := p.parts.getLast?.getD ""

/-- `path.parent` -/
def parent (p : PosixPath) : PosixPath :=
  ⟨p.root, p.parts.dropLast, fun name h => p.component name (List.dropLast_subset p.parts h)⟩

/-- `path.parents` -/
def parents (p : PosixPath) : List PosixPath :=
  (List.range p.parts.length).reverse.map fun n =>
    ⟨p.root, p.parts.take n, fun name h => p.component name (List.mem_of_mem_take h)⟩

end PosixPath

/-! ## parsing undoes printing -/

theorem head_join_ne {parts : List String} (h : ∀ name ∈ parts, Component name) :
    (join '/' parts).toList.head? ≠ some '/' := by
  cases parts with
  | nil => simp [join_nil]
  | cons x xs =>
    have hx := h x List.mem_cons_self
    have hpre : (join '/' (x :: xs)).toList.head? = x.toList.head? := by
      cases hl : x.toList with
      | nil => exact absurd (String.toList_eq_nil_iff.mp hl) hx.1
      | cons c cs =>
        cases xs with
        | nil => rw [join_singleton, hl]
        | cons y ys => rw [toList_join_cons_cons, hl, List.cons_append, List.head?_cons,
            List.head?_cons]
    rw [hpre]
    intro e
    exact hx.2.2 (List.mem_of_mem_head? e)

theorem components_slash (text : String) : components ("/" ++ text) = components text := by
  have e : split '/' ("/" ++ text) = "" :: split '/' text := by
    rw [split, String.toList_append]
    show (([] ++ '/' :: text.toList).splitOn '/').map String.ofList = _
    rw [List.splitOn_append_cons_self_of_not_mem List.not_mem_nil]
    rfl
  rw [components, e, List.filter_cons_of_neg (by decide)]
  rfl

theorem components_join {parts : List String} (h : ∀ name ∈ parts, Component name) :
    components (join '/' parts) = parts := by
  cases parts with
  | nil => decide
  | cons x xs =>
    rw [components, split_join (List.cons_ne_nil x xs) fun s hs => (h s hs).2.2,
      List.filter_eq_self]
    intro s hs
    exact decide_eq_true ⟨(h s hs).1, (h s hs).2.1⟩

theorem components_self {name : String} (h : Component name) : components name = [name] := by
  have hall : ∀ s ∈ [name], Component s := by
    intro s hs
    rw [List.mem_singleton.mp hs]
    exact h
  have e := components_join hall
  rwa [join_singleton] at e

theorem Root.ofText_text (r : Root) {text : String} (h : text.toList.head? ≠ some '/') :
    Root.ofText (r.text ++ text) = r := by
  have key : ∀ cs : List Char, cs.head? ≠ some '/' →
      (∀ c cs', cs = c :: cs' → c ≠ '/') := by
    rintro cs hc c cs' rfl rfl
    exact hc rfl
  have hne := key text.toList h
  rw [Root.ofText, String.toList_append]
  cases r with
  | relative =>
    show (match text.toList with
      | '/' :: '/' :: '/' :: _ => Root.slash
      | '/' :: '/' :: _ => Root.slashes
      | '/' :: _ => Root.slash
      | _ => Root.relative) = _
    split
    · exact absurd rfl (hne _ _ ‹_›)
    · exact absurd rfl (hne _ _ ‹_›)
    · exact absurd rfl (hne _ _ ‹_›)
    · rfl
  | slash =>
    show (match '/' :: text.toList with
      | '/' :: '/' :: '/' :: _ => Root.slash
      | '/' :: '/' :: _ => Root.slashes
      | '/' :: _ => Root.slash
      | _ => Root.relative) = _
    split
    · rfl
    · rename_i e
      exact absurd rfl (hne _ _ (List.cons.inj e).2)
    · rfl
    · rename_i hno
      exact absurd rfl (hno _)
  | slashes =>
    show (match '/' :: '/' :: text.toList with
      | '/' :: '/' :: '/' :: _ => Root.slash
      | '/' :: '/' :: _ => Root.slashes
      | '/' :: _ => Root.slash
      | _ => Root.relative) = _
    split
    · rename_i e
      exact absurd rfl (hne _ _ (List.cons.inj (List.cons.inj e).2).2)
    · rfl
    · rename_i hno e
      exact absurd (List.cons.inj e).2.symm (hno _)
    · rename_i hno
      exact absurd rfl (hno _)

namespace PosixPath

/-- **The text of a path is parsed back to it.** -/
theorem parse_str (p : PosixPath) : parse p.str = p := by
  by_cases h : p.parts = [] ∧ p.root = .relative
  · rw [str, if_pos h]
    exact ext h.2.symm h.1.symm
  · rw [str, if_neg h]
    refine ext ?_ ?_
    · show Root.ofText (p.root.text ++ join '/' p.parts) = p.root
      exact Root.ofText_text p.root (head_join_ne p.component)
    · show components (p.root.text ++ join '/' p.parts) = p.parts
      have e : components (p.root.text ++ join '/' p.parts) = components (join '/' p.parts) := by
        cases p.root with
        | relative => rw [Root.text, String.empty_append]
        | slash => exact components_slash _
        | slashes =>
          show components ("/" ++ "/" ++ join '/' p.parts) = _
          rw [String.append_assoc, components_slash, components_slash]
      rw [e, components_join p.component]

theorem str_injective : Function.Injective str := Function.LeftInverse.injective parse_str

/-! ## children -/

variable {p : PosixPath} {n : String}

theorem div_eq (h : Component n) :
    p / n = ⟨p.root, p.parts ++ [n], by
      intro name hm
      cases List.mem_append.mp hm with
      | inl hm => exact p.component name hm
      | inr hm => exact List.mem_singleton.mp hm ▸ h⟩ := by
  have hhead : n.toList.head? ≠ some '/' := fun e => h.2.2 (List.mem_of_mem_head? e)
  show truediv p n = _
  rw [truediv, if_neg hhead]
  refine ext rfl ?_
  show p.parts ++ components n = p.parts ++ [n]
  rw [components_self h]

theorem root_div (h : Component n) : (p / n).root = p.root := by rw [div_eq h]

theorem parts_div (h : Component n) : (p / n).parts = p.parts ++ [n] := by rw [div_eq h]

theorem name_div (h : Component n) : (p / n).name = n := by
  rw [name, parts_div h, List.getLast?_concat, Option.getD_some]

theorem parent_div (h : Component n) : (p / n).parent = p := by
  refine ext (root_div h) ?_
  show (p / n).parts.dropLast = p.parts
  rw [parts_div h, List.dropLast_concat]

theorem div_inj {q : PosixPath} {m : String} (hn : Component n) (hm : Component m) :
    p / n = q / m ↔ p = q ∧ n = m := by
  constructor
  · intro e
    have h1 := congrArg parent e
    have h2 := congrArg name e
    rw [parent_div hn, parent_div hm] at h1
    rw [name_div hn, name_div hm] at h2
    exact ⟨h1, h2⟩
  · rintro ⟨rfl, rfl⟩
    rfl

theorem parts_div_ne_nil (h : Component n) : (p / n).parts ≠ [] := by
  rw [parts_div h]
  exact List.append_ne_nil_of_right_ne_nil _ (List.cons_ne_nil n [])

theorem str_of_parts_ne_nil (h : p.parts ≠ []) : p.str = p.root.text ++ join '/' p.parts :=
  if_neg fun e => h e.1

/-- the text of a child, below a path that has a component -/
theorem str_div (hp : p.parts ≠ []) (h : Component n) : (p / n).str = p.str ++ "/" ++ n := by
  have hsep : String.singleton '/' = "/" := rfl
  rw [str_of_parts_ne_nil (parts_div_ne_nil h), str_of_parts_ne_nil hp, root_div h, parts_div h,
    join_concat '/' hp, hsep, String.append_assoc, String.append_assoc, String.append_assoc]

theorem str_ne_empty (p : PosixPath) : p.str ≠ "" := by
  intro e
  by_cases h : p.parts = [] ∧ p.root = .relative
  · rw [str, if_pos h] at e
    exact absurd e (by decide)
  · have hp := parse_str p
    rw [e] at hp
    exact h ⟨(congrArg parts hp).symm, (congrArg root hp).symm⟩

/-- a path that has a component does not end in a slash -/
theorem getLast_str_ne (hp : p.parts ≠ []) : p.str.toList.getLast? ≠ some '/' := by
  obtain ⟨l, s, hl⟩ := (List.eq_nil_or_concat p.parts).resolve_left hp
  have hs : Component s := p.component s (by simp [hl])
  have hne : s.toList ≠ [] := fun e => hs.1 (String.toList_eq_nil_iff.mp e)
  obtain ⟨front, hfront⟩ : ∃ front : String, p.str = front ++ s := by
    rw [str_of_parts_ne_nil hp, hl, List.concat_eq_append]
    cases l with
    | nil => exact ⟨p.root.text, by rw [List.nil_append, join_singleton]⟩
    | cons x xs =>
      rw [join_concat '/' (List.cons_ne_nil x xs), ← String.append_assoc]
      exact ⟨_, rfl⟩
  rw [hfront, String.toList_append, List.getLast?_append_of_ne_nil _ hne]
  intro h
  exact hs.2.2 (List.mem_of_getLast? h)

/-- A character of the text other than `/` and `.` stands in a component. -/
theorem mem_toList_str {c : Char} (hs : c ≠ '/') (hd : c ≠ '.') :
    c ∈ p.str.toList ↔ ∃ part ∈ p.parts, c ∈ part.toList := by
  by_cases h : p.parts = [] ∧ p.root = .relative
  · rw [str, if_pos h, h.1]
    constructor
    · intro hc
      exact absurd (List.mem_singleton.mp hc) hd
    · rintro ⟨part, hp, -⟩
      exact absurd hp List.not_mem_nil
  · have hroot : c ∉ p.root.text.toList := fun hc => hs (Root.eq_of_mem_text hc)
    rw [str, if_neg h, String.toList_append, List.mem_append, mem_join]
    constructor
    · rintro (hc | hc | ⟨hc, -⟩)
      · exact absurd hc hroot
      · exact hc
      · exact absurd hc hs
    · intro hc
      exact .inr (.inl hc)

/-- the characters of the text of a child -/
theorem mem_toList_str_div {c : Char} (h : Component n) (hc : c ∈ (p / n).str.toList) :
    c ∈ p.str.toList ∨ c = '/' ∨ c ∈ n.toList := by
  by_cases hp : p.parts = []
  · rw [str_of_parts_ne_nil (parts_div_ne_nil h), root_div h, parts_div h, hp, List.nil_append,
      join_singleton, String.toList_append, List.mem_append] at hc
    cases hc with
    | inl hc => exact .inr (.inl (Root.eq_of_mem_text hc))
    | inr hc => exact .inr (.inr hc)
  · rw [str_div hp h, String.toList_append, String.toList_append, List.mem_append,
      List.mem_append] at hc
    obtain (hc | hc) | hc := hc
    · exact .inl hc
    · exact .inr (.inl (List.mem_singleton.mp hc))
    · exact .inr (.inr hc)

/-- an absolute path is written with a slash in front -/
theorem head_str (h : p.root ≠ .relative) : p.str.toList.head? = some '/' := by
  have e : p.str = p.root.text ++ join '/' p.parts := if_neg fun hr => h hr.2
  rw [e, String.toList_append]
  cases hr : p.root with
  | relative => exact absurd hr h
  | slash => rfl
  | slashes => rfl

theorem mem_parents {q : PosixPath} :
    q ∈ p.parents ↔ q.root = p.root ∧ q.parts <+: p.parts ∧ q.parts ≠ p.parts := by
  rw [parents, List.mem_map]
  constructor
  · rintro ⟨n, hn, rfl⟩
    have hlt : n < p.parts.length := by simpa using hn
    refine ⟨rfl, List.take_prefix n p.parts, ?_⟩
    intro e
    have hl : (p.parts.take n).length = p.parts.length := congrArg List.length e
    rw [List.length_take] at hl
    omega
  · rintro ⟨hr, hpre, hne⟩
    have hlen : q.parts.length < p.parts.length := by
      refine Nat.lt_of_le_of_ne hpre.length_le fun e => hne ?_
      exact hpre.eq_of_length e
    refine ⟨q.parts.length, by simpa using hlen, ?_⟩
    exact ext hr.symm (List.prefix_iff_eq_take.mp hpre).symm

variable {m k : String}

theorem mem_parents_div (hn : Component n) : p ∈ (p / n).parents := by
  rw [mem_parents, root_div hn, parts_div hn]
  refine ⟨rfl, List.prefix_append _ _, fun e => ?_⟩
  have hlength := congrArg List.length e
  rw [List.length_append, List.length_singleton] at hlength
  omega

theorem mem_parents_div_div (hn : Component n) (hm : Component m) : p ∈ (p / n / m).parents := by
  obtain ⟨hroot, hpre, hne⟩ := mem_parents.mp (mem_parents_div (p := p) hn)
  rw [mem_parents, root_div hm, parts_div hm]
  refine ⟨hroot, hpre.trans (List.prefix_append _ _), fun e => ?_⟩
  have hlength := congrArg List.length e
  have hle := hpre.length_le
  rw [List.length_append, List.length_singleton] at hlength
  omega

theorem div_ne_self (hn : Component n) : p / n ≠ p := by
  intro e
  have hlength : (p / n).parts.length = p.parts.length := by rw [e]
  rw [parts_div hn, List.length_append, List.length_singleton] at hlength
  omega

theorem div_div_ne (hn : Component n) (hm : Component m) (hk : Component k) :
    p / n / m ≠ p / k := fun e => div_ne_self hn ((div_inj hm hk).mp e).1

end PosixPath

end RT7
