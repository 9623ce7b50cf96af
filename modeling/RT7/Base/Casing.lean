import RT7.Base.Text

/-!
# Comparing texts up to letter case

* `Casing`          a way to fold letter case, one character at a time: ASCII letters fold as usual,
  and an ASCII character that is no letter is alone in its class;
* `Casing.key`      the folded characters of a text; two texts are equal up to case when their keys
  are;
* `Casing.map_split`   texts that are equal up to case have their separators in the same places;
* `PlainNames`      ASCII names that stay distinct when letter case is ignored, whatever the casing;
* `Casing.ordinal`  the folding that knows ASCII letters only.
-/

namespace RT7

structure Casing where
  fold : Char → Char
  ascii : ∀ c d : Char, c.toNat < 128 → d.toNat < 128 →
    (fold c = fold d ↔ c.toLower = d.toLower)
  caseless : ∀ c d : Char, c.toNat < 128 → c.isAlpha = false → fold d = fold c → d = c

namespace Casing
variable (cs : Casing)

def key (s : String) : List Char := s.toList.map cs.fold

theorem key_append (s t : String) : cs.key (s ++ t) = cs.key s ++ cs.key t := by
  rw [key, String.toList_append, List.map_append]
  rfl

theorem key_ofList (l : List Char) : cs.key (String.ofList l) = l.map cs.fold := by
  rw [key, String.toList_ofList]

theorem length_key (s : String) : (cs.key s).length = s.toList.length := List.length_map _

theorem key_eq_nil {s : String} : cs.key s = [] ↔ s = "" := by
  rw [key, List.map_eq_nil_iff, String.toList_eq_nil_iff]

variable {cs}

/-- A caseless separator cuts two texts that are equal up to case in the same places. -/
theorem map_split {c : Char} (hc : c.toNat < 128) (ha : c.isAlpha = false) {s s' t t' : List Char}
    (hs : c ∉ s) (hs' : c ∉ s')
    (h : (s ++ c :: t).map cs.fold = (s' ++ c :: t').map cs.fold) :
    s.map cs.fold = s'.map cs.fold ∧ t.map cs.fold = t'.map cs.fold := by
  induction s generalizing s' with
  | nil => cases s' with
    | nil => exact ⟨rfl, (List.cons.inj h).2⟩
    | cons d s' =>
      have hd := cs.caseless c d hc ha (List.cons.inj h).1.symm
      exact absurd (hd ▸ List.mem_cons_self) hs'
  | cons d s ih => cases s' with
    | nil =>
      have hd := cs.caseless c d hc ha (List.cons.inj h).1
      exact absurd (hd ▸ List.mem_cons_self) hs
    | cons d' s' =>
      have hcons := List.cons.inj h
      have htail := ih (fun hm => hs (List.mem_cons_of_mem d hm))
        (fun hm => hs' (List.mem_cons_of_mem d' hm)) hcons.2
      exact ⟨congrArg₂ List.cons hcons.1 htail.1, htail.2⟩

/-- a caseless character is in both texts or in neither -/
theorem mem_of_map_eq {c : Char} (hc : c.toNat < 128) (ha : c.isAlpha = false)
    {s s' : List Char} (h : s.map cs.fold = s'.map cs.fold) (hm : c ∈ s) : c ∈ s' := by
  have hf : cs.fold c ∈ s'.map cs.fold := h ▸ List.mem_map_of_mem hm
  obtain ⟨d, hd, e⟩ := List.mem_map.mp hf
  exact cs.caseless c d hc ha e ▸ hd

/-- characters that are equal up to case to themselves only -/
def Caseless (s : List Char) : Prop := ∀ c ∈ s, c.toNat < 128 ∧ c.isAlpha = false

instance (s : List Char) : Decidable (Caseless s) := List.decidableBAll _ s

theorem eq_of_map_eq {s s' : List Char} (hs : Caseless s)
    (h : s'.map cs.fold = s.map cs.fold) : s' = s := by
  induction s generalizing s' with
  | nil => exact List.map_eq_nil_iff.mp h
  | cons c s ih => cases s' with
    | nil => exact absurd h.symm (List.cons_ne_nil _ _)
    | cons d s' =>
      have hc := hs c List.mem_cons_self
      have hcons := List.cons.inj h
      rw [cs.caseless c d hc.1 hc.2 hcons.1, ih (fun d hd => hs d (List.mem_cons_of_mem c hd)) hcons.2]

/-- on ASCII texts every casing is the usual one -/
theorem map_fold_eq_iff {s t : List Char} (hs : ∀ c ∈ s, c.toNat < 128)
    (ht : ∀ c ∈ t, c.toNat < 128) :
    s.map cs.fold = t.map cs.fold ↔ s.map Char.toLower = t.map Char.toLower := by
  induction s generalizing t with
  | nil => cases t with
    | nil => exact Iff.rfl
    | cons d t => simp
  | cons c s ih => cases t with
    | nil => simp
    | cons d t =>
      have hcd := cs.ascii c d (hs c List.mem_cons_self) (ht d List.mem_cons_self)
      have hrest := ih (fun x hx => hs x (List.mem_cons_of_mem c hx))
        (fun x hx => ht x (List.mem_cons_of_mem d hx))
      rw [List.map_cons, List.map_cons, List.map_cons, List.map_cons, List.cons.injEq,
        List.cons.injEq, hcd, hrest]

end Casing

/-! ## names that no casing confuses -/

def PlainNames (names : List String) : Prop :=
  (∀ name ∈ names, Text.Ascii name ∧ name ≠ "") ∧
  (names.map fun name => name.toList.map Char.toLower).Nodup

instance (names : List String) : Decidable (PlainNames names) :=
  inferInstanceAs (Decidable (_ ∧ _))

theorem PlainNames.nodup_key {names : List String} (h : PlainNames names) (cs : Casing)
    {l : List String} (hl : l.Nodup) (hsub : l ⊆ names) : (l.map cs.key).Nodup := by
  refine hl.map_on ?_
  intro a ha b hb hab
  refine List.inj_on_of_nodup_map h.2 (hsub ha) (hsub hb) ?_
  exact (Casing.map_fold_eq_iff (h.1 a (hsub ha)).1 (h.1 b (hsub hb)).1).mp hab

/-! ## the letters of ASCII -/

theorem toLower_of_not_upper {c : Char} (h : ¬ (65 ≤ c.toNat ∧ c.toNat ≤ 90)) : c.toLower = c :=
  dif_neg h

theorem toNat_toLower {c : Char} (h : 65 ≤ c.toNat ∧ c.toNat ≤ 90) :
    c.toLower.toNat = c.toNat + 32 := by
  have e : c.toLower.val = c.val + 32 := by
    have hv : c.val ≥ 'A'.val ∧ c.val ≤ 'Z'.val := h
    exact congrArg Char.val (dif_pos hv)
  show c.toLower.val.toNat = c.val.toNat + 32
  have hlt : c.val.toNat ≤ 90 := h.2
  rw [e, UInt32.toNat_add]
  show (c.val.toNat + 32) % 2 ^ 32 = _
  omega

theorem isAlpha_eq_false {c : Char} :
    c.isAlpha = false ↔
      ¬ (65 ≤ c.toNat ∧ c.toNat ≤ 90) ∧ ¬ (97 ≤ c.toNat ∧ c.toNat ≤ 122) := by
  have hu : c.isUpper = decide (65 ≤ c.toNat ∧ c.toNat ≤ 90) := rfl
  have hl : c.isLower = (decide (97 ≤ c.toNat) && decide (c.toNat ≤ 122)) := rfl
  show (c.isUpper || c.isLower) = false ↔ _
  rw [hu, hl]
  simp

/-- only ASCII letters have a case -/
def Casing.ordinal : Casing where
  fold := Char.toLower
  ascii _ _ _ _ := Iff.rfl
  caseless := by
    intro c d _ ha h
    have hno := isAlpha_eq_false.mp ha
    rw [toLower_of_not_upper hno.1] at h
    by_cases hd : 65 ≤ d.toNat ∧ d.toNat ≤ 90
    · have e := toNat_toLower hd
      rw [h] at e
      exact absurd (by omega) hno.2
    · rwa [toLower_of_not_upper hd] at h

end RT7
