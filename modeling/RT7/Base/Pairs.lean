import Mathlib.Data.List.Basic
import Mathlib.Data.List.Nodup

/-!
# Flat lists that hold keys and values in turn

* `flat`            the list of the keys and values of some pairs;
* `exists_index`    a key that is none of the values is found right before its first value;
* `assign k v`      the pairs with another value at the first `k`: the keys stay, and so does the
  value of every other key;
* `mask`            one `assign` after the other; `mask_eq_iff` is what two masked lists share when
  they are equal.
-/

namespace RT7.Pairs

variable {α : Type}

def flat (pairs : List (α × α)) : List α := pairs.flatMap fun p => [p.1, p.2]

theorem flat_cons (p : α × α) (ps : List (α × α)) : flat (p :: ps) = p.1 :: p.2 :: flat ps := rfl

theorem flat_injective : Function.Injective (flat : List (α × α) → List α) := by
  intro ps
  induction ps with
  | nil =>
    intro qs h
    cases qs with
    | nil => rfl
    | cons q qs => cases h
  | cons p ps ih =>
    intro qs h
    cases qs with
    | nil => cases h
    | cons q qs =>
      rw [flat_cons, flat_cons] at h
      injection h with hkey h
      injection h with hvalue h
      rw [ih h, Prod.ext hkey hvalue]

theorem getElem?_flat_snd (pairs : List (α × α)) (i : Nat) :
    (flat pairs)[2 * i + 1]? = (pairs[i]?).map Prod.snd := by
  induction pairs generalizing i with
  | nil => rfl
  | cons p ps ih =>
    cases i with
    | zero => rfl
    | succ i =>
      rw [flat_cons, Nat.mul_succ]
      exact ih i

/-- The key stands nowhere as a value. -/
def NotValue (k : α) (pairs : List (α × α)) : Prop := ∀ p ∈ pairs, p.2 ≠ k

variable {k k' v : α} {pairs ps qs : List (α × α)} {p : α × α}

theorem mem_flat (h : NotValue k pairs) : k ∈ flat pairs ↔ k ∈ pairs.map Prod.fst := by
  rw [flat, List.mem_flatMap, List.mem_map]
  refine exists_congr fun p => and_congr_right fun hp => ?_
  have hne : k ≠ p.2 := (h p hp).symm
  rw [List.mem_cons, List.mem_singleton, or_iff_left hne]
  exact eq_comm

theorem notValue_cons : NotValue k (p :: ps) ↔ p.2 ≠ k ∧ NotValue k ps := List.forall_mem_cons

variable [DecidableEq α]

/-- Another value for the first pair with the key. -/
def assign (k v : α) : List (α × α) → List (α × α)
  | [] => []
  | p :: ps => if p.1 = k then (k, v) :: ps else p :: assign k v ps

theorem assign_cons_self (h : p.1 = k) : assign k v (p :: ps) = (k, v) :: ps := if_pos h

theorem assign_cons_ne (h : p.1 ≠ k) : assign k v (p :: ps) = p :: assign k v ps := if_neg h

theorem assign_of_not_mem (h : k ∉ pairs.map Prod.fst) : assign k v pairs = pairs := by
  induction pairs with
  | nil => rfl
  | cons p ps ih =>
    rw [List.map_cons, List.mem_cons, not_or] at h
    rw [assign_cons_ne (Ne.symm h.1), ih h.2]

theorem map_fst_assign (k v : α) (pairs : List (α × α)) :
    (assign k v pairs).map Prod.fst = pairs.map Prod.fst := by
  induction pairs with
  | nil => rfl
  | cons p ps ih =>
    by_cases h : p.1 = k
    · rw [assign_cons_self h, List.map_cons, List.map_cons, h]
    · rw [assign_cons_ne h, List.map_cons, List.map_cons, ih]

theorem mem_assign (h : p ∈ assign k v pairs) : p ∈ pairs ∨ p = (k, v) := by
  induction pairs with
  | nil => exact absurd h List.not_mem_nil
  | cons q ps ih =>
    by_cases hq : q.1 = k
    · rw [assign_cons_self hq] at h
      cases h with
      | head => exact .inr rfl
      | tail _ h => exact .inl (List.mem_cons_of_mem q h)
    · rw [assign_cons_ne hq] at h
      cases h with
      | head => exact .inl List.mem_cons_self
      | tail _ h => exact (ih h).imp (fun h => List.mem_cons_of_mem q h) id

theorem NotValue.assign (h : NotValue k' pairs) (hv : v ≠ k') : NotValue k' (assign k v pairs) := by
  intro p hp
  cases mem_assign hp with
  | inl hp => exact h p hp
  | inr hp => rwa [hp]

/-- pairs with other keys stay where they are -/
theorem filter_assign {P : α → Bool} (h : P k = false) :
    (assign k v pairs).filter (fun p => P p.1) = pairs.filter fun p => P p.1 := by
  induction pairs with
  | nil => rfl
  | cons p ps ih =>
    by_cases hp : p.1 = k
    · have hold : P p.1 = false := by rw [hp, h]
      have hnew : P (k, v).1 = false := h
      rw [assign_cons_self hp, List.filter_cons, List.filter_cons, hnew, hold]
      rfl
    · rw [assign_cons_ne hp, List.filter_cons, List.filter_cons, ih]

/-! ## lookups -/

theorem lookup_cons_self (h : p.1 = k) : (p :: ps).lookup k = some p.2 := by
  have hb : (k == p.1) = true := by rw [h, beq_self_eq_true]
  rw [List.lookup_cons, hb]

theorem lookup_cons_ne (h : p.1 ≠ k) : (p :: ps).lookup k = ps.lookup k := by
  have hb : (k == p.1) = false := beq_false_of_ne (Ne.symm h)
  rw [List.lookup_cons, hb]

theorem lookup_isSome : (pairs.lookup k).isSome ↔ k ∈ pairs.map Prod.fst := by
  induction pairs with
  | nil => simp
  | cons p ps ih =>
    rw [List.map_cons, List.mem_cons]
    by_cases h : p.1 = k
    · rw [lookup_cons_self h]
      exact iff_of_true rfl (.inl h.symm)
    · rw [lookup_cons_ne h, ih, or_iff_right (Ne.symm h)]

theorem lookup_assign_self (h : k ∈ pairs.map Prod.fst) : (assign k v pairs).lookup k = some v := by
  induction pairs with
  | nil => exact absurd h List.not_mem_nil
  | cons p ps ih =>
    by_cases hp : p.1 = k
    · rw [assign_cons_self hp]
      exact lookup_cons_self rfl
    · rw [List.map_cons, List.mem_cons, or_iff_right (Ne.symm hp)] at h
      rw [assign_cons_ne hp, lookup_cons_ne hp, ih h]

theorem lookup_assign_ne (h : k' ≠ k) : (assign k v pairs).lookup k' = pairs.lookup k' := by
  induction pairs with
  | nil => rfl
  | cons p ps ih =>
    by_cases hp : p.1 = k
    · have hp' : p.1 ≠ k' := fun e => h (e.symm.trans hp)
      rw [assign_cons_self hp, lookup_cons_ne hp', lookup_cons_ne (Ne.symm h)]
    · rw [assign_cons_ne hp]
      by_cases hk : p.1 = k'
      · rw [lookup_cons_self hk, lookup_cons_self hk]
      · rw [lookup_cons_ne hk, lookup_cons_ne hk, ih]

/-- distinct keys in one order, and their values, make a list of pairs -/
theorem ext_lookup (hp : (ps.map Prod.fst).Nodup) (hkeys : ps.map Prod.fst = qs.map Prod.fst)
    (h : ∀ k, ps.lookup k = qs.lookup k) : ps = qs := by
  induction ps generalizing qs with
  | nil => exact (List.map_eq_nil_iff.mp hkeys.symm).symm
  | cons p ps ih =>
    cases qs with
    | nil => cases hkeys
    | cons q qs =>
      rw [List.map_cons, List.map_cons] at hkeys
      injection hkeys with hkey hkeys
      obtain ⟨hfresh, hnodup⟩ := List.nodup_cons.mp hp
      have hhead := h p.1
      rw [lookup_cons_self rfl, lookup_cons_self hkey.symm] at hhead
      have htail : ∀ k, ps.lookup k = qs.lookup k := by
        intro k
        by_cases hk : p.1 = k
        · have hps : ps.lookup k = none := by
            rw [← Option.not_isSome_iff_eq_none, lookup_isSome, ← hk]
            exact hfresh
          have hqs : qs.lookup k = none := by
            rw [← Option.not_isSome_iff_eq_none, lookup_isSome, ← hkeys, ← hk]
            exact hfresh
          rw [hps, hqs]
        · have hk' : q.1 ≠ k := fun e => hk (hkey.trans e)
          have hrest := h k
          rwa [lookup_cons_ne hk, lookup_cons_ne hk'] at hrest
      rw [ih hnodup hkeys htail, Prod.ext hkey (Option.some.inj hhead)]

/-! ## finding a key in the flat list -/

/-- **A key that is none of the values stands right before its first value.** -/
theorem exists_index (h : NotValue k pairs) (hk : k ∈ pairs.map Prod.fst) :
    ∃ i, (flat pairs).idxOf? k = some (2 * i) ∧ 2 * i + 1 < (flat pairs).length ∧
      (flat pairs)[2 * i + 1]? = pairs.lookup k ∧
      ∀ v, (flat pairs).set (2 * i + 1) v = flat (assign k v pairs) := by
  induction pairs with
  | nil => exact absurd hk List.not_mem_nil
  | cons p ps ih =>
    obtain ⟨hvalue, hrest⟩ := notValue_cons.mp h
    by_cases hp : p.1 = k
    · refine ⟨0, ?_, ?_, ?_, ?_⟩
      · rw [flat_cons, List.idxOf?_cons, hp, beq_self_eq_true, if_pos rfl]
      · rw [flat_cons, List.length_cons, List.length_cons]
        omega
      · rw [lookup_cons_self hp]
        rfl
      · intro v
        rw [assign_cons_self hp, flat_cons, flat_cons, hp]
        rfl
    · rw [List.map_cons, List.mem_cons, or_iff_right (Ne.symm hp)] at hk
      obtain ⟨i, hi, hlt, hget, hset⟩ := ih hrest hk
      refine ⟨i + 1, ?_, ?_, ?_, ?_⟩
      · rw [flat_cons, List.idxOf?_cons, beq_false_of_ne hp, List.idxOf?_cons,
          beq_false_of_ne hvalue, hi]
        rfl
      · rw [flat_cons, List.length_cons, List.length_cons]
        omega
      · rw [lookup_cons_ne hp, ← hget]
        rfl
      · intro v
        rw [assign_cons_ne hp, flat_cons, flat_cons, ← hset v]
        rfl

/-! ## masks -/

/-- The same new value for each of the keys, where it is there. -/
def mask (value : α → α) (keys : List α) (pairs : List (α × α)) : List (α × α) :=
  keys.foldl (fun pairs k => assign k (value k) pairs) pairs

variable {value : α → α} {keys : List α}

theorem mask_cons (value : α → α) (k : α) (keys : List α) (pairs : List (α × α)) :
    mask value (k :: keys) pairs = mask value keys (assign k (value k) pairs) := rfl

theorem map_fst_mask (value : α → α) (keys : List α) (pairs : List (α × α)) :
    (mask value keys pairs).map Prod.fst = pairs.map Prod.fst := by
  induction keys generalizing pairs with
  | nil => rfl
  | cons k keys ih => rw [mask_cons, ih, map_fst_assign]

theorem lookup_mask_of_not_mem (h : k ∉ keys) :
    (mask value keys pairs).lookup k = pairs.lookup k := by
  induction keys generalizing pairs with
  | nil => rfl
  | cons k' keys ih =>
    rw [List.mem_cons, not_or] at h
    rw [mask_cons, ih h.2, lookup_assign_ne h.1]

theorem lookup_mask_of_mem (h : k ∈ keys) (hk : k ∈ pairs.map Prod.fst) :
    (mask value keys pairs).lookup k = some (value k) := by
  induction keys generalizing pairs with
  | nil => exact absurd h List.not_mem_nil
  | cons k' keys ih =>
    by_cases hmem : k ∈ keys
    · rw [mask_cons]
      exact ih hmem (by rwa [map_fst_assign])
    · cases h with
      | head => rw [mask_cons, lookup_mask_of_not_mem hmem, lookup_assign_self hk]
      | tail _ h => exact absurd h hmem

theorem filter_mask {P : α → Bool} (h : ∀ k ∈ keys, P k = false) :
    (mask value keys pairs).filter (fun p => P p.1) = pairs.filter fun p => P p.1 := by
  induction keys generalizing pairs with
  | nil => rfl
  | cons k keys ih =>
    obtain ⟨hk, hkeys⟩ := List.forall_mem_cons.mp h
    rw [mask_cons, ih hkeys, filter_assign hk]

/-- **Masked lists are equal exactly when the keys are the same, in the same order, and so are the
values that are not masked.** -/
theorem mask_eq_iff (hp : (ps.map Prod.fst).Nodup) :
    mask value keys ps = mask value keys qs ↔
      ps.map Prod.fst = qs.map Prod.fst ∧ ∀ k, k ∉ keys → ps.lookup k = qs.lookup k := by
  constructor
  · intro h
    refine ⟨?_, ?_⟩
    · rw [← map_fst_mask value keys ps, h, map_fst_mask]
    · intro k hk
      rw [← lookup_mask_of_not_mem hk, h, lookup_mask_of_not_mem hk]
  · rintro ⟨hkeys, hlookup⟩
    refine ext_lookup (by rwa [map_fst_mask]) (by rw [map_fst_mask, map_fst_mask, hkeys]) ?_
    intro k
    by_cases hk : k ∈ keys
    · by_cases hmem : k ∈ ps.map Prod.fst
      · rw [lookup_mask_of_mem hk hmem, lookup_mask_of_mem hk (hkeys ▸ hmem)]
      · have none_of (rs : List (α × α)) (hrs : rs.map Prod.fst = ps.map Prod.fst) :
            (mask value keys rs).lookup k = none := by
          rw [← Option.not_isSome_iff_eq_none, lookup_isSome, map_fst_mask, hrs]
          exact hmem
        rw [none_of ps rfl, none_of qs hkeys.symm]
    · rw [lookup_mask_of_not_mem hk, lookup_mask_of_not_mem hk, hlookup k hk]

/-! ## two lists with the same keys -/

section
variable {β γ κ : Type} {R : κ × β → κ × γ → Prop} {ps : List (κ × β)} {qs : List (κ × γ)}

theorem forall₂_of_keys (hkeys : ps.map Prod.fst = qs.map Prod.fst)
    (h : ∀ p ∈ ps, ∀ q ∈ qs, p.1 = q.1 → R p q) :
    List.Forall₂ (fun p q => p.1 = q.1 ∧ R p q) ps qs := by
  induction ps generalizing qs with
  | nil =>
    rw [List.map_eq_nil_iff.mp hkeys.symm]
    exact .nil
  | cons p ps ih =>
    cases qs with
    | nil => cases hkeys
    | cons q qs =>
      rw [List.map_cons, List.map_cons] at hkeys
      injection hkeys with hkey hkeys
      refine .cons ⟨hkey, h p List.mem_cons_self q List.mem_cons_self hkey⟩ (ih hkeys ?_)
      exact fun p hp q hq => h p (List.mem_cons_of_mem _ hp) q (List.mem_cons_of_mem _ hq)

theorem keys_of_forall₂ (h : List.Forall₂ (fun p q => p.1 = q.1 ∧ R p q) ps qs) :
    ps.map Prod.fst = qs.map Prod.fst := by
  induction h with
  | nil => rfl
  | cons hpq _ ih => rw [List.map_cons, List.map_cons, hpq.1, ih]

theorem exists_of_forall₂ (h : List.Forall₂ (fun p q => p.1 = q.1 ∧ R p q) ps qs) {q : κ × γ}
    (hq : q ∈ qs) : ∃ p ∈ ps, p.1 = q.1 ∧ R p q := by
  induction h with
  | nil => exact absurd hq List.not_mem_nil
  | @cons p q' ps qs hpq _ ih =>
    cases hq with
    | head => exact ⟨p, List.mem_cons_self, hpq⟩
    | tail _ hq =>
      obtain ⟨p, hp, hpq⟩ := ih hq
      exact ⟨p, List.mem_cons_of_mem _ hp, hpq⟩

end

end RT7.Pairs
