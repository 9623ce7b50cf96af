import Mathlib.Data.List.Nodup
import Mathlib.Data.List.Basic
import Mathlib.Tactic.Common

/-!
# Python values used by every model: exceptions, guards, dictionaries

* `Exn`             the exceptions the modelled scripts raise, with the text they carry;
* `raiseIf p e`     `if p: raise e`, so that a function body is a list of guards;
* `bind_eq_ok`, `raiseIf_bind_eq_ok`   what a successful run of such a body says, guard by guard;
* `require x e`     the value of `x`, or `raise e`;
* `setItem l i v`   `l[i] = v` for a list `l`;
* `RaisesOnly P x`   every exception that leaves `x` satisfies `P`, with a rule for each way of
  putting bodies together;
* `Dict κ ν`        an insertion-ordered dictionary; the keys are distinct by construction;
* `Dict.eqv`        `==` of two dictionaries, which does not see the order of insertion;
* `sorted`          `sorted` on strings (code-point order).
-/

namespace RT7.Py

/-- The exceptions that can leave a modelled function. -/
inductive Exn where
  | valueError (message : String)
  | structError (message : String)
  | unicodeEncodeError
  | keyError (key : String)
  | indexError
  | assertionError
  | runtimeError (message : String)
  | systemExit (message : String)
  | osError (path : String)
  | unicodeDecodeError
  | calledProcessError
  deriving DecidableEq, Repr

/-- caught by `except ValueError` -/
def Exn.IsValueError (e : Exn) : Prop := ∃ message, e = .valueError message

def Exn.IsSystemExit (e : Exn) : Prop := ∃ message, e = .systemExit message

/-- `if p: raise e` -/
def raiseIf {ε : Type} (p : Prop) [Decidable p] (e : ε) : Except ε Unit :=
  if p then .error e else .ok ()

section
variable {ε α β : Type}

theorem ok_bind (a : α) (f : α → Except ε β) : ((.ok a : Except ε α) >>= f) = f a := rfl

theorem bind_eq_ok {x : Except ε α} {f : α → Except ε β} {b : β} :
    (x >>= f) = .ok b ↔ ∃ a, x = .ok a ∧ f a = .ok b := by
  cases x with
  | error e => simp [bind, Except.bind]
  | ok a => simp [bind, Except.bind]

theorem bind_eq_error {x : Except ε α} {f : α → Except ε β} {e : ε} :
    (x >>= f) = .error e ↔ x = .error e ∨ ∃ a, x = .ok a ∧ f a = .error e := by
  cases x with
  | error e' => simp [bind, Except.bind]
  | ok a => simp [bind, Except.bind]

theorem pure_eq_ok {a b : α} : (pure a : Except ε α) = .ok b ↔ a = b := by
  simp [pure, Except.pure]

end

section
variable {ε α : Type} {p : Prop} [Decidable p] {e : ε}

theorem raiseIf_neg (h : ¬ p) : raiseIf p e = .ok () := if_neg h

theorem raiseIf_eq_ok {u : Unit} : raiseIf p e = .ok u ↔ ¬ p := by
  by_cases h : p
  · simp [raiseIf, h]
  · simp [raiseIf, h]

theorem raiseIf_bind_eq_ok {f : Unit → Except ε α} {a : α} :
    (raiseIf p e >>= f) = .ok a ↔ ¬ p ∧ f () = .ok a := by
  rw [bind_eq_ok]
  constructor
  · rintro ⟨u, hu, hf⟩
    exact ⟨raiseIf_eq_ok.mp hu, hf⟩
  · rintro ⟨hp, hf⟩
    exact ⟨(), raiseIf_neg hp, hf⟩

theorem bind_congr_ok {x : Except ε α} {f g : α → Except ε β} (h : ∀ a, x = .ok a → f a = g a) :
    (x >>= f) = (x >>= g) := by
  cases x with
  | error e => rfl
  | ok a => exact h a rfl

theorem raiseIf_congr {f g : Unit → Except ε α} (h : ¬ p → f () = g ()) :
    (raiseIf p e >>= f) = (raiseIf p e >>= g) :=
  bind_congr_ok fun _ hp => h (raiseIf_eq_ok.mp hp)

theorem foldlM_congr {β ι : Type} {f g : β → ι → Except ε β} {l : List ι}
    (h : ∀ i ∈ l, ∀ b, f b i = g b i) (b : β) : l.foldlM f b = l.foldlM g b := by
  induction l generalizing b with
  | nil => rfl
  | cons i l ih =>
    rw [List.foldlM_cons, List.foldlM_cons, h i List.mem_cons_self b]
    have hl : ∀ j ∈ l, ∀ b, f b j = g b j := fun j hj => h j (List.mem_cons_of_mem i hj)
    apply bind_congr_ok
    intro b' _
    exact ih hl b'

end

/-- a value that must be there -/
def require {ε α : Type} (found : Option α) (e : ε) : Except ε α :=
  match found with
  | none => .error e
  | some a => .ok a

theorem require_eq_ok {ε α : Type} {found : Option α} {e : ε} {a : α} :
    require found e = .ok a ↔ found = some a := by
  cases found with
  | none => simp [require]
  | some b => simp [require]

/-- `items[i] = value` -/
def setItem {α : Type} (items : List α) (i : Nat) (value : α) : Except Exn (List α) :=
  if i < items.length then .ok (items.set i value) else .error .indexError

theorem setItem_of_lt {α : Type} {items : List α} {i : Nat} (h : i < items.length) (value : α) :
    setItem items i value = .ok (items.set i value) := if_pos h

/-- a loop that only checks -/
theorem forM_eq_ok {ε α : Type} {f : α → Except ε Unit} {l : List α} :
    l.forM f = .ok () ↔ ∀ a ∈ l, f a = .ok () := by
  induction l with
  | nil => exact ⟨fun _ => List.forall_mem_nil _, fun _ => rfl⟩
  | cons a l ih =>
    show (f a >>= fun _ => l.forM f) = .ok () ↔ _
    rw [bind_eq_ok, List.forall_mem_cons, ← ih]
    constructor
    · rintro ⟨u, ha, hl⟩
      exact ⟨ha, hl⟩
    · rintro ⟨ha, hl⟩
      exact ⟨(), ha, hl⟩

/-! ## the exceptions that can leave a body -/

def RaisesOnly {α : Type} (P : Exn → Prop) (x : Except Exn α) : Prop := ∀ e, x = .error e → P e

namespace RaisesOnly
variable {α β : Type} {P : Exn → Prop}

theorem ok (a : α) : RaisesOnly P (.ok a) := by
  intro e h
  cases h

theorem error {e : Exn} (h : P e) : RaisesOnly P (.error e : Except Exn α) := by
  intro e' h'
  cases h'
  exact h

theorem raiseIf {p : Prop} [Decidable p] {e : Exn} (h : p → P e) :
    RaisesOnly P (Py.raiseIf p e) := by
  by_cases hp : p
  · rw [Py.raiseIf, if_pos hp]
    exact error (h hp)
  · rw [raiseIf_neg hp]
    exact ok ()

theorem bind {x : Except Exn α} {f : α → Except Exn β} (hx : RaisesOnly P x)
    (hf : ∀ a, x = .ok a → RaisesOnly P (f a)) : RaisesOnly P (x >>= f) := by
  intro e h
  cases bind_eq_error.mp h with
  | inl h => exact hx e h
  | inr h =>
    obtain ⟨a, ha, h⟩ := h
    exact hf a ha e h

/-- a guard, then the rest of the body where the guard did not raise -/
theorem guard {p : Prop} [Decidable p] {e : Exn} {f : Unit → Except Exn β} (h : p → P e)
    (hf : ¬ p → RaisesOnly P (f ())) : RaisesOnly P (Py.raiseIf p e >>= f) := by
  refine bind (raiseIf h) ?_
  intro u hu
  exact hf (raiseIf_eq_ok.mp hu)

theorem foldlM {f : β → α → Except Exn β} {l : List α} (h : ∀ a ∈ l, ∀ b, RaisesOnly P (f b a))
    (b : β) : RaisesOnly P (l.foldlM f b) := by
  induction l generalizing b with
  | nil => exact ok b
  | cons a l ih =>
    rw [List.foldlM_cons]
    refine bind (h a List.mem_cons_self b) ?_
    intro b' _
    exact ih (fun a' ha' => h a' (List.mem_cons_of_mem a ha')) b'

/-- a body that no exception can leave returns -/
theorem exists_ok {x : Except Exn α} (h : RaisesOnly (fun _ => False) x) : ∃ a, x = .ok a := by
  cases x with
  | error e => exact (h e rfl).elim
  | ok a => exact ⟨a, rfl⟩

end RaisesOnly

/-! ## dictionaries -/

/-- An insertion-ordered dictionary. -/
structure Dict (κ ν : Type) where
  items : List (κ × ν)
  nodup : (items.map Prod.fst).Nodup

namespace Dict
variable {κ ν : Type}

@[ext] theorem ext {d d' : Dict κ ν} (h : d.items = d'.items) : d = d' := by
  cases d; cases d'; cases h; rfl

instance [DecidableEq κ] [DecidableEq ν] : DecidableEq (Dict κ ν) := fun d d' =>
  decidable_of_iff (d.items = d'.items) ⟨ext, fun h => congrArg items h⟩

def empty : Dict κ ν := ⟨[], List.nodup_nil⟩

def keys (d : Dict κ ν) : List κ := d.items.map Prod.fst

theorem mem_keys {d : Dict κ ν} {k : κ} : k ∈ d.keys ↔ ∃ v, (k, v) ∈ d.items := by
  simp [keys]

variable [DecidableEq κ]

/-- `d.get(k)` -/
def get? (d : Dict κ ν) (k : κ) : Option ν := d.items.lookup k

theorem lookup_eq_some {l : List (κ × ν)} (hl : (l.map Prod.fst).Nodup) {k : κ} {v : ν} :
    l.lookup k = some v ↔ (k, v) ∈ l := by
  induction l with
  | nil => simp
  | cons p l ih =>
    obtain ⟨k', v'⟩ := p
    have hnd := List.nodup_cons.mp hl
    by_cases hk : k = k'
    · subst hk
      have hnot : (k, v) ∉ l := fun h => hnd.1 (List.mem_map.mpr ⟨(k, v), h, rfl⟩)
      simp [hnot, eq_comm]
    · have hb : (k == k') = false := by simpa using hk
      simp [List.lookup_cons, hb, hk, ih hnd.2]

theorem get?_eq_some {d : Dict κ ν} {k : κ} {v : ν} : d.get? k = some v ↔ (k, v) ∈ d.items :=
  lookup_eq_some d.nodup

theorem get?_eq_none {d : Dict κ ν} {k : κ} : d.get? k = none ↔ k ∉ d.keys := by
  rw [Option.eq_none_iff_forall_ne_some, mem_keys, not_exists]
  exact forall_congr' fun v => not_congr get?_eq_some

theorem get?_isSome {d : Dict κ ν} {k : κ} : (d.get? k).isSome ↔ k ∈ d.keys := by
  rw [← not_iff_not, ← get?_eq_none, Bool.not_eq_true, Option.isSome_eq_false_iff,
    Option.isNone_iff_eq_none]

/-- `d[k] = v`: an existing key keeps its place. -/
def set (d : Dict κ ν) (k : κ) (v : ν) : Dict κ ν :=
  if h : k ∈ d.keys then
    ⟨d.items.map fun p => if p.1 = k then (k, v) else p, by
      have e : (d.items.map fun p => if p.1 = k then (k, v) else p).map Prod.fst
          = d.items.map Prod.fst := by
        rw [List.map_map]
        refine List.map_congr_left fun p _ => ?_
        by_cases hp : p.1 = k
        · simp [hp]
        · simp [hp]
      rw [e]
      exact d.nodup⟩
  else
    ⟨d.items ++ [(k, v)], by
      rw [List.map_append]
      refine List.Nodup.append d.nodup (List.nodup_singleton k) ?_
      intro a ha hb
      rw [List.map_cons, List.map_nil, List.mem_singleton] at hb
      subst hb
      exact h ha⟩

theorem items_set_of_not_mem {d : Dict κ ν} {k : κ} (h : k ∉ d.keys) (v : ν) :
    (d.set k v).items = d.items ++ [(k, v)] := by
  simp only [set, h, dite_false]

theorem items_set_of_mem {d : Dict κ ν} {k : κ} (h : k ∈ d.keys) (v : ν) :
    (d.set k v).items = d.items.map fun p => if p.1 = k then (k, v) else p := by
  simp only [set, h, dite_true]

theorem mem_keys_set {d : Dict κ ν} {k k' : κ} {v : ν} (h : k' ∈ (d.set k v).keys) :
    k' = k ∨ k' ∈ d.keys := by
  by_cases hk : k ∈ d.keys
  · rw [keys, items_set_of_mem hk, List.map_map] at h
    obtain ⟨p, hp, rfl⟩ := List.mem_map.mp h
    by_cases hpk : p.1 = k
    · left
      simp [hpk]
    · right
      simp only [Function.comp_apply, if_neg hpk]
      exact List.mem_map_of_mem hp
  · rw [keys, items_set_of_not_mem hk, List.map_append, List.mem_append] at h
    exact h.symm.imp (fun h => List.mem_singleton.mp h) id

/-- A dictionary filled in a loop. -/
def setAll (d : Dict κ ν) (l : List (κ × ν)) : Dict κ ν := l.foldl (fun d p => d.set p.1 p.2) d

theorem length_set_le (d : Dict κ ν) (k : κ) (v : ν) :
    (d.set k v).items.length ≤ d.items.length + 1 := by
  by_cases h : k ∈ d.keys
  · rw [items_set_of_mem h, List.length_map]
    exact Nat.le_succ _
  · rw [items_set_of_not_mem h, List.length_append]
    exact Nat.le_refl _

theorem length_setAll_le (d : Dict κ ν) (l : List (κ × ν)) :
    (d.setAll l).items.length ≤ d.items.length + l.length := by
  induction l generalizing d with
  | nil => exact Nat.le_refl _
  | cons p l ih =>
    have hset := d.length_set_le p.1 p.2
    have hrest := ih (d.set p.1 p.2)
    rw [List.length_cons]
    exact Nat.le_trans hrest (by omega)

/-- new keys are added in order -/
theorem items_setAll {d : Dict κ ν} {l : List (κ × ν)} (h : ((d.items ++ l).map Prod.fst).Nodup) :
    (d.setAll l).items = d.items ++ l := by
  induction l generalizing d with
  | nil => exact (List.append_nil _).symm
  | cons p l ih =>
    have hp : p.1 ∉ d.keys := by
      intro hm
      rw [List.map_append, List.nodup_append] at h
      exact h.2.2 p.1 hm p.1 List.mem_cons_self rfl
    have hset : (d.set p.1 p.2).items = d.items ++ [p] := items_set_of_not_mem hp p.2
    have hnd : (((d.set p.1 p.2).items ++ l).map Prod.fst).Nodup := by
      rwa [hset, List.append_assoc]
    show ((d.set p.1 p.2).setAll l).items = _
    rw [ih hnd, hset, List.append_assoc]
    rfl

theorem mem_items_set {d : Dict κ ν} {k : κ} {v : ν} {p : κ × ν} :
    p ∈ (d.set k v).items ↔ p = (k, v) ∨ p.1 ≠ k ∧ p ∈ d.items := by
  by_cases h : k ∈ d.keys
  · rw [items_set_of_mem h, List.mem_map]
    constructor
    · rintro ⟨q, hq, rfl⟩
      by_cases hk : q.1 = k
      · exact Or.inl (if_pos hk)
      · rw [if_neg hk]
        exact Or.inr ⟨hk, hq⟩
    · rintro (rfl | ⟨hne, hp⟩)
      · obtain ⟨w, hw⟩ := mem_keys.mp h
        exact ⟨(k, w), hw, if_pos rfl⟩
      · exact ⟨p, hp, if_neg hne⟩
  · rw [items_set_of_not_mem h, List.mem_append, List.mem_singleton]
    constructor
    · rintro (hp | rfl)
      · refine Or.inr ⟨fun hk => h ?_, hp⟩
        rw [← hk]
        exact List.mem_map_of_mem hp
      · exact Or.inl rfl
    · rintro (rfl | ⟨-, hp⟩)
      · exact Or.inr rfl
      · exact Or.inl hp

/-- a key that is filled with one value only -/
theorem mem_items_setAll {d : Dict κ ν} {l : List (κ × ν)} {k : κ} {v : ν}
    (hmem : (k, v) ∈ d.items ∨ (k, v) ∈ l) (h : ∀ p ∈ l, p.1 = k → p.2 = v) :
    (k, v) ∈ (d.setAll l).items := by
  induction l generalizing d with
  | nil => exact hmem.resolve_right List.not_mem_nil
  | cons p l ih =>
    refine ih ?_ fun q hq => h q (List.mem_cons_of_mem p hq)
    by_cases hk : p.1 = k
    · have hp : (k, v) = (p.1, p.2) := by rw [hk, h p List.mem_cons_self hk]
      exact Or.inl (mem_items_set.mpr (Or.inl hp))
    · rcases hmem with hd | hl
      · exact Or.inl (mem_items_set.mpr (Or.inr ⟨fun heq => hk heq.symm, hd⟩))
      · rcases List.mem_cons.mp hl with rfl | hl
        · exact absurd rfl hk
        · exact Or.inr hl

/-- `d == d'`: the same keys with the same values, in any order. -/
def eqv (d d' : Dict κ ν) : Prop :=
  d.items.length = d'.items.length ∧ ∀ p ∈ d.items, d'.get? p.1 = some p.2

instance [DecidableEq ν] (d d' : Dict κ ν) : Decidable (d.eqv d') :=
  inferInstanceAs (Decidable (_ ∧ _))

theorem eqv_refl (d : Dict κ ν) : d.eqv d :=
  ⟨rfl, fun _ hp => get?_eq_some.mpr hp⟩

end Dict

/-- `sorted` on strings -/
def sorted (names : List String) : List String := names.mergeSort fun a b => decide (a ≤ b)

theorem sorted_perm (names : List String) : (sorted names).Perm names :=
  List.mergeSort_perm names _

end RT7.Py
