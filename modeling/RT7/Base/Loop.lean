import Mathlib.Data.List.Basic

/-!
# Loops

* `Turn`            what one turn of a loop comes to: another turn, or the end;
* `turns step n s`  the first `n` turns from `s`;
* `LoopReturns`     the loop ends with a result, `loopReturns_unique`;
* `loopReturns_rule`   an invariant, and a variant that every turn makes smaller: the loop ends, and
  what each turn hands back to the one before it reaches the start.
-/

namespace RT7

inductive Turn (σ ρ : Type) where
  | again (s : σ)
  | returned (r : ρ)

section
variable {σ ρ : Type} {step : σ → Turn σ ρ} {s t : σ} {r r' : ρ} {n m : Nat}

def turns (step : σ → Turn σ ρ) : Nat → σ → Option ρ
  | 0, _ => none
  | n + 1, s =>
    match step s with
    | .again t => turns step n t
    | .returned r => some r

/-- The loop ends with the result `r`. -/
def LoopReturns (step : σ → Turn σ ρ) (s : σ) (r : ρ) : Prop := ∃ n, turns step n s = some r

theorem turns_again (h : step s = .again t) : turns step (n + 1) s = turns step n t := by
  rw [turns, h]

theorem turns_returned (h : step s = .returned r) : turns step (n + 1) s = some r := by
  rw [turns, h]

theorem LoopReturns.again (h : step s = .again t) (hr : LoopReturns step t r) : LoopReturns step s r := by
  obtain ⟨n, hn⟩ := hr
  exact ⟨n + 1, (turns_again h).trans hn⟩

theorem LoopReturns.returned (h : step s = .returned r) : LoopReturns step s r := ⟨1, turns_returned h⟩

/-- more turns do not change a result -/
theorem turns_mono (h : turns step n s = some r) (hle : n ≤ m) : turns step m s = some r := by
  induction n generalizing s m with
  | zero => cases h
  | succ n ih =>
    obtain ⟨k, rfl⟩ : ∃ k, m = k + 1 := ⟨m - 1, by omega⟩
    cases hs : step s with
    | again t =>
      rw [turns_again hs] at h ⊢
      exact ih h (by omega)
    | returned r' =>
      rw [turns_returned hs] at h ⊢
      exact h

theorem loopReturns_unique (h : LoopReturns step s r) (h' : LoopReturns step s r') : r = r' := by
  obtain ⟨n, hn⟩ := h
  obtain ⟨m, hm⟩ := h'
  have h1 := turns_mono hn (Nat.le_max_left n m)
  have h2 := turns_mono hm (Nat.le_max_right n m)
  exact Option.some.inj (h1.symm.trans h2)

/-- **The rule for loops.** -/
theorem loopReturns_rule (inv : σ → Prop) (variant : σ → Nat) (post : σ → ρ → Prop)
    (hreturned : ∀ s r, inv s → step s = .returned r → post s r)
    (hagain : ∀ s t, inv s → step s = .again t →
      inv t ∧ variant t < variant s ∧ ∀ r, post t r → post s r)
    (hs : inv s) : ∃ r, LoopReturns step s r ∧ post s r := by
  generalize hv : variant s = v
  induction v using Nat.strongRecOn generalizing s with
  | _ v ih =>
    cases hstep : step s with
    | returned r => exact ⟨r, .returned hstep, hreturned s r hs hstep⟩
    | again t =>
      obtain ⟨ht, hlt, hpost⟩ := hagain s t hs hstep
      obtain ⟨r, hr, hp⟩ := ih (variant t) (hv ▸ hlt) ht rfl
      exact ⟨r, hr.again hstep, hpost r hp⟩

end

end RT7
