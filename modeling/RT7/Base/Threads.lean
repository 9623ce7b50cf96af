import Mathlib.Logic.Function.Basic
import Mathlib.Data.Fintype.Defs
import Mathlib.Data.List.Basic

/-!
# Programs that run at the same time

* `turn`, `interleave`   any number of programs take their steps over one shared state, in the order
  of a schedule; a program that takes no more steps has been killed;
* `Along Fits`      every step of a schedule is as `Fits` says, in view of each of the other programs;
* `Guarantee`       what is to be shown of a single step: it keeps the invariant of the shared state,
  it puts its program where it says, and it does not disturb the others that it fits;
* `interleave_rule` what then holds after every schedule.
-/

namespace RT7.Threads

variable {ι χ τ σ : Type} [DecidableEq ι]

/-- the shared state, and where every program stands -/
structure Global (ι τ σ : Type) where
  shared : σ
  programs : ι → τ

/-- The program `i` takes a step; a step that it cannot take does nothing. -/
def turn (step : χ → τ → σ → Option (τ × σ)) (i : ι) (choice : χ) (g : Global ι τ σ) :
    Global ι τ σ :=
  match step choice (g.programs i) g.shared with
  | some next => ⟨next.2, Function.update g.programs i next.1⟩
  | none => g

def interleave (step : χ → τ → σ → Option (τ × σ)) (schedule : List (ι × χ)) (g : Global ι τ σ) :
    Global ι τ σ :=
  schedule.foldl (fun g move => turn step move.1 move.2 g) g

/-- The choices of a schedule fit the programs that do not take the step. -/
def Along (Fits : χ → τ → Prop) (step : χ → τ → σ → Option (τ × σ)) :
    List (ι × χ) → Global ι τ σ → Prop
  | [], _ => True
  | move :: schedule, g => (∀ j, j ≠ move.1 → Fits move.2 (g.programs j)) ∧
      Along Fits step schedule (turn step move.1 move.2 g)

instance decidableAlong [Fintype ι] (Fits : χ → τ → Prop) [∀ c q, Decidable (Fits c q)]
    (step : χ → τ → σ → Option (τ × σ)) :
    (schedule : List (ι × χ)) → (g : Global ι τ σ) → Decidable (Along Fits step schedule g)
  | [], _ => .isTrue trivial
  | move :: schedule, g =>
    have := decidableAlong Fits step schedule (turn step move.1 move.2 g)
    inferInstanceAs (Decidable (_ ∧ _))

/-- What one step of a program does: `Inv` is about the shared state, `At` about one program, `Apart`
about two of them. -/
structure Guarantee (Fits : χ → τ → Prop) (step : χ → τ → σ → Option (τ × σ)) (Inv : σ → Prop)
    (At : τ → σ → Prop) (Apart : τ → τ → Prop) : Prop where
  own : ∀ c p s p' s', Inv s → At p s → step c p s = some (p', s') → Inv s' ∧ At p' s'
  others : ∀ c p s p' s' q, Inv s → At p s → At q s → Apart p q → Apart q p → Fits c q →
    step c p s = some (p', s') → At q s' ∧ Apart p' q ∧ Apart q p'

/-- what holds of all programs at once -/
structure Together (Inv : σ → Prop) (At : τ → σ → Prop) (Apart : τ → τ → Prop) (g : Global ι τ σ) :
    Prop where
  inv : Inv g.shared
  stands : ∀ i, At (g.programs i) g.shared
  apart : ∀ i j, i ≠ j → Apart (g.programs i) (g.programs j)

variable {step : χ → τ → σ → Option (τ × σ)} {Inv : σ → Prop} {At : τ → σ → Prop}
  {Apart : τ → τ → Prop} {Fits : χ → τ → Prop} {g : Global ι τ σ}

theorem Together.turn (hg : Guarantee Fits step Inv At Apart) (h : Together Inv At Apart g) (i : ι)
    (c : χ) (hfits : ∀ j, j ≠ i → Fits c (g.programs j)) :
    Together Inv At Apart (turn step i c g) := by
  rw [Threads.turn]
  cases hstep : step c (g.programs i) g.shared with
  | none => exact h
  | some next =>
    obtain ⟨p', s'⟩ := next
    obtain ⟨hinv, hat⟩ := hg.own c _ _ p' s' h.inv (h.stands i) hstep
    have hothers : ∀ j, j ≠ i → At (g.programs j) s' ∧ Apart p' (g.programs j) ∧
        Apart (g.programs j) p' := fun j hj =>
      hg.others c _ _ p' s' _ h.inv (h.stands i) (h.stands j) (h.apart i j hj.symm) (h.apart j i hj)
        (hfits j hj) hstep
    refine ⟨hinv, fun j => ?_, fun j k hjk => ?_⟩
    · show At (Function.update g.programs i p' j) s'
      by_cases hj : j = i
      · rw [hj, Function.update_self]
        exact hat
      · rw [Function.update_of_ne hj]
        exact (hothers j hj).1
    · show Apart (Function.update g.programs i p' j) (Function.update g.programs i p' k)
      by_cases hj : j = i
      · have hk : k ≠ i := fun hk => hjk (hj.trans hk.symm)
        rw [hj, Function.update_self, Function.update_of_ne hk]
        exact (hothers k hk).2.1
      · rw [Function.update_of_ne hj]
        by_cases hk : k = i
        · rw [hk, Function.update_self]
          exact (hothers j hj).2.2
        · rw [Function.update_of_ne hk]
          exact h.apart j k hjk

/-- **What single steps guarantee holds after every schedule whose steps fit.** -/
theorem interleave_rule (hg : Guarantee Fits step Inv At Apart) (h : Together Inv At Apart g)
    {schedule : List (ι × χ)} (hfits : Along Fits step schedule g) :
    Together Inv At Apart (interleave step schedule g) := by
  induction schedule generalizing g with
  | nil => exact h
  | cons move schedule ih => exact ih (h.turn hg move.1 move.2 hfits.1) hfits.2

theorem along_append {schedule later : List (ι × χ)} : Along Fits step (schedule ++ later) g ↔
    Along Fits step schedule g ∧ Along Fits step later (interleave step schedule g) := by
  induction schedule generalizing g with
  | nil => exact (and_iff_right trivial).symm
  | cons move schedule ih => exact (and_congr_right fun _ => ih).trans and_assoc.symm

theorem interleave_append (schedule later : List (ι × χ)) :
    interleave step (schedule ++ later) g = interleave step later (interleave step schedule g) :=
  List.foldl_append

end RT7.Threads
