import Mathlib.Data.List.Basic

/-!
# Machines that leave a trace

* `Always P trace`  every event of the trace is fine in view of the events before it;
* `Extends P trace events`   the same for the events that follow a trace, one after the other;
* `run step`        a machine that reads inputs and leaves events;
* `run_rule`        an invariant of the trace and the state that every step keeps holds at the end of
  every run, and with it the events are fine.
-/

namespace RT7.Trace

variable {σ ω ε : Type}

/-- Every event is fine in view of the events before it. -/
def Always (P : List ε → ε → Prop) (trace : List ε) : Prop :=
  ∀ pre e post, trace = pre ++ e :: post → P pre e

/-- The events that follow a trace are fine. -/
def Extends (P : List ε → ε → Prop) : List ε → List ε → Prop
  | _, [] => True
  | trace, e :: events => P trace e ∧ Extends P (trace ++ [e]) events

section
variable {P Q : List ε → ε → Prop} {trace events : List ε} {e : ε}

theorem always_nil : Always P [] := by
  intro pre e post h
  exact absurd h.symm (List.append_ne_nil_of_right_ne_nil pre (List.cons_ne_nil e post))

theorem Always.concat (h : Always P trace) (he : P trace e) : Always P (trace ++ [e]) := by
  intro pre e' post heq
  cases List.eq_nil_or_concat post with
  | inl hnil =>
    subst hnil
    obtain ⟨rfl, e2⟩ := List.append_inj' heq rfl
    cases e2
    exact he
  | inr hcons =>
    obtain ⟨front, last, rfl⟩ := hcons
    rw [List.concat_eq_append, ← List.cons_append, ← List.append_assoc] at heq
    exact h pre e' front (List.append_inj_left' heq rfl)

theorem Always.extend (h : Always P trace) (he : Extends P trace events) :
    Always P (trace ++ events) := by
  induction events generalizing trace with
  | nil => rwa [List.append_nil]
  | cons e events ih =>
    have h' := ih (h.concat he.1) he.2
    rwa [List.append_assoc] at h'

theorem extends_of_forall (h : ∀ pre, ∀ e ∈ events, P pre e) : Extends P trace events := by
  induction events generalizing trace with
  | nil => trivial
  | cons e events ih =>
    refine ⟨h trace e List.mem_cons_self, ih ?_⟩
    exact fun pre e' he' => h pre e' (List.mem_cons_of_mem e he')

theorem Always.prefix (h : Always P (trace ++ events)) : Always P trace := by
  intro pre e post heq
  refine h pre e (post ++ events) ?_
  rw [heq, List.append_assoc]
  rfl

end

/-! ## runs -/

/-- The events of a run over a list of inputs, and the state it ends in. -/
def run (step : ω → σ → List ε × σ) : List ω → σ → List ε × σ
  | [], s => ([], s)
  | w :: inputs, s =>
    let next := step w s
    let rest := run step inputs next.2
    (next.1 ++ rest.1, rest.2)

variable {step : ω → σ → List ε × σ} {P : List ε → ε → Prop} {Inv : List ε → σ → Prop}

/-- **An invariant that every step keeps, and that every event follows from, holds of every run.** -/
theorem run_rule
    (hstep : ∀ w s trace, Inv trace s →
      Extends P trace (step w s).1 ∧ Inv (trace ++ (step w s).1) (step w s).2)
    {s : σ} {trace : List ε} (hinv : Inv trace s) (hP : Always P trace) (inputs : List ω) :
    Always P (trace ++ (run step inputs s).1) ∧
      Inv (trace ++ (run step inputs s).1) (run step inputs s).2 := by
  induction inputs generalizing s trace with
  | nil =>
    rw [run, List.append_nil]
    exact ⟨hP, hinv⟩
  | cons w inputs ih =>
    obtain ⟨hext, hinv'⟩ := hstep w s trace hinv
    have h := ih hinv' (hP.extend hext)
    rw [List.append_assoc] at h
    exact h

end RT7.Trace
