import Mathlib.Data.List.Basic

/-!
# Programs of commands that may fail

A shell script under `set -e`: it runs one command after the other, ends at the first that fails,
and is started again later, over what the last run has left.

* `Ending`, `Shell`   a run gets the set of its commands that fail, by their numbers;
* `command`, `act`, `ifThen`, `ifElse`, `ifFails`, `exit`, `inSequence`   the forms of a script;
* `Yields`, `Stops`    the states in which a program ends, over every choice of failing commands,
  with one inversion lemma for each form;
* `Steady`             what a program reaches with failures around, it reaches without any;
* `Phase`, `Lasting`   the parts of a script that can be run again, and that keep to their order;
* `Passes.again`, `Passes.over_of_grows`   when phases that are run again change nothing;
* `Resumes`            what earlier runs have left, with the restart rules `Resumes.stop` and
  `Resumes.complete`; `Resumes.passes`: a run that ends well ends where one run from the start ends.
-/

namespace RT7

/-- How a run ends: with a value and the number of its next command, or at a failure. -/
inductive Ending (σ ε α : Type) where
  | done (value : α) (next : Nat) (state : σ)
  | stopped (failure : ε) (state : σ)
  deriving DecidableEq, Repr

def Ending.state {σ ε α : Type} : Ending σ ε α → σ
  | .done _ _ s => s
  | .stopped _ s => s

def Ending.failure {σ ε α : Type} : Ending σ ε α → Option ε
  | .done _ _ _ => none
  | .stopped e _ => some e

theorem Ending.exists_done {σ ε α : Type} {x : Ending σ ε α} (h : x.failure = none) :
    ∃ a n, x = .done a n x.state := by
  cases x with
  | done a n s => exact ⟨a, n, rfl⟩
  | stopped e s => cases h

/-- A program over states `σ` with failures `ε`; `fails n` makes the `n`-th command fail. -/
def Shell (σ ε α : Type) : Type := (Nat → Bool) → Nat → σ → Ending σ ε α

namespace Shell

variable {σ ε α β : Type}

protected def pure (a : α) : Shell σ ε α := fun _ n s => .done a n s

protected def bind (p : Shell σ ε α) (f : α → Shell σ ε β) : Shell σ ε β := fun fails n s =>
  match p fails n s with
  | .done a k t => f a fails k t
  | .stopped e t => .stopped e t

instance : Monad (Shell σ ε) where
  pure := Shell.pure
  bind := Shell.bind

/-- A command with an output; where it fails it has no effect. -/
def command (e : ε) (effect : σ → Option (α × σ)) : Shell σ ε α := fun fails n s =>
  if fails n then .stopped e s
  else
    match effect s with
    | none => .stopped e s
    | some (a, t) => .done a (n + 1) t

/-- A command without an output. -/
def act (e : ε) (effect : σ → Option σ) : Shell σ ε Unit :=
  command e fun s => (effect s).map fun t => ((), t)

/-- `if test; then p; fi` -/
def ifThen (test : σ → Bool) (p : Shell σ ε Unit) : Shell σ ε Unit := fun fails n s =>
  if test s then p fails n s else .done () n s

/-- `if test; then p; else q; fi` -/
def ifElse (test : σ → Bool) (p q : Shell σ ε Unit) : Shell σ ε Unit := fun fails n s =>
  if test s then p fails n s else q fails n s

/-- `if ! command; then p; fi` -/
def ifFails (effect : σ → Option σ) (p : Shell σ ε Unit) : Shell σ ε Unit := fun fails n s =>
  if fails n then p fails (n + 1) s
  else
    match effect s with
    | none => p fails (n + 1) s
    | some t => .done () (n + 1) t

/-- `exit 1` -/
def exit (e : ε) : Shell σ ε α := fun _ _ s => .stopped e s

def inSequence : List (Shell σ ε Unit) → Shell σ ε Unit
  | [] => pure ()
  | p :: ps => do
    p
    inSequence ps

/-- a run in which no command is made to fail -/
def undisturbed (p : Shell σ ε α) (s : σ) : Ending σ ε α := p (fun _ => false) 0 s

/-! ## the ends of a program -/

/-- `p` can end with the value `a`. -/
def Yields (p : Shell σ ε α) (s : σ) (a : α) (t : σ) : Prop :=
  ∃ fails n k, p fails n s = .done a k t

/-- `p` can end at the failure `e`. -/
def Stops (p : Shell σ ε α) (s : σ) (e : ε) (t : σ) : Prop :=
  ∃ fails n, p fails n s = .stopped e t

section ends
variable {p : Shell σ ε α} {f : α → Shell σ ε β} {q q' : Shell σ ε Unit} {s t : σ} {a : α} {b : β}
  {e e' : ε} {test : σ → Bool} {effect : σ → Option σ}

theorem bind_eq_done {fails : Nat → Bool} {n k : Nat} :
    (p >>= f) fails n s = .done b k t ↔
      ∃ a m r, p fails n s = .done a m r ∧ f a fails m r = .done b k t := by
  show Shell.bind p f fails n s = _ ↔ _
  rw [Shell.bind]
  cases p fails n s with
  | done a m r =>
    constructor
    · intro h
      exact ⟨a, m, r, rfl, h⟩
    · rintro ⟨a, m, r, h, hf⟩
      cases h
      exact hf
  | stopped e r =>
    constructor
    · intro h
      cases h
    · rintro ⟨a, m, r, h, hf⟩
      cases h

theorem bind_eq_stopped {fails : Nat → Bool} {n : Nat} (h : (p >>= f) fails n s = .stopped e t) :
    p fails n s = .stopped e t ∨
      ∃ a m r, p fails n s = .done a m r ∧ f a fails m r = .stopped e t := by
  change Shell.bind p f fails n s = _ at h
  rw [Shell.bind] at h
  cases hp : p fails n s with
  | done a m r =>
    rw [hp] at h
    exact Or.inr ⟨a, m, r, rfl, h⟩
  | stopped e' r =>
    rw [hp] at h
    cases h
    exact Or.inl rfl

theorem Yields.of_bind (h : Yields (p >>= f) s b t) :
    ∃ a r, Yields p s a r ∧ Yields (f a) r b t := by
  obtain ⟨fails, n, k, h⟩ := h
  obtain ⟨a, m, r, hp, hf⟩ := bind_eq_done.mp h
  exact ⟨a, r, ⟨fails, n, m, hp⟩, fails, m, k, hf⟩

theorem Stops.of_bind (h : Stops (p >>= f) s e t) :
    Stops p s e t ∨ ∃ a r, Yields p s a r ∧ Stops (f a) r e t := by
  obtain ⟨fails, n, h⟩ := h
  cases bind_eq_stopped h with
  | inl h => exact Or.inl ⟨fails, n, h⟩
  | inr h =>
    obtain ⟨a, m, r, hp, hf⟩ := h
    exact Or.inr ⟨a, r, ⟨fails, n, m, hp⟩, fails, m, hf⟩

theorem Yields.of_then {f : Unit → Shell σ ε β} (h : Yields (q >>= f) s b t) :
    ∃ r, Yields q s () r ∧ Yields (f ()) r b t := by
  obtain ⟨_, r, hq, hf⟩ := h.of_bind
  exact ⟨r, hq, hf⟩

theorem Stops.of_then {f : Unit → Shell σ ε β} (h : Stops (q >>= f) s e t) :
    Stops q s e t ∨ ∃ r, Yields q s () r ∧ Stops (f ()) r e t := by
  rcases h.of_bind with h | ⟨_, r, hq, hf⟩
  · exact Or.inl h
  · exact Or.inr ⟨r, hq, hf⟩

theorem Yields.of_pure {a' : α} (h : Yields (pure a' : Shell σ ε α) s a t) : a = a' ∧ t = s := by
  obtain ⟨fails, n, k, h⟩ := h
  cases h
  exact ⟨rfl, rfl⟩

theorem not_stops_pure : ¬ Stops (pure a : Shell σ ε α) s e t := by
  rintro ⟨fails, n, h⟩
  cases h

theorem command_eq_done {effect : σ → Option (α × σ)} {fails : Nat → Bool} {n k : Nat} :
    command e effect fails n s = .done a k t ↔
      fails n = false ∧ effect s = some (a, t) ∧ k = n + 1 := by
  rw [command]
  cases fails n with
  | true =>
    constructor
    · intro h
      cases h
    · rintro ⟨h, -, -⟩
      cases h
  | false =>
    rw [if_neg Bool.false_ne_true]
    cases effect s with
    | none =>
      constructor
      · intro h
        cases h
      · rintro ⟨-, h, -⟩
        cases h
    | some x =>
      constructor
      · intro h
        cases h
        exact ⟨rfl, rfl, rfl⟩
      · rintro ⟨-, h, rfl⟩
        cases h
        rfl

theorem Yields.of_command {effect : σ → Option (α × σ)} (h : Yields (command e effect) s a t) :
    effect s = some (a, t) := by
  obtain ⟨fails, n, k, h⟩ := h
  exact (command_eq_done.mp h).2.1

theorem Stops.of_command {effect : σ → Option (α × σ)} (h : Stops (command e effect) s e' t) :
    e' = e ∧ t = s := by
  obtain ⟨fails, n, h⟩ := h
  rw [command] at h
  cases hn : fails n with
  | true =>
    rw [hn, if_pos rfl] at h
    cases h
    exact ⟨rfl, rfl⟩
  | false =>
    rw [hn, if_neg Bool.false_ne_true] at h
    cases hf : effect s with
    | none =>
      rw [hf] at h
      cases h
      exact ⟨rfl, rfl⟩
    | some x =>
      rw [hf] at h
      cases h

theorem Yields.of_act (h : Yields (act e effect) s () t) : effect s = some t := by
  obtain ⟨r, hr, hrt⟩ := Option.map_eq_some_iff.mp h.of_command
  cases hrt
  exact hr

/-- a command that fails only when it is made to -/
theorem Yields.of_act_some {g : σ → σ} (h : Yields (act e fun s => some (g s)) s () t) : t = g s :=
  (Option.some.inj h.of_act).symm

theorem Stops.of_act (h : Stops (act e effect) s e' t) : e' = e ∧ t = s := Stops.of_command h

theorem ifThen_of_false (h : test s = false) (fails : Nat → Bool) (n : Nat) :
    ifThen test q fails n s = .done () n s := by
  rw [ifThen, h, if_neg Bool.false_ne_true]

theorem Yields.of_ifThen (h : Yields (ifThen test q) s () t) :
    (test s = true ∧ Yields q s () t) ∨ (test s = false ∧ t = s) := by
  obtain ⟨fails, n, k, h⟩ := h
  rw [ifThen] at h
  cases ht : test s with
  | true =>
    rw [ht, if_pos rfl] at h
    exact Or.inl ⟨rfl, fails, n, k, h⟩
  | false =>
    rw [ht, if_neg Bool.false_ne_true] at h
    cases h
    exact Or.inr ⟨rfl, rfl⟩

theorem Stops.of_ifThen (h : Stops (ifThen test q) s e t) : test s = true ∧ Stops q s e t := by
  obtain ⟨fails, n, h⟩ := h
  rw [ifThen] at h
  cases ht : test s with
  | true =>
    rw [ht, if_pos rfl] at h
    exact ⟨rfl, fails, n, h⟩
  | false =>
    rw [ht, if_neg Bool.false_ne_true] at h
    cases h

theorem ifElse_of_true (h : test s = true) (fails : Nat → Bool) (n : Nat) :
    ifElse test q q' fails n s = q fails n s := by
  rw [ifElse, h, if_pos rfl]

theorem ifElse_of_false (h : test s = false) (fails : Nat → Bool) (n : Nat) :
    ifElse test q q' fails n s = q' fails n s := by
  rw [ifElse, h, if_neg Bool.false_ne_true]

theorem Yields.of_ifElse (h : Yields (ifElse test q q') s () t) :
    (test s = true ∧ Yields q s () t) ∨ (test s = false ∧ Yields q' s () t) := by
  obtain ⟨fails, n, k, h⟩ := h
  cases ht : test s with
  | true =>
    rw [ifElse_of_true ht] at h
    exact Or.inl ⟨rfl, fails, n, k, h⟩
  | false =>
    rw [ifElse_of_false ht] at h
    exact Or.inr ⟨rfl, fails, n, k, h⟩

theorem Stops.of_ifElse (h : Stops (ifElse test q q') s e t) :
    (test s = true ∧ Stops q s e t) ∨ (test s = false ∧ Stops q' s e t) := by
  obtain ⟨fails, n, h⟩ := h
  cases ht : test s with
  | true =>
    rw [ifElse_of_true ht] at h
    exact Or.inl ⟨rfl, fails, n, h⟩
  | false =>
    rw [ifElse_of_false ht] at h
    exact Or.inr ⟨rfl, fails, n, h⟩

theorem Yields.of_ifFails (h : Yields (ifFails effect q) s () t) :
    effect s = some t ∨ Yields q s () t := by
  obtain ⟨fails, n, k, h⟩ := h
  rw [ifFails] at h
  cases hn : fails n with
  | true =>
    rw [hn, if_pos rfl] at h
    exact Or.inr ⟨fails, n + 1, k, h⟩
  | false =>
    rw [hn, if_neg Bool.false_ne_true] at h
    cases hf : effect s with
    | none =>
      rw [hf] at h
      exact Or.inr ⟨fails, n + 1, k, h⟩
    | some r =>
      rw [hf] at h
      cases h
      exact Or.inl rfl

theorem Stops.of_ifFails (h : Stops (ifFails effect q) s e t) : Stops q s e t := by
  obtain ⟨fails, n, h⟩ := h
  rw [ifFails] at h
  cases hn : fails n with
  | true =>
    rw [hn, if_pos rfl] at h
    exact ⟨fails, n + 1, h⟩
  | false =>
    rw [hn, if_neg Bool.false_ne_true] at h
    cases hf : effect s with
    | none =>
      rw [hf] at h
      exact ⟨fails, n + 1, h⟩
    | some r =>
      rw [hf] at h
      cases h

theorem not_yields_exit : ¬ Yields (exit e : Shell σ ε α) s a t := by
  rintro ⟨fails, n, k, h⟩
  cases h

theorem Stops.of_exit (h : Stops (exit e : Shell σ ε α) s e' t) : e' = e ∧ t = s := by
  obtain ⟨fails, n, h⟩ := h
  cases h
  exact ⟨rfl, rfl⟩

/-- `if test; then exit 1; fi` -/
theorem Yields.of_guard (h : Yields (ifThen test (exit e)) s () t) : test s = false ∧ t = s := by
  rcases h.of_ifThen with ⟨-, h⟩ | h
  · exact absurd h not_yields_exit
  · exact h

theorem Stops.of_guard (h : Stops (ifThen test (exit e)) s e' t) : test s = true ∧ e' = e ∧ t = s :=
  ⟨h.of_ifThen.1, h.of_ifThen.2.of_exit⟩

end ends

/-! ## without failures -/

/-- What a program reaches with failures around, it reaches without any. -/
def Steady (p : Shell σ ε α) : Prop :=
  ∀ fails n s a k t, p fails n s = .done a k t →
    ∀ m, ∃ j, p (fun _ => false) m s = .done a j t

namespace Steady
variable {p : Shell σ ε α} {f : α → Shell σ ε β} {q : Shell σ ε Unit} {e : ε}

theorem pure (a : α) : Steady (pure a : Shell σ ε α) := by
  intro fails n s b k t h m
  cases h
  exact ⟨m, rfl⟩

theorem bind (hp : Steady p) (hf : ∀ a, Steady (f a)) : Steady (p >>= f) := by
  intro fails n s b k t h m
  obtain ⟨a, i, r, h, h'⟩ := bind_eq_done.mp h
  obtain ⟨j, hj⟩ := hp fails n s a i r h m
  obtain ⟨j', hj'⟩ := hf a fails i r b k t h' j
  exact ⟨j', bind_eq_done.mpr ⟨a, j, r, hj, hj'⟩⟩

theorem command (effect : σ → Option (α × σ)) : Steady (command e effect) := by
  intro fails n s a k t h m
  exact ⟨m + 1, command_eq_done.mpr ⟨rfl, (command_eq_done.mp h).2.1, rfl⟩⟩

theorem act (effect : σ → Option σ) : Steady (act e effect) := Steady.command _

theorem exit : Steady (exit e : Shell σ ε α) := by
  intro fails n s a k t h
  cases h

theorem ifThen {test : σ → Bool} (h : Steady q) : Steady (ifThen test q) := by
  intro fails n s a k t hr m
  rw [Shell.ifThen] at hr ⊢
  cases ht : test s with
  | true =>
    rw [ht, if_pos rfl] at hr
    rw [if_pos rfl]
    exact h fails n s a k t hr m
  | false =>
    rw [ht, if_neg Bool.false_ne_true] at hr
    rw [if_neg Bool.false_ne_true]
    cases hr
    exact ⟨m, rfl⟩

theorem ifElse {test : σ → Bool} {q' : Shell σ ε Unit} (h : Steady q) (h' : Steady q') :
    Steady (ifElse test q q') := by
  intro fails n s a k t hr m
  cases ht : test s with
  | true =>
    rw [ifElse_of_true ht] at hr ⊢
    exact h fails n s a k t hr m
  | false =>
    rw [ifElse_of_false ht] at hr
    rw [ifElse_of_false ht]
    exact h' fails n s a k t hr m

/-- the handler has to end the run -/
theorem ifFails {effect : σ → Option σ} (h : ∀ s t, ¬ Yields q s () t) :
    Steady (ifFails effect q) := by
  intro fails n s a k t hr m
  cases Yields.of_ifFails ⟨fails, n, k, hr⟩ with
  | inl he =>
    refine ⟨m + 1, ?_⟩
    rw [Shell.ifFails, if_neg Bool.false_ne_true, he]
  | inr hq => exact absurd hq (h s t)

theorem inSequence {ps : List (Shell σ ε Unit)} (h : ∀ p ∈ ps, Steady p) :
    Steady (inSequence ps) := by
  induction ps with
  | nil => exact Steady.pure ()
  | cons p ps ih =>
    exact Steady.bind (h p List.mem_cons_self) fun _ =>
      ih fun q hq => h q (List.mem_cons_of_mem p hq)

end Steady

/-! ## phases -/

/-- A part of a script that can be run again: stopped at a harmless failure it has done nothing,
and once it is over it does nothing more. -/
structure Phase (σ : Type) {ε : Type} (Harmless : ε → Prop) where
  script : Shell σ ε Unit
  Over : σ → Prop
  steady : Steady script
  undone : ∀ {s e t}, Stops script s e t → Harmless e → t = s
  settles : ∀ {s t}, Yields script s () t → Over t
  idle : ∀ {s t}, Over s → Yields script s () t → t = s

section phases
variable {Harmless : ε → Prop} {p : Phase σ Harmless} {ps qs : List (Phase σ Harmless)}
  {s₀ s r t : σ} {e : ε}

/-- the script of a list of phases -/
def scriptOf (ps : List (Phase σ Harmless)) : Shell σ ε Unit := inSequence (ps.map Phase.script)

/-- The phases end well, one after the other. -/
def Passes : List (Phase σ Harmless) → σ → σ → Prop
  | [], s, t => t = s
  | p :: ps, s, t => ∃ r, Yields p.script s () r ∧ Passes ps r t

theorem Passes.append (h : Passes ps s r) (h' : Passes qs r t) : Passes (ps ++ qs) s t := by
  induction ps generalizing s with
  | nil =>
    cases h
    exact h'
  | cons p ps ih =>
    obtain ⟨u, hp, hps⟩ := h
    exact ⟨u, hp, ih hps⟩

theorem Passes.of_append (h : Passes (ps ++ qs) s t) : ∃ r, Passes ps s r ∧ Passes qs r t := by
  induction ps generalizing s with
  | nil => exact ⟨s, rfl, h⟩
  | cons p ps ih =>
    obtain ⟨u, hp, hps⟩ := h
    obtain ⟨r, h1, h2⟩ := ih hps
    exact ⟨r, ⟨u, hp, h1⟩, h2⟩

theorem Yields.passes (h : Yields (scriptOf ps) s () t) : Passes ps s t := by
  induction ps generalizing s with
  | nil => exact (Yields.of_pure h).2
  | cons p ps ih =>
    obtain ⟨a, r, hp, hps⟩ := Yields.of_bind h
    exact ⟨r, hp, ih hps⟩

theorem Stops.passes (h : Stops (scriptOf ps) s e t) :
    ∃ pre p post r, ps = pre ++ p :: post ∧ Passes pre s r ∧ Stops p.script r e t := by
  induction ps generalizing s with
  | nil => exact absurd h not_stops_pure
  | cons p ps ih =>
    cases Stops.of_bind h with
    | inl hp => exact ⟨[], p, ps, s, rfl, rfl, hp⟩
    | inr hps =>
      obtain ⟨a, r, hp, hps⟩ := hps
      obtain ⟨pre, q, post, u, rfl, hpre, hq⟩ := ih hps
      exact ⟨p :: pre, q, post, u, rfl, ⟨r, hp, hpre⟩, hq⟩

theorem Passes.undisturbed (h : Passes ps s t) (m : Nat) :
    ∃ j, scriptOf ps (fun _ => false) m s = .done () j t := by
  induction ps generalizing s m with
  | nil =>
    cases h
    exact ⟨m, rfl⟩
  | cons p ps ih =>
    obtain ⟨r, ⟨fails, n, k, hp⟩, hps⟩ := h
    obtain ⟨i, hi⟩ := p.steady fails n s () k r hp m
    obtain ⟨j, hj⟩ := ih hps i
    exact ⟨j, bind_eq_done.mpr ⟨(), i, r, hi, hj⟩⟩

theorem Passes.idle (hs : ∀ p ∈ ps, p.Over s) (h : Passes ps s t) : t = s := by
  induction ps with
  | nil => exact h
  | cons p ps ih =>
    obtain ⟨r, hp, hps⟩ := h
    have hr : r = s := p.idle (hs p List.mem_cons_self) hp
    subst hr
    exact ih (fun q hq => hs q (List.mem_cons_of_mem p hq)) hps

/-- A phase that is over is still over after the phases behind it. -/
def Lasting (ps : List (Phase σ Harmless)) : Prop :=
  ps.Pairwise fun p q => ∀ s t, p.Over s → Yields q.script s () t → p.Over t

theorem over_after (hkeep : ∀ q ∈ ps, ∀ s t, p.Over s → Yields q.script s () t → p.Over t)
    (hp : p.Over s) (hps : Passes ps s t) : p.Over t := by
  induction ps generalizing s with
  | nil =>
    cases hps
    exact hp
  | cons q ps ih =>
    obtain ⟨r, hq, hps⟩ := hps
    have hr := hkeep q List.mem_cons_self s r hp hq
    exact ih (fun q' hq' => hkeep q' (List.mem_cons_of_mem q hq')) hr hps

theorem Lasting.over (h : Lasting ps) (hps : Passes ps s t) : ∀ p ∈ ps, p.Over t := by
  induction ps generalizing s with
  | nil => exact fun p hp => absurd hp List.not_mem_nil
  | cons p ps ih =>
    obtain ⟨r, hp, hps⟩ := hps
    obtain ⟨hkeep, hrest⟩ := List.pairwise_cons.mp h
    intro q hq
    cases List.mem_cons.mp hq with
    | inl hq =>
      subst hq
      exact over_after hkeep (q.settles hp) hps
    | inr hq => exact ih hrest hps q hq

/-- A phase that was over and is not any more, some phase behind it took back. -/
theorem Passes.taken (hp : p.Over s) (hps : Passes ps s t) (hn : ¬ p.Over t) :
    ∃ q ∈ ps, ∃ u v, p.Over u ∧ Yields q.script u () v ∧ ¬ p.Over v := by
  induction ps generalizing s with
  | nil =>
    cases hps
    exact absurd hp hn
  | cons q ps ih =>
    obtain ⟨r, hq, hps⟩ := hps
    by_cases hr : p.Over r
    · obtain ⟨q', hq', hrest⟩ := ih hr hps
      exact ⟨q', List.mem_cons_of_mem q hq', hrest⟩
    · exact ⟨q, List.mem_cons_self, s, r, hp, hq, hr⟩

/-- **Phases that are over pass again and change nothing.** -/
theorem Passes.again (hidle : ∀ p ∈ ps, p.Over t → Yields p.script t () t) (h : ∀ p ∈ ps, p.Over t) :
    Passes ps t t := by
  induction ps with
  | nil => exact rfl
  | cons p ps ih =>
    obtain ⟨hp, hps⟩ := List.forall_mem_cons.mp h
    exact ⟨t, hidle p List.mem_cons_self hp, ih (fun q hq => hidle q (List.mem_cons_of_mem p hq)) hps⟩

/-- Phases that make something larger when they are not over cannot lead back: where they end in
what they began with, they are over. -/
theorem Passes.over_of_grows {ι : Type} (size : ι → σ → Nat)
    (hle : ∀ p ∈ ps, ∀ s t, Yields p.script s () t → ∀ i, size i s ≤ size i t)
    (hlt : ∀ p ∈ ps, ∀ s t, Yields p.script s () t → ¬ p.Over s → ∃ i, size i s < size i t)
    (h : Passes ps s t) :
    (∀ i, size i s ≤ size i t) ∧ ((∀ i, size i t ≤ size i s) → ∀ p ∈ ps, p.Over s) := by
  induction ps generalizing s with
  | nil =>
    cases h
    exact ⟨fun i => Nat.le_refl _, fun _ p hp => absurd hp List.not_mem_nil⟩
  | cons p ps ih =>
    obtain ⟨r, hp, hps⟩ := h
    have hstep := hle p List.mem_cons_self s r hp
    obtain ⟨hrest, hover⟩ := ih (fun q hq => hle q (List.mem_cons_of_mem p hq))
      (fun q hq => hlt q (List.mem_cons_of_mem p hq)) hps
    refine ⟨fun i => Nat.le_trans (hstep i) (hrest i), fun hback => ?_⟩
    by_cases hs : p.Over s
    · have hr : r = s := p.idle hs hp
      rw [hr] at hover
      exact List.forall_mem_cons.mpr ⟨hs, hover hback⟩
    · obtain ⟨i, hi⟩ := hlt p List.mem_cons_self s r hp hs
      exact absurd (Nat.lt_of_lt_of_le hi (hrest i)) (Nat.not_lt.mpr (hback i))

/-- What earlier runs have left: the work of some first phases, done once and for all. -/
def Resumes (ps : List (Phase σ Harmless)) (s t : σ) : Prop :=
  ∃ pre post, ps = pre ++ post ∧ Passes pre s t ∧ ∀ p ∈ pre, p.Over t

namespace Resumes

theorem refl (ps : List (Phase σ Harmless)) (s : σ) : Resumes ps s s :=
  ⟨[], ps, rfl, rfl, fun _ hp => absurd hp List.not_mem_nil⟩

/-- A run that ends well ends where the run from the start ends. -/
theorem passes (hr : Resumes ps s₀ s) (hps : Passes ps s t) : Passes ps s₀ t := by
  obtain ⟨pre, post, rfl, hpre, hover⟩ := hr
  obtain ⟨r, h1, h2⟩ := hps.of_append
  have hrs : r = s := h1.idle hover
  subst hrs
  exact hpre.append h2

/-- after a run that ends well nothing is left to do -/
theorem complete (hl : Lasting ps) (hr : Resumes ps s₀ s) (hps : Passes ps s t) :
    Resumes ps s₀ t :=
  ⟨ps, [], (List.append_nil ps).symm, hr.passes hps, hl.over hps⟩

/-- A run that stops at a harmless failure can be resumed. -/
theorem stop (hl : Lasting ps) (hr : Resumes ps s₀ s) (hs : Stops (scriptOf ps) s e t)
    (he : Harmless e) : Resumes ps s₀ t := by
  obtain ⟨pre, post, rfl, hpre, hover⟩ := hr
  obtain ⟨front, p, back, r, heq, hfront, hstop⟩ := hs.passes
  have htr : t = r := p.undone hstop he
  subst htr
  rcases List.append_eq_append_iff.mp heq with ⟨mid, rfl, rfl⟩ | ⟨mid, rfl, -⟩
  · -- the run got beyond what the earlier runs had done
    obtain ⟨u, h1, h2⟩ := hfront.of_append
    have hus : u = s := h1.idle hover
    subst hus
    have hpass := hpre.append h2
    rw [← List.append_assoc] at hl ⊢
    exact ⟨pre ++ mid, p :: back, rfl, hpass, Lasting.over (List.pairwise_append.mp hl).1 hpass⟩
  · -- it stopped in a phase that had nothing left to do
    have hts : t = s := hfront.idle fun q hq => hover q (List.mem_append_left mid hq)
    subst hts
    exact ⟨front ++ mid, post, rfl, hpre, hover⟩

end Resumes
end phases

end Shell

end RT7
