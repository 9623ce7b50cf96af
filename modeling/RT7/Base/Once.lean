import RT7.Base.Killed

/-!
# What a script can still do

* `Goes p s a t`     with no command failing, `p` ends in `t`; one rule for each form of a script;
* `Refuses p s`      every run stops and leaves `s` as it is;
* `Lens`, `within`   a script that works on one part of the state;
* `relabel f p`      `p` as a command of another script, which sees that it has failed.
-/

namespace RT7

namespace Shell

variable {σ τ ε ι α β : Type}

/-- With no command failing, `p` ends with `a` in `t`. -/
def Goes (p : Shell σ ε α) (s : σ) (a : α) (t : σ) : Prop :=
  ∀ n, ∃ k, p (fun _ => false) n s = .done a k t

section goes
variable {p : Shell σ ε α} {f : α → Shell σ ε β} {q q' : Shell σ ε Unit} {s r t : σ} {a : α} {b : β}
  {e : ε} {test : σ → Bool} {effect : σ → Option σ}

theorem Goes.yields (h : Goes p s a t) : Yields p s a t := by
  obtain ⟨k, hk⟩ := h 0
  exact ⟨_, 0, k, hk⟩

theorem goes_pure (a : α) (s : σ) : Goes (pure a : Shell σ ε α) s a s := fun n => ⟨n, rfl⟩

theorem Goes.bind (h : Goes p s a r) (hf : Goes (f a) r b t) : Goes (p >>= f) s b t := by
  intro n
  obtain ⟨m, hm⟩ := h n
  obtain ⟨k, hk⟩ := hf m
  exact ⟨k, bind_eq_done.mpr ⟨a, m, r, hm, hk⟩⟩

theorem goes_command {effect : σ → Option (α × σ)} (h : effect s = some (a, t)) :
    Goes (command e effect) s a t := fun n => ⟨n + 1, command_eq_done.mpr ⟨rfl, h, rfl⟩⟩

theorem goes_act (h : effect s = some t) : Goes (act e effect) s () t := by
  apply goes_command
  rw [h]
  rfl

/-- `if test; then exit 1; fi` where the test is false -/
theorem goes_skip (h : test s = false) : Goes (ifThen test q) s () s :=
  fun n => ⟨n, ifThen_of_false h _ n⟩

theorem goes_then (h : test s = true) (hq : Goes q s () t) : Goes (ifElse test q q') s () t := by
  intro n
  obtain ⟨k, hk⟩ := hq n
  exact ⟨k, by rw [ifElse_of_true h, hk]⟩

theorem goes_else (h : test s = false) (hq : Goes q' s () t) : Goes (ifElse test q q') s () t := by
  intro n
  obtain ⟨k, hk⟩ := hq n
  exact ⟨k, by rw [ifElse_of_false h, hk]⟩

theorem goes_forEach (write : ι → σ → σ) (items : List ι) (s : σ) :
    Goes (forEach e write items) s () (items.foldl (fun s i => write i s) s) := by
  induction items generalizing s with
  | nil => exact goes_pure () s
  | cons i items ih =>
    have hi : Goes (act e fun s => some (write i s)) s () (write i s) := goes_act rfl
    exact hi.bind (f := fun _ => forEach e write items) (ih (write i s))

end goes

/-- Every run stops, and has done nothing. -/
def Refuses (p : Shell σ ε α) (s : σ) : Prop := ∀ fails n, ∃ e, p fails n s = .stopped e s

section refuses
variable {p : Shell σ ε α} {f : α → Shell σ ε β} {s t : σ}

theorem refuses_of (hyields : ∀ a t, ¬ Yields p s a t) (hstops : ∀ e t, Stops p s e t → t = s) :
    Refuses p s := by
  intro fails n
  cases hrun : p fails n s with
  | done a k t => exact absurd ⟨fails, n, k, hrun⟩ (hyields a t)
  | stopped e t =>
    have ht := hstops e t ⟨fails, n, hrun⟩
    subst ht
    exact ⟨e, rfl⟩

theorem Refuses.not_yields (h : Refuses p s) (a : α) (t : σ) : ¬ Yields p s a t := by
  rintro ⟨fails, n, k, hrun⟩
  obtain ⟨e, he⟩ := h fails n
  rw [he] at hrun
  cases hrun

theorem Refuses.stops {e : ε} (h : Refuses p s) (hs : Stops p s e t) : t = s := by
  obtain ⟨fails, n, hrun⟩ := hs
  obtain ⟨e', he⟩ := h fails n
  rw [he] at hrun
  cases hrun
  rfl

end refuses

/-! ## scripts on one part of the state -/

/-- a part `τ` of the state `σ` -/
structure Lens (σ τ : Type) where
  get : σ → τ
  set : τ → σ → σ
  get_set : ∀ u s, get (set u s) = u
  set_get : ∀ s, set (get s) s = s

variable (l : Lens σ τ)

/-- `p` sees and changes one part of the state. -/
def within (p : Shell τ ε α) : Shell σ ε α := fun fails n s =>
  match p fails n (l.get s) with
  | .done a k u => .done a k (l.set u s)
  | .stopped e u => .stopped e (l.set u s)

section within
variable {l} {p : Shell τ ε α} {s t : σ} {a : α} {e : ε} {u : τ}

theorem Yields.of_within (h : Yields (within l p) s a t) :
    Yields p (l.get s) a (l.get t) ∧ t = l.set (l.get t) s := by
  obtain ⟨fails, n, k, h⟩ := h
  rw [within] at h
  cases hrun : p fails n (l.get s) with
  | done b m u =>
    rw [hrun] at h
    cases h
    rw [l.get_set]
    exact ⟨⟨fails, n, k, hrun⟩, rfl⟩
  | stopped e u =>
    rw [hrun] at h
    cases h

theorem Stops.of_within (h : Stops (within l p) s e t) :
    Stops p (l.get s) e (l.get t) ∧ t = l.set (l.get t) s := by
  obtain ⟨fails, n, h⟩ := h
  rw [within] at h
  cases hrun : p fails n (l.get s) with
  | done b m u =>
    rw [hrun] at h
    cases h
  | stopped e' u =>
    rw [hrun] at h
    cases h
    rw [l.get_set]
    exact ⟨⟨fails, n, hrun⟩, rfl⟩

theorem Goes.within (h : Goes p (l.get s) a u) : Goes (within l p) s a (l.set u s) := by
  intro n
  obtain ⟨k, hk⟩ := h n
  exact ⟨k, by rw [Shell.within, hk]⟩

end within

/-! ## scripts as commands -/

/-- `p` with its failures named by another script. -/
def relabel {ε' : Type} (f : ε → ε') (p : Shell σ ε α) : Shell σ ε' α := fun fails n s =>
  match p fails n s with
  | .done a k t => .done a k t
  | .stopped e t => .stopped (f e) t

section relabel
variable {ε' : Type} {f : ε → ε'} {p : Shell σ ε α} {s t : σ} {a : α} {e' : ε'}

theorem Yields.of_relabel (h : Yields (relabel f p) s a t) : Yields p s a t := by
  obtain ⟨fails, n, k, h⟩ := h
  rw [relabel] at h
  cases hrun : p fails n s with
  | done b m u =>
    rw [hrun] at h
    cases h
    exact ⟨fails, n, k, hrun⟩
  | stopped e u =>
    rw [hrun] at h
    cases h

theorem Stops.of_relabel (h : Stops (relabel f p) s e' t) : ∃ e, e' = f e ∧ Stops p s e t := by
  obtain ⟨fails, n, h⟩ := h
  rw [relabel] at h
  cases hrun : p fails n s with
  | done b m u =>
    rw [hrun] at h
    cases h
  | stopped e u =>
    rw [hrun] at h
    cases h
    exact ⟨e, rfl, fails, n, hrun⟩

end relabel

end Shell

end RT7
