import RT7.Base.Ensures

/-!
# Scripts that read, and what runs leave behind them

* `Reads p f`       `p` changes nothing, and ends well exactly where `f` has a value;
* `History`         the states that runs leave one after the other, each cut off anywhere, with other
  events between them; `History.rule` is the rule for invariants;
* `Keeps script out`   what is there stays there; `History.kept` and `History.made` say what follows
  for whole histories.
-/

namespace RT7

namespace Shell

variable {σ ε ι ν α β : Type}

/-- `p` changes nothing, and can end well exactly where `f` has a value. -/
structure Reads (p : Shell σ ε α) (f : σ → Option α) : Prop where
  ends : ∀ s a t, Yields p s a t → t = s ∧ f s = some a
  stops : ∀ s e t, Stops p s e t → t = s
  goes : ∀ s a, f s = some a → Goes p s a s

/-- a test of a script that must not hold -/
def refuse (test : Bool) : Option Unit := if test then none else some ()

theorem refuse_eq_some {test : Bool} {u : Unit} : refuse test = some u ↔ test = false := by
  cases test with
  | true => exact ⟨fun h => (by cases h), fun h => (by cases h)⟩
  | false => exact ⟨fun _ => rfl, fun _ => rfl⟩

section reads
variable {p : Shell σ ε α} {f : σ → Option α} {e : ε}

theorem Reads.congr {g : σ → Option α} (h : Reads p f) (hfg : ∀ s, f s = g s) : Reads p g := by
  obtain rfl : f = g := funext hfg
  exact h

theorem reads_pure (a : α) : Reads (pure a : Shell σ ε α) fun _ => some a where
  ends s b t h := by
    obtain ⟨rfl, rfl⟩ := h.of_pure
    exact ⟨rfl, rfl⟩
  stops s e t h := absurd h not_stops_pure
  goes s b h := by
    cases h
    exact goes_pure a s

theorem Reads.bind {q : α → Shell σ ε β} {g : α → σ → Option β} (h : Reads p f)
    (hq : ∀ a, Reads (q a) (g a)) : Reads (p >>= q) fun s => (f s).bind fun a => g a s where
  ends s b t hyields := by
    obtain ⟨a, r, hp, hrest⟩ := hyields.of_bind
    obtain ⟨rfl, ha⟩ := h.ends s a r hp
    obtain ⟨rfl, hb⟩ := (hq a).ends _ b t hrest
    exact ⟨rfl, Option.bind_eq_some_iff.mpr ⟨a, ha, hb⟩⟩
  stops s e t hstops := by
    rcases hstops.of_bind with hp | ⟨a, r, hp, hrest⟩
    · exact h.stops s e t hp
    · obtain ⟨rfl, -⟩ := h.ends s a r hp
      exact (hq a).stops _ e t hrest
  goes s b hvalue := by
    obtain ⟨a, ha, hb⟩ := Option.bind_eq_some_iff.mp hvalue
    exact (h.goes s a ha).bind ((hq a).goes s b hb)

/-- a command that only looks -/
theorem reads_value (value : σ → Option α) :
    Reads (command e fun s => (value s).map fun a => (a, s)) value where
  ends s a t h := by
    obtain ⟨b, hb, hpair⟩ := Option.map_eq_some_iff.mp h.of_command
    cases hpair
    exact ⟨rfl, hb⟩
  stops s e t h := h.of_command.2
  goes s a h := goes_command (by rw [h]; rfl)

/-- `if test; then exit 1; fi` -/
theorem reads_guard (test : σ → Bool) :
    Reads (ifThen test (exit e) : Shell σ ε Unit) fun s => refuse (test s) where
  ends s u t h := by
    obtain ⟨htest, ht⟩ := Yields.of_guard h
    exact ⟨ht, refuse_eq_some.mpr htest⟩
  stops s e' t h := (Stops.of_guard h).2.2
  goes s u h := goes_skip (refuse_eq_some.mp h)

theorem Reads.ensures {Q : α → σ → Prop} {R : σ → Prop} {s : σ} (h : Reads p f) (hstop : R s)
    (hvalue : ∀ a, f s = some a → Q a s) : Ensures p s Q R where
  ends a t ht := by
    obtain ⟨rfl, ha⟩ := h.ends s a t ht
    exact hvalue a ha
  stops e t ht := by
    rw [h.stops s e t ht]
    exact hstop

end reads

/-! ## histories -/

/-- What runs leave, each cut off anywhere, when `Between` says what happens between them. -/
inductive History (script : ι → Shell σ ε Unit) (Between : σ → σ → Prop) (s₀ : σ) : σ → Prop
  | start : History script Between s₀ s₀
  | between {s t : σ} (before : History script Between s₀ s) (h : Between s t) : History script Between s₀ t
  | run {s : σ} (before : History script Between s₀ s) (i : ι) (fails : Nat → Bool) :
      History script Between s₀ (script i fails 0 s).state

section history
variable {script : ι → Shell σ ε Unit} {Between : σ → σ → Prop} {s₀ s : σ} {out : σ → Option ν} {c : ν}

/-- **The rule for invariants.** -/
theorem History.rule {Inv : σ → Prop} (h : History script Between s₀ s) (h₀ : Inv s₀)
    (hbetween : ∀ s t, Inv s → Between s t → Inv t)
    (hrun : ∀ i s, Inv s → Ensures (script i) s (fun _ => Inv) Inv) : Inv s := by
  induction h with
  | start => exact h₀
  | between before h ih => exact hbetween _ _ ih h
  | run before i fails ih => exact (hrun i _ ih).state fails 0

/-- What is there stays there, whatever happens. -/
structure Keeps (script : ι → Shell σ ε Unit) (Between : σ → σ → Prop) (out : σ → Option ν) : Prop where
  run : ∀ i s c, out s = some c → Ensures (script i) s (fun _ t => out t = some c) fun t => out t = some c
  between : ∀ s t, Between s t → out t = out s

theorem History.kept (h : History script Between s₀ s) (hkeeps : Keeps script Between out)
    (h₀ : out s₀ = some c) : out s = some c :=
  h.rule h₀ (fun s t hs ht => (hkeeps.between s t ht).trans hs) fun i s hs => hkeeps.run i s c hs

/-- **What is there was made by one run**, from a state where there was nothing. -/
theorem History.made (h : History script Between s₀ s) (hkeeps : Keeps script Between out)
    (h₀ : out s₀ = none) (hout : out s = some c) :
    ∃ r i fails, History script Between s₀ r ∧ out r = none ∧ out (script i fails 0 r).state = some c := by
  induction h with
  | start =>
    rw [h₀] at hout
    cases hout
  | between before h ih => exact ih ((hkeeps.between _ _ h).symm.trans hout)
  | @run s before i fails ih =>
    cases hs : out s with
    | none => exact ⟨s, i, fails, before, hs, hout⟩
    | some c' =>
      have hsame := (hkeeps.run i s c' hs).state fails 0
      rw [hout] at hsame
      exact ih (hs.trans hsame.symm)

end history

end Shell

end RT7
