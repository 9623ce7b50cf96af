import RT7.Base.Once

/-!
# What a script ensures, also when it is cut off

* `Ensures p s Q R`   every run of `p` from `s` ends as `Q` says, or is cut off where `R` holds;
* one rule for each form of a script, `Ensures.bind` for its parts one after the other;
* `writeOut`        a file is written piece by piece over what was there, with `ensures_writeOut`;
* `Ensures.state`   what holds after a run, however far it got.
-/

namespace RT7

namespace Shell

variable {σ τ ε ι α β : Type}

/-- Every run of `p` from `s` ends as `Q` says, or is cut off where `R` holds. -/
structure Ensures (p : Shell σ ε α) (s : σ) (Q : α → σ → Prop) (R : σ → Prop) : Prop where
  ends : ∀ a t, Yields p s a t → Q a t
  stops : ∀ e t, Stops p s e t → R t

section rules
variable {p : Shell σ ε α} {f : α → Shell σ ε β} {q q' : Shell σ ε Unit} {s t : σ} {e : ε}
  {Q Q' : α → σ → Prop} {R R' : σ → Prop} {test : σ → Bool}

theorem Ensures.state (h : Ensures p s (fun _ => R) R) (fails : Nat → Bool) (n : Nat) :
    R (p fails n s).state := by
  cases hrun : p fails n s with
  | done a k t => exact h.ends a t ⟨fails, n, k, hrun⟩
  | stopped e t => exact h.stops e t ⟨fails, n, hrun⟩

theorem Ensures.mono (h : Ensures p s Q R) (hQ : ∀ a t, Q a t → Q' a t) (hR : ∀ t, R t → R' t) :
    Ensures p s Q' R' := ⟨fun a t ht => hQ a t (h.ends a t ht), fun e t ht => hR t (h.stops e t ht)⟩

theorem Ensures.bind {Q' : β → σ → Prop} (h : Ensures p s (fun a t => Ensures (f a) t Q' R) R) :
    Ensures (p >>= f) s Q' R where
  ends b t ht := by
    obtain ⟨a, r, hp, hf⟩ := ht.of_bind
    exact (h.ends a r hp).ends b t hf
  stops e t ht := by
    rcases ht.of_bind with hp | ⟨a, r, hp, hf⟩
    · exact h.stops e t hp
    · exact (h.ends a r hp).stops e t hf

theorem ensures_command {effect : σ → Option (α × σ)} (hstop : R s)
    (h : ∀ a t, effect s = some (a, t) → Q a t) : Ensures (command e effect) s Q R where
  ends a t ht := h a t ht.of_command
  stops e t ht := by
    obtain ⟨-, rfl⟩ := ht.of_command
    exact hstop

theorem ensures_act {Q : Unit → σ → Prop} {effect : σ → Option σ} (hstop : R s)
    (h : ∀ t, effect s = some t → Q () t) : Ensures (act e effect) s Q R where
  ends _ t ht := h t ht.of_act
  stops e t ht := by
    obtain ⟨-, rfl⟩ := ht.of_act
    exact hstop

theorem ensures_exit (hstop : R s) : Ensures (exit e : Shell σ ε α) s Q R where
  ends a t ht := absurd ht not_yields_exit
  stops e' t ht := by
    obtain ⟨-, rfl⟩ := ht.of_exit
    exact hstop

theorem ensures_ifThen {Q : Unit → σ → Prop} (hthen : test s = true → Ensures q s Q R)
    (hskip : test s = false → Q () s) : Ensures (ifThen test q) s Q R where
  ends _ t ht := by
    rcases ht.of_ifThen with ⟨hc, hq⟩ | ⟨hc, rfl⟩
    · exact (hthen hc).ends () t hq
    · exact hskip hc
  stops e t ht := (hthen ht.of_ifThen.1).stops e t ht.of_ifThen.2

theorem ensures_ifElse {Q : Unit → σ → Prop} (hthen : test s = true → Ensures q s Q R)
    (helse : test s = false → Ensures q' s Q R) : Ensures (ifElse test q q') s Q R where
  ends _ t ht := by
    rcases ht.of_ifElse with ⟨hc, hq⟩ | ⟨hc, hq⟩
    · exact (hthen hc).ends () t hq
    · exact (helse hc).ends () t hq
  stops e t ht := by
    rcases ht.of_ifElse with ⟨hc, hq⟩ | ⟨hc, hq⟩
    · exact (hthen hc).stops e t hq
    · exact (helse hc).stops e t hq

/-- `if test; then exit 1; fi` -/
theorem ensures_guard {Q : Unit → σ → Prop} (hstop : R s) (h : test s = false → Q () s) :
    Ensures (ifThen test (exit e)) s Q R := ensures_ifThen (fun _ => ensures_exit hstop) h

theorem ensures_forEach {Q : Unit → σ → Prop} {write : ι → σ → σ} {items : List ι}
    (hstop : ∀ k, R ((items.take k).foldl (fun s i => write i s) s))
    (h : Q () (items.foldl (fun s i => write i s) s)) : Ensures (forEach e write items) s Q R where
  ends _ t ht := by
    rw [ht.of_forEach]
    exact h
  stops e t ht := by
    obtain ⟨-, k, -, rfl⟩ := ht.of_forEach
    exact hstop k

theorem ensures_within {l : Lens σ τ} {p : Shell τ ε α}
    (h : Ensures p (l.get s) (fun a u => Q a (l.set u s)) fun u => R (l.set u s)) :
    Ensures (within l p) s Q R where
  ends a t ht := by
    obtain ⟨hp, ht⟩ := ht.of_within
    rw [ht]
    exact h.ends a _ hp
  stops e t ht := by
    obtain ⟨hp, ht⟩ := ht.of_within
    rw [ht]
    exact h.stops e _ hp

theorem ensures_relabel {ε' : Type} {g : ε → ε'} (h : Ensures p s Q R) :
    Ensures (relabel g p) s Q R where
  ends a t ht := h.ends a t ht.of_relabel
  stops e t ht := by
    obtain ⟨e', -, hp⟩ := ht.of_relabel
    exact h.stops e' t hp

end rules

/-! ## writing a file -/

section writeOut
variable {ν : Type} {put : List ν → σ → σ} {content : List ν} {s : σ} {e : ε}

/-- The file is emptied, and written piece by piece. -/
def writeOut (e : ε) (put : List ν → σ → σ) (content : List ν) : Shell σ ε Unit :=
  forEach e (fun k => put (content.take k)) (List.range (content.length + 1))

theorem foldl_put (hput : ∀ c c' s, put c (put c' s) = put c s) (k : Nat) (s : σ) :
    (List.range (k + 1)).foldl (fun s k => put (content.take k) s) s = put (content.take k) s := by
  cases k with
  | zero => rfl
  | succ k => rw [List.range_succ, List.foldl_append, foldl_put hput k, List.foldl_cons, List.foldl_nil, hput]

theorem ensures_writeOut {Q : Unit → σ → Prop} {R : σ → Prop}
    (hput : ∀ c c' s, put c (put c' s) = put c s) (hstart : R s)
    (hstop : ∀ k, R (put (content.take k) s)) (h : Q () (put content s)) :
    Ensures (writeOut e put content) s Q R := by
  refine ensures_forEach (fun k => ?_) ?_
  · rw [List.take_range]
    cases min k (content.length + 1) with
    | zero => exact hstart
    | succ m =>
      rw [foldl_put hput]
      exact hstop m
  · rw [foldl_put hput, List.take_length]
    exact h

end writeOut

end Shell

end RT7
