import RT7.Base.Loop
import RT7.Base.Trace

/-!
# Programs that talk to their surroundings

* `Dialogue Q A ε α`  a program that asks questions `q : Q` and gets an answer in `A q` to each; it
  ends with a value or an error, and a loop is followed for some number of turns only;
* `Talk d t r`        `d` can have the exchanges `t`, whatever the answers; `r` is its end, if it got
  there;
* `converse machine d s`   the talk with a machine that answers by a function;
* `Safe P post d before`   every question of `d` is fine in view of the exchanges before it, and its
  end is as `post` says, with a rule for each form of a program;
* `Safe.sound`        what a safe program does in every talk;
* `Serves step s t s'`   a machine that answers the questions of a talk, from the state `s` to `s'`.
-/

namespace RT7

/-- `cut` is where a loop is not followed any further. -/
inductive Dialogue (Q : Type) (A : Q → Type) (ε α : Type) : Type where
  | done (a : α)
  | fail (e : ε)
  | ask (q : Q) (next : A q → Dialogue Q A ε α)
  | cut

/-- a question with its answer -/
structure Exchange {Q : Type} (A : Q → Type) where
  question : Q
  answer : A question

namespace Dialogue

variable {Q : Type} {A : Q → Type} {ε ε' α β σ : Type}

protected def bind (f : α → Dialogue Q A ε β) : Dialogue Q A ε α → Dialogue Q A ε β
  | .done a => f a
  | .fail e => .fail e
  | .ask q next => .ask q fun answer => (next answer).bind f
  | .cut => .cut

instance : Monad (Dialogue Q A ε) where
  pure := .done
  bind d f := d.bind f

/-- `try: ... except: ...` -/
def handle (handler : ε → Dialogue Q A ε' α) : Dialogue Q A ε α → Dialogue Q A ε' α
  | .done a => .done a
  | .fail e => handler e
  | .ask q next => .ask q fun answer => (next answer).handle handler
  | .cut => .cut

/-- a question by itself -/
def query (q : Q) : Dialogue Q A ε (A q) := .ask q .done

def ofExcept : Except ε α → Dialogue Q A ε α
  | .ok a => .done a
  | .error e => .fail e

/-- a question whose answer can be an error -/
def request (q : Q) (reply : A q → Except ε α) : Dialogue Q A ε α :=
  .ask q fun answer => ofExcept (reply answer)

def failIf (p : Prop) [Decidable p] (e : ε) : Dialogue Q A ε Unit :=
  if p then .fail e else .done ()

/-- the first `n` turns of a loop -/
def loop (body : σ → Dialogue Q A ε (Turn σ α)) : Nat → σ → Dialogue Q A ε α
  | 0, _ => .cut
  | n + 1, s =>
    (body s).bind fun turn =>
      match turn with
      | .again s' => loop body n s'
      | .returned a => .done a

/-! ## talks -/

inductive Talk : Dialogue Q A ε α → List (Exchange A) → Option (Except ε α) → Prop
  | done (a : α) : Talk (.done a) [] (some (.ok a))
  | fail (e : ε) : Talk (.fail e) [] (some (.error e))
  | waits (q : Q) (next : A q → Dialogue Q A ε α) : Talk (.ask q next) [] none
  | answered {q : Q} {next : A q → Dialogue Q A ε α} (answer : A q) {t : List (Exchange A)}
      {r : Option (Except ε α)} (rest : Talk (next answer) t r) :
      Talk (.ask q next) (⟨q, answer⟩ :: t) r
  | cut : Talk .cut [] none

/-- a talk that was led to its end, with the state that a machine is left in -/
structure Conversation (A : Q → Type) (ε α σ : Type) where
  talk : List (Exchange A)
  result : Option (Except ε α)
  state : σ

/-- the talk with a machine whose answers are a function of its state -/
def converse (machine : σ → (q : Q) → A q × σ) : Dialogue Q A ε α → σ → Conversation A ε α σ
  | .done a, s => ⟨[], some (.ok a), s⟩
  | .fail e, s => ⟨[], some (.error e), s⟩
  | .ask q next, s =>
    let answer := machine s q
    let rest := converse machine (next answer.1) answer.2
    { rest with talk := ⟨q, answer.1⟩ :: rest.talk }
  | .cut, s => ⟨[], none, s⟩

/-- The state is what was said before. -/
def remembers (answer : List (Exchange A) → (q : Q) → A q) (before : List (Exchange A)) (q : Q) :
    A q × List (Exchange A) :=
  (answer before q, before ++ [⟨q, answer before q⟩])

theorem talk_converse (machine : σ → (q : Q) → A q × σ) (d : Dialogue Q A ε α) (s : σ) :
    Talk d (converse machine d s).talk (converse machine d s).result := by
  induction d generalizing s with
  | done a => exact .done a
  | fail e => exact .fail e
  | ask q next ih => exact .answered (machine s q).1 (ih _ _)
  | cut => exact .cut

/-! ## safety -/

/-- Every question is fine in view of the exchanges before it, and the end is as `post` says. -/
def Safe (P : List (Exchange A) → Q → Prop) (post : List (Exchange A) → Except ε α → Prop) :
    Dialogue Q A ε α → List (Exchange A) → Prop
  | .done a, before => post before (.ok a)
  | .fail e, before => post before (.error e)
  | .ask q next, before => P before q ∧ ∀ answer, Safe P post (next answer) (before ++ [⟨q, answer⟩])
  | .cut, _ => True

section rules
variable {P : List (Exchange A) → Q → Prop} {post post' : List (Exchange A) → Except ε α → Prop}
  {before : List (Exchange A)}

theorem Safe.mono {d : Dialogue Q A ε α} (h : Safe P post d before)
    (himp : ∀ t r, post t r → post' t r) : Safe P post' d before := by
  induction d generalizing before with
  | done a => exact himp before (.ok a) h
  | fail e => exact himp before (.error e) h
  | ask q next ih => exact ⟨h.1, fun answer => ih answer (h.2 answer)⟩
  | cut => trivial

theorem safe_bind {f : α → Dialogue Q A ε β} {post : List (Exchange A) → Except ε β → Prop}
    {d : Dialogue Q A ε α} : Safe P post (d >>= f) before ↔
      Safe P (fun t r => match r with
        | .ok a => Safe P post (f a) t
        | .error e => post t (.error e)) d before := by
  show Safe P post (d.bind f) before ↔ _
  induction d generalizing before with
  | done a => exact Iff.rfl
  | fail e => exact Iff.rfl
  | ask q next ih => exact and_congr_right fun _ => forall_congr' fun answer => ih answer
  | cut => exact Iff.rfl

theorem safe_handle {handler : ε → Dialogue Q A ε' α} {post : List (Exchange A) → Except ε' α → Prop}
    {d : Dialogue Q A ε α} : Safe P post (d.handle handler) before ↔
      Safe P (fun t r => match r with
        | .ok a => post t (.ok a)
        | .error e => Safe P post (handler e) t) d before := by
  induction d generalizing before with
  | done a => exact Iff.rfl
  | fail e => exact Iff.rfl
  | ask q next ih => exact and_congr_right fun _ => forall_congr' fun answer => ih answer
  | cut => exact Iff.rfl

theorem safe_query_bind {q : Q} {f : A q → Dialogue Q A ε α} :
    Safe P post (query q >>= f) before ↔
      P before q ∧ ∀ answer, Safe P post (f answer) (before ++ [⟨q, answer⟩]) := Iff.rfl

theorem safe_ofExcept {x : Except ε α} : Safe P post (ofExcept x) before ↔ post before x := by
  cases x with
  | ok a => exact Iff.rfl
  | error e => exact Iff.rfl

theorem safe_request {q : Q} {reply : A q → Except ε α} :
    Safe P post (request q reply) before ↔
      P before q ∧ ∀ answer, post (before ++ [⟨q, answer⟩]) (reply answer) := by
  exact and_congr_right fun _ => forall_congr' fun answer => safe_ofExcept

theorem safe_failIf {p : Prop} [Decidable p] {e : ε} {post : List (Exchange A) → Except ε Unit → Prop} :
    Safe P post (failIf p e) before ↔ (p → post before (.error e)) ∧ (¬ p → post before (.ok ())) := by
  rw [failIf]
  by_cases hp : p
  · rw [if_pos hp]
    exact ⟨fun h => ⟨fun _ => h, fun hn => absurd hp hn⟩, fun h => h.1 hp⟩
  · rw [if_neg hp]
    exact ⟨fun h => ⟨fun hn => absurd hn hp, fun _ => h⟩, fun h => h.2 hp⟩

/-- what a turn of a loop has to establish -/
def afterTurn (Inv : List (Exchange A) → σ → Prop) (post : List (Exchange A) → Except ε α → Prop)
    (t : List (Exchange A)) : Except ε (Turn σ α) → Prop
  | .ok (.again s) => Inv t s
  | .ok (.returned a) => post t (.ok a)
  | .error e => post t (.error e)

/-- **The rule for loops.** -/
theorem safe_loop {body : σ → Dialogue Q A ε (Turn σ α)} (Inv : List (Exchange A) → σ → Prop)
    (hbody : ∀ t s, Inv t s → Safe P (afterTurn Inv post) (body s) t)
    (n : Nat) {s : σ} (hs : Inv before s) : Safe P post (loop body n s) before := by
  induction n generalizing before s with
  | zero => trivial
  | succ n ih =>
    refine safe_bind.mpr ((hbody before s hs).mono fun t r hr => ?_)
    cases r with
    | error e => exact hr
    | ok turn =>
      cases turn with
      | again s' => exact ih hr
      | returned a => exact hr

/-- **What a safe program does**, whatever its questions are answered with. -/
theorem Safe.sound {d : Dialogue Q A ε α} {t : List (Exchange A)} {r : Option (Except ε α)}
    (h : Safe P post d before) (ht : Talk d t r)
    (hbefore : Trace.Always (fun pre e => P pre e.question) before) :
    Trace.Always (fun pre e => P pre e.question) (before ++ t) ∧
      ∀ x, r = some x → post (before ++ t) x := by
  induction ht generalizing before with
  | done a =>
    rw [List.append_nil]
    refine ⟨hbefore, fun x hx => ?_⟩
    cases hx
    exact h
  | fail e =>
    rw [List.append_nil]
    refine ⟨hbefore, fun x hx => ?_⟩
    cases hx
    exact h
  | waits q next =>
    rw [List.append_nil]
    exact ⟨hbefore, fun x hx => absurd hx (Option.some_ne_none x).symm⟩
  | @answered q next answer t r rest ih =>
    have hrest := ih (h.2 answer) (hbefore.concat h.1)
    rwa [List.append_assoc] at hrest
  | cut =>
    rw [List.append_nil]
    exact ⟨hbefore, fun x hx => absurd hx (Option.some_ne_none x).symm⟩

end rules

/-! ## machines that answer -/

/-- A machine answers the questions of a talk one after the other. -/
inductive Serves (step : σ → (q : Q) → A q → σ → Prop) : σ → List (Exchange A) → σ → Prop
  | nil (s : σ) : Serves step s [] s
  | cons {s s' s'' : σ} {e : Exchange A} {t : List (Exchange A)} (first : step s e.question e.answer s')
      (rest : Serves step s' t s'') : Serves step s (e :: t) s''

section
variable {step : σ → (q : Q) → A q → σ → Prop} {s s' : σ} {t t' : List (Exchange A)} {e : Exchange A}

theorem serves_append : Serves step s (t ++ t') s' ↔
    ∃ r, Serves step s t r ∧ Serves step r t' s' := by
  induction t generalizing s with
  | nil =>
    refine ⟨fun h => ⟨s, .nil s, h⟩, fun h => ?_⟩
    obtain ⟨r, hr, h⟩ := h
    cases hr
    exact h
  | cons e t ih =>
    constructor
    · intro h
      cases h with
      | cons first rest =>
        obtain ⟨r, h1, h2⟩ := ih.mp rest
        exact ⟨r, .cons first h1, h2⟩
    · intro h
      obtain ⟨r, h1, h2⟩ := h
      cases h1 with
      | cons first rest => exact .cons first (ih.mpr ⟨r, rest, h2⟩)

theorem serves_converse {machine : σ → (q : Q) → A q × σ}
    (h : ∀ s q, step s q (machine s q).1 (machine s q).2) (d : Dialogue Q A ε α) (s : σ) :
    Serves step s (converse machine d s).talk (converse machine d s).state := by
  induction d generalizing s with
  | done a => exact .nil s
  | fail e => exact .nil s
  | ask q next ih => exact .cons (h s q) (ih _ _)
  | cut => exact .nil s

end

end Dialogue

end RT7
