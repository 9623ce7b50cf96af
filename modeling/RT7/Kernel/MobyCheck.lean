import RT7.Base.Sha256
import RT7.Base.Text
import RT7.Base.Threads
import Mathlib.Data.Fintype.Basic

/-!
# The audit script of Docker (`fetch-moby-check-config.sh`, `audit-kernel-config.sh`)

* `Store`           the files, and the scripts that were executed;
* `Process`         where a run of one of the two scripts stands;
* `advance`         the next thing a run does: `fetch` downloads beside the destination, verifies and
  renames, `audit` verifies the script that it finds at the destination and executes it;
* `Unused`          `mktemp` draws no name that a run in progress has as its temporary file;
* `Pinned`          the destination holds a script with the pinned digest;
* `Frame`, `Effect`   what one step changes as the other runs see it, and what it does for its own;
* `executed_pinned` any number of runs of both scripts, in any order of their steps.
-/

namespace RT7.Kernel.Moby

open Threads

def expected : String := "fda4343e9b50c47896653ca774ccbe9614bfcdb60f080d2b6277baf27efc0a71"

/-- what both scripts are given: the destination of the download is the tool of the audit -/
structure Setup where
  destination : String := "/rt7-work/downloads/moby-check-config.sh"
  report : String := "/rt7-work/device-dumps/moby-check-merged-config.txt"
  hash : Bytes → Digest

structure Store where
  files : String → Option Bytes
  executed : List Bytes

namespace Store

def put (s : Store) (path : String) (content : Bytes) : Store :=
  { s with files := Function.update s.files path (some content) }

/-- `rm -f path` -/
def remove (s : Store) (path : String) : Store :=
  { s with files := Function.update s.files path none }

end Store

inductive Process where
  | fetch
  /-- `curl` writes the file that `mktemp` has created, or one that is not there any more -/
  | downloading (temporary : String)
  | downloaded (temporary : String)
  | hashed (temporary actual : String)
  | moving (temporary : String)
  | moved (temporary : String)
  | audit
  | audited (actual : String)
  | trusted
  | ended
  deriving DecidableEq, Repr

/-- What is left open of a step: whether the command fails, what arrives, which name is drawn, and
whether a signal arrives, for which the trap removes the temporary file. -/
inductive Choice where
  | go
  | fails
  | signal
  | deliver (content : Bytes)
  | draw (suffix : String)

/-- `$temporary` -/
def Process.temporary : Process → Option String
  | .downloading t => some t
  | .downloaded t => some t
  | .hashed t _ => some t
  | .moving t => some t
  | .moved t => some t
  | _ => none

variable (x : Setup)

def Setup.digest (content : Bytes) : String := (x.hash content).hexdigest

/-- the text of `sha256sum file | awk '{print $1}'`, which is empty where the file is missing -/
def Setup.sha256sum (s : Store) (path : String) : String := ((s.files path).map x.digest).getD ""

/-- the names that `mktemp "${destination}.tmp.XXXXXX"` can draw -/
def Setup.template (suffix : String) : String := x.destination ++ ".tmp." ++ suffix

def mktempSuffix (suffix : String) : Bool :=
  suffix.toList.length = 6 && suffix.toList.all Char.isAlphanum

/-- the `EXIT` trap -/
def leave (p : Process) (s : Store) : Store :=
  match p.temporary with
  | some t => s.remove t
  | none => s

/-- The next thing a run does, `none` where the choice does not concern it. -/
def advance (c : Choice) (p : Process) (s : Store) : Option (Process × Store) :=
  match c with
  | .fails =>
    match p with
    | .ended => none
    -- the trap was taken back
    | .moved _ => some (.ended, s)
    | _ => some (.ended, leave p s)
  | .signal => if p.temporary = none then none else some (p, leave p s)
  | .draw suffix =>
    if p = .fetch ∧ mktempSuffix suffix = true ∧ s.files (x.template suffix) = none then
      some (.downloading (x.template suffix), s.put (x.template suffix) [])
    else none
  | .deliver content =>
    match p with
    | .downloading t => some (p, s.put t content)
    | .trusted =>
      -- `bash "$tool" "$config" | tee "$report"`
      match s.files x.destination with
      | some script => some (.ended, { s.put x.report content with executed := script :: s.executed })
      | none => some (.ended, s.put x.report [])
    | _ => none
  | .go =>
    match p with
    | .downloading t => some (.downloaded t, s)
    | .downloaded t => some (.hashed t (x.sha256sum s t), s)
    | .hashed t actual => some (if actual ≠ expected then (.ended, leave p s) else (.moving t, s))
    | .moving t =>
      match s.files t with
      | some content => some (.moved t, (s.remove t).put x.destination content)
      | none => some (.ended, leave p s)
    | .moved _ => some (.ended, s)
    | .audit => some (if (s.files x.destination).isSome then .audited (x.sha256sum s x.destination)
        else .ended, s)
    | .audited actual => some (if actual ≠ expected then .ended else .trusted, s)
    | _ => none

/-- `mktemp` sees the files that there are; this is about a name whose file a trap has removed: it is
not drawn while a run goes on that still means to use it. -/
def Unused : Choice → Process → Prop
  | .draw suffix, q => q.temporary ≠ some (x.template suffix)
  | _, _ => True

instance : (c : Choice) → (q : Process) → Decidable (Unused x c q)
  | .draw _, _ => inferInstanceAs (Decidable (_ ≠ _))
  | .go, _ => .isTrue trivial
  | .fails, _ => .isTrue trivial
  | .signal, _ => .isTrue trivial
  | .deliver _, _ => .isTrue trivial

/-! ## the invariant -/

/-- The destination holds a script with the pinned digest. -/
def Pinned (s : Store) : Prop :=
  ∃ content, s.files x.destination = some content ∧ x.digest content = expected

/-- The report goes to a file of its own. -/
structure Setup.Separate : Prop where
  destination : x.report ≠ x.destination
  template : ∀ suffix, x.report ≠ x.template suffix

/-- the default paths are separate -/
theorem separate_default (hash : Bytes → Digest) : Setup.Separate { hash := hash } where
  destination := by
    show "/rt7-work/device-dumps/moby-check-merged-config.txt" ≠
      "/rt7-work/downloads/moby-check-config.sh"
    decide
  template suffix h := by
    have htake := congrArg (fun text => text.toList.take 15) h
    simp only [Setup.template, String.toList_append, List.append_assoc] at htake
    rw [List.take_append_of_le_length (by decide)] at htake
    revert htake
    decide

/-- `t` is a name that `mktemp` draws. -/
def Drawn (t : String) : Prop := ∃ suffix, t = x.template suffix

/-- What a run knows about the store. -/
def At : Process → Store → Prop
  | .downloading t, _ => Drawn x t
  | .downloaded t, _ => Drawn x t
  | .hashed t actual, s => Drawn x t ∧ ∀ content, s.files t = some content → x.digest content = actual
  | .moving t, s => Drawn x t ∧ ∀ content, s.files t = some content → x.digest content = expected
  | .moved t, _ => Drawn x t
  | .audited actual, s => actual = expected → Pinned x s
  | .trusted, s => Pinned x s
  | _, _ => True

/-- Two runs have temporary files of their own. -/
def Apart (p q : Process) : Prop := ∀ t, p.temporary = some t → q.temporary ≠ some t

/-- The destination is what it was, or pinned; what was executed is pinned, and so is the destination
from then on. -/
structure Inv (initial : Option Bytes) (s : Store) : Prop where
  destination : s.files x.destination = initial ∨ Pinned x s
  executed : ∀ content ∈ s.executed, x.digest content = expected
  pinned : s.executed ≠ [] → Pinned x s

variable {x} {p p' q : Process} {s s' : Store} {c : Choice} {initial : Option Bytes} {t : String}

theorem template_ne_destination (suffix : String) : x.template suffix ≠ x.destination := by
  intro h
  have hlen := congrArg (fun s => s.toList.length) h
  simp only [Setup.template, String.toList_append, List.length_append] at hlen
  have hdot : ".tmp.".toList.length = 5 := rfl
  omega

theorem At.drawn (h : At x p s) (ht : p.temporary = some t) : Drawn x t := by
  cases p with
  | downloading u => cases ht; exact h
  | downloaded u => cases ht; exact h
  | hashed u actual => cases ht; exact h.1
  | moving u => cases ht; exact h.1
  | moved u => cases ht; exact h
  | _ => cases ht

theorem put_files {path : String} (content : Bytes) {other : String} (h : other ≠ path) :
    (s.put path content).files other = s.files other := Function.update_of_ne h _ _

theorem remove_files {path other : String} (h : other ≠ path) :
    (s.remove path).files other = s.files other := Function.update_of_ne h _ _

theorem leave_files (ht : p.temporary ≠ some t) : (leave p s).files t = s.files t := by
  unfold leave
  split
  · next u hu => exact remove_files fun h => ht (h ▸ hu)
  · rfl

theorem leave_executed (p : Process) (s : Store) : (leave p s).executed = s.executed := by
  unfold leave
  split
  · rfl
  · rfl

/-- What one step changes, as the other runs see it. -/
structure Frame (x : Setup) (c : Choice) (p p' : Process) (s s' : Store) : Prop where
  files : ∀ t, Drawn x t → p.temporary ≠ some t → p'.temporary ≠ some t → s'.files t = s.files t
  pinned : Pinned x s → Pinned x s'
  temporary : ∀ t, p'.temporary = some t → p.temporary = some t ∨ ∃ suffix, c = .draw suffix ∧
    t = x.template suffix

theorem frame_leave (h : At x p s) (c : Choice) (p' : Process)
    (hp' : p'.temporary = none ∨ p' = p) : Frame x c p p' s (leave p s) where
  files t _ ht _ := leave_files ht
  pinned hp := by
    obtain ⟨content, hc, hd⟩ := hp
    refine ⟨content, ?_, hd⟩
    rw [leave_files, hc]
    intro ht
    obtain ⟨suffix, hs⟩ := h.drawn ht
    exact template_ne_destination suffix hs.symm
  temporary t ht := by
    rcases hp' with hnone | rfl
    · rw [hnone] at ht
      cases ht
    · exact Or.inl ht

theorem frame_quiet (c : Choice) (p' : Process)
    (hp' : p'.temporary = none ∨ p'.temporary = p.temporary) : Frame x c p p' s s where
  files _ _ _ _ := rfl
  pinned hp := hp
  temporary t ht := by
    rcases hp' with hnone | hsame
    · rw [hnone] at ht
      cases ht
    · exact Or.inl (hsame ▸ ht)

/-- what one step does, for its own run and for the others -/
structure Effect (x : Setup) (initial : Option Bytes) (c : Choice) (p p' : Process) (s s' : Store) :
    Prop where
  frame : Frame x c p p' s s'
  inv : Inv x initial s'
  stands : At x p' s'

/-- a step that executes nothing and leaves the destination alone, or pins it -/
theorem Inv.keep (h : Inv x initial s) (hframe : Frame x c p p' s s') (hex : s'.executed = s.executed)
    (hdest : s'.files x.destination = s.files x.destination ∨ Pinned x s') : Inv x initial s' where
  destination := by
    rcases hdest with hsame | hpinned
    · exact h.destination.imp (hsame.trans ·) hframe.pinned
    · exact Or.inr hpinned
  executed := by
    rw [hex]
    exact h.executed
  pinned hne := by
    rw [hex] at hne
    exact hframe.pinned (h.pinned hne)

theorem At.destination_ne (h : At x p s) : p.temporary ≠ some x.destination := by
  intro ht
  obtain ⟨suffix, hs⟩ := h.drawn ht
  exact template_ne_destination suffix hs.symm

theorem At.leave (h : At x p s) : At x p (leave p s) := by
  have hgone : ∀ t, p.temporary = some t → ∀ content, (Moby.leave p s).files t ≠ some content := by
    intro t ht content hc
    unfold Moby.leave at hc
    rw [ht] at hc
    rw [show (s.remove t).files t = none from Function.update_self _ _ _] at hc
    cases hc
  cases p with
  | hashed t actual => exact ⟨h.1, fun content hc => absurd hc (hgone t rfl content)⟩
  | moving t => exact ⟨h.1, fun content hc => absurd hc (hgone t rfl content)⟩
  | _ => exact h

theorem effect_leave (hinv : Inv x initial s) (hat : At x p s) {p' : Process}
    (hp' : p' = .ended ∨ p' = p) : Effect x initial c p p' s (leave p s) := by
  have hnone : p'.temporary = none ∨ p' = p := by
    rcases hp' with rfl | hp'
    · exact Or.inl rfl
    · exact Or.inr hp'
  have hframe := frame_leave hat c p' hnone
  refine ⟨hframe, hinv.keep hframe (leave_executed p s) (Or.inl (leave_files hat.destination_ne)), ?_⟩
  rcases hp' with rfl | rfl
  · trivial
  · exact hat.leave

theorem effect_quiet (hinv : Inv x initial s) (hat : At x p' s)
    (hp' : p'.temporary = none ∨ p'.temporary = p.temporary) : Effect x initial c p p' s s where
  frame := frame_quiet c p' hp'
  inv := hinv
  stands := hat

theorem effect_draw (hinv : Inv x initial s) (suffix : String) :
    Effect x initial (.draw suffix) .fetch (.downloading (x.template suffix)) s
      (s.put (x.template suffix) []) := by
  have hdest : (s.put (x.template suffix) []).files x.destination = s.files x.destination :=
    put_files [] (template_ne_destination suffix).symm
  have hframe : Frame x (.draw suffix) .fetch (.downloading (x.template suffix)) s
      (s.put (x.template suffix) []) := {
    files := fun t _ _ ht => put_files [] fun h => ht (congrArg some h.symm)
    pinned := fun hp => by
      obtain ⟨content, hc, hd⟩ := hp
      exact ⟨content, hdest.trans hc, hd⟩
    temporary := fun t ht => by
      cases ht
      exact Or.inr ⟨suffix, rfl, rfl⟩ }
  exact ⟨hframe, hinv.keep hframe rfl (Or.inl hdest), suffix, rfl⟩

/-- a run writes its own temporary file -/
theorem effect_download (hinv : Inv x initial s) (hat : At x (.downloading t) s) (content : Bytes) :
    Effect x initial c (.downloading t) (.downloading t) s (s.put t content) := by
  have hdest : (s.put t content).files x.destination = s.files x.destination :=
    put_files content fun h => hat.destination_ne (congrArg some h.symm)
  have hframe : Frame x c (.downloading t) (.downloading t) s (s.put t content) := {
    files := fun u _ hu _ => put_files content fun h => hu (congrArg some h.symm)
    pinned := fun hp => by
      obtain ⟨script, hc, hd⟩ := hp
      exact ⟨script, hdest.trans hc, hd⟩
    temporary := fun u hu => Or.inl hu }
  exact ⟨hframe, hinv.keep hframe rfl (Or.inl hdest), hat⟩

/-- `mv "$temporary" "$destination"` -/
theorem effect_move (hinv : Inv x initial s) (hat : At x (.moving t) s) {content : Bytes}
    (hc : s.files t = some content) :
    Effect x initial c (.moving t) (.moved t) s ((s.remove t).put x.destination content) := by
  have hpinned : Pinned x ((s.remove t).put x.destination content) :=
    ⟨content, Function.update_self _ _ _, hat.2 content hc⟩
  have hframe : Frame x c (.moving t) (.moved t) s ((s.remove t).put x.destination content) := {
    files := fun u hu hne _ => by
      obtain ⟨suffix, hs⟩ := hu
      have hdest : u ≠ x.destination := hs ▸ template_ne_destination suffix
      rw [put_files content hdest, remove_files fun h => hne (congrArg some h.symm)]
    pinned := fun _ => hpinned
    temporary := fun u hu => Or.inl hu }
  exact ⟨hframe, hinv.keep hframe rfl (Or.inr hpinned), hat.1⟩

/-- `bash "$tool" "$config" | tee "$report"` -/
theorem effect_report (hx : x.Separate) (hinv : Inv x initial s) (hat : Pinned x s)
    (content : Bytes) (ran : List Bytes) (hran : ∀ script ∈ ran, x.digest script = expected) :
    Effect x initial c .trusted .ended s
      { s.put x.report content with executed := ran ++ s.executed } := by
  have hdest : (s.put x.report content).files x.destination = s.files x.destination :=
    put_files content hx.destination.symm
  have hpinned : Pinned x { s.put x.report content with executed := ran ++ s.executed } := by
    obtain ⟨script, hc, hd⟩ := hat
    exact ⟨script, hdest.trans hc, hd⟩
  refine ⟨⟨fun u hu _ _ => put_files content ?_, fun _ => hpinned, ?_⟩,
    ⟨Or.inr hpinned, ?_, fun _ => hpinned⟩, trivial⟩
  · obtain ⟨suffix, hs⟩ := hu
    exact fun h => hx.template suffix (h ▸ hs)
  · intro u hu
    cases hu
  · intro script hs
    rcases List.mem_append.mp hs with hs | hs
    · exact hran script hs
    · exact hinv.executed script hs

theorem effect_go (hinv : Inv x initial s) (hat : At x p s)
    (h : advance x .go p s = some (p', s')) : Effect x initial .go p p' s s' := by
  cases p with
  | downloading t =>
    cases h
    exact effect_quiet hinv hat (Or.inr rfl)
  | downloaded t =>
    cases h
    refine effect_quiet hinv ⟨hat, fun content hc => ?_⟩ (Or.inr rfl)
    rw [Setup.sha256sum, hc]
    rfl
  | hashed t actual =>
    have h := Option.some.inj h
    by_cases hd : actual ≠ expected
    · rw [if_pos hd] at h
      cases h
      exact effect_leave hinv hat (Or.inl rfl)
    · rw [if_neg hd] at h
      cases h
      refine effect_quiet hinv ⟨hat.1, fun content hc => ?_⟩ (Or.inr rfl)
      rw [hat.2 content hc, not_not.mp hd]
  | moving t =>
    rw [advance] at h
    cases hc : s.files t with
    | some content =>
      rw [hc] at h
      cases h
      exact effect_move hinv hat hc
    | none =>
      rw [hc] at h
      cases h
      exact effect_leave hinv hat (Or.inl rfl)
  | moved t =>
    cases h
    exact effect_quiet hinv trivial (Or.inl rfl)
  | audit =>
    cases h
    cases hc : s.files x.destination with
    | none => exact effect_quiet hinv trivial (Or.inl rfl)
    | some content =>
      refine effect_quiet hinv (fun hd => ⟨content, hc, ?_⟩) (Or.inl rfl)
      rw [Setup.sha256sum, hc] at hd
      exact hd
  | audited actual =>
    have h := Option.some.inj h
    by_cases hd : actual ≠ expected
    · rw [if_pos hd] at h
      cases h
      exact effect_quiet hinv trivial (Or.inl rfl)
    · rw [if_neg hd] at h
      cases h
      exact effect_quiet hinv (hat (not_not.mp hd)) (Or.inl rfl)
  | _ => cases h

theorem effect_deliver (hx : x.Separate) (hinv : Inv x initial s) (hat : At x p s) {content : Bytes}
    (h : advance x (.deliver content) p s = some (p', s')) :
    Effect x initial (.deliver content) p p' s s' := by
  cases p with
  | downloading t =>
    cases h
    exact effect_download hinv hat content
  | trusted =>
    rw [advance] at h
    cases hc : s.files x.destination with
    | some script =>
      rw [hc] at h
      cases h
      refine effect_report hx hinv hat content [script] fun ran hran => ?_
      obtain ⟨pinned, hp, hd⟩ := hat
      rw [List.mem_singleton.mp hran, ← hd]
      exact congrArg x.digest (Option.some.inj (hc.symm.trans hp))
    | none =>
      rw [hc] at h
      cases h
      exact effect_report hx hinv hat [] [] fun ran hran => absurd hran List.not_mem_nil
  | _ => cases h

theorem effect_advance (hx : x.Separate) (hinv : Inv x initial s) (hat : At x p s)
    (h : advance x c p s = some (p', s')) : Effect x initial c p p' s s' := by
  cases c with
  | go => exact effect_go hinv hat h
  | deliver content => exact effect_deliver hx hinv hat h
  | fails =>
    cases p with
    | ended => cases h
    | moved t =>
      cases h
      exact effect_quiet hinv trivial (Or.inl rfl)
    | _ =>
      cases h
      exact effect_leave hinv hat (Or.inl rfl)
  | signal =>
    obtain ⟨-, heq⟩ := Option.ite_none_left_eq_some.mp h
    cases heq
    exact effect_leave hinv hat (Or.inr rfl)
  | draw suffix =>
    obtain ⟨⟨rfl, -, -⟩, heq⟩ := Option.ite_none_right_eq_some.mp h
    cases heq
    exact effect_draw hinv suffix

/-- Another run's step leaves a run where it stands. -/
theorem At.frame (hq : At x q s) (hframe : Frame x c p p' s s') (hapart : Apart p q)
    (hapart' : Apart p' q) : At x q s' := by
  have hsame : ∀ t, q.temporary = some t → s'.files t = s.files t := fun t ht =>
    hframe.files t (hq.drawn ht) (fun hp => hapart t hp ht) fun hp => hapart' t hp ht
  cases q with
  | hashed t actual =>
    exact ⟨hq.1, fun content hc => hq.2 content ((hsame t rfl).symm.trans hc)⟩
  | moving t => exact ⟨hq.1, fun content hc => hq.2 content ((hsame t rfl).symm.trans hc)⟩
  | audited actual => exact fun hd => hframe.pinned (hq hd)
  | trusted => exact hframe.pinned hq
  | _ => exact hq

theorem Frame.apart (hframe : Frame x c p p' s s') (hfits : Unused x c q) (hapart : Apart p q) :
    Apart p' q ∧ Apart q p' := by
  have hne : Apart p' q := by
    intro t ht hqt
    rcases hframe.temporary t ht with hp | ⟨suffix, rfl, rfl⟩
    · exact hapart t hp hqt
    · exact hfits hqt
  exact ⟨hne, fun t hqt ht => hne t ht hqt⟩

theorem guarantee (hx : x.Separate) (initial : Option Bytes) :
    Guarantee (Unused x) (advance x) (Inv x initial) (At x) Apart where
  own c p s p' s' hinv hat h := ⟨(effect_advance hx hinv hat h).inv, (effect_advance hx hinv hat h).stands⟩
  others c p s p' s' q hinv hat hq hapart _ hfits h := by
    have hframe := (effect_advance hx hinv hat h).frame
    have hapart' := hframe.apart hfits hapart
    exact ⟨hq.frame hframe hapart hapart'.1, hapart'⟩

/-! ## any number of runs at once -/

/-- Every run is at the start of one of the two scripts, and nothing was executed yet. -/
def Begins {ι : Type} (g : Global ι Process Store) : Prop :=
  (∀ i, g.programs i = .fetch ∨ g.programs i = .audit) ∧ g.shared.executed = []

theorem together_of_begins {ι : Type} {g : Global ι Process Store} (hg : Begins g) :
    Together (Inv x (g.shared.files x.destination)) (At x) Apart g := by
  refine ⟨⟨Or.inl rfl, ?_, fun hne => absurd hg.2 hne⟩, fun i => ?_, fun i j _ t ht => ?_⟩
  · rw [hg.2]
    exact fun script hs => absurd hs List.not_mem_nil
  · rcases hg.1 i with h | h
    · rw [h]
      trivial
    · rw [h]
      trivial
  · rcases hg.1 i with h | h
    · rw [h] at ht
      cases ht
    · rw [h] at ht
      cases ht

/-- a destination that is pinned stays pinned -/
theorem guarantee_pinned (hx : x.Separate) (initial : Option Bytes) :
    Guarantee (Unused x) (advance x) (fun s => Inv x initial s ∧ Pinned x s) (At x) Apart where
  own c p s p' s' hinv hat h := by
    have heffect := effect_advance hx hinv.1 hat h
    exact ⟨⟨heffect.inv, heffect.frame.pinned hinv.2⟩, heffect.stands⟩
  others c p s p' s' q hinv := (guarantee hx initial).others c p s p' s' q hinv.1

/-- **Only the pinned script is ever executed**, and a download is never seen in part: whatever
arrives, whatever fails and in whatever order any number of runs of both scripts take their steps. -/
theorem executed_pinned {ι : Type} [DecidableEq ι] (hx : x.Separate) {g : Global ι Process Store}
    (hg : Begins g) {schedule : List (ι × Choice)}
    (hunused : Along (Unused x) (advance x) schedule g) :
    let s := (interleave (advance x) schedule g).shared
    (∀ script ∈ s.executed, x.digest script = expected) ∧
      (s.files x.destination = g.shared.files x.destination ∨ Pinned x s) ∧
      (s.executed ≠ [] → Pinned x s) ∧
      ∀ later, Along (Unused x) (advance x) (schedule ++ later) g → Pinned x s →
        Pinned x (interleave (advance x) (schedule ++ later) g).shared := by
  have hend := interleave_rule (guarantee hx _) (together_of_begins hg) hunused
  refine ⟨hend.inv.executed, hend.inv.destination, hend.inv.pinned, fun later hlater hp => ?_⟩
  rw [interleave_append]
  have htogether : Together (fun s => Inv x _ s ∧ Pinned x s) (At x) Apart _ :=
    ⟨⟨hend.inv, hp⟩, hend.stands, hend.apart⟩
  exact (interleave_rule (guarantee_pinned hx _) htogether (along_append.mp hlater).2).inv.2

/-! ## two downloads and an audit -/

/-- the bytes of the pinned digest -/
def pinnedDigest : Digest where
  bytes := [0xfd, 0xa4, 0x34, 0x3e, 0x9b, 0x50, 0xc4, 0x78, 0x96, 0x65, 0x3c, 0xa7, 0x74, 0xcc, 0xbe, 0x96,
      0x14, 0xbf, 0xcd, 0xb6, 0x0f, 0x08, 0x0d, 0x2b, 0x62, 0x77, 0xba, 0xf2, 0x7e, 0xfc, 0x0a, 0x71]
  length_eq := rfl

/-- stands for the script that is fetched -/
def sampleScript : Bytes := Text.asciiBytes "#!/usr/bin/env bash"

def sampleSetup : Setup where
  hash content := if content = sampleScript then pinnedDigest else Sha256.sha256 content

def sampleStart : Global (Fin 3) Process Store where
  shared := ⟨fun _ => none, []⟩
  programs i := if i = 2 then .audit else .fetch

/-- The first download is cut off while the second one is published and the audit is at work. -/
def sampleSchedule : List (Fin 3 × Choice) :=
  [(0, .draw "aaaaaa"), (0, .deliver [0x23]), (1, .draw "bbbbbb"), (1, .deliver sampleScript), (1, .go),
    (1, .go), (1, .go), (0, .go), (1, .go), (2, .go), (0, .go), (2, .go), (0, .go),
    (2, .deliver [0x6f, 0x6b])]

theorem executed_pinned_sample :
    (interleave (advance sampleSetup) sampleSchedule sampleStart).shared.executed = [sampleScript] ∧
      ∀ later, Along (Unused sampleSetup) (advance sampleSetup) (sampleSchedule ++ later) sampleStart →
        Pinned sampleSetup
          (interleave (advance sampleSetup) (sampleSchedule ++ later) sampleStart).shared := by
  have hrun : (interleave (advance sampleSetup) sampleSchedule sampleStart).shared.executed
      = [sampleScript] := by decide +kernel
  have hunused : Along (Unused sampleSetup) (advance sampleSetup) sampleSchedule sampleStart := by
    decide +kernel
  have hbegins : Begins sampleStart := by
    refine ⟨fun i => ?_, rfl⟩
    by_cases hi : i = 2
    · exact Or.inr (if_pos hi)
    · exact Or.inl (if_neg hi)
  have hseparate : sampleSetup.Separate := separate_default _
  obtain ⟨-, -, hpinned, hlater⟩ := executed_pinned hseparate hbegins hunused
  refine ⟨hrun, fun later hfits => hlater later hfits (hpinned ?_)⟩
  rw [hrun]
  exact List.cons_ne_nil _ _

end RT7.Kernel.Moby
