import RT7.Base.Python
import RT7.Base.Shell
import Mathlib.Data.List.Perm.Subperm

/-!
# Runs that are killed, and started again

* `forEach`   one command for each of some items; `Stops.of_forEach` is what it leaves when it is cut
  off;
* `Holds files members`   the files hold everything that some members unpack to;
* `Runs script Clear s₀`  the states that runs leave one after the other, when those that do not end
  well leave a clear one;
* `Runs.clear`, `Runs.imp`   a step rule for them, and a weaker condition;
* `Installer`             a script that judges a whole directory from one mark in it, with
  `Installer.sound`: killed at any other moment, it is never taken for complete when it is not.
-/

namespace RT7

namespace Shell

variable {σ ε ι κ : Type} {write : ι → σ → σ} {items : List ι} {s t : σ} {e e' : ε}

/-- one command after the other, each of which fails only when it is made to -/
def forEach (e : ε) (write : ι → σ → σ) (items : List ι) : Shell σ ε Unit :=
  inSequence (items.map fun i => act e fun s => some (write i s))

theorem Yields.of_forEach (h : Yields (forEach e write items) s () t) :
    t = items.foldl (fun s i => write i s) s := by
  induction items generalizing s with
  | nil => exact h.of_pure.2
  | cons i items ih =>
    obtain ⟨r, hi, hrest⟩ := Yields.of_then h
    have hr : r = write i s := hi.of_act_some
    subst hr
    exact ih hrest

/-- The first `k` items are done. -/
theorem Stops.of_forEach (h : Stops (forEach e write items) s e' t) :
    e' = e ∧ ∃ k < items.length, t = (items.take k).foldl (fun s i => write i s) s := by
  induction items generalizing s with
  | nil => exact absurd h not_stops_pure
  | cons i items ih =>
    rcases Stops.of_then h with hi | ⟨r, hi, hrest⟩
    · exact ⟨hi.of_act.1, 0, Nat.succ_pos items.length, hi.of_act.2⟩
    · have hr : r = write i s := hi.of_act_some
      subst hr
      obtain ⟨he, k, hk, ht⟩ := ih hrest
      exact ⟨he, k + 1, Nat.succ_lt_succ hk, ht⟩

/-! ## sequences of runs -/

/-- The states that runs leave, one run after the other; `script i` is what the run `i` executes. -/
inductive Runs (script : ι → Shell σ ε Unit) (Clear : σ → Prop) (s₀ : σ) : σ → Prop
  | start : Runs script Clear s₀ s₀
  | run {s : σ} (before : Runs script Clear s₀ s) (i : ι) (fails : Nat → Bool) (n : Nat)
      (clear : ∀ e t, script i fails n s = .stopped e t → Clear t) :
      Runs script Clear s₀ (script i fails n s).state

theorem Runs.clear {script : ι → Shell σ ε Unit} {Clear : σ → Prop} {s₀ : σ}
    (h : Runs script Clear s₀ s) (hstart : Clear s₀)
    (hdone : ∀ i s t, Clear s → Yields (script i) s () t → Clear t) : Clear s := by
  induction h with
  | start => exact hstart
  | @run s before i fails n clear ih =>
    cases hrun : script i fails n s with
    | done a k t => exact hdone i s t ih ⟨fails, n, k, hrun⟩
    | stopped e t => exact clear e t hrun

theorem Runs.imp {script : ι → Shell σ ε Unit} {Clear Clear' : σ → Prop} {s₀ : σ}
    (h : Runs script Clear s₀ s)
    (himp : ∀ t, Runs script (fun _ => True) s₀ t → Clear t → Clear' t) :
    Runs script Clear' s₀ s ∧ Runs script (fun _ => True) s₀ s := by
  induction h with
  | start => exact ⟨Runs.start, Runs.start⟩
  | @run s before i fails n clear ih =>
    have hreach : Runs script (fun _ => True) s₀ (script i fails n s).state :=
      ih.2.run i fails n fun _ _ _ => trivial
    refine ⟨ih.1.run i fails n fun e t ht => ?_, hreach⟩
    rw [ht] at hreach
    exact himp t hreach (clear e t ht)

/-! ## scripts that do nothing where their work is already done -/

/-- `marked` is what the script takes for the sign of a complete installation. -/
structure Installer (ι σ ε : Type) where
  script : ι → Shell σ ε Unit
  marked : σ → Prop
  complete : σ → Prop
  ends : ∀ {i s t}, Yields (script i) s () t → (marked s ∧ t = s) ∨ complete t
  skips : ∀ i {s}, marked s → ∃ k, (script i).undisturbed s = .done () k s

namespace Installer
variable {x : Installer ι σ ε} {s₀ : σ} {i : ι}

def Misleads (x : Installer ι σ ε) (s : σ) : Prop := x.marked s ∧ ¬ x.complete s

theorem complete_of_yields (hs : ¬ x.Misleads s) (h : Yields (x.script i) s () t) : x.complete t := by
  rcases x.ends h with ⟨hmarked, rfl⟩ | hcomplete
  · by_contra hn
    exact hs ⟨hmarked, hn⟩
  · exact hcomplete

/-- The runs that are trusted are right exactly where the mark does not mislead. -/
theorem trusted_iff [Nonempty ι] :
    (∀ i t, Yields (x.script i) s () t → x.complete t) ↔ ¬ x.Misleads s := by
  refine ⟨fun h hmislead => ?_, fun hs i t h => ?_⟩
  · obtain ⟨i⟩ := (inferInstance : Nonempty ι)
    obtain ⟨k, hk⟩ := x.skips i hmislead.1
    exact hmislead.2 (h i s ⟨_, 0, k, hk⟩)
  · exact complete_of_yields hs h

/-- **When no run is killed where the mark misleads, every run that ends well leaves everything.** -/
theorem sound (hstart : ¬ x.Misleads s₀) (h : Runs x.script (fun s => ¬ x.Misleads s) s₀ s)
    (hrun : Yields (x.script i) s () t) : x.complete t := by
  refine complete_of_yields (h.clear hstart ?_) hrun
  intro i s t hs hrun hmislead
  exact hmislead.2 (complete_of_yields hs hrun)

end Installer

end Shell

/-! ## directories that are filled -/

section files
open Py
variable {κ ν : Type}

/-- The files hold everything that the members unpack to. -/
def Holds [DecidableEq κ] (files : Dict κ ν) (members : List (κ × ν)) : Prop :=
  ∀ path node, (Dict.empty.setAll members).get? path = some node → files.get? path = some node

theorem holds_setAll [DecidableEq κ] (members : List (κ × ν)) :
    Holds (Dict.empty.setAll members) members := fun _ _ h => h

theorem eq_empty_of_isEmpty {files : Dict κ ν} (h : (!files.items.isEmpty) = false) :
    files = Dict.empty := by
  rw [Bool.not_eq_false', List.isEmpty_iff] at h
  exact Dict.ext h

end files

end RT7
