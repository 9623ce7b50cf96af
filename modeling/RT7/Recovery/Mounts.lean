import RT7.Base.Path
import Mathlib.Data.List.Infix

/-!
# The mount table of the recovery

* `Mount`, `line`   a mount, and its line in `/proc/mounts`;
* `grep_cgroup`     `grep ' cgroup '` finds the mounts of type `cgroup` and no others;
* `covering`, `mountpoint`   the mount that a path shows, and `mountpoint -q`;
* `bindOf`, `rslave`         `mount --rbind` and `mount -o rslave`;
* `stack`           the mounts at a path, one over the other, as far as no mount above hides them;
* `stack_append`    mounts elsewhere do not change them.
-/

namespace RT7.Recovery

open Text

/-- A mount; `bound` is the directory it was bound from, and `slave` its propagation. -/
structure Mount where
  device : String
  target : PosixPath
  fstype : String
  readOnly : Bool
  options : List String
  bound : Option PosixPath
  slave : Bool
  absolute : target.root ≠ .relative
  bare : ' ' ∉ fstype.toList

/-- the octal escapes of `/proc/mounts` -/
def escape : Char → List Char
  | ' ' => ['\\', '0', '4', '0']
  | '\t' => ['\\', '0', '1', '1']
  | '\n' => ['\\', '0', '1', '2']
  | '\\' => ['\\', '1', '3', '4']
  | c => [c]

def mangle (text : String) : String := String.ofList (text.toList.flatMap escape)

namespace Mount

def optionText (m : Mount) : String :=
  join ',' ((if m.readOnly then "ro" else "rw") :: m.options.map mangle)

/-- the line of `/proc/mounts` -/
def line (m : Mount) : String :=
  join ' ' [mangle m.device, mangle m.target.str, m.fstype, m.optionText, "0", "0"]

end Mount

/-- `grep -q pattern` on one line, for a pattern without special characters -/
def grep (pattern line : String) : Bool := decide (pattern.toList <:+: line.toList)

/-! ## the lines of cgroup mounts -/

theorem blank_not_mem_escape (c : Char) : ' ' ∉ escape c := by
  intro h
  unfold escape at h
  split at h
  · revert h; decide
  · revert h; decide
  · revert h; decide
  · revert h; decide
  · next hblank _ _ _ => exact hblank (List.mem_singleton.mp h).symm

theorem blank_not_mem_mangle (text : String) : ' ' ∉ (mangle text).toList := by
  rw [mangle, String.toList_ofList]
  intro h
  obtain ⟨c, -, hc⟩ := List.mem_flatMap.mp h
  exact blank_not_mem_escape c hc

theorem head_mangle {text : String} (h : text.toList.head? = some '/') :
    (mangle text).toList.head? = some '/' := by
  rw [mangle, String.toList_ofList]
  obtain ⟨cs, hcs⟩ := List.head?_eq_some_iff.mp h
  rw [hcs]
  rfl

namespace Mount
variable (m : Mount)

theorem blank_not_mem_optionText : ' ' ∉ m.optionText.toList := by
  intro h
  rcases mem_join.mp h with ⟨s, hs, hc⟩ | ⟨h, -⟩
  · cases hs with
    | head =>
      revert hc
      cases m.readOnly with
      | true => decide
      | false => decide
    | tail _ hs =>
      obtain ⟨option, -, rfl⟩ := List.mem_map.mp hs
      exact blank_not_mem_mangle option hc
  · revert h
    decide

theorem head_optionText : m.optionText.toList.head? = some 'r' := by
  rw [optionText]
  cases m.options.map mangle with
  | nil =>
    rw [join_singleton]
    cases m.readOnly with
    | true => rfl
    | false => rfl
  | cons option rest =>
    rw [toList_join_cons_cons]
    cases m.readOnly with
    | true => rfl
    | false => rfl

theorem split_line :
    split ' ' m.line = [mangle m.device, mangle m.target.str, m.fstype, m.optionText, "0", "0"] := by
  refine split_join (List.cons_ne_nil _ _) fun s hs => ?_
  have hzero : ' ' ∉ "0".toList := by decide
  simp only [List.mem_cons, List.not_mem_nil, or_false] at hs
  rcases hs with rfl | rfl | rfl | rfl | rfl | rfl
  · exact blank_not_mem_mangle m.device
  · exact blank_not_mem_mangle m.target.str
  · exact m.bare
  · exact m.blank_not_mem_optionText
  · exact hzero
  · exact hzero

end Mount

/-- a word between two blanks is a field with fields on both sides -/
theorem grep_word {word line : String} (hw : ' ' ∉ word.toList) :
    grep (" " ++ word ++ " ") line = true ↔
      ∃ front back, front ≠ [] ∧ back ≠ [] ∧ split ' ' line = front ++ word :: back := by
  have hone : split ' ' word = [word] := by
    have e := split_join (List.cons_ne_nil word []) (c := ' ') fun s hs => by
      rw [List.mem_singleton.mp hs]
      exact hw
    rwa [join_singleton] at e
  rw [grep, decide_eq_true_iff]
  constructor
  · rintro ⟨pre, suf, h⟩
    have hline : line = String.ofList pre ++ String.singleton ' ' ++
        (word ++ String.singleton ' ' ++ String.ofList suf) := by
      rw [← String.toList_inj, ← h]
      simp [String.toList_append]
    refine ⟨split ' ' (String.ofList pre), split ' ' (String.ofList suf), split_ne_nil _ _,
      split_ne_nil _ _, ?_⟩
    rw [hline, split_append, split_append, hone, List.singleton_append]
  · rintro ⟨front, back, hf, hb, h⟩
    have hline : line = join ' ' front ++ String.singleton ' ' ++
        (word ++ String.singleton ' ' ++ join ' ' back) := by
      rw [← join_split ' ' line, h, join_append hf (List.cons_ne_nil word back),
        ← List.singleton_append, join_append (List.cons_ne_nil word []) hb, join_singleton]
    refine ⟨(join ' ' front).toList, (join ' ' back).toList, ?_⟩
    rw [hline]
    simp [String.toList_append]

theorem mangle_target_ne_cgroup (m : Mount) : mangle m.target.str ≠ "cgroup" := by
  intro h
  have hhead := head_mangle (m.target.head_str m.absolute)
  rw [h] at hhead
  revert hhead
  decide

theorem optionText_ne_cgroup (m : Mount) : m.optionText ≠ "cgroup" := by
  intro h
  have hhead := m.head_optionText
  rw [h] at hhead
  revert hhead
  decide

/-- `grep -q ' cgroup '` on the line of a mount -/
theorem grep_cgroup (m : Mount) : grep " cgroup " m.line = true ↔ m.fstype = "cgroup" := by
  have hword : ' ' ∉ "cgroup".toList := by decide
  have hzero : "0" ≠ "cgroup" := by decide
  show grep (" " ++ "cgroup" ++ " ") m.line = true ↔ _
  rw [grep_word hword, m.split_line]
  constructor
  · rintro ⟨front, back, hf, -, h⟩
    obtain ⟨device, front, rfl⟩ := List.exists_cons_of_ne_nil hf
    rw [List.cons_append, List.cons.injEq] at h
    have hmem : "cgroup" ∈ [mangle m.target.str, m.fstype, m.optionText, "0", "0"] := by
      rw [h.2]
      exact List.mem_append_right front List.mem_cons_self
    simp only [List.mem_cons, List.not_mem_nil, or_false] at hmem
    rcases hmem with h | h | h | h | h
    · exact absurd h.symm (mangle_target_ne_cgroup m)
    · exact h.symm
    · exact absurd h.symm (optionText_ne_cgroup m)
    · exact absurd h.symm hzero
    · exact absurd h.symm hzero
  · intro h
    rw [h]
    exact ⟨[mangle m.device, mangle m.target.str], [m.optionText, "0", "0"], List.cons_ne_nil _ _,
      List.cons_ne_nil _ _, rfl⟩

/-! ## what a path shows -/

/-- A mount at `p` stands over `q`. -/
def Covers (p q : PosixPath) : Prop := p = q ∨ p ∈ q.parents

instance (p q : PosixPath) : Decidable (Covers p q) := inferInstanceAs (Decidable (_ ∨ _))

/-- The mount that a path shows; the newest mount is the first of the list. -/
def covering (mounts : List Mount) (path : PosixPath) : Option Mount :=
  mounts.find? fun m => Covers m.target path

/-- `mountpoint -q path` -/
def mountpoint (mounts : List Mount) (path : PosixPath) : Bool :=
  (covering mounts path).any fun m => m.target = path

/-- `mount --rbind source target`; it does not carry the mounts below the source. -/
def bindOf (mounts : List Mount) (source target : PosixPath) (h : target.root ≠ .relative) :
    Option Mount :=
  (covering mounts source).map fun m =>
    { m with target := target, bound := some source, slave := false, absolute := h }

/-- the mount at the target and the mounts below it become slaves -/
def markSlave (target : PosixPath) : List Mount → List Mount
  | [] => []
  | m :: mounts =>
    if m.target = target then { m with slave := true } :: mounts
    else if target ∈ m.target.parents then { m with slave := true } :: markSlave target mounts
    else m :: markSlave target mounts

/-- `mount -o rslave none target` -/
def rslave (mounts : List Mount) (target : PosixPath) : Option (List Mount) :=
  if mountpoint mounts target then some (markSlave target mounts) else none

/-- The mounts at a path, the newest first, down to the first mount over a directory above it. -/
def stack (mounts : List Mount) (path : PosixPath) : List Mount :=
  (mounts.takeWhile fun m => m.target ∉ path.parents).filter fun m => m.target = path

section stack
variable {m : Mount} {mounts new : List Mount} {path : PosixPath}

theorem stack_cons_above (h : m.target ∈ path.parents) : stack (m :: mounts) path = [] := by
  have hd : decide (m.target ∉ path.parents) = false := decide_eq_false (not_not_intro h)
  rw [stack, List.takeWhile_cons, hd]
  rfl

theorem stack_cons_at (h : m.target = path) (ha : m.target ∉ path.parents) :
    stack (m :: mounts) path = m :: stack mounts path := by
  rw [stack, List.takeWhile_cons, decide_eq_true ha, if_pos rfl, List.filter_cons, if_pos]
  · rfl
  · exact decide_eq_true h

theorem stack_cons_apart (h : ¬ Covers m.target path) :
    stack (m :: mounts) path = stack mounts path := by
  obtain ⟨hne, ha⟩ := not_or.mp h
  rw [stack, List.takeWhile_cons, decide_eq_true ha, if_pos rfl, List.filter_cons, if_neg]
  · rfl
  · exact fun h => hne (of_decide_eq_true h)

/-- Mounts elsewhere do not change what stands at a path. -/
theorem stack_append (h : ∀ m ∈ new, ¬ Covers m.target path) :
    stack (new ++ mounts) path = stack mounts path := by
  induction new with
  | nil => rfl
  | cons m new ih =>
    rw [List.cons_append, stack_cons_apart (h m List.mem_cons_self)]
    exact ih fun m' hm' => h m' (List.mem_cons_of_mem m hm')

theorem not_mem_parents_self (path : PosixPath) : path ∉ path.parents := by
  intro h
  exact (PosixPath.mem_parents.mp h).2.2 rfl

/-- A path is a mount point when a mount stands there that is not hidden. -/
theorem mountpoint_iff : mountpoint mounts path = true ↔ stack mounts path ≠ [] := by
  induction mounts with
  | nil => exact ⟨fun h => absurd h Bool.false_ne_true, fun h => absurd rfl h⟩
  | cons m mounts ih =>
    rw [mountpoint, covering, List.find?_cons]
    by_cases hat : m.target = path
    · have ha : m.target ∉ path.parents := hat ▸ not_mem_parents_self path
      rw [decide_eq_true (show Covers m.target path from Or.inl hat), stack_cons_at hat ha]
      exact ⟨fun _ => List.cons_ne_nil _ _, fun _ => decide_eq_true hat⟩
    · by_cases ha : m.target ∈ path.parents
      · rw [decide_eq_true (show Covers m.target path from Or.inr ha), stack_cons_above ha]
        exact ⟨fun h => absurd (of_decide_eq_true h) hat, fun h => absurd rfl h⟩
      · have hc : ¬ Covers m.target path := not_or.mpr ⟨hat, ha⟩
        rw [decide_eq_false hc, stack_cons_apart hc]
        exact ih

theorem mountpoint_eq_false : mountpoint mounts path = false ↔ stack mounts path = [] := by
  rw [Bool.eq_false_iff, ne_eq, mountpoint_iff, not_not]

theorem mountpoint_congr {mounts' : List Mount} (h : stack mounts' path = stack mounts path) :
    mountpoint mounts' path = mountpoint mounts path := by
  rw [Bool.eq_iff_iff, mountpoint_iff, mountpoint_iff, h]

theorem mountpoint_cons (h : m.target = path) : mountpoint (m :: mounts) path = true := by
  rw [mountpoint_iff, stack_cons_at h (h ▸ not_mem_parents_self m.target)]
  exact List.cons_ne_nil _ _

end stack

/-- a new bind mount is made a slave, and nothing else -/
theorem rslave_cons {m : Mount} {mounts : List Mount} {target : PosixPath}
    (h : m.target = target) :
    rslave (m :: mounts) target = some ({ m with slave := true } :: mounts) := by
  rw [rslave, if_pos (mountpoint_cons h), markSlave, if_pos h]

end RT7.Recovery
