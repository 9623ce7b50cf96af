import RT7.Base.Casing
import RT7.Base.Python

/-!
# Windows paths of the copy script: `Get-RelativeArtifactPath`

* `SourceRoot`      the resolved source directory: a drive letter and plain components;
* `getFullPath`     `[IO.Path]::GetFullPath`, which resolves `.` and `..`;
* `getRelativeArtifactPath`   the function of the script;
* `segmentsOf_getFullPath`    the components of a path below the source, once normalised;
* `getRelativeArtifactPath_confined`   whatever the listed path, an accepted one stays beneath the
  source directory.
-/

namespace RT7.Copy

open Py Text

/-- What ends the script. -/
inductive Fault where
  | throw (message : String)
  | terminating (operation : String)
  deriving DecidableEq, Repr

/-- A component that normalisation leaves alone. -/
def PlainSegment (s : String) : Prop := s ≠ "" ∧ s ≠ "." ∧ s ≠ ".." ∧ '\\' ∉ s.toList

instance (s : String) : Decidable (PlainSegment s) := inferInstanceAs (Decidable (_ ∧ _ ∧ _ ∧ _))

/-- The path of `Resolve-Path`, which may keep a separator at its end. -/
structure SourceRoot where
  letter : Char
  parts : List String
  trailing : Bool
  alpha : letter.isAlpha = true
  plain : ∀ s ∈ parts, PlainSegment s

namespace SourceRoot
variable (root : SourceRoot)

def drive : String := String.ofList [root.letter, ':']

/-- the path without a separator at its end -/
def bare : String := join '\\' (root.drive :: root.parts)

def text : String := if root.parts = [] ∨ root.trailing then root.bare ++ "\\" else root.bare

end SourceRoot

/-- `text.Replace(old, new)` -/
def replace (old new : Char) (s : String) : String :=
  String.ofList (s.toList.map fun c => if c = old then new else c)

/-- `text.TrimEnd(c)` -/
def trimEnd (c : Char) (s : String) : String :=
  String.ofList (s.toList.reverse.dropWhile fun d => d = c).reverse

/-- `Join-Path` -/
def joinPath (path child : String) : String :=
  if path.toList.getLast? = some '\\' then path ++ child else path ++ "\\" ++ child

/-- `[IO.Path]::IsPathRooted` -/
def isPathRooted (path : String) : Bool :=
  match path.toList with
  | [] => false
  | c :: rest => c = '\\' || c = '/' || (c.isAlpha && rest.head? = some ':')

/-- one component of a path; the latest component kept is on top -/
def pushSegment (stack : List String) (s : String) : List String :=
  if s = "" ∨ s = "." then stack else if s = ".." then stack.tail else s :: stack

def normalize (segments : List String) : List String := (segments.foldl pushSegment []).reverse

/-- `[IO.Path]::GetFullPath` of a path that begins with a drive -/
def getFullPath (path : String) : String :=
  match split '\\' path with
  | [] => path
  | drive :: segments =>
    let kept := normalize segments
    let full := drive ++ "\\" ++ join '\\' kept
    if kept ≠ [] ∧ segments.getLast? = some "" then full ++ "\\" else full

/-- the components below the drive -/
def segmentsOf (path : String) : List String := ((split '\\' path).drop 1).filter fun s => s ≠ ""

def getRelativeArtifactPath (cs : Casing) (root : SourceRoot) (manifestPath : String) :
    Except Fault String := do
  raiseIf (isPathRooted manifestPath)
    (.throw s!"Checksum manifest contains an absolute path: {manifestPath}")
  let nativePath := replace '/' '\\' manifestPath
  let fullPath := getFullPath (joinPath root.text nativePath)
  let pre := trimEnd '\\' root.text ++ "\\"
  raiseIf ((cs.key pre).isPrefixOf (cs.key fullPath) = false)
    (.throw s!"Checksum manifest path escapes the capture directory: {manifestPath}")
  return fullPath

/-! ## another separator -/

theorem toList_replace (old new : Char) (s : String) :
    (replace old new s).toList = s.toList.map fun c => if c = old then new else c :=
  String.toList_ofList

theorem map_replace_of_not_mem {old new : Char} {s : List Char} (h : old ∉ s) :
    (s.map fun c => if c = old then new else c) = s := by
  refine Eq.trans (List.map_congr_left fun c hc => ?_) (List.map_id _)
  exact if_neg fun (e : c = old) => h (e ▸ hc)

theorem replace_of_not_mem {old new : Char} {s : String} (h : old ∉ s.toList) :
    replace old new s = s := by
  rw [← String.toList_inj, toList_replace, map_replace_of_not_mem h]

/-- the same pieces with another separator -/
theorem replace_join {old new : Char} {l : List String} (h : ∀ s ∈ l, old ∉ s.toList) :
    replace old new (join old l) = join new l := by
  induction l with
  | nil => rfl
  | cons x l ih =>
    have hx := h x List.mem_cons_self
    have hl : ∀ s ∈ l, old ∉ s.toList := fun s hs => h s (List.mem_cons_of_mem x hs)
    cases l with
    | nil => rw [join_singleton, join_singleton, replace_of_not_mem hx]
    | cons y l =>
      rw [← String.toList_inj, toList_replace, toList_join_cons_cons, toList_join_cons_cons,
        List.map_append, List.map_cons, map_replace_of_not_mem hx, ← toList_replace, ih hl,
        if_pos rfl]

/-! ## the text of the root -/

namespace SourceRoot
variable (root : SourceRoot)

theorem drive_ok : '\\' ∉ root.drive.toList := by
  have h := root.alpha
  intro hm
  rw [drive, String.toList_ofList] at hm
  cases List.mem_cons.mp hm with
  | inl e =>
    rw [← e] at h
    exact absurd h (by decide)
  | inr hm => exact absurd (List.mem_singleton.mp hm) (by decide)

theorem noSep_pieces : ∀ s ∈ root.drive :: root.parts, '\\' ∉ s.toList := by
  intro s hs
  cases hs with
  | head => exact root.drive_ok
  | tail _ hs => exact (root.plain s hs).2.2.2

theorem split_bare : split '\\' root.bare = root.drive :: root.parts :=
  split_join (List.cons_ne_nil _ _) root.noSep_pieces

/-- the text does not end in a separator -/
theorem getLast_bare : ∃ front c, root.bare.toList = front ++ [c] ∧ c ≠ '\\' := by
  obtain ⟨l, s, hl⟩ :=
    (List.eq_nil_or_concat (root.drive :: root.parts)).resolve_left (List.cons_ne_nil _ _)
  rw [List.concat_eq_append] at hl
  have hmem : s ∈ root.drive :: root.parts := by simp [hl]
  have hsep := root.noSep_pieces s hmem
  have hne : s.toList ≠ [] := by
    cases hmem with
    | head =>
      rw [drive, String.toList_ofList]
      exact List.cons_ne_nil _ _
    | tail _ hm => exact fun e => (root.plain s hm).1 (String.toList_eq_nil_iff.mp e)
  obtain ⟨f, c, hc⟩ := (List.eq_nil_or_concat s.toList).resolve_left hne
  rw [List.concat_eq_append] at hc
  have hcs : c ≠ '\\' := fun e => hsep (by simp [hc, e])
  rw [bare, hl]
  cases l with
  | nil => exact ⟨f, c, by rw [List.nil_append, join_singleton, hc], hcs⟩
  | cons x xs =>
    refine ⟨(join '\\' (x :: xs) ++ String.singleton '\\').toList ++ f, c, ?_, hcs⟩
    rw [join_concat '\\' (List.cons_ne_nil x xs), String.toList_append, hc, List.append_assoc]

theorem trimEnd_text : trimEnd '\\' root.text = root.bare := by
  obtain ⟨front, c, hl, hc⟩ := root.getLast_bare
  have hbare : (root.bare.toList.reverse.dropWhile fun d => decide (d = '\\'))
      = root.bare.toList.reverse := by
    rw [hl, List.reverse_append]
    exact List.dropWhile_cons_of_neg (by simpa using hc)
  rw [← String.toList_inj, trimEnd, String.toList_ofList, text]
  split_ifs with h
  · rw [String.toList_append, List.reverse_append]
    show ('\\' :: root.bare.toList.reverse |>.dropWhile _).reverse = _
    rw [List.dropWhile_cons_of_pos (by simp), hbare, List.reverse_reverse]
  · rw [hbare, List.reverse_reverse]

theorem joinPath_text (child : String) : joinPath root.text child = root.bare ++ "\\" ++ child := by
  obtain ⟨front, c, hl, hc⟩ := root.getLast_bare
  rw [joinPath, text]
  by_cases h : root.parts = [] ∨ root.trailing = true
  · rw [if_pos h, if_pos]
    rw [String.toList_append]
    exact List.getLast?_concat
  · rw [if_neg h, if_neg]
    rw [hl, List.getLast?_concat]
    exact fun e => hc (Option.some.inj e)

end SourceRoot

/-! ## normalised paths -/

theorem split_append_sep (c : Char) (s t : String) :
    split c (s ++ String.singleton c ++ t) = split c s ++ split c t := by
  rw [split, String.toList_append, String.toList_append, String.toList_singleton, List.append_assoc]
  show ((s.toList ++ c :: t.toList).splitOn c).map String.ofList = _
  rw [List.splitOn_append_cons_self, List.map_append]
  rfl

theorem mem_foldl_push {stack segments : List String} {s : String}
    (h : s ∈ segments.foldl pushSegment stack) :
    s ∈ stack ∨ (s ∈ segments ∧ s ≠ "") := by
  induction segments generalizing stack with
  | nil => exact .inl h
  | cons x segments ih =>
    cases ih h with
    | inr h => exact .inr ⟨List.mem_cons_of_mem x h.1, h.2⟩
    | inl h =>
      unfold pushSegment at h
      split_ifs at h with h1 h2
      · exact .inl h
      · exact .inl (List.mem_of_mem_tail h)
      · cases h with
        | head => exact .inr ⟨List.mem_cons_self, fun e => h1 (.inl e)⟩
        | tail _ h => exact .inl h

theorem mem_normalize {segments : List String} {s : String} (h : s ∈ normalize segments) :
    s ∈ segments ∧ s ≠ "" :=
  (mem_foldl_push (List.mem_reverse.mp h)).resolve_left List.not_mem_nil

theorem foldl_push_plain {parts : List String} (h : ∀ s ∈ parts, PlainSegment s)
    (stack : List String) : parts.foldl pushSegment stack = parts.reverse ++ stack := by
  induction parts generalizing stack with
  | nil => rfl
  | cons x parts ih =>
    have hx := h x List.mem_cons_self
    have e : pushSegment stack x = x :: stack := by
      rw [pushSegment, if_neg (not_or.mpr ⟨hx.1, hx.2.1⟩), if_neg hx.2.2.1]
    rw [List.foldl_cons, e, ih (fun s hs => h s (List.mem_cons_of_mem x hs)), List.reverse_cons,
      List.append_assoc]
    rfl

/-- the components of a normalised path -/
theorem segmentsOf_getFullPath {drive : String} {segments : List String}
    (hd : '\\' ∉ drive.toList) (hs : ∀ s ∈ segments, '\\' ∉ s.toList) :
    segmentsOf (getFullPath (join '\\' (drive :: segments))) = normalize segments := by
  have hsplit : split '\\' (join '\\' (drive :: segments)) = drive :: segments := by
    refine split_join (List.cons_ne_nil _ _) ?_
    intro s hm
    cases hm with
    | head => exact hd
    | tail _ hm => exact hs s hm
  have hkept : ∀ s ∈ normalize segments, '\\' ∉ s.toList := fun s h => hs s (mem_normalize h).1
  have hfilter : (normalize segments).filter (fun s => decide (s ≠ "")) = normalize segments :=
    List.filter_eq_self.mpr fun s h => decide_eq_true (mem_normalize h).2
  have hsep : "\\" = String.singleton '\\' := rfl
  have hdrive : split '\\' drive = [drive] := by
    rw [← join_singleton '\\' drive, split_join (List.cons_ne_nil _ _), join_singleton]
    intro s hm
    rw [List.mem_singleton.mp hm]
    exact hd
  have hbody : (split '\\' (join '\\' (normalize segments))).filter (fun s => decide (s ≠ ""))
      = normalize segments := by
    cases hk : normalize segments with
    | nil => decide
    | cons x xs =>
      rw [hk] at hkept hfilter
      rw [split_join (List.cons_ne_nil x xs) hkept, hfilter]
  have hempty : (split '\\' "").filter (fun s => decide (s ≠ "")) = [] := by decide
  rw [getFullPath, hsplit]
  dsimp only
  split_ifs with h
  · rw [segmentsOf, hsep, ← String.append_empty (s := drive ++ _ ++ _ ++ _), split_append_sep,
      split_append_sep, hdrive]
    show (split '\\' (join '\\' (normalize segments)) ++ split '\\' "").filter _ = _
    rw [List.filter_append, hbody, hempty, List.append_nil]
  · rw [segmentsOf, hsep, split_append_sep, hdrive]
    exact hbody

/-! ## the paths that the script asks for -/

section
variable {cs : Casing} {root : SourceRoot}

/-- the components of the path below the source that a listed path names -/
theorem segmentsOf_child (child : String) :
    segmentsOf (getFullPath (joinPath root.text child)) =
      ((split '\\' child).foldl pushSegment root.parts.reverse).reverse := by
  have hsep : "\\" = String.singleton '\\' := rfl
  have hjoin : root.bare ++ "\\" ++ child
      = join '\\' (root.drive :: (root.parts ++ split '\\' child)) := by
    rw [← join_split '\\' (root.bare ++ "\\" ++ child), hsep, split_append_sep, root.split_bare]
    rfl
  have hall : ∀ s ∈ root.parts ++ split '\\' child, '\\' ∉ s.toList := by
    intro s hs
    cases List.mem_append.mp hs with
    | inl hs => exact (root.plain s hs).2.2.2
    | inr hs => exact not_mem_of_mem_split hs
  rw [root.joinPath_text, hjoin, segmentsOf_getFullPath root.drive_ok hall, normalize,
    List.foldl_append, foldl_push_plain root.plain, List.append_nil]

theorem getRelativeArtifactPath_eq_ok {manifestPath full : String} :
    getRelativeArtifactPath cs root manifestPath = .ok full ↔
      isPathRooted manifestPath = false ∧
      cs.key (root.bare ++ "\\") <+: cs.key full ∧
      full = getFullPath (joinPath root.text (replace '/' '\\' manifestPath)) := by
  unfold getRelativeArtifactPath
  simp only [raiseIf_bind_eq_ok, pure_eq_ok, Bool.not_eq_true, Bool.not_eq_false,
    List.isPrefixOf_iff_prefix, root.trimEnd_text]
  constructor
  · rintro ⟨h1, h2, rfl⟩
    exact ⟨h1, h2, rfl⟩
  · rintro ⟨h1, h2, rfl⟩
    exact ⟨h1, h2, rfl⟩

/-- plain components below the source -/
theorem getFullPath_child (root : SourceRoot) {segments : List String} (hne : segments ≠ [])
    (hplain : ∀ s ∈ segments, PlainSegment s) :
    getFullPath (joinPath root.text (join '\\' segments))
      = root.bare ++ "\\" ++ join '\\' segments := by
  have hall : ∀ s ∈ root.parts ++ segments, PlainSegment s :=
    List.forall_mem_append.mpr ⟨root.plain, hplain⟩
  have hsplit : split '\\' (root.bare ++ "\\" ++ join '\\' segments)
      = root.drive :: (root.parts ++ segments) := by
    show split '\\' (root.bare ++ String.singleton '\\' ++ _) = _
    rw [split_append_sep, root.split_bare, split_join hne fun s hs => (hplain s hs).2.2.2]
    rfl
  have hkept : normalize (root.parts ++ segments) = root.parts ++ segments := by
    rw [normalize, foldl_push_plain hall, List.append_nil, List.reverse_reverse]
  have hlast : (root.parts ++ segments).getLast? ≠ some "" := by
    intro e
    exact (hall "" (List.mem_of_getLast? e)).1 rfl
  rw [root.joinPath_text, getFullPath, hsplit]
  dsimp only
  rw [hkept, if_neg (fun h => hlast h.2)]
  have hjoin := join_split '\\' (root.bare ++ "\\" ++ join '\\' segments)
  rw [hsplit] at hjoin
  rw [← hjoin]
  obtain ⟨x, xs, hx⟩ := List.exists_cons_of_ne_nil
    (List.append_ne_nil_of_right_ne_nil root.parts hne)
  rw [hx, join_cons_cons]
  rfl

/-- a file of the source itself -/
theorem segmentsOf_joinPath {name : String} (h : PlainSegment name) :
    segmentsOf (joinPath root.text name) = root.parts ++ [name] := by
  have hplain : ∀ s ∈ [name], PlainSegment s := by
    intro s hs
    rw [List.mem_singleton.mp hs]
    exact h
  have hfull := getFullPath_child root (List.cons_ne_nil name []) hplain
  have hsplit := split_join (List.cons_ne_nil name []) fun s hs => (hplain s hs).2.2.2
  rw [join_singleton] at hfull hsplit
  rw [root.joinPath_text, ← hfull, segmentsOf_child, hsplit, foldl_push_plain hplain,
    List.reverse_append, List.reverse_reverse]
  rfl

/-- a listed path of plain components is accepted, and leads below the source -/
theorem getRelativeArtifactPath_plain (cs : Casing) (root : SourceRoot) {segments : List String} (hne : segments ≠ [])
    (hplain : ∀ s ∈ segments, PlainSegment s) (hslash : ∀ s ∈ segments, '/' ∉ s.toList)
    (hroot : isPathRooted (join '/' segments) = false) :
    getRelativeArtifactPath cs root (join '/' segments)
        = .ok (root.bare ++ "\\" ++ join '\\' segments) ∧
      segmentsOf (root.bare ++ "\\" ++ join '\\' segments) = root.parts ++ segments := by
  have hnative : replace '/' '\\' (join '/' segments) = join '\\' segments := replace_join hslash
  have hfull := getFullPath_child root hne hplain
  refine ⟨getRelativeArtifactPath_eq_ok.mpr ⟨hroot, ?_, ?_⟩, ?_⟩
  · rw [cs.key_append (root.bare ++ "\\")]
    exact List.prefix_append _ _
  · rw [hnative, hfull]
  · rw [← hfull, segmentsOf_child, split_join hne fun s hs => (hplain s hs).2.2.2,
      foldl_push_plain hplain, List.reverse_append, List.reverse_reverse, List.reverse_reverse]

/-! Confinement: the prefix test on texts is a prefix relation on components. -/

/-- splitting commutes with folding, at a caseless separator -/
theorem splitOn_map_fold {c : Char} (hc : c.toNat < 128) (ha : c.isAlpha = false) (l : List Char) :
    (l.map cs.fold).splitOn (cs.fold c) = (l.splitOn c).map fun x => x.map cs.fold := by
  induction l with
  | nil => rfl
  | cons d l ih =>
    rw [List.map_cons, List.splitOn_cons_eq_if_modifyHead, List.splitOn_cons_eq_if_modifyHead, ih]
    by_cases h : d = c
    · rw [if_pos (by rw [h, beq_self_eq_true]), if_pos (by rw [h, beq_self_eq_true])]
      rfl
    · have hf : ¬ (cs.fold d == cs.fold c) = true := fun e =>
        h (cs.caseless c d hc ha (beq_iff_eq.mp e))
      rw [if_neg hf, if_neg (by rwa [beq_iff_eq])]
      cases l.splitOn c with
      | nil => rfl
      | cons x xs => rfl

theorem map_key_split {c : Char} (hc : c.toNat < 128) (ha : c.isAlpha = false) (s : String) :
    (split c s).map cs.key = (cs.key s).splitOn (cs.fold c) := by
  rw [Casing.key, splitOn_map_fold hc ha, ← map_toList_split, List.map_map]
  rfl

/-- a text that begins with another one and a separator begins with its pieces -/
theorem map_key_split_prefix {s t : String} (h : cs.key (s ++ "\\") <+: cs.key t) :
    (split '\\' s).map cs.key <+: (split '\\' t).map cs.key := by
  obtain ⟨rest, hrest⟩ := h
  have e : cs.key t = cs.key s ++ cs.fold '\\' :: rest := by
    rw [← hrest, cs.key_append, List.append_assoc]
    rfl
  rw [map_key_split (by decide) (by decide), map_key_split (by decide) (by decide), e,
    List.splitOn_append_cons_self]
  exact List.prefix_append _ _

/-- **Whatever the listed path, an accepted one stays beneath the source directory.** -/
theorem getRelativeArtifactPath_confined {manifestPath full : String}
    (h : getRelativeArtifactPath cs root manifestPath = .ok full) :
    root.parts.map cs.key <+: (segmentsOf full).map cs.key := by
  have hpre := map_key_split_prefix (getRelativeArtifactPath_eq_ok.mp h).2.1
  rw [root.split_bare] at hpre
  have hdrop : root.parts.map cs.key <+: ((split '\\' full).drop 1).map cs.key := by
    obtain ⟨rest, hrest⟩ := hpre
    refine ⟨rest, ?_⟩
    rw [List.map_drop, ← hrest]
    rfl
  -- the components of the root are not empty, so they survive the filter
  have hne : (root.parts.map cs.key).filter (fun k => k ≠ []) = root.parts.map cs.key := by
    rw [List.filter_eq_self]
    intro k hk
    obtain ⟨s, hs, rfl⟩ := List.mem_map.mp hk
    exact decide_eq_true fun e => (root.plain s hs).1 (cs.key_eq_nil.mp e)
  have hfilter : (segmentsOf full).map cs.key
      = ((((split '\\' full).drop 1).map cs.key).filter fun k => k ≠ []) := by
    rw [segmentsOf, List.filter_map]
    congr 1
    refine List.filter_congr fun s _ => ?_
    exact decide_eq_decide.mpr (not_congr cs.key_eq_nil.symm)
  rw [hfilter, ← hne]
  exact hdrop.filter _

end

end RT7.Copy
