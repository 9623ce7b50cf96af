import RT7.Base.Path
import RT7.Base.Python

/-!
# Following symbolic links

* `Piece`           a part of a path text between two slashes, with the place it was written in;
* `Prefix`          the part of a path that was resolved so far, innermost name first;
* `scan`, `joinRealpath`   the walk of `posixpath` over the names of a path. A link that was not
  met before is handed to `follow`, so that both recursions are structural;
* `joinRealpath_isSome`   as many links as there are is enough, so that the walk always ends;
* `joinRealpath_all`   what holds of the names at the start and of the names in link targets holds
  of every name at the end;
* `normpath`, `LinkLayout.canonical`, `LinkLayout.realpath`   the resolved path; it is absolute.
-/

namespace RT7

open Text Py

/-- Where a name was written. No function below looks at it. -/
inductive Origin where
  | argument
  | workingDirectory
  | link
  deriving DecidableEq, Repr

structure Piece where
  text : String
  origin : Origin
  noSlash : '/' ∉ text.toList

/-- `text.split("/")` -/
def pieces (origin : Origin) (text : String) : List Piece :=
  (split '/' text).attach.map fun s => ⟨s.1, origin, not_mem_of_mem_split s.2⟩

theorem mem_pieces {origin : Origin} {text : String} {x : Piece} (h : x ∈ pieces origin text) :
    x.text ∈ split '/' text ∧ x.origin = origin := by
  obtain ⟨s, -, rfl⟩ := List.mem_map.mp h
  exact ⟨s.2, rfl⟩

/-- A resolved part of a path; its last name comes first. -/
structure Prefix where
  root : Root
  names : List Piece

namespace Prefix

def text (path : Prefix) : String :=
  path.root.text ++ join '/' (path.names.reverse.map Piece.text)

/-- `join(path, name)` -/
def push (path : Prefix) (name : Piece) : Prefix := ⟨path.root, name :: path.names⟩

/-- The step to `..`: a relative path may go above its start. -/
def up (path : Prefix) (dots : Piece) : Prefix :=
  match path.names with
  | [] => if path.root = .relative then ⟨.relative, [dots]⟩ else path
  | name :: names => if name.text = ".." then path.push dots else ⟨path.root, names⟩

/-- Where the walk over a text begins: an absolute one leaves the path behind. -/
def enter (path : Prefix) (text : String) : Prefix :=
  if Root.ofText text = .relative then path else ⟨.slash, []⟩

/-- `join(path, rest)` where the rest of a text is not looked at any more. -/
def joinRest (path : Prefix) (rest : List Piece) : Prefix :=
  let root := Root.ofText (join '/' (rest.map Piece.text))
  if root = .relative then ⟨path.root, rest.reverse ++ path.names⟩ else ⟨root, rest.reverse⟩

end Prefix

/-- The links met so far, by their text; one that is being resolved has no path yet. -/
abbrev Seen := List (String × Option Prefix)

/-- What a walk returns; it is not `ok` after a loop of links. -/
structure Walked where
  seen : Seen
  path : Prefix
  ok : Bool

section
variable (readlink : String → Option String)

/-- The walk over the names of a text. -/
def scan (follow : Seen → Prefix → List Piece → Option Walked) :
    Seen → Prefix → List Piece → Option Walked
  | seen, path, [] => some ⟨seen, path, true⟩
  | seen, path, name :: rest =>
    if name.text = "" ∨ name.text = "." then scan follow seen path rest
    else if name.text = ".." then scan follow seen (path.up name) rest
    else
      let newpath := path.push name
      match readlink newpath.text with
      | none => scan follow seen newpath rest
      | some target =>
        match seen.lookup newpath.text with
        | some (some resolved) => scan follow seen resolved rest
        | some none => some ⟨seen, newpath.joinRest rest, false⟩
        | none =>
          (follow ((newpath.text, none) :: seen) (path.enter target) (pieces .link target)).bind
            fun walked =>
              if walked.ok then
                follow ((newpath.text, some walked.path) :: walked.seen) walked.path rest
              else some ⟨walked.seen, walked.path.joinRest rest, false⟩

/-- `_joinrealpath`, with at most `n` links one below the other -/
def joinRealpath : Nat → Seen → Prefix → List Piece → Option Walked
  | 0 => scan readlink fun _ _ _ => none
  | n + 1 => scan readlink (joinRealpath n)

end

/-! ## one name of the walk -/

section
variable {readlink : String → Option String}
  {follow : Seen → Prefix → List Piece → Option Walked}

theorem mem_of_lookup {seen : Seen} {text : String} {found : Option Prefix}
    (h : seen.lookup text = some found) : (text, found) ∈ seen := by
  obtain ⟨front, back, e, -⟩ := List.lookup_eq_some_iff.mp h
  rw [e]
  exact List.mem_append_right front List.mem_cons_self

/-- The walk goes on with the next name, ends at a loop, or follows a link it has not met. -/
theorem scan_cons (seen : Seen) (path : Prefix) (name : Piece) (rest : List Piece) :
    (∃ next, (next = path ∨ next = path.up name ∨ next = path.push name ∨
        ∃ text, (text, some next) ∈ seen) ∧
      scan readlink follow seen path (name :: rest) = scan readlink follow seen next rest) ∨
    scan readlink follow seen path (name :: rest)
      = some ⟨seen, (path.push name).joinRest rest, false⟩ ∨
    ∃ target, readlink (path.push name).text = some target ∧
      seen.lookup (path.push name).text = none ∧
      scan readlink follow seen path (name :: rest) =
        (follow (((path.push name).text, none) :: seen) (path.enter target)
            (pieces .link target)).bind fun walked =>
          if walked.ok then
            follow (((path.push name).text, some walked.path) :: walked.seen) walked.path rest
          else some ⟨walked.seen, walked.path.joinRest rest, false⟩ := by
  by_cases hskip : name.text = "" ∨ name.text = "."
  · left
    exact ⟨path, .inl rfl, by rw [scan, if_pos hskip]⟩
  by_cases hup : name.text = ".."
  · left
    exact ⟨path.up name, .inr (.inl rfl), by rw [scan, if_neg hskip, if_pos hup]⟩
  cases hlink : readlink (path.push name).text with
  | none =>
    left
    refine ⟨path.push name, .inr (.inr (.inl rfl)), ?_⟩
    simp only [scan, if_neg hskip, if_neg hup, hlink]
  | some target =>
    cases hseen : seen.lookup (path.push name).text with
    | none =>
      right; right
      refine ⟨target, rfl, rfl, ?_⟩
      simp only [scan, if_neg hskip, if_neg hup, hlink, hseen]
    | some found =>
      cases found with
      | none =>
        right; left
        simp only [scan, if_neg hskip, if_neg hup, hlink, hseen]
      | some resolved =>
        left
        refine ⟨resolved, .inr (.inr (.inr ⟨_, mem_of_lookup hseen⟩)), ?_⟩
        simp only [scan, if_neg hskip, if_neg hup, hlink, hseen]

/-! ## the walk ends -/

/-- the links among the given ones that were not met yet -/
def unseen (texts : List String) (seen : Seen) : Nat :=
  texts.countP fun text => (seen.lookup text).isNone

theorem unseen_cons_le (texts : List String) (text : String) (found : Option Prefix) (seen : Seen) :
    unseen texts ((text, found) :: seen) ≤ unseen texts seen := by
  refine List.countP_mono_left fun t _ h => ?_
  rw [List.lookup_cons] at h
  cases ht : t == text with
  | true => simp [ht] at h
  | false => simpa [ht] using h

theorem unseen_cons_lt {texts : List String} {text : String} {seen : Seen} (ht : text ∈ texts)
    (hs : seen.lookup text = none) (found : Option Prefix) :
    unseen texts ((text, found) :: seen) < unseen texts seen := by
  obtain ⟨front, back, rfl⟩ := List.append_of_mem ht
  have hfront := unseen_cons_le front text found seen
  have hback := unseen_cons_le back text found seen
  simp only [unseen, List.countP_append, List.countP_cons, List.lookup_cons_self, hs] at *
  simp only [Option.isNone_none, Option.isNone_some, if_true, Bool.false_eq_true, if_false]
  omega

theorem scan_total {texts : List String} (hlinks : ∀ text, readlink text ≠ none → text ∈ texts)
    {n : Nat} (hfollow : ∀ seen path rest, unseen texts seen < n →
      ∃ walked, follow seen path rest = some walked ∧ unseen texts walked.seen ≤ unseen texts seen)
    {seen : Seen} (hn : unseen texts seen ≤ n) (path : Prefix) (rest : List Piece) :
    ∃ walked, scan readlink follow seen path rest = some walked ∧
      unseen texts walked.seen ≤ unseen texts seen := by
  induction rest generalizing path with
  | nil => exact ⟨_, rfl, Nat.le_refl _⟩
  | cons name rest ih =>
    obtain ⟨next, -, e⟩ | e | ⟨target, hlink, hseen, e⟩ := scan_cons seen path name rest
    · rw [e]
      exact ih next
    · exact ⟨_, e, Nat.le_refl _⟩
    · have ht : (path.push name).text ∈ texts := hlinks _ (by rw [hlink]; exact Option.some_ne_none _)
      have hlt := unseen_cons_lt ht hseen none
      obtain ⟨walked, hw, hle⟩ := hfollow (((path.push name).text, none) :: seen)
        (path.enter target) (pieces .link target) (Nat.lt_of_lt_of_le hlt hn)
      rw [e, hw, Option.bind_some]
      by_cases hok : walked.ok
      · have hcons := unseen_cons_le texts (path.push name).text (some walked.path) walked.seen
        obtain ⟨last, hlast, hle'⟩ := hfollow
          (((path.push name).text, some walked.path) :: walked.seen) walked.path rest (by omega)
        rw [if_pos hok]
        exact ⟨last, hlast, by omega⟩
      · rw [if_neg hok]
        exact ⟨_, rfl, by show unseen texts walked.seen ≤ _; omega⟩

theorem joinRealpath_total {texts : List String}
    (hlinks : ∀ text, readlink text ≠ none → text ∈ texts) {n : Nat} {seen : Seen}
    (hn : unseen texts seen ≤ n) (path : Prefix) (rest : List Piece) :
    ∃ walked, joinRealpath readlink n seen path rest = some walked ∧
      unseen texts walked.seen ≤ unseen texts seen := by
  induction n generalizing seen path rest with
  | zero => exact scan_total hlinks (fun _ _ _ h => absurd h (Nat.not_lt_zero _)) hn path rest
  | succ n ih =>
    refine scan_total hlinks (fun seen path rest h => ?_) hn path rest
    exact ih (Nat.le_of_lt_succ h) path rest

/-- **The walk ends**: as many rounds as there are links are enough. -/
theorem joinRealpath_isSome {texts : List String}
    (hlinks : ∀ text, readlink text ≠ none → text ∈ texts) (path : Prefix) (rest : List Piece) :
    (joinRealpath readlink texts.length [] path rest).isSome := by
  have hall : unseen texts [] ≤ texts.length := List.countP_le_length
  obtain ⟨walked, h, -⟩ := joinRealpath_total hlinks hall path rest
  rw [h]
  rfl

/-! ## the names at the end -/

def Prefix.All (P : Piece → Prop) (path : Prefix) : Prop := ∀ x ∈ path.names, P x

def Seen.All (P : Piece → Prop) (seen : Seen) : Prop :=
  ∀ text path, (text, some path) ∈ seen → path.All P

def Walked.All (P : Piece → Prop) (walked : Walked) : Prop :=
  walked.seen.All P ∧ walked.path.All P

variable {P : Piece → Prop}

theorem Prefix.All.push {path : Prefix} (h : path.All P) {name : Piece} (hn : P name) :
    (path.push name).All P :=
  List.forall_mem_cons.mpr ⟨hn, h⟩

theorem Prefix.All.up {path : Prefix} (h : path.All P) {dots : Piece} (hd : P dots) :
    (path.up dots).All P := by
  unfold Prefix.up
  cases hnames : path.names with
  | nil =>
    by_cases hr : path.root = .relative
    · rw [if_pos hr]
      exact List.forall_mem_singleton.mpr hd
    · rw [if_neg hr]
      exact h
  | cons name names =>
    show Prefix.All P (if name.text = ".." then path.push dots else ⟨path.root, names⟩)
    by_cases hdots : name.text = ".."
    · rw [if_pos hdots]
      exact h.push hd
    · rw [if_neg hdots]
      intro x hx
      exact h x (hnames ▸ List.mem_cons_of_mem name hx)

theorem Prefix.All.enter {path : Prefix} (h : path.All P) (text : String) :
    (path.enter text).All P := by
  unfold Prefix.enter
  by_cases hr : Root.ofText text = .relative
  · rw [if_pos hr]
    exact h
  · rw [if_neg hr]
    exact List.forall_mem_nil _

theorem Prefix.All.joinRest {path : Prefix} (h : path.All P) {rest : List Piece}
    (hr : ∀ x ∈ rest, P x) : (path.joinRest rest).All P := by
  have hrev : ∀ x ∈ rest.reverse, P x := fun x hx => hr x (List.mem_reverse.mp hx)
  unfold Prefix.joinRest
  by_cases hroot : Root.ofText (join '/' (rest.map Piece.text)) = .relative
  · simp only [if_pos hroot]
    exact List.forall_mem_append.mpr ⟨hrev, h⟩
  · simp only [if_neg hroot]
    exact hrev

theorem Seen.All.cons {seen : Seen} (h : seen.All P) {found : Option Prefix}
    (hf : ∀ path, found = some path → path.All P) (text : String) :
    Seen.All P ((text, found) :: seen) := by
  intro t path ht
  cases ht with
  | head => exact hf path rfl
  | tail _ ht => exact h t path ht

theorem scan_all
    (hlinks : ∀ text target, readlink text = some target → ∀ x ∈ pieces .link target, P x)
    (hfollow : ∀ {seen path rest walked}, Seen.All P seen → path.All P → (∀ x ∈ rest, P x) →
      follow seen path rest = some walked → walked.All P)
    {seen : Seen} (hseen : seen.All P) {path : Prefix} (hpath : path.All P) {rest : List Piece}
    (hrest : ∀ x ∈ rest, P x) {walked : Walked}
    (h : scan readlink follow seen path rest = some walked) : walked.All P := by
  induction rest generalizing path with
  | nil =>
    rw [scan, Option.some_inj] at h
    subst h
    exact ⟨hseen, hpath⟩
  | cons name rest ih =>
    obtain ⟨hname, hrest⟩ := List.forall_mem_cons.mp hrest
    obtain ⟨next, hnext, e⟩ | e | ⟨target, hlink, -, e⟩ := scan_cons seen path name rest
    · rw [e] at h
      refine ih ?_ hrest h
      obtain rfl | rfl | rfl | ⟨text, ht⟩ := hnext
      · exact hpath
      · exact hpath.up hname
      · exact hpath.push hname
      · exact hseen text next ht
    · rw [e, Option.some_inj] at h
      subst h
      exact ⟨hseen, (hpath.push hname).joinRest hrest⟩
    · rw [e] at h
      obtain ⟨inner, hinner, h⟩ := Option.bind_eq_some_iff.mp h
      have hin : inner.All P := by
        refine hfollow (hseen.cons (fun _ e => ?_) _) (hpath.enter target) (hlinks _ _ hlink) hinner
        cases e
      by_cases hok : inner.ok
      · rw [if_pos hok] at h
        refine hfollow (hin.1.cons (fun _ e => ?_) _) hin.2 hrest h
        cases e
        exact hin.2
      · rw [if_neg hok, Option.some_inj] at h
        subst h
        exact ⟨hin.1, hin.2.joinRest hrest⟩

/-- **The walk brings in no name but those of link targets.** -/
theorem joinRealpath_all
    (hlinks : ∀ text target, readlink text = some target → ∀ x ∈ pieces .link target, P x)
    {n : Nat} {seen : Seen} (hseen : seen.All P) {path : Prefix} (hpath : path.All P)
    {rest : List Piece} (hrest : ∀ x ∈ rest, P x) {walked : Walked}
    (h : joinRealpath readlink n seen path rest = some walked) : walked.All P := by
  induction n generalizing seen path rest walked with
  | zero =>
    refine scan_all hlinks (fun _ _ _ hnone => ?_) hseen hpath hrest h
    cases hnone
  | succ n ih => exact scan_all hlinks (fun hs hp hr hw => ih hs hp hr hw) hseen hpath hrest h

end

/-! ## the resolved path -/

/-- One name of an absolute path that is being normalised. -/
def normStep (name : Piece) (names : List Piece) : List Piece :=
  if name.text = "" ∨ name.text = "." then names
  else if name.text = ".." then names.tail
  else name :: names

/-- `normpath`, on the names of an absolute path -/
def normpath (names : List Piece) : List Piece := names.foldr normStep []

theorem mem_normpath {names : List Piece} {x : Piece} (h : x ∈ normpath names) :
    x ∈ names ∧ x.text ≠ "" ∧ x.text ≠ "." := by
  induction names with
  | nil => exact absurd h List.not_mem_nil
  | cons name names ih =>
    have hcases : x ∈ normpath names ∨ (x = name ∧ name.text ≠ "" ∧ name.text ≠ ".") := by
      rw [normpath, List.foldr_cons, normStep] at h
      by_cases hskip : name.text = "" ∨ name.text = "."
      · rw [if_pos hskip] at h
        exact .inl h
      by_cases hup : name.text = ".."
      · rw [if_neg hskip, if_pos hup] at h
        exact .inl (List.mem_of_mem_tail h)
      · rw [if_neg hskip, if_neg hup] at h
        exact (List.mem_cons.mp h).symm.imp id fun e => ⟨e, not_or.mp hskip⟩
    cases hcases with
    | inl h => exact ⟨List.mem_cons_of_mem name (ih h).1, (ih h).2⟩
    | inr h =>
      obtain ⟨rfl, hne⟩ := h
      exact ⟨List.mem_cons_self, hne⟩

/-- The working directory, and the texts that name a symbolic link from there, with the targets.
A text that is too long names nothing, so that there are finitely many. -/
structure LinkLayout where
  getcwd : PosixPath
  absolute : getcwd.root = .slash
  links : Dict String String

namespace LinkLayout
variable (layout : LinkLayout)

def readlink (text : String) : Option String := layout.links.get? text

theorem mem_keys_of_readlink (text : String) (h : layout.readlink text ≠ none) :
    text ∈ layout.links.keys := by
  apply Decidable.not_not.mp
  intro hnot
  exact h (Dict.get?_eq_none.mpr hnot)

/-- `_joinrealpath(filename[:0], filename, False, {})` -/
def walked (filename : String) : Walked :=
  (joinRealpath layout.readlink layout.links.keys.length [] (Prefix.enter ⟨.relative, []⟩ filename)
    (pieces .argument filename)).get (joinRealpath_isSome layout.mem_keys_of_readlink _ _)

/-- `abspath(path)`, with the names of the result -/
def abspath (path : Prefix) : Prefix :=
  if path.root = .relative then
    ⟨layout.getcwd.root,
      normpath (path.names ++ (pieces .workingDirectory layout.getcwd.str).reverse)⟩
  else ⟨path.root, normpath path.names⟩

/-- The resolved path, with the place that each of its names comes from. -/
def canonical (filename : String) : Prefix := layout.abspath (layout.walked filename).path

variable {layout} {P : Piece → Prop}

theorem abspath_all {path : Prefix} (h : path.All P)
    (hcwd : ∀ x ∈ pieces .workingDirectory layout.getcwd.str, P x) :
    (layout.abspath path).All fun x => P x ∧ x.text ≠ "" ∧ x.text ≠ "." := by
  unfold abspath
  by_cases hr : path.root = .relative
  · rw [if_pos hr]
    intro x hx
    obtain ⟨hmem, hne⟩ := mem_normpath hx
    refine ⟨?_, hne⟩
    cases List.mem_append.mp hmem with
    | inl hx => exact h x hx
    | inr hx => exact hcwd x (List.mem_reverse.mp hx)
  · rw [if_neg hr]
    intro x hx
    obtain ⟨hmem, hne⟩ := mem_normpath hx
    exact ⟨h x hmem, hne⟩

/-- **Every name of the resolved path was written in the argument, in the working directory or in
the target of a link.** -/
theorem canonical_all {filename : String} (harg : ∀ x ∈ pieces .argument filename, P x)
    (hcwd : ∀ x ∈ pieces .workingDirectory layout.getcwd.str, P x)
    (hlinks : ∀ text target, layout.readlink text = some target →
      ∀ x ∈ pieces .link target, P x) :
    (layout.canonical filename).All fun x => P x ∧ x.text ≠ "" ∧ x.text ≠ "." := by
  have hnil : Prefix.All P ⟨.relative, []⟩ := fun _ h => absurd h List.not_mem_nil
  have hstart := hnil.enter filename
  have hseen : Seen.All P [] := fun _ _ h => absurd h List.not_mem_nil
  have hwalk : (layout.walked filename).All P :=
    joinRealpath_all hlinks hseen hstart harg (Option.some_get _).symm
  exact abspath_all hwalk.2 hcwd

theorem component_canonical {filename : String} {x : Piece}
    (h : x ∈ (layout.canonical filename).names) : Component x.text := by
  have hall : (layout.canonical filename).All fun x => True ∧ x.text ≠ "" ∧ x.text ≠ "." :=
    canonical_all (fun _ _ => trivial) (fun _ _ => trivial) (fun _ _ _ _ _ => trivial)
  exact ⟨(hall x h).2.1, (hall x h).2.2, x.noSlash⟩

/-- `realpath(filename)`, as the path that is made of it -/
def realpath (layout : LinkLayout) (filename : String) : PosixPath :=
  ⟨(layout.canonical filename).root, (layout.canonical filename).names.reverse.map Piece.text, by
    intro name h
    obtain ⟨x, hx, rfl⟩ := List.mem_map.mp h
    exact component_canonical (List.mem_reverse.mp hx)⟩

theorem root_realpath (layout : LinkLayout) (filename : String) :
    (layout.realpath filename).root ≠ .relative := by
  show (layout.abspath _).root ≠ .relative
  unfold abspath
  split_ifs with h
  · intro e
    rw [layout.absolute] at e
    cases e
  · exact h

theorem mem_parts_realpath {filename name : String} :
    name ∈ (layout.realpath filename).parts ↔
      ∃ x ∈ (layout.canonical filename).names, x.text = name := by
  show name ∈ List.map Piece.text _ ↔ _
  rw [List.mem_map]
  simp only [List.mem_reverse]

end LinkLayout

/-- A path that `resolve` returned. -/
structure ResolvedPath where
  path : PosixPath
  absolute : path.root ≠ .relative
  deriving DecidableEq

def LinkLayout.resolved (layout : LinkLayout) (filename : String) : ResolvedPath :=
  ⟨layout.realpath filename, layout.root_realpath filename⟩

end RT7
