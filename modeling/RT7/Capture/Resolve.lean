import RT7.Base.Realpath
import RT7.Capture.Plan

/-!
# The plan file

* `safePath`, `main`   a run of the capture script, up to the plan file it writes;
* `readPlan`        a plan file as it is read: a command on each line, split at single spaces;
* `main_eq_ok`      what a run that writes the plan file has checked;
* `readPlan_planText`   the file is read back as the commands when the output path is one line;
* `contributed`     the names of the resolved output path that were not written in the argument;
* `main_allowlist`  when the file is the allowlist: `safePath` looks at the text of its argument,
  and the working directory and the links bring in other names.
-/

namespace RT7.Capture

open Py Text

/-! ## the run -/

/-- What a run finds around it. -/
structure Host where
  layout : LinkLayout
  loops : PosixPath → Bool
  isFile : PosixPath → Bool
  sha256 : PosixPath → Except Exn String
  validateTool : PosixPath → Except Exn Unit
  mkdir : PosixPath → (parents : Bool) → Except Exn Unit
  create : PosixPath → Except Exn Unit

/-- `path.resolve()`: the `stat` at its end raises for a loop of links. -/
def resolve (host : Host) (path : PosixPath) : Except Exn PosixPath := do
  let p := host.layout.realpath path.str
  let text := p.str
  raiseIf (host.loops p) (.runtimeError s!"Symlink loop from {text}")
  return p

def safePath (host : Host) (value label : String) : Except Exn PosixPath := do
  raiseIf ((value.toList.any isspace) ∨ (",;".toList.any fun character => character ∈ value.toList))
    (.systemExit s!"{label} cannot contain whitespace, commas, or semicolons: {value}")
  resolve host (PosixPath.parse value)

def preloaderSha256 : String := "e76b3bc6f70f263026088c19665d25b900956832efcc448804be921cc765fa26"

structure Args where
  preloader : String := "/rt7-work/firmware/extracted/V1.4.8/" ++
    "TP758_OQ_P07_NFC_6853_T0_EEA_V1.4.8_S251017/" ++
    "preloader_tp758_oq_p07_nfc_6853_t0_eea.bin"
  outputDir : String := "/rt7-work/recovery/rt7-installed-v04-20231205"
  mtkRoot : String := "/opt/mtkclient"
  execute : Bool := false

def privateRootText : String := "/rt7-work/recovery"

/-- The text of the plan file. -/
def planText (output : PosixPath) : String := join '\n' (buildPlan partitions output) ++ "\n"

structure PlanFile where
  path : PosixPath
  content : Bytes

/-- `main`, up to the call of mtkclient; a dry run ends without a plan file. -/
def main (host : Host) (args : Args) : Except Exn (Option PlanFile) := do
  let mtkRoot ← safePath host args.mtkRoot "mtkclient root"
  let preloader ← safePath host args.preloader "preloader path"
  let output ← safePath host args.outputDir "output directory"
  let privateRoot ← resolve host (PosixPath.parse privateRootText)
  let privateText := privateRoot.str
  raiseIf (privateRoot ∉ output.parents) (.systemExit s!"Output must be a child of {privateText}")
  let preloaderText := preloader.str
  raiseIf (host.isFile preloader = false)
    (.systemExit s!"Reference preloader not found: {preloaderText}")
  let digest ← host.sha256 preloader
  raiseIf (digest ≠ preloaderSha256)
    (.systemExit "Reference preloader SHA-256 does not match sources.lock")
  host.validateTool mtkRoot
  let plan := buildPlan partitions output
  validateReadOnlyPlan partitions plan output
  if args.execute = false then
    return none
  host.mkdir output true
  capturePasses.forM fun passName => host.mkdir (output / passName) false
  let planFile := output / "read-only-plan.txt"
  host.create planFile
  let content ← encodeAscii (join '\n' plan ++ "\n")
  return some ⟨planFile, content⟩

/-- The commands of a plan file, each with its arguments. -/
def readPlan (content : Bytes) : List (List String) :=
  (readLines (decodeAscii content)).map (split ' ')

/-! ## what the run has checked -/

/-- No whitespace, comma or semicolon. -/
def Clean (s : String) : Prop := ∀ c ∈ s.toList, isspace c = false ∧ c ≠ ',' ∧ c ≠ ';'

instance (s : String) : Decidable (Clean s) := List.decidableBAll _ s.toList

section
variable {host : Host} {args : Args} {value label : String} {path p output : PosixPath}

theorem resolve_eq_ok : resolve host path = .ok p ↔
    host.loops p = false ∧ host.layout.realpath path.str = p := by
  rw [resolve, raiseIf_bind_eq_ok, pure_eq_ok, Bool.not_eq_true]
  constructor
  · rintro ⟨h, rfl⟩
    exact ⟨h, rfl⟩
  · rintro ⟨h, rfl⟩
    exact ⟨h, rfl⟩

theorem not_unsafe_iff : ¬ ((value.toList.any isspace) ∨
    (",;".toList.any fun character => character ∈ value.toList)) ↔ Clean value := by
  have e : ",;".toList = [',', ';'] := by decide
  have hspace : (value.toList.any isspace) = true ↔ ∃ c ∈ value.toList, isspace c = true :=
    List.any_eq_true
  rw [e, not_or, hspace, not_exists]
  constructor
  · rintro ⟨hs, hp⟩ c hc
    refine ⟨Bool.eq_false_iff.mpr fun h => hs c ⟨hc, h⟩, ?_, ?_⟩
    · rintro rfl
      exact hp (by simp [hc])
    · rintro rfl
      exact hp (by simp [hc])
  · intro h
    refine ⟨fun c hc => absurd hc.2 (Bool.eq_false_iff.mp (h c hc.1).1), ?_⟩
    simp only [List.any_cons, List.any_nil, Bool.or_false, Bool.or_eq_true, decide_eq_true_eq]
    rintro (hc | hc)
    · exact (h ',' hc).2.1 rfl
    · exact (h ';' hc).2.2 rfl

theorem safePath_eq_ok : safePath host value label = .ok p ↔
    Clean value ∧ host.loops p = false ∧ host.layout.realpath (PosixPath.parse value).str = p := by
  rw [safePath, raiseIf_bind_eq_ok, not_unsafe_iff, resolve_eq_ok]

/-- every default passes the check -/
theorem clean_defaults : Clean ({} : Args).mtkRoot ∧ Clean ({} : Args).preloader ∧
    Clean ({} : Args).outputDir := by
  decide +kernel

/-- The state of a run at the plan file. -/
structure Prepared (host : Host) (args : Args) (output : PosixPath) : Prop where
  mtkRoot : ∃ mtkRoot, safePath host args.mtkRoot "mtkclient root" = .ok mtkRoot ∧
    host.validateTool mtkRoot = .ok ()
  preloader : ∃ preloader, safePath host args.preloader "preloader path" = .ok preloader ∧
    host.isFile preloader = true ∧ host.sha256 preloader = .ok preloaderSha256
  resolved : safePath host args.outputDir "output directory" = .ok output
  isPrivate : ∃ privateRoot, resolve host (PosixPath.parse privateRootText) = .ok privateRoot ∧
    privateRoot ∈ output.parents
  noSpace : ' ' ∉ output.str.toList
  execute : args.execute = true
  mkdir : host.mkdir output true = .ok ()
  mkdirPass : ∀ passName ∈ capturePasses, host.mkdir (output / passName) false = .ok ()
  create : host.create (output / "read-only-plan.txt") = .ok ()
  ascii : Ascii (planText output)

theorem encodeAscii_eq_ok {s : String} {b : Bytes} :
    encodeAscii s = .ok b ↔ Ascii s ∧ asciiBytes s = b := by
  by_cases h : Ascii s
  · rw [encodeAscii_of_ascii h]
    simp [h]
  · simp [encodeAscii, h]

theorem Prepared.main_eq (h : Prepared host args output) : main host args
    = .ok (some ⟨output / "read-only-plan.txt", asciiBytes (planText output)⟩) := by
  obtain ⟨mtkRoot, hmtk, htool⟩ := h.mtkRoot
  obtain ⟨preloader, hpre, hfile, hdigest⟩ := h.preloader
  obtain ⟨privateRoot, hroot, hparents⟩ := h.isPrivate
  have hplan : validateReadOnlyPlan partitions (buildPlan partitions output) output = .ok () :=
    validateReadOnlyPlan_eq_ok.mpr ⟨h.noSpace, rfl⟩
  have hcontent : encodeAscii (join '\n' (buildPlan partitions output) ++ "\n")
      = .ok (asciiBytes (planText output)) := encodeAscii_of_ascii h.ascii
  refine bind_eq_ok.mpr ⟨mtkRoot, hmtk, ?_⟩
  refine bind_eq_ok.mpr ⟨preloader, hpre, ?_⟩
  refine bind_eq_ok.mpr ⟨output, h.resolved, ?_⟩
  refine bind_eq_ok.mpr ⟨privateRoot, hroot, ?_⟩
  refine raiseIf_bind_eq_ok.mpr ⟨not_not.mpr hparents, ?_⟩
  refine raiseIf_bind_eq_ok.mpr ⟨by rw [hfile]; decide, ?_⟩
  refine bind_eq_ok.mpr ⟨preloaderSha256, hdigest, ?_⟩
  refine raiseIf_bind_eq_ok.mpr ⟨not_not.mpr rfl, ?_⟩
  refine bind_eq_ok.mpr ⟨(), htool, ?_⟩
  refine bind_eq_ok.mpr ⟨(), hplan, ?_⟩
  rw [h.execute, if_neg (by decide)]
  refine bind_eq_ok.mpr ⟨(), h.mkdir, ?_⟩
  refine bind_eq_ok.mpr ⟨(), forM_eq_ok.mpr h.mkdirPass, ?_⟩
  refine bind_eq_ok.mpr ⟨(), h.create, ?_⟩
  exact bind_eq_ok.mpr ⟨_, hcontent, rfl⟩

theorem prepared_of_main {file : PlanFile} (h : main host args = .ok (some file)) :
    ∃ output, Prepared host args output ∧
      file = ⟨output / "read-only-plan.txt", asciiBytes (planText output)⟩ := by
  rw [main, bind_eq_ok] at h
  obtain ⟨mtkRoot, hmtk, h⟩ := h
  rw [bind_eq_ok] at h
  obtain ⟨preloader, hpre, h⟩ := h
  rw [bind_eq_ok] at h
  obtain ⟨output, hout, h⟩ := h
  rw [bind_eq_ok] at h
  obtain ⟨privateRoot, hroot, h⟩ := h
  rw [raiseIf_bind_eq_ok, raiseIf_bind_eq_ok, bind_eq_ok] at h
  obtain ⟨hparents, hfile, digest, hdigest, h⟩ := h
  rw [raiseIf_bind_eq_ok, bind_eq_ok] at h
  obtain ⟨hdig, _, htool, h⟩ := h
  rw [bind_eq_ok] at h
  obtain ⟨_, hplan, h⟩ := h
  by_cases hexec : args.execute = false
  · rw [if_pos hexec] at h
    cases h
  rw [if_neg hexec, bind_eq_ok] at h
  obtain ⟨_, hmkdir, h⟩ := h
  rw [bind_eq_ok] at h
  obtain ⟨_, hpasses, h⟩ := h
  rw [bind_eq_ok] at h
  obtain ⟨_, hcreate, h⟩ := h
  rw [bind_eq_ok] at h
  obtain ⟨content, hcontent, h⟩ := h
  obtain ⟨hascii, rfl⟩ := encodeAscii_eq_ok.mp hcontent
  cases h
  refine ⟨output, ⟨⟨mtkRoot, hmtk, htool⟩, ⟨preloader, hpre, ?_, ?_⟩, hout, ?_, ?_, ?_, hmkdir,
    forM_eq_ok.mp hpasses, hcreate, hascii⟩, rfl⟩
  · exact Bool.not_eq_false _ |>.mp hfile
  · rw [hdigest, not_not.mp hdig]
  · exact ⟨privateRoot, hroot, not_not.mp hparents⟩
  · exact (validateReadOnlyPlan_eq_ok.mp hplan).1
  · exact Bool.not_eq_false _ |>.mp hexec

/-! ## the plan file, read back -/

theorem buildPlan_eq_cons (table : Table) (output : PosixPath) :
    ∃ rest, buildPlan table output = ("gpt " ++ (output / "pass1").str) :: rest := ⟨_, rfl⟩

theorem buildPlan_ne_nil (table : Table) (output : PosixPath) : buildPlan table output ≠ [] := by
  obtain ⟨rest, h⟩ := buildPlan_eq_cons table output
  rw [h]
  exact List.cons_ne_nil _ rest

/-- the characters of a command of the plan -/
theorem forall_buildPlan {P : Char → Prop} (hspace : P ' ')
    (hwords : ∀ word ∈ planWords, ∀ c ∈ word.toList, P c)
    (hnames : ∀ name ∈ partitions.names, ∀ c ∈ name.toList, P c)
    (hout : ∀ c ∈ output.str.toList, P c) :
    ∀ command ∈ buildPlan partitions output, ∀ c ∈ command.toList, P c := by
  rw [buildPlan_eq_join, List.forall_mem_map]
  intro tokens h c hc
  obtain ⟨t, ht, hc⟩ | ⟨rfl, -⟩ := mem_join.mp hc
  · exact forall_commands hwords hnames hout h t ht c hc
  · exact hspace

theorem oneLine_buildPlan (hout : OneLine output.str) :
    ∀ command ∈ buildPlan partitions output, OneLine command := by
  have hwords : ∀ word ∈ planWords, OneLine word := by decide
  have hnames : ∀ name ∈ partitions.names, OneLine name := by decide
  exact forall_buildPlan (by decide) hwords hnames hout

theorem ascii_planText (hout : Ascii output.str) : Ascii (planText output) := by
  have hwords : ∀ word ∈ planWords, Ascii word := by decide
  have hnames : ∀ name ∈ partitions.names, Ascii name := by decide
  rw [planText, join_lines (buildPlan_ne_nil partitions output)]
  exact ascii_join_lines (forall_buildPlan (by decide) hwords hnames hout)

theorem readPlan_asciiBytes (h : Ascii (planText output)) : readPlan (asciiBytes (planText output))
    = (readLines (planText output)).map (split ' ') := by
  rw [readPlan, decodeAscii_asciiBytes h]

/-- A name with a line end breaks the first command, so that only an output path of one line is read
back. -/
theorem readPlan_planText (hspace : ' ' ∉ output.str.toList) (hascii : Ascii (planText output)) :
    readPlan (asciiBytes (planText output)) = commands partitions output ↔ OneLine output.str := by
  rw [readPlan_asciiBytes hascii]
  constructor
  · intro h
    have hp : "pass1" ∈ capturePasses := by decide
    have hmem : ["gpt", (output / "pass1").str] ∈ commands partitions output :=
      mem_commands.mpr ⟨"pass1", hp, .inl rfl⟩
    rw [← h] at hmem
    obtain ⟨line, hline, e⟩ := List.mem_map.mp hmem
    have hdir : (output / "pass1").str ∈ split ' ' line := by
      rw [e]
      exact List.mem_cons_of_mem "gpt" List.mem_cons_self
    have hone : ∀ {d : Char}, d ≠ '/' → d ≠ '.' → d ∈ output.str.toList → d ∈ line.toList :=
      fun hs hd hc => mem_of_mem_split hdir ((mem_str_pass hs hd hp).mpr (.inl hc))
    have hends := oneLine_of_mem_readLines hline
    intro c hc
    refine ⟨?_, ?_⟩
    · rintro rfl
      exact (hends '\n' (hone (by decide) (by decide) hc)).1 rfl
    · rintro rfl
      exact (hends '\r' (hone (by decide) (by decide) hc)).2 rfl
  · intro hone
    rw [planText, join_lines (buildPlan_ne_nil partitions output),
      readLines_join (oneLine_buildPlan hone), split_buildPlan hspace]

theorem mem_parents_div {n m : String} (hn : Component n) (hm : Component m) :
    output ∈ (output / n / m).parents := by
  rw [PosixPath.mem_parents, PosixPath.root_div hm, PosixPath.root_div hn, PosixPath.parts_div hm,
    PosixPath.parts_div hn, List.append_assoc]
  refine ⟨rfl, List.prefix_append _ _, fun e => ?_⟩
  exact List.cons_ne_nil n [m] (List.append_right_eq_self.mp e.symm)

/-- every command of the plan writes below the output directory -/
theorem mem_parents_of_commands {tokens : List String} (h : tokens ∈ commands partitions output)
    {path : String} (hpath : path ∈ commandFiles tokens) (hspace : ' ' ∉ output.str.toList) :
    output ∈ (PosixPath.parse path).parents := by
  have hmem : path ∈ destinations (buildPlan partitions output) := by
    rw [← split_buildPlan hspace] at h
    obtain ⟨command, hc, rfl⟩ := List.mem_map.mp h
    exact List.mem_flatMap.mpr ⟨command, hc, hpath⟩
  obtain ⟨passName, hp, name, hn, rfl⟩ := (mem_destinations hspace).mp hmem
  obtain ⟨artifact, ha, rfl⟩ := partitions.mem_expectedNames.mp hn
  rw [PosixPath.parse_str]
  exact mem_parents_div (component_pass hp) (component_artifact ha)

/-! ## where the names of the output path come from -/

end

/-- The names of the resolved path that the argument does not hold: the working directory or the
target of a link that was followed brought them in. -/
def contributed (layout : LinkLayout) (value : String) : List String :=
  ((layout.canonical (PosixPath.parse value).str).names.filter
    fun x => x.origin ≠ .argument).map Piece.text

section
variable {layout : LinkLayout} {host : Host} {args : Args} {value : String} {output : PosixPath}

theorem clean_str_iff : Clean output.str ↔ ∀ part ∈ output.parts, Clean part := by
  constructor
  · intro h part hp c hc
    by_cases hd : c = '.'
    · rw [hd]
      decide
    have hs : c ≠ '/' := fun e => (output.component part hp).2.2 (e ▸ hc)
    exact h c ((PosixPath.mem_toList_str hs hd).mpr ⟨part, hp, hc⟩)
  · intro h c hc
    by_cases hs : c = '/'
    · rw [hs]
      decide
    by_cases hd : c = '.'
    · rw [hd]
      decide
    obtain ⟨part, hp, hc⟩ := (PosixPath.mem_toList_str hs hd).mp hc
    exact h part hp c hc

/-- the text of a path that is made of a clean text -/
theorem clean_parse (h : Clean value) : Clean (PosixPath.parse value).str := by
  refine clean_str_iff.mpr fun part hp c hc => ?_
  exact h c (mem_of_mem_split (List.mem_of_mem_filter hp) hc)

theorem clean_argument (h : Clean value) :
    ∀ x ∈ (layout.canonical (PosixPath.parse value).str).names, x.origin = .argument →
      Clean x.text := by
  have hall : (layout.canonical (PosixPath.parse value).str).All fun x =>
      (x.origin = .argument → Clean x.text) ∧ x.text ≠ "" ∧ x.text ≠ "." := by
    refine LinkLayout.canonical_all ?_ ?_ ?_
    · intro x hx _ c hc
      exact clean_parse h c (mem_of_mem_split (mem_pieces hx).1 hc)
    · intro x hx e
      rw [(mem_pieces hx).2] at e
      cases e
    · intro text target _ x hx e
      rw [(mem_pieces hx).2] at e
      cases e
  exact fun x hx => (hall x hx).1

/-- the resolved path is clean when the names are that the argument does not hold -/
theorem clean_realpath_iff (h : Clean value) :
    Clean (layout.realpath (PosixPath.parse value).str).str ↔
      ∀ name ∈ contributed layout value, Clean name := by
  rw [clean_str_iff, contributed, List.forall_mem_map]
  constructor
  · intro hall x hx
    exact hall x.text (LinkLayout.mem_parts_realpath.mpr ⟨x, List.mem_of_mem_filter hx, rfl⟩)
  · intro hall part hp
    obtain ⟨x, hx, rfl⟩ := LinkLayout.mem_parts_realpath.mp hp
    by_cases ho : x.origin = .argument
    · exact clean_argument h x hx ho
    · exact hall x (List.mem_filter.mpr ⟨hx, decide_eq_true ho⟩)

/-- A name that was brought in stands in the working directory or in the target of a link. -/
theorem mem_contributed {name : String} (h : name ∈ contributed layout value) :
    name ∈ layout.getcwd.parts ∨
      ∃ text target, layout.readlink text = some target ∧ name ∈ components target := by
  obtain ⟨x, hx, rfl⟩ := List.mem_map.mp h
  obtain ⟨hx, ho⟩ := List.mem_filter.mp hx
  have hcomp := LinkLayout.component_canonical hx
  have hmem : ∀ {text}, x.text ∈ split '/' text → x.text ∈ components text :=
    fun hs => List.mem_filter.mpr ⟨hs, decide_eq_true ⟨hcomp.1, hcomp.2.1⟩⟩
  have hall : (layout.canonical (PosixPath.parse value).str).All fun x =>
      (x.origin = .argument ∨ x.text ∈ split '/' layout.getcwd.str ∨ ∃ text target,
        layout.readlink text = some target ∧ x.text ∈ split '/' target) ∧
      x.text ≠ "" ∧ x.text ≠ "." := by
    refine LinkLayout.canonical_all ?_ ?_ ?_
    · exact fun x hx => .inl (mem_pieces hx).2
    · exact fun x hx => .inr (.inl (mem_pieces hx).1)
    · exact fun text target ht x hx => .inr (.inr ⟨text, target, ht, (mem_pieces hx).1⟩)
  obtain harg | hcwd | ⟨text, target, ht, hs⟩ := (hall x hx).1
  · exact absurd harg (of_decide_eq_true ho)
  · left
    rw [← PosixPath.parse_str layout.getcwd]
    exact hmem hcwd
  · exact .inr ⟨text, target, ht, hmem hs⟩

/-- without a separator in the working directory and in the links, none comes in -/
theorem clean_contributed (hcwd : Clean layout.getcwd.str)
    (hlinks : ∀ text target, layout.readlink text = some target → Clean target) :
    ∀ name ∈ contributed layout value, Clean name := by
  intro name hname
  obtain h | ⟨text, target, ht, h⟩ := mem_contributed hname
  · exact clean_str_iff.mp hcwd name h
  · exact fun c hc => hlinks text target ht c (mem_of_mem_split (List.mem_of_mem_filter h) hc)

end

/-- What is promised of a plan file: it reads as the commands and nothing else, each writes below the
output directory, and `safePath` returned a path without whitespace, comma or semicolon. -/
def Allowlisted (host : Host) (args : Args) (file : PlanFile) : Prop :=
  ∃ output, safePath host args.outputDir "output directory" = .ok output ∧
    readPlan file.content = commands partitions output ∧
    (∀ tokens ∈ readPlan file.content, ∀ path ∈ commandFiles tokens,
      output ∈ (PosixPath.parse path).parents) ∧
    Clean output.str

/-- **The plan file is the allowlist when no name comes in with a separator.** -/
theorem main_allowlist {host : Host} {args : Args} {file : PlanFile}
    (h : main host args = .ok (some file)) :
    Allowlisted host args file ↔ ∀ name ∈ contributed host.layout args.outputDir, Clean name := by
  obtain ⟨output, hprep, rfl⟩ := prepared_of_main h
  obtain ⟨hvalue, -, hreal⟩ := safePath_eq_ok.mp hprep.resolved
  rw [← clean_realpath_iff hvalue, hreal]
  constructor
  · rintro ⟨output', hout, -, -, hclean⟩
    rw [hprep.resolved] at hout
    cases hout
    exact hclean
  · intro hclean
    have hone : OneLine output.str := by
      intro c hc
      refine ⟨?_, ?_⟩
      · rintro rfl
        exact absurd (hclean '\n' hc).1 (by decide)
      · rintro rfl
        exact absurd (hclean '\r' hc).1 (by decide)
    have hread := (readPlan_planText hprep.noSpace hprep.ascii).mpr hone
    unfold Allowlisted
    dsimp only
    rw [hread]
    refine ⟨output, hprep.resolved, rfl, ?_, hclean⟩
    intro tokens ht path hp
    exact mem_parents_of_commands ht hp hprep.noSpace

/-! ## two runs -/

/-- A host on which nothing fails. -/
def readyHost (layout : LinkLayout) : Host where
  layout := layout
  loops _ := false
  isFile _ := true
  sha256 _ := .ok preloaderSha256
  validateTool _ := .ok ()
  mkdir _ _ := .ok ()
  create _ := .ok ()

theorem prepared_readyHost {layout : LinkLayout} {args : Args} {output : PosixPath}
    (hmtk : Clean args.mtkRoot) (hpre : Clean args.preloader) (hvalue : Clean args.outputDir)
    (hout : layout.realpath (PosixPath.parse args.outputDir).str = output)
    (hprivate : layout.realpath (PosixPath.parse privateRootText).str ∈ output.parents)
    (hspace : ' ' ∉ output.str.toList) (hascii : Ascii output.str) (hexec : args.execute = true) :
    Prepared (readyHost layout) args output where
  mtkRoot := ⟨_, safePath_eq_ok.mpr ⟨hmtk, rfl, rfl⟩, rfl⟩
  preloader := ⟨_, safePath_eq_ok.mpr ⟨hpre, rfl, rfl⟩, rfl, rfl⟩
  resolved := safePath_eq_ok.mpr ⟨hvalue, rfl, hout⟩
  isPrivate := ⟨_, resolve_eq_ok.mpr ⟨rfl, rfl⟩, hprivate⟩
  noSpace := hspace
  execute := hexec
  mkdir := rfl
  mkdirPass _ _ := rfl
  create := rfl
  ascii := ascii_planText hascii

/-- the container: its working directory, and no link -/
def containerLayout : LinkLayout := ⟨PosixPath.parse privateRootText, by decide, Dict.empty⟩

theorem main_allowlist_default : ∃ file,
    main (readyHost containerLayout) { execute := true } = .ok (some file) ∧
    Allowlisted (readyHost containerLayout) { execute := true } file := by
  have hprep : Prepared (readyHost containerLayout) { execute := true } defaultOutput :=
    prepared_readyHost clean_defaults.1 clean_defaults.2.1 clean_defaults.2.2 (by decide +kernel)
      (by decide +kernel) (by decide +kernel) (by decide +kernel) rfl
  have hmain := hprep.main_eq
  have hcwd : Clean containerLayout.getcwd.str := by decide +kernel
  have hlinks : ∀ text target, containerLayout.readlink text = some target → Clean target := by
    intro text target h
    cases h
  exact ⟨_, hmain, (main_allowlist hmain).mpr (clean_contributed hcwd hlinks)⟩

/-- a link in the private directory, to a directory with line ends in its name -/
def linkedLayout : LinkLayout where
  getcwd := PosixPath.parse privateRootText
  absolute := by decide
  links := ⟨[("/rt7-work/recovery/latest", "/rt7-work/recovery/a\nreset\nb")], by decide⟩

def linkedArgs : Args := { outputDir := "/rt7-work/recovery/latest/out", execute := true }

def linkedOutput : PosixPath := PosixPath.parse "/rt7-work/recovery/a\nreset\nb/out"

/-- The plan file has a line of its own for a part of the directory name. -/
theorem main_linked : ∃ file, main (readyHost linkedLayout) linkedArgs = .ok (some file) ∧
    ["reset"] ∈ readPlan file.content ∧ ¬ Allowlisted (readyHost linkedLayout) linkedArgs file := by
  have hprep : Prepared (readyHost linkedLayout) linkedArgs linkedOutput :=
    prepared_readyHost clean_defaults.1 clean_defaults.2.1 (by decide +kernel) (by decide +kernel)
      (by decide +kernel) (by decide +kernel) (by decide +kernel) rfl
  have hmain := hprep.main_eq
  refine ⟨_, hmain, ?_, ?_⟩
  · obtain ⟨rest, hrest⟩ := buildPlan_eq_cons partitions linkedOutput
    have hgpt : "gpt " ++ (linkedOutput / "pass1").str
        = "gpt /rt7-work/recovery/a" ++ "\n" ++ ("reset" ++ "\n" ++ "b/out/pass1") := by
      decide +kernel
    have h1 : OneLine "gpt /rt7-work/recovery/a" := by decide +kernel
    have h2 : OneLine "reset" := by decide +kernel
    have hreset : split ' ' "reset" = ["reset"] := by decide +kernel
    have hassoc : ∀ a b c r : String, a ++ "\n" ++ (b ++ "\n" ++ c) ++ "\n" ++ r
        = a ++ "\n" ++ (b ++ "\n" ++ (c ++ "\n" ++ r)) := by
      intro a b c r
      simp only [String.append_assoc]
    rw [readPlan_asciiBytes hprep.ascii, planText, join_lines (buildPlan_ne_nil _ _), hrest, hgpt,
      List.map_cons, String.join_cons, hassoc, readLines_line h1, readLines_line h2]
    exact List.mem_map.mpr ⟨"reset", by simp, hreset⟩
  · rintro ⟨output, hout, -, -, hclean⟩
    rw [hprep.resolved] at hout
    cases hout
    exact absurd hclean (by decide +kernel)

end RT7.Capture
