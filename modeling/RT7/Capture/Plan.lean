import RT7.Capture.Table
import RT7.Gpt.Flash

/-!
# The read-only plan and its allowlist check

* `buildPlan`, `validateReadOnlyPlan`   the plan, and the check that precedes its use;
* `commands`        the plan as lists of arguments; `buildPlan` joins each with single spaces
  (`buildPlan_eq_join`);
* `validateReadOnlyPlan_exact`   the check accepts the generated plan and nothing else, and the
  files that the plan writes are the ones that certification expects.
-/

namespace RT7.Capture

open Py Text

/-- The plan handed to mtkclient, one command per partition. -/
def buildPlan (table : Table) (output : PosixPath) : List String :=
  capturePasses.flatMap fun passName =>
    let passOutput := output / passName
    let directory := passOutput.str
    let lu0 := (passOutput / "preloader_lu0.bin").str
    let lu1 := (passOutput / "preloader_lu1.bin").str
    [s!"gpt {directory}"] ++
    (table.names.map fun name =>
      let path := (passOutput / binName name).str
      s!"r {name} {path}") ++
    [s!"ro 0x0 0x80000 {lu0} --parttype lu0", s!"ro 0x0 0x80000 {lu1} --parttype lu1"]

/-- The arguments that the check expects of each command. -/
def commands (table : Table) (output : PosixPath) : List (List String) :=
  capturePasses.flatMap fun passName =>
    let passOutput := output / passName
    [["gpt", passOutput.str]] ++
    (table.names.map fun name => ["r", name, (passOutput / binName name).str]) ++
    [["ro", "0x0", "0x80000", (passOutput / "preloader_lu0.bin").str, "--parttype", "lu0"],
      ["ro", "0x0", "0x80000", (passOutput / "preloader_lu1.bin").str, "--parttype", "lu1"]]

def validateReadOnlyPlan (table : Table) (plan : List String) (output : PosixPath) :
    Except Exn Unit :=
  let actual := plan.map (split ' ')
  raiseIf (actual ≠ commands table output)
    (.systemExit "Internal safety error: recovery plan is not the fixed allowlist")

/-! ## commands as joined arguments -/

theorem gpt_eq_join (directory : String) : s!"gpt {directory}" = join ' ' ["gpt", directory] := by
  have e : "gpt" ++ String.singleton ' ' = "gpt " := by decide
  rw [join_cons_cons, join_singleton, e]
  rfl

theorem r_eq_join (name path : String) : s!"r {name} {path}" = join ' ' ["r", name, path] := by
  have e : "r" ++ String.singleton ' ' = "r " := by decide
  rw [join_cons_cons, join_cons_cons, join_singleton, e]
  show "r " ++ name ++ " " ++ path = "r " ++ (name ++ " " ++ path)
  rw [String.append_assoc, String.append_assoc, String.append_assoc]

theorem ro_eq_join (path lu : String) :
    "ro 0x0 0x80000 " ++ path ++ (" --parttype " ++ lu)
      = join ' ' ["ro", "0x0", "0x80000", path, "--parttype", lu] := by
  have e1 : "ro 0x0 0x80000 " = "ro" ++ String.singleton ' ' ++ ("0x0" ++ String.singleton ' ' ++
      ("0x80000" ++ String.singleton ' ')) := by decide
  have e2 : " --parttype " = String.singleton ' ' ++ ("--parttype" ++ String.singleton ' ') := by
    decide
  rw [e1, e2]
  simp only [join_cons_cons, join_singleton, String.append_assoc]

theorem buildPlan_eq_join (table : Table) (output : PosixPath) :
    buildPlan table output = (commands table output).map (join ' ') := by
  rw [buildPlan, commands, List.map_flatMap]
  congr 1
  funext passName
  have hr : (table.names.map fun name => s!"r {name} " ++ (output / passName / binName name).str)
      = table.names.map (join ' ' ∘ fun name => ["r", name, (output / passName / binName name).str]) :=
    List.map_congr_left fun name _ => r_eq_join name _
  have e0 : " --parttype " ++ "lu0" = " --parttype lu0" := by decide
  have e1 : " --parttype " ++ "lu1" = " --parttype lu1" := by decide
  simp only [List.map_append, List.map_cons, List.map_nil, List.map_map]
  rw [← gpt_eq_join, ← ro_eq_join, ← ro_eq_join, ← hr, e0, e1]
  rfl

theorem mem_commands {table : Table} {output : PosixPath} {tokens : List String} :
    tokens ∈ commands table output ↔ ∃ passName ∈ capturePasses,
      tokens = ["gpt", (output / passName).str] ∨
      (∃ name ∈ table.names, tokens = ["r", name, (output / passName / binName name).str]) ∨
      (∃ lu ∈ ["lu0", "lu1"], tokens = ["ro", "0x0", "0x80000",
        (output / passName / binName ("preloader_" ++ lu)).str, "--parttype", lu]) := by
  rw [commands, List.mem_flatMap]
  refine exists_congr fun passName => and_congr_right fun _ => ?_
  have e0 : binName ("preloader_" ++ "lu0") = "preloader_lu0.bin" := by decide
  have e1 : binName ("preloader_" ++ "lu1") = "preloader_lu1.bin" := by decide
  rw [List.append_assoc, List.mem_append, List.mem_append, List.mem_singleton, List.mem_map]
  refine or_congr_right (or_congr (exists_congr fun name => and_congr_right fun _ => eq_comm) ?_)
  rw [List.mem_cons, List.mem_singleton, List.exists_mem_cons_iff, List.exists_mem_cons_iff, e0, e1]
  simp

/-! ## the check is exact -/

section
variable {table : Table} {output : PosixPath}

theorem mem_str_pass {c : Char} (hs : c ≠ '/') (hd : c ≠ '.') {passName : String}
    (hp : passName ∈ capturePasses) :
    c ∈ (output / passName).str.toList ↔ c ∈ output.str.toList ∨ c ∈ passName.toList := by
  rw [PosixPath.mem_toList_str hs hd, PosixPath.mem_toList_str hs hd,
    PosixPath.parts_div (component_pass hp)]
  simp [or_and_right, exists_or]

/-- The words of the plan that are neither names of the table nor the output path. -/
def planWords : List String :=
  ["gpt", "r", "ro", "0x0", "0x80000", "--parttype", "lu0", "lu1", "preloader_", ".bin", "pass1",
    "pass2", "/"]

section
variable {P : Char → Prop}

theorem forall_str_div {p : PosixPath} {n : String} (hn : Component n) (hslash : P '/')
    (hp : ∀ c ∈ p.str.toList, P c) (hname : ∀ c ∈ n.toList, P c) :
    ∀ c ∈ (p / n).str.toList, P c := by
  intro c hc
  obtain h | rfl | h := PosixPath.mem_toList_str_div hn hc
  · exact hp c h
  · exact hslash
  · exact hname c h

/-- What holds of every character of the words, the names and the output path holds of every
character of an argument. -/
theorem forall_commands (hwords : ∀ word ∈ planWords, ∀ c ∈ word.toList, P c)
    (hnames : ∀ name ∈ table.names, ∀ c ∈ name.toList, P c) (hout : ∀ c ∈ output.str.toList, P c)
    {tokens : List String} (h : tokens ∈ commands table output) :
    ∀ t ∈ tokens, ∀ c ∈ t.toList, P c := by
  have hslash : P '/' := hwords "/" (by decide) '/' (by decide)
  have hbin : ∀ {a}, (∀ c ∈ a.toList, P c) → ∀ c ∈ (binName a).toList, P c :=
    fun ha => forall_append ha (hwords ".bin" (by decide))
  obtain ⟨passName, hp, h⟩ := mem_commands.mp h
  have hpasses : ∀ p ∈ capturePasses, p ∈ planWords := by decide
  have hdir := forall_str_div (component_pass hp) hslash hout (hwords passName (hpasses passName hp))
  obtain rfl | ⟨name, hn, rfl⟩ | ⟨lu, hlu, rfl⟩ := h
  · simp only [List.forall_mem_cons]
    exact ⟨hwords "gpt" (by decide), hdir, List.forall_mem_nil _⟩
  · have hname := hnames name hn
    have hpath := forall_str_div (component_binName (table.noSlash name hn)) hslash hdir (hbin hname)
    simp only [List.forall_mem_cons]
    exact ⟨hwords "r" (by decide), hname, hpath, List.forall_mem_nil _⟩
  · have hlus : ∀ l ∈ ["lu0", "lu1"], l ∈ planWords ∧ '/' ∉ ("preloader_" ++ l).toList := by decide
    have hl := hwords lu (hlus lu hlu).1
    have hpath := forall_str_div (component_binName (hlus lu hlu).2) hslash hdir
      (hbin (forall_append (hwords "preloader_" (by decide)) hl))
    simp only [List.forall_mem_cons]
    exact ⟨hwords "ro" (by decide), hwords "0x0" (by decide), hwords "0x80000" (by decide), hpath,
      hwords "--parttype" (by decide), hl, List.forall_mem_nil _⟩

end

/-- no argument of the plan holds a space, when the output path does not -/
theorem noSpace_commands (hout : ' ' ∉ output.str.toList) {tokens : List String}
    (h : tokens ∈ commands table output) : ∀ t ∈ tokens, ' ' ∉ t.toList := by
  have hwords : ∀ word ∈ planWords, ' ' ∉ word.toList := by decide
  have hne : ∀ {s : String}, ' ' ∉ s.toList → ∀ c ∈ s.toList, c ≠ ' ' := fun h c hc e => h (e ▸ hc)
  have hall := forall_commands (fun w hw => hne (hwords w hw))
    (fun n hn => hne (table.noSpace n hn)) (hne hout) h
  intro t ht hc
  exact hall t ht ' ' hc rfl

theorem commands_ne_nil {tokens : List String} (h : tokens ∈ commands table output) :
    tokens ≠ [] := by
  obtain ⟨passName, -, h | ⟨name, -, h⟩ | ⟨lu, -, h⟩⟩ := mem_commands.mp h
  · exact h ▸ List.cons_ne_nil _ _
  · exact h ▸ List.cons_ne_nil _ _
  · exact h ▸ List.cons_ne_nil _ _

/-- splitting the commands of the plan gives their arguments back -/
theorem split_buildPlan (hout : ' ' ∉ output.str.toList) :
    (buildPlan table output).map (split ' ') = commands table output := by
  rw [buildPlan_eq_join, List.map_map]
  refine Eq.trans (List.map_congr_left fun tokens h => ?_) (List.map_id _)
  exact split_join (commands_ne_nil h) (noSpace_commands hout h)

/-- a plan that splits into the commands is the generated one -/
theorem eq_buildPlan {plan : List String} (h : plan.map (split ' ') = commands table output) :
    plan = buildPlan table output := by
  rw [buildPlan_eq_join, ← h, List.map_map]
  refine Eq.trans (List.map_id _).symm (List.map_congr_left fun c _ => ?_)
  exact (join_split ' ' c).symm

/-- the directory of the first command shows that the output path holds no space -/
theorem noSpace_of_split {plan : List String} (h : plan.map (split ' ') = commands table output) :
    ' ' ∉ output.str.toList := by
  have hp : "pass1" ∈ capturePasses := by decide
  have hmem : ["gpt", (output / "pass1").str] ∈ commands table output :=
    mem_commands.mpr ⟨"pass1", hp, .inl rfl⟩
  rw [← h] at hmem
  obtain ⟨c, -, hc⟩ := List.mem_map.mp hmem
  have hdir : ' ' ∉ (output / "pass1").str.toList := by
    apply not_mem_of_mem_split (s := c)
    rw [hc]
    exact List.mem_cons_of_mem _ List.mem_cons_self
  intro hspace
  exact hdir ((mem_str_pass (by decide) (by decide) hp).mpr (.inl hspace))

theorem validateReadOnlyPlan_eq_ok {plan : List String} :
    validateReadOnlyPlan table plan output = .ok () ↔
      ' ' ∉ output.str.toList ∧ plan = buildPlan table output := by
  rw [validateReadOnlyPlan, raiseIf_eq_ok, not_not]
  constructor
  · intro h
    exact ⟨noSpace_of_split h, eq_buildPlan h⟩
  · rintro ⟨hout, rfl⟩
    exact split_buildPlan hout

end

/-! ## the files that the plan writes -/

/-- The files that one command writes: `gpt` leaves the two spans in its directory. -/
def commandFiles (tokens : List String) : List String :=
  match tokens with
  | ["gpt", directory] => [Gpt.gptFilename directory, Gpt.gptBackupFilename directory]
  | ["r", _, path] => [path]
  | ["ro", _, _, path, _, _] => [path]
  | _ => []

/-- every file that mtkclient writes when it follows the plan -/
def destinations (plan : List String) : List String :=
  plan.flatMap fun command => commandFiles (split ' ' command)

/-- The names below a directory, among the files at the given paths. -/
def namesIn (directory : PosixPath) (paths : List String) : List String :=
  (paths.map PosixPath.parse).filterMap fun path =>
    if path.parent = directory then some path.name else none

section
variable {table : Table} {output : PosixPath}

theorem joinPath_str {p : PosixPath} (hp : p.parts ≠ []) {n : String} (hn : Component n) :
    Gpt.joinPath p.str n = (p / n).str := by
  have hhead : n.toList.head? ≠ some '/' := fun e => hn.2.2 (List.mem_of_mem_head? e)
  have hend : ¬ (p.str = "" ∨ p.str.toList.getLast? = some '/') :=
    not_or.mpr ⟨PosixPath.str_ne_empty p, PosixPath.getLast_str_ne hp⟩
  rw [Gpt.joinPath, if_neg hhead, if_neg hend, PosixPath.str_div hp hn]

theorem destinations_buildPlan (hout : ' ' ∉ output.str.toList) :
    destinations (buildPlan table output) = capturePasses.flatMap fun passName =>
      table.artifacts.map fun a => (output / passName / binName a).str := by
  have e : destinations (buildPlan table output) =
      ((buildPlan table output).map (split ' ')).flatMap commandFiles := by
    rw [destinations, List.flatMap_map]
  rw [e, split_buildPlan hout, commands, List.flatMap_assoc]
  refine List.flatMap_congr fun passName hp => ?_
  have hdir : (output / passName).parts ≠ [] := PosixPath.parts_div_ne_nil (component_pass hp)
  have hgpt := joinPath_str hdir (show Component "gpt.bin" by decide)
  have hbackup := joinPath_str hdir (show Component "gpt_backup.bin" by decide)
  have e1 : binName "gpt" = "gpt.bin" := by decide
  have e2 : binName "gpt_backup" = "gpt_backup.bin" := by decide
  have e3 : binName "preloader_lu0" = "preloader_lu0.bin" := by decide
  have e4 : binName "preloader_lu1" = "preloader_lu1.bin" := by decide
  simp only [Table.artifacts, List.flatMap_append, List.flatMap_cons, List.flatMap_nil,
    List.flatMap_map, List.map_append, List.map_cons, List.map_nil, commandFiles, Gpt.gptFilename,
    Gpt.gptBackupFilename, Option.getD_some, hgpt, hbackup, e1, e2, e3, e4]
  rw [← List.map_eq_flatMap]
  rfl

theorem component_artifact {a : String} (h : a ∈ table.artifacts) : Component (binName a) :=
  component_binName (table.noSlash_artifacts h)

/-- different passes and different artifacts have different paths -/
theorem str_artifact_inj {p q a b : String} (hp : p ∈ capturePasses) (hq : q ∈ capturePasses)
    (ha : a ∈ table.artifacts) (hb : b ∈ table.artifacts)
    (h : (output / p / binName a).str = (output / q / binName b).str) : p = q ∧ a = b := by
  have h1 := (PosixPath.div_inj (component_artifact ha) (component_artifact hb)).mp
    (PosixPath.str_injective h)
  have h2 := (PosixPath.div_inj (component_pass hp) (component_pass hq)).mp h1.1
  exact ⟨h2.2, binName_injective h1.2⟩

theorem nodup_destinations (hout : ' ' ∉ output.str.toList) :
    (destinations (buildPlan table output)).Nodup := by
  rw [destinations_buildPlan hout, List.nodup_flatMap]
  constructor
  · intro p hp
    refine List.Nodup.map_on ?_ table.artifacts_nodup
    intro a ha b hb h
    exact (str_artifact_inj hp hp ha hb h).2
  · have hpasses : capturePasses.Pairwise fun p q => p ≠ q := by decide
    refine hpasses.imp_of_mem ?_
    intro p q hp hq hne path h1 h2
    obtain ⟨a, ha, rfl⟩ := List.mem_map.mp h1
    obtain ⟨b, hb, hab⟩ := List.mem_map.mp h2
    exact hne (str_artifact_inj hp hq ha hb hab.symm).1

theorem mem_destinations (hout : ' ' ∉ output.str.toList) {path : String} :
    path ∈ destinations (buildPlan table output) ↔ ∃ passName ∈ capturePasses,
      ∃ name ∈ expectedNames table.sizes, path = (output / passName / name).str := by
  rw [destinations_buildPlan hout, List.mem_flatMap]
  refine exists_congr fun passName => and_congr_right fun _ => ?_
  rw [List.mem_map]
  constructor
  · rintro ⟨a, ha, rfl⟩
    exact ⟨binName a, table.mem_expectedNames.mpr ⟨a, ha, rfl⟩, rfl⟩
  · rintro ⟨name, hn, rfl⟩
    obtain ⟨a, ha, rfl⟩ := table.mem_expectedNames.mp hn
    exact ⟨a, ha, rfl⟩

/-- the names that the plan leaves in one of the two directories -/
theorem namesIn_pass {p q : String} (hp : p ∈ capturePasses) (hq : q ∈ capturePasses) :
    namesIn (output / p) (table.artifacts.map fun a => (output / q / binName a).str)
      = if q = p then table.artifacts.map binName else [] := by
  have hpath : ∀ a ∈ table.artifacts,
      (if (PosixPath.parse (output / q / binName a).str).parent = output / p then
        some (PosixPath.parse (output / q / binName a).str).name else none)
      = if q = p then some (binName a) else none := by
    intro a ha
    have hc := component_artifact ha
    have hiff : output / q = output / p ↔ q = p := by
      rw [PosixPath.div_inj (component_pass hq) (component_pass hp)]
      exact and_iff_right rfl
    rw [PosixPath.parse_str, PosixPath.parent_div hc, PosixPath.name_div hc]
    exact if_congr hiff rfl rfl
  rw [namesIn, List.map_map, List.filterMap_map]
  by_cases h : q = p
  · rw [if_pos h, ← List.filterMap_eq_map]
    refine List.filterMap_congr fun a ha => ?_
    rw [Function.comp_apply, Function.comp_apply, hpath a ha, if_pos h]
    rfl
  · rw [if_neg h, List.filterMap_eq_nil_iff]
    intro a ha
    rw [Function.comp_apply, Function.comp_apply, hpath a ha, if_neg h]

theorem namesIn_destinations (hout : ' ' ∉ output.str.toList) {p : String}
    (hp : p ∈ capturePasses) :
    (namesIn (output / p) (destinations (buildPlan table output))).Perm
      (expectedNames table.sizes) := by
  have happ : ∀ xs ys, namesIn (output / p) (xs ++ ys)
      = namesIn (output / p) xs ++ namesIn (output / p) ys := by
    intro xs ys
    rw [namesIn, List.map_append, List.filterMap_append]
    rfl
  have h1 : "pass1" ∈ capturePasses := by decide
  have h2 : "pass2" ∈ capturePasses := by decide
  refine List.Perm.trans (List.Perm.of_eq ?_) table.expectedNames_perm.symm
  rw [destinations_buildPlan hout]
  show namesIn (output / p) (_ ++ (_ ++ [])) = _
  rw [List.append_nil, happ, namesIn_pass hp h1, namesIn_pass hp h2]
  have hcases : p = "pass1" ∨ p = "pass2" := by simpa [capturePasses] using hp
  cases hcases with
  | inl h => rw [if_pos h.symm, if_neg (by rw [h]; decide), List.append_nil]
  | inr h => rw [if_neg (by rw [h]; decide), if_pos h.symm, List.nil_append]

end

/-- **The allowlist check is exact, and the plan writes what certification expects.** -/
theorem validateReadOnlyPlan_exact (table : Table) (output : PosixPath) :
    (∀ plan, validateReadOnlyPlan table plan output = .ok () ↔
      ' ' ∉ output.str.toList ∧ plan = buildPlan table output) ∧
    (' ' ∉ output.str.toList →
      (destinations (buildPlan table output)).Nodup ∧
      (∀ path, path ∈ destinations (buildPlan table output) ↔ ∃ passName ∈ capturePasses,
        ∃ name ∈ expectedNames table.sizes, path = (output / passName / name).str) ∧
      ∀ passName ∈ capturePasses,
        (namesIn (output / passName) (destinations (buildPlan table output))).Perm
          (expectedNames table.sizes)) :=
  ⟨fun _ => validateReadOnlyPlan_eq_ok, fun hout => ⟨nodup_destinations hout,
    fun _ => mem_destinations hout, fun _ hp => namesIn_destinations hout hp⟩⟩

/-- the default output directory -/
def defaultOutput : PosixPath := PosixPath.parse "/rt7-work/recovery/rt7-installed-v04-20231205"

theorem validateReadOnlyPlan_exact_default :
    (destinations (buildPlan partitions defaultOutput)).Nodup ∧
    ∀ passName ∈ capturePasses,
      (namesIn (defaultOutput / passName) (destinations (buildPlan partitions defaultOutput))).Perm
        (expectedNames partitions.sizes) :=
  have h := (validateReadOnlyPlan_exact partitions defaultOutput).2 (by decide)
  ⟨h.1, h.2.2⟩

end RT7.Capture
