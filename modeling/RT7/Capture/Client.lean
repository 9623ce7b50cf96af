import RT7.Capture.Tablet

/-!
# mtkclient with a plan file

* `Mtkclient`       the program that the capture calls: what a command of a plan writes, and how a plan
  file ends;
* `Captures`        what is assumed of it: it reads a tablet, and takes the commands one after the other;
* `passCommands`, `commands_eq`   the plan is the same for both passes;
* `runCommands_pass`   a pass over a tablet whose partitions are all listed leaves what the tablet holds;
* `written_of_pass`    any other pass still has the tablet's own GPT.
-/

namespace RT7.Capture

open Py Gpt Text

abbrev Files := List (String × Bytes)

structure Mtkclient where
  /-- what the command at a place of the plan writes, or how it fails -/
  runCommand : Nat → List String → Except Exn Files
  /-- the exit status for a plan file, and what was written -/
  runScript : Bytes → Int × Files

/-- one command after the other, until one fails -/
def runCommands (run : Nat → List String → Except Exn Files) : Nat → List (List String) → Except Exn Files
  | _, [] => .ok []
  | n, tokens :: plan => do
    let files ← run n tokens
    let rest ← runCommands run (n + 1) plan
    return files ++ rest

/-- What is assumed of mtkclient; `tablets n` is the tablet while the command `n` runs. -/
structure Captures {crc32 : Bytes → UInt32} (client : Mtkclient) (tablets : Nat → Tablet crc32) : Prop where
  /-- the patched `da_gpt` -/
  gpt : ∀ n directory, client.runCommand n ["gpt", directory]
    = daGpt (some (tablets n).guid) (tablets n).flashSize (tablets n).readflash (some directory)
  /-- A partition that the flash lists is read. -/
  read : ∀ n name path, (tablets n).Lists name →
    client.runCommand n ["r", name, path] = .ok [(path, (tablets n).read name)]
  /-- For any other the command may fail, or write anything to its own path. -/
  unlisted : ∀ n name path files, client.runCommand n ["r", name, path] = .ok files →
    ∀ file ∈ files, file.1 = path
  lu0 : ∀ n path, client.runCommand n ["ro", "0x0", "0x80000", path, "--parttype", "lu0"]
    = .ok [(path, (tablets n).lu0)]
  lu1 : ∀ n path, client.runCommand n ["ro", "0x0", "0x80000", path, "--parttype", "lu1"]
    = .ok [(path, (tablets n).lu1)]
  /-- A plan file is read line by line, and a line at its spaces. -/
  finished : ∀ content files, runCommands client.runCommand 0 (readPlan content) = .ok files →
    client.runScript content = (0, files)
  /-- A command that fails ends the run. -/
  failed : ∀ content e, runCommands client.runCommand 0 (readPlan content) = .error e →
    (client.runScript content).1 ≠ 0

/-- the commands of one pass -/
def passCommands (output : PosixPath) (p : String) : List (List String) :=
  let passOutput := output / p
  [["gpt", passOutput.str]] ++
  (partitions.names.map fun name => ["r", name, (passOutput / binName name).str]) ++
  [["ro", "0x0", "0x80000", (passOutput / "preloader_lu0.bin").str, "--parttype", "lu0"],
    ["ro", "0x0", "0x80000", (passOutput / "preloader_lu1.bin").str, "--parttype", "lu1"]]

/-! ## commands in order -/

section
variable {run : Nat → List String → Except Exn Files} {plan plan' : List (List String)} {files : Files}
  {n : Nat}

theorem runCommands_append : runCommands run n (plan ++ plan') = .ok files ↔
    ∃ first rest, runCommands run n plan = .ok first ∧
      runCommands run (n + plan.length) plan' = .ok rest ∧ files = first ++ rest := by
  induction plan generalizing n files with
  | nil =>
    constructor
    · intro h
      exact ⟨[], files, rfl, h, rfl⟩
    · rintro ⟨first, rest, hfirst, hrest, rfl⟩
      cases hfirst
      exact hrest
  | cons tokens plan ih =>
    rw [List.cons_append, runCommands, bind_eq_ok, List.length_cons, ← Nat.add_assoc, Nat.add_right_comm]
    constructor
    · rintro ⟨own, hown, h⟩
      obtain ⟨tail, htail, h⟩ := bind_eq_ok.mp h
      obtain ⟨first, rest, hfirst, hrest, rfl⟩ := ih.mp htail
      cases h
      refine ⟨own ++ first, rest, ?_, hrest, (List.append_assoc own first rest).symm⟩
      exact bind_eq_ok.mpr ⟨own, hown, bind_eq_ok.mpr ⟨first, hfirst, rfl⟩⟩
    · rintro ⟨first, rest, hfirst, hrest, rfl⟩
      obtain ⟨own, hown, h⟩ := bind_eq_ok.mp hfirst
      obtain ⟨tail, htail, h⟩ := bind_eq_ok.mp h
      cases h
      refine ⟨own, hown, bind_eq_ok.mpr ⟨tail ++ rest, ih.mpr ⟨tail, rest, htail, hrest, rfl⟩, ?_⟩⟩
      rw [List.append_assoc]
      rfl

theorem runCommands_singleton {tokens : List String} :
    runCommands run n [tokens] = .ok files ↔ run n tokens = .ok files := by
  rw [runCommands, bind_eq_ok]
  constructor
  · rintro ⟨own, hown, h⟩
    cases h
    rwa [List.append_nil]
  · intro h
    refine ⟨files, h, ?_⟩
    show Except.ok (files ++ []) = _
    rw [List.append_nil]

theorem runCommands_map {ι : Type} {l : List ι} {command : ι → List String} {file : ι → String × Bytes}
    (h : ∀ k < l.length, ∀ i ∈ l, run (n + k) (command i) = .ok [file i]) :
    runCommands run n (l.map command) = .ok (l.map file) := by
  induction l generalizing n with
  | nil => rfl
  | cons i l ih =>
    have hfirst : run n (command i) = .ok [file i] := h 0 (Nat.succ_pos _) i List.mem_cons_self
    have hrest : runCommands run (n + 1) (l.map command) = .ok (l.map file) := by
      refine ih fun k hk j hj => ?_
      rw [Nat.add_right_comm]
      exact h (k + 1) (Nat.succ_lt_succ hk) j (List.mem_cons_of_mem i hj)
    rw [List.map_cons, runCommands, hfirst, ok_bind, hrest]
    rfl

/-- what holds of every file of every command -/
theorem forall_of_runCommands {P : String × Bytes → Prop}
    (h : ∀ k, ∀ tokens ∈ plan, ∀ own, run k tokens = .ok own → ∀ file ∈ own, P file)
    (hrun : runCommands run n plan = .ok files) : ∀ file ∈ files, P file := by
  induction plan generalizing n files with
  | nil =>
    cases hrun
    exact fun file hfile => absurd hfile List.not_mem_nil
  | cons tokens plan ih =>
    rw [runCommands, bind_eq_ok] at hrun
    obtain ⟨own, hown, hrun⟩ := hrun
    obtain ⟨rest, hrest, hfiles⟩ := bind_eq_ok.mp hrun
    cases hfiles
    intro file hfile
    rcases List.mem_append.mp hfile with hfile | hfile
    · exact h n tokens List.mem_cons_self own hown file hfile
    · exact ih (fun k t ht => h k t (List.mem_cons_of_mem tokens ht)) hrest file hfile

end

/-! ## the plan -/

section
variable {crc32 : Bytes → UInt32} {client : Mtkclient} {tablets : Nat → Tablet crc32} {d first second : Tablet crc32}
  {files : Files} {output : PosixPath} {p : String} {n : Nat}

theorem commands_eq (output : PosixPath) :
    commands partitions output = passCommands output "pass1" ++ passCommands output "pass2" := by
  show _ ++ (_ ++ []) = _
  rw [List.append_nil]
  rfl

theorem length_passCommands : (passCommands output p).length = 20 := by
  rw [passCommands, List.length_append, List.length_append, List.length_map]
  rfl

theorem runCommand_gpt (H : Captures client tablets) (hp : p ∈ capturePasses) (hd : tablets n = d) :
    client.runCommand n ["gpt", (output / p).str] = .ok files ↔
      d.Readable ∧ files = gptFiles d output p := by
  have hdir : (output / p).parts ≠ [] := PosixPath.parts_div_ne_nil (component_pass hp)
  have hgpt := joinPath_str hdir (show Component (binName "gpt") by decide)
  have hbackup := joinPath_str hdir (show Component (binName "gpt_backup") by decide)
  rw [H.gpt, hd, daGpt_eq_ok d.sees, gptFiles, ← hgpt, ← hbackup, ← and_assoc]
  rfl

/-- **One pass.** It ends well where the GPT can be read, and leaves what the tablet holds by then. -/
theorem runCommands_pass (H : Captures client tablets) (hp : p ∈ capturePasses)
    (hd : ∀ k < 20, tablets (n + k) = d) (hlists : ∀ name ∈ partitions.names, d.Lists name) :
    runCommands client.runCommand n (passCommands output p) = .ok files ↔
      d.Readable ∧ files = passFiles d output p := by
  have hlen : partitions.names.length = 17 := by decide
  have hnames : runCommands client.runCommand (n + 1)
      (partitions.names.map fun name => ["r", name, (output / p / binName name).str])
      = .ok (partitions.names.map fun a => ((output / p / binName a).str, d.captured a)) := by
    refine runCommands_map fun k hk name hname => ?_
    have htablet : tablets (n + 1 + k) = d := by
      rw [Nat.add_assoc]
      exact hd (1 + k) (by omega)
    have hlisted : (tablets (n + 1 + k)).Lists name := htablet ▸ hlists name hname
    rw [H.read _ _ _ hlisted, htablet, captured_name hname]
  have hlast : runCommands client.runCommand (n + 18)
      [["ro", "0x0", "0x80000", (output / p / "preloader_lu0.bin").str, "--parttype", "lu0"],
        ["ro", "0x0", "0x80000", (output / p / "preloader_lu1.bin").str, "--parttype", "lu1"]]
      = .ok (["preloader_lu0", "preloader_lu1"].map fun a =>
        ((output / p / binName a).str, d.captured a)) := by
    rw [runCommands, H.lu0, hd 18 (by decide), ok_bind, runCommands, H.lu1, hd 19 (by decide), ok_bind]
    rfl
  have hfirst := hd 0 (by decide)
  rw [Nat.add_zero] at hfirst
  rw [passCommands, List.append_assoc, runCommands_append]
  simp only [runCommands_singleton, runCommand_gpt H hp hfirst]
  constructor
  · rintro ⟨own, rest, ⟨hread, rfl⟩, hrest, rfl⟩
    obtain ⟨mid, last, hmid, hend, rfl⟩ := runCommands_append.mp hrest
    rw [List.length_map, hlen] at hend
    cases hnames.symm.trans hmid
    cases hlast.symm.trans hend
    refine ⟨hread, ?_⟩
    rw [passFiles_eq, List.append_assoc]
  · rintro ⟨hread, rfl⟩
    refine ⟨_, _, ⟨hread, rfl⟩, ?_, passFiles_eq.trans (List.append_assoc ..)⟩
    refine runCommands_append.mpr ⟨_, _, hnames, ?_, rfl⟩
    rw [List.length_map, hlen]
    exact hlast

/-- Whatever is listed, a pass has the tablet's own GPT, and writes nothing but its artifacts. -/
theorem written_of_pass (H : Captures client tablets) (hp : p ∈ capturePasses) (hd : tablets n = d)
    (h : runCommands client.runCommand n (passCommands output p) = .ok files) :
    d.Readable ∧ d.Written output p files := by
  rw [passCommands, List.append_assoc, runCommands_append] at h
  obtain ⟨own, rest, hown, hrest, rfl⟩ := h
  obtain ⟨hread, rfl⟩ := (runCommand_gpt H hp hd).mp (runCommands_singleton.mp hown)
  refine ⟨hread, rest, rfl, ?_⟩
  refine forall_of_runCommands (fun k tokens htokens files hrun file hfile => ?_) hrest
  rcases List.mem_append.mp htokens with htokens | htokens
  · obtain ⟨name, hname, rfl⟩ := List.mem_map.mp htokens
    exact ⟨name, List.mem_append_left _ hname, H.unlisted _ _ _ _ hrun file hfile⟩
  · rcases List.mem_pair.mp htokens with rfl | rfl
    · rw [H.lu0] at hrun
      cases hrun
      rw [List.mem_singleton.mp hfile]
      exact ⟨"preloader_lu0", List.mem_append_right _ (by decide), rfl⟩
    · rw [H.lu1] at hrun
      cases hrun
      rw [List.mem_singleton.mp hfile]
      exact ⟨"preloader_lu1", List.mem_append_right _ (by decide), rfl⟩

/-- The tablet does not change while a pass is read. -/
def Passes (tablets : Nat → Tablet crc32) (first second : Tablet crc32) : Prop :=
  ∀ k < 20, tablets k = first ∧ tablets (20 + k) = second

theorem Passes.in_first (h : Passes tablets first second) : ∀ k < 20, tablets (0 + k) = first := by
  intro k hk
  rw [Nat.zero_add]
  exact (h k hk).1

theorem Passes.in_second (h : Passes tablets first second) :
    ∀ k < 20, tablets (0 + (passCommands output "pass1").length + k) = second := by
  intro k hk
  rw [length_passCommands]
  exact (h k hk).2

/-- both passes over tablets whose partitions are all listed -/
theorem runCommands_commands (H : Captures client tablets) (hpasses : Passes tablets first second)
    (hfirst : ∀ name ∈ partitions.names, first.Lists name)
    (hsecond : ∀ name ∈ partitions.names, second.Lists name) :
    runCommands client.runCommand 0 (commands partitions output) = .ok files ↔
      (first.Readable ∧ second.Readable) ∧
        files = passFiles first output "pass1" ++ passFiles second output "pass2" := by
  rw [commands_eq, runCommands_append]
  simp only [runCommands_pass H (show "pass1" ∈ capturePasses by decide) hpasses.in_first hfirst,
    runCommands_pass H (show "pass2" ∈ capturePasses by decide) hpasses.in_second hsecond]
  constructor
  · rintro ⟨_, _, ⟨hr1, rfl⟩, ⟨hr2, rfl⟩, rfl⟩
    exact ⟨⟨hr1, hr2⟩, rfl⟩
  · rintro ⟨⟨hr1, hr2⟩, rfl⟩
    exact ⟨_, _, ⟨hr1, rfl⟩, ⟨hr2, rfl⟩, rfl⟩

/-- both passes, over any tablets -/
theorem written_of_commands (H : Captures client tablets) (hpasses : Passes tablets first second)
    (h : runCommands client.runCommand 0 (commands partitions output) = .ok files) :
    (first.Readable ∧ second.Readable) ∧ ∃ files₁ files₂, files = files₁ ++ files₂ ∧
      first.Written output "pass1" files₁ ∧ second.Written output "pass2" files₂ := by
  rw [commands_eq, runCommands_append] at h
  obtain ⟨files₁, files₂, h1, h2, rfl⟩ := h
  obtain ⟨hr1, hw1⟩ := written_of_pass H (by decide) (hpasses.in_first 0 (by decide)) h1
  obtain ⟨hr2, hw2⟩ := written_of_pass H (by decide) (hpasses.in_second 0 (by decide)) h2
  exact ⟨⟨hr1, hr2⟩, files₁, files₂, rfl, hw1, hw2⟩

end

end RT7.Capture
