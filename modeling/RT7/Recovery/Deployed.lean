import Mathlib.Logic.Relation
import RT7.Copy.Accept
import RT7.Recovery.Deploy
import RT7.Recovery.Services

/-!
# What a deployment leaves on the device

* `adbLog`          the commands of `adb` in a talk, with their results;
* `plan`            the commands of a complete run, in their order;
* `Checked`         what the answers have shown before the starter is run;
* `Allowed`, `Ended`   what every question of a run must satisfy, and what an exit code says;
* `World`, `serve`  the device behind the commands, which changes by itself between them, and what
  their results are taken to say about it;
* `AdbRun`          what the commands of a talk do to it, one after the other;
* `deploy_started`  every run, whatever the commands answer, and the device after an exit code of 0.
-/

namespace RT7.Recovery.Deploy

open Dialogue PowerShell
open Shell (Yields)

variable (culture : Culture) (o : Options)

abbrev Call := Exchange Answer

/-! ## reading a talk -/

/-- the arguments of a command of `adb` -/
def adbOf (command : List String) : Option (List String) :=
  if adbPrefix o <+: command then some (command.drop (adbPrefix o).length) else none

def Exchange.adb : Call → Option (List String × Result)
  | ⟨.docker command, result⟩ => (adbOf o command).map fun arguments => (arguments, result)
  | _ => none

def adbLog (t : List Call) : List (List String × Result) := t.filterMap (Exchange.adb o)

def Exchange.isSsh : Call → Bool
  | ⟨.ssh _, _⟩ => true
  | _ => false

/-- the commands of a complete run -/
def plan : List (List String) :=
  [getState, getBootMode, getHardware] ++
    (if o.skipPush then [] else [pushImageArguments o, hashImage, pushStarter]) ++
    [makeExecutable, runStarter, forwardPort o]

/-- The device is the right one, and in recovery. -/
def TargetChecked (t : List Call) : Prop :=
  (∃ r, (getBootMode, r) ∈ adbLog o t ∧ culture.equals (trim r.output) "recovery" = true) ∧
    ∃ r, (getHardware, r) ∈ adbLog o t ∧ culture.equals (trim r.output) "mt6853" = true

/-- The hash that the device has printed is that of the image. -/
def HashChecked (t : List Call) : Prop :=
  ∃ digest r, (⟨.getFileHash o.image, .ok digest⟩ : Call) ∈ t ∧ (hashImage, r) ∈ adbLog o t ∧
    culture.equals (actualHash culture r.output) digest.hexdigest = true

structure Checked (t : List Call) : Prop where
  target : TargetChecked culture o t
  hash : o.skipPush = false → HashChecked culture o t

/-- The commands so far are `done`, and none has failed. -/
structure At (done : List (List String)) (t : List Call) : Prop where
  commands : (adbLog o t).map Prod.fst = done
  succeeded : ∀ x ∈ adbLog o t, x.2.code = 0
  quiet : t.countP Exchange.isSsh = 0

def Allowed (before : List Call) : Question → Prop
  | .docker command =>
    command = inspectCommand o ∨ ∃ arguments, command = dockerCommand o arguments ∧
      (adbLog o before).map Prod.fst ++ [arguments] <+: plan o ∧
      (∀ x ∈ adbLog o before, x.2.code = 0) ∧
      (3 ≤ (adbLog o before).length → TargetChecked culture o before) ∧
      (arguments = runStarter → Checked culture o before)
  | .ssh command => command = sshArguments o ∧ (adbLog o before).map Prod.fst = plan o ∧
      before.countP Exchange.isSsh < 30
  | _ => True

/-- A run that exits has got an answer from the health check. -/
def Ended (t : List Call) (r : Except Thrown Int) : Prop :=
  ∀ code, r = .ok code → code = 0 ∧ (adbLog o t).map Prod.fst = plan o ∧
    (∀ x ∈ adbLog o t, x.2.code = 0) ∧ Checked culture o t ∧
    ∃ t', t = t' ++ [⟨.ssh (sshArguments o), (0 : Int)⟩]

variable {culture o} {t before : List Call} {done : List (List String)} {arguments : List String}
  {result : Result}

theorem adbOf_dockerCommand (arguments : List String) :
    adbOf o (dockerCommand o arguments) = some arguments := by
  have hprefix : adbPrefix o <+: dockerCommand o arguments := List.prefix_append _ _
  rw [adbOf, if_pos hprefix, dockerCommand, List.drop_left]

theorem adbOf_inspect : adbOf o (inspectCommand o) = none := by
  refine if_neg fun h => ?_
  have hne : "run" ≠ "inspect" := by decide
  obtain ⟨rest, hrest⟩ := h
  exact hne (List.cons.inj hrest).1

theorem adbLog_append (t t' : List Call) : adbLog o (t ++ t') = adbLog o t ++ adbLog o t' :=
  List.filterMap_append

theorem adb_docker (arguments : List String) (result : Result) :
    Exchange.adb o ⟨.docker (dockerCommand o arguments), result⟩ = some (arguments, result) := by
  show (adbOf o (dockerCommand o arguments)).map (fun arguments => (arguments, result)) = _
  rw [adbOf_dockerCommand]
  rfl

theorem adb_inspect (result : Result) :
    Exchange.adb o ⟨.docker (inspectCommand o), result⟩ = none := by
  show (adbOf o (inspectCommand o)).map (fun arguments => (arguments, result)) = _
  rw [adbOf_inspect]
  rfl

theorem adbLog_concat (before : List Call) (arguments : List String) (result : Result) :
    adbLog o (before ++ [⟨.docker (dockerCommand o arguments), result⟩]) =
      adbLog o before ++ [(arguments, result)] := by
  rw [adbLog_append]
  unfold adbLog
  rw [List.filterMap_cons_some (adb_docker arguments result)]
  rfl

/-- an exchange that is no command of `adb` -/
theorem adbLog_other {e : Call} (h : Exchange.adb o e = none) :
    adbLog o (before ++ [e]) = adbLog o before := by
  have hone : adbLog o [e] = [] := List.filterMap_cons_none h
  rw [adbLog_append, hone, List.append_nil]

theorem TargetChecked.append (h : TargetChecked culture o t) (t' : List Call) :
    TargetChecked culture o (t ++ t') := by
  obtain ⟨⟨r, hr, hmode⟩, r', hr', hhardware⟩ := h
  unfold TargetChecked
  rw [adbLog_append]
  exact ⟨⟨r, List.mem_append_left _ hr, hmode⟩, r', List.mem_append_left _ hr', hhardware⟩

theorem HashChecked.append (h : HashChecked culture o t) (t' : List Call) :
    HashChecked culture o (t ++ t') := by
  obtain ⟨digest, r, hfile, hr, heq⟩ := h
  unfold HashChecked
  rw [adbLog_append]
  exact ⟨digest, r, List.mem_append_left _ hfile, List.mem_append_left _ hr, heq⟩

theorem Checked.append (h : Checked culture o t) (t' : List Call) : Checked culture o (t ++ t') :=
  ⟨h.target.append t', fun hpush => (h.hash hpush).append t'⟩

namespace At

theorem concat (h : At o done before) (arguments : List String) (hcode : result.code = 0) :
    At o (done ++ [arguments]) (before ++ [⟨.docker (dockerCommand o arguments), result⟩]) where
  commands := by rw [adbLog_concat, List.map_append, h.commands]; rfl
  succeeded x hx := by
    rw [adbLog_concat] at hx
    rcases List.mem_append.mp hx with hx | hx
    · exact h.succeeded x hx
    · rw [List.mem_singleton.mp hx]
      exact hcode
  quiet := by
    rw [List.countP_append, h.quiet]
    rfl

theorem other (h : At o done before) {e : Call} (he : Exchange.adb o e = none)
    (hssh : Exchange.isSsh e = false) : At o done (before ++ [e]) where
  commands := by rw [adbLog_other he, h.commands]
  succeeded := by
    rw [adbLog_other he]
    exact h.succeeded
  quiet := by
    rw [List.countP_append, h.quiet, List.countP_singleton, hssh]
    rfl

end At

/-! ## every run is safe -/

section safe
variable {α : Type} {post : List Call → Except Thrown α → Prop}

theorem safe_invokeAdb {f : String → Script α} (h : At o done before)
    (hplan : done ++ [arguments] <+: plan o)
    (htarget : 3 ≤ done.length → TargetChecked culture o before)
    (hstart : arguments = runStarter → Checked culture o before)
    (hpost : ∀ t e, post t (.error e))
    (hnext : ∀ result : Result, result.code = 0 → Safe (Allowed culture o) post (f result.output)
      (before ++ [⟨.docker (dockerCommand o arguments), result⟩])) :
    Safe (Allowed culture o) post (invokeAdb o arguments >>= f) before := by
  have hlength : (adbLog o before).length = done.length := by rw [← h.commands, List.length_map]
  refine safe_bind.mpr (safe_query_bind.mpr ⟨Or.inr ?_, fun result => ?_⟩)
  · refine ⟨arguments, rfl, by rwa [h.commands], h.succeeded, ?_, hstart⟩
    rw [hlength]
    exact htarget
  · refine safe_bind.mpr (safe_failIf.mpr ⟨fun _ => hpost _ _, fun hcode => ?_⟩)
    exact hnext result (not_not.mp hcode)

theorem safe_requireFile {path : String} {f : Unit → Script α} (h : At o done before)
    (hpost : ∀ t e, post t (.error e))
    (hnext : ∀ t, At o done t → Safe (Allowed culture o) post (f ()) t) :
    Safe (Allowed culture o) post (requireFile path >>= f) before := by
  refine safe_bind.mpr (safe_query_bind.mpr ⟨trivial, fun found => ?_⟩)
  exact safe_failIf.mpr ⟨fun _ => hpost _ _, fun _ => hnext _ (h.other rfl rfl)⟩

theorem safe_checkContainer {f : Unit → Script α} (h : At o done before)
    (hpost : ∀ t e, post t (.error e))
    (hnext : ∀ t, At o done t → Safe (Allowed culture o) post (f ()) t) :
    Safe (Allowed culture o) post (checkContainer culture o >>= f) before := by
  refine safe_bind.mpr (safe_query_bind.mpr ⟨Or.inl rfl, fun result => ?_⟩)
  have hat := h.other (adb_inspect result) rfl
  refine safe_bind.mpr (safe_failIf.mpr ⟨fun _ => hpost _ _, fun _ => ?_⟩)
  refine safe_bind.mpr (safe_failIf.mpr ⟨fun _ => hpost _ _, fun _ => ?_⟩)
  cases (splitBar (trim result.output)).2 with
  | none => exact hpost _ _
  | some image => exact safe_failIf.mpr ⟨fun _ => hpost _ _, fun _ => hnext _ hat⟩

theorem mem_adbLog_concat (before : List Call) (arguments : List String) (result : Result) :
    (arguments, result) ∈
      adbLog o (before ++ [⟨.docker (dockerCommand o arguments), result⟩]) := by
  rw [adbLog_concat]
  exact List.mem_append_right _ List.mem_cons_self

theorem mem_adbLog_append {x : List String × Result} (h : x ∈ adbLog o t) (t' : List Call) :
    x ∈ adbLog o (t ++ t') := by
  rw [adbLog_append]
  exact List.mem_append_left _ h

theorem safe_checkTarget {f : Unit → Script α} (h : At o [] before)
    (hpost : ∀ t e, post t (.error e))
    (hnext : ∀ t, At o [getState, getBootMode, getHardware] t → TargetChecked culture o t →
      Safe (Allowed culture o) post (f ()) t) :
    Safe (Allowed culture o) post (checkTarget culture o >>= f) before := by
  refine safe_bind.mpr ?_
  refine safe_invokeAdb h ⟨_, rfl⟩ (fun hlt => absurd hlt (by decide)) (fun he => absurd he (by decide))
    (fun t e => hpost t e) fun r1 h1 => ?_
  refine safe_invokeAdb (h.concat _ h1) ⟨_, rfl⟩ (fun hlt => absurd hlt (by decide))
    (fun he => absurd he (by decide)) (fun t e => hpost t e) fun r2 h2 => ?_
  refine safe_invokeAdb ((h.concat _ h1).concat _ h2) ⟨_, rfl⟩ (fun hlt => absurd hlt (by decide))
    (fun he => absurd he (by decide)) (fun t e => hpost t e) fun r3 h3 => ?_
  refine safe_bind.mpr (safe_failIf.mpr ⟨fun _ => hpost _ _, fun hmode => ?_⟩)
  refine safe_failIf.mpr ⟨fun _ => hpost _ _, fun hhardware => ?_⟩
  refine hnext _ (((h.concat _ h1).concat _ h2).concat _ h3) ⟨⟨r2, ?_, ?_⟩, r3, ?_, ?_⟩
  · exact mem_adbLog_append (mem_adbLog_concat _ _ _) _
  · exact (Bool.not_eq_false _).mp hmode
  · exact mem_adbLog_concat _ _ _
  · exact (Bool.not_eq_false _).mp hhardware

theorem safe_pushImage {f : Unit → Script α} (hpush : o.skipPush = false)
    (h : At o [getState, getBootMode, getHardware] before) (htarget : TargetChecked culture o before)
    (hpost : ∀ t e, post t (.error e))
    (hnext : ∀ t, At o [getState, getBootMode, getHardware, pushImageArguments o, hashImage, pushStarter] t →
      Checked culture o t → Safe (Allowed culture o) post (f ()) t) :
    Safe (Allowed culture o) post (pushImage culture o >>= f) before := by
  have hplan : plan o = [getState, getBootMode, getHardware, pushImageArguments o, hashImage, pushStarter,
      makeExecutable, runStarter, forwardPort o] := by
    rw [plan, hpush]
    rfl
  refine safe_bind.mpr (safe_bind.mpr (safe_request.mpr ⟨trivial, fun answer => ?_⟩))
  cases answer with
  | error text => exact hpost _ _
  | ok digest =>
    have h0 : At o [getState, getBootMode, getHardware] (before ++ [⟨.getFileHash o.image, .ok digest⟩]) :=
      h.other rfl rfl
    have ht0 := htarget.append [⟨.getFileHash o.image, .ok digest⟩]
    refine safe_invokeAdb h0 (hplan ▸ ⟨_, rfl⟩) (fun _ => ht0) (fun he => absurd he ?_)
      (fun t e => hpost t e) fun r1 h1 => ?_
    · exact fun heq => absurd (List.cons.inj heq).1 (by decide)
    refine safe_invokeAdb (h0.concat _ h1) (hplan ▸ ⟨_, rfl⟩) (fun _ => ht0.append _)
      (fun he => absurd he (by decide)) (fun t e => hpost t e) fun r2 h2 => ?_
    refine safe_bind.mpr (safe_failIf.mpr ⟨fun _ => hpost _ _, fun hhash => ?_⟩)
    have hchecked : HashChecked culture o ((before ++ [⟨.getFileHash o.image, .ok digest⟩] ++
        [⟨.docker (dockerCommand o (pushImageArguments o)), r1⟩]) ++
        [⟨.docker (dockerCommand o hashImage), r2⟩]) := by
      refine ⟨digest, r2, ?_, mem_adbLog_concat _ _ _, (Bool.not_eq_false _).mp hhash⟩
      exact List.mem_append_left _ (List.mem_append_left _ (List.mem_append_right _ List.mem_cons_self))
    refine safe_invokeAdb ((h0.concat _ h1).concat _ h2) (hplan ▸ ⟨_, rfl⟩)
      (fun _ => (ht0.append _).append _) (fun he => absurd he (by decide)) (fun t e => hpost t e)
      fun r3 h3 => ?_
    exact hnext _ (((h0.concat _ h1).concat _ h2).concat _ h3)
      ⟨((ht0.append _).append _).append _, fun _ => hchecked.append _⟩

theorem safe_startRemote {f : Unit → Script α}
    (hplan : done ++ [makeExecutable, runStarter, forwardPort o] = plan o) (h : At o done before)
    (hchecked : Checked culture o before) (hpost : ∀ t e, post t (.error e))
    (hnext : ∀ t, At o (plan o) t → Checked culture o t → Safe (Allowed culture o) post (f ()) t) :
    Safe (Allowed culture o) post (startRemote o >>= f) before := by
  refine safe_bind.mpr ?_
  refine safe_invokeAdb h ⟨[runStarter, forwardPort o], ?_⟩ (fun _ => hchecked.target)
    (fun _ => hchecked) (fun t e => hpost t e) fun r1 h1 => ?_
  · rw [List.append_assoc]
    exact hplan
  refine safe_invokeAdb (h.concat _ h1) ⟨[forwardPort o], ?_⟩ (fun _ => (hchecked.append _).target)
    (fun _ => hchecked.append _) (fun t e => hpost t e) fun r2 h2 => ?_
  · rw [List.append_assoc, List.append_assoc]
    exact hplan
  have h12 := (hchecked.append [⟨.docker (dockerCommand o makeExecutable), r1⟩]).append
    [⟨.docker (dockerCommand o runStarter), r2⟩]
  refine safe_invokeAdb ((h.concat _ h1).concat _ h2) ⟨[], ?_⟩ (fun _ => h12.target) (fun _ => h12)
    (fun t e => hpost t e) fun r3 h3 => ?_
  · rw [List.append_nil, List.append_assoc, List.append_assoc]
    exact hplan
  refine hnext _ ?_ (h12.append _)
  have hall := ((h.concat makeExecutable h1).concat runStarter h2).concat (forwardPort o) h3
  rw [List.append_assoc, List.append_assoc] at hall
  exact hplan ▸ hall

/-- what holds in the loop over the attempts -/
structure Waiting (culture : Culture) (o : Options) (t : List Call) : Prop where
  commands : (adbLog o t).map Prod.fst = plan o
  succeeded : ∀ x ∈ adbLog o t, x.2.code = 0
  checked : Checked culture o t

theorem Waiting.other (h : Waiting culture o t) {e : Call} (he : Exchange.adb o e = none) :
    Waiting culture o (t ++ [e]) where
  commands := by rw [adbLog_other he, h.commands]
  succeeded := by
    rw [adbLog_other he]
    exact h.succeeded
  checked := h.checked.append _

theorem safe_checkHealth (attempts : Nat) (h : Waiting culture o before)
    (hcount : before.countP Exchange.isSsh + attempts ≤ 30) :
    Safe (Allowed culture o) (Ended culture o) (checkHealth o attempts) before := by
  induction attempts generalizing before with
  | zero =>
    intro code hcode
    cases hcode
  | succ attempts ih =>
    have hallowed : Allowed culture o before (.ssh (sshArguments o)) := ⟨rfl, h.commands, by omega⟩
    rw [checkHealth]
    apply safe_query_bind.mpr
    refine ⟨hallowed, fun exitCode => ?_⟩
    have hone : (before ++ [(⟨.ssh (sshArguments o), exitCode⟩ : Call)]).countP Exchange.isSsh =
        before.countP Exchange.isSsh + 1 := by
      rw [List.countP_append]
      rfl
    by_cases hzero : exitCode = 0
    · rw [if_pos hzero]
      intro code hcode
      cases hcode
      have hnow := h.other (e := ⟨.ssh (sshArguments o), exitCode⟩) rfl
      exact ⟨rfl, hnow.commands, hnow.succeeded, hnow.checked, before, by rw [hzero]⟩
    · rw [if_neg hzero]
      apply safe_query_bind.mpr
      refine ⟨trivial, fun _ => ?_⟩
      refine ih ((h.other rfl).other rfl) ?_
      rw [List.countP_append, hone]
      show before.countP Exchange.isSsh + 1 + 0 + attempts ≤ 30
      omega

theorem safe_main : Safe (Allowed culture o) (Ended culture o) (main culture o) [] := by
  have herror : ∀ t e, Ended culture o t (.error e) := by
    intro t e code hcode
    cases hcode
  have h0 : At o [] [] := ⟨rfl, fun x hx => absurd hx List.not_mem_nil, rfl⟩
  refine safe_requireFile h0 herror fun t1 h1 => ?_
  refine safe_requireFile h1 herror fun t2 h2 => ?_
  refine safe_requireFile h2 herror fun t3 h3 => ?_
  refine safe_bind.mpr (safe_failIf.mpr ⟨fun _ => herror _ _, fun _ => ?_⟩)
  refine safe_checkContainer h3 herror fun t4 h4 => ?_
  refine safe_checkTarget h4 herror fun t5 h5 htarget => ?_
  have hstart : ∀ {done : List (List String)} {t : List Call},
      done ++ [makeExecutable, runStarter, forwardPort o] = plan o → At o done t → Checked culture o t →
        Safe (Allowed culture o) (Ended culture o) (startRemote o >>= fun _ => checkHealth o 30) t := by
    intro done t hplan hat hchecked
    refine safe_startRemote hplan hat hchecked herror fun u hu hu' => ?_
    exact safe_checkHealth 30 ⟨hu.commands, hu.succeeded, hu'⟩ (by rw [hu.quiet])
  cases hpush : o.skipPush with
  | true =>
    rw [if_pos rfl]
    refine hstart ?_ h5 ⟨htarget, fun hno => ?_⟩
    · rw [plan, hpush]
      rfl
    · rw [hpush] at hno
      cases hno
  | false =>
    rw [if_neg Bool.false_ne_true]
    refine safe_pushImage hpush h5 htarget herror fun t6 h6 hchecked => ?_
    refine hstart ?_ h6 hchecked
    rw [plan, hpush]
    rfl

end safe

/-! ## the device behind the commands -/

/-- the device, and its files that the commands name -/
structure World where
  device : Device
  files : String → Option Bytes

/-- what is on the host -/
structure Host where
  hash : Bytes → Digest
  /-- the content of `$image` -/
  image : Bytes
  /-- the content of the starter script -/
  starter : Bytes

/-- What happens on the device by itself. Debian writes to its image once that is mounted. -/
structure Drift (v w : World) : Prop where
  recovery : w.device.recovery = v.device.recovery
  debian : Relation.ReflTransGen Event v.device.debian w.device.debian
  others : ∀ path, path ≠ remoteImage → w.files path = v.files path
  image : mountpoint v.device.recovery.mounts root = false → w.files = v.files

/-- a run of the starter script that was transferred -/
def StartStep (host : Host) (v : World) (argument : String) (result : Result) (u : World) : Prop :=
  v.files remoteStarter = some host.starter →
    (∀ path, path ≠ remoteImage → u.files path = v.files path) ∧
    ∃ uid isFile pids fails, u.device = (startDevice (some argument) uid isFile pids fails 0 v.device).state ∧
      (result.code = 0 → (startDevice (some argument) uid isFile pids fails 0 v.device).failure = none)

/-- One command of `adb` on the device. A push can leave anything at its destination. -/
def AdbStep (host : Host) (v : World) (arguments : List String) (result : Result) (u : World) : Prop :=
  match arguments with
  | ["push", _, destination] =>
    ∃ content, u = { v with files := Function.update v.files destination content }
  | ["shell", program, argument] =>
    if program = remoteStarter then StartStep host v argument result u
    else u = v ∧ (program = "sha256sum" → result.code = 0 → ∃ content, v.files argument = some content ∧
      result.output = (host.hash content).hexdigest ++ "  " ++ argument ++ "\n")
  | _ => u = v

/-- A remote command ends well only where `sshd` lets it in, and as it ends there. -/
def SshStep (s : Debian) (code : Int) : Prop :=
  code = 0 → Alive .sshd s ∧ Yields healthcheck s () s

/-- the exchange itself, after the device has drifted -/
def serveNow (host : Host) (v : World) : (q : Question) → Answer q → World → Prop
  | .docker command, result, u =>
    match adbOf o command with
    | some arguments => AdbStep host v arguments result u
    | none => u = v
  | .getFileHash path, answer, u =>
    u = v ∧ ∀ digest, path = o.image → answer = .ok digest → digest = host.hash host.image
  | .ssh _, code, u => u = v ∧ SshStep v.device.debian code
  | .testPath _, _, u => u = v
  | .sleep, _, u => u = v

def serve (host : Host) (w : World) (q : Question) (answer : Answer q) (u : World) : Prop :=
  ∃ v, Drift w v ∧ serveNow (o := o) host v q answer u

/-- the commands of `adb` one after the other, with the device drifting between them -/
inductive AdbRun (host : Host) : World → List (List String × Result) → World → Prop
  | nil {w w' : World} (drift : Drift w w') : AdbRun host w [] w'
  | cons {w v u w' : World} {arguments : List String} {result : Result}
      {l : List (List String × Result)} (drift : Drift w v) (step : AdbStep host v arguments result u)
      (rest : AdbRun host u l w') : AdbRun host w ((arguments, result) :: l) w'

section world
variable {host : Host} {u v w w' : World} {l l' : List (List String × Result)}

theorem Drift.refl (w : World) : Drift w w := ⟨rfl, .refl, fun _ _ => rfl, fun _ => rfl⟩

theorem Drift.trans (h : Drift u v) (h' : Drift v w) : Drift u w where
  recovery := h'.recovery.trans h.recovery
  debian := h.debian.trans h'.debian
  others path hpath := (h'.others path hpath).trans (h.others path hpath)
  image hroot := by
    have hroot' : mountpoint v.device.recovery.mounts root = false := by rw [h.recovery, hroot]
    exact (h'.image hroot').trans (h.image hroot)

theorem AdbRun.drift (h : Drift u w) (hrun : AdbRun host w l w') : AdbRun host u l w' := by
  cases hrun with
  | nil drift => exact .nil (h.trans drift)
  | cons drift step rest => exact .cons (h.trans drift) step rest

theorem AdbRun.of_append (h : AdbRun host w (l ++ l') w') : ∃ u, AdbRun host w l u ∧ AdbRun host u l' w' := by
  induction l generalizing w with
  | nil => exact ⟨w, .nil (.refl w), h⟩
  | cons x l ih =>
    cases h with
    | cons drift step rest =>
      obtain ⟨u, h1, h2⟩ := ih rest
      exact ⟨u, .cons drift step h1, h2⟩

/-- The commands of a talk are served one after the other. -/
theorem adbRun_of_serves (h : Serves (serve (o := o) host) w t w') : AdbRun host w (adbLog o t) w' := by
  induction h with
  | nil w => exact .nil (.refl w)
  | @cons w u w' e t first rest ih =>
    obtain ⟨v, hdrift, hnow⟩ := first
    obtain ⟨q, answer⟩ := e
    cases q with
    | docker command =>
      have hnow : (match adbOf o command with
        | some arguments => AdbStep host v arguments answer u
        | none => u = v) := hnow
      cases hadb : adbOf o command with
      | none =>
        rw [hadb] at hnow
        have hskip : adbLog o (⟨.docker command, answer⟩ :: t) = adbLog o t := by
          apply List.filterMap_cons_none
          show (adbOf o command).map _ = _
          rw [hadb]
          rfl
        rw [hskip]
        exact ih.drift (hnow ▸ hdrift)
      | some arguments =>
        rw [hadb] at hnow
        have hone : adbLog o (⟨.docker command, answer⟩ :: t) = (arguments, answer) :: adbLog o t := by
          apply List.filterMap_cons_some
          show (adbOf o command).map _ = _
          rw [hadb]
          rfl
        rw [hone]
        exact .cons hdrift hnow ih
    | getFileHash path => exact ih.drift (hnow.1 ▸ hdrift)
    | ssh command => exact ih.drift (hnow.1 ▸ hdrift)
    | testPath path =>
      have hnow : u = v := hnow
      exact ih.drift (hnow ▸ hdrift)
    | sleep =>
      have hnow : u = v := hnow
      exact ih.drift (hnow ▸ hdrift)

theorem digest_of_serves (h : Serves (serve (o := o) host) w t w') {digest : Digest}
    (hmem : (⟨.getFileHash o.image, .ok digest⟩ : Call) ∈ t) : digest = host.hash host.image := by
  induction h with
  | nil w => cases hmem
  | @cons w u w' e t first rest ih =>
    rcases List.mem_cons.mp hmem with rfl | hmem
    · obtain ⟨v, -, -, hdigest⟩ := first
      exact hdigest digest rfl rfl
    · exact ih hmem

/-- a command that does not run the starter -/
def Quiet (arguments : List String) : Prop := ∀ argument, arguments ≠ ["shell", remoteStarter, argument]

theorem AdbStep.device (h : AdbStep host v arguments result u) (hquiet : Quiet arguments) :
    u.device = v.device := by
  unfold AdbStep at h
  split at h
  · obtain ⟨content, rfl⟩ := h
    rfl
  · next program argument =>
    have hprogram : program ≠ remoteStarter := fun heq => hquiet argument (heq ▸ rfl)
    rw [if_neg hprogram] at h
    rw [h.1]
  · rw [h]

theorem AdbStep.files {path : String} (h : AdbStep host v arguments result u) (hquiet : Quiet arguments)
    (hpush : ∀ source, arguments ≠ ["push", source, path]) : u.files path = v.files path := by
  unfold AdbStep at h
  split at h
  · next source destination =>
    obtain ⟨content, rfl⟩ := h
    have hne : path ≠ destination := fun heq => hpush source (heq ▸ rfl)
    exact Function.update_of_ne hne _ _
  · next program argument =>
    have hprogram : program ≠ remoteStarter := fun heq => hquiet argument (heq ▸ rfl)
    rw [if_neg hprogram] at h
    rw [h.1]
  · rw [h]

theorem AdbRun.recovery (h : AdbRun host w l w') (hquiet : ∀ x ∈ l, Quiet x.1) :
    w'.device.recovery = w.device.recovery := by
  induction h with
  | nil drift => exact drift.recovery
  | cons drift step rest ih =>
    rw [ih fun x hx => hquiet x (List.mem_cons_of_mem _ hx),
      step.device (hquiet _ List.mem_cons_self), drift.recovery]

/-- As long as the image is not mounted, only a push changes it. -/
theorem AdbRun.image (h : AdbRun host w l w') (hroot : mountpoint w.device.recovery.mounts root = false)
    (hquiet : ∀ x ∈ l, Quiet x.1) (hpush : ∀ x ∈ l, ∀ source, x.1 ≠ ["push", source, remoteImage]) :
    w'.files remoteImage = w.files remoteImage := by
  induction h with
  | nil drift => rw [drift.image hroot]
  | @cons w v u w' arguments result l drift step rest ih =>
    have hdevice := step.device (hquiet _ List.mem_cons_self)
    have hrest := ih (by rw [hdevice, drift.recovery, hroot])
      (fun x hx => hquiet x (List.mem_cons_of_mem _ hx)) fun x hx => hpush x (List.mem_cons_of_mem _ hx)
    rw [hrest, step.files (hquiet _ List.mem_cons_self) (hpush _ List.mem_cons_self), drift.image hroot]

theorem AdbRun.files {path : String} (h : AdbRun host w l w') (hpath : path ≠ remoteImage)
    (hquiet : ∀ x ∈ l, Quiet x.1) (hpush : ∀ x ∈ l, ∀ source, x.1 ≠ ["push", source, path]) :
    w'.files path = w.files path := by
  induction h with
  | nil drift => exact drift.others path hpath
  | cons drift step rest ih =>
    rw [ih (fun x hx => hquiet x (List.mem_cons_of_mem _ hx)) fun x hx => hpush x (List.mem_cons_of_mem _ hx),
      step.files (hquiet _ List.mem_cons_self) (hpush _ List.mem_cons_self), drift.others path hpath]

theorem AdbRun.trail (h : AdbRun host w l v) (hdrift : Drift v u) : AdbRun host w l u := by
  induction h with
  | nil drift => exact .nil (drift.trans hdrift)
  | cons drift step rest ih => exact .cons drift step (ih hdrift)

/-! ### the starter, and the image that it mounts -/

theorem imageArgument_remote : imageArgument (some remoteImage) = remoteImage := by
  have hne : remoteImage ≠ "" := by decide
  rw [imageArgument, if_neg hne]

theorem startStep_of_adbStep {argument : String}
    (h : AdbStep host v ["shell", remoteStarter, argument] result u) :
    StartStep host v argument result u := by
  rw [AdbStep, if_pos rfl] at h
  exact h

/-- After a starter that has succeeded the device is started, when it was the one of this repository. -/
theorem started_of_run {before after : List (List String × Result)} {result : Result}
    (h : AdbRun host w (before ++ (runStarter, result) :: after) w') (hcode : result.code = 0)
    (hbefore : ∀ x ∈ before, Quiet x.1) (hafter : ∀ x ∈ after, Quiet x.1) :
    ∃ v u, AdbRun host w before v ∧ AdbStep host v runStarter result u ∧ AdbRun host u after w' ∧
      (v.files remoteStarter = some host.starter →
        (Started remoteImage w'.device.recovery ↔ Startable remoteImage w.device.recovery)) := by
  obtain ⟨v₀, hfirst, hrest⟩ := h.of_append
  cases hrest with
  | @cons _ v u _ _ _ _ drift step rest =>
    refine ⟨v, u, hfirst.trail drift, step, rest, fun hstarter => ?_⟩
    obtain ⟨-, uid, isFile, pids, fails, hdevice, hend⟩ := startStep_of_adbStep step hstarter
    obtain ⟨_, k, hdone⟩ := Ending.exists_done (hend hcode)
    obtain ⟨r, hpasses, hchroot⟩ := yields_startDevice ⟨fails, 0, k, hdone⟩
    rw [← hdevice] at hchroot
    have hrecovery : u.device.recovery = r := recovery_of_chrootStart hchroot
    have hv : v.device.recovery = w.device.recovery := (hfirst.trail drift).recovery hbefore
    have hiff := started_iff (passes_of_binder hpasses)
    rw [imageArgument_remote, hv] at hiff
    rw [rest.recovery hafter, hrecovery]
    exact hiff

/-! ### the line of `sha256sum` -/

theorem takeWhile_rdropWhile (p : Char → Bool) (l : List Char) :
    (l.rdropWhile p).takeWhile (fun c => !p c) = l.takeWhile fun c => !p c := by
  induction l using List.reverseRecOn with
  | nil => rfl
  | append_singleton l c ih =>
    by_cases hc : p c = true
    · rw [List.rdropWhile_concat_pos _ _ _ hc, ih, List.takeWhile_append]
      have hnone : [c].takeWhile (fun c => !p c) = [] := by
        rw [List.takeWhile_cons, hc]
        rfl
      split
      · next hlength =>
        rw [hnone, List.append_nil]
        exact (List.takeWhile_prefix _).eq_of_length hlength
      · rfl
    · rw [List.rdropWhile_concat_neg _ _ _ hc]

theorem isWhiteSpace_hexdigest {d : Digest} {c : Char} (hc : c ∈ d.hexdigest.toList) :
    isWhiteSpace c = false := by
  have hplain : ∀ n < 16, isWhiteSpace (hexDigit n) = false := by decide
  obtain ⟨n, hn, rfl⟩ := Digest.mem_hexdigest hc
  exact hplain n hn

theorem actualHash_line (d : Digest) (path : String) :
    actualHash culture (d.hexdigest ++ "  " ++ path ++ "\n") = d.hexdigest.toList := by
  have hline : (d.hexdigest ++ "  " ++ path ++ "\n").toList =
      d.hexdigest.toList ++ ' ' :: ' ' :: (path.toList ++ ['\n']) := by
    rw [String.toList_append, String.toList_append, String.toList_append, List.append_assoc,
      List.append_assoc]
    rfl
  have hne : d.hexdigest.toList ≠ [] := by
    intro h
    have hlength := d.length_hexdigest
    rw [h] at hlength
    cases hlength
  obtain ⟨c, cs, hcs⟩ := List.exists_cons_of_ne_nil hne
  have hdrop : (d.hexdigest.toList ++ ' ' :: ' ' :: (path.toList ++ ['\n'])).dropWhile isWhiteSpace =
      d.hexdigest.toList ++ ' ' :: ' ' :: (path.toList ++ ['\n']) := by
    have hfirst : isWhiteSpace c = false := isWhiteSpace_hexdigest (d := d) (hcs ▸ List.mem_cons_self)
    rw [hcs, List.cons_append, List.dropWhile_cons, hfirst, if_neg Bool.false_ne_true]
  have hfield : firstField (trim (d.hexdigest ++ "  " ++ path ++ "\n")) = d.hexdigest.toList := by
    rw [firstField, trim, takeWhile_rdropWhile, hline, hdrop, List.takeWhile_append_of_pos]
    · rw [List.takeWhile_cons, if_neg (by decide), List.append_nil]
    · intro c hc
      rw [isWhiteSpace_hexdigest hc]
      rfl
  rw [actualHash, hfield]
  refine Eq.trans (List.map_congr_left fun c hc => ?_) (List.map_id _)
  obtain ⟨n, hn, rfl⟩ := Digest.mem_hexdigest hc
  have hplain : ∀ n < 16, (hexDigit n).toNat < 128 ∧ (hexDigit n).toLower = hexDigit n := by decide
  rw [culture.lower_ascii _ (hplain n hn).1]
  exact (hplain n hn).2

/-- The hash that the script has compared is that of the image which the starter mounts. -/
theorem hash_of_run {before after : List (List String × Result)} {result : Result}
    (h : AdbRun host w (before ++ (hashImage, result) :: after) v)
    (hroot : mountpoint w.device.recovery.mounts root = false) (hcode : result.code = 0)
    (hbefore : ∀ x ∈ before, Quiet x.1) (hafter : ∀ x ∈ after, Quiet x.1)
    (hpush : ∀ x ∈ after, ∀ source, x.1 ≠ ["push", source, remoteImage])
    (heq : culture.equals (actualHash culture result.output) (host.hash host.image).hexdigest = true) :
    ∃ content, v.files remoteImage = some content ∧ host.hash content = host.hash host.image := by
  obtain ⟨v₀, hfirst, hrest⟩ := h.of_append
  cases hrest with
  | @cons _ v₁ u _ _ _ _ drift step rest =>
    have hread : u = v₁ ∧ ("sha256sum" = "sha256sum" → result.code = 0 → ∃ content,
        v₁.files remoteImage = some content ∧
          result.output = (host.hash content).hexdigest ++ "  " ++ remoteImage ++ "\n") := by
      have hstep : AdbStep host v₁ ["shell", "sha256sum", remoteImage] result u := step
      have hne : "sha256sum" ≠ remoteStarter := by decide
      rw [AdbStep, if_neg hne] at hstep
      exact hstep
    obtain ⟨rfl, hcontent⟩ := hread
    obtain ⟨content, hfile, houtput⟩ := hcontent rfl hcode
    have hmounts : mountpoint u.device.recovery.mounts root = false := by
      rw [(hfirst.trail drift).recovery hbefore, hroot]
    refine ⟨content, by rw [rest.image hmounts hafter hpush, hfile], ?_⟩
    rw [houtput, actualHash_line] at heq
    exact Copy.key_hexdigest_injective (of_decide_eq_true heq)

/-! ### a whole run -/

/-- the commands before the starter -/
def preparation (o : Options) : List (List String) :=
  [getState, getBootMode, getHardware] ++
    (if o.skipPush then [] else [pushImageArguments o, hashImage, pushStarter]) ++ [makeExecutable]

theorem plan_eq : plan o = preparation o ++ [runStarter, forwardPort o] := by
  rw [plan, preparation, List.append_assoc, List.append_assoc, List.append_assoc]
  rfl

theorem quiet_preparation : ∀ arguments ∈ preparation o, Quiet arguments := by
  intro arguments hmem argument heq
  subst heq
  cases hpush : o.skipPush with
  | true =>
    simp [preparation, hpush, getState, getBootMode, getHardware, makeExecutable, remoteStarter] at hmem
  | false =>
    simp [preparation, hpush, getState, getBootMode, getHardware, pushImageArguments, hashImage,
      pushStarter, makeExecutable, remoteStarter] at hmem

theorem quiet_forwardPort : Quiet (forwardPort o) := by
  exact fun argument heq => absurd (List.cons.inj heq).1 (by decide)

theorem exists_of_map_eq {x : List String} {left right : List (List String)}
    (h : l.map Prod.fst = left ++ x :: right) :
    ∃ before result after, l = before ++ (x, result) :: after ∧ before.map Prod.fst = left ∧
      after.map Prod.fst = right := by
  obtain ⟨before, rest, rfl, hbefore, hrest⟩ := List.map_eq_append_iff.mp h
  obtain ⟨⟨_, result⟩, after, rfl, rfl, hafter⟩ := List.map_eq_cons_iff.mp hrest
  exact ⟨before, result, after, rfl, hbefore, hafter⟩

/-- The image that the starter gets is the one whose hash the host has compared. -/
theorem image_of_run {before rest : List (List String × Result)} (hpushed : o.skipPush = false)
    (h : AdbRun host w before v) (hroot : mountpoint w.device.recovery.mounts root = false)
    (hbefore : before.map Prod.fst = preparation o) (hrest : rest.map Prod.fst = [runStarter, forwardPort o])
    (hlog : adbLog o t = before ++ rest) (hsucceeded : ∀ x ∈ adbLog o t, x.2.code = 0)
    (hchecked : HashChecked culture o t) (hserves : Serves (serve (o := o) host) w t w') :
    ∃ content, v.files remoteImage = some content ∧ host.hash content = host.hash host.image := by
  obtain ⟨digest, result, hfile, hmem, heq⟩ := hchecked
  have hdigest := digest_of_serves hserves hfile
  have hcode := hsucceeded _ hmem
  have hne : hashImage ∉ rest.map Prod.fst := by
    rw [hrest, List.mem_pair]
    rintro (he | he)
    · exact absurd he (by decide)
    · exact absurd (List.cons.inj he).1 (by decide)
  have hin : (hashImage, result) ∈ before := by
    rw [hlog] at hmem
    exact (List.mem_append.mp hmem).resolve_right fun hr => hne (List.mem_map_of_mem hr)
  obtain ⟨first, second, rfl⟩ := List.append_of_mem hin
  have hquiet : ∀ x ∈ first ++ (hashImage, result) :: second, Quiet x.1 := by
    intro x hx
    exact quiet_preparation x.1 (hbefore ▸ List.mem_map_of_mem hx)
  have hsplit : [getState, getBootMode, getHardware, pushImageArguments o] ++
      hashImage :: [pushStarter, makeExecutable] =
        first.map Prod.fst ++ hashImage :: second.map Prod.fst := by
    rw [List.map_append, List.map_cons] at hbefore
    rw [hbefore, preparation, hpushed]
    rfl
  have hsecond : second.map Prod.fst = [pushStarter, makeExecutable] := by
    refine ((List.append_cons_inj_of_notMem ?_ (by decide)).mp hsplit).2.2.symm
    intro hmem
    simp only [List.mem_cons, List.not_mem_nil, or_false] at hmem
    rcases hmem with he | he | he | he
    · exact absurd he (by decide)
    · exact absurd he (by decide)
    · exact absurd he (by decide)
    · exact absurd (List.cons.inj he).1 (by decide)
  refine hash_of_run h hroot hcode (fun x hx => hquiet x (List.mem_append_left _ hx))
    (fun x hx => hquiet x (List.mem_append_right _ (List.mem_cons_of_mem _ hx))) ?_ (hdigest ▸ heq)
  intro x hx source hpush
  have hx' : x.1 ∈ [pushStarter, makeExecutable] := hsecond ▸ List.mem_map_of_mem hx
  rw [hpush, List.mem_pair] at hx'
  rcases hx' with he | he
  · have hother : remoteImage ≠ remoteStarter := by decide
    exact hother (List.cons.inj (List.cons.inj (List.cons.inj he).2).2).1
  · exact absurd (List.cons.inj he).1 (by decide)

/-- **A deployment.** Whatever the commands answer, nothing is sent to a device that has not been
found to be the right one and in recovery, in another order or after a failure, and the starter runs on
no image whose hash was not compared; a run that exits has exit code 0. Where the answers come from a
device, `sshd` and `dockerd` run on it then, the image that was mounted has the hash of the host's, and
the device is started when the starter that ran there is the one of this repository. -/
theorem deploy_started {culture : Culture} {o : Options} {t : List Call} {r : Option (Except Thrown Int)}
    (ht : Talk (main culture o) t r) :
    Trace.Always (fun before e => Allowed culture o before e.question) t ∧
      ∀ code, r = some (.ok code) → code = 0 ∧
        ∀ (host : Host) (w w' : World), Serves (serve (o := o) host) w t w' →
          Alive .sshd w'.device.debian ∧ Alive .dockerd w'.device.debian ∧
          w'.device.debian.sshdTest = true ∧
          ∃ before result after v u, adbLog o t = before ++ (runStarter, result) :: after ∧
            before.map Prod.fst = preparation o ∧ after.map Prod.fst = [forwardPort o] ∧
            AdbRun host w before v ∧ AdbStep host v runStarter result u ∧ AdbRun host u after w' ∧
            (o.skipPush = false → mountpoint w.device.recovery.mounts root = false →
              ∃ content, v.files remoteImage = some content ∧
                host.hash content = host.hash host.image) ∧
            (v.files remoteStarter = some host.starter →
              (Started remoteImage w'.device.recovery ↔ Startable remoteImage w.device.recovery)) := by
  obtain ⟨halways, hend⟩ := safe_main.sound ht Trace.always_nil
  refine ⟨halways, fun code hcode => ?_⟩
  obtain ⟨hzero, hplan, hsucceeded, hchecked, t', hlast⟩ := hend _ hcode code rfl
  rw [List.nil_append] at hplan hsucceeded hchecked hlast
  refine ⟨hzero, fun host w w' hserves => ?_⟩
  have hsplit := hplan.trans plan_eq
  obtain ⟨before, result, after, hlog, hbefore, hafter⟩ := exists_of_map_eq hsplit
  have hrun : AdbRun host w (before ++ (runStarter, result) :: after) w' :=
    hlog ▸ adbRun_of_serves hserves
  have hquiet : ∀ x ∈ before, Quiet x.1 := fun x hx =>
    quiet_preparation x.1 (hbefore ▸ List.mem_map_of_mem hx)
  have hquiet' : ∀ x ∈ after, Quiet x.1 := by
    intro x hx
    have hx' : x.1 ∈ [forwardPort o] := hafter ▸ List.mem_map_of_mem hx
    rw [List.mem_singleton.mp hx']
    exact quiet_forwardPort
  have hresult : result.code = 0 := by
    refine hsucceeded (runStarter, result) ?_
    rw [hlog]
    exact List.mem_append_right _ List.mem_cons_self
  obtain ⟨v, u, hv, hstep, hu, hstarted⟩ := started_of_run hrun hresult hquiet hquiet'
  have halive : Alive .sshd w'.device.debian ∧ Yields healthcheck w'.device.debian () w'.device.debian := by
    rw [hlast] at hserves
    obtain ⟨_, _, hssh⟩ := serves_append.mp hserves
    cases hssh with
    | cons first rest =>
      cases rest with
      | nil =>
        obtain ⟨_, _, rfl, hhealth⟩ := first
        exact hhealth rfl
  obtain ⟨-, htest, hdockerd⟩ := yields_healthcheck halive.2
  refine ⟨halive.1, hdockerd, htest, before, result, after, v, u, hlog, hbefore, hafter, hv, hstep, hu,
    fun hpush hroot => ?_, hstarted⟩
  have hrest : ((runStarter, result) :: after).map Prod.fst = [runStarter, forwardPort o] := by
    rw [List.map_cons, hafter]
  exact image_of_run hpush hv hroot hbefore hrest hlog hsucceeded (hchecked.hash hpush) hserves

end world

/-! ## a device that starts as it should -/

def sampleOptions (skipPush : Bool) : Options where
  workDir := "W"
  skipPush := skipPush
  repoRoot := "R"
  scriptRoot := "R\\scripts"

def sampleHost : Host := ⟨Sha256.sha256, [0x53, 0xEF], Text.asciiBytes "#!/system/bin/sh"⟩

def sampleStarter (argument : String) (v : World) : Ending Device Recovery.Failure Unit :=
  startDevice (some argument) 0 (fun _ => true) (300, 301) (fun _ => false) 0 v.device

def sampleCommand (v : World) (program argument : String) : Result :=
  if program = "sha256sum" then
    match v.files argument with
    | some content => ⟨0, (Sha256.sha256 content).hexdigest ++ "  " ++ argument ++ "\n"⟩
    | none => ⟨1, ""⟩
  else if argument = "ro.bootmode" then ⟨0, "recovery\n"⟩
  else ⟨0, "mt6853\n"⟩

def sampleAdb (v : World) : List String → Result × World
  | ["push", source, destination] =>
    let content := if source = containerStarter then sampleHost.starter else sampleHost.image
    (⟨0, ""⟩, { v with files := Function.update v.files destination (some content) })
  | ["shell", program, argument] =>
    if program = remoteStarter then
      let ending := sampleStarter argument v
      (⟨if ending.failure = none then 0 else 1, ""⟩, { v with device := ending.state })
    else (sampleCommand v program argument, v)
  | _ => (⟨0, "device\n"⟩, v)

def sampleMachine (skipPush : Bool) (v : World) : (q : Question) → Answer q × World
  | .testPath _ => (true, v)
  | .docker command =>
    match adbOf (sampleOptions skipPush) command with
    | some arguments => sampleAdb v arguments
    | none => (⟨0, "true|" ++ (sampleOptions skipPush).adbImage ++ "\n"⟩, v)
  | .getFileHash _ => (.ok (Sha256.sha256 sampleHost.image), v)
  | .ssh _ =>
    (if Alive .sshd v.device.debian ∧
        (healthcheck (fun _ => false) 0 v.device.debian).failure = none then 0 else 1, v)
  | .sleep => ((), v)

theorem adbStep_sample (v : World) (arguments : List String) :
    AdbStep sampleHost v arguments (sampleAdb v arguments).1 (sampleAdb v arguments).2 := by
  unfold sampleAdb
  split
  · exact ⟨_, rfl⟩
  · next program argument =>
    rw [AdbStep]
    by_cases hprogram : program = remoteStarter
    · rw [if_pos hprogram, if_pos hprogram]
      refine fun _ => ⟨fun _ _ => rfl, 0, fun _ => true, (300, 301), fun _ => false, rfl, fun hcode => ?_⟩
      exact by_contra fun hfail => absurd ((if_neg hfail).symm.trans hcode) (by decide)
    · rw [if_neg hprogram, if_neg hprogram]
      refine ⟨rfl, fun hsum hcode => ?_⟩
      rw [sampleCommand, if_pos hsum] at hcode ⊢
      cases hfile : v.files argument with
      | none =>
        rw [hfile] at hcode
        exact absurd hcode (show ¬ (1 : Int) = 0 by decide)
      | some content => exact ⟨content, rfl, rfl⟩
  · next hpush hshell =>
    unfold AdbStep
    split
    · exact absurd rfl (hpush _ _)
    · exact absurd rfl (hshell _ _)
    · rfl

theorem serve_sample (skipPush : Bool) (v : World) (q : Question) :
    serve (o := sampleOptions skipPush) sampleHost v q (sampleMachine skipPush v q).1
      (sampleMachine skipPush v q).2 := by
  refine ⟨v, .refl v, ?_⟩
  cases q with
  | testPath path => exact rfl
  | sleep => exact rfl
  | getFileHash path => exact ⟨rfl, fun digest _ hdigest => (Except.ok.inj hdigest).symm⟩
  | ssh command =>
    refine ⟨rfl, fun hcode => ?_⟩
    have hgood : Alive .sshd v.device.debian ∧
        (healthcheck (fun _ => false) 0 v.device.debian).failure = none := by
      by_contra hdead
      exact absurd ((if_neg hdead).symm.trans hcode) (show ¬ (1 : Int) = 0 by decide)
    obtain ⟨halive, hend⟩ := hgood
    obtain ⟨_, k, hdone⟩ := Ending.exists_done hend
    have hcheck : Yields healthcheck v.device.debian ()
        (healthcheck (fun _ => false) 0 v.device.debian).state := ⟨_, 0, k, hdone⟩
    have hsame := (yields_healthcheck hcheck).1
    rw [hsame] at hcheck
    exact ⟨halive, hcheck⟩
  | docker command =>
    show match adbOf (sampleOptions skipPush) command with
      | some arguments => AdbStep sampleHost v arguments _ _
      | none => _ = v
    rw [sampleMachine]
    cases adbOf (sampleOptions skipPush) command with
    | none => exact rfl
    | some arguments => exact adbStep_sample v arguments

def sampleDeployment (skipPush : Bool) (files : String → Option Bytes) :
    Conversation Answer Thrown Int World :=
  converse (sampleMachine skipPush) (main .ordinal (sampleOptions skipPush)) ⟨sampleDevice, files⟩

theorem talk_sample (skipPush : Bool) (files : String → Option Bytes) :
    Talk (main .ordinal (sampleOptions skipPush)) (sampleDeployment skipPush files).talk
      (sampleDeployment skipPush files).result :=
  talk_converse _ _ _

theorem serves_sample (skipPush : Bool) (files : String → Option Bytes) :
    Serves (serve (o := sampleOptions skipPush) sampleHost) ⟨sampleDevice, files⟩
      (sampleDeployment skipPush files).talk (sampleDeployment skipPush files).state :=
  serves_converse (serve_sample skipPush) _ _

/-- the files of an earlier deployment, when the device has booted since -/
def sampleFiles (path : String) : Option Bytes :=
  if path = remoteStarter then some sampleHost.starter else some sampleHost.image

/-- A deployment to an empty device, and one of what is there. -/
theorem deploy_started_sample :
    (sampleDeployment false fun _ => none).result = some (.ok 0) ∧
      Alive .dockerd (sampleDeployment false fun _ => none).state.device.debian ∧
      (sampleDeployment true sampleFiles).result = some (.ok 0) ∧
      Started remoteImage (sampleDeployment true sampleFiles).state.device.recovery := by
  have hresults : (sampleDeployment false fun _ => none).result = some (.ok 0) ∧
      (sampleDeployment true sampleFiles).result = some (.ok 0) ∧
      mountpoint sampleDevice.recovery.mounts root = false := by decide +kernel
  obtain ⟨hfirst, hsecond, hroot⟩ := hresults
  have hend := ((deploy_started (talk_sample false fun _ => none)).2 0 hfirst).2
  have hend' := ((deploy_started (talk_sample true sampleFiles)).2 0 hsecond).2
  obtain ⟨-, hdockerd, -⟩ := hend _ _ _ (serves_sample false fun _ => none)
  obtain ⟨-, -, -, before, result, after, v, u, -, hbefore, -, hv, -, -, -, hstarted⟩ :=
    hend' _ _ _ (serves_sample true sampleFiles)
  have hstartable : Startable remoteImage sampleDevice.recovery := startable_of_not_mounted hroot
  refine ⟨hfirst, hdockerd, hsecond, (hstarted ?_).mpr hstartable⟩
  have hmem : ∀ x ∈ before, x.1 ∈ preparation (sampleOptions true) := fun x hx =>
    hbefore ▸ List.mem_map_of_mem hx
  have hnopush : ∀ arguments ∈ preparation (sampleOptions true), arguments.head? ≠ some "push" := by decide
  refine hv.files (by decide) (fun x hx => quiet_preparation x.1 (hmem x hx)) fun x hx source hpush => ?_
  exact hnopush x.1 (hmem x hx) (by rw [hpush]; rfl)

end RT7.Recovery.Deploy
