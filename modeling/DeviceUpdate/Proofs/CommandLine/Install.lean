import DeviceUpdate.Archive.Zip
import DeviceUpdate.CommandLine.Run
import DeviceUpdate.Proofs.Assembly.Errors
import DeviceUpdate.Proofs.Assembly.Exact
import DeviceUpdate.Proofs.Install.Dispatch

/-!
# Installing by hand

The tool asks for the boot layout before it touches anything, and the dispatcher asks again when
the package is there and the fragments are used up. A device may answer differently by then, or not
at all. The first answer holds: an install either ends at once because the layout is unknown, or
the layout is known all along.
-/

namespace DeviceUpdate.CommandLine

/-- A run of the tool: what it leaves, what it asked the device, with the answers, and the device
and the files afterwards. -/
structure Run (σ : Type) where
  outcome : Outcome
  asked : List (Effect × Answer)
  device : σ
  files : FileSystem

section

variable {σ : Type} {archives : Archive.Reader}

/-- Runs what a command line asks for, on a device with a state of its own. -/
def Request.runOn [Archive.Reader] (device : Handler σ) (s : σ) (fs : FileSystem) : Request → Run σ
  | .help task => ⟨{ stdout := Usage.help task }, [], s, fs⟩
  | .version => ⟨{ stdout := Usage.version }, [], s, fs⟩
  | .misuse => ⟨{ code := 2, stderr := Usage.misuse }, [], s, fs⟩
  | .run arguments =>
    match settings fs arguments.config with
    | .error f => ⟨({} : Outcome).fail arguments.json f, [], s, fs⟩
    | .ok config =>
      let shared : Shared := ⟨fs, { timeout := config.commandTimeout }⟩
      let task := arguments.task.outcome config arguments.json
      let after := task.eval device (s, shared)
      ⟨after.1, task.asked device (s, shared), after.2.1, after.2.2.files⟩

/-- On a device without a state this is the outcome of the request. -/
theorem outcome_eq_runOn (device : Effect → FileSystem → Answer × FileSystem) (fs : FileSystem)
    (r : Request) :
    let run := r.runOn (fun e (s, fs) => ((device e fs).1, s, (device e fs).2)) () fs
    r.outcome device fs = (run.outcome, run.files) := by
  cases r with
  | run arguments =>
    simp only [Request.outcome, Request.runOn]
    cases settings fs arguments.config <;> rfl
  | _ => rfl

section

variable (device : Handler σ) (config : Config) (json : Bool) (file : PathName) (target : Target)

/-- The question for the boot layout. -/
def question : Effect := .run (BootLayout.query config.commandTimeout)

/-- How a target's package comes about: a manifest's is assembled. -/
inductive Packed [Archive.Reader] : Target → FileSystem → PathName → FileSystem → Prop
  | system (fs : FileSystem) : Packed .system fs file fs
  | manifest {fs fs' : FileSystem} {package : String}
      (assembles : Assembly.assembleFromManifest fs file.text config.downloadDirectory =
        (.ok package, fs')) : Packed .manifest fs package fs'

/-- What is told when the dispatcher is done. -/
def ended (package : PathName) : Except UpdateError BootLayout → Outcome
  | .ok layout => ({} : Outcome).tell json (.installed package target layout)
  | .error e => ({} : Outcome).fail json (.installing package.text e)

/-- How an install goes once the settings are read. -/
inductive Installs [Archive.Reader] (s : σ) (fs : FileSystem) : Run σ → Prop
  /-- the device does not tell its layout, and that is all -/
  | refused {answer : Answer} {t : σ} {left : FileSystem}
      (answered : device (question config) (s, fs) = (answer, t, left))
      (unknown : BootLayout.ofAnswer answer = .unknown) :
      Installs s fs
        ⟨({} : Outcome).fail json .layoutUnknown, [(question config, answer)], t, left⟩
  /-- no package can be assembled -/
  | unpacked {answer : Answer} {t : σ} {left after : FileSystem} {e : UpdateError}
      (answered : device (question config) (s, fs) = (answer, t, left))
      (known : BootLayout.ofAnswer answer ≠ .unknown) (manifest : target = .manifest)
      (assembles : Assembly.assembleFromManifest left file.text config.downloadDirectory =
        (.error e, after)) :
      Installs s fs
        ⟨({} : Outcome).fail json (.assembling file.text e), [(question config, answer)], t, after⟩
  /-- the dispatcher is told the layout of the first answer without asking, and goes by it -/
  | dispatched {answer : Answer} {t u : σ} {left : FileSystem} {package : PathName}
      {reached after : Shared} {did : List (Effect × Answer)}
      {result : Except UpdateError BootLayout}
      (answered : device (question config) (s, fs) = (answer, t, left))
      (known : BootLayout.ofAnswer answer ≠ .unknown)
      (packed : Packed config file target left package reached.files)
      (told : reached.classifier.Told [] (BootLayout.ofAnswer answer))
      (dispatch : (Install.dispatch (some (.environment config.commandTimeout)) package.text).eval
        device (t, reached) = (result, u, after))
      (follows : Install.Dispatched device (some (.environment config.commandTimeout)) package.text
        (t, reached) (BootLayout.ofAnswer answer) did result) :
      Installs s fs ⟨ended json target package result, (question config, answer) :: did, u,
        after.files⟩

/-- What the dispatcher came to, for the package that it was given. -/
def reported (package : PathName) : Except UpdateError BootLayout → Except Failure Report
  | .ok layout => .ok (.installed package target layout)
  | .error e => .error (.installing package.text e)

lemma ofResult_reported (package : PathName) (result : Except UpdateError BootLayout) :
    Outcome.ofResult json (reported target package result) = ended json target package result := by
  cases result <;> rfl

/-- What follows the first question. -/
def proceeding [Archive.Reader] (layout : BootLayout) : Procedure (Except Failure Report) :=
  if layout = .unknown then .done (.error .layoutUnknown)
  else
    (packageFor config file target).bind fun
      | .error f => .done (.error f)
      | .ok package =>
        (Install.dispatch (some (.environment config.commandTimeout)) package.text).bind
          fun result => .done (reported target package result)

lemma installTask_eq : (Task.install file target).outcome config json =
    (Procedure.bootLayout.bind (proceeding config file target)).bind
      fun result => .done (.ofResult json result) := by
  refine congrArg (Procedure.bind · _) (congrArg (Procedure.bind _) (funext fun layout => ?_))
  rw [proceeding]
  split
  · rfl
  · refine congrArg (Procedure.bind _) (funext fun package => ?_)
    cases package with
    | error f => rfl
    | ok package => exact congrArg (Procedure.bind _) (funext fun result => by cases result <;> rfl)

/-- A package comes about without the device, and leaves what is known of the layout. -/
lemma packageFor_packs (t : σ) (shared : Shared) :
    (packageFor config file target).asked device (t, shared) = [] ∧
    ∃ result after, (packageFor config file target).eval device (t, shared) =
        (result, t, { shared with files := after }) ∧
      ((∃ e, target = .manifest ∧ Assembly.assembleFromManifest shared.files file.text
          config.downloadDirectory = (.error e, after) ∧
          result = .error (.assembling file.text e)) ∨
        ∃ package, Packed config file target shared.files package after ∧
          result = .ok package) := by
  cases target with
  | system => exact ⟨rfl, _, shared.files, rfl, .inr ⟨file, .system _, rfl⟩⟩
  | manifest =>
    rcases assembles : Assembly.assembleFromManifest shared.files file.text
      config.downloadDirectory with ⟨result, after⟩
    have heval : (packageFor config file .manifest).eval device (t, shared) =
        ((result.mapError (.assembling file.text)).map fun text => { text }, t,
          { shared with files := after }) := by
      obtain ⟨rfl, rfl⟩ := Prod.mk.inj assembles
      rfl
    refine ⟨rfl, _, after, heval, ?_⟩
    cases result with
    | error e => exact .inl ⟨e, rfl, rfl, rfl⟩
    | ok package => exact .inr ⟨package, .manifest assembles, rfl⟩

/-- The first question is put to the device, and a definite answer is kept. -/
lemma bootLayout_first (s : σ) (fs : FileSystem) :
    let shared : Shared := ⟨fs, { timeout := config.commandTimeout }⟩
    let answered := device (question config) (s, fs)
    let layout := BootLayout.ofAnswer answered.1
    Procedure.bootLayout.asked device (s, shared) = [(question config, answered.1)] ∧
      Procedure.bootLayout.eval device (s, shared) =
        (layout, answered.2.1, ⟨answered.2.2, shared.classifier.settle layout⟩) :=
  ⟨Procedure.asked_classify_open _ rfl, Procedure.eval_classify_open _ rfl⟩

/-- However the device answers over time, an install goes in one of three ways. -/
theorem installs (s : σ) (fs : FileSystem) :
    let shared : Shared := ⟨fs, { timeout := config.commandTimeout }⟩
    let task := (Task.install file target).outcome config json
    let after := task.eval device (s, shared)
    Installs device config json file target s fs
      ⟨after.1, task.asked device (s, shared), after.2.1, after.2.2.files⟩ := by
  intro shared
  rcases answered : device (question config) (s, fs) with ⟨answer, t, left⟩
  obtain ⟨hasked, heval⟩ := bootLayout_first device config s fs
  simp only [answered] at hasked heval
  simp only [installTask_eq, Procedure.eval_bind, Procedure.asked_bind, hasked, heval,
    List.singleton_append, shared]
  by_cases unknown : BootLayout.ofAnswer answer = .unknown
  · rw [proceeding, if_pos unknown]
    exact .refused answered unknown
  · rw [proceeding, if_neg unknown]
    obtain ⟨hquiet, result, after, hpackage, hpacks⟩ :=
      packageFor_packs device config file target t
        ⟨left, shared.classifier.settle (BootLayout.ofAnswer answer)⟩
    rcases hpacks with ⟨e, manifest, assembles, rfl⟩ | ⟨package, packed, rfl⟩
    · simp only [Procedure.eval_bind, Procedure.asked_bind, hquiet, hpackage, shared]
      exact .unpacked answered unknown manifest assembles
    · simp only [Procedure.eval_bind, Procedure.asked_bind, hquiet, hpackage, shared]
      have hknown : (shared.classifier.settle (BootLayout.ofAnswer answer)).known =
          some (BootLayout.ofAnswer answer) := if_neg unknown
      simp only [Procedure.asked_done, List.append_nil, Procedure.eval, ofResult_reported]
      exact .dispatched answered unknown packed (.known hknown) rfl
        (Install.dispatched_of_known device _ package.text hknown)

end

/-! ### The exit status -/

@[simp] lemma code_fail (json : Bool) (f : Failure) (o : Outcome) :
    (o.fail json f).code = f.code := by
  cases json <;> rfl

/-- A report ends the tool in success, or in an abort. -/
lemma code_tell (json : Bool) (r : Report) :
    (({} : Outcome).tell json r).code = 0 ∨ (({} : Outcome).tell json r).code = 134 := by
  unfold Outcome.tell
  split_ifs
  · exact .inl rfl
  · exact .inl rfl
  · exact .inr rfl

variable {device : Handler σ} {config : Config} {json : Bool} {file : PathName} {target : Target}
  {s : σ} {fs : FileSystem} {run : Run σ}

lemma categoryCode_eq_nine_iff {c : ErrorCategory} :
    Failure.categoryCode c = 9 ↔ c = .classifierUnknown := by
  cases c <;> decide

/-- What the dispatcher comes to by a layout is not told as an unknown layout. -/
lemma code_ended_ne {layout : BootLayout} {result : Except UpdateError BootLayout}
    {package : PathName} (comes : Install.ComesTo layout result) :
    (ended json target package result).code ≠ 9 := by
  rcases comes with rfl | ⟨reason, rfl⟩
  · rcases code_tell json (.installed package target layout) with hcode | hcode <;>
      simp [ended, hcode]
  · rw [ended, code_fail, Failure.code, ne_eq, categoryCode_eq_nine_iff]
    rintro ⟨⟩

lemma code_of_settings {path : Option String} {f : Failure} (unread : settings fs path = .error f) :
    f.code = 2 := by
  cases path with
  | none => cases unread
  | some path =>
    rw [settings] at unread
    cases load : Config.load fs path with
    | ok config =>
      rw [load] at unread
      cases unread
    | error e =>
      rw [load] at unread
      obtain rfl := Except.error.inj unread
      rfl

namespace Installs

/-- Only an install that the first answer stops ends for an unknown layout. -/
lemma code_eq_nine_iff (h : Installs device config json file target s fs run) :
    run.outcome.code = 9 ↔ ∃ answer, device (question config) (s, fs) =
        (answer, run.device, run.files) ∧ BootLayout.ofAnswer answer = .unknown ∧
      run.asked = [(question config, answer)] := by
  cases h with
  | refused answered unknown =>
    exact iff_of_true (code_fail _ _ _) ⟨_, answered, unknown, rfl⟩
  | unpacked answered known manifest assembles =>
    refine iff_of_false ?_ ?_
    · rw [code_fail, Failure.code, categoryCode_eq_nine_iff]
      exact (Assembly.fault_of_assembleFromManifest assembles).category_ne
    · rintro ⟨answer, answered', unknown, -⟩
      obtain ⟨rfl, -⟩ := Prod.mk.inj (answered.symm.trans answered')
      exact known unknown
  | dispatched answered known packed told dispatch follows =>
    refine iff_of_false ?_ ?_
    · exact code_ended_ne (follows.comesTo known)
    · rintro ⟨answer, answered', unknown, -⟩
      obtain ⟨rfl, -⟩ := Prod.mk.inj (answered.symm.trans answered')
      exact known unknown

end Installs

/-- An install ends for an unknown boot layout only if the first answer does not tell it. Then the
device was asked this one question, and what that left of the files was not touched; so if the
question leaves the files alone, they are as they were. Once there is a package, the dispatcher is
told the layout of the first answer, whatever the device would say by then. -/
theorem unknown_layout_install_harmless (device : Handler σ) (s : σ) (fs : FileSystem)
    (path : Option String) (json : Bool) (file : PathName) (target : Target) :
    let run := Request.runOn device s fs (.run ⟨path, json, .install file target⟩)
    (run.outcome.code = 9 ↔ ∃ config answer, settings fs path = .ok config ∧
      device (question config) (s, fs) = (answer, run.device, run.files) ∧
      BootLayout.ofAnswer answer = .unknown ∧ run.asked = [(question config, answer)]) ∧
    (run.outcome.code = 9 →
      (∀ timeout, (device (.run (BootLayout.query timeout)) (s, fs)).2.2 = fs) → run.files = fs) ∧
    ∀ config, settings fs path = .ok config →
      Installs device config json file target s fs run := by
  intro run
  have hinstalls (config : Config) (read : settings fs path = .ok config) :
      Installs device config json file target s fs run := by
    simp only [run, Request.runOn, read]
    exact installs device config json file target s fs
  have hcode : run.outcome.code = 9 ↔ ∃ config answer, settings fs path = .ok config ∧
      device (question config) (s, fs) = (answer, run.device, run.files) ∧
      BootLayout.ofAnswer answer = .unknown ∧ run.asked = [(question config, answer)] := by
    cases read : settings fs path with
    | error f =>
      refine iff_of_false ?_ (by rintro ⟨_, _, ⟨⟩, -⟩)
      simp [run, Request.runOn, read, code_of_settings read]
    | ok config =>
      rw [(hinstalls config read).code_eq_nine_iff]
      simp
  refine ⟨hcode, fun code leaves => ?_, hinstalls⟩
  obtain ⟨config, answer, -, answered, -⟩ := hcode.mp code
  have hfiles := leaves config.commandTimeout
  rw [← question, answered] at hfiles
  exact hfiles

end

open scoped Archive.Zip

/-- A device that changes its answer to questions for its boot layout after the first one. -/
def wavering (first later : Answer) : Handler Nat
  | .run c, (n, fs) =>
    if c.program = "fw_printenv" then (if n = 0 then first else later, n + 1, fs)
    else (.ok (.ok ""), n, fs)
  | _, (n, fs) => (.ok (.ok ""), n, fs)

/-- A package in two fragments, in the directory for downloads. -/
def downloaded : FileSystem :=
  let text := "size=4\nfragments=2\nname=img\nchecksum=2918445923\nsrc_dir=/mnt/update\n"
  ⟨#[.directory 0 [("mnt", 1), ("m", 3)], .directory 0 [("update", 2)],
    .directory 1 [("img0.zip", 4), ("img1.zip", 5)], .file (Text.encodeUtf8 text) false,
    .file (Assembly.Sample.stored "img.swu" [100, 97]) false,
    .file (Assembly.Sample.stored "img.swu" [116, 97]) false], 0, 0, 1000, none⟩

/-- A device that tells its layout too late is not updated, and its files are as they were. One that
tells it the first time is updated, though it would not tell it once the fragments are used up. -/
theorem later_answers_do_not_count :
    let missing : Answer := .error (.command "fw_printenv -n dualboot" "unable to start")
    let request := Request.run ⟨none, false, .install "m" .manifest⟩
    let late := request.runOn (wavering missing (.ok (.ok "yes\n"))) 0 downloaded
    let early := request.runOn (wavering (.ok (.ok "yes\n")) missing) 0 downloaded
    (late.outcome.code = 9 ∧ late.asked = [(question {}, missing)] ∧ late.files = downloaded) ∧
    early.outcome.code = 0 ∧
      early.asked.map (·.1) = [question {}, .run (Install.installer "/mnt/update/img.swu")] ∧
      early.files.exists? "/mnt/update/img0.zip" = false ∧
      Installs (wavering (.ok (.ok "yes\n")) missing) {} false "m" .manifest 0 downloaded
        early := by
  intro missing request late early
  obtain ⟨hcode, hasked⟩ : late.outcome.code = 9 ∧ late.asked = [(question {}, missing)] := by
    decide +kernel
  obtain ⟨-, hfiles, -⟩ := unknown_layout_install_harmless
    (wavering missing (.ok (.ok "yes\n"))) 0 downloaded none false "m" .manifest
  obtain ⟨-, -, hinstalls⟩ := unknown_layout_install_harmless
    (wavering (.ok (.ok "yes\n")) missing) 0 downloaded none false "m" .manifest
  obtain ⟨hdone, hdid, hused⟩ : early.outcome.code = 0 ∧
      early.asked.map (·.1) = [question {}, .run (Install.installer "/mnt/update/img.swu")] ∧
      early.files.exists? "/mnt/update/img0.zip" = false := by
    decide +kernel
  exact ⟨⟨hcode, hasked, hfiles hcode fun _ => rfl⟩, hdone, hdid, hused, hinstalls {} rfl⟩

end DeviceUpdate.CommandLine
