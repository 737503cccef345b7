import DeviceUpdate.Archive.Zip
import DeviceUpdate.CommandLine.Run
import DeviceUpdate.FileSystem.Listing
import DeviceUpdate.Proofs.Json.Printing
import DeviceUpdate.Proofs.Procedure

/-!
# Documents of the tool

With documents asked for, the first output of a run is to be a single JSON document that tells in
its field `success` whether the run succeeded. Every task prints either one report or one failure,
except that an unknown boot layout is told in a report and in a failure behind it, and that the
tool aborts over the path of a package that is not text.
-/

namespace DeviceUpdate.CommandLine

open Json (Plain)

/-- The first output is one JSON document, and its field `success` tells whether the exit status
is 0. -/
def SingleDocument (o : Outcome) : Prop :=
  ∃ document success, Json.ofText? o.stdout = some document ∧
    document.fields? ["success"] = some [some (.bool success)] ∧ (success = true ↔ o.code = 0)

@[simp] lemma plain_named {α : Type} (values : List α) (name : α → String) (a : α) :
    Plain ((Codec.named values name).encode a) :=
  .text _

lemma plain_targetDescriptor (d : TargetDescriptor) : Plain (Wire.targetDescriptor.encode d) := by
  have version : Plain (Wire.version.encode d.version) := .ofMembers (by simp [Codec.byte])
  exact .ofMembers (by simp [Wire.target, version])

namespace Report

lemma plain_document (r : Report) : Plain r.document := by
  refine .ofMembers (List.forall_mem_cons.mpr ⟨.bool true, ?_⟩)
  cases r with
  | assembled package size => simp [members]
  | installed package target layout => simp [members, Wire.bootLayout]
  | bootLayout layout => simp [members, Wire.bootLayout]
  | targets table =>
    simp only [members, List.mem_singleton, forall_eq]
    exact .array (List.forall_mem_map.mpr fun d _ => plain_targetDescriptor d)

lemma success_document (r : Report) :
    r.document.sorted.fields? ["success"] = some [some (.bool true)] := by
  refine Json.fields?_sorted ?_ List.mem_cons_self
  cases r <;> simp [members]

/-- A report is a single document, if there is one for it at all. -/
lemma singleDocument_tell_iff {r : Report} :
    SingleDocument (({} : Outcome).tell true r) ↔ r.hasDocument := by
  constructor
  · rintro ⟨document, success, one, -⟩
    by_contra lacks
    have hnothing : (({} : Outcome).tell true r).stdout = "" := by
      simp [Outcome.tell, Outcome.abort, lacks]
    have hempty : Json.ofText? "" = none := by decide +kernel
    rw [hnothing, hempty] at one
    cases one
  · intro has
    exact ⟨_, true, by simpa [Outcome.tell, has] using r.plain_document.ofText?_document,
      r.success_document, by simp [Outcome.tell, has]⟩

end Report

namespace Failure

lemma code_ne_zero (f : Failure) : f.code ≠ 0 := by
  have category (c : ErrorCategory) : categoryCode c ≠ 0 := by cases c <;> decide
  cases f with
  | assembling manifest e => exact category e.category
  | installing package e => exact category e.category
  | configuration path e => exact Nat.succ_ne_zero _
  | invalidVersion version => exact Nat.succ_ne_zero _
  | layoutUnknown => exact Nat.succ_ne_zero _
  | reading package e => exact Nat.succ_ne_zero _

lemma plain_document (f : Failure) : Plain f.document := by
  have causes : Plain (.array (f.causes.map .ofString)) :=
    .array (List.forall_mem_map.mpr fun cause _ => .text cause)
  have error : Plain (.ofMembers [("message", .ofString f.message),
      ("causes", .array (f.causes.map .ofString))]) := .ofMembers (by simp [causes])
  exact .ofMembers (by simp [error])

lemma success_document (f : Failure) :
    f.document.sorted.fields? ["success"] = some [some (.bool false)] :=
  Json.fields?_sorted (by simp) List.mem_cons_self

lemma singleDocument_fail (f : Failure) : SingleDocument (({} : Outcome).fail true f) :=
  ⟨_, false, by simpa [Outcome.fail] using f.plain_document.ofText?_document, f.success_document,
    by simp [Outcome.fail, f.code_ne_zero]⟩

end Failure

/-- A report with a failure behind it is not one document. -/
lemma not_singleDocument_of_both {r : Report} (has : r.hasDocument) (f : Failure) :
    ¬ SingleDocument ((({} : Outcome).tell true r).fail true f) := by
  rintro ⟨document, success, one, -⟩
  have two := r.plain_document.ofText?_documents f.plain_document
  simp only [Outcome.tell, Outcome.fail, has, Bool.not_true, Bool.false_eq_true, if_false, if_true,
    String.empty_append, String.append_assoc] at one two
  rw [two] at one
  cases one

/-- The path that a task tells at its end, if it tells one, is text. -/
def Task.TellsText : Task → Prop
  | .assemble _ (some directory) => directory.isText
  | .install package .system => package.isText
  | _ => True

lemma code_ofResult {result : Except Failure Report} :
    (Outcome.ofResult false result).code = 0 ↔ ∃ r, result = .ok r := by
  cases result with
  | ok r => exact iff_of_true rfl ⟨r, rfl⟩
  | error f => exact iff_of_false f.code_ne_zero (by rintro ⟨_, ⟨⟩⟩)

/-- What a task came to is a single document, unless it is a report that has none. -/
lemma singleDocument_ofResult_iff {result : Except Failure Report} {told : Prop}
    (tells : ∀ r, result = .ok r → (r.hasDocument ↔ told)) :
    SingleDocument (.ofResult true result) ↔
      ¬ (¬ told ∧ (Outcome.ofResult false result).code = 0) := by
  rw [code_ofResult]
  cases result with
  | ok r =>
    rw [Outcome.ofResult, Report.singleDocument_tell_iff, tells r rfl]
    simp
  | error f =>
    refine iff_of_true f.singleDocument_fail ?_
    rintro ⟨-, _, ⟨⟩⟩

lemma eval_ofResult {σ : Type} (json : Bool) (p : Procedure (Except Failure Report))
    (handler : Effect → σ × FileSystem → Answer × σ × FileSystem) (s : σ × Shared) :
    ((do return Outcome.ofResult json (← p) : Procedure Outcome).eval handler s).1 =
      .ofResult json (p.eval handler s).1 :=
  congrArg Prod.fst (Procedure.eval_bind handler p _ s)

section Tasks

open Procedure (Ends)

variable (config : Config)

lemma targetsTask_tells (version : Option String) (r : Report)
    (told : targetsTask config version = .ok r) :
    r.hasDocument ↔ (Task.targets version).TellsText := by
  unfold targetsTask at told
  dsimp only at told
  split at told
  · obtain rfl := Except.ok.inj told
    exact iff_of_true rfl trivial
  · cases told

variable [Archive.Reader]

lemma assembleTask_tells (manifest : String) (directory : Option PathName) :
    Ends (fun result => ∀ r, result = .ok r →
        (r.hasDocument ↔ (Task.assemble manifest directory).TellsText))
      (assembleTask config manifest directory) := by
  refine .bind fun result => ?_
  cases result with
  | error f => exact .done (by rintro r ⟨⟩)
  | ok package =>
    refine .bind fun result => ?_
    cases result with
    | error e => exact .done (by rintro r ⟨⟩)
    | ok size =>
      refine .done ?_
      rintro r ⟨⟩
      cases directory <;> simp [Report.hasDocument, Task.TellsText]

lemma packageFor_tells (file : PathName) (target : Target) :
    Ends (fun result => ∀ package, result = .ok package →
        (package.isText ↔ (Task.install file target).TellsText))
      (packageFor config file target) := by
  cases target with
  | system => exact .done (by rintro r ⟨⟩; rfl)
  | manifest =>
    refine .bind fun result => .done ?_
    cases result with
    | error f => rintro r ⟨⟩
    | ok package => rintro r ⟨⟩; simp [Task.TellsText]

lemma installTask_tells (file : PathName) (target : Target) :
    Ends (fun result => ∀ r, result = .ok r →
        (r.hasDocument ↔ (Task.install file target).TellsText))
      (installTask config file target) := by
  refine .bind fun layout => ?_
  split
  · exact .done (by rintro r ⟨⟩)
  · refine (packageFor_tells config file target).bind_of fun result tells => ?_
    cases result with
    | error f => exact .done (by rintro r ⟨⟩)
    | ok package =>
      refine .bind fun result => ?_
      cases result with
      | error e => exact .done (by rintro r ⟨⟩)
      | ok layout => exact .done (by rintro r ⟨⟩; exact tells package rfl)

end Tasks

section Runs

variable [Archive.Reader] {device : Effect → FileSystem → Answer × FileSystem} {fs : FileSystem}
  {path : Option String} {config : Config}

lemma singleDocument_of_settings {f : Failure} {task : Task}
    (unread : settings fs path = .error f) :
    SingleDocument (Request.outcome device fs (.run ⟨path, true, task⟩)).1 ∧
      (Request.outcome device fs (.run ⟨path, false, task⟩)).1.code ≠ 0 := by
  simp only [Request.outcome, unread]
  exact ⟨f.singleDocument_fail, f.code_ne_zero⟩

lemma singleDocument_of_task {task : Task} (read : settings fs path = .ok config)
    (other : task ≠ .bootLayout) :
    SingleDocument (Request.outcome device fs (.run ⟨path, true, task⟩)).1 ↔
      ¬ (¬ task.TellsText ∧
        (Request.outcome device fs (.run ⟨path, false, task⟩)).1.code = 0) := by
  simp only [Request.outcome, read]
  cases task with
  | assemble manifest directory =>
    simp only [Task.outcome, eval_ofResult]
    exact singleDocument_ofResult_iff (assembleTask_tells config manifest directory _ _ _)
  | install package target =>
    simp only [Task.outcome, eval_ofResult]
    exact singleDocument_ofResult_iff (installTask_tells config package target _ _ _)
  | targets version =>
    exact singleDocument_ofResult_iff (targetsTask_tells config version)
  | bootLayout => exact absurd rfl other

/-- The device is asked for its boot layout once, and the answer is told. -/
lemma outcome_bootLayout (read : settings fs path = .ok config) :
    (Request.outcome device fs (.run ⟨path, true, .bootLayout⟩)).1 =
      let answer := (device (.run (BootLayout.query config.commandTimeout)) fs).1
      let layout := BootLayout.ofAnswer answer
      let told := ({} : Outcome).tell true (.bootLayout layout)
      if layout = .unknown then told.fail true .layoutUnknown else told := by
  simp only [Request.outcome, read]
  rfl

/-- The output is a single document that tells success, except for the question for the boot
layout on a device that does not tell it, and for a package whose path is not text, if the task
succeeds. -/
theorem output_single_document_iff (device : Effect → FileSystem → Answer × FileSystem)
    (fs : FileSystem) (arguments : Arguments) (json : arguments.json = true) :
    SingleDocument (Request.outcome device fs (.run arguments)).1 ↔
      ¬ (arguments.task = .bootLayout ∧ ∃ config, settings fs arguments.config = .ok config ∧
        BootLayout.ofAnswer (device (.run (BootLayout.query config.commandTimeout)) fs).1 =
          .unknown) ∧
      ¬ (¬ arguments.task.TellsText ∧
        (Request.outcome device fs (.run { arguments with json := false })).1.code = 0) := by
  obtain ⟨path, _, task⟩ := arguments
  obtain rfl := json
  dsimp only
  cases read : settings fs path with
  | error f => simp [singleDocument_of_settings read]
  | ok config =>
    by_cases asks : task = .bootLayout
    · subst asks
      rw [outcome_bootLayout read]
      by_cases unknown : BootLayout.ofAnswer
          (device (.run (BootLayout.query config.commandTimeout)) fs).1 = .unknown
      · simp [unknown, not_singleDocument_of_both (r := .bootLayout .unknown) rfl]
      · have hdocument (layout : BootLayout) :
            SingleDocument (({} : Outcome).tell true (.bootLayout layout)) :=
          Report.singleDocument_tell_iff.mpr rfl
        simp [unknown, hdocument, Task.TellsText]
    · rw [singleDocument_of_task read asks]
      simp [asks]

end Runs

open scoped Archive.Zip

/-- A device with two system partitions tells its layout in one document. -/
theorem dual_layout_single_document :
    SingleDocument (Request.outcome (fun _ fs => (.ok (.ok "yes\n"), fs)) (.empty 0)
      (.run ⟨none, true, .bootLayout⟩)).1 := by
  refine (output_single_document_iff _ _ ⟨none, true, .bootLayout⟩ rfl).mpr ⟨?_, ?_⟩
  · rintro ⟨-, config, -, unknown⟩
    exact absurd unknown (by decide +kernel)
  · rintro ⟨untold, -⟩
    exact untold trivial

/-- Without `fw_printenv` the question for the boot layout is answered by a document that tells
success, and a document that tells failure behind it. -/
theorem unknown_layout_two_documents :
    let missing : Effect → FileSystem → Answer × FileSystem := fun _ fs =>
      (.error (.command "fw_printenv -n dualboot" "unable to start"), fs)
    Request.ofArguments none ["boot-type", "--json"] = .run ⟨none, true, .bootLayout⟩ ∧
      ¬ SingleDocument
        (Request.outcome missing (.empty 0) (.run ⟨none, true, .bootLayout⟩)).1 := by
  refine ⟨by decide +kernel, ?_⟩
  rw [outcome_bootLayout rfl]
  exact not_singleDocument_of_both (r := .bootLayout .unknown) rfl .layoutUnknown

/-- A package whose path is not text is installed, and nothing is told of it. -/
example :
    let dual : Effect → FileSystem → Answer × FileSystem := fun _ fs => (.ok (.ok "yes\n"), fs)
    let install : Task := .install { text := "image", isText := false } .system
    (Request.outcome dual (.empty 0) (.run ⟨none, true, install⟩)).1.stdout = "" ∧
      (Request.outcome dual (.empty 0) (.run ⟨none, true, install⟩)).1.code = 134 ∧
      (Request.outcome dual (.empty 0) (.run ⟨none, false, install⟩)).1.code = 0 := by
  decide +kernel

end DeviceUpdate.CommandLine
