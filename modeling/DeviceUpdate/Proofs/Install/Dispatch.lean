import DeviceUpdate.Proofs.Procedure.Alone
import DeviceUpdate.Proofs.Text.Rows

/-!
# Who installs a package

The boot layout decides who installs a package: the installer tool, the recovery system, or nobody.
The tool has succeeded if its output does not hold the failure marker, wherever the marker stands
and however the output is split into lines; its exit status does not count.
-/

namespace DeviceUpdate

/-- What was asked to learn the boot layout: nothing where it is known, and else one query. -/
inductive Classifier.Told (c : Classifier) : List (Effect × Answer) → BootLayout → Prop
  | known {layout : BootLayout} (h : c.known = some layout) : Told c [] layout
  | asked (answer : Answer) (h : c.known = none) :
      Told c [(.run (BootLayout.query c.timeout), answer)] (BootLayout.ofAnswer answer)

lemma Procedure.bootLayout_told {σ : Type} (device : Handler σ) (s : σ) (shared : Shared) :
    shared.classifier.Told (bootLayout.asked device (s, shared))
      (bootLayout.eval device (s, shared)).1 := by
  cases known : shared.classifier.known with
  | some layout =>
    rw [bootLayout, asked_classify_known _ known, eval_classify_known _ known]
    exact .known known
  | none =>
    rw [bootLayout, asked_classify_open _ known, eval_classify_open _ known]
    exact .asked _ known

/-- Runs the installer tool, whatever for. -/
def Effect.RunsInstaller (e : Effect) : Prop := ∃ c, e = .run c ∧ c.program = "update-firmware"

/-- A recovery writer has nothing to do with the installer tool. -/
lemma RecoveryWriter.write_spares (writer : RecoveryWriter) (package : String) :
    Procedure.Only (fun e => ¬ e.RunsInstaller) (writer.write package) :=
  writer.write_only package (by simp [Effect.RunsInstaller]) (by simp [Effect.RunsInstaller])

namespace Install

/-- The marker has no line ends, so to look for it in each line is to look for it in the output. -/
lemma reportsFailure_iff {output : CommandOutput} :
    reportsFailure output ↔ failureMarker.toList <:+: output.stdout.toList := by
  simp only [reportsFailure, CommandOutput.lines, List.any_eq_true, Text.contains_iff]
  exact (Text.infix_iff_line (by decide) (by decide) (by decide) _).symm

/-- The result is this layout, or a reason why the install failed. -/
def ComesTo (layout : BootLayout) (result : Except UpdateError BootLayout) : Prop :=
  result = .ok layout ∨ ∃ reason, result = .error (.installFailed reason)

variable {σ : Type} (device : Handler σ) (recovery : Option RecoveryWriter) (package : String)

/-- What an install does once it has the boot layout, and what comes of it. -/
inductive Dispatched (reached : σ × Shared) :
    BootLayout → List (Effect × Answer) → Except UpdateError BootLayout → Prop
  /-- the installer tool runs once, and what it prints decides -/
  | dual {answer : Answer} {result : Except UpdateError BootLayout} (ends : ComesTo .dual result)
      (succeeds : result = .ok .dual ↔
        ∃ output, answer = .ok output ∧ ¬ failureMarker.toList <:+: output.stdout.toList) :
      Dispatched reached .dual
        [(.run ⟨"update-firmware", ["--no-reboot", package], none⟩, answer)] result
  /-- the recovery writer is all that is used, if there is one -/
  | single {did : List (Effect × Answer)} {result : Except UpdateError BootLayout}
      (ends : ComesTo .single result) (spares : ∀ d ∈ did, ¬ d.1.RunsInstaller)
      (writes : did = recovery.elim [] fun writer => (writer.write package).asked device reached)
      (succeeds : result = .ok .single ↔ ∃ writer, recovery = some writer ∧
        ((writer.write package).eval device reached).1 = .ok ()) :
      Dispatched reached .single did result
  /-- nothing is tried -/
  | unknown : Dispatched reached .unknown [] (.error .bootLayoutUnknown)

/-- What follows the question for the boot layout. -/
def following : BootLayout → Procedure (Except UpdateError BootLayout)
  | .dual => (intoPartition package).bind fun result => .done (result.map fun _ => .dual)
  | .single =>
    (throughRecovery recovery package).bind fun result => .done (result.map fun _ => .single)
  | .unknown => .done (.error .bootLayoutUnknown)

lemma dispatch_eq :
    dispatch recovery package = Procedure.bootLayout.bind (following recovery package) := by
  refine congrArg (Procedure.bind _) (funext fun layout => ?_)
  cases layout <;> rfl

/-- What the answer of the installer tool tells. -/
def outcome (answer : Answer) : Except UpdateError Unit :=
  match answer with
  | .error e => .error (.installFailed e.message)
  | .ok output =>
    if reportsFailure output then
      .error (.installFailed s!"installer reported an error for '{package}'")
    else .ok ()

lemma intoPartition_eq : intoPartition package =
    .perform (.run (installer package)) fun answer => .done (outcome package answer) := by
  refine congrArg (Procedure.perform _) (funext fun answer => ?_)
  cases answer with
  | error e => rfl
  | ok output =>
    rw [Procedure.bind_done, outcome]
    dsimp only
    split <;> rfl

lemma outcome_comesTo (answer : Answer) (layout : BootLayout) :
    ComesTo layout ((outcome package answer).map fun _ => layout) := by
  cases answer with
  | error e => exact .inr ⟨_, rfl⟩
  | ok output =>
    rw [outcome]
    split
    · exact .inr ⟨_, rfl⟩
    · exact .inl rfl

lemma outcome_eq_ok_iff (answer : Answer) (layout : BootLayout) :
    (outcome package answer).map (fun _ => layout) = .ok layout ↔
      ∃ output, answer = .ok output ∧ ¬ failureMarker.toList <:+: output.stdout.toList := by
  cases answer with
  | error e => simp [outcome, Except.map]
  | ok output =>
    rw [outcome, ← ite_not]
    simp only [reportsFailure_iff, Except.ok.injEq, exists_eq_left']
    split <;> simp [Except.map, *]

lemma dual_dispatched (reached : σ × Shared) :
    Dispatched device recovery package reached .dual
      ((following recovery package .dual).asked device reached)
      ((following recovery package .dual).eval device reached).1 := by
  obtain ⟨s, shared⟩ := reached
  rw [following, intoPartition_eq]
  exact .dual (outcome_comesTo package _ .dual) (outcome_eq_ok_iff package _ .dual)

lemma throughRecovery_eq (writer : RecoveryWriter) : throughRecovery (some writer) package =
    (writer.write package).bind fun result =>
      .done (result.mapError fun e => .installFailed e.message) := by
  refine congrArg (Procedure.bind _) (funext fun result => ?_)
  cases result <;> rfl

lemma single_dispatched (reached : σ × Shared) :
    Dispatched device recovery package reached .single
      ((following recovery package .single).asked device reached)
      ((following recovery package .single).eval device reached).1 := by
  cases recovery with
  | none =>
    refine .single (.inr ⟨_, rfl⟩) ?_ rfl ⟨?_, ?_⟩
    · rintro d ⟨⟩
    · rintro ⟨⟩
    · rintro ⟨writer, ⟨⟩, -⟩
  | some writer =>
    have hasked : (following (some writer) package .single).asked device reached =
        (writer.write package).asked device reached := by
      rw [following, throughRecovery_eq, Procedure.bind_assoc, Procedure.asked_bind]
      exact List.append_nil _
    rw [hasked, following, throughRecovery_eq, Procedure.bind_assoc, Procedure.eval_bind]
    have hspares := (writer.write_spares package).asked device
      (by simp [Effect.RunsInstaller, BootLayout.query]) reached
    change Dispatched _ _ _ _ _ _ (Except.map _ (Except.mapError _ _))
    cases hresult : ((writer.write package).eval device reached).1 with
    | ok done =>
      exact .single (.inl rfl) hspares rfl (iff_of_true rfl ⟨writer, rfl, hresult⟩)
    | error e =>
      refine .single (.inr ⟨_, rfl⟩) hspares rfl (iff_of_false (by rintro ⟨⟩) ?_)
      rintro ⟨_, ⟨⟩, hok⟩
      cases hresult.symm.trans hok

lemma following_dispatched (layout : BootLayout) (reached : σ × Shared) :
    Dispatched device recovery package reached layout
      ((following recovery package layout).asked device reached)
      ((following recovery package layout).eval device reached).1 := by
  cases layout with
  | dual => exact dual_dispatched device recovery package reached
  | single => exact single_dispatched device recovery package reached
  | unknown => exact .unknown

/-- Where the layout is known the dispatcher asks for nothing, and goes by it. -/
lemma dispatched_of_known {s : σ} {shared : Shared} {layout : BootLayout}
    (known : shared.classifier.known = some layout) :
    Dispatched device recovery package (s, shared) layout
      ((dispatch recovery package).asked device (s, shared))
      ((dispatch recovery package).eval device (s, shared)).1 := by
  have hasked : (dispatch recovery package).asked device (s, shared) =
      (following recovery package layout).asked device (s, shared) := by
    rw [dispatch_eq]
    exact Procedure.asked_classify_known device known
  have heval : (dispatch recovery package).eval device (s, shared) =
      (following recovery package layout).eval device (s, shared) := by
    rw [dispatch_eq]
    exact Procedure.eval_classify_known device known
  rw [hasked, heval]
  exact following_dispatched device recovery package layout (s, shared)

variable {device recovery package} in
/-- With a layout to go by, an install never fails for want of one. -/
lemma Dispatched.comesTo {reached : σ × Shared} {layout : BootLayout}
    {did : List (Effect × Answer)} {result : Except UpdateError BootLayout}
    (h : Dispatched device recovery package reached layout did result)
    (known : layout ≠ .unknown) : ComesTo layout result := by
  cases h with
  | dual ends => exact ends
  | single ends => exact ends
  | unknown => exact absurd rfl known

/-- The boot layout, known or asked for, decides who installs a package, and the answer to that is
all that decides whether the install has succeeded. -/
theorem dispatch_follows_layout (s : σ) (shared : Shared) :
    let told := Procedure.bootLayout.eval device (s, shared)
    ∃ questions did, shared.classifier.Told questions told.1 ∧
      (dispatch recovery package).asked device (s, shared) = questions ++ did ∧
      Dispatched device recovery package told.2 told.1 did
        ((dispatch recovery package).eval device (s, shared)).1 := by
  intro told
  have hfollowing := following_dispatched device recovery package told.1 told.2
  rw [dispatch_eq, Procedure.asked_bind, Procedure.eval_bind]
  exact ⟨_, _, Procedure.bootLayout_told device s shared, rfl, hfollowing⟩

end Install

end DeviceUpdate
