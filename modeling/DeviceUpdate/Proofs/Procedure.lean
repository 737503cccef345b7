import DeviceUpdate.Install
import DeviceUpdate.Partition
import Mathlib.Tactic.Lemma

/-!
# What procedures ask for

`Only P` says of a procedure that all of its effects are of the kind `P`, whatever the answers are,
and that it looks at the files without changing them. It holds of what is left of the procedure
after each step. `Ends P` says that the procedure comes to a value with the property `P`, whatever
the answers are.
-/

namespace DeviceUpdate

namespace Procedure

/-- A procedure waits for an effect only where it performs it. -/
lemma perform_of_effect {α : Type} {p : Procedure α} {shared : Shared} {e : Effect}
    (asks : p.move shared = .effect e) : ∃ next, p = .perform e next := by
  cases p with
  | perform f next =>
    obtain rfl : f = e := by simpa [Procedure.move] using asks
    exact ⟨next, rfl⟩
  | classify next =>
    simp only [Procedure.move] at asks
    split at asks
    · cases asks
    · split at asks <;> cases asks
  | _ => cases asks

inductive Only {α : Type} (P : Effect → Prop) : Procedure α → Prop
  | done (a : α) : Only P (.done a)
  | perform {e : Effect} {next : Answer → Procedure α} (kind : P e)
      (rest : ∀ answer, Only P (next answer)) : Only P (.perform e next)
  | files {change : FileSystem → FileSystem} {next : FileSystem → Procedure α}
      (looks : ∀ fs, change fs = fs) (rest : ∀ fs, Only P (next fs)) : Only P (.files change next)
  | classify {next : BootLayout → Procedure α} (rest : ∀ layout, Only P (next layout)) :
      Only P (.classify next)
  | settle {layout : BootLayout} {next : Procedure α} (rest : Only P next) :
      Only P (.settle layout next)

namespace Only

variable {α β : Type} {P : Effect → Prop}

lemma bind {p : Procedure α} {f : α → Procedure β} (hp : Only P p) (hf : ∀ a, Only P (f a)) :
    Only P (p.bind f) := by
  induction hp with
  | done a => exact hf a
  | perform kind rest ih => exact .perform kind ih
  | files looks rest ih => exact .files looks ih
  | classify rest ih => exact .classify ih
  | settle rest ih => exact .settle ih

lemma ask {e : Effect} (kind : P e) : Only P (Procedure.ask e) := .perform kind fun a => .done a

lemma bootLayout : Only P Procedure.bootLayout := .classify fun layout => .done layout

lemma runExpecting {c : Command} (kind : P (.run c)) : Only P (Procedure.runExpecting c) :=
  bind (ask kind) fun answer => .done (c.expectSuccess answer)

lemma andThen {p : Procedure (Except UpdateError α)} {f : α → Procedure (Except UpdateError β)}
    (hp : Only P p) (hf : ∀ a, Only P (f a)) : Only P (p.andThen f) := by
  refine bind hp fun result => ?_
  cases result with
  | ok a => exact hf a
  | error e => exact .done _

/-- What is left of a procedure asks for no more than all of it. The question for the boot layout
is an effect of its own. -/
lemma step {p rest : Procedure α} {shared after : Shared} (h : Only P p)
    (query : ∀ timeout, P (.run (BootLayout.query timeout)))
    (goes : p.move shared = .step after rest) : Only P rest := by
  cases h with
  | done a => simp [Procedure.move] at goes
  | perform kind rest => simp [Procedure.move] at goes
  | files looks hrest =>
    obtain ⟨-, rfl⟩ := by simpa [Procedure.move] using goes
    exact hrest _
  | classify hrest =>
    simp only [Procedure.move] at goes
    split at goes
    · simp at goes
    · split at goes
      · obtain ⟨-, rfl⟩ := by simpa using goes
        exact hrest _
      · obtain ⟨-, rfl⟩ := by simpa using goes
        exact .perform (query _) fun answer => .settle (hrest _)
  | settle hrest =>
    obtain ⟨-, rfl⟩ := by simpa [Procedure.move] using goes
    exact hrest

/-- A step leaves the files as they are. -/
lemma looks {p rest : Procedure α} {shared after : Shared} (h : Only P p)
    (goes : p.move shared = .step after rest) : after.files = shared.files := by
  cases h with
  | done a => simp [Procedure.move] at goes
  | perform kind rest => simp [Procedure.move] at goes
  | files looks hrest =>
    obtain ⟨rfl, -⟩ := by simpa [Procedure.move] using goes
    exact looks _
  | classify hrest =>
    simp only [Procedure.move] at goes
    split at goes
    · simp at goes
    · split at goes
      · obtain ⟨rfl, -⟩ := by simpa using goes
        rfl
      · obtain ⟨rfl, -⟩ := by simpa using goes
        rfl
  | settle hrest =>
    obtain ⟨rfl, -⟩ := by simpa [Procedure.move] using goes
    rfl

lemma resume {p : Procedure α} (h : Only P p) (answer : Answer) : Only P (p.resume answer) := by
  cases h with
  | perform kind rest => exact rest answer
  | done a => exact .done a
  | files looks rest => exact .files looks rest
  | classify rest => exact .classify rest
  | settle rest => exact .settle rest

/-- An effect that a procedure asks for is of its kind. -/
lemma effect {p : Procedure α} {shared : Shared} {e : Effect} (h : Only P p)
    (asks : p.move shared = .effect e) : P e := by
  obtain ⟨next, rfl⟩ := perform_of_effect asks
  cases h with
  | perform kind rest => exact kind

end Only

/-! ### Procedures that run alone -/

section Alone

variable {σ α β : Type} (device : Effect → σ × FileSystem → Answer × σ × FileSystem)

section Questions

variable {next : BootLayout → Procedure α} {s : σ} {shared : Shared}

/-- A layout that is known is not asked for. -/
lemma eval_classify_known {layout : BootLayout} (known : shared.classifier.known = some layout) :
    (classify next).eval device (s, shared) = (next layout).eval device (s, shared) := by
  simp only [eval, known]

/-- Without one the device is asked, and a definite answer is kept. -/
lemma eval_classify_open (unknown : shared.classifier.known = none) :
    (classify next).eval device (s, shared) =
      let answered := device (.run (BootLayout.query shared.classifier.timeout)) (s, shared.files)
      let layout := BootLayout.ofAnswer answered.1
      (next layout).eval device
        (answered.2.1, ⟨answered.2.2, shared.classifier.settle layout⟩) := by
  simp only [eval, unknown]

end Questions

lemma eval_bind (p : Procedure α) (f : α → Procedure β) (s : σ × Shared) :
    (p.bind f).eval device s = (f (p.eval device s).1).eval device (p.eval device s).2 := by
  obtain ⟨s, shared⟩ := s
  induction p generalizing s shared with
  | done a => rfl
  | perform e next ih => exact ih _ _ _
  | files change next ih => exact ih _ _ _
  | classify next ih =>
    rw [bind]
    cases known : shared.classifier.known with
    | some layout =>
      rw [eval_classify_known _ known, eval_classify_known _ known]
      exact ih _ _ _
    | none =>
      rw [eval_classify_open _ known, eval_classify_open _ known]
      exact ih _ _ _
  | settle layout next ih => exact ih _ _

end Alone

/-- Whatever the device answers, the procedure ends in a value with this property. -/
def Ends {α : Type} (P : α → Prop) (p : Procedure α) : Prop :=
  ∀ (σ : Type) (device : Effect → σ × FileSystem → Answer × σ × FileSystem) (s : σ × Shared),
    P (p.eval device s).1

namespace Ends

variable {α β : Type} {P : β → Prop} {Q : α → Prop} {p : Procedure α} {f : α → Procedure β}

lemma done {b : β} (h : P b) : Ends P (.done b) := fun _ _ _ => h

lemma bind_of (first : Ends Q p) (h : ∀ a, Q a → Ends P (f a)) : Ends P (p.bind f) := by
  intro σ device s
  rw [eval_bind]
  exact h _ (first σ device s) σ device _

lemma bind (h : ∀ a, Ends P (f a)) : Ends P (p.bind f) :=
  bind_of (Q := fun _ => True) (fun _ _ _ => trivial) fun a _ => h a

end Ends

end Procedure

/-- A command that must exit with status 0 has done so if its output is the result. -/
lemma Command.expectSuccess_eq_ok_iff {c : Command} {answer : Answer} {output : CommandOutput} :
    c.expectSuccess answer = .ok output ↔ answer = .ok output ∧ output.status = some 0 := by
  cases answer with
  | error e => simp [expectSuccess, bind, Except.bind]
  | ok printed =>
    by_cases success : printed.status = some 0
    · simp only [expectSuccess, bind, Except.bind, CommandOutput.success, success, beq_self_eq_true,
        if_true, pure, Except.pure, Except.ok.injEq]
      constructor
      · rintro rfl
        exact ⟨rfl, success⟩
      · exact And.left
    · simp only [expectSuccess, bind, Except.bind, CommandOutput.success, beq_iff_eq, success,
        if_false, throw, throwThe, MonadExceptOf.throw, reduceCtorEq, Except.ok.injEq, false_iff]
      rintro ⟨rfl, hsuccess⟩
      exact success hsuccess

/-- An effect that leaves the device running and starts no engine. -/
def Effect.Stays (e : Effect) : Prop :=
  (∀ plan, e ≠ .restart plan) ∧ ∀ stream request, e ≠ .startEngine stream request

open Procedure (Only)

lemma RecoveryWriter.write_only {P : Effect → Prop} (writer : RecoveryWriter) (package : String)
    (set : ∀ timeout name value, P (.run ⟨"fw_setenv", [name, value], some timeout⟩))
    (note : P (.writeRecovery package)) : Only P (writer.write package) := by
  cases writer with
  | environment timeout =>
    refine .andThen ?_ fun _ => ?_
    · exact .bind (.runExpecting (set timeout _ _)) fun _ => .done _
    · exact .bind (.runExpecting (set timeout _ _)) fun _ => .done _
  | external => exact .bind (.ask note) fun _ => .done _

lemma RecoveryWriter.write_stays (writer : RecoveryWriter) (package : String) :
    Only Effect.Stays (writer.write package) :=
  writer.write_only package (by simp [Effect.Stays]) (by simp [Effect.Stays])

lemma RecoveryWriter.clear_only {P : Effect → Prop} (writer : RecoveryWriter)
    (delete : ∀ timeout name, P (.run ⟨"fw_setenv", [name], some timeout⟩))
    (clear : P .clearRecovery) : Only P writer.clear := by
  cases writer with
  | environment timeout =>
    refine .andThen ?_ fun _ => ?_
    · exact .bind (.runExpecting (delete timeout _)) fun _ => .done _
    · exact .bind (.runExpecting (delete timeout _)) fun _ => .done _
  | external => exact .bind (.ask clear) fun _ => .done _

lemma Install.dispatch_stays (recovery : Option RecoveryWriter) (package : String) :
    Only Effect.Stays (Install.dispatch recovery package) := by
  refine .bind .bootLayout fun layout => ?_
  cases layout with
  | dual =>
    refine .bind (.bind (.ask (by simp [Effect.Stays])) fun answer => ?_) fun _ => .done _
    cases answer with
    | error e => exact .done _
    | ok output =>
      dsimp only
      split
      · exact .done _
      · exact .done _
  | single =>
    refine .bind ?_ fun _ => .done _
    cases recovery with
    | none => exact .done _
    | some writer =>
      refine .bind (writer.write_stays package) fun result => ?_
      cases result <;> exact .done _
  | unknown => exact .done _

lemma Install.withdraw_only {P : Effect → Prop} (recovery : Option RecoveryWriter)
    (delete : ∀ timeout name, P (.run ⟨"fw_setenv", [name], some timeout⟩))
    (clear : P .clearRecovery) : Only P (Install.withdraw recovery) := by
  cases recovery with
  | none => exact .done _
  | some writer => exact writer.clear_only delete clear

lemma Install.withdraw_stays (recovery : Option RecoveryWriter) :
    Only Effect.Stays (Install.withdraw recovery) :=
  Install.withdraw_only recovery (by simp [Effect.Stays]) (by simp [Effect.Stays])

namespace StreamPreparation

lemma prepare_only {P : Effect → Prop} (p : StreamPreparation)
    (active : P (.run (p.tool ["-a", "-s"]))) (free : ∀ directory, P (.run (p.unmount directory))) :
    Only P p.prepare := by
  refine .andThen ?_ fun active => ?_
  · refine .bind (.runExpecting active) fun result => ?_
    cases result with
    | error e => exact .done _
    | ok output =>
      dsimp only
      split
      · exact .done _
      · exact .done _
  · refine .files (fun _ => rfl) fun fs => .files (fun _ => rfl) fun fs' => ?_
    rw [Procedure.bind_done]
    split
    · exact .bind (.ask (free _)) fun _ => .done _
    · exact .done _

lemma prepare_stays (p : StreamPreparation) : Only Effect.Stays p.prepare :=
  p.prepare_only (by simp [Effect.Stays]) (by simp [Effect.Stays])

lemma swapActiveSystem_stays (p : StreamPreparation) :
    Only Effect.Stays p.swapActiveSystem :=
  .bind (.runExpecting (by simp [Effect.Stays])) fun _ => .done _

end StreamPreparation

end DeviceUpdate
