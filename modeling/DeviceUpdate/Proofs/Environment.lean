import DeviceUpdate.Proofs.Procedure
import Mathlib.Logic.Function.Basic

/-!
# The bootloader's environment

A device with one system partition keeps its recovery request in two variables of the bootloader's
environment. What a procedure makes of them, whatever the answers are, is told by `Ensures`.
-/

namespace DeviceUpdate

abbrev Environment := String → Option String

namespace Environment

/-- What `fw_setenv` makes of the environment: without a value the variable is deleted. -/
def change (env : Environment) : List String → Environment
  | [name] => Function.update env name none
  | [name, value] => Function.update env name (some value)
  | _ => env

/-- The next boot goes to the recovery system. -/
def Flagged (env : Environment) : Prop := env "boot_recovery" = some "yes"

/-- The recovery system is told to install this package. -/
def Names (env : Environment) (package : String) : Prop :=
  env "recovery_command" = some ("--update_package=" ++ package)

/-- What an install of the package leaves. Without success nothing changed. -/
def Installed (before : Environment) (package : String) :
    Except UpdateError BootLayout → Environment → Prop
  | .ok layout, after => layout = .single ∧ after.Flagged ∧ after.Names package
  | .error _, after => after = before

/-- The flag was set before, or is set now. -/
lemma flagged_of_change {env : Environment} {arguments : List String}
    (h : (env.change arguments).Flagged) :
    env.Flagged ∨ arguments = ["boot_recovery", "yes"] := by
  unfold Flagged change at *
  split at h
  · rename_i name
    by_cases hname : "boot_recovery" = name
    · simp [← hname] at h
    · exact .inl (by rwa [Function.update_of_ne hname] at h)
  · rename_i name value
    by_cases hname : "boot_recovery" = name
    · subst hname
      rw [Function.update_self] at h
      exact .inr (by rw [Option.some.inj h])
    · exact .inl (by rwa [Function.update_of_ne hname] at h)
  · exact .inl h

end Environment

namespace Effect

/-- A device with one system partition answers like this: `fw_setenv` works, the boot layout is
never that of two partitions, and a restart can set the flag for the recovery system. -/
def Single (before : Environment) (answer : Answer) (after : Environment) : Effect → Prop
  | .run c =>
    if c.program = "fw_setenv" then
      (∃ output, c.expectSuccess answer = .ok output) ∧ after = before.change c.arguments
    else
      after = before ∧
        ∀ timeout, c = BootLayout.query timeout → BootLayout.ofAnswer answer ≠ .dual
  | .restart _ => after = before ∨ after = before.change ["boot_recovery", "yes"]
  | _ => after = before

/-- The effect may be answered like this on such a device, whatever its environment is. -/
def SingleAnswer (e : Effect) (_ : Unit) (answer : Answer) (_ : Unit) : Prop :=
  ∃ before after, e.Single before answer after

/-- The effect asks for the boot layout. -/
def IsQuery (e : Effect) : Prop := ∃ timeout, e = .run (BootLayout.query timeout)

/-- The effect does not set the flag. -/
def NeverFlags (e : Effect) : Prop :=
  ∀ before answer after, e.Single before answer after → after.Flagged → before.Flagged

lemma IsQuery.same {e : Effect} {before after : Environment} {answer : Answer} (h : e.IsQuery)
    (single : e.Single before answer after) : after = before := by
  obtain ⟨timeout, rfl⟩ := h
  exact single.1

lemma IsQuery.neverFlags {e : Effect} (h : e.IsQuery) : e.NeverFlags := by
  intro before answer after hsingle hflag
  rwa [← h.same hsingle]

lemma ofAnswer_ne_dual {timeout : Duration} {before after : Environment} {answer : Answer}
    (single : Effect.Single before answer after (.run (BootLayout.query timeout))) :
    BootLayout.ofAnswer answer ≠ .dual :=
  single.2 timeout rfl

/-- Deleting a variable never sets the flag. -/
lemma neverFlags_delete (name : String) (timeout : Duration) :
    Effect.NeverFlags (.run ⟨"fw_setenv", [name], some timeout⟩) := by
  rintro before answer after ⟨-, rfl⟩ hflag
  exact (Environment.flagged_of_change hflag).resolve_right (by simp)

end Effect

/-- A restart leaves an environment with the flag as it is. -/
lemma Environment.Flagged.restart {before after : Environment} {answer : Answer}
    {plan : RebootPlan} (h : before.Flagged)
    (single : Effect.Single before answer after (.restart plan)) : after = before := by
  rcases single with rfl | rfl
  · rfl
  · exact (Function.update_eq_self_iff ..).mpr h.symm

namespace Procedure

/-- All effects of the procedure are of this kind, and if the boot layout is one of these and the
effects are answered as `may` says, it ends with `Q`. -/
inductive Ensures {α ε : Type} (layouts : BootLayout → Prop) (kind : Effect → Prop)
    (may : Effect → ε → Answer → ε → Prop) (Q : α → ε → Prop) : Procedure α → ε → Prop
  | done {a : α} {x : ε} (h : Q a x) : Ensures layouts kind may Q (.done a) x
  | perform {e : Effect} {next : Answer → Procedure α} {x : ε} (fits : kind e)
      (h : ∀ answer y, may e x answer y → Ensures layouts kind may Q (next answer) y) :
      Ensures layouts kind may Q (.perform e next) x
  | classify {next : BootLayout → Procedure α} {x : ε}
      (h : ∀ layout, layouts layout → Ensures layouts kind may Q (next layout) x) :
      Ensures layouts kind may Q (.classify next) x
  | settle {layout : BootLayout} {next : Procedure α} {x : ε} (known : layouts layout)
      (h : Ensures layouts kind may Q next x) : Ensures layouts kind may Q (.settle layout next) x

namespace Ensures

variable {α β ε : Type} {layouts : BootLayout → Prop} {kind : Effect → Prop}
  {may : Effect → ε → Answer → ε → Prop} {Q : α → ε → Prop} {R : β → ε → Prop} {x y : ε}

lemma bind {p : Procedure α} {f : α → Procedure β}
    (h : Ensures layouts kind may (fun a y => Ensures layouts kind may R (f a) y) p x) :
    Ensures layouts kind may R (p.bind f) x := by
  induction h with
  | done h => exact h
  | perform fits _ ih => exact .perform fits ih
  | classify _ ih => exact .classify ih
  | settle known _ ih => exact .settle known ih

lemma mono {Q' : α → ε → Prop} {p : Procedure α} (h : Ensures layouts kind may Q p x)
    (imp : ∀ a y, Q a y → Q' a y) : Ensures layouts kind may Q' p x := by
  induction h with
  | done h => exact .done (imp _ _ h)
  | perform fits _ ih => exact .perform fits ih
  | classify _ ih => exact .classify ih
  | settle known _ ih => exact .settle known ih

lemma result {a : α} (h : Ensures layouts kind may Q (.done a) x) : Q a x := by
  cases h with
  | done h => exact h

/-- A step keeps what the procedure comes to, and what is known of the boot layout. -/
lemma step {p rest : Procedure α} {shared after : Shared} (h : Ensures layouts kind may Q p x)
    (layout : ∀ l, shared.classifier.known = some l → layouts l)
    (query : ∀ timeout, kind (.run (BootLayout.query timeout)))
    (answers : ∀ timeout answer y, may (.run (BootLayout.query timeout)) x answer y →
      layouts (BootLayout.ofAnswer answer) ∧ y = x)
    (goes : p.move shared = .step after rest) :
    Ensures layouts kind may Q rest x ∧ ∀ l, after.classifier.known = some l → layouts l := by
  cases h with
  | done h => simp [Procedure.move] at goes
  | perform fits h => simp [Procedure.move] at goes
  | classify h =>
    simp only [Procedure.move] at goes
    split at goes
    · simp at goes
    · split at goes
      · rename_i known hknown
        obtain ⟨rfl, rfl⟩ := by simpa using goes
        exact ⟨h known (layout known hknown), layout⟩
      · obtain ⟨rfl, rfl⟩ := by simpa using goes
        refine ⟨.perform (query _) fun answer y hmay => ?_, layout⟩
        obtain ⟨hlayout, rfl⟩ := answers _ _ _ hmay
        exact .settle hlayout (h _ hlayout)
  | @settle found _ _ known h =>
    obtain ⟨rfl, rfl⟩ := by simpa [Procedure.move] using goes
    refine ⟨h, ?_⟩
    simp only [Classifier.settle]
    split
    · exact layout
    · rintro l hl
      obtain rfl := Option.some.inj hl
      exact known

/-- The same where the layout is never that of two partitions. -/
lemma step_single {p rest : Procedure α} {shared after : Shared}
    (h : Ensures (· ≠ .dual) kind may Q p x) (layout : shared.classifier.known ≠ some .dual)
    (query : ∀ timeout, kind (.run (BootLayout.query timeout)))
    (answers : ∀ timeout answer y, may (.run (BootLayout.query timeout)) x answer y →
      BootLayout.ofAnswer answer ≠ .dual ∧ y = x)
    (goes : p.move shared = .step after rest) :
    Ensures (· ≠ .dual) kind may Q rest x ∧ after.classifier.known ≠ some .dual := by
  have hknown (l : BootLayout) (hl : shared.classifier.known = some l) : l ≠ .dual := by
    rintro rfl
    exact layout hl
  obtain ⟨hrest, hafter⟩ := h.step hknown query answers goes
  exact ⟨hrest, fun hdual => hafter _ hdual rfl⟩

lemma effect {p : Procedure α} {shared : Shared} {e : Effect} (h : Ensures layouts kind may Q p x)
    (asks : p.move shared = .effect e) : kind e := by
  obtain ⟨next, rfl⟩ := perform_of_effect asks
  cases h with
  | perform fits h => exact fits

lemma resume {p : Procedure α} {shared : Shared} {e : Effect} {answer : Answer}
    (h : Ensures layouts kind may Q p x) (asks : p.move shared = .effect e)
    (gets : may e x answer y) : Ensures layouts kind may Q (p.resume answer) y := by
  obtain ⟨next, rfl⟩ := perform_of_effect asks
  cases h with
  | perform fits h => exact h answer y gets

end Ensures

/-- A question for the boot layout asks for nothing else, and the answer is not that of two
partitions. -/
abbrev Asking (p : Procedure BootLayout) : Prop :=
  p.Ensures (· ≠ .dual) Effect.IsQuery Effect.SingleAnswer (fun layout _ => layout ≠ .dual) ()

/-- The install ends like this if it is begun in the environment `before`. -/
abbrev Installing (before : Environment) (package : String) (env : Environment)
    (p : Procedure (Except UpdateError BootLayout)) : Prop :=
  p.Ensures (· ≠ .dual) (fun _ => True) (fun e env answer after => e.Single env answer after)
    (before.Installed package) env

/-- The procedure never sets the flag. -/
abbrev Withdrawing (p : Procedure (Except UpdateError Unit)) : Prop :=
  p.Ensures (· ≠ .dual) Effect.NeverFlags Effect.SingleAnswer (fun _ _ => True) ()

section

variable {shared after : Shared}

lemma Asking.step {p rest : Procedure BootLayout} (h : p.Asking)
    (layout : shared.classifier.known ≠ some .dual) (goes : p.move shared = .step after rest) :
    rest.Asking ∧ after.classifier.known ≠ some .dual := by
  refine Ensures.step_single h layout (fun timeout => ⟨timeout, rfl⟩) ?_ goes
  rintro timeout answer ⟨⟩ ⟨_, _, single⟩
  exact ⟨Effect.ofAnswer_ne_dual single, rfl⟩

lemma Withdrawing.step {p rest : Procedure (Except UpdateError Unit)} (h : p.Withdrawing)
    (layout : shared.classifier.known ≠ some .dual) (goes : p.move shared = .step after rest) :
    rest.Withdrawing ∧ after.classifier.known ≠ some .dual := by
  refine Ensures.step_single h layout
    (fun timeout => Effect.IsQuery.neverFlags ⟨timeout, rfl⟩) ?_ goes
  rintro timeout answer ⟨⟩ ⟨_, _, single⟩
  exact ⟨Effect.ofAnswer_ne_dual single, rfl⟩

lemma Installing.step {before env : Environment} {package : String}
    {p rest : Procedure (Except UpdateError BootLayout)} (h : p.Installing before package env)
    (layout : shared.classifier.known ≠ some .dual) (goes : p.move shared = .step after rest) :
    rest.Installing before package env ∧ after.classifier.known ≠ some .dual := by
  refine Ensures.step_single h layout (fun _ => trivial) ?_ goes
  intro timeout answer env' single
  exact ⟨Effect.ofAnswer_ne_dual single, Effect.IsQuery.same ⟨timeout, rfl⟩ single⟩

end

lemma asking_bootLayout : Asking bootLayout := .classify fun _ single => .done single

end Procedure

open Procedure (Ensures)

/-- Setting a variable works. -/
lemma RecoveryWriter.setVariable_ensures {timeout : Duration} {arguments : List String}
    {env : Environment} {Q : Except UpdateError Unit → Environment → Prop}
    (h : Q (.ok ()) (env.change arguments)) :
    Ensures (· ≠ .dual) (fun _ => True) (fun e env answer after => e.Single env answer after) Q
      (RecoveryWriter.setVariable timeout arguments) env := by
  refine .bind (.bind (.perform trivial fun answer after single => .done (.done ?_)))
  obtain ⟨⟨output, houtput⟩, rfl⟩ := single
  rw [houtput]
  exact .done h

lemma RecoveryWriter.write_ensures {timeout : Duration} {package : String} {env : Environment} :
    Ensures (· ≠ .dual) (fun _ => True) (fun e env answer after => e.Single env answer after)
      (fun result after => result = .ok () ∧ after.Flagged ∧ after.Names package)
      (RecoveryWriter.write package (.environment timeout)) env := by
  refine .bind (RecoveryWriter.setVariable_ensures ?_)
  refine RecoveryWriter.setVariable_ensures ⟨rfl, rfl, ?_⟩
  simp [Environment.Names, Environment.change]

/-- On such a device an install hands the package to the recovery system, or does nothing. -/
lemma Install.dispatch_installing (timeout : Duration) (package : String) (env : Environment) :
    Procedure.Installing env package env
      (Install.dispatch (some (.environment timeout)) package) := by
  refine .bind (.classify fun layout single => .done ?_)
  cases layout with
  | dual => exact absurd rfl single
  | single =>
    refine .bind (.bind (RecoveryWriter.write_ensures.mono fun result after hwrite => ?_))
    obtain ⟨rfl, hflag, hnames⟩ := hwrite
    exact .done (.done ⟨rfl, hflag, hnames⟩)
  | unknown => exact .done rfl

lemma Install.withdraw_withdrawing (timeout : Duration) :
    Procedure.Withdrawing (Install.withdraw (some (.environment timeout))) := by
  have hdelete (name : String) :
      Procedure.Withdrawing (RecoveryWriter.setVariable timeout [name]) :=
    .bind (.bind (.perform (Effect.neverFlags_delete name timeout) fun _ _ _ =>
      .done (.done (.done trivial))))
  refine .bind ((hdelete "boot_recovery").mono fun result _ _ => ?_)
  cases result with
  | ok _ => exact hdelete "recovery_command"
  | error e => exact .done trivial

/-- The flag goes first. -/
lemma Install.not_flagged_of_withdraw {timeout : Duration} {shared : Shared} {e : Effect}
    {before after : Environment} {answer : Answer}
    (asks : (Install.withdraw (some (.environment timeout))).move shared = .effect e)
    (single : e.Single before answer after) : ¬ after.Flagged := by
  obtain rfl : Effect.run ⟨"fw_setenv", ["boot_recovery"], some timeout⟩ = e :=
    Procedure.Move.effect.inj asks
  obtain ⟨-, rfl⟩ := single
  simp [Environment.Flagged, Environment.change]

end DeviceUpdate
