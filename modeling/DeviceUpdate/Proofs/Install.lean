import DeviceUpdate.Proofs.Classifier

/-!
# What an install asks for

A package goes to the installer tool only where two system partitions are known, and to the
recovery writer only where one is known. A successful install has done the one or the other, and
says which.
-/

namespace DeviceUpdate

namespace Effect

/-- Runs the installer tool on the package. -/
def Installs (e : Effect) (package : String) : Prop := e = .run (Install.installer package)

/-- Hands the package to the recovery writer. In the bootloader's environment the package is the
first thing that is noted down. -/
def HandsOver (e : Effect) (package : String) : Prop :=
  e = .writeRecovery package ∨ ∃ timeout, e =
    .run ⟨"fw_setenv", ["recovery_command", "--update_package=" ++ package], some timeout⟩

/-- Makes the other system partition the active one. -/
def Swaps (e : Effect) : Prop :=
  ∃ timeout, e = .run ⟨"update-firmware", ["--swap-active-system", "--no-reboot"], timeout⟩

/-- The effect has nothing to do with packages. -/
def Spares (e : Effect) : Prop := ∀ package, ¬ e.Installs package ∧ ¬ e.HandsOver package

/-- The effect has nothing to do with packages and active partitions. -/
def Harmless (e : Effect) : Prop := e.Spares ∧ ¬ e.Swaps

/-- The effect suits what is known of the boot layout, and does not swap partitions. -/
structure Suits (x : Trail) (e : Effect) : Prop where
  installs : ∀ package, e.Installs package → x.known = some .dual
  handsOver : ∀ package, e.HandsOver package → x.known = some .single
  keeps : ¬ e.Swaps

lemma Suits.mono {x y : Trail} {e : Effect} (hx : x.Leads y) (h : Suits x e) : Suits y e :=
  ⟨fun package hp => hx.known _ (h.installs package hp),
    fun package hp => hx.known _ (h.handsOver package hp), h.keeps⟩

lemma Harmless.suits {e : Effect} (h : e.Harmless) (x : Trail) : e.Suits x :=
  ⟨fun package hp => absurd hp (h.1 package).1, fun package hp => absurd hp (h.1 package).2, h.2⟩

/-- A question for the boot layout is harmless. -/
lemma harmless_query (timeout : Duration) :
    Harmless (.run (BootLayout.query timeout)) := by
  simp [Harmless, Spares, Installs, HandsOver, Swaps, BootLayout.query, Install.installer]

end Effect

open Procedure (Only Meets Plain)

/-! ### No procedure settles a question that it did not ask -/

lemma RecoveryWriter.setVariable_plain (timeout : Duration) (arguments : List String) :
    Plain (RecoveryWriter.setVariable timeout arguments) :=
  .bind (.runExpecting _) fun _ => .done _

lemma RecoveryWriter.write_plain (writer : RecoveryWriter) (package : String) :
    Plain (writer.write package) := by
  cases writer with
  | environment timeout =>
    exact .andThen (setVariable_plain _ _) fun _ => setVariable_plain _ _
  | external => exact .bind (.ask _) fun _ => .done _

lemma Install.withdraw_plain (recovery : Option RecoveryWriter) :
    Plain (Install.withdraw recovery) := by
  match recovery with
  | none => exact .done _
  | some (.environment timeout) =>
    exact .andThen (RecoveryWriter.setVariable_plain _ _) fun _ =>
      RecoveryWriter.setVariable_plain _ _
  | some .external => exact .bind (.ask _) fun _ => .done _

lemma Install.dispatch_plain (recovery : Option RecoveryWriter) (package : String) :
    Plain (Install.dispatch recovery package) := by
  refine .bind .bootLayout fun layout => ?_
  cases layout with
  | dual =>
    refine .bind (.bind (.ask _) fun answer => ?_) fun _ => .done _
    cases answer with
    | error e => exact .done _
    | ok output =>
      dsimp only
      split
      · exact .done _
      · exact .done _
  | single =>
    refine .bind ?_ fun _ => .done _
    cases recovery with
    | none => exact .done _
    | some writer =>
      refine .bind (writer.write_plain package) fun result => ?_
      cases result <;> exact .done _
  | unknown => exact .done _

namespace StreamPreparation

lemma prepare_plain (p : StreamPreparation) : Plain p.prepare := by
  refine .andThen (.bind (.runExpecting _) fun result => ?_) fun active => ?_
  · cases result with
    | error e => exact .done _
    | ok output =>
      dsimp only
      split
      · exact .done _
      · exact .done _
  · refine .files fun fs => .files fun fs' => ?_
    rw [Procedure.bind_done]
    split
    · exact .bind (.ask _) fun _ => .done _
    · exact .done _

lemma swapActiveSystem_plain (p : StreamPreparation) : Plain p.swapActiveSystem :=
  .bind (.runExpecting _) fun _ => .done _

end StreamPreparation

/-! ### Harmless procedures -/

/-- Taking a note back is harmless. -/
lemma Install.withdraw_harmless (recovery : Option RecoveryWriter) :
    Only Effect.Harmless (Install.withdraw recovery) :=
  Install.withdraw_only recovery
    (by simp [Effect.Harmless, Effect.Spares, Effect.Installs, Effect.HandsOver, Effect.Swaps,
      Install.installer])
    (by simp [Effect.Harmless, Effect.Spares, Effect.Installs, Effect.HandsOver, Effect.Swaps])

/-- Preparing a stream is harmless. -/
lemma StreamPreparation.prepare_harmless (p : StreamPreparation) :
    Only Effect.Harmless p.prepare :=
  p.prepare_only
    (by simp [Effect.Harmless, Effect.Spares, Effect.Installs, Effect.HandsOver, Effect.Swaps,
      Install.installer, StreamPreparation.tool])
    (by simp [Effect.Harmless, Effect.Spares, Effect.Installs, Effect.HandsOver, Effect.Swaps,
      Install.installer, StreamPreparation.unmount])

/-- The command that makes the partition that was written the active one. -/
def StreamPreparation.swapCommand (p : StreamPreparation) : Command :=
  p.tool ["--swap-active-system", "--no-reboot"]

lemma StreamPreparation.swaps_swapCommand (p : StreamPreparation) :
    Effect.Swaps (.run p.swapCommand) :=
  ⟨some p.timeout, rfl⟩

lemma StreamPreparation.swapActiveSystem_eq (p : StreamPreparation) : p.swapActiveSystem =
    .perform (.run p.swapCommand) fun answer =>
      .done ((p.swapCommand.expectSuccess answer).map fun _ => ()) := rfl

/-- Swapping partitions leaves packages alone. -/
lemma StreamPreparation.swapActiveSystem_spares (p : StreamPreparation) :
    Only Effect.Spares p.swapActiveSystem :=
  .bind (.runExpecting (by
    simp [Effect.Spares, Effect.Installs, Effect.HandsOver, Install.installer,
      StreamPreparation.tool])) fun _ => .done _

/-! ### What a successful install has done -/

/-- What an install of the package with this answer has done. -/
def Install.Explains (package : String) : Except UpdateError BootLayout → Trail → Prop
  | .ok .dual, x => x.known = some .dual ∧ ∃ e a, e.Installs package ∧ x.did e a
  | .ok .single, x => x.known = some .single ∧ ∃ e a, e.HandsOver package ∧ x.did e a
  | .ok .unknown, _ => False
  | .error _, _ => True

lemma Install.Explains.mono {package : String} {x y : Trail}
    {result : Except UpdateError BootLayout} (hx : x.Leads y)
    (h : Install.Explains package result x) : Install.Explains package result y := by
  match result, h with
  | .ok .dual, ⟨hknown, e, a, he, hdid⟩ => exact ⟨hx.known _ hknown, e, a, he, hx.did e a hdid⟩
  | .ok .single, ⟨hknown, e, a, he, hdid⟩ => exact ⟨hx.known _ hknown, e, a, he, hx.did e a hdid⟩
  | .error _, _ => trivial

/-- Handing a package to the recovery writer takes what suits a single system partition. -/
lemma RecoveryWriter.write_meets {x : Trail} (writer : RecoveryWriter) (package : String)
    (single : x.known = some .single) :
    (writer.write package).Meets Effect.Suits
      (fun _ y => y.known = some .single ∧ ∃ e a, e.HandsOver package ∧ y.did e a) x := by
  cases writer with
  | environment timeout =>
    have hnote : Effect.Suits x (.run
        ⟨"fw_setenv", ["recovery_command", "--update_package=" ++ package], some timeout⟩) :=
      ⟨by simp [Effect.Installs, Install.installer], fun _ _ => single, by simp [Effect.Swaps]⟩
    refine .bind (.bind (.bind (.perform hnote fun answer y hy hdid => .done (.done (.done ?_)))))
    have hover : y.known = some .single ∧ ∃ e a, e.HandsOver package ∧ y.did e a :=
      ⟨hy.known _ single, _, answer, .inr ⟨timeout, rfl⟩, hdid⟩
    dsimp only
    cases Except.map _ _ with
    | error e => exact .done hover
    | ok _ =>
      have hflag : Effect.Suits y
          (.run ⟨"fw_setenv", ["boot_recovery", "yes"], some timeout⟩) :=
        ⟨by simp [Effect.Installs, Install.installer], fun _ _ => hover.1, by simp [Effect.Swaps]⟩
      refine .bind (.bind (.perform hflag fun answer z hz _ => .done (.done (.done ?_))))
      obtain ⟨hknown, e, a, he, hdid⟩ := hover
      exact ⟨hz.known _ hknown, e, a, he, hz.did e a hdid⟩
  | external =>
    have hnote : Effect.Suits x (.writeRecovery package) :=
      ⟨by simp [Effect.Installs], fun _ _ => single, by simp [Effect.Swaps]⟩
    exact .bind (.perform hnote fun answer y hy hdid =>
      .done (.done ⟨hy.known _ single, _, answer, .inl rfl, hdid⟩))

/-- An install follows the boot layout, and a successful one says what it has done. -/
lemma Install.dispatch_meets (recovery : Option RecoveryWriter) (package : String) (x : Trail) :
    (Install.dispatch recovery package).Meets Effect.Suits (Install.Explains package) x := by
  refine .bind (.classify fun layout y _ found => .done ?_)
  cases layout with
  | dual =>
    have hdual : y.known = some .dual := found (by simp)
    have hinstall : Effect.Suits y (.run (Install.installer package)) :=
      ⟨fun _ _ => hdual, by simp [Effect.HandsOver, Install.installer],
        by simp [Effect.Swaps, Install.installer]⟩
    refine .bind (.bind (.perform hinstall fun answer z hz hdid => .done ?_))
    have hdone : Install.Explains package (.ok .dual) z :=
      ⟨hz.known _ hdual, _, answer, rfl, hdid⟩
    cases answer with
    | error e => exact .done (.done trivial)
    | ok output =>
      dsimp only
      split
      · exact .done (.done trivial)
      · exact .done (.done hdone)
  | single =>
    refine .bind ?_
    cases recovery with
    | none => exact .done (.done trivial)
    | some writer =>
      refine .bind ((writer.write_meets package (found (by simp))).imp fun result z hz => ?_)
      cases result with
      | error e => exact .done (.done trivial)
      | ok _ => exact .done (.done hz)
  | unknown => exact .done trivial

end DeviceUpdate
