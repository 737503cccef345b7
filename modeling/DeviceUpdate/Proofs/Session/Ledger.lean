import DeviceUpdate.Proofs.Environment
import DeviceUpdate.Proofs.Install
import DeviceUpdate.Proofs.Session.Effects

/-!
# What a call notes down and takes back

A call asks the recovery system for an install when it installs a package on a device with one
system partition, and takes that back if the update turns out cancelled. The history of the call
balances: what was asked for is taken back, or its outcome is recorded.
-/

namespace DeviceUpdate

namespace Effect

/-- Makes the recovery system install the package that is noted down. In the bootloader's
environment that is the flag. -/
def Requests (e : Effect) : Prop :=
  (∃ package, e = .writeRecovery package) ∨
    ∃ timeout, e = .run ⟨"fw_setenv", ["boot_recovery", "yes"], timeout⟩

/-- Takes a request to the recovery system back. -/
def Revokes (e : Effect) : Prop :=
  e = .clearRecovery ∨ ∃ timeout, e = .run ⟨"fw_setenv", ["boot_recovery"], timeout⟩

/-- The effect went well, by the answer to it. -/
def Works (e : Effect) (answer : Answer) : Prop :=
  match e with
  | .run c => (c.expectSuccess answer).isOk
  | _ => answer.isOk

/-- The effect has nothing to do with the recovery system. -/
def Aside (e : Effect) : Prop := ¬ e.Requests ∧ ¬ e.Revokes

lemma aside_query (timeout : Duration) : Aside (.run (BootLayout.query timeout)) := by
  simp [Aside, Requests, Revokes, BootLayout.query]

end Effect

open Procedure (Only Ensures)

lemma StreamPreparation.prepare_aside (p : StreamPreparation) : Only Effect.Aside p.prepare :=
  p.prepare_only (by simp [Effect.Aside, Effect.Requests, Effect.Revokes, StreamPreparation.tool])
    (by simp [Effect.Aside, Effect.Requests, Effect.Revokes, StreamPreparation.unmount])

lemma StreamPreparation.swapActiveSystem_aside (p : StreamPreparation) :
    Only Effect.Aside p.swapActiveSystem :=
  .bind (.runExpecting (by
    simp [Effect.Aside, Effect.Requests, Effect.Revokes, StreamPreparation.tool])) fun _ => .done _

/-- Taking a request back asks for nothing. -/
lemma Install.withdraw_never_requests (recovery : Option RecoveryWriter) :
    Only (fun e => ¬ e.Requests) (Install.withdraw recovery) :=
  Install.withdraw_only recovery (by simp [Effect.Requests]) (by simp [Effect.Requests])

/-- It begins with the effect that takes it back. -/
lemma Install.withdraw_asks {recovery : Option RecoveryWriter} (some : recovery.isSome)
    (shared : Shared) : ∃ e, (Install.withdraw recovery).move shared = .effect e ∧ e.Revokes := by
  match recovery with
  | none => cases some
  | .some (.environment timeout) => exact ⟨_, rfl, .inr ⟨timeout, rfl⟩⟩
  | .some .external => exact ⟨_, rfl, .inl rfl⟩

/-- Whether the recovery system was asked for an install, after this answer. -/
def Effect.Tally (e : Effect) (asked : Prop) (answer : Answer) (now : Prop) : Prop :=
  now ↔ asked ∨ e.Requests ∧ e.Works answer

/-- Noting a package down asks for its install exactly if it works. -/
lemma RecoveryWriter.write_tallies (writer : RecoveryWriter) (package : String) :
    (writer.write package).Ensures (fun _ => True) (fun e => ¬ e.Revokes) Effect.Tally
      (fun result asked => asked ↔ result.isOk) False := by
  cases writer with
  | environment timeout =>
    refine .bind (.bind (.bind (.perform ?_ fun answer now may => .done (.done (.done ?_)))))
    · simp [Effect.Revokes]
    have hnot : ¬ now := by
      rw [Effect.Tally] at may
      rw [may]
      simp [Effect.Requests]
    cases Command.expectSuccess _ answer with
    | error e => exact .done (by simp [hnot, Except.isOk, Except.toBool])
    | ok output =>
      refine .bind (.bind (.perform ?_ fun answer after may => .done (.done (.done ?_))))
      · simp [Effect.Revokes]
      rw [Effect.Tally] at may
      rw [may]
      cases hresult : Command.expectSuccess _ answer <;>
        simp [hnot, Effect.Requests, Effect.Works, hresult, Except.map, Except.isOk, Except.toBool]
  | external =>
    refine .bind (.perform ?_ fun answer now may => .done (.done ?_))
    · simp [Effect.Revokes]
    · rw [Effect.Tally] at may
      rw [may]
      cases answer <;>
        simp [Effect.Requests, Effect.Works, Except.map, Except.isOk, Except.toBool]

/-- The install takes nothing back, and has asked the recovery system exactly if it ends as one on
a single system partition; `asked` tells whether it has so far. -/
abbrev Procedure.Tallies (recovery : Option RecoveryWriter)
    (p : Procedure (Except UpdateError BootLayout)) (asked : Prop) : Prop :=
  p.Ensures (fun _ => True) (fun e => ¬ e.Revokes) Effect.Tally
    (fun result asked => (asked ↔ result = .ok .single) ∧ (asked → recovery.isSome)) asked

lemma Install.dispatch_tallies (recovery : Option RecoveryWriter) (package : String) :
    (Install.dispatch recovery package).Tallies recovery False := by
  refine .bind (.classify fun layout _ => .done ?_)
  cases layout with
  | dual =>
    refine .bind (.bind (.perform ?_ fun answer now may => .done ?_))
    · simp [Effect.Revokes, Install.installer]
    have hnot : ¬ now := by
      rw [Effect.Tally] at may
      rw [may]
      simp [Effect.Requests, Install.installer]
    cases answer with
    | error e => exact .done (.done (by simp [hnot, Except.map]))
    | ok output =>
      dsimp only
      split <;> exact .done (.done (by simp [hnot, Except.map]))
  | single =>
    refine .bind ?_
    cases recovery with
    | none => exact .done (.done (by simp [Except.map]))
    | some writer =>
      refine .bind ((writer.write_tallies package).mono fun result asked hasked => ?_)
      cases result with
      | error e => exact .done (.done (by simp [hasked, Except.map, Except.isOk, Except.toBool]))
      | ok value => exact .done (.done (by simp [hasked, Except.map, Except.isOk, Except.toBool]))
  | unknown => exact .done (by simp)

namespace Session

variable {σ : Type} {setup : Setup} {around : Surroundings σ} {s t : System σ}

/-! ### What a history tells -/

section Told

variable {l : List Event}

/-- The recovery system was asked for an install. -/
def Asked (l : List Event) : Prop := ∃ e a, .performed e a ∈ l ∧ e.Requests ∧ e.Works a

/-- A request to the recovery system was taken back. -/
def Cleared (l : List Event) : Prop := ∃ e a, .performed e a ∈ l ∧ e.Revokes

/-- The install on a single system partition that the history tells of. -/
def Noted (l : List Event) (g : Nat) (package : String) : Prop :=
  .installed g package (.ok .single) ∈ l

/-- Nothing was asked for, and nothing installed. -/
structure Blank (l : List Event) : Prop where
  asked : ¬ Asked l
  cleared : ¬ Cleared l
  noted : ∀ g package, ¬ Noted l g package

lemma asked_performed {e : Effect} {a : Answer} :
    Asked (.performed e a :: l) ↔ Asked l ∨ e.Requests ∧ e.Works a := by
  constructor
  · rintro ⟨f, b, hmem, hf⟩
    rcases List.mem_cons.mp hmem with heq | hold
    · obtain ⟨rfl, rfl⟩ := Event.performed.inj heq
      exact .inr hf
    · exact .inl ⟨f, b, hold, hf⟩
  · rintro (⟨f, b, hold, hf⟩ | he)
    · exact ⟨f, b, List.mem_cons_of_mem _ hold, hf⟩
    · exact ⟨e, a, List.mem_cons_self .., he⟩

lemma cleared_performed {e : Effect} {a : Answer} :
    Cleared (.performed e a :: l) ↔ Cleared l ∨ e.Revokes := by
  constructor
  · rintro ⟨f, b, hmem, hf⟩
    rcases List.mem_cons.mp hmem with heq | hold
    · obtain ⟨rfl, -⟩ := Event.performed.inj heq
      exact .inr hf
    · exact .inl ⟨f, b, hold, hf⟩
  · rintro (⟨f, b, hold, hf⟩ | he)
    · exact ⟨f, b, List.mem_cons_of_mem _ hold, hf⟩
    · exact ⟨e, a, List.mem_cons_self .., he⟩

/-- The second history tells the same of the recovery system as the first. -/
structure Echoes (l l' : List Event) : Prop where
  asked : Asked l' ↔ Asked l
  cleared : Cleared l' ↔ Cleared l
  noted : ∀ g package, Noted l' g package ↔ Noted l g package

lemma Blank.echo {l' : List Event} (h : Blank l) (same : Echoes l l') : Blank l' :=
  ⟨fun ha => h.asked (same.asked.mp ha), fun hc => h.cleared (same.cleared.mp hc),
    fun g package hi => h.noted g package ((same.noted g package).mp hi)⟩

lemma Echoes.of_aside {e : Effect} (aside : e.Aside) (a : Answer) :
    Echoes l (.performed e a :: l) := by
  refine ⟨?_, ?_, fun g package => ?_⟩
  · rw [asked_performed]
    exact or_iff_left fun h => aside.1 h.1
  · rw [cleared_performed]
    exact or_iff_left aside.2
  · simp [Noted]

section Tells

variable {o : Option Event} (never : ∀ e a, o ≠ some (.performed e a))

include never

lemma mem_performed {e : Effect} {a : Answer} :
    .performed e a ∈ o.toList ++ l ↔ .performed e a ∈ l := by
  rw [List.mem_append, Option.mem_toList]
  exact or_iff_right (never e a)

/-- A call that goes on by itself asks for nothing. -/
lemma asked_append : Asked (o.toList ++ l) ↔ Asked l :=
  exists_congr fun _ => exists_congr fun _ => and_congr_left fun _ => mem_performed never

lemma cleared_append : Cleared (o.toList ++ l) ↔ Cleared l :=
  exists_congr fun _ => exists_congr fun _ => and_congr_left fun _ => mem_performed never

lemma Echoes.of_tells (other : ∀ g package, o ≠ some (.installed g package (.ok .single))) :
    Echoes l (o.toList ++ l) := by
  refine ⟨asked_append never, cleared_append never, fun g package => ?_⟩
  rw [Noted, Noted, List.mem_append, Option.mem_toList]
  exact or_iff_right (other g package)

end Tells

end Told

/-! ### The balance of a call -/

/-- How the balance stands at a point, with this history behind it. -/
def Point.Balance (setup : Setup) (l : List Event) : Point → Prop
  | .choosing _ _ _ _ rest => Blank l ∧ rest.Only Effect.Aside
  | .preparing _ _ rest => Blank l ∧ rest.Only Effect.Aside
  | .swapping rest => Blank l ∧ rest.Only Effect.Aside
  | .planning rest => Blank l ∧ rest.Only Effect.Aside
  | .asking rest => Blank l ∧ rest.Only Effect.Aside
  | .installing _ _ _ rest =>
    ¬ Cleared l ∧ (∀ g package, ¬ Noted l g package) ∧ rest.Tallies setup.recovery (Asked l)
  | .installed g _ package result =>
    ¬ Cleared l ∧ (Asked l ↔ result = .ok .single) ∧ (Asked l → setup.recovery.isSome) ∧
      ∀ k path, Noted l k path ↔ result = .ok .single ∧ k = g ∧ path = package
  | .concluding g _ _ (.withdraw package) =>
    ¬ Cleared l ∧ Asked l ∧ setup.recovery.isSome ∧
      ∀ k path, Noted l k path ↔ k = g ∧ path = package
  | .withdrawing _ rest =>
    Asked l ∧ setup.recovery.isSome ∧ rest.Only (fun e => ¬ e.Requests) ∧
      (¬ Cleared l ∧ rest = Install.withdraw setup.recovery ∨ Cleared l)
  | .removing _ _ => Asked l ↔ Cleared l
  | _ => Blank l

/-- How it stands when the call has returned. -/
def Status.Balance (setup : Setup) (l : List Event) : Status → Prop
  | .running p => p.Balance setup l
  | .returned _ => (Cleared l → Asked l) ∧ (Asked l → Cleared l ∨ ∃ g o, .recorded g o ∈ l)

section Balance

variable {l l' : List Event}

lemma Blank.returned {r : Reply} (h : Blank l) : (Status.returned r).Balance setup l :=
  ⟨fun hc => absurd hc h.cleared, fun ha => absurd ha h.asked⟩

lemma Point.Balance.echo {p : Point} (h : p.Balance setup l) (same : Echoes l l') :
    p.Balance setup l' := by
  cases p with
  | choosing | preparing | swapping | planning | asking => exact ⟨h.1.echo same, h.2⟩
  | installing g target package rest =>
    refine ⟨same.cleared.not.mpr h.1, fun k path => (same.noted k path).not.mpr (h.2.1 k path),
      ?_⟩
    rw [propext same.asked]
    exact h.2.2
  | installed g target package result =>
    obtain ⟨hcleared, hasked, hsome, hnoted⟩ := h
    exact ⟨same.cleared.not.mpr hcleared, same.asked.trans hasked,
      fun ha => hsome (same.asked.mp ha), fun k path => (same.noted k path).trans
        (hnoted k path)⟩
  | concluding g outcome result otherwise =>
    cases otherwise with
    | refuse code => exact Blank.echo h same
    | withdraw package =>
      obtain ⟨hcleared, hasked, hsome, hnoted⟩ := h
      exact ⟨same.cleared.not.mpr hcleared, same.asked.mpr hasked, hsome,
        fun k path => (same.noted k path).trans (hnoted k path)⟩
  | withdrawing package rest =>
    obtain ⟨hasked, hsome, honly, hclear⟩ := h
    exact ⟨same.asked.mpr hasked, hsome, honly,
      hclear.imp (And.imp_left same.cleared.not.mpr) same.cleared.mpr⟩
  | removing path reply => exact same.asked.trans (h.trans same.cleared.symm)
  | _ => exact Blank.echo h same

/-- What a call tells at the end of an install. -/
lemma Tells.eq_of_installed {w w' : World} {p : Point} {st : Status} {g : Nat} {package : String}
    {result : Except UpdateError BootLayout}
    (h : Tells setup w p w' st (.installed g package result)) :
    ∃ target, p = .installing g target package (.done result) ∧
      st = .running (.installed g target package result) := by
  cases h with
  | installed => exact ⟨_, rfl, rfl⟩

lemma Tells.ne_performed {w w' : World} {p : Point} {st : Status} {e : Effect} {a : Answer} :
    ¬ Tells setup w p w' st (.performed e a) := by
  rintro ⟨⟩

/-- The end of an install on a single system partition is noted. -/
lemma Point.Balance.installed {g : Nat} {target : Target} {package : String}
    (h : (Point.installing g target package (.done (.ok .single))).Balance setup l) :
    (Point.installed g target package (.ok .single)).Balance setup
      (.installed g package (.ok .single) :: l) := by
  have hnever (e : Effect) (a : Answer) :
      some (Event.installed g package (.ok .single)) ≠ some (.performed e a) := by simp
  obtain ⟨hcleared, hnoted, htallies⟩ := h
  obtain ⟨hasked, hsome⟩ := htallies.result
  refine ⟨(cleared_append hnever).not.mpr hcleared, (asked_append hnever).trans hasked,
    fun ha => hsome ((asked_append hnever).mp ha), fun k path => ?_⟩
  simpa [Noted, eq_comm] using fun hi => absurd hi (hnoted k path)

/-- The balance while a procedure goes on. -/
lemma Point.Balance.inside {α : Type} {wrap : Procedure α → Point} {rest rest' : Procedure α}
    {before after : Shared} (h : (wrap rest).Balance setup l) (wraps : Wraps wrap)
    (move : rest.move before = .step after rest') : (wrap rest').Balance setup l := by
  have hquery (timeout : Duration) : ¬ Effect.Requests (.run (BootLayout.query timeout)) :=
    (Effect.aside_query timeout).1
  cases wraps with
  | installing =>
    obtain ⟨hcleared, hnoted, htallies⟩ := h
    refine ⟨hcleared, hnoted, (htallies.step (fun _ _ => trivial)
      (fun timeout => (Effect.aside_query timeout).2) ?_ move).1⟩
    intro timeout answer now may
    refine ⟨trivial, propext ?_⟩
    rw [Effect.Tally] at may
    rw [may]
    exact or_iff_left fun hr => hquery timeout hr.1
  | withdrawing =>
    obtain ⟨hasked, hsome, honly, hclear⟩ := h
    refine ⟨hasked, hsome, honly.step hquery move, .inr (hclear.resolve_left ?_)⟩
    rintro ⟨-, rfl⟩
    obtain ⟨e, hasks, -⟩ := Install.withdraw_asks hsome before
    rw [hasks] at move
    cases move
  | _ => exact ⟨h.1, h.2.step Effect.aside_query move⟩

/-- The balance after a step. -/
lemma Goes.balance {w w' : World} {p : Point} {st : Status} (h : Goes setup w p w' st)
    (hp : p.Balance setup l) : st.Balance setup ((Event.of? w p w' st).toList ++ l) := by
  have hnever (e : Effect) (a : Answer) : Event.of? w p w' st ≠ some (.performed e a) :=
    fun hlog => (h.tells hlog).ne_performed
  by_cases hend : ∃ g package, Event.of? w p w' st = some (.installed g package (.ok .single))
  · obtain ⟨g, package, hlog⟩ := hend
    obtain ⟨target, rfl, rfl⟩ := (h.tells hlog).eq_of_installed
    rw [hlog]
    exact hp.installed
  · have hsame : Echoes l ((Event.of? w p w' st).toList ++ l) :=
      Echoes.of_tells hnever fun g package hlog => hend ⟨g, package, hlog⟩
    replace hp := hp.echo hsame
    generalize hl : (Event.of? w p w' st).toList ++ l = l' at hp ⊢
    cases h with
    | request h =>
      cases h with
      | refused code => exact hp.returned
      | accepted known name free goes =>
        obtain ⟨-, rfl⟩ | rfl := goes
        · exact ⟨hp, .bootLayout⟩
        · exact hp
    | data h =>
      cases h with
      | failed code takes delivery kept =>
        exact iff_of_false hp.asked hp.cleared
      | finished takes delivery write final synced =>
        generalize ActiveUpdate.target _ = target
        cases target <;> exact hp
      | pushed takes delivery => exact hp
      | _ => exact hp.returned
    | cancel h => cases h <;> first | exact hp.returned | exact hp
    | reset h =>
      cases h with
      | refused decision unscheduled => exact hp.returned
      | begun done path =>
        generalize w.controller.outcome = outcome at path
        cases path with
        | refused => exact hp
        | swap same success mode => exact ⟨hp, StreamPreparation.swapActiveSystem_aside _⟩
        | plan same success mode => exact ⟨hp, .bootLayout⟩
    | bootLayout => exact ⟨hp, .bootLayout⟩
    | inside wraps h => exact hp.inside wraps h
    | chosenDual => exact ⟨hp.1, StreamPreparation.prepare_aside _⟩
    | chosen other => exact hp.1
    | prepared => exact hp.1
    | unprepared => exact hp.1
    | handed owner =>
      refine ⟨hp.cleared, hp.noted, ?_⟩
      rw [show Asked l' = False from propext (iff_false_intro hp.asked)]
      exact Install.dispatch_tallies _ _
    | @installDone g target package result =>
      obtain ⟨hcleared, hnoted, htallies⟩ := hp
      obtain ⟨hasked, hsome⟩ := htallies.result
      refine ⟨hcleared, hasked, hsome, fun k path => iff_of_false (hnoted k path) ?_⟩
      rintro ⟨rfl, -⟩
      exact hend ⟨g, package, rfl⟩
    | kept =>
      obtain ⟨hcleared, hasked, hsome, hnoted⟩ := hp
      have ha := hasked.mpr rfl
      exact ⟨hcleared, ha, hsome ha, fun k path => (hnoted k path).trans (and_iff_right rfl)⟩
    | used other =>
      obtain ⟨hcleared, hasked, -, hnoted⟩ := hp
      exact ⟨fun ha => other (hasked.mp ha), hcleared,
        fun k path hi => other ((hnoted k path).mp hi).1⟩
    | @recorded g outcome result otherwise current =>
      cases otherwise with
      | refuse code => exact Blank.returned hp
      | withdraw package =>
        refine ⟨fun hc => absurd hc hp.1, fun _ => .inr ⟨g, outcome, ?_⟩⟩
        rw [← hl]
        simp [Event.of?, current]
    | givenUp lost => exact Blank.returned hp
    | takenBack lost =>
      obtain ⟨hcleared, hasked, hsome, -⟩ := hp
      exact ⟨hasked, hsome, Install.withdraw_never_requests _, .inl ⟨hcleared, rfl⟩⟩
    | withdrawn =>
      obtain ⟨hasked, hsome, -, hclear⟩ := hp
      refine iff_of_true hasked (hclear.resolve_left ?_)
      rintro ⟨-, hdone⟩
      obtain ⟨e, hasks, -⟩ := Install.withdraw_asks hsome w.shared
      rw [← hdone] at hasks
      cases hasks
    | removed => exact ⟨hp.mpr, fun ha => .inl (hp.mp ha)⟩
    | swapped => exact ⟨hp.1, .bootLayout⟩
    | notSwapped => exact hp.1
    | planned possible => exact hp.1
    | notPlanned impossible => exact hp.1
    | asked => exact hp.1.returned
    | settled | setupFailed | stopped | released | pushed | pushFailed | resetDone =>
      exact hp.returned
    | _ => exact hp

/-- The balance after an answer. -/
lemma Point.Balance.resume {w : World} {p : Point} {e : Effect} (h : p.Balance setup l)
    (asks : p.move setup w = .effect e) (a : Answer) :
    (p.resume a).Balance setup (.performed e a :: l) := by
  have haside (he : e.Aside) : Echoes l (.performed e a :: l) := .of_aside he a
  cases asks_of_move asks with
  | inside wraps hasks =>
    cases wraps with
    | installing =>
      obtain ⟨hcleared, hnoted, htallies⟩ := h
      have hkeeps := htallies.effect hasks
      refine ⟨?_, ?_, htallies.resume hasks asked_performed⟩
      · rw [cleared_performed]
        exact fun hc => hc.elim hcleared hkeeps
      · simpa [Noted] using hnoted
    | withdrawing =>
      obtain ⟨hasked, hsome, honly, hclear⟩ := h
      refine ⟨asked_performed.mpr (.inl hasked), hsome, honly.resume a,
        .inr (cleared_performed.mpr ?_)⟩
      rcases hclear with ⟨-, rfl⟩ | hold
      · obtain ⟨f, hf, hrevokes⟩ := Install.withdraw_asks hsome w.shared
        obtain rfl := Procedure.Move.effect.inj (hf.symm.trans hasks)
        exact .inr hrevokes
      · exact .inl hold
    | _ => exact ⟨h.1.echo (haside (h.2.effect hasks)), h.2.resume a⟩
  | starting =>
    have hblank := Blank.echo h (haside (by simp [Effect.Aside, Effect.Requests, Effect.Revokes]))
    cases a <;> exact hblank
  | stopping | pushing | scheduling =>
    exact Blank.echo h (haside (by simp [Effect.Aside, Effect.Requests, Effect.Revokes]))

end Balance

/-- The history of every call balances. -/
def Balanced (setup : Setup) (s : System σ) : Prop :=
  s.Each fun i _ st => st.Balance setup (s.told i)

theorem Balanced.step (h : Balanced setup s) (made : s.Made) (step : Step setup around s t) :
    Balanced setup t := by
  refine System.Each.step h step ?_ ?_ ?_ ?_ ?_
  · intro i call st _ _ told hp
    rwa [told]
  · rintro call rfl
    have hnone (e : Event) : e ∉ (s.start call).told s.threads.length := fun he =>
      absurd (made _ _ (mem_told.mp he)) (Nat.lt_irrefl _)
    exact ⟨fun ⟨e, a, he, _⟩ => hnone _ he, fun ⟨e, a, he, _⟩ => hnone _ he,
      fun g package he => hnone _ he⟩
  · rintro i call p w st here goes rfl hp
    rw [told_moved, if_pos rfl]
    exact goes.balance hp
  · rintro i call p e a device files here asks gets rfl hp
    rw [told_answered, if_pos rfl]
    exact Point.Balance.resume hp asks a
  · rintro i call p here rfl hp
    cases p <;> exact hp

lemma balanced_fresh (w : World) (d : σ) : Balanced setup (System.fresh w d) :=
  System.each_fresh w d

end Session

end DeviceUpdate
