import DeviceUpdate.Proofs.Procedure
import DeviceUpdate.Proofs.Session.Moves

/-!
# What calls ask for

The procedures within a call are left-overs of the few that a call begins. So only a reset that has
a plan asks for a restart, and only a request that prepared a stream starts an engine.
-/

namespace DeviceUpdate.Session

variable {σ : Type} {setup : Setup} {around : Surroundings σ} {s t : System σ}

/-- The procedure at this point has this property; `other` is for points without one. -/
def Point.Carries (P : ∀ ⦃α : Type⦄, Procedure α → Prop) (other : Prop) : Point → Prop
  | .choosing _ _ _ _ rest => P rest
  | .preparing _ _ rest => P rest
  | .installing _ _ _ rest => P rest
  | .withdrawing _ rest => P rest
  | .swapping rest => P rest
  | .planning rest => P rest
  | .asking rest => P rest
  | _ => other

def Status.Carries (P : ∀ ⦃α : Type⦄, Procedure α → Prop) (other : Prop) : Status → Prop
  | .running p => p.Carries P other
  | .returned _ => other

/-- The procedures that calls begin have this property. -/
structure Begun (setup : Setup) (P : ∀ ⦃α : Type⦄, Procedure α → Prop) : Prop where
  layout : P Procedure.bootLayout
  prepare : P (StreamPreparation.ofConfig setup.config).prepare
  dispatch : ∀ package, P (Install.dispatch setup.recovery package)
  withdraw : P (Install.withdraw setup.recovery)
  swap : P (StreamPreparation.ofConfig setup.config).swapActiveSystem

section Carries

variable {P : ∀ ⦃α : Type⦄, Procedure α → Prop} {other : Prop}

lemma Wraps.carries {α : Type} {wrap : Procedure α → Point} (wraps : Wraps wrap)
    (rest : Procedure α) : (wrap rest).Carries P other ↔ P rest := by
  cases wraps <;> rfl

/-- A call goes on within its procedure, or is at the beginning of one, if at any. -/
inductive Within (P : ∀ ⦃α : Type⦄, Procedure α → Prop) (w : World) :
    Point → World → Status → Prop
  | inside {α : Type} {wrap : Procedure α → Point} {rest rest' : Procedure α} {shared : Shared}
      (wraps : Wraps wrap) (h : rest.move w.shared = .step shared rest') :
      Within P w (wrap rest) { w with shared } (.running (wrap rest'))
  | begins {p : Point} {w' : World} {st : Status}
      (same : w'.shared.classifier = w.shared.classifier) (carries : st.Carries P True) :
      Within P w p w' st

lemma Goes.within {w w' : World} {p : Point} {st : Status} (h : Goes setup w p w' st)
    (begun : Begun setup P) : Within P w p w' st := by
  cases h with
  | request h =>
    cases h with
    | refused code => exact .begins rfl trivial
    | accepted known name free goes =>
      obtain ⟨-, rfl⟩ | rfl := goes
      · exact .begins rfl begun.layout
      · exact .begins rfl trivial
  | data h =>
    cases h with
    | finished takes delivery write final synced =>
      generalize ActiveUpdate.target _ = target
      cases target <;> exact .begins rfl trivial
    | _ => exact .begins rfl trivial
  | cancel h => cases h <;> exact .begins rfl trivial
  | reset h =>
    cases h with
    | refused decision unscheduled => exact .begins rfl trivial
    | begun done path =>
      generalize w.controller.outcome = outcome at path
      cases path with
      | refused => exact .begins rfl trivial
      | swap same success mode => exact .begins rfl begun.swap
      | plan same success mode => exact .begins rfl begun.layout
  | bootLayout => exact .begins rfl begun.layout
  | inside wraps h => exact .inside wraps h
  | chosenDual => exact .begins rfl begun.prepare
  | handed owner => exact .begins rfl (begun.dispatch _)
  | takenBack lost => exact .begins rfl begun.withdraw
  | swapped => exact .begins rfl begun.layout
  | _ => exact .begins rfl trivial

lemma resume_carries {p : Point} (a : Answer)
    (resumes : ∀ (α : Type) (q : Procedure α), P q → P (q.resume a)) (h : p.Carries P True) :
    (p.resume a).Carries P True := by
  cases p with
  | starting g target stream request => cases a <;> trivial
  | scheduling plan => trivial
  | choosing | preparing | installing | withdrawing | swapping | planning | asking =>
    exact resumes _ _ h
  | _ => trivial

lemma wake_carries {p : Point} : p.wake.Carries P other ↔ p.Carries P other := by
  cases p <;> rfl

end Carries

/-- The procedure at this point, if there is one, has effects of the kind `P` only. -/
def Point.Only (P : Effect → Prop) : Point → Prop
  | .choosing _ _ _ _ rest => rest.Only P
  | .preparing _ _ rest => rest.Only P
  | .installing _ _ _ rest => rest.Only P
  | .withdrawing _ rest => rest.Only P
  | .swapping rest => rest.Only P
  | .planning rest => rest.Only P
  | .asking rest => rest.Only P
  | _ => True

def Status.Only (P : Effect → Prop) : Status → Prop
  | .running p => p.Only P
  | .returned _ => True

lemma Point.only_iff {P : Effect → Prop} {p : Point} :
    p.Only P ↔ p.Carries (fun _ q => q.Only P) True := by
  cases p <;> rfl

lemma begun_stays : Begun setup fun _ q => q.Only Effect.Stays :=
  ⟨.bootLayout, StreamPreparation.prepare_stays _, fun _ => Install.dispatch_stays _ _,
    Install.withdraw_stays _, StreamPreparation.swapActiveSystem_stays _⟩

lemma Goes.stays {w w' : World} {p : Point} {st : Status} (h : Goes setup w p w' st)
    (hp : p.Only Effect.Stays) : st.Only Effect.Stays := by
  have hquery (timeout : Duration) : Effect.Stays (.run (BootLayout.query timeout)) := by
    simp [Effect.Stays]
  cases h.within begun_stays with
  | inside wraps hmove =>
    exact Point.only_iff.mpr ((wraps.carries _).mpr
      (((wraps.carries _).mp (Point.only_iff.mp hp)).step hquery hmove))
  | begins same carries =>
    cases st with
    | running q => exact Point.only_iff.mpr carries
    | returned r => trivial

/-- No procedure within a call restarts the device or starts an engine. -/
def System.Stays (s : System σ) : Prop := s.All fun _ _ p => p.Only Effect.Stays

lemma resume_stays {p : Point} (a : Answer) (h : p.Only Effect.Stays) :
    (p.resume a).Only Effect.Stays :=
  Point.only_iff.mpr (resume_carries a (fun _ _ hq => hq.resume a) (Point.only_iff.mp h))

lemma wake_stays {p : Point} (h : p.Only Effect.Stays) : p.wake.Only Effect.Stays := by
  cases p <;> exact h

lemma Step.stays (step : Step setup around s t) (h : s.Stays) : t.Stays :=
  h.step step (fun _ _ _ _ _ hp => hp) (fun _ _ => trivial)
    (fun _ _ _ _ _ _ goes _ hp => goes.stays hp)
    (fun _ _ _ a hp => resume_stays a hp) (fun _ _ _ hp => wake_stays hp)

/-- A call that asks for a restart has a plan for it. -/
lemma Asks.scheduling_of_restart {w : World} {p : Point} {plan : RebootPlan}
    (asks : Asks w p (.restart plan)) (h : p.Only Effect.Stays) : p = .scheduling plan := by
  generalize he : Effect.restart plan = e at asks
  cases asks with
  | inside wraps hasks =>
    subst he
    cases wraps <;> exact absurd rfl ((Procedure.Only.effect h hasks).1 plan)
  | scheduling =>
    cases he
    rfl
  | _ => cases he

/-- A call that starts an engine has a stream for it. -/
lemma Asks.starting_of_startEngine {w : World} {p : Point} {n : Nat} {request : StreamRequest}
    (asks : Asks w p (.startEngine n request)) (h : p.Only Effect.Stays) :
    ∃ g target, p = .starting g target n request := by
  generalize he : Effect.startEngine n request = e at asks
  cases asks with
  | inside wraps hasks =>
    subst he
    cases wraps <;> exact absurd rfl ((Procedure.Only.effect h hasks).2 n request)
  | starting =>
    cases he
    exact ⟨_, _, rfl⟩
  | _ => cases he

end DeviceUpdate.Session
