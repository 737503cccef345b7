import DeviceUpdate.Proofs.Session.Evidence
import DeviceUpdate.Proofs.Session.Lifecycle

/-!
# Late calls

A data call lets go of the controller before it pushes its chunk, so the push can fail after another
call has completed the update. Such a chunk ends the update a second time. As long as none does, a
data call changes the controller only for an update that is current and not completed, and a reset
takes back nothing but its own decision. If chunks come one after another none does.
-/

namespace DeviceUpdate.Session

variable {σ : Type} {setup : Setup} {around : Surroundings σ} {s t : System σ}

/-! ### What is a call's own -/

/-- The outcome of the update was recorded. -/
def System.Recorded (s : System σ) (g : Nat) : Prop := ∃ o, s.Logged (.recorded g o)

/-- The update that a data call works for. One that has done nothing yet works for the current
one. -/
def Point.update? (current : Nat) : Point → Option Nat
  | .entry _ => some current
  | .pushing g _ _ _ _ | .pushFailed g _ | .judging g _ _ _ | .assembling g _ _
  | .removingManifest g _ _ _ | .checking g _ _ | .dropping g _ _ | .installing g _ _ _
  | .installed g _ _ _ | .concluding g _ _ _ => some g
  | _ => none

/-- A data call changes the controller, and does not work for the current update or comes after
its outcome was recorded. -/
def System.Intrudes (setup : Setup) (s t : System σ) : Prop :=
  ∃ i call p, s.Moves setup t i call p ∧ call.sends ∧
    t.world.controller ≠ s.world.controller ∧
      ∀ g, p.update? s.world.controller.generation = some g →
        s.world.controller.generation = g → s.Recorded g

/-- The reset that decides, or that was the last to. -/
def System.decider? (s : System σ) : Option Nat :=
  s.history.findSome? fun
    | (i, .consumed _ _) => some i
    | _ => none

/-- A reset ends by replacing something else than the decision that it set. -/
def System.Overwrites (setup : Setup) (s t : System σ) : Prop :=
  ∃ i call scheduled, s.Moves setup t i call (.resetting scheduled) ∧
    ¬ (s.world.controller.state = .resetDecision ∧ s.decider? = some i)

/-- A chunk that failed ends the current update after its outcome was recorded. -/
def System.Relapses (setup : Setup) (s t : System σ) : Prop :=
  ∃ i call g code, s.Moves setup t i call (.pushFailed g code) ∧
    t.world.controller ≠ s.world.controller ∧ s.world.controller.generation = g ∧ s.Recorded g

/-! ### What is told of an update that is over -/

/-- The call carries this update to its end. -/
def Role.Carries (g : Nat) : Role → Prop
  | .stream g' | .staged g' _ => g' = g
  | _ => False

lemma Role.carries_ofOutcome (g : Nat) (mode : DeliveryMode) : (ofOutcome g mode).Carries g := by
  cases mode <;> rfl

/-- One call at most carries an update to its end. -/
lemma Owned.carries_unique {c : Controller} {role : Nat → Role} (h : Owned c role) {i j g : Nat}
    (hi : (role i).Carries g) (hj : (role j).Carries g) : i = j := by
  by_contra hne
  have hclash := h.apart i j hne
  have hfitsi := h.fits i
  have hfitsj := h.fits j
  cases hri : role i <;> rw [hri] at hi hclash hfitsi <;> cases hi <;>
    cases hrj : role j <;> rw [hrj] at hj hclash hfitsj <;> cases hj
  all_goals
    grind [Role.Clashes, Role.Fits, Stage.covers, Controller.inMode_unique, cases Stage]

/-- A call that carries an update to its end after a step did so before, or has just brought the
final chunk. -/
lemma Control.carries {c c' : Controller} {r r' : Role} (h : Control r c r' c') {g : Nat}
    (hr : r'.Carries g) : r.Carries g ∨ c.state.isOpen ∧ c.generation = g := by
  cases h with
  | stay => exact .inl hr
  | @receive number offset chunk last u v c open_ update target mode =>
    right
    refine ⟨open_, ?_⟩
    cases hm : u.delivery.mode <;> cases last <;> simp_all [Role.ofChunk, Role.Carries]
  | install owner => exact .inl hr
  | end_ => exact .inl hr
  | _ => exact hr.elim

/-- A call that resets after a step did so before, or just began to. -/
lemma Control.resets {c c' : Controller} {r r' : Role} (h : Control r c r' c') (hr : r' = .reset) :
    r = .reset ∨ ∃ number version, r = .entering (.reset number version) := by
  cases h with
  | stay => exact .inl hr
  | @receive number offset chunk last u v c open_ update target mode =>
    cases hm : u.delivery.mode <;> cases last <;> simp [Role.ofChunk, hm] at hr
  | resetBegin done => exact .inr ⟨_, _, rfl⟩
  | _ => cases hr

section Moved

variable {i : Nat} {call : Call} {p : Point} {w : World} {st : Status} {g : Nat}

/-- An outcome is recorded by the call that carries the update to its end, and completes it. -/
lemma Goes.records (h : Goes setup s.world p w st)
    (hg : (s.moved i call p w st).Recorded g) : s.Recorded g ∨
      p.role.Carries g ∧ w.controller.generation = g ∧ w.controller.state = .completed ∧
        st.role = .free := by
  obtain ⟨o, k, hk⟩ := hg
  rcases mem_moved.mp hk with ⟨-, hnew⟩ | hold
  · right
    cases h.tells hnew with
    | recorded current =>
      obtain ⟨hgeneration, heq⟩ := Controller.conclude_eq current
      refine ⟨Role.carries_ofOutcome _ _, ?_⟩
      rw [heq]
      exact ⟨hgeneration, rfl, rfl⟩
  · exact .inl ⟨o, k, hold⟩

/-- An update is completed when its outcome is recorded. -/
lemma Goes.completes (h : Goes setup s.world p w st) (i : Nat) (call : Call)
    (done : w.controller.state = .completed ∨ w.controller.state = .resetDecision) :
    (s.world.controller.state = .completed ∨ s.world.controller.state = .resetDecision) ∧
        w.controller.generation = s.world.controller.generation ∨
      (s.moved i call p w st).Recorded w.controller.generation := by
  have hrelease {g' : Nat} (hr : (s.world.controller.releaseIfCurrent g').state = .completed ∨
      (s.world.controller.releaseIfCurrent g').state = .resetDecision) :
      (s.world.controller.state = .completed ∨ s.world.controller.state = .resetDecision) ∧
        (s.world.controller.releaseIfCurrent g').generation = s.world.controller.generation := by
    grind [Controller.releaseIfCurrent, Controller.release]
  have hlost {g' : Nat} {outcome : UpdateOutcome}
      (lost : (s.world.controller.conclude g' outcome).1 = false)
      (hr : (s.world.controller.conclude g' outcome).2.state = .completed ∨
        (s.world.controller.conclude g' outcome).2.state = .resetDecision) :
      (s.world.controller.state = .completed ∨ s.world.controller.state = .resetDecision) ∧
        (s.world.controller.conclude g' outcome).2.generation = s.world.controller.generation := by
    obtain ⟨heq, -⟩ | ⟨-, heq⟩ := Controller.conclude_lost lost
    · rw [heq] at hr ⊢
      exact ⟨hr, rfl⟩
    · rw [heq] at hr
      simp [Controller.release] at hr
  cases h with
  | request h =>
    cases h with
    | refused code => exact .inl ⟨done, rfl⟩
    | accepted known name free goes => simp [Controller.startUpdate] at done
  | data h =>
    cases h with
    | refused code => exact .inl ⟨done, rfl⟩
    | failed code takes delivery kept => simp [Controller.release] at done
    | written takes delivery write more => simp at done
    | finished takes delivery write final synced => simp at done
    | @pushed u stream takes delivery =>
      dsimp only at done
      split at done <;> simp at done
  | cancel h =>
    cases h with
    | ignored => exact .inl ⟨done, rfl⟩
    | _ => simp at done
  | reset h =>
    cases h with
    | refused decision unscheduled => exact .inl ⟨done, rfl⟩
    | begun before path => exact .inl ⟨.inl before, rfl⟩
  | setupFailed => exact .inl (hrelease done)
  | released => exact .inl (hrelease done)
  | @pushFailed g' code =>
    left
    dsimp only at done ⊢
    split
    · rw [if_pos ‹_›] at done
      simp [Controller.release] at done
    · rw [if_neg ‹_›] at done
      exact ⟨done, rfl⟩
  | handed owner => simp at done
  | @recorded g' outcome result otherwise current =>
    obtain ⟨hgeneration, heq⟩ := Controller.conclude_eq current
    refine .inr ⟨outcome, i, mem_moved.mpr (.inl ⟨rfl, ?_⟩)⟩
    simp [Event.of?, current, heq, hgeneration]
  | givenUp lost => exact .inl (hlost lost done)
  | takenBack lost => exact .inl (hlost lost done)
  | @resetDone scheduled => cases scheduled <;> simp at done
  | _ => exact .inl ⟨done, rfl⟩

lemma decider_moved : (s.moved i call p w st).decider? =
    match Event.of? s.world p w st with
    | some (.consumed _ _) => some i
    | _ => s.decider? := by
  unfold System.decider? System.moved
  cases Event.of? s.world p w st with
  | none => rfl
  | some e => cases e <;> rfl

/-- A reset begins to decide if an update is completed. No other step changes who was the last to
decide. -/
lemma Goes.decides (h : Goes setup s.world p w st) (i : Nat) (call : Call) :
    (s.moved i call p w st).decider? = s.decider? ∧ (st.role = .reset → p.role = .reset) ∨
      (s.moved i call p w st).decider? = some i ∧ s.world.controller.state = .completed := by
  rw [decider_moved]
  by_cases hconsumed : ∃ g o, Event.of? s.world p w st = some (.consumed g o)
  · obtain ⟨g, o, hlog⟩ := hconsumed
    right
    rw [hlog]
    cases h.tells hlog with
    | consumed reset =>
      cases reset with
      | begun done path => exact ⟨rfl, done⟩
  · left
    refine ⟨?_, fun hrole => ?_⟩
    · split
      · exact absurd ⟨_, _, ‹_›⟩ hconsumed
      · rfl
    · refine (h.control.resets hrole).resolve_right ?_
      rintro ⟨number, version, hentering⟩
      have hp : p = .entry (.reset number version) := by
        simpa using entry_of_entering hentering
      cases h with
      | reset reset =>
        cases reset with
        | refused decision unscheduled => cases hrole
        | begun done path => exact hconsumed ⟨_, _, rfl⟩
      | inside wraps => cases wraps <;> cases hp
      | _ => cases hp

end Moved

/-! ### Without relapses -/

/-- An update whose outcome was recorded is over, and the one that is completed has an outcome. No
call works on after the outcome but to push, and none resets but the one that decides. -/
structure Punctual (s : System σ) : Prop where
  owned : Owned s.world.controller s.role
  serving : s.Serving
  known : ∀ g, s.Recorded g → g ≤ s.world.controller.generation
  ended : s.Recorded s.world.controller.generation → ¬ s.world.controller.state.isBusy
  completed : s.world.controller.state = .completed ∨ s.world.controller.state = .resetDecision →
    s.Recorded s.world.controller.generation
  working : s.All fun _ _ p => ∀ g, p.role.Carries g → ¬ s.Recorded g
  deciding : s.All fun i _ p => p.role = .reset → s.decider? = some i

lemma punctual_fresh (w : World) (d : σ) (hw : w.controller = {}) :
    Punctual (System.fresh w d) := by
  have hnone (g : Nat) : ¬ (System.fresh w d).Recorded g := by
    rintro ⟨o, i, hi⟩
    cases hi
  refine ⟨(orderly_fresh w d).owned, System.all_fresh w d, fun g hg => absurd hg (hnone g),
    fun hg => absurd hg (hnone _), ?_, System.all_fresh w d, System.all_fresh w d⟩
  rw [show (System.fresh w d).world.controller = {} from hw]
  simp

lemma Quiet.recorded (h : Quiet around s t) {g : Nat} (hg : t.Recorded g) : s.Recorded g := by
  obtain ⟨o, hlogged⟩ := hg
  exact ⟨o, h.logged hlogged (by simp)⟩

lemma Quiet.decider_eq (h : Quiet around s t) : t.decider? = s.decider? := by
  unfold System.decider?
  rcases h.history with hsame | ⟨i, f, a, hnew⟩
  · rw [hsame]
  · rw [hnew]
    rfl

lemma Role.not_disturbs_ofOutcome {c : Controller} (g : Nat) (mode : DeliveryMode) :
    ¬ (ofOutcome g mode).Disturbs c := by
  cases mode <;> exact id

/-- A call that disturbs the current update brought a chunk that failed. -/
lemma Goes.failed_of_disturbs {p : Point} {w w' : World} {st : Status} (h : Goes setup w p w' st)
    (changes : w'.controller ≠ w.controller) (disturbs : p.role.Disturbs w.controller) :
    ∃ g code, p = .pushFailed g code ∧ w.controller.generation = g ∧
      w.controller.state = .resetDecision := by
  cases h with
  | @pushFailed g code =>
    obtain ⟨howns, hstate⟩ := disturbs
    exact ⟨g, code, rfl, (Controller.owns_iff.mp howns).1, hstate⟩
  | recorded current => exact absurd disturbs (Role.not_disturbs_ofOutcome _ _)
  | givenUp lost => exact absurd disturbs (Role.not_disturbs_ofOutcome _ _)
  | takenBack lost => exact absurd disturbs (Role.not_disturbs_ofOutcome _ _)
  | _ => first | exact absurd rfl changes | exact disturbs.elim

namespace Punctual

variable {i : Nat} {call : Call} {p : Point}

/-- While the current update takes chunks, its outcome was not recorded. -/
lemma not_recorded (h : Punctual s) (open_ : s.world.controller.state.isOpen) :
    ¬ s.Recorded s.world.controller.generation :=
  fun hg => h.ended hg (.inl open_)

lemma step_owned (h : Punctual s) (step : Step setup around s t) (calm : ¬ s.Relapses setup t) :
    Owned t.world.controller t.role := by
  refine step.owned h.owned ?_
  rintro i call p ⟨here, w, st, hmove, rfl⟩ hchanges hdisturbs
  obtain ⟨g, code, rfl, rfl, hstate⟩ := (goes_of_move hmove).failed_of_disturbs hchanges hdisturbs
  exact calm ⟨i, call, _, code, ⟨here, w, st, hmove, rfl⟩, hchanges, rfl,
    h.completed (.inr hstate)⟩

lemma step_known (h : Punctual s) (step : Step setup around s t) (g : Nat) (hg : t.Recorded g) :
    g ≤ t.world.controller.generation := by
  obtain hquiet | ⟨i, call, p, w, st, here, goes, rfl⟩ := step.quiet_or_goes
  · rw [hquiet.controller]
    exact h.known g (hquiet.recorded hg)
  · show g ≤ w.controller.generation
    rcases goes.records hg with hold | ⟨-, hgeneration, -⟩
    · have hle := h.known g hold
      rcases goes.control.generation_cases with hsame | hnext <;> omega
    · exact Nat.le_of_eq hgeneration.symm

lemma step_ended (h : Punctual s) (step : Step setup around s t)
    (hg : t.Recorded t.world.controller.generation) : ¬ t.world.controller.state.isBusy := by
  obtain hquiet | ⟨i, call, p, w, st, here, goes, rfl⟩ := step.quiet_or_goes
  · rw [hquiet.controller] at hg ⊢
    exact h.ended (hquiet.recorded hg)
  · intro hbusy
    have hbusy : w.controller.state.isBusy := hbusy
    rcases goes.records hg with hold | ⟨-, -, hstate, -⟩
    · have hle : w.controller.generation ≤ s.world.controller.generation := h.known _ hold
      rcases goes.control.busy (h.owned.fits_here here) hbusy with hbefore | ⟨-, hnext⟩
      · rcases goes.control.generation_cases with hsame | hnext
        · exact h.ended (hsame ▸ hold) hbefore
        · omega
      · omega
    · simp [hstate, SessionState.isBusy, SessionState.isOpen, SessionState.isLate] at hbusy

lemma step_completed (h : Punctual s) (step : Step setup around s t)
    (done : t.world.controller.state = .completed ∨ t.world.controller.state = .resetDecision) :
    t.Recorded t.world.controller.generation := by
  have hkeeps {g : Nat} (hg : s.Recorded g) : t.Recorded g := by
    obtain ⟨o, hlogged⟩ := hg
    exact ⟨o, step.extends.logged hlogged⟩
  obtain hquiet | ⟨i, call, p, w, st, here, goes, rfl⟩ := step.quiet_or_goes
  · rw [hquiet.controller] at done ⊢
    exact hkeeps (h.completed done)
  · rcases goes.completes i call done with ⟨hbefore, hsame⟩ | hnow
    · have hg := hkeeps (h.completed hbefore)
      rwa [← hsame] at hg
    · exact hnow

/-- A call that carries an update to its end is the only one that records its outcome. -/
lemma step_working (h : Punctual s) (step : Step setup around s t) :
    t.All fun _ _ p => ∀ g, p.role.Carries g → ¬ t.Recorded g := by
  refine h.working.step step ?_ (fun _ _ _ hcarries => hcarries.elim) ?_ ?_ ?_
  · intro i call p here beside hp g hcarries hg
    cases beside with
    | quiet hquiet => exact hp g hcarries (hquiet.recorded hg)
    | @other j call' q w st ne there goes =>
      rcases goes.records hg with hold | ⟨hother, -⟩
      · exact hp g hcarries hold
      · refine ne (h.owned.carries_unique (g := g) ?_ ?_)
        · rwa [role_of_getElem? there]
        · rwa [role_of_getElem? here]
  · rintro i call p w p' - goes rfl hp g hcarries hg
    have hnot : ¬ s.Recorded g := by
      rcases goes.control.carries hcarries with hbefore | ⟨hopen, rfl⟩
      · exact hp g hbefore
      · exact h.not_recorded hopen
    rcases goes.records hg with hold | ⟨-, -, -, hfree⟩
    · exact hnot hold
    · rw [show p'.role = .free from hfree] at hcarries
      exact hcarries
  · intro i call p a hp
    simpa using hp
  · intro i call p hp
    simpa using hp

lemma step_deciding (h : Punctual s) (step : Step setup around s t) :
    t.All fun i _ p => p.role = .reset → t.decider? = some i := by
  refine h.deciding.step step ?_ (fun _ _ hrole => by cases hrole) ?_ ?_ ?_
  · intro i call p here beside hp hrole
    cases beside with
    | quiet hquiet => rw [hquiet.decider_eq, hp hrole]
    | @other j call' q w st ne there goes =>
      rcases goes.decides j call' with ⟨hsame, -⟩ | ⟨-, hstate⟩
      · rw [hsame, hp hrole]
      · have hfits := h.owned.fits_here here
        rw [hrole] at hfits
        exact absurd (hstate.symm.trans hfits) (by decide)
  · rintro i call p w p' - goes rfl hp hrole
    rcases goes.decides i call with ⟨hsame, hback⟩ | ⟨hnew, -⟩
    · rw [hsame, hp (hback hrole)]
    · exact hnew
  · intro i call p a hp
    simpa using hp
  · intro i call p hp
    simpa using hp

/-- Every step but a relapse keeps calls punctual. -/
theorem step (h : Punctual s) (step : Step setup around s t) (calm : ¬ s.Relapses setup t) :
    Punctual t where
  owned := h.step_owned step calm
  serving := step.serving h.serving
  known := h.step_known step
  ended := h.step_ended step
  completed := h.step_completed step
  working := h.step_working step
  deciding := h.step_deciding step

/-- A data call that changes the controller works for the current update, before its outcome. -/
lemma not_intrudes (h : Punctual s) (calm : ¬ s.Relapses setup t) : ¬ s.Intrudes setup t := by
  rintro ⟨i, call, p, ⟨here, w, st, hmove, rfl⟩, hsends, hchanges, hlate⟩
  have hserves := h.serving i call p here
  have hfits := h.owned.fits_here here
  have hworking := h.working i call p here
  have hopen (open_ : s.world.controller.state.isOpen)
      (hp : p.update? s.world.controller.generation = some s.world.controller.generation) : False :=
    h.not_recorded open_ (hlate _ hp rfl)
  have hconclude {g : Nat} {outcome : UpdateOutcome} {result : Except DataCode Unit}
      {otherwise : Otherwise} (hp : p = .concluding g outcome result otherwise)
      (hw : w.controller = (s.world.controller.conclude g outcome).2) : False := by
    subst hp
    obtain ⟨-, heq⟩ | ⟨hg, -⟩ | ⟨hg, -⟩ := s.world.controller.conclude_cases g outcome
    · exact hchanges (by rw [heq] at hw; exact hw)
    · exact hworking g (Role.carries_ofOutcome _ _) (hlate g rfl hg)
    · exact hworking g (Role.carries_ofOutcome _ _) (hlate g rfl hg)
  cases goes_of_move hmove with
  | data data =>
    cases data with
    | refused code => exact hchanges rfl
    | failed code takes => exact hopen takes.open_ rfl
    | written takes => exact hopen takes.open_ rfl
    | finished takes => exact hopen takes.open_ rfl
    | pushed takes => exact hopen takes.open_ rfl
  | @pushFailed g code =>
    by_cases howns : s.world.controller.owns g
    · have hg := (Controller.owns_iff.mp howns).1
      exact calm ⟨i, call, g, code, ⟨here, _, _, hmove, rfl⟩, hchanges, hg, hlate g rfl hg⟩
    · exact hchanges (if_neg howns)
  | @handed g target package owner => exact hworking g rfl (hlate g rfl hfits.1)
  | recorded => exact hconclude rfl rfl
  | givenUp => exact hconclude rfl rfl
  | takenBack => exact hconclude rfl rfl
  | request | cancel | reset | setupFailed | settled | released | resetDone =>
    cases call <;> simp_all [Point.Serves, Call.sends, Call.isRequest, Call.isCancel, Call.isReset]
  | _ => exact hchanges rfl

/-- A reset that is about to end has set the decision that it replaces. -/
lemma not_overwrites (h : Punctual s) : ¬ s.Overwrites setup t := by
  rintro ⟨i, call, scheduled, ⟨here, -⟩, hother⟩
  exact hother ⟨h.owned.fits_here here, h.deciding i call _ here rfl⟩

/-- If chunks come one after another, a chunk that fails finds its update under way, or given up. -/
lemma not_relapses (h : Punctual s) (orderly : Orderly s)
    (consistent : s.world.controller.Consistent) : ¬ s.Relapses setup t := by
  rintro ⟨i, call, g, code, ⟨here, w, st, hmove, rfl⟩, hchanges, rfl, hrecorded⟩
  have hsettled := orderly.settled i
  rw [role_of_getElem? here] at hsettled
  have hbusy := h.ended hrecorded
  obtain ⟨rfl, rfl⟩ := by simpa [Point.move] using hmove
  rcases hsettled rfl with hstate | hstate | hstate
  · exact hbusy (.inl (.inr hstate))
  · exact hbusy (.inr (.inr hstate))
  · refine hchanges ?_
    have hinactive := consistent.inactive (by simp [Controller.accepts, hstate])
    show (if _ then s.world.controller.release else s.world.controller) = s.world.controller
    rw [Controller.release_eq hstate hinactive, ite_self]

end Punctual

section

variable {files : FileSystem} {layout : Option BootLayout} {w : World} {d : σ}

/-- As long as no chunk that failed ends an update again, calls are punctual. -/
lemma punctual_of_run (built : setup.build files layout = .ok w)
    (run : Run setup around (System.fresh w d) s)
    (keeps : ∀ u v, Run setup around (System.fresh w d) u → Step setup around u v →
      Run setup around v s → ¬ u.Relapses setup v) : Punctual s :=
  keeps_unless run (punctual_fresh w d (build_controller built)) keeps
    fun hu step hcalm => hu.step step hcalm

/-- If chunks come one after another, calls are punctual. -/
lemma punctual_of_oneSender (built : setup.build files layout = .ok w) (one : around.OneSender)
    (run : Run setup around (System.fresh w d) s) :
    Punctual s ∧ Orderly s ∧ s.world.controller.Consistent := by
  have hw := build_controller built
  refine run.keeps (P := fun u => Punctual u ∧ Orderly u ∧ u.world.controller.Consistent)
    ⟨punctual_fresh w d hw, orderly_fresh w d, consistent_fresh d hw⟩ fun {u v} hu hstep => ?_
  obtain ⟨hpunctual, horderly, hconsistent⟩ := hu
  exact ⟨hpunctual.step hstep (hpunctual.not_relapses horderly hconsistent),
    horderly.step one hstep, hstep.consistent horderly hconsistent⟩

/-- A relapse is a change by a data call that comes too late. -/
lemma System.Relapses.intrudes (h : s.Relapses setup t) (serving : s.Serving) :
    s.Intrudes setup t := by
  obtain ⟨i, call, g, code, hmoves, hchanges, hg, hrecorded⟩ := h
  refine ⟨i, call, _, hmoves, ?_, hchanges, fun g' hg' _ => ?_⟩
  · have hserves := serving i call _ hmoves.1
    cases call <;> simp_all [Point.Serves, Call.last?, Call.sends]
  · obtain rfl : g = g' := Option.some.inj hg'
    exact hrecorded

/-- In every run, whatever overlaps, chunks of one update included: every data call that changes the
controller does so while its update is current and before the outcome of that update was recorded,
and every reset ends by replacing the decision that it set, in exactly those runs in which no chunk
that failed ends the current update after its outcome was recorded. If chunks come one after
another, no chunk ever does. -/
theorem late_calls_keep_off_iff (built : setup.build files layout = .ok w) :
    ((∀ u v, Run setup around (System.fresh w d) u → Step setup around u v →
        Run setup around v s → ¬ u.Intrudes setup v ∧ ¬ u.Overwrites setup v) ↔
      ∀ u v, Run setup around (System.fresh w d) u → Step setup around u v →
        Run setup around v s → ¬ u.Relapses setup v) ∧
    (around.OneSender → ∀ u v, Run setup around (System.fresh w d) u → Step setup around u v →
      ¬ u.Relapses setup v) := by
  refine ⟨⟨fun hown u v hu step hv hrelapses => ?_, fun hcalm u v hu step hv => ?_⟩, ?_⟩
  · exact (hown u v hu step hv).1 (hrelapses.intrudes hu.serving)
  · have hpunctual := punctual_of_run built hu fun a b ha hstep hb =>
      hcalm a b ha hstep ((hb.tail step).trans hv)
    exact ⟨hpunctual.not_intrudes (hcalm u v hu step hv), hpunctual.not_overwrites⟩
  · intro one u v hu step
    obtain ⟨hpunctual, horderly, hconsistent⟩ := punctual_of_oneSender built one hu
    exact hpunctual.not_relapses horderly hconsistent

end

namespace Small

abbrev FreeRun : System Unit → System Unit → Prop := Run streamSetup (.free streamAnswers)

def streamFreely? (s : System Unit) (choices : List Choice) : Option (System Unit) :=
  s.replay? streamSetup (fun _ _ => true) streamAnswers choices

/-- Two chunks are accepted, the engine fails, the final chunk completes the update, and a reset is
about to end when the other chunk is pushed and fails. -/
def lateChunk : List Choice :=
  streamRequested ++ [.start (.data 0 0 [7] false), .go 1, .start (.data 0 1 [8] true), .go 2,
    .go 2, .engine 0 (.signal .failure), .go 2, .go 2, .go 2, .go 1,
    .start (.reset 0 ⟨1, 0, 0, 0⟩), .go 3]

def beforeRelapse : System Unit := (streamFreely? (fresh .dual) lateChunk).getD (fresh .dual)

def afterRelapse : System Unit :=
  (beforeRelapse.go? streamSetup streamAnswers 1).getD (fresh .dual)

/-- The next request comes in and is accepted. -/
def nextAccepted : System Unit :=
  (streamFreely? afterRelapse [.start (.request 0 "image.swu" 2), .go 4]).getD (fresh .dual)

def afterReset : System Unit :=
  (nextAccepted.go? streamSetup streamAnswers 3).getD (fresh .dual)

lemma run_beforeRelapse : FreeRun (fresh .dual) beforeRelapse :=
  run_of_replay (allows_free streamAnswers)
    (rfl : streamFreely? (fresh .dual) lateChunk = some beforeRelapse)

lemma step_afterRelapse : Step streamSetup (.free streamAnswers) beforeRelapse afterRelapse :=
  step_of_go (allows_free streamAnswers).answers
    (rfl : beforeRelapse.go? streamSetup streamAnswers 1 = some afterRelapse)

lemma run_nextAccepted : FreeRun afterRelapse nextAccepted :=
  run_of_replay (allows_free streamAnswers)
    (rfl : streamFreely? afterRelapse [.start (.request 0 "image.swu" 2), .go 4] =
      some nextAccepted)

lemma relapses : beforeRelapse.Relapses streamSetup afterRelapse := by
  refine ⟨1, .data 0 0 [7] false, 1, _, ⟨rfl, _, _, rfl, rfl⟩, fun hsame => ?_, rfl,
    ⟨.system, .streaming, false⟩, 2, ?_⟩
  · exact absurd (show SessionState.idle = .resetDecision from congrArg Controller.state hsame)
      (by decide)
  · exact List.mem_of_getElem? (i := 1) rfl

end Small

theorem failed_chunk_is_the_intruder :
    ¬ (∀ u v, Small.FreeRun (Small.fresh .dual) u →
        Step Small.streamSetup (.free Small.streamAnswers) u v →
          Small.FreeRun v Small.afterRelapse →
            ¬ u.Intrudes Small.streamSetup v ∧ ¬ u.Overwrites Small.streamSetup v) ∧
      ∀ u v, Run Small.streamSetup (.oneSender Small.streamAnswers) (Small.fresh .dual) u →
        Step Small.streamSetup (.oneSender Small.streamAnswers) u v →
          ¬ u.Intrudes Small.streamSetup v ∧ ¬ u.Overwrites Small.streamSetup v := by
  have hbuilt : Small.streamSetup.build Small.files (some .dual) = .ok (Small.world .dual) := rfl
  refine ⟨fun hown => ?_, fun u v hu step => ?_⟩
  · obtain ⟨hiff, -⟩ := @late_calls_keep_off_iff Unit Small.streamSetup
      (.free Small.streamAnswers) Small.afterRelapse _ _ _ () hbuilt
    exact hiff.mp hown _ _ Small.run_beforeRelapse Small.step_afterRelapse .refl Small.relapses
  · obtain ⟨hiff, hone⟩ := @late_calls_keep_off_iff Unit Small.streamSetup
      (.oneSender Small.streamAnswers) v _ _ _ () hbuilt
    exact hiff.mpr (fun a b ha hab _ => hone (oneSender_oneSender _) a b ha hab) u v hu step .refl

/-- A late chunk takes the decision of a reset away, the next request is accepted, and the end of
the reset overwrites it. -/
theorem reset_overwrites_next_request :
    Small.FreeRun (Small.fresh .dual) Small.beforeRelapse ∧
      Step Small.streamSetup (.free Small.streamAnswers) Small.beforeRelapse Small.afterRelapse ∧
      Small.beforeRelapse.Recorded Small.beforeRelapse.world.controller.generation ∧
      Small.beforeRelapse.Intrudes Small.streamSetup Small.afterRelapse ∧
      Small.beforeRelapse.world.controller.state = .resetDecision ∧
      Small.afterRelapse.world.controller.state = .idle ∧
      Small.FreeRun Small.afterRelapse Small.nextAccepted ∧
      Small.nextAccepted.world.controller.state = .requested ∧
      Step Small.streamSetup (.free Small.streamAnswers) Small.nextAccepted Small.afterReset ∧
      Small.nextAccepted.Overwrites Small.streamSetup Small.afterReset ∧
      Small.afterReset.world.controller.state = .idle := by
  have hintrudes := Small.relapses.intrudes Small.run_beforeRelapse.serving
  obtain ⟨i, call, g, code, hmoves, -, rfl, hrecorded⟩ := Small.relapses
  refine ⟨Small.run_beforeRelapse, Small.step_afterRelapse, hrecorded, hintrudes, rfl, rfl,
    Small.run_nextAccepted, rfl, ?_, ?_, rfl⟩
  · exact step_of_go (allows_free Small.streamAnswers).answers
      (rfl : Small.nextAccepted.go? Small.streamSetup Small.streamAnswers 3 =
        some Small.afterReset)
  · refine ⟨3, .reset 0 ⟨1, 0, 0, 0⟩, false, ⟨rfl, _, _, rfl, rfl⟩, fun hown => ?_⟩
    exact absurd (show SessionState.requested = .resetDecision from hown.1) (by decide)

end DeviceUpdate.Session
