import DeviceUpdate.Proofs.Session.Exclusive
import DeviceUpdate.Proofs.Session.Files
import DeviceUpdate.Proofs.Session.Grounds
import DeviceUpdate.Proofs.Session.Layout
import DeviceUpdate.Proofs.Session.Lifecycle
import DeviceUpdate.Proofs.Session.Reboot

/-!
# An update without neighbours

A call works for one update only, whatever else goes on. If a request is accepted while no call of
an update before has more to do than to turn to its own stream, then its update has the controller
to itself until the next request is accepted: all other calls that are under way work for it, or
have not touched the controller.
-/

namespace DeviceUpdate

/-- The update cannot go on without a call: it is being set up, brought to its end or undone. -/
def Controller.Leans (c : Controller) : Prop :=
  c.state.isOpen ∧ c.active = none ∨ c.state.isLate ∨ c.state = .cancelled

namespace Session

variable {σ : Type} {setup : Setup} {around : Surroundings σ} {s t : System σ}

/-! ### Which update a call works for -/

/-- A call that turns to the controller begins to work for the update that is current then. -/
lemma Goes.begins {w w' : World} {p p' : Point} {call : Call}
    (h : Goes setup w p w' (.running p')) (role : p.role = .entering call) :
    (∃ call', p'.role = .entering call') ∨ ∃ e, Event.of? w p w' (.running p') = some e ∧
      e.generation? = some w'.controller.generation := by
  generalize hst : Status.running p' = st at h ⊢
  cases h with
  | @request number size file v st h =>
    cases h with
    | refused code => cases hst
    | @accepted target q known name free goes =>
      exact .inr ⟨.accepted (w.controller.generation + 1) target file,
        by simp [Event.of?, known, Controller.startUpdate], rfl⟩
  | data h =>
    cases h with
    | failed code takes delivery kept => exact .inr ⟨_, rfl, rfl⟩
    | finished takes delivery write final synced =>
      generalize ActiveUpdate.target _ = target
      cases target <;> exact .inr ⟨_, rfl, rfl⟩
    | pushed takes delivery => exact .inr ⟨_, rfl, rfl⟩
    | _ => cases hst
  | cancel h =>
    cases h with
    | active open_ update same =>
      have hne : w.controller.state ≠ .cancelled := by
        rcases open_ with hs | hs <;> simp [hs]
      exact .inr ⟨.cancelled w.controller.generation, by simp [Event.of?, hne], rfl⟩
    | lateStream late update delivery =>
      have hne : w.controller.state ≠ .cancelled := by
        rcases late with hs | hs <;> simp [hs]
      exact .inr ⟨.cancelled w.controller.generation, by simp [Event.of?, hne], rfl⟩
    | _ => cases hst
  | reset h =>
    cases h with
    | refused decision unscheduled => cases hst
    | begun done path => exact .inr ⟨_, rfl, rfl⟩
  | bootLayout =>
    cases hst
    exact .inl ⟨_, rfl⟩
  | inside wraps h =>
    cases hst
    cases wraps with
    | asking => exact .inl ⟨_, rfl⟩
    | _ => cases role
  | @pushes g stream target last rest rest' slot h => cases last <;> cases role
  | @stops stream rest rest' slot release reply h => cases release <;> cases role
  | @takenBack g outcome result package lost =>
    cases hm : outcome.mode <;> simp [Point.role, Role.ofOutcome, hm] at role
  | asked => cases hst
  | _ => first | cases role | cases hst

/-- A call begins to work for an update in a step that tells of the update. -/
lemma Step.worksFor_back (step : Step setup around s t) {i g : Nat} (works : t.WorksFor i g) :
    s.WorksFor i g ∨ ∃ call p w st e, s.threads[i]? = some ⟨call, .running p⟩ ∧
      Goes setup s.world p w st ∧ t = s.moved i call p w st ∧
        Event.of? s.world p w st = some e ∧ e.generation? = some g := by
  obtain ⟨e, he, hg⟩ := works
  obtain hquiet | ⟨k, call, p, w, st, here, goes, rfl⟩ := step.quiet_or_goes
  · rcases hquiet.mem he with hold | ⟨f, a, rfl⟩
    · exact .inl ⟨e, hold, hg⟩
    · cases hg
  · rcases mem_moved.mp he with ⟨rfl, hlog⟩ | hold
    · exact .inr ⟨call, p, w, st, e, here, goes, rfl, hlog, hg⟩
    · exact .inl ⟨e, hold, hg⟩

lemma System.Extends.worksFor (h : s.Extends t) {i g : Nat} (works : s.WorksFor i g) :
    t.WorksFor i g := by
  obtain ⟨e, he, hg⟩ := works
  exact ⟨e, h.history _ he, hg⟩

/-- What a call tells is about the update that it works for already. -/
lemma Tells.same {w w' : World} {p : Point} {st : Status} {e : Event} {g g' : Nat}
    (h : Tells setup w p w' st e) (about : e.generation? = some g') (loyal : p.role.Loyal g) :
    g' = g := by
  have houtcome {k : Nat} {outcome : UpdateOutcome} (hk : k = g')
      (hl : (Role.ofOutcome k outcome.mode).Loyal g) : g' = g := by
    subst hk
    cases hm : outcome.mode <;> rw [hm] at hl <;> exact hl
  cases h with
  | opened owner | assembled assembles | handed owner | installed =>
    obtain rfl : _ = g' := Option.some.inj about
    exact loyal
  | recorded current => exact houtcome (Option.some.inj about) loyal
  | withdrawn lost => exact houtcome (Option.some.inj about) loyal
  | swapped => cases about
  | _ => exact absurd loyal id

/-- Every call worked for one update only, those that have returned included. -/
def Devoted (s : System σ) : Prop := ∀ i g g', s.WorksFor i g → s.WorksFor i g' → g = g'

theorem Devoted.step (h : Devoted s) (loyal : Loyal s) (step : Step setup around s t) :
    Devoted t := by
  intro i g g' hg hg'
  rcases step.worksFor_back hg with hold | ⟨call, p, w, st, e, here, goes, rfl, hlog, he⟩
  · rcases step.worksFor_back hg' with hold' | ⟨call, p, w, st, e, here, goes, rfl, hlog, he⟩
    · exact h i g g' hold hold'
    · exact ((goes.tells hlog).same he (loyal i call p here g hold)).symm
  · obtain ⟨e', he', hg'⟩ := hg'
    rcases mem_moved.mp he' with ⟨-, hlog'⟩ | hold'
    · obtain rfl : e = e' := Option.some.inj (hlog.symm.trans hlog')
      exact Option.some.inj (he.symm.trans hg')
    · exact (goes.tells hlog).same he (loyal i call p here g' ⟨e', hold', hg'⟩)

/-- Calls have worked only for updates that were accepted. -/
def Dated (s : System σ) : Prop := ∀ i g, s.WorksFor i g → g ≤ s.world.controller.generation

/-- Each call that is under way works for an update, or has not touched the controller. -/
def Employed (s : System σ) : Prop :=
  s.All fun i _ p => (∃ call, p.role = .entering call) ∨ ∃ g, s.WorksFor i g

/-- A call that turns to the controller tells of the update that is current, or of the one that
begins. -/
lemma Tells.current {w w' : World} {p : Point} {st : Status} {e : Event} {g : Nat} {call : Call}
    (h : Tells setup w p w' st e) (about : e.generation? = some g)
    (role : p.role = .entering call) :
    g = w.controller.generation ∨ g = w'.controller.generation := by
  have houtcome {k : Nat} {outcome : UpdateOutcome}
      (hr : Role.ofOutcome k outcome.mode = .entering call) : False := by
    cases hm : outcome.mode <;> rw [hm] at hr <;> cases hr
  cases h with
  | accepted known free goes => exact .inr (Option.some.inj about).symm
  | received | writeFailed | cancelled | consumed => exact .inl (Option.some.inj about).symm
  | recorded current => exact (houtcome role).elim
  | withdrawn lost => exact (houtcome role).elim
  | _ => cases role

theorem Dated.step (h : Dated s) (loyal : Loyal s) (employed : Employed s)
    (step : Step setup around s t) : Dated t := by
  have hle := step.generation_le
  intro i g works
  rcases step.worksFor_back works with hold | ⟨call, p, w, st, e, here, goes, rfl, hlog, he⟩
  · exact Nat.le_trans (h i g hold) hle
  · rcases employed i call p here with ⟨call', hrole⟩ | ⟨k, hk⟩
    · rcases (goes.tells hlog).current he hrole with rfl | rfl
      · exact hle
      · exact Nat.le_refl _
    · obtain rfl := (goes.tells hlog).same he (loyal i call p here k hk)
      exact Nat.le_trans (h i _ hk) hle

/-- A call becomes one that brings the final chunk of a streamed update by doing so. -/
lemma Control.stream_back {c c' : Controller} {r r' : Role} {g : Nat} (h : Control r c r' c')
    (now : r' = .stream g) :
    r = .stream g ∨ c.state.isOpen ∧ c.generation = g ∧ ¬ c'.state.isOpen := by
  cases h with
  | stay => exact .inl now
  | @receive number offset chunk last u v c open_ update target mode =>
    cases hm : u.delivery.mode <;> cases last <;> simp [hm, Role.ofChunk] at now
    exact .inr ⟨open_, now, by simp [SessionState.isOpen]⟩
  | _ => cases now

/-- One call at most brings the final chunk of a streamed update, and none follows. -/
structure Finishers (s : System σ) : Prop where
  known : ∀ i g, s.role i = .stream g → g ≤ s.world.controller.generation
  closed : ∀ i, s.role i = .stream s.world.controller.generation →
    ¬ s.world.controller.state.isOpen
  single : ∀ i j g, s.role i = .stream g → s.role j = .stream g → i = j

theorem Finishers.step (h : Finishers s) (step : Step setup around s t) : Finishers t := by
  have hle := step.generation_le
  obtain ⟨call, -, hc, hrole⟩ | ⟨i, r, hc, hrole⟩ := step.control
  · have hback {j g : Nat} (hj : t.role j = .stream g) : s.role j = .stream g := by
      rw [hrole] at hj
      by_cases hnew : j = s.threads.length
      · rw [hnew, Function.update_self] at hj
        cases hj
      · rwa [Function.update_of_ne hnew] at hj
    exact ⟨fun j g hj => hc ▸ h.known j g (hback hj),
      fun j hj => hc ▸ h.closed j (by rw [← hc]; exact hback hj),
      fun j k g hj hk => h.single j k g (hback hj) (hback hk)⟩
  · -- a role that is new is that of the call that goes on
    have hback {j g : Nat} (hj : t.role j = .stream g) : s.role j = .stream g ∨
        j = i ∧ s.world.controller.state.isOpen ∧ s.world.controller.generation = g ∧
          ¬ t.world.controller.state.isOpen := by
      rw [hrole] at hj
      by_cases hnew : j = i
      · subst hnew
        rw [Function.update_self] at hj
        exact (hc.stream_back hj).imp_right fun hopen => ⟨rfl, hopen⟩
      · rw [Function.update_of_ne hnew] at hj
        exact .inl hj
    refine ⟨fun j g hj => ?_, fun j hj => ?_, fun j k g hj hk => ?_⟩
    · rcases hback hj with hold | ⟨-, -, rfl, -⟩
      · exact Nat.le_trans (h.known j g hold) hle
      · exact hle
    · rcases hback hj with hold | ⟨-, -, -, hclosed⟩
      · have hsame : t.world.controller.generation = s.world.controller.generation :=
          Nat.le_antisymm (h.known j _ hold) hle
        exact hc.stays_closed (h.closed j (hsame ▸ hold)) hsame
      · exact hclosed
    · rcases hback hj with hold | ⟨rfl, hopen, rfl, -⟩
      · rcases hback hk with hold' | ⟨rfl, hopen, rfl, -⟩
        · exact h.single j k g hold hold'
        · exact absurd hopen (h.closed j hold)
      · rcases hback hk with hold' | ⟨rfl, -⟩
        · exact absurd hopen (h.closed k hold')
        · rfl

lemma finishers_fresh (w : World) (d : σ) : Finishers (System.fresh w d) := by
  constructor <;> simp [System.role, System.fresh]

/-- What every run bears out of calls and the updates that they work for. -/
structure Traced (s : System σ) : Prop where
  grounded : Grounded s
  stays : s.Stays
  made : s.Made
  loyal : Loyal s
  devoted : Devoted s
  dated : Dated s
  finishers : Finishers s
  employed : Employed s

theorem Traced.step (h : Traced s) (step : Step setup around s t) : Traced t := by
  refine ⟨h.grounded.step step, step.stays h.stays, step.made h.made, h.loyal.step h.made step,
    h.devoted.step h.loyal step, h.dated.step h.loyal h.employed step, h.finishers.step step, ?_⟩
  refine System.All.step h.employed step ?_ (fun call _ => .inl ⟨call, rfl⟩) ?_ ?_ ?_
  · intro i call p _ _ hp
    exact hp.imp_right fun ⟨g, hg⟩ => ⟨g, step.extends.worksFor hg⟩
  · rintro i call p w p' here goes rfl hp
    rcases hp with ⟨call', hrole⟩ | ⟨g, hg⟩
    · exact (goes.begins hrole).imp_right fun ⟨e, hlog, he⟩ =>
        ⟨_, e, mem_moved.mpr (.inl ⟨rfl, hlog⟩), he⟩
    · exact .inr ⟨g, step.extends.worksFor hg⟩
  · intro i call p a hp
    rwa [resume_role]
  · intro i call p hp
    rwa [wake_role]

lemma traced_fresh (w : World) (d : σ) (hw : w.controller = {}) : Traced (System.fresh w d) := by
  have hnone (i g : Nat) : ¬ (System.fresh w d).WorksFor i g := by
    rintro ⟨e, he, -⟩
    cases he
  refine ⟨grounded_fresh w d hw, System.all_fresh w d, ?_, System.all_fresh w d,
    fun i g g' hg => absurd hg (hnone i g), fun i g hg => absurd hg (hnone i g),
    finishers_fresh w d, System.all_fresh w d⟩
  intro k e he
  cases he

/-! ### The controller at rest -/

/-- Only the outcome of a staged update may have to be taken back. -/
lemma Point.role_of_withdraw {g : Nat} {outcome : UpdateOutcome} {result : Except DataCode Unit}
    {package : String} {call : Call}
    (serves : (Point.concluding g outcome result (.withdraw package)).Serves call) :
    (Point.concluding g outcome result (.withdraw package)).role = .staged g .ending := by
  simp [Point.role, serves.2 package rfl, Role.ofOutcome]

/-- A failed chunk, or a cancel that came too late, ends an update that was under way. -/
lemma Tells.busy_of_late {w w' : World} {p : Point} {st : Status} {e : Event} {call : Call}
    (h : Tells setup w p w' st e) (late : e.isLate) (fits : p.role.Fits w.controller)
    (serves : p.Serves call) : w.controller.state.isBusy := by
  cases h with
  | writeFailed code takes delivery => exact .inl takes.open_
  | @withdrawn g outcome result package rest lost =>
    exact Role.busy_of_holds (by rw [Point.role_of_withdraw serves]; trivial) fits
  | _ => simp [Event.isLate] at late

/-- No update is under way, and no call is left with cleanup. -/
structure System.AtRest (s : System σ) : Prop where
  idle : ¬ s.world.controller.state.isBusy
  clean : s.All fun _ _ p => p.role = .free → p.cleans = false

/-- A step in which the generation stays the same accepts no request. -/
lemma patient_of_same (same : t.world.controller.generation = s.world.controller.generation) :
    Patient s t := fun _ => same

/-- Nothing gets under way before the next request. -/
lemma System.AtRest.step (h : s.AtRest) (steady : Steady s) (step : Step setup around s t)
    (same : t.world.controller.generation = s.world.controller.generation) : t.AtRest := by
  refine ⟨fun hbusy => ?_, ?_⟩
  · obtain ⟨call, -, hc, -⟩ | ⟨i, r, hc, -⟩ := step.control
    · exact h.idle (hc ▸ hbusy)
    · rcases hc.busy (steady.owned.fits i) hbusy with hold | ⟨-, hnext⟩
      · exact h.idle hold
      · omega
  · refine h.clean.step step (fun _ _ _ _ _ hp => hp) (fun call _ hrole => by cases hrole) ?_ ?_ ?_
    · rintro i call p w p' here goes rfl hp hfree
      rw [← Bool.not_eq_true]
      intro hcleans
      rcases goes.freed hcleans hfree with ⟨hcleans', hfree', -⟩ | ⟨e, hlog, hlate⟩
      · rw [hp hfree'] at hcleans'
        cases hcleans'
      · exact h.idle ((goes.tells hlog).busy_of_late hlate (steady.fits here)
          (steady.serving i call p here))
    · intro i call p a hp hfree
      rw [resume_role] at hfree
      rw [← Bool.not_eq_true]
      intro hcleans
      exact absurd (cleans_of_resume hcleans) (by simp [hp hfree])
    · intro i call p hp hfree
      rw [wake_role] at hfree
      rw [← Bool.not_eq_true]
      intro hcleans
      exact absurd (cleans_of_wake hcleans) (by simp [hp hfree])

/-- Calls leave the files alone then. -/
lemma System.AtRest.files_of_goes (h : s.AtRest) (steady : Steady s) {i : Nat} {call : Call}
    {p : Point} {w : World} {st : Status} (here : s.threads[i]? = some ⟨call, .running p⟩)
    (goes : Goes setup s.world p w st) : w.files = s.world.files := by
  rcases goes.edits (steady.stays i call p here) with hsame | hedits | ⟨hcleans, hfree⟩
  · exact hsame
  · have hfits := steady.fits here
    refine absurd ?_ h.idle
    cases hrole : p.role with
    | entering call' =>
      rw [hrole] at hedits
      exact .inl hedits.2.1
    | setup g => exact Role.busy_of_holds (by rw [hrole]; trivial) hfits
    | undo g =>
      rw [hrole] at hfits
      exact .inr (.inr hfits.2.1)
    | staged g stage => exact Role.busy_of_holds (by rw [hrole]; trivial) hfits
    | _ => rw [hrole] at hedits; exact hedits.elim
  · rw [h.clean i call p here hfree] at hcleans
    cases hcleans

/-! ### The call that an update rests on -/

/-- If the call works on a streamed update, it is another one than the current. -/
def Role.Elsewhere (c : Controller) : Role → Prop
  | .push g | .stream g => g ≠ c.generation
  | _ => True

lemma Role.Elsewhere.not_disturbs {c : Controller} {r : Role} (h : r.Elsewhere c) :
    ¬ r.Disturbs c := by
  cases r with
  | push g => exact fun ⟨owner, _⟩ => h (Controller.owns_iff.mp owner).1.symm
  | _ => exact id

lemma Role.Elsewhere.settled {c : Controller} {r : Role} (h : r.Elsewhere c) : r.Settled c := by
  cases r with
  | push g => exact fun hcurrent => absurd hcurrent.symm h
  | stream g => exact fun hcurrent => absurd hcurrent.symm h
  | _ => trivial

/-- A call that an update rests on hands it on only when nothing is left to do for it. -/
lemma Control.leans {c c' : Controller} {r r' : Role} (h : Control r c r' c') (fits : r.Fits c)
    (elsewhere : r.Elsewhere c) (mode : c.inMode .staged) (leans : c'.Leans) :
    r'.rests ∨ c.Leans ∧ ¬ r.rests := by
  cases h with
  | stay => by_cases hr : r.rests <;> simp_all
  | refuse => exact .inr ⟨leans, id⟩
  | settle delivery target owner =>
    grind [Controller.Leans, Role.Fits, Controller.owns, SessionState.isOpen, SessionState.isLate]
  | setupFailed =>
    grind [Controller.Leans, Role.Fits, Controller.releaseIfCurrent, Controller.release,
      SessionState.isOpen, SessionState.isLate]
  | released =>
    grind [Controller.Leans, Role.Fits, Controller.releaseIfCurrent, Controller.release,
      SessionState.isOpen, SessionState.isLate]
  | @receive number offset chunk last u v c open_ update target same =>
    rw [mode u update]
    cases last with
    | true => exact .inl trivial
    | false => simp [Controller.Leans, SessionState.isLate] at leans
  | writeFailed => simp [Controller.Leans, SessionState.isOpen, SessionState.isLate,
      Controller.release] at leans
  | pushed => exact .inr ⟨leans, id⟩
  | @pushFailed g c =>
    rw [if_neg fun owner => elsewhere (Controller.owns_iff.mp owner).1.symm] at leans
    exact .inr ⟨leans, id⟩
  | @conclude g c outcome =>
    cases hm : outcome.mode with
    | staged =>
      rw [hm] at fits
      obtain ⟨hg, -⟩ := fits
      obtain ⟨hne, -⟩ | ⟨-, -, heq⟩ | ⟨-, -, heq⟩ := c.conclude_cases _ outcome
      · exact absurd hg hne
      · rw [heq] at leans
        simp [Controller.Leans, SessionState.isOpen, SessionState.isLate, Controller.release]
          at leans
      · rw [heq] at leans
        simp [Controller.Leans, SessionState.isOpen, SessionState.isLate] at leans
    | streaming =>
      rw [hm] at elsewhere
      obtain ⟨-, heq⟩ | ⟨hg, -⟩ | ⟨hg, -⟩ := c.conclude_cases g outcome
      · rw [heq] at leans
        exact .inr ⟨leans, id⟩
      · exact absurd hg.symm elsewhere
      · exact absurd hg.symm elsewhere
  | cancelSetup open_ none => exact .inr ⟨.inl ⟨open_, none⟩, id⟩
  | cancelEnd late => exact .inr ⟨.inr (.inl late), id⟩
  | resetBegin done => simp [Controller.Leans, SessionState.isOpen, SessionState.isLate] at leans
  | @resetEnd scheduled c =>
    cases scheduled <;> simp [Controller.Leans, SessionState.isOpen, SessionState.isLate] at leans
  | _ => exact .inl trivial

/-- Only an update that is under way is cancelled. -/
lemma Tells.busy_of_cancelled {w w' : World} {p : Point} {st : Status} {e : Event} {g : Nat}
    (h : Tells setup w p w' st e) (about : e = .cancelled g) : w.controller.state.isBusy := by
  cases h with
  | cancelled h now before =>
    cases h with
    | ignored => exact absurd now before
    | early open_ none => exact .inl open_
    | active open_ update same => exact .inl open_
    | late late => exact .inr (.inl late)
    | lateStream late update delivery => exact .inr (.inl late)
  | _ => cases about

/-- Only a cancel gives an update up, and it tells so. -/
lemma Goes.gives_up {w w' : World} {p : Point} {st : Status} (h : Goes setup w p w' st)
    (now : w'.controller.state = .cancelled) : w.controller.state = .cancelled ∨
      Event.of? w p w' st = some (.cancelled w.controller.generation) := by
  have hor {c : Controller} (or : c = w.controller ∨ c.state = .idle)
      (hc : c.state = .cancelled) : w.controller.state = .cancelled := by
    rcases or with rfl | hidle
    · exact hc
    · rw [hidle] at hc
      cases hc
  have hrelease (g : Nat) : w.controller.releaseIfCurrent g = w.controller ∨
      (w.controller.releaseIfCurrent g).state = .idle :=
    (w.controller.releaseIfCurrent_cases g).imp_right fun heq => by rw [heq]; rfl
  have hconclude {g : Nat} {outcome : UpdateOutcome}
      (hc : (w.controller.conclude g outcome).2.state = .cancelled) :
      w.controller.state = .cancelled := by
    obtain ⟨-, heq⟩ | ⟨-, hstate, -⟩ | ⟨-, -, heq⟩ := w.controller.conclude_cases g outcome
    · rwa [heq] at hc
    · exact hstate
    · rw [heq] at hc
      cases hc
  cases h with
  | request h =>
    cases h with
    | refused code => exact .inl now
    | accepted known name free goes => cases now
  | data h =>
    cases h with
    | refused code => exact .inl now
    | pushed takes delivery =>
      rename_i last _ _
      cases last <;> cases now
    | _ => cases now
  | cancel h =>
    by_cases hstate : w.controller.state = .cancelled
    · exact .inl hstate
    · exact .inr (if_pos ⟨now, hstate⟩)
  | reset h =>
    cases h with
    | refused decision unscheduled => exact .inl now
    | begun done path => cases now
  | setupFailed => exact .inl (hor (hrelease _) now)
  | released => exact .inl (hor (hrelease _) now)
  | pushFailed =>
    refine .inl (hor ?_ now)
    dsimp only
    split
    · exact .inr rfl
    · exact .inl rfl
  | handed owner => cases now
  | recorded current => exact .inl (hconclude now)
  | givenUp lost => exact .inl (hconclude now)
  | takenBack lost => exact .inl (hconclude now)
  | @resetDone scheduled => cases scheduled <;> cases now
  | _ => exact .inl now

/-- The call works on a streamed update, or stops its stream after the final chunk. -/
def Point.Streaming : Point → Prop
  | .stopping _ _ none _ => True
  | p => p.role.streams

lemma Point.streaming_of_role {p : Point} (h : p.role.streams) : p.Streaming := by
  cases p with
  | stopping stream rest release reply => cases release <;> exact h.elim
  | _ => exact h

lemma Point.role_of_streaming {p : Point} (h : p.Streaming) : p.role.streams ∨ p.role = .free := by
  cases p with
  | stopping stream rest release reply =>
    cases release with
    | none => exact .inr rfl
    | some g => exact h.elim
  | _ => exact .inl h

lemma Role.rests_of_holds {r : Role} (h : r.Holds) : r.rests := by
  cases r with
  | setup | staged => trivial
  | _ => exact h.elim

/-- No update rests on a call that turns to a stream. -/
lemma Point.not_rests_of_streaming {p : Point} (h : p.Streaming) : ¬ p.role.rests := by
  intro hrests
  rcases Point.role_of_streaming h with hstreams | hfree
  · cases hp : p.role <;> rw [hp] at hrests hstreams <;> first | exact hrests | exact hstreams
  · rw [hfree] at hrests
    exact hrests

/-- A call turns to a stream only if the update that is active streams. -/
lemma Goes.streams_back {w w' : World} {p p' : Point} (h : Goes setup w p w' (.running p'))
    (streams : p'.Streaming) :
    p.Streaming ∨ ∃ u, w.controller.active = some u ∧ u.delivery.mode = .streaming := by
  generalize hst : Status.running p' = st at h
  cases h with
  | request h =>
    cases h with
    | refused code => cases hst
    | accepted known name free goes =>
      cases hst
      obtain ⟨-, rfl⟩ | rfl := goes <;> exact streams.elim
  | data h =>
    cases h with
    | failed code takes delivery kept =>
      cases hst
      exact streams.elim
    | finished takes delivery write final synced =>
      generalize ActiveUpdate.target _ = target at hst
      cases hst
      cases target <;> exact streams.elim
    | @pushed u stream takes delivery =>
      exact .inr ⟨u, takes.active, by rw [delivery]; rfl⟩
    | _ => cases hst
  | cancel h =>
    cases h with
    | active open_ update same =>
      cases hst
      exact streams.elim
    | @lateStream u stream late update delivery => exact .inr ⟨u, update, by rw [delivery]; rfl⟩
    | _ => cases hst
  | reset h =>
    cases h with
    | refused decision unscheduled => cases hst
    | begun done path =>
      generalize w.controller.outcome = outcome at path
      cases hst
      cases path <;> exact streams.elim
  | inside wraps h =>
    cases hst
    cases wraps <;> exact streams.elim
  | @stops stream rest rest' slot release reply h =>
    cases hst
    cases release with
    | none => exact .inl trivial
    | some g => exact streams.elim
  | @pushes g stream target last rest rest' slot h => cases last <;> exact .inl trivial
  | pushedFinal h => exact .inl trivial
  | judged => exact .inl trivial
  | notPushed e h fails => exact .inl trivial
  | _ =>
    cases hst
    all_goals exact streams.elim

lemma streaming_wake {p : Point} : p.wake.Streaming ↔ p.Streaming := by
  cases p <;> rfl

lemma resume_streaming {p : Point} (h : p.Streaming) (a : Answer) : (p.resume a).Streaming := by
  cases p with
  | starting => exact h.elim
  | _ => exact h

lemma streaming_of_resume {p : Point} {a : Answer} (h : (p.resume a).Streaming) :
    p.Streaming := by
  cases p with
  | starting g target stream request => cases a <;> exact h.elim
  | _ => exact h

/-- A call that turned to a stream turns to nothing else any more. -/
lemma Goes.streams_on {w w' : World} {p q : Point} {call : Call}
    (h : Goes setup w p w' (.running q)) (streams : p.Streaming) (serves : p.Serves call) :
    q.Streaming := by
  generalize hst : Status.running q = st at h
  cases h with
  | inside wraps h => cases wraps <;> exact streams.elim
  | @stops stream rest rest' slot release reply h =>
    cases hst
    cases release with
    | none => trivial
    | some g => exact streams.elim
  | @stoppedOwn stream g rest slot reply r h => exact streams.elim
  | @pushes g stream target last rest rest' slot h =>
    cases hst
    cases last <;> trivial
  | pushedFinal | judged | notPushed =>
    cases hst
    trivial
  | takenBack lost =>
    exact ((congrArg Role.streams (Point.role_of_withdraw serves)).mp streams).elim
  | _ => first | exact streams.elim | cases hst

/-! ### The update has the controller to itself -/

/-- The update `g` is current, it is not streamed, and a call that works for another one only turns
to the stream of that one. -/
structure Sole (g : Nat) (s : System σ) : Prop where
  traced : Traced s
  steady : Steady s
  consistent : s.world.controller.Consistent
  current : s.world.controller.generation = g
  unstreamed : ¬ s.Streamed g
  others : s.All fun i _ p => p.Streaming → ∃ k ≠ g, s.WorksFor i k
  works : s.All fun i _ p => (∃ call, p.role = .entering call) ∨ s.WorksFor i g ∨ p.Streaming
  leans : s.world.controller.Leans → ∃ i, (s.role i).rests
  givenUp : s.world.controller.state = .cancelled → s.Logged (.cancelled g)
  cancelled : s.Logged (.cancelled g) →
    s.world.controller.state = .cancelled ∨ s.world.controller.state = .idle
  recorded : ∀ o, s.Logged (.recorded g o) → s.AtRest ∧ ¬ s.Logged (.cancelled g)

/-- The step accepts the update `g`, and no call of an update before is late: it has returned, or
only turns to its own stream. So it has no cleanup to do, and does not decide on a restart. -/
structure System.Begins (g : Nat) (s t : System σ) : Prop where
  before : s.world.controller.generation ≠ g
  now : t.world.controller.generation = g
  polite : s.All fun i _ p => ∀ k, s.WorksFor i k → p.Streaming

/-- Only a request that is accepted changes the generation. -/
lemma Goes.accepts {w w' : World} {p : Point} {st : Status} (h : Goes setup w p w' st)
    (next : w'.controller.generation ≠ w.controller.generation) :
    ∃ target file size p', st = .running p' ∧ w'.controller = w.controller.startUpdate ∧
      (p' = .choosing w'.controller.generation target file size Procedure.bootLayout ∨
        p' = .checkingSpace w'.controller.generation target file size) ∧
          Event.of? w p w' st = some (.accepted w'.controller.generation target file) := by
  obtain ⟨call, hrole, hrequest⟩ := h.control.request next
  rcases entry_of_entering hrole with rfl | rfl
  · generalize hp : Point.entry call = p at h
    cases h with
    | @request number size file v st h =>
      cases h with
      | refused code => exact absurd rfl next
      | @accepted target p' known name free goes =>
        exact ⟨target, file, size, p', rfl, rfl, goes.imp_left And.right,
          by simp [Event.of?, known]⟩
    | inside wraps h => cases wraps <;> cases hp
    | data | cancel | reset | bootLayout =>
      cases hp
      simp [Call.isRequest] at hrequest
    | _ => cases hp
  · simp [Call.isRequest] at hrequest

/-- A call in this role has no stake in the update `g`: it has not touched the controller, or is
done with it, or works on a streamed update before. -/
def Role.Outside (g : Nat) : Role → Prop
  | .entering _ | .free => True
  | .push k | .stream k => k < g
  | _ => False

lemma Role.Outside.fits {c : Controller} {r : Role} (h : r.Outside c.generation) : r.Fits c := by
  cases r with
  | entering | free => trivial
  | push k => exact ⟨Nat.le_of_lt h, fun heq => absurd heq.symm (Nat.ne_of_lt h)⟩
  | stream k => exact ⟨Nat.le_of_lt h, fun heq => absurd heq.symm (Nat.ne_of_lt h)⟩
  | _ => exact h.elim

/-- Only two calls that bring the same final chunk clash then. -/
lemma Role.Outside.clashes {g : Nat} {q r : Role} (h : r.Outside g) (clash : q.Clashes r) :
    ∃ k, q = .stream k ∧ r = .stream k := by
  cases r with
  | stream k =>
    cases q with
    | stream k' => exact ⟨k, by rw [show k' = k from clash], rfl⟩
    | _ => exact clash.elim
  | entering | free | push => cases q <;> exact clash.elim
  | _ => exact h.elim

/-- The update that is accepted is owned by the call that sets it up, if all others have no stake in
it. -/
lemma owned_of_outside {c : Controller} {role : Nat → Role} {i g : Nat} (now : c.generation = g)
    (vacant : c.state = .requested ∧ c.active = none) (outside : ∀ j, (role j).Outside g)
    (single : ∀ j k n, role j = .stream n → role k = .stream n → j = k) :
    Owned c (Function.update role i (.setup g)) := by
  constructor
  · intro j
    by_cases hj : j = i
    · rw [hj, Function.update_self]
      exact ⟨now, .inl vacant.1, vacant.2⟩
    · rw [Function.update_of_ne hj]
      exact (now ▸ outside j).fits
  · intro j k hjk hclash
    by_cases hj : j = i
    · subst hj
      rw [Function.update_self, Function.update_of_ne (Ne.symm hjk)] at hclash
      obtain ⟨n, hn, -⟩ := (outside k).clashes hclash
      cases hn
    · rw [Function.update_of_ne hj] at hclash
      obtain ⟨n, hk, hj'⟩ := (outside j).clashes hclash.symm
      by_cases hki : k = i
      · rw [hki, Function.update_self] at hk
        cases hk
      · rw [Function.update_of_ne hki] at hk
        exact hjk (single j k n hj' hk)

/-- If no call of the updates before is late, those under way have not touched the controller, or
turn to their streams. -/
lemma Traced.entering (h : Traced s)
    (polite : s.All fun i _ p => ∀ k, s.WorksFor i k → p.Streaming) :
    s.All fun _ _ p => (∃ call, p.role = .entering call) ∨ p.Streaming :=
  fun i call p here =>
    (h.employed i call p here).imp_right fun ⟨k, hk⟩ => polite i call p here k hk

/-- Nobody has worked for an update that was not accepted. -/
lemma Traced.unknown {g : Nat} (h : Traced s) (step : Step setup around s t)
    (begins : System.Begins g s t) (i : Nat) : ¬ s.WorksFor i g := by
  intro works
  have hle := h.dated i g works
  have hstep := step.generation_le
  have hbefore := begins.before
  have hnow := begins.now
  omega

lemma Point.not_streaming_of_entering {p : Point} {call : Call} (role : p.role = .entering call) :
    ¬ p.Streaming := by
  intro hstreams
  rcases Point.role_of_streaming hstreams with hr | hr <;> rw [role] at hr <;> cases hr

/-- A call that is left with cleanup turns to no stream. -/
lemma Point.not_streaming_of_cleans {p : Point} (cleans : p.cleans) (free : p.role = .free) :
    ¬ p.Streaming := by
  cases p with
  | withdrawing | removing => exact id
  | stopping stream rest release reply => cases cleans
  | _ => exact (congrArg Role.streams free).mp

/-- A call that turns to a stream works for an update that was accepted. -/
lemma Traced.works_of_streaming (h : Traced s) {i : Nat} {call : Call} {p : Point}
    (here : s.threads[i]? = some ⟨call, .running p⟩) (streams : p.Streaming) :
    ∃ k ≤ s.world.controller.generation, s.WorksFor i k := by
  rcases h.employed i call p here with ⟨call', hrole⟩ | ⟨k, works⟩
  · exact absurd streams (Point.not_streaming_of_entering hrole)
  · exact ⟨k, h.dated i k works, works⟩

/-- It works for the update that it streams. -/
lemma Traced.works_of_role (h : Traced s) {i k : Nat} {call : Call} {p : Point}
    (here : s.threads[i]? = some ⟨call, .running p⟩)
    (role : p.role = .push k ∨ p.role = .stream k) : s.WorksFor i k := by
  rcases h.employed i call p here with ⟨call', hrole⟩ | ⟨k', works⟩
  · rcases role with hk | hk <;> cases hrole.symm.trans hk
  · have hloyal := h.loyal i call p here k' works
    obtain rfl : k = k' := by rcases role with hk | hk <;> rwa [hk] at hloyal
    exact works

lemma Traced.outside (h : Traced s) {g : Nat} (next : s.world.controller.generation < g)
    (late : s.All fun _ _ p => (∃ call, p.role = .entering call) ∨ p.Streaming) (i : Nat) :
    (s.role i).Outside g := by
  unfold System.role
  split
  · rename_i thread here
    obtain ⟨call, p | r⟩ := thread
    · have hbefore {k : Nat} (role : p.role = .push k ∨ p.role = .stream k) : k < g :=
        Nat.lt_of_le_of_lt (h.dated i k (h.works_of_role here role)) next
      rw [Status.role]
      rcases late i call p here with ⟨call', hrole⟩ | hstreams
      · rw [hrole]
        trivial
      · cases hrole : p.role with
        | push k => exact hbefore (.inl hrole)
        | stream k => exact hbefore (.inr hrole)
        | entering | free => trivial
        | _ =>
          rcases Point.role_of_streaming hstreams with hr | hr <;> rw [hrole] at hr <;> cases hr
    · trivial
  · trivial

/-- The call has its request accepted in the step, as the update `g`, and begins to set it up. -/
structure Accepts (setup : Setup) (g : Nat) (s t : System σ) (i : Nat) (call : Call)
    (p q : Point) (w : World) : Prop where
  here : s.threads[i]? = some ⟨call, .running p⟩
  goes : Goes setup s.world p w (.running q)
  moved : t = s.moved i call p w (.running q)
  current : w.controller.generation = g
  controller : w.controller = s.world.controller.startUpdate
  begun : ∃ target file size, q = .choosing g target file size Procedure.bootLayout ∨
    q = .checkingSpace g target file size
  told : ∃ target file, Event.of? s.world p w (.running q) = some (.accepted g target file)

/-- An update begins in a step that accepts it. -/
lemma System.Begins.accepts {g : Nat} (begins : System.Begins g s t)
    (step : Step setup around s t) : ∃ i call p q w, Accepts setup g s t i call p q w := by
  have hnext : t.world.controller.generation ≠ s.world.controller.generation := by
    rw [begins.now]
    exact fun hsame => begins.before hsame.symm
  obtain hquiet | ⟨i, call, p, w, st, here, goes, rfl⟩ := step.quiet_or_goes
  · exact absurd (congrArg _ hquiet.controller) hnext
  have hnow : w.controller.generation = g := begins.now
  obtain ⟨target, file, size, q, rfl, hcontroller, hq, htold⟩ := goes.accepts hnext
  rw [hnow] at hq htold
  exact ⟨i, call, p, q, w, here, goes, rfl, hnow, hcontroller, ⟨target, file, size, hq⟩,
    ⟨target, file, htold⟩⟩

namespace Accepts

variable {g i : Nat} {call : Call} {p q : Point} {w : World}

lemma role_eq (h : Accepts setup g s t i call p q w) : q.role = .setup g := by
  obtain ⟨target, file, size, rfl | rfl⟩ := h.begun <;> rfl

lemma roles (h : Accepts setup g s t i call p q w) :
    t.role = Function.update s.role i (.setup g) := by
  rw [h.moved, ← h.role_eq]
  exact role_set h.here

lemma not_streaming (h : Accepts setup g s t i call p q w) : ¬ q.Streaming := fun hstreams =>
  Point.not_rests_of_streaming hstreams (by rw [h.role_eq]; trivial)

/-- What holds of the call that is accepted and of each other one holds of all. -/
lemma all (h : Accepts setup g s t i call p q w) {P Q : Nat → Call → Point → Prop}
    (before : s.All Q) (own : P i call q)
    (others : ∀ j call' p', s.threads[j]? = some ⟨call', .running p'⟩ → Q j call' p' →
      P j call' p') : t.All P := by
  rw [h.moved]
  refine before.set h.here (fun j call' p' _ there hp => others j call' p' there hp) ?_
  intro p' hp'
  obtain rfl := Status.running.inj hp'
  exact own

/-- What was told of the update before the step and in it is only that it is accepted. -/
lemma accepted_of_logged (h : Accepts setup g s t i call p q w)
    (unknown : ∀ j, ¬ s.WorksFor j g) {e : Event} (about : e.generation? = some g)
    (logged : t.Logged e) : ∃ target file, e = .accepted g target file := by
  obtain ⟨k, hk⟩ := logged
  obtain ⟨target, file, htold⟩ := h.told
  rcases mem_moved.mp (h.moved ▸ hk) with ⟨-, hnew⟩ | hold
  · exact ⟨target, file, Option.some.inj (hnew.symm.trans htold)⟩
  · exact absurd ⟨e, hold, about⟩ (unknown k)

lemma worksFor (h : Accepts setup g s t i call p q w) : t.WorksFor i g := by
  obtain ⟨target, file, htold⟩ := h.told
  exact ⟨_, by rw [h.moved]; exact mem_moved.mpr (.inl ⟨rfl, htold⟩), rfl⟩

lemma controller_eq (h : Accepts setup g s t i call p q w) :
    t.world.controller = s.world.controller.startUpdate := by
  rw [h.moved]
  exact h.controller

end Accepts

/-- The call that is accepted is the only one that the update rests on, and none is left with
cleanup. -/
lemma Traced.steady_of_accepts {g i : Nat} {call : Call} {p q : Point} {w : World} (h : Traced s)
    (htraced : Traced t) (accepts : Accepts setup g s t i call p q w)
    (next : s.world.controller.generation < g)
    (late : s.All fun _ _ p => (∃ call, p.role = .entering call) ∨ p.Streaming) : Steady t := by
  refine ⟨?_, htraced.grounded.serving, htraced.stays, ?_⟩
  · rw [accepts.controller_eq, accepts.roles]
    exact owned_of_outside (accepts.controller ▸ accepts.current) ⟨rfl, rfl⟩
      (h.outside next late) h.finishers.single
  · refine accepts.all late (fun _ hfree => ?_) fun j call' p' _ hlate hcleans hfree => ?_
    · rw [accepts.role_eq] at hfree
      cases hfree
    · rcases hlate with ⟨c, hc⟩ | hstreams
      · rw [hc] at hfree
        cases hfree
      · exact absurd hstreams (Point.not_streaming_of_cleans hcleans hfree)

/-- An update that is accepted while no call of an update before is late has the controller to
itself. -/
theorem Traced.sole {g : Nat} (h : Traced s) (step : Step setup around s t)
    (begins : System.Begins g s t) (unstreamed : ¬ t.Streamed g) : Sole g t := by
  have hlt : s.world.controller.generation < g := by
    have := begins.before
    have := begins.now
    have := step.generation_le
    omega
  have htraced := h.step step
  have hlate := h.entering begins.polite
  obtain ⟨i, call, p, q, w, accepts⟩ := begins.accepts step
  have hnews {e : Event} (about : e.generation? = some g)
      (hne : ∀ target file, e ≠ .accepted g target file) : ¬ t.Logged e := fun hlogged => by
    obtain ⟨target, file, he⟩ := accepts.accepted_of_logged (h.unknown step begins) about hlogged
    exact hne target file he
  refine ⟨htraced, h.steady_of_accepts htraced accepts hlt hlate, ?_, begins.now, unstreamed, ?_,
    ?_, fun _ => ⟨i, ?_⟩, fun hstate => ?_, fun hlogged => ?_, fun o hlogged => ?_⟩
  · rw [accepts.controller_eq]
    constructor <;> simp [Controller.startUpdate]
  · refine accepts.all hlate (fun hstreams => absurd hstreams accepts.not_streaming) ?_
    intro j call' p' there _ hstreams
    obtain ⟨k, hk, works⟩ := h.works_of_streaming there hstreams
    exact ⟨k, Nat.ne_of_lt (Nat.lt_of_le_of_lt hk hlt), step.extends.worksFor works⟩
  · exact accepts.all hlate (.inr (.inl accepts.worksFor)) fun j call' p' _ hlate =>
      hlate.imp_right .inr
  · rw [accepts.roles, Function.update_self]
    trivial
  · rw [accepts.controller_eq] at hstate
    cases hstate
  · exact absurd hlogged (hnews rfl (by simp))
  · exact absurd hlogged (hnews rfl (by simp))

namespace Sole

variable {g : Nat}

/-- The file that the update is written to, while it is active. -/
lemma mode (h : Sole g s) : s.world.controller.inMode .staged := by
  intro u hu
  cases hd : u.delivery with
  | staged path file => rfl
  | streaming stream =>
    refine absurd ⟨stream, ?_⟩ h.unstreamed
    have hopened := h.traced.grounded.backs.delivery u hu
    rwa [hd, h.current] at hopened

/-- A streamed update that a call works on is another one. -/
lemma other_of_role (h : Sole g s) {i k : Nat} {call : Call} {p : Point}
    (here : s.threads[i]? = some ⟨call, .running p⟩)
    (role : p.role = .push k ∨ p.role = .stream k) : k ≠ g := by
  have hstreams : p.Streaming :=
    Point.streaming_of_role (by rcases role with hr | hr <;> rw [hr] <;> trivial)
  obtain ⟨k', hne, works⟩ := h.others i call p here hstreams
  rwa [h.traced.devoted i k k' (h.traced.works_of_role here role) works]

lemma elsewhere (h : Sole g s) (i : Nat) : (s.role i).Elsewhere s.world.controller := by
  unfold System.role
  split
  · rename_i thread here
    obtain ⟨call, p | r⟩ := thread
    · rw [Status.role]
      cases hrole : p.role with
      | push k => exact fun hk => h.other_of_role here (.inl hrole) (hk.trans h.current)
      | stream k => exact fun hk => h.other_of_role here (.inr hrole) (hk.trans h.current)
      | _ => trivial
    · trivial
  · trivial

/-- A call that has touched the controller and turns to no stream works for the update. -/
lemma worksFor (h : Sole g s) {i : Nat} {call : Call} {p : Point}
    (here : s.threads[i]? = some ⟨call, .running p⟩) (role : ∀ call', p.role ≠ .entering call')
    (streamless : ¬ p.Streaming) : s.WorksFor i g :=
  ((h.works i call p here).resolve_left fun ⟨call', hrole⟩ => role call' hrole).resolve_right
    streamless

/-- A call that works for the update turns to no stream. -/
lemma streamless (h : Sole g s) {i : Nat} {call : Call} {p : Point}
    (here : s.threads[i]? = some ⟨call, .running p⟩) (works : s.WorksFor i g) : ¬ p.Streaming := by
  intro hstreams
  obtain ⟨k, hne, hk⟩ := h.others i call p here hstreams
  exact hne (h.traced.devoted i k g hk works)

/-- A call that is about to record an outcome carries the staged update to its end, or has an
outcome for another one. -/
lemma role_of_concluding (h : Sole g s) {i k : Nat} {call : Call} {outcome : UpdateOutcome}
    {result : Except DataCode Unit} {otherwise : Otherwise}
    (here : s.threads[i]? = some ⟨call, .running (.concluding k outcome result otherwise)⟩) :
    (Point.concluding k outcome result otherwise).role = .staged k .ending ∨ k ≠ g := by
  cases hm : outcome.mode with
  | staged => exact .inl (by simp [Point.role, Role.ofOutcome, hm])
  | streaming =>
    exact .inr (h.other_of_role here (.inr (by simp [Point.role, Role.ofOutcome, hm])))

/-- While such a call has the update to end, the update is under way. -/
lemma busy_of_concluding (h : Sole g s) {i : Nat} {call : Call} {outcome : UpdateOutcome}
    {result : Except DataCode Unit} {otherwise : Otherwise}
    (here : s.threads[i]? = some ⟨call, .running (.concluding g outcome result otherwise)⟩) :
    s.world.controller.state.isBusy := by
  have hrole := (h.role_of_concluding here).resolve_right fun hne => hne rfl
  exact Role.busy_of_holds (by rw [hrole]; trivial) (h.steady.fits here)

/-- An update that was given up stays so. -/
lemma cancelled_step (h : Sole g s) (step : Step setup around s t)
    (same : t.world.controller.generation = s.world.controller.generation)
    (logged : t.Logged (.cancelled g)) :
    t.world.controller.state = .cancelled ∨ t.world.controller.state = .idle := by
  obtain ⟨i, hi⟩ := logged
  rcases step.logs hi with hold | hnew
  · have hstate := h.cancelled ⟨i, hold⟩
    obtain ⟨call, -, hc, -⟩ | ⟨j, r, hc, -⟩ := step.control
    · rwa [hc]
    · exact hc.given_up (h.steady.owned.fits j) (h.elsewhere j).settled hstate same
  · cases hnew with
    | told here goes tells now =>
      subst now
      cases tells with
      | cancelled h now before => exact .inl now

/-- A completed update leaves the controller at rest, and was never given up. -/
lemma recorded_step (h : Sole g s) (step : Step setup around s t)
    (same : t.world.controller.generation = s.world.controller.generation) {o : UpdateOutcome}
    (logged : t.Logged (.recorded g o)) : t.AtRest ∧ ¬ t.Logged (.cancelled g) := by
  by_cases hold : s.Logged (.recorded g o)
  · obtain ⟨hrest, hnot⟩ := h.recorded o hold
    refine ⟨hrest.step h.steady step same, fun ⟨i, hi⟩ => ?_⟩
    rcases step.logs hi with hmem | hnew
    · exact hnot ⟨i, hmem⟩
    · cases hnew with
      | told here goes tells now => exact hrest.idle (tells.busy_of_cancelled rfl)
  · obtain ⟨i, hi⟩ := logged
    obtain hquiet | ⟨k, call, p, w, st, here, goes, rfl⟩ := step.quiet_or_goes
    · exact absurd (hquiet.logged ⟨i, hi⟩ (by simp)) hold
    obtain ⟨rfl, hlog⟩ := (mem_moved.mp hi).resolve_right fun hmem => hold ⟨i, hmem⟩
    cases goes.tells hlog with
    | recorded current =>
      have hbusy := h.busy_of_concluding here
      refine ⟨⟨?_, ?_⟩, ?_⟩
      · show ¬ (s.world.controller.conclude g o).2.state.isBusy
        rw [(Controller.conclude_eq current).2]
        simp [SessionState.isBusy, SessionState.isOpen, SessionState.isLate]
      · refine h.steady.clear.set here (fun j call' q _ there hclear hfree => ?_)
          fun q hq => by cases hq
        rw [← Bool.not_eq_true]
        exact fun hcleans => hclear hcleans hfree hbusy
      · rintro ⟨j, hj⟩
        rcases mem_moved.mp hj with ⟨-, hnew⟩ | hmem
        · rw [hlog] at hnew
          cases hnew
        · rcases h.cancelled ⟨j, hmem⟩ with hstate | hidle
          · obtain ⟨hne, heq⟩ | ⟨-, -, heq⟩ | ⟨-, hnot, -⟩ := s.world.controller.conclude_cases g o
            · simp [heq] at current
            · simp [heq] at current
            · exact hnot hstate
          · exact not_busy_of_idle hidle hbusy

/-- A call that turns to a stream in the step works for another update. -/
lemma others_step (h : Sole g s) (step : Step setup around s t) :
    t.All fun i _ p => p.Streaming → ∃ k ≠ g, t.WorksFor i k := by
  have hworks {i : Nat} (works : ∃ k ≠ g, s.WorksFor i k) : ∃ k ≠ g, t.WorksFor i k :=
    works.imp fun k hk => ⟨hk.1, step.extends.worksFor hk.2⟩
  refine h.others.step step ?_ (fun call _ hstreams => hstreams.elim) ?_ ?_ ?_
  · exact fun i call p _ _ hp hstreams => hworks (hp hstreams)
  · rintro i call p w p' here goes rfl hp hstreams
    rcases goes.streams_back hstreams with hold | ⟨u, hu, hmode⟩
    · exact hworks (hp hold)
    · rw [h.mode u hu] at hmode
      cases hmode
  · exact fun i call p a hp hstreams => hp (streaming_of_resume hstreams)
  · exact fun i call p hp hstreams => hp (streaming_wake.mp hstreams)

/-- A call that turns to the controller in the step works for the update from then on. -/
lemma works_step (h : Sole g s) (step : Step setup around s t)
    (same : t.world.controller.generation = s.world.controller.generation) :
    t.All fun i _ p => (∃ call, p.role = .entering call) ∨ t.WorksFor i g ∨ p.Streaming := by
  refine h.works.step step ?_ (fun call _ => .inl ⟨call, rfl⟩) ?_ ?_ ?_
  · intro i call p _ _ hp
    exact hp.imp_right (Or.imp_left step.extends.worksFor)
  · rintro i call p w p' here goes rfl hp
    rcases hp with ⟨call', hrole⟩ | hg | hstreams
    · refine (goes.begins hrole).imp_right fun ⟨e, hlog, he⟩ =>
        .inl ⟨e, mem_moved.mpr (.inl ⟨rfl, hlog⟩), ?_⟩
      rw [he]
      exact congrArg some (same.trans h.current)
    · exact .inr (.inl (step.extends.worksFor hg))
    · exact .inr (.inr (goes.streams_on hstreams (h.steady.serving i call p here)))
  · intro i call p a hp
    rw [resume_role]
    exact hp.imp_right (Or.imp_right fun hstreams => resume_streaming hstreams a)
  · intro i call p hp
    rw [wake_role]
    exact hp.imp_right (Or.imp_right streaming_wake.mpr)

/-- An update that cannot go on without a call has one. -/
lemma leans_step (h : Sole g s) (step : Step setup around s t) (leans : t.world.controller.Leans) :
    ∃ i, (t.role i).rests := by
  obtain ⟨call, -, hc, hrole⟩ | ⟨i, r, hc, hrole⟩ := step.control
  · rw [hc] at leans
    obtain ⟨j, hj⟩ := h.leans leans
    refine ⟨j, ?_⟩
    rw [hrole, Function.update_of_ne]
    · exact hj
    · rintro rfl
      simp [System.role, Role.rests] at hj
  · rcases hc.leans (h.steady.owned.fits i) (h.elsewhere i) h.mode leans with hr | ⟨hold, hnot⟩
    · exact ⟨i, by rwa [hrole, Function.update_self]⟩
    · obtain ⟨j, hj⟩ := h.leans hold
      refine ⟨j, ?_⟩
      rw [hrole, Function.update_of_ne]
      · exact hj
      · rintro rfl
        exact hnot hj

/-- An update that is given up in the step is told to be. -/
lemma givenUp_step (h : Sole g s) (step : Step setup around s t)
    (state : t.world.controller.state = .cancelled) : t.Logged (.cancelled g) := by
  obtain hquiet | ⟨i, call, p, w, st, here, goes, rfl⟩ := step.quiet_or_goes
  · exact step.extends.logged (h.givenUp (hquiet.controller ▸ state))
  · rcases goes.gives_up state with hold | hlog
    · exact step.extends.logged (h.givenUp hold)
    · exact ⟨i, mem_moved.mpr (.inl ⟨rfl, h.current ▸ hlog⟩)⟩

/-- The update keeps the controller to itself until the next one is accepted. -/
theorem step (h : Sole g s) (step : Step setup around s t)
    (same : t.world.controller.generation = s.world.controller.generation)
    (unstreamed : ¬ t.Streamed g) : Sole g t where
  traced := h.traced.step step
  steady := h.steady.step step (patient_of_same same) fun i => (h.elsewhere i).not_disturbs
  consistent := by
    obtain ⟨call, -, hc, -⟩ | ⟨i, r, hc, -⟩ := step.control
    · rw [hc]
      exact h.consistent
    · exact hc.consistent (h.steady.owned.fits i) (h.elsewhere i).settled h.consistent
  current := same.trans h.current
  unstreamed := unstreamed
  others := h.others_step step
  works := h.works_step step same
  leans := h.leans_step step
  givenUp := h.givenUp_step step
  cancelled := h.cancelled_step step same
  recorded _ := h.recorded_step step same

end Sole

end Session

end DeviceUpdate
