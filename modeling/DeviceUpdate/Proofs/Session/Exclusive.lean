import DeviceUpdate.Proofs.Session.Discipline
import DeviceUpdate.Proofs.Session.Ledger
import DeviceUpdate.Proofs.Session.Replay

/-!
# Staged updates exclude each other

If nothing streams, the call that finishes an update has the controller to itself, however all
calls overlap, chunks included. Each update is finished by one call and installed once, and one
restart is scheduled in the life of a controller. After it no update begins, and none is installed.
-/

namespace DeviceUpdate

/-- Only an install does this: it gives a package to the installer tool or to the recovery writer,
or makes the recovery system look at it. -/
def Effect.OfInstall (e : Effect) : Prop :=
  (∃ package, e.Installs package ∨ e.HandsOver package) ∨ e.Requests

/-- Four commands are of an install. -/
lemma Effect.ofInstall_iff {e : Effect} : e.OfInstall ↔
    (∃ package, e = .run (Install.installer package)) ∨ (∃ package, e = .writeRecovery package) ∨
      (∃ package timeout, e =
        .run ⟨"fw_setenv", ["recovery_command", "--update_package=" ++ package], some timeout⟩) ∨
      ∃ timeout, e = .run ⟨"fw_setenv", ["boot_recovery", "yes"], timeout⟩ := by
  simp only [Effect.OfInstall, Effect.Installs, Effect.HandsOver, Effect.Requests, exists_or]
  grind

namespace Session

variable {σ : Type} {setup : Setup} {around : Surroundings σ} {s t : System σ}

/-! ### Without streams -/

/-- There is no streaming engine, or it is not to be used. -/
def NeverStreams (setup : Setup) : Prop :=
  setup.engine = false ∨ setup.config.onTheFly = false

lemma NeverStreams.not_mayStream (never : NeverStreams setup) (target : Target) :
    mayStream setup target = false := by
  rcases never with hengine | honTheFly
  · simp [mayStream, hengine]
  · simp [mayStream, honTheFly]

/-- The call has to do with a stream, or can still come to. -/
def Point.streams : Point → Prop
  | .choosing _ _ _ _ _ | .preparing _ _ _ | .starting _ _ _ _ => True
  | .settling _ _ delivery => delivery.mode = .streaming
  | .pushing _ _ _ _ _ | .pushFailed _ _ | .judging _ _ _ _ => True
  | .concluding _ outcome _ _ => outcome.mode = .streaming
  | _ => False

lemma Point.streams_of_role {p : Point} (h : p.role.streams) : p.streams := by
  cases p with
  | pushing | pushFailed | judging => trivial
  | concluding g outcome result otherwise =>
    cases hm : outcome.mode <;> simp_all [Point.role, Role.ofOutcome, Role.streams, Point.streams]
  | stopping stream rest release reply => cases release <;> exact h.elim
  | _ => exact h.elim

/-- Without streams no call comes to one. -/
lemma Goes.not_streams {w w' : World} {p p' : Point} (never : NeverStreams setup)
    (h : Goes setup w p w' (.running p')) (hp : ¬ p.streams)
    (staged : w.controller.inMode .staged) : ¬ p'.streams := by
  generalize hst : Status.running p' = st at h
  cases h with
  | request h =>
    cases h with
    | refused code => cases hst
    | accepted known name free goes =>
      cases hst
      rcases goes with ⟨hmay, -⟩ | rfl
      · simp [never.not_mayStream] at hmay
      · exact id
  | data h =>
    cases h with
    | finished takes delivery write final synced =>
      generalize ActiveUpdate.target _ = target at hst
      cases target <;> cases hst <;> exact id
    | @pushed u stream takes delivery =>
      have hmode := staged u takes.active
      simp [delivery, Delivery.mode] at hmode
    | failed code takes delivery kept =>
      cases hst
      exact id
    | _ => cases hst
  | cancel h => cases h <;> cases hst <;> exact id
  | reset h =>
    cases h with
    | refused decision unscheduled => cases hst
    | begun done path =>
      generalize w.controller.outcome = outcome at path
      cases hst
      cases path <;> exact id
  | inside wraps h => cases wraps <;> cases hst <;> exact hp
  | created create =>
    cases hst
    simp [Point.streams, Delivery.mode]
  | judged => exact absurd trivial hp
  | _ => cases hst <;> first | exact hp | exact id | simp [Point.streams, stagedOutcome]

/-- Without streams every delivery is a file. -/
lemma Goes.inMode_staged {w w' : World} {p : Point} {st : Status} (h : Goes setup w p w' st)
    (hp : ¬ p.streams) (staged : w.controller.inMode .staged) : w'.controller.inMode .staged := by
  intro u hu
  obtain ⟨-, ⟨v, hv, -, hclosed⟩ | ⟨g, rfl, -⟩⟩ := h.active_back hu
  · rw [← Delivery.mode_closed, ← hclosed, Delivery.mode_closed]
    exact staged v hv
  · cases hm : u.delivery.mode with
    | staged => rfl
    | streaming => exact absurd hm hp

/-- Nothing streams, and the update rests on one call. -/
structure Streamless (s : System σ) : Prop where
  owned : Owned s.world.controller s.role
  delivery : s.world.controller.inMode .staged
  points : s.All fun _ _ p => ¬ p.streams

lemma streamless_fresh (w : World) (d : σ) (hw : w.controller = {}) :
    Streamless (System.fresh w d) := by
  refine ⟨(orderly_fresh w d).owned, ?_, System.all_fresh w d⟩
  intro u hu
  simp [System.fresh, hw] at hu

lemma Streamless.role (h : Streamless s) (i : Nat) : ¬ (s.role i).streams := by
  intro hi
  unfold System.role at hi
  split at hi
  · rename_i thread here
    obtain ⟨call, p | reply⟩ := thread
    · exact h.points i call p here (Point.streams_of_role hi)
    · exact hi
  · exact hi

theorem Streamless.step (never : NeverStreams setup) (h : Streamless s)
    (step : Step setup around s t) : Streamless t := by
  refine ⟨step.owned h.owned ?_, ?_, ?_⟩
  · rintro i call p ⟨here, -⟩ -
    have hrole := h.role i
    rw [role_of_getElem? here] at hrole
    exact Role.not_disturbs hrole
  · obtain hquiet | ⟨i, call, p, w, st, here, goes, rfl⟩ := step.quiet_or_goes
    · rw [hquiet.controller]
      exact h.delivery
    · exact goes.inMode_staged (h.points i call p here) h.delivery
  · refine h.points.step step (fun _ _ _ _ _ hp => hp) (fun _ _ => id) ?_ ?_ ?_
    · intro i call p w p' _ goes _ hp
      exact goes.not_streams never hp h.delivery
    · intro i call p a hp
      cases p with
      | starting => exact absurd trivial hp
      | _ => exact hp
    · intro i call p hp
      cases p <;> exact hp

/-! ### The end of a staged update -/

/-- The update that a call finishes, and how far it is: it has to assemble the package, to remove
the manifest, to decide on the install, or none of them any more. -/
def Point.finish? : Point → Option (Nat × Nat)
  | .assembling g _ _ => some (g, 0)
  | .removingManifest g _ _ _ => some (g, 1)
  | .checking g _ _ => some (g, 2)
  | .dropping g _ _ | .installing g _ _ _ | .installed g _ _ _ => some (g, 3)
  | .concluding g ⟨_, .staged, _⟩ _ _ => some (g, 3)
  | _ => none

lemma role_of_finish {p : Point} {g n : Nat} (h : p.finish? = some (g, n)) :
    ∃ stage, p.role = .staged g stage := by
  cases p with
  | assembling | removingManifest | checking | dropping | installing | installed =>
    obtain ⟨rfl, -⟩ := by simpa [Point.finish?] using h
    exact ⟨_, rfl⟩
  | concluding g' outcome result otherwise =>
    obtain ⟨target, mode, success⟩ := outcome
    cases mode with
    | staged =>
      obtain ⟨rfl, -⟩ := by simpa [Point.finish?] using h
      exact ⟨_, rfl⟩
    | streaming => simp [Point.finish?] at h
  | _ => simp [Point.finish?] at h

@[simp] lemma resume_finish (p : Point) (a : Answer) : (p.resume a).finish? = p.finish? := by
  cases p with
  | starting g target stream request => cases a <;> rfl
  | _ => rfl

@[simp] lemma wake_finish (p : Point) : p.wake.finish? = p.finish? := by
  cases p <;> rfl

/-- A call that finishes an update did so before and goes forward, or has just brought the final
chunk. -/
lemma Goes.finish {w w' : World} {p p' : Point} {g n : Nat}
    (h : Goes setup w p w' (.running p')) (finishes : p'.finish? = some (g, n)) :
    (∃ m ≤ n, p.finish? = some (g, m)) ∨
      w.controller.state.isOpen ∧ w.controller.generation = g := by
  generalize hst : Status.running p' = st at h
  cases h with
  | request h =>
    cases h with
    | refused code => cases hst
    | accepted known name free goes =>
      cases hst
      obtain ⟨-, rfl⟩ | rfl := goes <;> simp [Point.finish?] at finishes
  | data h =>
    cases h with
    | finished takes delivery write final synced =>
      right
      refine ⟨takes.open_, ?_⟩
      generalize ActiveUpdate.target _ = target at hst
      cases target <;> cases hst <;> exact (by simpa [Point.finish?] using finishes : _ ∧ _).1
    | _ =>
      cases hst
      all_goals simp [Point.finish?] at finishes
  | cancel h =>
    cases h <;> cases hst
    all_goals simp [Point.finish?] at finishes
  | reset h =>
    cases h with
    | refused decision unscheduled => cases hst
    | begun done path =>
      generalize w.controller.outcome = outcome at path
      cases hst
      cases path <;> simp [Point.finish?] at finishes
  | inside wraps h => cases wraps <;> cases hst <;> exact .inl ⟨n, Nat.le_refl n, finishes⟩
  | _ =>
    cases hst
    all_goals
      simp only [Point.finish?, stagedOutcome, Option.some.injEq, Prod.mk.injEq,
        reduceCtorEq] at finishes
    all_goals
      obtain ⟨rfl, rfl⟩ := finishes
      exact .inl ⟨_, by omega, rfl⟩

/-- The call `i` finishes this update, and is this far. -/
def System.Finishes (s : System σ) (i g n : Nat) : Prop :=
  ∃ p, s.point? i = some p ∧ p.finish? = some (g, n)

lemma point?_eq_some {i : Nat} {p : Point} :
    s.point? i = some p ↔ ∃ call, s.threads[i]? = some ⟨call, .running p⟩ := by
  unfold System.point?
  split
  · rename_i call q here
    simp [here]
  · rename_i hother
    constructor
    · intro h
      cases h
    · rintro ⟨call, here⟩
      exact absurd here (hother call p)

lemma role_of_point? {i : Nat} {p : Point} (h : s.point? i = some p) : s.role i = p.role := by
  obtain ⟨call, here⟩ := point?_eq_some.mp h
  exact role_of_getElem? here

/-- The update that a call finishes is current, takes no chunks any more, and rests on that call. -/
lemma Streamless.finishes (h : Streamless s) {i g n : Nat} (hi : s.Finishes i g n) :
    s.world.controller.generation = g ∧
      (s.world.controller.state.isLate ∨ s.world.controller.state = .cancelled) ∧
        ∀ j g' m, s.Finishes j g' m → j = i := by
  obtain ⟨p, hp, hfinish⟩ := hi
  obtain ⟨stage, hrole⟩ := role_of_finish hfinish
  have hi : s.role i = .staged g stage := by rw [role_of_point? hp, hrole]
  have hfits := h.owned.fits i
  rw [hi] at hfits
  obtain ⟨hgeneration, hstate, -⟩ := hfits
  refine ⟨hgeneration, hstate.imp_left ?_, ?_⟩
  · intro hcovers
    cases stage with
    | assembling => exact .inl hcovers
    | installing => exact .inr hcovers
    | ending => exact hcovers
  · rintro j g' m ⟨q, hq, hfinish'⟩
    obtain ⟨stage', hrole'⟩ := role_of_finish hfinish'
    by_contra hne
    have hclash := h.owned.apart j i hne
    rw [hi, role_of_point? hq, hrole'] at hclash
    exact hclash trivial

/-- A call that finishes an update after a step did so before and goes forward, or the update took
chunks until now. -/
lemma Step.finishes (step : Step setup around s t) {i g n : Nat} (hi : t.Finishes i g n) :
    (∃ m ≤ n, s.Finishes i g m) ∨
      s.world.controller.state.isOpen ∧ s.world.controller.generation = g := by
  obtain ⟨p', hp', hfinish⟩ := hi
  obtain ⟨call, here⟩ := point?_eq_some.mp hp'
  have hall : s.All fun _ _ _ => True := fun _ _ _ _ => trivial
  have hback : t.All fun i _ p' => p'.finish? = some (g, n) → (∃ m ≤ n, s.Finishes i g m) ∨
      s.world.controller.state.isOpen ∧ s.world.controller.generation = g := by
    refine hall.step step ?_ ?_ ?_ ?_ ?_
    · intro i call p here _ _ hp
      exact .inl ⟨n, Nat.le_refl n, p, point?_eq_some.mpr ⟨call, here⟩, hp⟩
    · intro call _ hp
      simp [Point.finish?] at hp
    · intro i call p w p' here goes _ _ hp
      refine (goes.finish hp).imp_left ?_
      rintro ⟨m, hm, hfinish⟩
      exact ⟨m, hm, p, point?_eq_some.mpr ⟨call, here⟩, hfinish⟩
    · intro i call p a hp hfinish
      exact hp (by rwa [resume_finish] at hfinish)
    · intro i call p hp hfinish
      exact hp (by rwa [wake_finish] at hfinish)
  exact hback i call p' here hfinish

/-! ### What happens once -/

/-- No run has two such steps. -/
def Once (setup : Setup) (around : Surroundings σ) (start : System σ)
    (P : System σ → System σ → Prop) : Prop :=
  ∀ s t u v, Run setup around start s → Step setup around s t → P s t → Run setup around t u →
    Step setup around u v → ¬ P u v

lemma Once.mono {start : System σ} {P Q : System σ → System σ → Prop}
    (h : Once setup around start Q) (sub : ∀ s t, P s t → Q s t) :
    Once setup around start P :=
  fun s t u v before step hp between step' hp' =>
    h s t u v before step (sub s t hp) between step' (sub u v hp')

/-- A step happens once if it brings about what excludes it, and no step ends. -/
lemma once_of_excluded {start : System σ} {P : System σ → System σ → Prop}
    {Inv Excluded : System σ → Prop} (first : Inv start)
    (keeps : ∀ {u v}, Inv u → Step setup around u v → Inv v)
    (brings : ∀ {u v}, Inv v → P u v → Excluded v)
    (stays : ∀ {u v}, Inv u → Excluded u → Step setup around u v → Excluded v)
    (excludes : ∀ {u v}, Excluded u → Step setup around u v → ¬ P u v) :
    Once setup around start P := by
  intro s t u v before step hp between step'
  have ht : Inv t := keeps (before.keeps first keeps) step
  have hu : Inv u ∧ Excluded u :=
    between.keeps (P := fun x => Inv x ∧ Excluded x) ⟨ht, brings ht hp⟩
      fun hx hstep => ⟨keeps hx.1 hstep, stays hx.1 hx.2 hstep⟩
  exact excludes hu.2 step'

/-- A call gets at least this far with the update, which it was not before. -/
def Gets (g n : Nat) (s t : System σ) : Prop :=
  ∃ i m, n ≤ m ∧ t.Finishes i g m ∧ ∀ k, s.Finishes i g k → k < n

/-- The update takes no chunks any more, and no call is less far with it. -/
structure Past (g n : Nat) (s : System σ) : Prop where
  known : g ≤ s.world.controller.generation
  closed : s.world.controller.generation = g → ¬ s.world.controller.state.isOpen
  reached : ∀ i m, s.Finishes i g m → n ≤ m

lemma Streamless.past (h : Streamless t) {g n : Nat} (gets : Gets g n s t) : Past g n t := by
  obtain ⟨i, m, hm, hi, -⟩ := gets
  obtain ⟨hgeneration, hstate, hsingle⟩ := h.finishes hi
  refine ⟨Nat.le_of_eq hgeneration.symm, fun _ => ?_, ?_⟩
  · rintro (hopen | hopen) <;> simp [SessionState.isLate, hopen] at hstate
  · intro j k hj
    obtain rfl := hsingle j g k hj
    obtain ⟨p, hp, hfinish⟩ := hi
    obtain ⟨q, hq, hfinish'⟩ := hj
    obtain rfl := Option.some.inj (hp.symm.trans hq)
    obtain ⟨-, rfl⟩ := Prod.mk.inj (Option.some.inj (hfinish.symm.trans hfinish'))
    exact hm

/-- An update that takes no chunks never takes one again. -/
lemma Control.stays_closed {c c' : Controller} {r r' : Role} (h : Control r c r' c')
    (closed : ¬ c.state.isOpen) : c'.generation = c.generation → ¬ c'.state.isOpen := by
  intro hsame
  cases h with
  | accept free => exact absurd hsame (Nat.succ_ne_self _)
  | receive open_ update target mode => exact absurd open_ closed
  | setupFailed => grind [Controller.releaseIfCurrent, Controller.release, SessionState.isOpen]
  | released => grind [Controller.releaseIfCurrent, Controller.release, SessionState.isOpen]
  | conclude outcome => grind [Controller.conclude, Controller.release, SessionState.isOpen]
  | pushFailed => grind [Controller.release, SessionState.isOpen]
  | @resetEnd scheduled c => cases scheduled <;> simp [SessionState.isOpen]
  | settle | giveUp | end_ | stay | refuse | pushed => exact closed
  | _ => simp [SessionState.isOpen, Controller.release]

lemma Past.step {g n : Nat} (h : Past g n s) (step : Step setup around s t) : Past g n t := by
  have hopen : ¬ (s.world.controller.state.isOpen ∧ s.world.controller.generation = g) :=
    fun hnow => h.closed hnow.2 hnow.1
  obtain ⟨call, -, hc, -⟩ | ⟨i, r, hc, -⟩ := step.control
  · refine ⟨hc ▸ h.known, hc ▸ h.closed, fun j m hj => ?_⟩
    obtain ⟨k, hk, hold⟩ := (step.finishes hj).resolve_right hopen
    exact Nat.le_trans (h.reached j k hold) hk
  · have hgen := hc.generation_cases
    have hknown := h.known
    refine ⟨by omega, fun hg => ?_, fun j m hj => ?_⟩
    · have hsame : t.world.controller.generation = s.world.controller.generation := by omega
      exact hc.stays_closed (h.closed (by omega)) hsame
    · obtain ⟨k, hk, hold⟩ := (step.finishes hj).resolve_right hopen
      exact Nat.le_trans (h.reached j k hold) hk

lemma Past.excludes {g n : Nat} (h : Past g n s) (step : Step setup around s t) :
    ¬ Gets g n s t := by
  rintro ⟨i, m, -, hi, hbefore⟩
  rcases step.finishes hi with ⟨k, -, hold⟩ | ⟨hopen, hg⟩
  · have := h.reached i k hold
    have := hbefore k hold
    omega
  · exact h.closed hg hopen

/-- Each update gets only once as far as this. -/
lemma once_gets (never : NeverStreams setup) {start : System σ} (first : Streamless start)
    (g n : Nat) : Once setup around start (Gets g n) :=
  once_of_excluded first (fun hu step => hu.step never step) (fun hv gets => hv.past gets)
    (fun _ past step => past.step step) (fun past step => past.excludes step)

/-! ### The commands of an install -/

/-- The call performs no command of an install unless it installs a package. -/
def Point.Abstains : Point → Prop
  | .installing _ _ _ _ => True
  | p => p.Only fun e => ¬ e.OfInstall

def Status.Abstains : Status → Prop
  | .running p => p.Abstains
  | .returned _ => True

lemma Goes.abstains {w w' : World} {p : Point} {st : Status} (h : Goes setup w p w' st)
    (hp : p.Abstains) : st.Abstains := by
  have hquery (timeout : Duration) : ¬ Effect.OfInstall (.run (BootLayout.query timeout)) := by
    simp [Effect.ofInstall_iff, BootLayout.query, Install.installer]
  cases h with
  | request h =>
    cases h with
    | refused code => trivial
    | accepted known name free goes =>
      obtain ⟨-, rfl⟩ | rfl := goes
      · exact .bootLayout
      · trivial
  | data h =>
    cases h with
    | finished takes delivery write final synced =>
      generalize ActiveUpdate.target _ = target
      cases target <;> trivial
    | _ => trivial
  | cancel h => cases h <;> trivial
  | reset h =>
    cases h with
    | refused decision unscheduled => trivial
    | begun done path =>
      generalize w.controller.outcome = outcome at path
      cases path with
      | refused => trivial
      | swap same success mode =>
        refine .bind (.runExpecting ?_) fun _ => .done _
        simp [Effect.ofInstall_iff, Install.installer, StreamPreparation.tool]
      | plan same success mode => exact .bootLayout
  | bootLayout => exact .bootLayout
  | inside wraps hmove =>
    cases wraps with
    | installing => trivial
    | _ => exact Procedure.Only.step hp hquery hmove
  | chosenDual =>
    exact StreamPreparation.prepare_only _
      (by simp [Effect.ofInstall_iff, Install.installer, StreamPreparation.tool])
      (by simp [Effect.ofInstall_iff, Install.installer, StreamPreparation.unmount])
  | takenBack lost =>
    exact Install.withdraw_only _ (by simp [Effect.ofInstall_iff, Install.installer])
      (by simp [Effect.ofInstall_iff])
  | swapped => exact .bootLayout
  | _ => trivial

lemma Point.Abstains.resume {p : Point} (h : p.Abstains) (a : Answer) : (p.resume a).Abstains := by
  cases p with
  | starting g target stream request => cases a <;> trivial
  | choosing | preparing | withdrawing | swapping | planning | asking =>
    exact Procedure.Only.resume h a
  | _ => trivial

/-- Only calls that install a package perform commands of an install. -/
def System.Abstains (s : System σ) : Prop := s.All fun _ _ p => p.Abstains

lemma Step.abstains (step : Step setup around s t) (h : s.Abstains) : t.Abstains :=
  h.step step (fun _ _ _ _ _ hp => hp) (fun _ _ => trivial)
    (fun _ _ _ _ _ _ goes _ hp => goes.abstains hp) (fun _ _ _ a hp => hp.resume a)
    (fun _ _ p hp => by cases p <;> exact hp)

/-- A call that asks for a command of an install installs a package. -/
lemma Asks.installing_of_ofInstall {w : World} {p : Point} {e : Effect} (asks : Asks w p e)
    (abstains : p.Abstains) (he : e.OfInstall) :
    ∃ g target package rest, p = .installing g target package rest := by
  cases asks with
  | inside wraps hasks =>
    cases wraps with
    | installing => exact ⟨_, _, _, _, rfl⟩
    | _ => exact absurd he (Procedure.Only.effect abstains hasks)
  | _ => simp [Effect.ofInstall_iff] at he

/-- A call performs the effect in the step. -/
def CarriesOut (e : Effect) (s t : System σ) : Prop :=
  ∃ i a, t.history = (i, .performed e a) :: s.history

lemma Step.asks_of_carriesOut (step : Step setup around s t) {e : Effect}
    (carries : CarriesOut e s t) : ∃ i p, s.point? i = some p ∧ Asks s.world p e := by
  obtain ⟨i, a, now⟩ := carries
  cases step with
  | @move k call p w st here goes =>
    have hlog : ((Event.of? s.world p w st).map (k, ·)).toList = [(i, .performed e a)] :=
      List.append_cancel_right now
    obtain ⟨f, hf, heq⟩ :
        ∃ f, Event.of? s.world p w st = some f ∧ (k, f) = (i, .performed e a) := by
      simpa using hlog
    cases heq
    cases (goes_of_move goes).tells hf
  | @answer k call p f b device files here asks gets =>
    obtain ⟨rfl, hnow⟩ := Prod.mk.inj (List.head_eq_of_cons_eq now)
    obtain ⟨rfl, -⟩ := Event.performed.inj hnow
    exact ⟨_, p, point?_eq_some.mpr ⟨call, here⟩, asks_of_move asks⟩
  | _ => exact absurd (congrArg List.length now) (by simp [System.start])

/-! ### The restart -/

/-- A reset schedules a restart. -/
def Schedules (s t : System σ) : Prop :=
  ∃ i plan, s.point? i = some (.scheduling plan) ∧ t.point? i = some (.resetting true)

/-- A restart is scheduled. -/
structure Scheduled (s : System σ) : Prop where
  state : s.world.controller.state = .resetDecision ∨ s.world.controller.state = .rebooting
  /-- the reset under way, if it is not over, is the one that scheduled it -/
  resets : s.All fun _ _ p => p.role = .reset → p = .resetting true

lemma Streamless.scheduled (h : Streamless t) (schedules : Schedules s t) : Scheduled t := by
  obtain ⟨i, plan, -, hi⟩ := schedules
  have hrole : t.role i = .reset := role_of_point? hi
  have hfits := h.owned.fits i
  rw [hrole] at hfits
  refine ⟨.inl hfits, fun j call p here hreset => ?_⟩
  by_cases hj : j = i
  · subst hj
    exact Option.some.inj ((point?_eq_some.mpr ⟨call, here⟩).symm.trans hi)
  · have hclash := h.owned.apart j i hj
    rw [hrole, role_of_getElem? here] at hclash
    exact absurd (by rw [show Status.role (.running p) = .reset from hreset]; trivial) hclash

/-- Nobody but the reset changes the state while a reset decides, or after it scheduled a
restart. -/
lemma Control.stays_scheduled {c c' : Controller} {r r' : Role} (h : Control r c r' c')
    (fits : r.Fits c) (staged : ¬ r.streams) (other : r ≠ .reset)
    (state : c.state = .resetDecision ∨ c.state = .rebooting) :
    c'.state = c.state ∧ r' ≠ .reset := by
  cases h with
  | stay => exact ⟨rfl, other⟩
  | accept free => grind [Controller.accepts]
  | setupFailed => grind [Role.Fits]
  | released => grind [Role.Fits]
  | @receive number offset chunk last u v c open_ update target mode =>
    grind [SessionState.isOpen]
  | writeFailed open_ update mode => grind [SessionState.isOpen]
  | pushFailed => exact absurd trivial staged
  | install owner => grind [Role.Fits, Stage.covers]
  | @conclude g c outcome =>
    cases hm : outcome.mode with
    | streaming => simp [hm, Role.ofOutcome, Role.streams] at staged
    | staged => grind [Role.ofOutcome, Role.Fits, Stage.covers]
  | cancelSetup open_ none => grind [SessionState.isOpen]
  | cancelActive open_ update => grind [SessionState.isOpen]
  | cancelEnd late => grind [SessionState.isLate]
  | resetBegin done => grind
  | resetEnd => exact absurd rfl other
  | _ => exact ⟨rfl, by simp⟩

/-- A call that goes on leaves it at that, and is no reset that goes on. -/
lemma Scheduled.goes (streamless : Streamless s) (h : Scheduled s) {i : Nat} {call : Call}
    {p : Point} {w : World} {st : Status} (here : s.threads[i]? = some ⟨call, .running p⟩)
    (goes : Goes setup s.world p w st) :
    (w.controller.state = .resetDecision ∨ w.controller.state = .rebooting) ∧
      st.role ≠ .reset := by
  by_cases hreset : p.role = .reset
  · obtain rfl := h.resets i call p here hreset
    generalize hp : Point.resetting true = p at goes
    cases goes with
    | inside wraps h => cases wraps <;> cases hp
    | resetDone =>
      cases hp
      exact ⟨.inr rfl, by simp [Status.role]⟩
    | _ => cases hp
  · have hrole : s.role i = p.role := role_of_getElem? here
    have hfits := streamless.owned.fits i
    have hstaged := streamless.role i
    rw [hrole] at hfits hstaged
    obtain ⟨hstate, hother⟩ := goes.control.stays_scheduled hfits hstaged hreset h.state
    exact ⟨by rw [hstate]; exact h.state, hother⟩

lemma Scheduled.step (streamless : Streamless s) (h : Scheduled s)
    (step : Step setup around s t) : Scheduled t := by
  refine ⟨?_, ?_⟩
  · obtain hquiet | ⟨i, call, p, w, st, here, goes, rfl⟩ := step.quiet_or_goes
    · rw [hquiet.controller]
      exact h.state
    · exact (h.goes streamless here goes).1
  · refine h.resets.step step (fun _ _ _ _ _ hp => hp) ?_ ?_ ?_ ?_
    · intro call _ hreset
      cases hreset
    · intro i call p w p' here goes _ _ hreset
      exact absurd hreset (h.goes streamless here goes).2
    · intro i call p a hp hreset
      rw [hp (by rwa [resume_role] at hreset)]
      rfl
    · intro i call p hp hreset
      rw [hp (by rwa [wake_role] at hreset)]
      rfl

lemma Scheduled.excludes (h : Scheduled s) : ¬ Schedules s t := by
  rintro ⟨i, plan, hi, -⟩
  obtain ⟨call, here⟩ := point?_eq_some.mp hi
  have hresetting := h.resets i call _ here rfl
  cases hresetting

/-- No request is accepted any more, no call finishes an update, and no command of an install is
performed. What takes a cancelled install back is no such command: a call that was about to do so
may still do it. -/
structure Retired (setup : Setup) (around : Surroundings σ) (s : System σ) : Prop where
  refuses : ∀ number file size, ∃ code,
    enterRequest setup s.world number file size = .reply s.world (.request (.error code))
  finished : ∀ i g n, ¬ s.Finishes i g n
  commands : ∀ t e, Step setup around s t → CarriesOut e s t → ¬ e.OfInstall

lemma refused_of_busy {w : World} (busy : w.controller.accepts = false) (number : Nat)
    (file : String) (size : Nat) : ∃ code,
      enterRequest setup w number file size = .reply w (.request (.error code)) := by
  unfold enterRequest
  cases Target.ofNumber? number with
  | none => exact ⟨_, rfl⟩
  | some target =>
    dsimp only
    split
    · exact ⟨_, rfl⟩
    · rw [if_pos (by simp [busy])]
      exact ⟨_, rfl⟩

lemma Scheduled.retired (streamless : Streamless s) (abstains : s.Abstains) (h : Scheduled s) :
    Retired setup around s := by
  have hfinished (i g n : Nat) : ¬ s.Finishes i g n := by
    intro hi
    obtain ⟨-, hfinish, -⟩ := streamless.finishes hi
    rcases h.state with hstate | hstate <;> simp [SessionState.isLate, hstate] at hfinish
  refine ⟨refused_of_busy ?_, hfinished, fun t e step carries he => ?_⟩
  · rcases h.state with hstate | hstate <;> simp [Controller.accepts, hstate]
  · obtain ⟨i, p, hp, asks⟩ := step.asks_of_carriesOut carries
    obtain ⟨call, here⟩ := point?_eq_some.mp hp
    obtain ⟨g, target, package, rest, rfl⟩ :=
      asks.installing_of_ofInstall (abstains i call p here) he
    exact hfinished i g 3 ⟨_, hp, rfl⟩

/-! ### All together -/

/-- A call begins to finish the update: it has written the final chunk. -/
def Enters (g : Nat) (s t : System σ) : Prop :=
  ∃ i n, t.Finishes i g n ∧ ∀ m, ¬ s.Finishes i g m

/-- The package of the update is assembled. -/
def Assembles (g : Nat) (s t : System σ) : Prop :=
  ∃ i target manifest result, s.point? i = some (.assembling g target manifest) ∧
    t.point? i = some (.removingManifest g target manifest result)

/-- The package of the update goes to the install. -/
def Installs (g : Nat) (s t : System σ) : Prop :=
  ∃ i target package rest, s.point? i = some (.checking g target package) ∧
    t.point? i = some (.installing g target package rest)

lemma Enters.gets {g : Nat} (h : Enters g s t) : Gets g 0 s t := by
  obtain ⟨i, n, hi, hbefore⟩ := h
  exact ⟨i, n, Nat.zero_le n, hi, fun k hk => absurd hk (hbefore k)⟩

/-- A call that goes from one point to another gets further with the update. -/
lemma gets_of_points {i g m n : Nat} {p q : Point} (hp : s.point? i = some p)
    (hq : t.point? i = some q) (before : p.finish? = some (g, m)) (after : q.finish? = some (g, n))
    (further : m < n) : Gets g n s t := by
  refine ⟨i, n, Nat.le_refl n, ⟨q, hq, after⟩, ?_⟩
  rintro k ⟨p', hp', hk⟩
  obtain rfl := Option.some.inj (hp.symm.trans hp')
  obtain ⟨-, rfl⟩ := Prod.mk.inj (Option.some.inj (before.symm.trans hk))
  exact further

lemma Assembles.gets {g : Nat} (h : Assembles g s t) : Gets g 1 s t := by
  obtain ⟨i, target, manifest, result, hs, ht⟩ := h
  exact gets_of_points hs ht rfl rfl (by decide)

lemma Installs.gets {g : Nat} (h : Installs g s t) : Gets g 3 s t := by
  obtain ⟨i, target, package, rest, hs, ht⟩ := h
  exact gets_of_points hs ht rfl rfl (by decide)

/-- If nothing streams, however all calls overlap: only one call at a time finishes an update; each
update is finished by one call, assembled once and installed once; and one restart is scheduled,
after which no request is accepted, nothing is installed, and no command of an install is
performed. -/
theorem staged_updates_exclusive {files : FileSystem} {layout : Option BootLayout} {w : World}
    {d : σ} (built : setup.build files layout = .ok w) (never : NeverStreams setup) :
    (∀ s, Run setup around (System.fresh w d) s →
      ∀ i j g g' m n, s.Finishes i g m → s.Finishes j g' n → i = j) ∧
    (∀ g, Once setup around (System.fresh w d) (Enters g)) ∧
    (∀ g, Once setup around (System.fresh w d) (Assembles g)) ∧
    (∀ g, Once setup around (System.fresh w d) (Installs g)) ∧
    Once setup around (System.fresh w d) Schedules ∧
    ∀ s t u, Run setup around (System.fresh w d) s → Step setup around s t → Schedules s t →
      Run setup around t u → Retired setup around u := by
  have hfirst : Streamless (System.fresh w d) := streamless_fresh w d (build_controller built)
  have hstep {u v : System σ} (hu : Streamless u) (step : Step setup around u v) :
      Streamless v := hu.step never step
  have hgets (g n : Nat) : Once setup around (System.fresh w d) (Gets g n) :=
    once_gets never hfirst g n
  refine ⟨?_, ?_, ?_, ?_, ?_, ?_⟩
  · intro s run i j g g' m n hi hj
    exact ((run.keeps hfirst hstep).finishes hj).2.2 i g m hi
  · exact fun g => (hgets g 0).mono fun _ _ h => h.gets
  · exact fun g => (hgets g 1).mono fun _ _ h => h.gets
  · exact fun g => (hgets g 3).mono fun _ _ h => h.gets
  · exact once_of_excluded hfirst hstep (fun hv schedules => hv.scheduled schedules)
      (fun hu scheduled step => scheduled.step hu step) fun scheduled _ => scheduled.excludes
  · intro s t u before step schedules after
    have ht : Streamless t := hstep (before.keeps hfirst hstep) step
    have hu : Streamless u ∧ Scheduled u :=
      after.keeps (P := fun x => Streamless x ∧ Scheduled x) ⟨ht, ht.scheduled schedules⟩
        fun hx step => ⟨hstep hx.1 step, hx.2.step hx.1 step⟩
    have hrun : Run setup around (System.fresh w d) u := (before.tail step).trans after
    have habstains : u.Abstains :=
      hrun.keeps (System.all_fresh w d) fun hx step => step.abstains hx
    exact hu.2.retired hu.1 habstains

/-- Two calls bring the final chunk, the first of them installs it, and a reset is about to schedule
a restart. -/
def Small.resetInstalled : List Choice :=
  [.start (.request 0 "image.swu" 1), .go 0, .go 0, .go 0, .go 0,
    .start (.data 0 0 [7] true), .start (.data 0 0 [7] true), .go 1, .go 2,
    .go 1, .go 1, .go 1, .go 1, .go 1, .go 1,
    .start (.reset 0 ⟨1, 0, 0, 0⟩), .go 3, .go 3, .go 3]

def Small.beforeRestart : System Unit :=
  (Small.freely? (Small.fresh .dual) Small.resetInstalled).getD (Small.fresh .dual)

def Small.afterRestart : System Unit :=
  (Small.beforeRestart.go? Small.setup Small.answers 3).getD (Small.fresh .dual)

theorem scheduled_restart_is_last :
    Schedules Small.beforeRestart Small.afterRestart ∧
      (∀ u v, Run Small.setup (.free Small.answers) Small.afterRestart u →
        Step Small.setup (.free Small.answers) u v → ¬ Schedules u v) ∧
      ∀ u, Run Small.setup (.free Small.answers) Small.afterRestart u →
        Retired Small.setup (.free Small.answers) u := by
  have hbuilt : Small.setup.build Small.files (some .dual) = .ok (Small.world .dual) := rfl
  have hrun : Run Small.setup (.free Small.answers) (Small.fresh .dual) Small.beforeRestart :=
    Small.run_of_freely
      (rfl : Small.freely? (Small.fresh .dual) Small.resetInstalled = some Small.beforeRestart)
  have hstep : Step Small.setup (.free Small.answers) Small.beforeRestart Small.afterRestart :=
    step_of_go (allows_free Small.answers).answers
      (rfl : Small.beforeRestart.go? Small.setup Small.answers 3 = some Small.afterRestart)
  have hschedules : Schedules Small.beforeRestart Small.afterRestart := ⟨3, .direct, rfl, rfl⟩
  obtain ⟨-, -, -, -, honce, hretired⟩ :=
    staged_updates_exclusive (d := ()) hbuilt (.inl rfl)
  exact ⟨hschedules, fun u v after step => honce _ _ u v hrun hstep hschedules after step,
    fun u after => hretired _ _ u hrun hstep hschedules after⟩

end Session

end DeviceUpdate
