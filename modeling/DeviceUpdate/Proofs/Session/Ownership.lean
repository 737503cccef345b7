import DeviceUpdate.Proofs.Session.Control
import Mathlib.Logic.Function.Basic

/-!
# Whose update it is

The role of each call fits the state of the controller, and an update rests on one call at a time:
the one that sets it up, undoes it, carries the staged package to its end, or resets. Every step
keeps this.
-/

namespace DeviceUpdate

/-- The active update, if there is one, has this mode. -/
def Controller.inMode (c : Controller) (mode : DeliveryMode) : Prop :=
  ∀ u, c.active = some u → u.delivery.mode = mode

lemma Controller.inMode_unique {c : Controller} {m n : DeliveryMode} (some : c.active.isSome)
    (hm : c.inMode m) (hn : c.inMode n) : m = n := by
  obtain ⟨u, hu⟩ := Option.isSome_iff_exists.mp some
  rw [← hm u hu, hn u hu]

namespace Session

/-- The states of a staged update at this stage, as long as it is not cancelled. -/
def Stage.covers : Stage → SessionState → Prop
  | .assembling, s => s = .finalizing
  | .installing, s => s = .installing
  | .ending, s => s = .finalizing ∨ s = .installing

/-- What the role of a call tells about the controller. -/
def Role.Fits (c : Controller) : Role → Prop
  | .entering _ | .free => True
  | .setup g => c.generation = g ∧ (c.state = .requested ∨ c.state = .cancelled) ∧ c.active = none
  | .undo g => c.generation = g ∧ c.state = .cancelled ∧ c.active = none
  | .push g => g ≤ c.generation ∧ (c.generation = g →
      c.state ≠ .requested ∧ c.inMode .streaming)
  | .stream g => g ≤ c.generation ∧ (c.generation = g →
      (c.state = .idle ∨ (c.state = .finalizing ∨ c.state = .cancelled) ∧ c.active.isSome) ∧
        c.inMode .streaming)
  | .staged g stage => c.generation = g ∧ (stage.covers c.state ∨ c.state = .cancelled) ∧
      c.active.isSome ∧ c.inMode .staged
  | .reset => c.state = .resetDecision

/-- Two different calls never stand in such roles: the update would rest on both. -/
def Role.Clashes : Role → Role → Prop
  | .setup _, .setup _ | .setup _, .undo _ | .undo _, .setup _ | .undo _, .undo _ => True
  | .staged _ _, .staged _ _ | .reset, .reset => True
  | .stream g, .stream g' => g = g'
  | _, _ => False

/-- A chunk that fails during a reset: the one step that can take the update from a call that it
rests on. -/
def Role.Disturbs (c : Controller) : Role → Prop
  | .push g => c.owns g ∧ c.state = .resetDecision
  | _ => False

/-- The call works on a streamed update. -/
def Role.streams : Role → Prop
  | .push _ | .stream _ => True
  | _ => False

/-- Without streams no chunk can fail during a reset. -/
lemma Role.not_disturbs {c : Controller} {r : Role} (h : ¬ r.streams) : ¬ r.Disturbs c := by
  cases r with
  | push g => exact absurd trivial h
  | _ => exact id

variable {c c' : Controller} {q r r' : Role}

/-- A call that takes a step fits the controller afterwards. -/
lemma Control.fits (h : Control r c r' c') (hr : r.Fits c) : r'.Fits c' := by
  cases h with
  | stay => exact hr
  | refuse => trivial
  | accept free => simp [Role.Fits, Controller.startUpdate]
  | settle _ _ owner => trivial
  | giveUp lost =>
    simp_all [Role.Fits, Controller.owns]
  | setupFailed => trivial
  | released => trivial
  | @receive number offset chunk last u v c open_ update target mode =>
    cases hm : u.delivery.mode <;> cases last <;>
      simp_all [Role.Fits, Role.ofChunk, Controller.inMode, Stage.covers]
  | writeFailed => trivial
  | pushed => trivial
  | pushFailed => trivial
  | install owner =>
    simp_all [Role.Fits, Controller.owns, Stage.covers, Controller.inMode]
  | @end_ g stage c =>
    cases stage <;> grind [Role.Fits, Stage.covers]
  | conclude outcome => trivial
  | cancelSetup => trivial
  | cancelActive => simp [Role.Fits]
  | cancelEnd => trivial
  | resetBegin => simp [Role.Fits]
  | resetEnd => trivial

/-- A call that takes a step leaves the others fitting the controller. -/
lemma Control.fits_other (h : Control r c r' c') (hr : r.Fits c) (hq : q.Fits c)
    (apart : ¬ r.Clashes q) (calm : c' ≠ c → ¬ r.Disturbs c) : q.Fits c' := by
  by_cases hsame : c' = c
  · rwa [hsame]
  replace calm := calm hsame
  clear hsame
  cases h with
  | stay => exact hq
  | refuse => exact hq
  | giveUp => exact hq
  | pushed => exact hq
  | end_ => exact hq
  | accept free =>
    cases q <;> grind [Role.Fits, Controller.accepts, Controller.startUpdate, Stage.covers,
      Controller.inMode, cases Stage]
  | settle delivery target owner =>
    cases q <;> grind [Role.Fits, Controller.owns, Stage.covers, Controller.inMode,
      Role.Clashes, cases Stage]
  | setupFailed =>
    cases q <;> grind [Role.Fits, Controller.releaseIfCurrent, Controller.release, Stage.covers,
      Controller.inMode, Role.Clashes, cases Stage]
  | released =>
    cases q <;> grind [Role.Fits, Controller.releaseIfCurrent, Controller.release, Stage.covers,
      Controller.inMode, Role.Clashes, cases Stage]
  | receive open_ update target mode =>
    cases q <;> grind [Role.Fits, SessionState.isOpen, SessionState.isLate, Stage.covers,
      Controller.inMode, cases Stage]
  | writeFailed open_ update mode =>
    cases q <;> grind [Role.Fits, SessionState.isOpen, Controller.release, Stage.covers,
      Controller.inMode, cases Stage]
  | pushFailed =>
    cases q <;> grind [Role.Fits, Controller.owns, Controller.release, Stage.covers,
      Controller.inMode, Controller.inMode_unique, Role.Disturbs, cases Stage]
  | install owner =>
    cases q <;> grind [Role.Fits, Controller.owns, Stage.covers, Controller.inMode,
      Controller.inMode_unique, Role.Clashes, cases Stage]
  | conclude outcome =>
    cases hm : outcome.mode <;> cases q <;>
      grind [Role.ofOutcome, Role.Fits, Controller.conclude, Controller.release, Stage.covers,
        Controller.inMode, Controller.inMode_unique, Role.Clashes, cases Stage]
  | cancelSetup open_ none =>
    cases q <;> grind [Role.Fits, SessionState.isOpen, SessionState.isLate, Stage.covers,
      Controller.inMode, cases Stage]
  | cancelActive open_ update =>
    cases q <;> grind [Role.Fits, SessionState.isOpen, SessionState.isLate, Stage.covers,
      Controller.inMode, cases Stage]
  | cancelEnd late =>
    cases q <;> grind [Role.Fits, SessionState.isOpen, SessionState.isLate, Stage.covers,
      Controller.inMode, cases Stage]
  | resetBegin done =>
    cases q <;> grind [Role.Fits, SessionState.isOpen, SessionState.isLate, Stage.covers,
      Controller.inMode, cases Stage]
  | resetEnd =>
    cases q <;> grind [Role.Fits, Stage.covers, Controller.inMode, Role.Clashes, cases Stage]

/-- A call that takes a step clashes with no other afterwards. -/
lemma Control.not_clashes (h : Control r c r' c') (hq : q.Fits c) (apart : ¬ r.Clashes q) :
    ¬ r'.Clashes q := by
  cases h with
  | stay => exact apart
  | accept free => cases q <;> grind [Role.Fits, Controller.accepts, Role.Clashes]
  | giveUp => cases q <;> grind [Role.Clashes]
  | @receive number offset chunk last u v c open_ update target mode =>
    cases hm : u.delivery.mode <;> cases last <;> cases q <;>
      grind [Role.ofChunk, Role.Fits, SessionState.isOpen, Stage.covers, Role.Clashes, cases Stage]
  | install => cases q <;> grind [Role.Clashes]
  | end_ => cases q <;> grind [Role.Clashes]
  | cancelActive => cases q <;> grind [Role.Fits, SessionState.isOpen, Role.Clashes]
  | resetBegin => cases q <;> grind [Role.Fits, Role.Clashes]
  | _ => simp [Role.Clashes]

/-- An update gets under way when a request is accepted. -/
lemma Control.busy (h : Control r c r' c') (fits : r.Fits c)
    (busy : c'.state.isBusy) :
    c.state.isBusy ∨ c.accepts ∧ c'.generation = c.generation + 1 := by
  cases h with
  | accept free => exact .inr ⟨free, rfl⟩
  | receive open_ update target mode => exact .inl (.inl open_)
  | cancelSetup open_ none => exact .inl (.inl open_)
  | cancelActive open_ update => exact .inl (.inl open_)
  | cancelEnd late => exact .inl (.inr (.inl late))
  | @install g c owner =>
    left
    grind [Role.Fits, Stage.covers, SessionState.isBusy, SessionState.isLate]
  | @resetEnd scheduled c =>
    cases scheduled <;> simp [SessionState.isBusy, SessionState.isOpen, SessionState.isLate] at busy
  | _ =>
    left
    grind [SessionState.isBusy, SessionState.isOpen, SessionState.isLate, Controller.release,
      Controller.releaseIfCurrent, Controller.conclude]

lemma not_busy_of_idle (h : c.state = .idle) : ¬ c.state.isBusy := by
  simp [h, SessionState.isBusy, SessionState.isOpen, SessionState.isLate]

lemma Role.Clashes.symm (h : q.Clashes r) : r.Clashes q := by
  cases q <;> cases r <;> simp_all [Role.Clashes]

/-- The roles fit the controller, and no two of them clash. -/
structure Owned (c : Controller) (role : Nat → Role) : Prop where
  fits : ∀ i, (role i).Fits c
  apart : ∀ i j, i ≠ j → ¬ (role i).Clashes (role j)

/-- A step of one call keeps the update owned. -/
lemma Owned.step {role : Nat → Role} {i : Nat} (h : Owned c role)
    (goes : Control (role i) c r c') (calm : c' ≠ c → ¬ (role i).Disturbs c) :
    Owned c' (Function.update role i r) := by
  constructor
  · intro j
    by_cases hj : j = i
    · subst hj
      simpa using goes.fits (h.fits j)
    · rw [Function.update_of_ne hj]
      exact goes.fits_other (h.fits i) (h.fits j) (h.apart i j (Ne.symm hj)) calm
  · intro j k hjk
    by_cases hj : j = i
    · subst hj
      rw [Function.update_self, Function.update_of_ne (Ne.symm hjk)]
      exact goes.not_clashes (h.fits k) (h.apart j k hjk)
    · rw [Function.update_of_ne hj]
      by_cases hk : k = i
      · subst hk
        rw [Function.update_self]
        intro hclash
        exact goes.not_clashes (h.fits j) (h.apart k j (Ne.symm hj)) hclash.symm
      · rw [Function.update_of_ne hk]
        exact h.apart j k hjk

/-- A call that was just made owns nothing. -/
lemma Owned.start {role : Nat → Role} (h : Owned c role) (i : Nat) (call : Call) :
    Owned c (Function.update role i (.entering call)) := by
  constructor
  · intro j
    by_cases hj : j = i
    · subst hj
      simp [Role.Fits]
    · rw [Function.update_of_ne hj]
      exact h.fits j
  · intro j k hjk hclash
    by_cases hj : j = i
    · subst hj
      simp [Role.Clashes] at hclash
    · rw [Function.update_of_ne hj] at hclash
      by_cases hk : k = i
      · subst hk
        simp [Role.Clashes] at hclash
      · rw [Function.update_of_ne hk] at hclash
        exact h.apart j k hjk hclash

@[simp] lemma resume_role (p : Point) (a : Answer) : (p.resume a).role = p.role := by
  cases p with
  | starting g target n request => cases a <;> rfl
  | _ => rfl

@[simp] lemma wake_role (p : Point) : p.wake.role = p.role := by
  cases p <;> rfl

section System

variable {σ : Type} {setup : Setup} {around : Surroundings σ} {s t : System σ}

/-- The role of the call `i`. -/
def System.role (s : System σ) (i : Nat) : Role :=
  match s.threads[i]? with
  | some thread => thread.status.role
  | none => .free

lemma role_of_getElem? {i : Nat} {thread : Thread} (h : s.threads[i]? = some thread) :
    s.role i = thread.status.role := by
  simp [System.role, h]

/-- A call under way fits the controller at the point where it stands. -/
lemma Owned.fits_here (h : Owned s.world.controller s.role) {i : Nat} {call : Call} {p : Point}
    (here : s.threads[i]? = some ⟨call, .running p⟩) : p.role.Fits s.world.controller := by
  have hfits := h.fits i
  rwa [role_of_getElem? here] at hfits

lemma role_set {threads : List Thread} {i : Nat} {old new : Thread} {w v : World} {d e : σ}
    {h k : List (Nat × Event)} (here : threads[i]? = some old) :
    System.role ⟨w, threads.set i new, d, h⟩ =
      Function.update (System.role ⟨v, threads, e, k⟩) i new.status.role := by
  funext j
  by_cases hj : j = i
  · subst hj
    obtain ⟨hlt, -⟩ := List.getElem?_eq_some_iff.mp here
    simp [System.role, List.getElem?_set_self hlt]
  · rw [Function.update_of_ne hj]
    simp [System.role, List.getElem?_set_ne (Ne.symm hj)]

/-- What a step of a system is to the controller. -/
theorem Step.control (h : Step setup around s t) :
    (∃ call, around.starts s.threads call ∧ t.world.controller = s.world.controller ∧
      t.role = Function.update s.role s.threads.length (.entering call)) ∨
    (∃ i r, Control (s.role i) s.world.controller r t.world.controller ∧
      t.role = Function.update s.role i r) := by
  cases h with
  | @start call may =>
    refine .inl ⟨call, may, rfl, ?_⟩
    funext j
    by_cases hj : j = s.threads.length
    · subst hj
      simp [System.role, System.start, Status.role, Point.role]
    · rw [Function.update_of_ne hj]
      simp only [System.role, System.start]
      rcases Nat.lt_or_ge j s.threads.length with hlt | hge
      · rw [List.getElem?_append_left hlt]
      · rw [List.getElem?_eq_none hge, List.getElem?_eq_none (by simp; omega)]
  | @move i call p w status here goes =>
    refine .inr ⟨i, status.role, ?_, role_set here⟩
    rw [role_of_getElem? here]
    exact (goes_of_move goes).control
  | @answer i call p e a device files here asks gets =>
    refine .inr ⟨i, s.role i, .stay, ?_⟩
    have hrole : (Status.running (p.resume a)).role = s.role i := by
      rw [role_of_getElem? here]
      exact resume_role p a
    rw [← hrole]
    exact role_set here
  | @wake i call p here waits =>
    refine .inr ⟨i, s.role i, .stay, ?_⟩
    have hrole : (Status.running p.wake).role = s.role i := by
      rw [role_of_getElem? here]
      exact wake_role p
    rw [← hrole]
    exact role_set here
  | engine goes => exact .inr ⟨0, s.role 0, .stay, (Function.update_eq_self 0 s.role).symm⟩
  | drift goes => exact .inr ⟨0, s.role 0, .stay, (Function.update_eq_self 0 s.role).symm⟩

/-- The update stays owned if the call that goes on and changes the controller does not disturb
it. -/
theorem Step.owned (step : Step setup around s t) (h : Owned s.world.controller s.role)
    (calm : ∀ i call p, s.Moves setup t i call p → t.world.controller ≠ s.world.controller →
      ¬ p.role.Disturbs s.world.controller) : Owned t.world.controller t.role := by
  by_cases hsame : t.world.controller = s.world.controller
  · obtain ⟨call, -, hc, hrole⟩ | ⟨i, r, hc, hrole⟩ := step.control
    · rw [hc, hrole]
      exact h.start _ _
    · rw [hrole]
      exact h.step hc fun hne => absurd hsame hne
  · cases step with
    | @move i call p w st here goes =>
      have hrole := role_of_getElem? here
      rw [show (s.moved i call p w st).role = Function.update s.role i st.role from role_set here]
      refine h.step (hrole ▸ (goes_of_move goes).control) fun hne => ?_
      rw [hrole]
      exact calm i call p ⟨here, w, st, goes, rfl⟩ hne
    | _ => exact absurd rfl hsame

end System

end Session

end DeviceUpdate
