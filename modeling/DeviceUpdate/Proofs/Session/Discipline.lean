import DeviceUpdate.Proofs.Session.Ownership

/-!
# How a controller is used

The connector sends the chunks of an update one after another. Under this discipline, or if the
controller is never reset, every run keeps the update owned. Without either a chunk that fails
during a reset can let the next request in before the reset is over.
-/

namespace DeviceUpdate.Session

variable {σ : Type} {setup : Setup} {around : Surroundings σ} {s t : System σ}

/-- A call that brings a chunk is under way. -/
def Thread.sends (t : Thread) : Bool := t.call.sends && t.status.isRunning

/-- No data call is made while another is under way. -/
def Surroundings.OneSender (around : Surroundings σ) : Prop :=
  ∀ threads call, around.starts threads call → call.sends → ∀ t ∈ threads, t.sends = false

def Surroundings.NeverResets (around : Surroundings σ) : Prop :=
  ∀ threads number version, ¬ around.starts threads (.reset number version)

/-- The roles of calls that bring chunks. -/
def Role.sends : Role → Bool
  | .entering call => call.sends
  | .push _ | .stream _ | .staged _ _ => true
  | _ => false

/-- What the role of a call tells about the controller if chunks come one after another. -/
def Role.Settled (c : Controller) : Role → Prop
  | .push g => c.generation = g → c.state = .receiving ∨ c.state = .cancelled ∨ c.state = .idle
  | .stream g => c.generation = g → c.state ≠ .idle
  | _ => True

variable {c c' : Controller} {q r r' : Role}

lemma Control.sends (h : Control r c r' c') (hr : r'.sends) : r.sends := by
  cases h with
  | @receive number offset chunk last u v c open_ update target mode => rfl
  | stay => exact hr
  | _ => simp_all [Role.sends]

lemma Control.settled (h : Control r c r' c') (hr : r.Settled c) : r'.Settled c' := by
  cases h with
  | stay => exact hr
  | @receive number offset chunk last u v c open_ update target mode =>
    cases hm : u.delivery.mode <;> cases last <;> simp [Role.Settled, Role.ofChunk]
  | _ => simp [Role.Settled]

lemma Control.settled_other (h : Control r c r' c') (hr : r.Fits c) (hq : q.Fits c)
    (hs : q.Settled c) (alone : ¬ (r.sends ∧ q.sends)) : q.Settled c' := by
  cases q with
  | push g =>
    cases h with
    | @conclude g' c outcome =>
      cases hm : outcome.mode <;> simp [hm, Role.sends, Role.ofOutcome] at alone
    | _ =>
      grind [Role.Settled, Role.sends, Role.Fits, Call.sends, SessionState.isOpen,
        Controller.startUpdate, Controller.releaseIfCurrent, Controller.release]
  | stream g =>
    cases h with
    | @conclude g' c outcome =>
      cases hm : outcome.mode <;> simp [hm, Role.sends, Role.ofOutcome] at alone
    | _ =>
      grind [Role.Settled, Role.sends, Role.Fits, Call.sends, SessionState.isOpen,
        Controller.startUpdate, Controller.releaseIfCurrent, Controller.release]
  | _ => trivial

/-- Chunks come one after another: at most one call brings one, and its role tells more about the
controller than it otherwise would. -/
structure Orderly (s : System σ) : Prop where
  owned : Owned s.world.controller s.role
  settled : ∀ i, (s.role i).Settled s.world.controller
  single : ∀ i j, i ≠ j → ¬ ((s.role i).sends ∧ (s.role j).sends)
  sends : s.All fun _ call p => p.role.sends → call.sends

lemma Orderly.calm (h : Orderly s) (i : Nat) : ¬ (s.role i).Disturbs s.world.controller := by
  have hs := h.settled i
  cases hr : s.role i with
  | push g =>
    rw [hr] at hs
    rintro ⟨howns, hstate⟩
    simp [Role.Settled, Controller.owns_iff.mp howns, hstate] at hs
  | _ => simp [Role.Disturbs]

lemma orderly_fresh (w : World) (d : σ) : Orderly (System.fresh w d) := by
  have hfree : System.role (System.fresh w d) = fun _ => .free := by
    funext i
    simp [System.role, System.fresh]
  constructor
  · exact ⟨fun i => by simp [hfree, Role.Fits], fun i j _ => by simp [hfree, Role.Clashes]⟩
  · intro i
    simp [hfree, Role.Settled]
  · intro i j _
    simp [hfree, Role.sends]
  · exact System.all_fresh w d

/-- Each call that plays the role of one that brings chunks is one. -/
lemma Step.sends (step : Step setup around s t)
    (h : s.All fun _ call p => p.role.sends → call.sends) :
    t.All fun _ call p => p.role.sends → call.sends := by
  refine h.step step (fun _ _ _ _ _ hp => hp) (fun _ _ hcall => hcall) ?_ ?_ ?_
  · intro i call p w p' _ goes _ hp hsends
    exact hp (goes.control.sends hsends)
  · intro i call p a hp hsends
    exact hp (by rwa [resume_role] at hsends)
  · intro i call p hp hsends
    exact hp (by rwa [wake_role] at hsends)

/-- Every step keeps the order. -/
theorem Orderly.step (one : around.OneSender) (h : Orderly s) (step : Step setup around s t) :
    Orderly t := by
  have hsends := step.sends h.sends
  obtain ⟨call, hmay, hc, hrole⟩ | ⟨i, r, hc, hrole⟩ := step.control
  · have hnone (hcall : call.sends) (j : Nat) : (s.role j).sends = false := by
      by_contra hj
      rw [Bool.not_eq_false] at hj
      cases hthread : s.threads[j]? with
      | none => simp [System.role, hthread, Role.sends] at hj
      | some thread =>
        have hidle := one _ _ hmay hcall thread (List.mem_of_getElem? hthread)
        rw [role_of_getElem? hthread] at hj
        obtain ⟨call', _ | _⟩ := thread
        · have hsends := h.sends j call' _ hthread hj
          simp [Thread.sends, Status.isRunning, hsends] at hidle
        · simp [Status.role, Role.sends] at hj
    refine ⟨?_, ?_, ?_, hsends⟩
    · rw [hc, hrole]
      exact h.owned.start _ _
    · intro j
      rw [hc, hrole]
      by_cases hj : j = s.threads.length
      · subst hj
        simp [Role.Settled]
      · rw [Function.update_of_ne hj]
        exact h.settled j
    · rintro j k hjk ⟨hj, hk⟩
      rw [hrole] at hj hk
      have hother {m n : Nat} (hm : m = s.threads.length) (hn : n ≠ s.threads.length)
          (hms : (Function.update s.role s.threads.length (.entering call) m).sends)
          (hns : (Function.update s.role s.threads.length (.entering call) n).sends) : False := by
        subst hm
        rw [Function.update_self] at hms
        rw [Function.update_of_ne hn, hnone hms n] at hns
        cases hns
      by_cases hj' : j = s.threads.length
      · exact hother hj' (fun hk' => hjk (hj'.trans hk'.symm)) hj hk
      · by_cases hk' : k = s.threads.length
        · exact hother hk' hj' hk hj
        · rw [Function.update_of_ne hj'] at hj
          rw [Function.update_of_ne hk'] at hk
          exact h.single j k hjk ⟨hj, hk⟩
  · refine ⟨?_, ?_, ?_, hsends⟩
    · rw [hrole]
      exact h.owned.step hc fun _ => h.calm i
    · intro j
      rw [hrole]
      by_cases hj : j = i
      · subst hj
        rw [Function.update_self]
        exact hc.settled (h.settled j)
      · rw [Function.update_of_ne hj]
        exact hc.settled_other (h.owned.fits i) (h.owned.fits j) (h.settled j)
          (h.single i j (Ne.symm hj))
    · rintro j k hjk ⟨hj, hk⟩
      have hback (m : Nat) (hm : (Function.update s.role i r m).sends) : (s.role m).sends := by
        by_cases hmi : m = i
        · subst hmi
          rw [Function.update_self] at hm
          exact hc.sends hm
        · rwa [Function.update_of_ne hmi] at hm
      rw [hrole] at hj hk
      exact h.single j k hjk ⟨hback j hj, hback k hk⟩

/-- Nobody resets. -/
structure Resetless (s : System σ) : Prop where
  owned : Owned s.world.controller s.role
  state : s.world.controller.state ≠ .resetDecision
  calls : ∀ i number version, s.role i ≠ .entering (.reset number version)

lemma Control.resetless (h : Control r c r' c') (state : c.state ≠ .resetDecision)
    (call : ∀ number version, r ≠ .entering (.reset number version)) :
    c'.state ≠ .resetDecision ∧ ∀ number version, r' ≠ .entering (.reset number version) := by
  cases h with
  | stay => exact ⟨state, call⟩
  | @conclude g c outcome =>
    refine ⟨?_, by simp⟩
    grind [Controller.conclude, Controller.release]
  | @receive number offset chunk last u v c open_ update target mode =>
    cases hm : u.delivery.mode <;> cases last <;> simp [Role.ofChunk]
  | @resetBegin number version c done => exact absurd rfl (call number version)
  | @resetEnd scheduled c => cases scheduled <;> simp
  | _ =>
    refine ⟨?_, by simp⟩
    grind [Controller.release, Controller.releaseIfCurrent, Controller.startUpdate]

lemma Resetless.calm (h : Resetless s) (i : Nat) : ¬ (s.role i).Disturbs s.world.controller := by
  intro hd
  cases hr : s.role i <;> rw [hr] at hd <;> simp [Role.Disturbs] at hd
  exact h.state hd.2

theorem Resetless.step (never : around.NeverResets) (h : Resetless s)
    (step : Step setup around s t) : Resetless t := by
  obtain ⟨call, hmay, hc, hrole⟩ | ⟨i, r, hc, hrole⟩ := step.control
  · refine ⟨?_, hc ▸ h.state, ?_⟩
    · rw [hc, hrole]
      exact h.owned.start _ _
    · intro j number version
      rw [hrole]
      by_cases hj : j = s.threads.length
      · subst hj
        rw [Function.update_self]
        intro hcall
        cases hcall
        exact never _ _ _ hmay
      · rw [Function.update_of_ne hj]
        exact h.calls j number version
  · obtain ⟨hstate, hcalls⟩ := hc.resetless h.state (h.calls i)
    refine ⟨?_, hstate, ?_⟩
    · rw [hrole]
      exact h.owned.step hc fun _ => h.calm i
    · intro j number version
      rw [hrole]
      by_cases hj : j = i
      · subst hj
        rw [Function.update_self]
        exact hcalls number version
      · rw [Function.update_of_ne hj]
        exact h.calls j number version

lemma resetless_fresh (w : World) (d : σ) (hw : w.controller = {}) :
    Resetless (System.fresh w d) := by
  have h := (orderly_fresh w d).owned
  refine ⟨h, by simp [System.fresh, hw], ?_⟩
  intro i number version
  simp [System.role, System.fresh]

end DeviceUpdate.Session
