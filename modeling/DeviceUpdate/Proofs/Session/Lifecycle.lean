import DeviceUpdate.Proofs.Session.Evidence
import DeviceUpdate.Proofs.Session.Replay

/-!
# The lifecycle of an update

If chunks come one after another, the controller moves along a graph of states, however the other
calls overlap. What it holds fits its state: an outcome exactly as long as an update is completed,
and an active update only while one is under way or being given up.
-/

namespace DeviceUpdate

/-- The states that can follow. -/
def SessionState.next : SessionState → List SessionState
  | .idle => [.requested]
  | .requested | .receiving => [.receiving, .finalizing, .cancelled, .idle]
  | .finalizing => [.installing, .completed, .cancelled]
  | .installing => [.completed, .cancelled]
  | .completed => [.requested, .resetDecision]
  | .resetDecision => [.rebooting, .idle]
  | .cancelled => [.idle]
  | .rebooting => []

/-- What a controller holds fits its state. -/
structure Controller.Consistent (c : Controller) : Prop where
  outcome : c.outcome.isSome ↔ c.state = .completed
  underWay : c.active.isSome → c.state ∈
    [.requested, .receiving, .finalizing, .installing, .cancelled]
  active : c.state ∈ [.receiving, .finalizing, .installing] → c.active.isSome

/-- While a request can be accepted, no update is active. -/
lemma Controller.Consistent.inactive {c : Controller} (h : c.Consistent) (free : c.accepts) :
    c.active = none := by
  by_contra hne
  have hstate := h.underWay (Option.isSome_iff_ne_none.mpr hne)
  have hfree : c.state = .idle ∨ c.state = .completed := by
    simpa [Controller.accepts] using free
  rcases hfree with hidle | hdone
  · simp [hidle] at hstate
  · simp [hdone] at hstate

lemma Controller.release_eq {c : Controller} (idle : c.state = .idle) (inactive : c.active = none) :
    c.release = c := by
  cases c
  simp_all [release]

namespace Session

variable {c c' : Controller} {r r' : Role}

/-- A call that records an outcome finds the update finalizing, installing or given up. -/
lemma Role.late_of_outcome {g : Nat} {mode : DeliveryMode}
    (fits : (Role.ofOutcome g mode).Fits c) (settled : (Role.ofOutcome g mode).Settled c)
    (current : c.generation = g) : c.state.isLate ∨ c.state = .cancelled := by
  cases mode with
  | staged =>
    obtain ⟨-, hstate | hstate, -⟩ := fits
    · exact .inl hstate
    · exact .inr hstate
  | streaming =>
    obtain ⟨hstate | ⟨hstate | hstate, -⟩, -⟩ := fits.2 current
    · exact absurd hstate (settled current)
    · exact .inl (.inl hstate)
    · exact .inr hstate

/-- Every change of state is an edge of the graph. -/
lemma Control.follows (h : Control r c r' c') (fits : r.Fits c) (settled : r.Settled c) :
    c'.state = c.state ∨ c'.state ∈ c.state.next := by
  cases h with
  | @accept number file size c free =>
    right
    have hfree : c.state = .idle ∨ c.state = .completed := by
      simpa [Controller.accepts] using free
    rcases hfree with hstate | hstate <;> simp [hstate, SessionState.next, Controller.startUpdate]
  | @setupFailed g c =>
    obtain ⟨hgeneration, hstate, -⟩ := fits
    right
    rcases hstate with hstate | hstate <;>
      simp [Controller.releaseIfCurrent, Controller.release, hgeneration, hstate,
        SessionState.next]
  | @released g c =>
    obtain ⟨hgeneration, hstate, -⟩ := fits
    right
    simp [Controller.releaseIfCurrent, Controller.release, hgeneration, hstate, SessionState.next]
  | @receive number offset chunk last u v c open_ update target mode =>
    right
    rcases open_ with hstate | hstate <;> cases last <;> simp [hstate, SessionState.next]
  | @writeFailed number offset chunk last u c open_ update mode =>
    right
    rcases open_ with hstate | hstate <;> simp [hstate, SessionState.next, Controller.release]
  | @pushFailed g c =>
    split
    · rename_i howns
      obtain ⟨hgeneration, hwanted⟩ := Controller.owns_iff.mp howns
      rcases settled hgeneration with hstate | hstate | hstate
      · exact .inr (by simp [hstate, SessionState.next, Controller.release])
      · exact absurd hstate hwanted
      · exact .inl hstate.symm
    · exact .inl rfl
  | @install g c owner =>
    obtain ⟨-, hstate | hstate, -⟩ := fits
    · right
      simp [show c.state = .finalizing from hstate, SessionState.next]
    · exact absurd hstate (Controller.owns_iff.mp owner).2
  | @conclude g c outcome =>
    obtain ⟨-, heq⟩ | ⟨-, hstate, heq⟩ | ⟨hg, hstate, heq⟩ := c.conclude_cases g outcome
    · exact .inl (by rw [heq])
    · exact .inr (by simp [heq, hstate, Controller.release, SessionState.next])
    · right
      rcases Role.late_of_outcome fits settled hg with (hlate | hlate) | hcancelled
      · simp [heq, hlate, SessionState.next]
      · simp [heq, hlate, SessionState.next]
      · exact absurd hcancelled hstate
  | @cancelSetup number reason c open_ none =>
    right
    rcases open_ with hstate | hstate <;> simp [hstate, SessionState.next]
  | @cancelActive number reason u c open_ update =>
    right
    rcases open_ with hstate | hstate <;> simp [hstate, SessionState.next]
  | @cancelEnd number reason c late =>
    right
    rcases late with hstate | hstate <;> simp [hstate, SessionState.next]
  | @resetBegin number version c done =>
    right
    simp [done, SessionState.next]
  | @resetEnd scheduled c =>
    right
    have hstate : c.state = .resetDecision := fits
    cases scheduled <;> simp [hstate, SessionState.next]
  | _ => exact .inl rfl

/-- What the controller holds goes on fitting its state. -/
lemma Control.consistent (h : Control r c r' c') (fits : r.Fits c) (settled : r.Settled c)
    (hc : c.Consistent) : c'.Consistent := by
  obtain ⟨houtcome, hunderWay, hactive⟩ := hc
  cases h with
  | accept free => constructor <;> simp [Controller.startUpdate]
  | settle delivery target owner =>
    constructor <;> grind [Role.Fits, Controller.owns]
  | setupFailed =>
    constructor <;> grind [Role.Fits, Controller.releaseIfCurrent, Controller.release]
  | released =>
    constructor <;> grind [Role.Fits, Controller.releaseIfCurrent, Controller.release]
  | receive open_ update target mode => constructor <;> grind [SessionState.isOpen]
  | writeFailed open_ update mode =>
    constructor <;> grind [SessionState.isOpen, Controller.release]
  | pushFailed =>
    constructor <;> grind [Role.Settled, Controller.owns, Controller.release]
  | install owner => constructor <;> grind [Role.Fits, Controller.owns, Stage.covers]
  | @conclude g c outcome =>
    obtain ⟨-, heq⟩ | ⟨-, hstate, heq⟩ | ⟨hg, hstate, heq⟩ := c.conclude_cases g outcome
    · rw [heq]
      exact ⟨houtcome, hunderWay, hactive⟩
    · constructor <;> simp [heq, Controller.release]
    · constructor <;> simp [heq]
  | cancelSetup open_ none => constructor <;> grind [SessionState.isOpen]
  | cancelActive open_ update => constructor <;> grind [SessionState.isOpen]
  | cancelEnd late => constructor <;> grind [SessionState.isLate]
  | resetBegin done => constructor <;> grind
  | resetEnd => constructor <;> grind [Role.Fits]
  | _ => exact ⟨houtcome, hunderWay, hactive⟩

section

variable {σ : Type} {setup : Setup} {around : Surroundings σ} {s t : System σ}

lemma consistent_fresh {w : World} (d : σ) (hw : w.controller = {}) :
    (System.fresh w d).world.controller.Consistent := by
  rw [show (System.fresh w d).world.controller = {} from hw]
  constructor <;> simp

/-- A step of a system moves the controller along an edge of the graph, or not at all. -/
lemma Step.follows (step : Step setup around s t) (orderly : Orderly s) :
    t.world.controller.state = s.world.controller.state ∨
      t.world.controller.state ∈ s.world.controller.state.next := by
  obtain ⟨call, -, hc, -⟩ | ⟨i, r, hc, -⟩ := step.control
  · exact .inl (by rw [hc])
  · exact hc.follows (orderly.owned.fits i) (orderly.settled i)

lemma Step.consistent (step : Step setup around s t) (orderly : Orderly s)
    (h : s.world.controller.Consistent) : t.world.controller.Consistent := by
  obtain ⟨call, -, hc, -⟩ | ⟨i, r, hc, -⟩ := step.control
  · rwa [hc]
  · exact hc.consistent (orderly.owned.fits i) (orderly.settled i) h

/-- In every run in which chunks come one after another, whatever else overlaps: what the controller
holds fits its state, and every step that changes the state follows an edge of the graph. -/
theorem lifecycle_followed {files : FileSystem} {layout : Option BootLayout} {w : World} {d : σ}
    (built : setup.build files layout = .ok w) (one : around.OneSender)
    (run : Run setup around (System.fresh w d) s) :
    s.world.controller.Consistent ∧
      ∀ t, Step setup around s t →
        t.world.controller.state ≠ s.world.controller.state →
          t.world.controller.state ∈ s.world.controller.state.next := by
  obtain ⟨horderly, hconsistent⟩ : Orderly s ∧ s.world.controller.Consistent :=
    run.keeps (P := fun u => Orderly u ∧ u.world.controller.Consistent)
      ⟨orderly_fresh w d, consistent_fresh d (build_controller built)⟩
      fun hu step => ⟨hu.1.step one step, step.consistent hu.1 hu.2⟩
  exact ⟨hconsistent, fun t step changes => (step.follows horderly).resolve_left changes⟩

end

/-- An update is cancelled after its last chunk came, and its data call is about to notice. -/
def Small.lateCancel : List Choice :=
  [.start (.request 0 "image.swu" 1), .go 0, .go 0, .go 0, .go 0,
    .start (.data 0 0 [7] true), .go 1, .start (.cancel 0 .userAbort), .go 2, .go 1, .go 1]

def Small.afterLateCancel : System Unit :=
  (Small.chunkwise? (Small.fresh .dual) Small.lateCancel).getD (Small.fresh .dual)

def Small.afterGivenUp : System Unit :=
  (Small.afterLateCancel.go? Small.setup Small.answers 1).getD (Small.fresh .dual)

theorem cancelled_update_returns_to_idle :
    Small.afterLateCancel.world.controller.Consistent ∧
      Small.afterLateCancel.world.controller.state = .cancelled ∧
      Step Small.setup (.oneSender Small.answers) Small.afterLateCancel Small.afterGivenUp ∧
      Small.afterGivenUp.world.controller.state = .idle ∧
      Small.afterGivenUp.world.controller.state ∈
        Small.afterLateCancel.world.controller.state.next := by
  have hbuilt : Small.setup.build Small.files (some .dual) = .ok (Small.world .dual) := rfl
  have hrun : Run Small.setup (.oneSender Small.answers) (Small.fresh .dual)
      Small.afterLateCancel :=
    Small.run_of_chunkwise
      (rfl : Small.chunkwise? (Small.fresh .dual) Small.lateCancel = some Small.afterLateCancel)
  have hstep : Step Small.setup (.oneSender Small.answers) Small.afterLateCancel
      Small.afterGivenUp :=
    step_of_go (allows_oneSender Small.answers).answers
      (rfl : Small.afterLateCancel.go? Small.setup Small.answers 1 = some Small.afterGivenUp)
  have hcancelled : Small.afterLateCancel.world.controller.state = .cancelled := rfl
  have hidle : Small.afterGivenUp.world.controller.state = .idle := rfl
  obtain ⟨hconsistent, hfollows⟩ := lifecycle_followed hbuilt (oneSender_oneSender _) hrun
  have hchanges : Small.afterGivenUp.world.controller.state ≠
      Small.afterLateCancel.world.controller.state := by
    rw [hidle, hcancelled]
    decide
  exact ⟨hconsistent, hcancelled, hstep, hidle, hfollows _ hstep hchanges⟩

end Session

end DeviceUpdate
