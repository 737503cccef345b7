import DeviceUpdate.Proofs.Session.Effects
import DeviceUpdate.Proofs.Session.Evidence
import DeviceUpdate.Proofs.Session.Replay

/-!
# Restarts

The device restarts after an update only if the update that is current was never given up, went
well, and is the one that the reset names. A call with a final chunk reports success exactly if it
recorded one.
-/

namespace DeviceUpdate.Session

section

variable {σ : Type} {setup : Setup} {around : Surroundings σ} {s t : System σ}

/-- What the history tells about the generations. -/
structure Chronicle (s : System σ) : Prop where
  accepted : ∀ g target, s.Accepted g target → g ≤ s.world.controller.generation
  unique : ∀ g a b, s.Accepted g a → s.Accepted g b → a = b
  /-- an update that was cancelled is being released, or released -/
  cancelled : ∀ g, s.Logged (.cancelled g) → g ≤ s.world.controller.generation ∧
    (s.world.controller.generation = g →
      s.world.controller.state = .cancelled ∨ s.world.controller.state = .idle)

/-- An update that was given up stays given up, until the next one is accepted. -/
lemma Control.given_up {c c' : Controller} {r r' : Role} (h : Control r c r' c')
    (fits : r.Fits c) (settled : r.Settled c)
    (state : c.state = .cancelled ∨ c.state = .idle) (same : c'.generation = c.generation) :
    c'.state = .cancelled ∨ c'.state = .idle := by
  cases h with
  | accept free => simp [Controller.startUpdate] at same
  | setupFailed => grind [Controller.releaseIfCurrent, Controller.release]
  | released => grind [Controller.releaseIfCurrent, Controller.release]
  | receive open_ update target mode => grind [SessionState.isOpen]
  | writeFailed open_ update mode => grind [SessionState.isOpen]
  | pushFailed => grind [Controller.release]
  | install owner => grind [Role.Fits, Stage.covers, Controller.owns]
  | conclude outcome =>
    cases hm : outcome.mode <;>
      grind [Role.ofOutcome, Role.Fits, Role.Settled, Stage.covers, Controller.conclude,
        Controller.release]
  | cancelSetup open_ none => exact .inl rfl
  | cancelActive open_ update => exact .inl rfl
  | cancelEnd late => exact .inl rfl
  | resetBegin done => grind
  | resetEnd => grind [Role.Fits]
  | _ => exact state

lemma Chronicle.quiet (h : Chronicle s) (quiet : Quiet around s t) : Chronicle t := by
  have haccepted {g : Nat} {target : Target} (ha : t.Accepted g target) :
      s.Accepted g target := by
    obtain ⟨file, hfile⟩ := ha
    exact ⟨file, quiet.logged hfile (by simp)⟩
  refine ⟨fun g target ha => ?_, fun g a b ha hb => ?_, fun g hg => ?_⟩
  · rw [quiet.controller]
    exact h.accepted g target (haccepted ha)
  · exact h.unique g a b (haccepted ha) (haccepted hb)
  · rw [quiet.controller]
    exact h.cancelled g (quiet.logged hg (by simp))

theorem Chronicle.step (h : Chronicle s) (orderly : Orderly s) (step : Step setup around s t) :
    Chronicle t := by
  obtain hquiet | ⟨i, call, p, w, st, here, goes, rfl⟩ := step.quiet_or_goes
  · exact h.quiet hquiet
  have hrole : s.role i = p.role := role_of_getElem? here
  have hgen := goes.control.generation_cases
  have hnews {e : Event} (he : (s.moved i call p w st).Logged e) :
      Tells setup s.world p w st e ∨ s.Logged e := by
    obtain ⟨k, hk⟩ := he
    rcases mem_moved.mp hk with ⟨-, hnew⟩ | hold
    · exact .inl (goes.tells hnew)
    · exact .inr ⟨k, hold⟩
  have haccepted {g : Nat} {target : Target} {file : String}
      (ht : Tells setup s.world p w st (.accepted g target file)) :
      g = s.world.controller.generation + 1 ∧ w.controller.generation = g := by
    cases ht with
    | accepted known free goes => exact ⟨rfl, rfl⟩
  refine ⟨?_, ?_, ?_⟩
  · rintro g target ⟨file, hfile⟩
    show g ≤ w.controller.generation
    rcases hnews hfile with hnew | hold
    · exact Nat.le_of_eq (haccepted hnew).2.symm
    · have := h.accepted g target ⟨file, hold⟩
      omega
  · rintro g a b ⟨file, hfile⟩ ⟨file', hfile'⟩
    rcases hnews hfile with hnew | hold
    · rcases hnews hfile' with hnew' | hold'
      · cases hnew with
        | accepted known free goes =>
          cases hnew' with
          | accepted known' free' goes' => simpa [known] using known'
      · have := h.accepted g b ⟨file', hold'⟩
        have := (haccepted hnew).1
        omega
    · rcases hnews hfile' with hnew' | hold'
      · have := h.accepted g a ⟨file, hold⟩
        have := (haccepted hnew').1
        omega
      · exact h.unique g a b ⟨file, hold⟩ ⟨file', hold'⟩
  · intro g hg
    show g ≤ w.controller.generation ∧ (w.controller.generation = g →
      w.controller.state = .cancelled ∨ w.controller.state = .idle)
    rcases hnews hg with hnew | hold
    · cases hnew with
      | cancelled hstep now before =>
        refine ⟨?_, fun _ => .inl now⟩
        cases hstep <;> exact Nat.le_refl _
    · obtain ⟨hle, hstate⟩ := h.cancelled g hold
      refine ⟨by omega, fun hg' => ?_⟩
      have hsame : w.controller.generation = s.world.controller.generation := by omega
      exact goes.control.given_up (hrole ▸ orderly.owned.fits i)
        (hrole ▸ orderly.settled i) (hstate (by omega)) hsame

/-- A call with a final chunk answers that all went well exactly if it recorded that. -/
structure Candid (s : System σ) : Prop where
  made : s.Made
  silent : s.All fun i _ _ => ∀ g o, (i, .recorded g o) ∉ s.history
  answers : ∀ (i : Nat) (call : Call) (result : Except DataCode Unit),
    s.threads[i]? = some ⟨call, .returned (.data result)⟩ → call.last? = some true →
      (result.isOk ↔ ∃ g o, o.success ∧ (i, .recorded g o) ∈ s.history)

/-- What the answer of a call that goes on tells about the outcome that it recorded. -/
lemma Goes.candid {i : Nat} {call : Call} {p : Point} {w : World} {result : Except DataCode Unit}
    (h : Goes setup s.world p w (.returned (.data result))) (serves : p.Serves call)
    (hp : p.Backed s i call) (final : call.last? = some true)
    (silent : ∀ g o, (i, .recorded g o) ∉ s.history) :
    result.isOk ↔ ∃ g o, o.success ∧
      (i, .recorded g o) ∈ (s.moved i call p w (.returned (.data result))).history := by
  have hfail (hr : result.isOk = false)
      (he : Event.of? s.world p w (.returned (.data result)) = none) :
      result.isOk ↔ ∃ g o, o.success ∧
        (i, .recorded g o) ∈ (s.moved i call p w (.returned (.data result))).history := by
    constructor
    · intro hok
      rw [hr] at hok
      cases hok
    · rintro ⟨g, o, -, hlog⟩
      rcases mem_moved.mp hlog with ⟨-, hnew⟩ | hold
      · rw [he] at hnew
        cases hnew
      · exact absurd hold (silent g o)
  have hother (hc : call.isRequest ∨ call.isCancel) : False := by
    cases call <;> simp_all [Call.isRequest, Call.isCancel, Call.last?]
  generalize hst : Status.returned (.data result) = st at h
  cases h with
  | request h => cases h <;> cases hst
  | data h =>
    cases h with
    | refused code =>
      cases hst
      exact hfail rfl rfl
    | written takes delivery write more =>
      obtain rfl := serves
      simp [Call.last?, more] at final
    | _ => cases hst
  | cancel h => cases h <;> cases hst
  | reset h => cases h <;> cases hst
  | stopped h => exact absurd serves hother
  | released => exact absurd serves hother
  | pushed h fine => simp [Point.Serves, final] at serves
  | pushFailed => simp [Point.Serves, final] at serves
  | @recorded g outcome result otherwise current =>
    cases hst
    constructor
    · intro hok
      refine ⟨g, outcome, hp.2.mp hok, mem_moved.mpr (.inl ⟨rfl, ?_⟩)⟩
      simp [Event.of?, current]
    · rintro ⟨g', o, hsuccess, hlog⟩
      rcases mem_moved.mp hlog with ⟨-, hnew⟩ | hold
      · obtain ⟨rfl, rfl⟩ : g = g' ∧ outcome = o := by simpa [Event.of?, current] using hnew
        exact hp.2.mpr hsuccess
      · exact absurd hold (silent g' o)
  | givenUp lost =>
    cases hst
    exact hfail rfl (by simp [Event.of?, lost])
  | removed =>
    obtain ⟨-, code, hcode⟩ := serves
    cases hst
    obtain rfl : result = .error code := by simpa using hcode
    exact hfail rfl rfl
  | _ => cases hst

/-- A call that is still under way has recorded nothing. -/
lemma Goes.silent {i : Nat} {call : Call} {p p' : Point} {w : World}
    (h : Goes setup s.world p w (.running p')) (silent : ∀ g o, (i, .recorded g o) ∉ s.history) :
    ∀ g o, (i, .recorded g o) ∉ (s.moved i call p w (.running p')).history := by
  intro g o hlog
  rcases mem_moved.mp hlog with ⟨-, hnew⟩ | hold
  · have htells := h.tells hnew
    cases htells
  · exact silent g o hold

theorem Candid.step (h : Candid s) (honest : Honest s) (step : Step setup around s t) :
    Candid t := by
  refine ⟨step.made h.made, ?_, ?_⟩
  · refine h.silent.step step ?_ ?_ ?_ (fun _ _ _ _ hp => hp) (fun _ _ _ hp => hp)
    · intro i call p _ beside hp g o hlog
      rcases beside.silent _ hlog with hold | ⟨f, a, hperformed⟩
      · exact hp g o hold
      · cases hperformed
    · rintro call rfl g o hlog
      exact absurd (h.made _ _ hlog) (Nat.lt_irrefl _)
    · rintro i call p w p' - goes rfl hp
      exact goes.silent hp
  · -- only the call that returns can have a new answer
    have hsame {j : Nat} {call : Call} {result : Except DataCode Unit}
        (hj : s.threads[j]? = some ⟨call, .returned (.data result)⟩)
        (final : call.last? = some true)
        (hlog : ∀ g o, (j, .recorded g o) ∈ t.history ↔ (j, .recorded g o) ∈ s.history) :
        result.isOk ↔ ∃ g o, o.success ∧ (j, .recorded g o) ∈ t.history := by
      simp only [hlog]
      exact h.answers j call result hj final
    cases step with
    | @start call may =>
      intro j call' result hj final
      rcases getElem?_concat_cases hj with ⟨-, heq⟩ | ⟨-, hold⟩
      · cases heq
      · exact hsame hold final fun _ _ => Iff.rfl
    | @move i call p w st here goes =>
      intro j call' result hj final
      rcases getElem?_set_cases hj with ⟨rfl, heq⟩ | ⟨hne, hold⟩
      · obtain ⟨rfl, rfl⟩ := Thread.mk.inj heq
        exact (goes_of_move goes).candid (honest.serving j _ p here) (honest.backed j _ p here)
          final (h.silent j _ p here)
      · refine hsame hold final fun g o => ?_
        rw [mem_moved]
        exact ⟨fun hlog => hlog.resolve_left fun hnew => hne hnew.1, .inr⟩
    | @answer i call p e a device files here asks gets =>
      intro j call' result hj final
      rcases getElem?_set_cases hj with ⟨-, heq⟩ | ⟨-, hold⟩
      · cases heq
      · exact hsame hold final fun g o => by simp [System.answered]
    | @wake i call p here waits =>
      intro j call' result hj final
      rcases getElem?_set_cases hj with ⟨-, heq⟩ | ⟨-, hold⟩
      · cases heq
      · exact hsame hold final fun _ _ => Iff.rfl
    | engine goes => exact fun j call result hj final => hsame hj final fun _ _ => Iff.rfl
    | drift goes => exact fun j call result hj final => hsame hj final fun _ _ => Iff.rfl

/-- What a reset of the update with this number must be able to show when it schedules a restart:
that update is current and was never given up, and it was installed, or it was streamed and the
reset itself made its system the active one. -/
structure System.Deserves (s : System σ) (reset number : Nat) : Prop where
  target : ∃ target, target.number = number ∧
    s.Accepted s.world.controller.generation target ∧
    ∀ other, s.Accepted s.world.controller.generation other → other = target
  wanted : ¬ s.Logged (.cancelled s.world.controller.generation)
  success : s.Installed s.world.controller.generation ∨
    s.Applied s.world.controller.generation ∧ (reset, .swapped) ∈ s.history

/-- All that is known of a system in which chunks come one after another. -/
structure Sound (s : System σ) : Prop where
  orderly : Orderly s
  honest : Honest s
  chronicle : Chronicle s
  candid : Candid s
  stays : s.Stays

lemma sound_fresh (w : World) (d : σ) (hw : w.controller = {}) : Sound (System.fresh w d) := by
  refine ⟨orderly_fresh w d, honest_fresh w d hw, ⟨?_, ?_, ?_⟩,
    ⟨?_, System.all_fresh w d, ?_⟩, System.all_fresh w d⟩
  · rintro g target ⟨file, i, hi⟩
    simp [System.fresh] at hi
  · rintro g a b ⟨file, i, hi⟩
    simp [System.fresh] at hi
  · rintro g ⟨i, hi⟩
    simp [System.fresh] at hi
  · intro k e he
    simp [System.fresh] at he
  · intro i call result hi
    simp [System.fresh] at hi

lemma Sound.step (one : around.OneSender) (h : Sound s) (step : Step setup around s t) :
    Sound t :=
  ⟨h.orderly.step one step, h.honest.step h.orderly.owned step,
    h.chronicle.step h.orderly step, h.candid.step h.honest step, step.stays h.stays⟩

lemma Sound.deserves (h : Sound s) {i : Nat} {call : Call} {p : Point} {plan : RebootPlan}
    (here : s.threads[i]? = some ⟨call, .running p⟩)
    (asks : p.move setup s.world = .effect (.restart plan)) :
    ∃ number version, call = .reset number version ∧ s.Deserves i number := by
  obtain rfl := (asks_of_move asks).scheduling_of_restart (h.stays i call p here)
  obtain ⟨o, hchosen, hswap⟩ := h.honest.backed i _ _ here
  obtain ⟨version, hcall⟩ := hchosen.named
  have hstate : s.world.controller.state = .resetDecision := by
    have hfits := h.orderly.owned.fits_here here
    exact hfits
  refine ⟨o.target.number, version, hcall, ⟨o.target, rfl, hchosen.bears.target, ?_⟩, ?_, ?_⟩
  · exact fun other hother => h.chronicle.unique _ _ _ hother hchosen.bears.target
  · intro hcancelled
    have hgone := (h.chronicle.cancelled _ hcancelled).2 rfl
    rw [hstate] at hgone
    simp at hgone
  · cases hmode : o.mode with
    | staged => exact .inl (hchosen.bears.staged hchosen.success hmode)
    | streaming => exact .inr ⟨hchosen.bears.streamed hchosen.success hmode, hswap hmode⟩

/-- A restart is asked for only by a reset, and only if the update that the reset names is
current, was never given up, and really succeeded. And a data call with the final chunk answers
that all went well exactly if it recorded a success. -/
theorem restart_only_after_success {files : FileSystem} {layout : Option BootLayout} {w : World}
    {d : σ} (built : setup.build files layout = .ok w) (one : around.OneSender)
    (run : Run setup around (System.fresh w d) s) :
    (∀ i call p plan, s.threads[i]? = some ⟨call, .running p⟩ →
      p.move setup s.world = .effect (.restart plan) →
        ∃ number version, call = .reset number version ∧ s.Deserves i number) ∧
    ∀ i number offset chunk result,
      s.threads[i]? = some ⟨.data number offset chunk true, .returned (.data result)⟩ →
        (result = .ok () ↔ ∃ g o, o.success ∧ (i, .recorded g o) ∈ s.history) := by
  have hsound : Sound s :=
    run.keeps (sound_fresh w d (build_controller built)) fun hu step => hu.step one step
  refine ⟨fun i call p plan here asks => hsound.deserves here asks, ?_⟩
  intro i number offset chunk result here
  rw [← hsound.candid.answers i _ result here rfl]
  cases result <;> simp [Except.isOk, Except.toBool]

end

/-- An update is installed on a device with two system partitions, and reset. -/
def Small.installed : List Choice :=
  [.start (.request 0 "image.swu" 1), .go 0, .go 0, .go 0, .go 0,
    .start (.data 0 0 [7] true), .go 1, .go 1, .go 1, .go 1, .go 1, .go 1, .go 1,
    .start (.reset 0 ⟨1, 0, 0, 0⟩), .go 2, .go 2, .go 2]

def Small.afterInstall : System Unit :=
  (Small.follow? (Small.fresh .dual) Small.installed).getD (Small.fresh .dual)

theorem installed_update_restarts :
    (∃ number version, Call.reset 0 ⟨1, 0, 0, 0⟩ = .reset number version ∧
      Small.afterInstall.Deserves 2 number) ∧
    ∃ g o, UpdateOutcome.success o ∧ (1, .recorded g o) ∈ Small.afterInstall.history := by
  have hbuilt : Small.setup.build Small.files (some .dual) = .ok (Small.world .dual) := rfl
  have hrun : Run Small.setup Small.sequential (Small.fresh .dual) Small.afterInstall :=
    Small.run_of_follow (rfl : Small.follow? _ Small.installed = some Small.afterInstall)
  have h := restart_only_after_success hbuilt (sequential_oneSender _) hrun
  exact ⟨h.1 2 _ (.scheduling .direct) .direct rfl rfl, (h.2 1 0 0 [7] (.ok ()) rfl).mp rfl⟩

end DeviceUpdate.Session
