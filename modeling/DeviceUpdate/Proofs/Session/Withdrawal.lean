import DeviceUpdate.Proofs.Session.Leftovers
import DeviceUpdate.Proofs.Session.Pending
import DeviceUpdate.Proofs.Session.Refusal

/-!
# Updates that are given up

A cancel can come at any moment of an update. The call that carries the update finds out when it
turns to the controller next, undoes what it did and answers with an error. Its request to the
recovery system is withdrawn, and the controller comes to rest without an outcome.
-/

namespace DeviceUpdate.Session

section

variable {σ : Type} {setup : Setup} {around : Surroundings σ} {s t : System σ} {g : Nat}

/-! ### The call that carries the update -/

/-- A request or a chunk was refused, or went wrong. -/
def Reply.IsError : Reply → Prop
  | .request (.error _) | .data (.error _) => True
  | _ => False

/-- A call at this point answers with an error if its update was given up. -/
def Point.Fails : Point → Prop
  | .discarding _ _ reply | .stopping _ _ _ reply | .releasing _ reply | .removing _ reply =>
    reply.IsError
  | .withdrawing _ _ => True
  | p => p.role.Holds

def Status.Fails : Status → Prop
  | .running p => p.Fails
  | .returned r => r.IsError

lemma Point.fails_of_holds {p : Point} (h : p.role.Holds) : p.Fails := by
  cases p with
  | discarding | releasing | removing => exact h.elim
  | stopping stream rest release reply => cases release <;> exact h.elim
  | withdrawing => trivial
  | _ => exact h

/-- A call whose update was given up goes on to an error. -/
lemma Goes.fails {w w' : World} {p : Point} {st : Status} (h : Goes setup w p w' st)
    (fails : p.Fails) (givenUp : p.role.Holds → w.controller.state = .cancelled) : st.Fails := by
  cases h with
  | request | data | cancel | reset | bootLayout => exact fails.elim
  | inside wraps h => cases wraps <;> exact fails
  | settled owner => exact absurd (givenUp trivial) (Controller.owns_iff.mp owner).2
  | discardedFile | discardedStream | stops | stoppedOwn | stopped | released | removed =>
    exact fails
  | @pushes g stream target last => cases last <;> exact fails.elim
  | pushed | notPushed | pushedFinal | pushFailed | judged => exact fails.elim
  | @recorded g outcome result otherwise current =>
    obtain ⟨-, heq⟩ | ⟨-, -, heq⟩ | ⟨-, hstate, -⟩ := w.controller.conclude_cases g outcome
    · simp [heq] at current
    · simp [heq] at current
    · exact absurd (givenUp fails) hstate
  | swapped | notSwapped | planned | notPlanned | resetDone | asked => exact fails.elim
  | _ => trivial

/-- The call `i` ends with an error, or has. -/
def System.Fails (s : System σ) (i : Nat) : Prop :=
  ∃ call st, s.threads[i]? = some ⟨call, st⟩ ∧ st.Fails

lemma Point.Fails.resume {p : Point} (h : p.Fails) (a : Answer) : (p.resume a).Fails := by
  cases p with
  | starting g target stream request => cases a <;> trivial
  | scheduling => exact h.elim
  | _ => exact h

lemma Point.Fails.wake {p : Point} (h : p.Fails) : p.wake.Fails := by
  cases p <;> exact h

/-- A call without business with the controller has cleanup to do, or stops a stream. -/
lemma Point.cleans_or_streaming {p : Point} (free : p.role = .free) :
    p.cleans ∨ p.Streaming := by
  cases p with
  | withdrawing | removing => exact .inl rfl
  | stopping stream rest release reply =>
    cases release with
    | none => exact .inr trivial
    | some g => cases free
  | pushing g target stream last rest => cases last <;> cases free
  | concluding g outcome result otherwise =>
    cases hm : outcome.mode <;> simp [Point.role, Role.ofOutcome, hm] at free
  | _ => cases free

namespace Sole

/-- While the update is given up, a call that it rests on finds it so. -/
lemma cancelled_of_holds (h : Sole g s) (logged : s.Logged (.cancelled g)) {i : Nat} {call : Call}
    {p : Point} (here : s.threads[i]? = some ⟨call, .running p⟩) (holds : p.role.Holds) :
    s.world.controller.state = .cancelled :=
  (h.cancelled logged).resolve_right fun hidle =>
    not_busy_of_idle hidle (Role.busy_of_holds holds (h.steady.fits here))

lemma fails_step (h : Sole g s) (logged : s.Logged (.cancelled g)) {i : Nat} (fails : s.Fails i)
    (step : Step setup around s t) : t.Fails i := by
  obtain ⟨call, p | r, here, hfails⟩ := fails
  · have hlt := (List.getElem?_eq_some_iff.mp here).1
    rcases step.fate here with ⟨w, st, goes, rfl⟩ | ⟨q, there, rfl | rfl | ⟨a, rfl⟩⟩
    · exact ⟨call, st, List.getElem?_set_self hlt,
        goes.fails hfails (h.cancelled_of_holds logged here)⟩
    · exact ⟨call, _, there, hfails⟩
    · exact ⟨call, _, there, Point.Fails.wake hfails⟩
    · exact ⟨call, _, there, Point.Fails.resume hfails a⟩
  · exact ⟨call, _, (step.returned here).1, hfails⟩

/-- When the update is given up, each call that works for it carries it. -/
lemma fails_of_cancelled (h : Sole g s) (step : Step setup around s t)
    (before : ¬ s.Logged (.cancelled g)) (now : t.Logged (.cancelled g)) {i : Nat}
    (running : s.Running i) (works : s.WorksFor i g) : t.Fails i := by
  obtain ⟨k, hk⟩ := now
  obtain ⟨⟨call, p | r⟩, here, hrunning⟩ := running
  · cases (step.logs hk).resolve_left fun hold => before ⟨k, hold⟩ with
    | @told call' q w st e there goes tells now =>
      have hbusy := tells.busy_of_cancelled rfl
      have hloyal := h.traced.loyal i call p here g works
      have hfits := h.steady.fits here
      have hholds : p.role.Holds := by
        cases hrole : p.role with
        | setup | staged => trivial
        | entering => rw [hrole] at hloyal; exact hloyal.elim
        | undo k =>
          rw [hrole] at hfits
          exact absurd (h.givenUp hfits.2.1) before
        | push | stream =>
          refine absurd ?_ (h.streamless here works)
          exact Point.streaming_of_role (by rw [hrole]; trivial)
        | reset =>
          rw [hrole] at hfits
          have hstate : s.world.controller.state = .resetDecision := hfits
          simp [hstate, SessionState.isBusy, SessionState.isOpen, SessionState.isLate] at hbusy
        | free =>
          rcases Point.cleans_or_streaming hrole with hcleans | hstreams
          · exact absurd hbusy (h.steady.clear i call p here hcleans hrole)
          · exact absurd hstreams (h.streamless here works)
      have hne : k ≠ i := by
        rintro rfl
        obtain ⟨rfl, rfl⟩ : call' = call ∧ q = p := by simpa [here, eq_comm] using there
        cases tells with
        | cancelled => exact hholds
      refine ⟨call, .running p, ?_, Point.fails_of_holds hholds⟩
      rw [now]
      exact (List.getElem?_set_ne hne).trans here
  · cases hrunning

end Sole

/-! ### Installs that are over -/

/-- A call that carries a staged update to its end goes on with it, or records the outcome, or finds
the update given up. -/
lemma Goes.of_staged {w w' : World} {p : Point} {st : Status} {stage : Stage}
    (h : Goes setup w p w' st) (role : p.role = .staged g stage) :
    (∃ q stage', st = .running q ∧ q.role = .staged g stage') ∨
      (∃ o, Event.of? w p w' st = some (.recorded g o)) ∨
        w.controller.state = .cancelled ∨ w.controller.generation ≠ g := by
  have hconclude {k : Nat} {outcome : UpdateOutcome} {result : Except DataCode Unit}
      {otherwise : Otherwise}
      (hr : (Point.concluding k outcome result otherwise).role = .staged g stage) : k = g := by
    cases hm : outcome.mode with
    | staged =>
      simp only [Point.role, hm, Role.ofOutcome, Role.staged.injEq] at hr
      exact hr.1
    | streaming => simp [Point.role, hm, Role.ofOutcome] at hr
  have hlost {k : Nat} {outcome : UpdateOutcome} (hk : k = g)
      (lost : (w.controller.conclude k outcome).1 = false) :
      w.controller.state = .cancelled ∨ w.controller.generation ≠ g := by
    obtain ⟨hne, -⟩ | ⟨-, hstate, -⟩ | ⟨-, -, heq⟩ := w.controller.conclude_cases k outcome
    · exact .inr (hk ▸ hne)
    · exact .inl hstate
    · simp [heq] at lost
  cases h with
  | inside wraps h =>
    cases wraps with
    | installing => exact .inl ⟨_, _, rfl, role⟩
    | _ => cases role
  | stops h =>
    rename_i release _
    cases release <;> cases role
  | pushes h =>
    rename_i last _ _ _
    cases last <;> cases role
  | @recorded k outcome result otherwise current =>
    obtain rfl := hconclude role
    exact .inr (.inl ⟨outcome, if_pos current⟩)
  | givenUp lost => exact .inr (.inr (hlost (hconclude role) lost))
  | takenBack lost => exact .inr (.inr (hlost (hconclude role) lost))
  | assembled | manifestRemoved | notAssembled | handed | unwanted | dropped | installDone | kept
  | used =>
    obtain ⟨rfl, -⟩ := Role.staged.inj role
    exact .inl ⟨_, _, rfl, rfl⟩
  | _ => cases role

/-- An update that was installed is on its way to its end, or ended well, or was given up. -/
def Resolved (g : Nat) (s : System σ) : Prop :=
  ∀ i path result, (i, .installed g path result) ∈ s.history →
    (∃ call p stage, s.threads[i]? = some ⟨call, .running p⟩ ∧ p.role = .staged g stage) ∨
      (∃ o, (i, .recorded g o) ∈ s.history) ∨ s.Logged (.cancelled g)

lemma Resolved.step (h : Resolved g s) (sole : Sole g s) (step : Step setup around s t) :
    Resolved g t := by
  intro i path result logged
  rcases step.logs logged with hold | hnew
  · rcases h i path result hold with ⟨call, p, stage, here, hrole⟩ | ⟨o, hrecorded⟩ | hcancelled
    · have hlt := (List.getElem?_eq_some_iff.mp here).1
      rcases step.fate here with ⟨w, st, goes, rfl⟩ | ⟨q, there, rfl | rfl | ⟨a, rfl⟩⟩
      · rcases goes.of_staged hrole with ⟨q, stage', rfl, hq⟩ | ⟨o, hlog⟩ | hstate | hother
        · exact .inl ⟨call, q, stage', List.getElem?_set_self hlt, hq⟩
        · exact .inr (.inl ⟨o, mem_moved.mpr (.inl ⟨rfl, hlog⟩)⟩)
        · exact .inr (.inr (step.extends.logged (sole.givenUp hstate)))
        · exact absurd sole.current hother
      · exact .inl ⟨call, _, stage, there, hrole⟩
      · exact .inl ⟨call, _, stage, there, by rwa [wake_role]⟩
      · exact .inl ⟨call, _, stage, there, by rwa [resume_role]⟩
    · exact .inr (.inl ⟨o, step.extends.history _ hrecorded⟩)
    · exact .inr (.inr (step.extends.logged hcancelled))
  · cases hnew with
    | told here goes tells now =>
      cases tells with
      | installed =>
        subst now
        exact .inl ⟨_, _, .installing,
          getElem?_set_here here, rfl⟩

/-- A package that was installed on a single system partition stays, unless the update was given
up. -/
lemma Resolved.keeps (h : Resolved g s) (sole : Sole g s) (ended : s.Over g) (path : String) :
    s.Keeps g path ↔ s.Logged (.installed g path (.ok .single)) ∧ ¬ s.Logged (.cancelled g) := by
  constructor
  · rintro ⟨i, hinstalled, o, hrecorded⟩
    exact ⟨⟨i, hinstalled⟩, (sole.recorded o ⟨i, hrecorded⟩).2⟩
  · rintro ⟨⟨i, hinstalled⟩, hnot⟩
    rcases h i path _ hinstalled with ⟨call, p, stage, here, -⟩ | ⟨o, hrecorded⟩ | hcancelled
    · exact absurd ⟨_, here, rfl⟩ (ended.returned i ⟨_, hinstalled, rfl⟩)
    · exact ⟨i, hinstalled, o, hrecorded⟩
    · exact absurd hcancelled hnot

/-! ### What a cancelled update leaves -/

/-- The controller rests, without an outcome. -/
lemma Sole.idle_of_over (h : Sole g s) (ended : s.Over g) (logged : s.Logged (.cancelled g)) :
    s.world.controller.state = .idle ∧ s.world.controller.outcome = none ∧
      ∀ o, ¬ s.Logged (.recorded g o) := by
  have hidle : s.world.controller.state = .idle := by
    refine (h.cancelled logged).resolve_left fun hstate => ?_
    obtain ⟨i, hrests⟩ := h.leans (.inr (.inr hstate))
    unfold System.role at hrests
    split at hrests
    · rename_i thread here
      obtain ⟨call, p | r⟩ := thread
      · refine ended.returned i (h.worksFor here (fun call' hrole => ?_) fun hstreams => ?_)
          ⟨_, here, rfl⟩
        · rw [Status.role, hrole] at hrests
          exact hrests
        · exact Point.not_rests_of_streaming hstreams hrests
      · exact hrests
    · exact hrests
  refine ⟨hidle, ?_, fun o hrecorded => (h.recorded o hrecorded).2 logged⟩
  rw [← Option.not_isSome_iff_eq_none, h.consistent.outcome, hidle]
  simp

/-- Each of its calls took back what it had asked the recovery system for. -/
lemma Balanced.of_over (h : Balanced setup s) (sole : Sole g s) (ended : s.Over g)
    (logged : s.Logged (.cancelled g)) {i : Nat} (works : s.WorksFor i g) :
    Cleared (s.told i) ↔ Asked (s.told i) := by
  obtain ⟨e, he, hg⟩ := works
  obtain ⟨⟨call, p | r⟩, here⟩ : ∃ thread, s.threads[i]? = some thread :=
    ⟨_, List.getElem?_eq_getElem (sole.traced.made i e he)⟩
  · exact absurd ⟨_, here, rfl⟩ (ended.returned i ⟨e, he, hg⟩)
  · obtain ⟨hasked, hcleared⟩ := h i call _ here
    refine ⟨hasked, fun ha => (hcleared ha).resolve_right ?_⟩
    rintro ⟨k, o, hrecorded⟩
    rw [mem_told] at hrecorded
    obtain rfl := sole.traced.devoted i k g ⟨_, hrecorded, rfl⟩ ⟨e, he, hg⟩
    exact (sole.recorded o ⟨i, hrecorded⟩).2 logged

/-! ### The device -/

/-- When the recovery system has a request: an effect that asks for an install makes one if it
works, or a restart does, and taking it back works. -/
structure Surroundings.Recovers (around : Surroundings σ) (requested : σ → Prop) : Prop where
  asks : ∀ e d files a d' files', around.answers e d files a d' files' → requested d' →
    requested d ∨ (e.Requests ∧ e.Works a) ∨ ∃ plan, e = .restart plan
  clears : ∀ e d files a d' files', around.answers e d files a d' files' → e.Revokes →
    ¬ requested d'
  drifts : ∀ d files d' files', around.drifts d files d' files' → requested d' → requested d

/-- A request that the recovery system has is as old as the first system, or a call of the update
has yet to take it back, or the update ended without being given up. -/
def Accounted (requested : σ → Prop) (g : Nat) (first s : System σ) : Prop :=
  requested s.device →
    (requested first.device ∧ ∀ i, Asked (s.told i) → Asked (first.told i)) ∨
      (∃ i, s.WorksFor i g ∧ Asked (s.told i) ∧ ¬ Cleared (s.told i)) ∨
        ¬ s.world.controller.state.isBusy ∧ ¬ s.Logged (.cancelled g)

/-- An update that is over for the controller and was not given up stays so. -/
lemma Watched.rest_step (h : Watched setup g s) (after : Watched setup g t)
    (step : Step setup around s t)
    (rest : ¬ s.world.controller.state.isBusy ∧ ¬ s.Logged (.cancelled g)) :
    ¬ t.world.controller.state.isBusy ∧ ¬ t.Logged (.cancelled g) := by
  have hsame := after.sole.current.trans h.sole.current.symm
  refine ⟨fun hbusy => ?_, fun ⟨i, hi⟩ => ?_⟩
  · obtain ⟨call, -, hc, -⟩ | ⟨i, r, hc, -⟩ := step.control
    · exact rest.1 (hc ▸ hbusy)
    · rcases hc.busy (h.sole.steady.owned.fits i) hbusy with hold | ⟨-, hnext⟩
      · exact rest.1 hold
      · omega
  · rcases step.logs hi with hold | hnew
    · exact rest.2 ⟨i, hold⟩
    · cases hnew with
      | told here goes tells now => exact rest.1 (tells.busy_of_cancelled rfl)

/-- Only an install asks the recovery system for something. -/
lemma Point.Balance.installs {l : List Event} {w : World} {p : Point} {e : Effect}
    (h : p.Balance setup l) (asks : p.move setup w = .effect e) (requests : e.Requests) :
    ∃ k target package rest, p = .installing k target package rest := by
  cases asks_of_move asks with
  | inside wraps hasks =>
    cases wraps with
    | installing => exact ⟨_, _, _, _, rfl⟩
    | withdrawing =>
      obtain ⟨-, -, honly, -⟩ := h
      exact absurd requests (honly.effect hasks)
    | _ => exact absurd requests (h.2.effect hasks).1
  | starting | stopping | pushing | scheduling => simp [Effect.Requests] at requests

/-- A call that goes on by itself asks for nothing. -/
lemma asked_moved {i : Nat} {call : Call} {p : Point} {w : World} {st : Status}
    (goes : Goes setup s.world p w st) (j : Nat) :
    Asked ((s.moved i call p w st).told j) ↔ Asked (s.told j) := by
  rw [told_moved]
  split
  · exact asked_append fun e a hlog => (goes.tells hlog).ne_performed
  · exact .rfl

/-- It takes nothing back either. -/
lemma cleared_moved {i : Nat} {call : Call} {p : Point} {w : World} {st : Status}
    (goes : Goes setup s.world p w st) (j : Nat) :
    Cleared ((s.moved i call p w st).told j) ↔ Cleared (s.told j) := by
  rw [told_moved]
  split
  · exact cleared_append fun e a hlog => (goes.tells hlog).ne_performed
  · exact .rfl

section Answered

variable {i : Nat} {call : Call} {p : Point} {e : Effect} {a : Answer} {device : σ}
  {files : FileSystem}

lemma asked_answered (j : Nat) : Asked ((s.answered i call p e a device files).told j) ↔
    Asked (s.told j) ∨ i = j ∧ e.Requests ∧ e.Works a := by
  rw [told_answered]
  split
  · exact asked_performed.trans (or_congr_right (and_iff_right ‹_›).symm)
  · exact (or_iff_left fun h => ‹¬ i = j› h.1).symm

lemma cleared_answered (j : Nat) : Cleared ((s.answered i call p e a device files).told j) ↔
    Cleared (s.told j) ∨ i = j ∧ e.Revokes := by
  rw [told_answered]
  split
  · exact cleared_performed.trans (or_congr_right (and_iff_right ‹_›).symm)
  · exact (or_iff_left fun h => ‹¬ i = j› h.1).symm

end Answered

section Accounted

variable {requested : σ → Prop} {first : System σ}

/-- A step leaves it at that, in which nothing more is asked for, and nothing is taken back. -/
lemma Accounted.carry (h : Accounted requested g first s) (watched : Watched setup g s)
    (after : Watched setup g t) (step : Step setup around s t) (before : requested s.device)
    (asked : ∀ j, Asked (t.told j) → Asked (s.told j))
    (cleared : ∀ j, Cleared (t.told j) → Cleared (s.told j)) : Accounted requested g first t := by
  intro _
  rcases h before with ⟨hfirst, hall⟩ | ⟨j, works, ⟨e, a, hmem, he⟩, hnot⟩ | hrest
  · exact .inl ⟨hfirst, fun j ha => hall j (asked j ha)⟩
  · have hmem' := mem_told.mpr (step.extends.history _ (mem_told.mp hmem))
    exact .inr (.inl ⟨j, step.extends.worksFor works, ⟨e, a, hmem', he⟩,
      fun hc => hnot (cleared j hc)⟩)
  · exact .inr (.inr (watched.rest_step after step hrest))

/-- A call that has the recovery system take a request has yet to take it back. -/
lemma Watched.accounted_of_requests (watched : Watched setup g s) {i : Nat} {call : Call}
    {p : Point} {e : Effect} {a : Answer} {device : σ} {files : FileSystem}
    (here : s.threads[i]? = some ⟨call, .running p⟩) (asks : p.move setup s.world = .effect e)
    (gets : around.answers e s.device s.world.files a device files)
    (after : Watched setup g (s.answered i call p e a device files))
    (new : e.Requests ∧ e.Works a) :
    Accounted requested g first (s.answered i call p e a device files) := by
  obtain ⟨k, target, package, rest, rfl⟩ := (watched.balanced i call _ here).installs asks new.1
  have hworks := watched.sole.worksFor here (fun call' hrole => by cases hrole) id
  have hlt := (List.getElem?_eq_some_iff.mp here).1
  exact fun _ => .inr (.inl ⟨i, (Step.answer here asks gets).extends.worksFor hworks,
    (asked_answered i).mpr (.inr ⟨rfl, new⟩),
    (after.balanced i call _ (List.getElem?_set_self hlt)).1⟩)

/-- A restart belongs to a reset, and only an update that was not given up is reset. -/
lemma Watched.accounted_of_restart (watched : Watched setup g s) {i : Nat} {call : Call}
    {p : Point} {plan : RebootPlan} (here : s.threads[i]? = some ⟨call, .running p⟩)
    (asks : p.move setup s.world = .effect (.restart plan)) (step : Step setup around s t)
    (after : Watched setup g t) : Accounted requested g first t := by
  obtain rfl := (asks_of_move asks).scheduling_of_restart
    (watched.sole.steady.stays i call p here)
  have hstate : s.world.controller.state = .resetDecision := watched.sole.steady.fits here
  refine fun _ => .inr (.inr (watched.rest_step after step ⟨?_, fun hlogged => ?_⟩))
  · simp [hstate, SessionState.isBusy, SessionState.isOpen, SessionState.isLate]
  · rcases watched.sole.cancelled hlogged with hs | hs <;> simp [hstate] at hs

lemma Accounted.step (h : Accounted requested g first s) (watched : Watched setup g s)
    (after : Watched setup g t) (recovers : around.Recovers requested)
    (step : Step setup around s t) : Accounted requested g first t := by
  intro hrequested
  have hcarry := h.carry watched after step
  cases step with
  | start may => exact hcarry hrequested (fun _ ha => ha) (fun _ hc => hc) hrequested
  | wake here waits => exact hcarry hrequested (fun _ ha => ha) (fun _ hc => hc) hrequested
  | engine goes => exact hcarry hrequested (fun _ ha => ha) (fun _ hc => hc) hrequested
  | drift goes =>
    exact hcarry (recovers.drifts _ _ _ _ goes hrequested) (fun _ ha => ha) (fun _ hc => hc)
      hrequested
  | @move i call p w st here goes =>
    have hgoes := goes_of_move goes
    exact hcarry hrequested (fun j => (asked_moved hgoes j).mp)
      (fun j => (cleared_moved hgoes j).mp) hrequested
  | @answer i call p e a device files here asks gets =>
    by_cases hnew : e.Requests ∧ e.Works a
    · exact watched.accounted_of_requests here asks gets after hnew hrequested
    rcases recovers.asks _ _ _ _ _ _ gets hrequested with hs | hr | ⟨plan, rfl⟩
    · have hkept : ¬ e.Revokes := fun hr => recovers.clears _ _ _ _ _ _ gets hr hrequested
      exact hcarry hs
        (fun j ha => ((asked_answered j).mp ha).resolve_right fun hr => hnew hr.2)
        (fun j hc => ((cleared_answered j).mp hc).resolve_right fun hr => hkept hr.2) hrequested
    · exact absurd hr hnew
    · exact watched.accounted_of_restart here asks (.answer here asks gets) after hrequested

end Accounted

/-! ### The beginning -/

/-- What holds when a request is accepted while no call of an update before is late. -/
lemma Traced.begins (h : Traced s) (requested : σ → Prop) (balanced : Balanced setup s)
    (housed : s.Housed setup) (step : Step setup around s t) (begins : System.Begins g s t)
    (unstreamed : ¬ t.Streamed g) : Watched setup g t ∧ There setup g t ∧ KeepsOne g t ∧
      Resolved g t ∧ Accounted requested g s t := by
  have hsole := h.sole step begins unstreamed
  obtain ⟨i, call, p, q, w, accepts⟩ := begins.accepts step
  have hkeeps (path : String) : ¬ t.Keeps g path := by
    rintro ⟨j, -, o, hj⟩
    refine (hsole.recorded o ⟨j, hj⟩).1.idle ?_
    rw [accepts.controller_eq]
    exact .inl (.inl rfl)
  refine ⟨⟨hsole, balanced.step h.made step, housed.step step⟩,
    ⟨?_, ?_, fun path hk => absurd hk (hkeeps path)⟩, fun path _ hk => absurd hk (hkeeps path), ?_,
    fun hrequested => .inl ?_⟩
  · refine accepts.all (h.entering begins.polite) ?_ ?_
    · obtain ⟨target, file, size, rfl | rfl⟩ := accepts.begun <;> trivial
    · intro j call' p' there hentering
      refine Point.finds_of_not_holds (h.grounded.serving j call' p' there) fun hholds => ?_
      rcases hentering with ⟨c, hc⟩ | hstreams
      · rw [hc] at hholds
        exact hholds
      · exact Point.not_rests_of_streaming hstreams (Role.rests_of_holds hholds)
  · intro u path handle hu
    rw [accepts.controller_eq] at hu
    cases hu
  · intro j path result hj
    obtain ⟨target, file, he⟩ :=
      accepts.accepted_of_logged (h.unknown step begins) rfl ⟨j, hj⟩
    cases he
  · obtain rfl := accepts.moved
    exact ⟨hrequested, fun j => (asked_moved accepts.goes j).mp⟩

/-! ### Nothing is left behind -/

/-- What a cancelled update leaves: the controller rests, no outcome is recorded, each of its calls
took back exactly what it had asked the recovery system for, and a request that the recovery system
still has is older than the update. -/
structure Undone (requested : σ → Prop) (g : Nat) (first s : System σ) : Prop where
  idle : s.world.controller.state = .idle
  outcome : s.world.controller.outcome = none
  unrecorded : ∀ o, ¬ s.Logged (.recorded g o)
  balanced : ∀ i, s.WorksFor i g → (Cleared (s.told i) ↔ Asked (s.told i))
  request : requested s.device →
    requested first.device ∧ ∀ i, Asked (s.told i) → Asked (first.told i)

lemma Watched.undone {requested : σ → Prop} {first : System σ} (h : Watched setup g s)
    (ended : s.Over g) (accounted : Accounted requested g first s)
    (logged : s.Logged (.cancelled g)) : Undone requested g first s := by
  obtain ⟨hidle, houtcome, hunrecorded⟩ := h.sole.idle_of_over ended logged
  have hcleared {i : Nat} (works : s.WorksFor i g) :=
    h.balanced.of_over h.sole ended logged works
  refine ⟨hidle, houtcome, hunrecorded, fun i works => hcleared works, fun hrequested => ?_⟩
  rcases accounted hrequested with hold | ⟨i, works, hasked, hnot⟩ | ⟨-, hnot⟩
  · exact hold
  · exact absurd ((hcleared works).mpr hasked) hnot
  · exact absurd logged hnot

/-- Each call that is at work on the update when it is given up answers with an error. -/
lemma Watched.error_of_over {u : System σ} (h : Watched setup g s) (step : Step setup around s t)
    (after : Watched setup g t) (run : Run setup around t u) (unstreamed : ¬ u.Streamed g)
    (ended : u.Over g) (before : ¬ s.Logged (.cancelled g)) (now : t.Logged (.cancelled g))
    {i : Nat} (running : s.Running i) (works : s.WorksFor i g) :
    ∃ call r, u.threads[i]? = some ⟨call, .returned r⟩ ∧ r.IsError := by
  obtain ⟨-, -, call, st, here, hfails⟩ := after.keeps
    (P := fun x => x.Logged (.cancelled g) ∧ x.Fails i) run ended.current unstreamed
    ⟨now, h.sole.fails_of_cancelled step before now running works⟩
    fun hx ⟨hlogged, hfails⟩ step _ _ =>
      ⟨step.extends.logged hlogged, hx.sole.fails_step hlogged hfails step⟩
  cases st with
  | running p =>
    have hworks := (Run.extends (.head step run)).worksFor works
    exact absurd ⟨_, here, rfl⟩ (ended.returned i hworks)
  | returned r => exact ⟨call, r, here, hfails⟩

/-- Once all calls of a staged update have returned, if no call of an update before was late when it
was accepted and no other one was accepted meanwhile, no file that it made is there, however it
ended, but for the one package that it installed on a single system partition without being given
up; and that one is there. If the update was given up, it is undone, and each call that was at work
on it then has answered with an error. -/
theorem nothing_left_behind {files : FileSystem} {layout : Option BootLayout} {w : World} {d : σ}
    {requested : σ → Prop} {a b : System σ} (built : setup.build files layout = .ok w)
    (names : around.KeepsNames setup) (recovers : around.Recovers requested)
    (before : Run setup around (System.fresh w d) a) (accepted : Step setup around a b)
    (begins : System.Begins g a b) (run : Run setup around b s) (unstreamed : ¬ s.Streamed g)
    (ended : s.Over g) :
    (∀ u v path, Run setup around b u → Step setup around u v → Run setup around v s →
      u.Makes setup v g path → s.world.files.exists? path = true →
        s.Logged (.installed g path (.ok .single)) ∧ ¬ s.Logged (.cancelled g)) ∧
    (∀ path, s.Logged (.installed g path (.ok .single)) → ¬ s.Logged (.cancelled g) →
      (∀ path', s.Logged (.installed g path' (.ok .single)) → path' = path) ∧
        (s.Distinct g → s.world.files.exists? path = true)) ∧
    (s.Logged (.cancelled g) → Undone requested g a s) ∧
    ∀ u v i, Run setup around b u → Step setup around u v → Run setup around v s →
      ¬ u.Logged (.cancelled g) → v.Logged (.cancelled g) → u.Running i → u.WorksFor i g →
        ∃ call r, s.threads[i]? = some ⟨call, .returned r⟩ ∧ r.IsError := by
  obtain ⟨htraced, hbalanced, hhoused⟩ : Traced a ∧ Balanced setup a ∧ a.Housed setup := by
    refine before.keeps (P := fun u => Traced u ∧ Balanced setup u ∧ u.Housed setup)
      ⟨traced_fresh w d (build_controller built), balanced_fresh w d,
        housed_fresh w d (build_controller built)⟩ ?_
    rintro u v ⟨htraced, hbalanced, hhoused⟩ step
    exact ⟨htraced.step step, hbalanced.step htraced.made step, hhoused.step step⟩
  have hstreamed : ¬ b.Streamed g := by
    rintro ⟨stream, hopened⟩
    exact unstreamed ⟨stream, (Run.extends run).opened hopened⟩
  obtain ⟨hfirst, hthere, hone, hresolved, haccounted⟩ :=
    htraced.begins requested hbalanced hhoused accepted begins hstreamed
  have hwithin {u : System σ} (hu : Run setup around b u) (hus : Run setup around u s) :
      Watched setup g u := hfirst.within hu hus ended.current unstreamed
  obtain ⟨hlast, hone, hresolved, haccounted⟩ := hfirst.keeps
    (P := fun u => KeepsOne g u ∧ Resolved g u ∧ Accounted requested g a u) run ended.current
    unstreamed ⟨hone, hresolved, haccounted⟩ fun hw ⟨hone, hresolved, haccounted⟩ step hw' _ =>
      ⟨hone.step hw.sole hw.balanced step, hresolved.step hw.sole step,
        haccounted.step hw hw' recovers step⟩
  have hkeeps := hresolved.keeps hlast.sole ended
  refine ⟨?_, ?_, fun hlogged => ?_, ?_⟩
  · intro u v path hu step hv makes exists_
    exact (hkeeps path).mp (makes.over (hwithin hu (.head step hv)) step (hwithin (hu.tail step) hv)
      hv names unstreamed ended exists_)
  · intro path hinstalled hnot
    have hkept := (hkeeps path).mpr ⟨hinstalled, hnot⟩
    exact ⟨fun path' hinstalled' => hone _ _ ((hkeeps path').mpr ⟨hinstalled', hnot⟩) hkept,
      fun distinct =>
        (hfirst.stands_of_over run names unstreamed ended hthere distinct hkept).1⟩
  · exact hlast.undone ended haccounted hlogged
  · intro u v i hu step hv hbefore hnow running works
    exact (hwithin hu (.head step hv)).error_of_over step (hwithin (hu.tail step) hv) hv unstreamed
      ended hbefore hnow running works

end

/-! ### A cancel during an install -/

/-- The update goes to a stream. -/
def Event.streams : Event → Bool
  | .opened _ (.streaming _) => true
  | _ => false

/-- The package of a manifest was assembled. -/
def Event.assembles : Event → Bool
  | .assembled _ _ _ _ => true
  | _ => false

/-- The update is given up. -/
def Event.givesUp : Event → Bool
  | .cancelled _ => true
  | _ => false

namespace Small

/-- Like `noting`, and a request to the recovery system can be cleared as a whole. -/
def recovering : Answers Environment := fun e env files =>
  match e with
  | .clearRecovery => (.ok (.ok ""), env.change ["boot_recovery"], files)
  | e => noting e env files

def recover? (s : System Environment) (choices : List Choice) : Option (System Environment) :=
  s.replay? setup (fun _ _ => true) recovering choices

/-- A request is made, and accepted next. -/
def beforeAccept : System Environment := unnoted.start (.request 0 "image.swu" 4)

def afterAccept : System Environment := (recover? beforeAccept [.go 0]).getD unnoted

/-- The file is about to be opened, and is opened next. -/
def beforeOpen : System Environment := (recover? afterAccept [.go 0]).getD unnoted

def afterOpen : System Environment := (recover? beforeOpen [.go 0]).getD unnoted

/-- The recovery system is asked to install the package, and then the update is cancelled. -/
def carrying : List Choice :=
  [.go 0, .start (.data 0 0 [100, 97, 116, 97] true)] ++ List.replicate 5 (.go 1) ++
    [.start (.cancel 0 .userAbort)]

def beforeAbandon : System Environment := (recover? afterOpen carrying).getD unnoted

def afterAbandon : System Environment := (recover? beforeAbandon [.go 2]).getD unnoted

def undoing : List Choice := List.replicate 7 (.go 1)

def afterUndo : System Environment := (recover? afterAbandon undoing).getD unnoted

/-- Without an event of a stream in the history nothing was streamed. -/
lemma unstreamed_of_history {s : System Environment} (staged : s.history.all (!·.2.streams))
    (g : Nat) : ¬ s.Streamed g := by
  rintro ⟨stream, delivery, ⟨i, hi⟩, hclosed⟩
  have hopened := List.all_eq_true.mp staged _ hi
  cases delivery with
  | staged path file => cases hclosed
  | streaming stream' => cases hopened

lemma over_of_returned {s : System Environment} {g : Nat}
    (current : s.world.controller.generation = g) (closed : ¬ s.world.controller.state.isOpen)
    (returned : s.threads.all (!·.status.isRunning)) : s.Over g := by
  refine ⟨current, closed, fun i _ ⟨thread, hthread, hrunning⟩ => ?_⟩
  have hnot := List.all_eq_true.mp returned thread (List.mem_of_getElem? hthread)
  rw [hrunning] at hnot
  cases hnot

lemma run_recover {choices : List Choice} {s t : System Environment}
    (h : recover? s choices = some t) : Run setup (.free recovering) s t :=
  run_of_replay (allows_free recovering) h

lemma step_recover {s t : System Environment} {i : Nat} (h : s.go? setup recovering i = some t) :
    Step setup (.free recovering) s t :=
  step_of_go (allows_free recovering).answers h

lemma recovering_keepsNames : (Surroundings.free recovering).KeepsNames setup := by
  constructor
  · intro e env files a env' files' h
    refine .of_eq ?_
    have hfiles := (Prod.mk.inj (Prod.mk.inj h).2).2
    cases e <;> exact hfiles
  · rintro env files env' files' ⟨⟩

lemma recovering_recovers : (Surroundings.free recovering).Recovers Environment.Flagged := by
  constructor
  · intro e env files a env' files' h flagged
    cases e with
    | run c =>
      obtain ⟨rfl, rfl, -⟩ : a = .ok (.ok "") ∧
          env' = (if c.program = "fw_setenv" then env.change c.arguments else env) ∧ _ := by
        simpa [Surroundings.free, recovering, noting] using h
      split at flagged
      · rename_i hprogram
        refine (Environment.flagged_of_change flagged).imp_right fun harguments => .inl ⟨?_, rfl⟩
        obtain ⟨program, arguments, timeout⟩ := c
        obtain rfl : program = "fw_setenv" := hprogram
        obtain rfl : arguments = ["boot_recovery", "yes"] := harguments
        exact .inr ⟨timeout, rfl⟩
      · exact .inl flagged
    | clearRecovery =>
      rw [(Prod.mk.inj (Prod.mk.inj h).2).1] at flagged
      exact (Environment.flagged_of_change flagged).imp_right fun h => by simp at h
    | restart plan => exact .inr (.inr ⟨plan, rfl⟩)
    | writeRecovery | startEngine | postUpdate =>
      rw [(Prod.mk.inj (Prod.mk.inj h).2).1] at flagged
      exact .inl flagged
  · rintro e env files a env' files' h (rfl | ⟨timeout, rfl⟩)
    · rw [(Prod.mk.inj (Prod.mk.inj h).2).1]
      simp [Environment.Flagged, Environment.change]
    · rw [(Prod.mk.inj (Prod.mk.inj h).2).1]
      simp [Environment.Flagged, Environment.change]
  · rintro env files env' files' ⟨⟩

end Small

theorem cancelled_install_leaves_nothing :
    Small.afterUndo.Logged (.cancelled 1) ∧ ¬ Environment.Flagged Small.afterUndo.device ∧
      Small.afterUndo.world.files.exists? "dl/image.swu" = false ∧
        Undone Environment.Flagged 1 Small.beforeAccept Small.afterUndo ∧
          ∃ call r, Small.afterUndo.threads[1]? = some ⟨call, .returned r⟩ ∧ r.IsError := by
  have hbuilt : Small.setup.build Small.files (some .single) = .ok (Small.world .single) := rfl
  have hbegins : System.Begins 1 Small.beforeAccept Small.afterAccept := by
    refine ⟨by decide, rfl, ?_⟩
    rintro i call p - k ⟨e, he, -⟩
    cases he
  have hbefore := Small.run_recover
    (rfl : Small.recover? Small.afterAccept [.go 0] = some Small.beforeOpen)
  have hopen := Small.step_recover (rfl : Small.beforeOpen.go? _ _ 0 = some Small.afterOpen)
  have hrun := Small.run_recover
    (rfl : Small.recover? Small.afterOpen Small.carrying = some Small.beforeAbandon)
  have hcancel :=
    Small.step_recover (rfl : Small.beforeAbandon.go? _ _ 2 = some Small.afterAbandon)
  have hrest := Small.run_recover
    (rfl : Small.recover? Small.afterAbandon Small.undoing = some Small.afterUndo)
  have hunstreamed : ¬ Small.afterUndo.Streamed 1 := Small.unstreamed_of_history rfl 1
  have hover : Small.afterUndo.Over 1 :=
    Small.over_of_returned rfl (fun h => not_busy_of_idle rfl (.inl h)) rfl
  obtain ⟨hfiles, -, hundone, herror⟩ := nothing_left_behind hbuilt Small.recovering_keepsNames
    Small.recovering_recovers (.single (.start trivial))
    (Small.step_recover (rfl : Small.beforeAccept.go? _ _ 0 = some Small.afterAccept)) hbegins
    (hbefore.trans ((hrun.head hopen).trans (hrest.head hcancel))) hunstreamed hover
  have hnow : Small.afterAbandon.Logged (.cancelled 1) := ⟨2, List.mem_of_getElem? (i := 0) rfl⟩
  have hlogged : Small.afterUndo.Logged (.cancelled 1) := (Run.extends hrest).logged hnow
  have hnot : ¬ Small.beforeAbandon.Logged (.cancelled 1) := by
    rintro ⟨i, hi⟩
    have hnone : Small.beforeAbandon.history.all (!·.2.givesUp) = true := rfl
    cases List.all_eq_true.mp hnone _ hi
  refine ⟨hlogged, fun hflagged => ?_, Bool.eq_false_iff.mpr fun hexists => ?_, hundone hlogged, ?_⟩
  · cases ((hundone hlogged).request hflagged).1
  · exact (hfiles Small.beforeOpen Small.afterOpen _ hbefore hopen
      (hrun.trans (hrest.head hcancel)) (.download ⟨rfl, _, _, rfl, rfl⟩ rfl) hexists).2 hlogged
  · exact herror Small.beforeAbandon Small.afterAbandon 1 (hbefore.trans (hrun.head hopen)) hcancel
      hrest hnot hnow ⟨_, rfl, rfl⟩ ⟨_, List.mem_of_getElem? (i := 2) rfl, rfl⟩

/-! ### A call that is late -/

namespace Small

/-- An update is cancelled after the recovery system was asked to install its package. Its call has
given it up, and not withdrawn the request yet; the next update asks for the same file name. -/
def givingUp : List Choice :=
  [.start (.request 0 "image.swu" 4)] ++ List.replicate 3 (.go 0) ++ carrying ++ [.go 2] ++
    List.replicate 3 (.go 1) ++ [.start (.request 0 "image.swu" 4)]

def beforeSuccessor : System Environment := (recover? unnoted givingUp).getD unnoted

def afterSuccessor : System Environment := (recover? beforeSuccessor [.go 3]).getD unnoted

/-- The next update is installed, and then the call of the first one goes on. -/
def losing : List Choice :=
  List.replicate 3 (.go 3) ++ .start (.data 0 0 [100, 97, 116, 97] true) ::
    (List.replicate 8 (.go 4) ++ List.replicate 4 (.go 1))

def afterLoss : System Environment := (recover? afterSuccessor losing).getD unnoted

end Small

/-- An update can be accepted while the call of a cancelled one before has its cleanup to do. It is
installed on the single system partition, nobody cancels it, and all calls return; but its package
is gone then, and its request to the recovery system is withdrawn. -/
theorem late_withdrawal_takes_next_package :
    (Surroundings.free Small.recovering).KeepsNames Small.setup ∧
      (Surroundings.free Small.recovering).Recovers Environment.Flagged ∧
      Run Small.setup (.free Small.recovering) Small.unnoted Small.beforeSuccessor ∧
      Step Small.setup (.free Small.recovering) Small.beforeSuccessor Small.afterSuccessor ∧
      Small.beforeSuccessor.world.controller.generation = 1 ∧
      Small.afterSuccessor.world.controller.generation = 2 ∧
      Run Small.setup (.free Small.recovering) Small.afterSuccessor Small.afterLoss ∧
      Small.afterLoss.Over 2 ∧ ¬ Small.afterLoss.Streamed 2 ∧ Small.afterLoss.Distinct 2 ∧
      Small.afterLoss.Logged (.installed 2 "dl/image.swu" (.ok .single)) ∧
      ¬ Small.afterLoss.Logged (.cancelled 2) ∧
      Small.afterLoss.world.files.exists? "dl/image.swu" = false ∧
      ¬ Environment.Flagged Small.afterLoss.device := by
  have hbefore := Small.run_recover
    (rfl : Small.recover? Small.unnoted Small.givingUp = some Small.beforeSuccessor)
  have haccept :=
    Small.step_recover (rfl : Small.beforeSuccessor.go? _ _ 3 = some Small.afterSuccessor)
  have hrun := Small.run_recover
    (rfl : Small.recover? Small.afterSuccessor Small.losing = some Small.afterLoss)
  have hover : Small.afterLoss.Over 2 := by
    refine Small.over_of_returned rfl (fun h => ?_) rfl
    rcases h with hstate | hstate <;> cases hstate
  refine ⟨Small.recovering_keepsNames, Small.recovering_recovers, hbefore, haccept, rfl, rfl, hrun,
    hover, Small.unstreamed_of_history rfl 2, ?_, ⟨4, List.mem_of_getElem? (i := 3) rfl⟩, ?_, rfl,
    fun hflagged => by cases hflagged⟩
  · intro i manifest package files hi
    have hnone : Small.afterLoss.history.all (!·.2.assembles) = true := rfl
    cases List.all_eq_true.mp hnone _ hi
  · rintro ⟨i, hi⟩
    have hnone : Small.afterLoss.history.all
        (fun e => !(e.2.givesUp && e.2.generation? == some 2)) = true := rfl
    cases List.all_eq_true.mp hnone _ hi

end DeviceUpdate.Session
