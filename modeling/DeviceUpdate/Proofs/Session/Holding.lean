import DeviceUpdate.Proofs.Session.Effects
import DeviceUpdate.Proofs.Session.Lifecycle

/-!
# Who holds a stream

The stream of an engine passes from the call that starts the engine to the controller, and from
there to a call that stops it, which waits until the engine has reported its end. Only the call that
ends a streamed update lets a stream go.
-/

namespace DeviceUpdate

/-- The active update goes to this stream. -/
def Controller.Feeds (c : Controller) (n : Nat) : Prop :=
  ∃ u, c.active = some u ∧ u.delivery = .streaming n

lemma Controller.Consistent.not_feeds {c : Controller} (h : c.Consistent) (free : c.accepts)
    {n : Nat} : ¬ c.Feeds n := by
  rintro ⟨u, hu, -⟩
  rw [h.inactive free] at hu
  cases hu

namespace Session

variable {σ : Type} {setup : Setup} {around : Surroundings σ} {s t : System σ}

/-- An engine was started on this stream. -/
def System.Started (s : System σ) (n : Nat) : Prop :=
  ∃ request output, s.Logged (.performed (.startEngine n request) (.ok output))

/-- The stream that a call is about to hand to the controller, or is stopping for it. -/
def Point.stream? : Point → Option Nat
  | .settling _ _ (.streaming n) | .discarding _ (.streaming n) _ | .stopping n _ (some _) _ =>
    some n
  | _ => none

/-- A call that stops a stream waits until the engine has reported its end. -/
def Point.StopsWell : Point → Prop
  | .stopping _ rest _ _ => rest = .abort ∨ rest = .awaitAbort
  | _ => True

lemma resume_of_stream {p : Point} {n : Nat} (h : p.stream? = some n) (a : Answer) :
    p.resume a = p := by
  cases p with
  | settling | discarding | stopping => rfl
  | _ => simp [Point.stream?] at h

lemma wake_of_stream {p : Point} {n : Nat} (h : p.stream? = some n) : p.wake = p := by
  cases p with
  | settling | discarding | stopping => rfl
  | _ => simp [Point.stream?] at h

/-- A call that holds a stream sets its update up, or undoes it. -/
lemma role_of_stream {p : Point} {n : Nat} (h : p.stream? = some n) :
    ∃ g, p.role = .setup g ∨ p.role = .undo g := by
  cases p with
  | settling g target delivery => exact ⟨g, .inl rfl⟩
  | discarding g delivery reply => exact ⟨g, .inr rfl⟩
  | stopping stream rest release reply =>
    cases release with
    | none => simp [Point.stream?] at h
    | some g => exact ⟨g, .inr rfl⟩
  | _ => simp [Point.stream?] at h

section Goes

variable {w w' : World} {p p' : Point} {st : Status}

/-- A stream that an update goes to comes from the controller, or from the call. -/
lemma Goes.feeds_back (h : Goes setup w p w' st) {n : Nat} (feeds : w'.controller.Feeds n) :
    w.controller.Feeds n ∨ p.stream? = some n := by
  obtain ⟨u, hu, hstream⟩ := feeds
  obtain ⟨-, ⟨v, hv, -, hclosed⟩ | ⟨g, rfl, -⟩⟩ := h.active_back hu
  · exact .inl ⟨v, hv, Delivery.streaming_of_closed hclosed hstream⟩
  · rw [hstream]
    exact .inr rfl

/-- A stream that a call holds comes from the call, or from the controller. -/
lemma Goes.stream_back (h : Goes setup w p w' (.running p')) {n : Nat}
    (holds : p'.stream? = some n) : p.stream? = some n ∨ w.controller.Feeds n := by
  generalize hst : Status.running p' = st at h
  cases h with
  | request h =>
    cases h with
    | refused code => cases hst
    | accepted known name free goes =>
      cases hst
      obtain ⟨-, rfl⟩ | rfl := goes <;> simp [Point.stream?] at holds
  | data h =>
    cases h with
    | finished takes delivery write final synced =>
      generalize ActiveUpdate.target _ = target at hst
      cases target <;> cases hst <;> simp [Point.stream?] at holds
    | _ =>
      cases hst
      all_goals simp [Point.stream?] at holds
  | cancel h =>
    cases h with
    | @active u open_ update same =>
      cases hst
      right
      refine ⟨u, update, ?_⟩
      cases hd : u.delivery with
      | staged path file => simp [Point.stream?, hd] at holds
      | streaming m =>
        obtain rfl : m = n := by simpa [Point.stream?, hd] using holds
        rfl
    | _ =>
      cases hst
      all_goals simp [Point.stream?] at holds
  | reset h =>
    cases h with
    | refused decision unscheduled => cases hst
    | begun done path =>
      generalize w.controller.outcome = outcome at path
      cases hst
      cases path <;> simp [Point.stream?] at holds
  | inside wraps h => cases wraps <;> cases hst <;> exact .inl holds
  | @lost g target delivery lost =>
    cases hst
    cases delivery with
    | staged path file => simp [Point.stream?] at holds
    | streaming m => exact .inl holds
  | discardedStream =>
    cases hst
    exact .inl holds
  | @stops stream rest rest' slot release reply h =>
    cases hst
    cases release with
    | none => simp [Point.stream?] at holds
    | some g => exact .inl holds
  | _ =>
    cases hst
    all_goals simp [Point.stream?] at holds

/-- The call that records or undoes a streamed update. -/
def Point.EndsStream (g : Nat) : Point → Prop
  | .pushFailed g' _ => g' = g
  | .concluding g' outcome _ _ => g' = g ∧ outcome.mode = .streaming
  | _ => False

/-- An update keeps its stream until it is cancelled, which leaves the stream to the call that
cancels, or until a data call ends it. -/
lemma Goes.feeds_on (h : Goes setup w p w' st) (fits : p.role.Fits w.controller)
    (consistent : w.controller.Consistent) {n : Nat} (feeds : w.controller.Feeds n) :
    w'.controller.Feeds n ∨
      (∃ p', st = .running p' ∧ p'.stream? = some n ∧ w'.controller.state = .cancelled) ∨
      p.EndsStream w.controller.generation := by
  have hfeeds := feeds
  obtain ⟨u, hu, hstream⟩ := feeds
  have hnone (none : w.controller.active = none) : False := by
    rw [hu] at none
    cases none
  have hconclude {g : Nat} {outcome : UpdateOutcome}
      (fits : (Role.ofOutcome g outcome.mode).Fits w.controller) :
      (w.controller.conclude g outcome).2.Feeds n ∨
        g = w.controller.generation ∧ outcome.mode = .streaming := by
    cases hmode : outcome.mode with
    | staged =>
      rw [hmode] at fits
      have hstaged := fits.2.2.2 u hu
      simp [hstream, Delivery.mode] at hstaged
    | streaming =>
      obtain ⟨-, heq⟩ | ⟨hg, -⟩ | ⟨hg, -⟩ := w.controller.conclude_cases g outcome
      · rw [heq]
        exact .inl hfeeds
      · exact .inr ⟨hg.symm, rfl⟩
      · exact .inr ⟨hg.symm, rfl⟩
  cases h with
  | request h =>
    cases h with
    | refused code => exact .inl hfeeds
    | accepted known name free goes => exact absurd hfeeds (consistent.not_feeds free)
  | data h =>
    cases h with
    | refused code => exact .inl hfeeds
    | @pushed v stream takes delivery =>
      obtain rfl := Option.some.inj (hu.symm.trans takes.active)
      obtain rfl : stream = n := by simpa [delivery] using hstream
      exact .inl ⟨_, rfl, rfl⟩
    | failed code takes delivery kept =>
      obtain rfl := Option.some.inj (hu.symm.trans takes.active)
      simp [delivery] at hstream
    | written takes delivery write more =>
      obtain rfl := Option.some.inj (hu.symm.trans takes.active)
      simp [delivery] at hstream
    | finished takes delivery write final synced =>
      obtain rfl := Option.some.inj (hu.symm.trans takes.active)
      simp [delivery] at hstream
  | cancel h =>
    cases h with
    | ignored => exact .inl hfeeds
    | early open_ none => exact (hnone none).elim
    | active open_ update same =>
      obtain rfl := Option.some.inj (hu.symm.trans update)
      exact .inr (.inl ⟨_, rfl, by rw [hstream]; rfl, rfl⟩)
    | late late => exact .inl ⟨u, hu, hstream⟩
    | lateStream late update delivery => exact .inl ⟨u, hu, hstream⟩
  | reset h =>
    cases h with
    | refused decision unscheduled => exact .inl hfeeds
    | begun done path => exact .inl ⟨u, hu, hstream⟩
  | settled owner => exact (hnone fits.2.2).elim
  | setupFailed => exact (hnone fits.2.2).elim
  | released => exact (hnone fits.2.2).elim
  | @pushFailed g code =>
    by_cases howns : w.controller.owns g
    · exact .inr (.inr (Controller.owns_iff.mp howns).1.symm)
    · exact .inl ⟨u, by rwa [if_neg howns], hstream⟩
  | handed owner => exact .inl ⟨u, hu, hstream⟩
  | recorded current => exact (hconclude fits).imp_right .inr
  | givenUp lost => exact (hconclude fits).imp_right .inr
  | takenBack lost => exact (hconclude fits).imp_right .inr
  | resetDone => exact .inl ⟨u, hu, hstream⟩
  | _ => exact .inl hfeeds

/-- A call keeps its stream, hands it to the controller, or stopped it. -/
lemma Goes.stream_on (h : Goes setup w p w' st) (stops : p.StopsWell) {n : Nat}
    (holds : p.stream? = some n) :
    w'.controller.Feeds n ∨ (∃ p', st = .running p' ∧ p'.stream? = some n) ∨
      (w'.slot n).signaled := by
  cases h with
  | @settled g target delivery owner =>
    left
    cases delivery with
    | staged path file => simp [Point.stream?] at holds
    | streaming m =>
      obtain rfl : m = n := by simpa [Point.stream?] using holds
      exact ⟨_, rfl, rfl⟩
  | @lost g target delivery lost =>
    right; left
    cases delivery with
    | staged path file => simp [Point.stream?] at holds
    | streaming m => exact ⟨_, rfl, holds⟩
  | discardedFile => simp [Point.stream?] at holds
  | discardedStream => exact .inr (.inl ⟨_, rfl, holds⟩)
  | @stops stream rest rest' slot release reply h =>
    cases release with
    | none => simp [Point.stream?] at holds
    | some g => exact .inr (.inl ⟨_, rfl, holds⟩)
  | @stoppedOwn stream g rest slot reply r hmove =>
    right; right
    obtain rfl : stream = n := by simpa [Point.stream?] using holds
    have hgrows : w.Grows (w.setSlot stream slot) :=
      World.grows_setSlot rfl (Stream.grows_of_move (q := rest) (by rw [hmove]; rfl))
    refine (hgrows stream).signaled ?_
    obtain rfl | rfl := stops
    · cases hmove
    · cases Stream.goes_of_move (congrArg Stream.Move.result? hmove) with
      | aborted done => simp [Slot.signaled, done]
  | inside wraps h => cases wraps <;> simp [Point.stream?] at holds
  | _ => simp [Point.stream?] at holds

lemma Goes.stopsWell (h : Goes setup w p w' (.running p')) (hp : p.StopsWell) : p'.StopsWell := by
  generalize hst : Status.running p' = st at h
  cases h with
  | request h =>
    cases h with
    | refused code => cases hst
    | accepted known name free goes =>
      cases hst
      obtain ⟨-, rfl⟩ | rfl := goes <;> trivial
  | data h =>
    cases h with
    | finished takes delivery write final synced =>
      generalize ActiveUpdate.target _ = target at hst
      cases target <;> cases hst <;> trivial
    | _ => cases hst <;> trivial
  | cancel h =>
    cases h with
    | lateStream late update delivery =>
      cases hst
      exact .inl rfl
    | _ => cases hst <;> trivial
  | reset h =>
    cases h with
    | refused decision unscheduled => cases hst
    | begun done path =>
      generalize w.controller.outcome = outcome at path
      cases hst
      cases path <;> trivial
  | inside wraps h => cases wraps <;> cases hst <;> trivial
  | discardedStream =>
    cases hst
    exact .inl rfl
  | @stops stream rest rest' slot release reply hmove =>
    cases hst
    right
    obtain rfl | rfl := hp
    · cases hmove
      rfl
    · cases Stream.goes_of_move (congrArg Stream.Move.result? hmove)
  | _ => cases hst <;> trivial

end Goes

/-- A call goes on by itself, or stays where it is but for an answer or some time. -/
lemma Step.fate (step : Step setup around s t) {i : Nat} {call : Call} {p : Point}
    (here : s.threads[i]? = some ⟨call, .running p⟩) :
    (∃ w st, Goes setup s.world p w st ∧ t = s.moved i call p w st) ∨
      ∃ p', t.threads[i]? = some ⟨call, .running p'⟩ ∧
        (p' = p ∨ p' = p.wake ∨ ∃ a, p' = p.resume a) := by
  have hlt := (List.getElem?_eq_some_iff.mp here).1
  cases step with
  | start may =>
    exact .inr ⟨p, by simpa [System.start, List.getElem?_append_left hlt] using here, .inl rfl⟩
  | @move j call' p' w st there goes =>
    by_cases hj : j = i
    · subst hj
      obtain ⟨rfl, hp⟩ := Thread.mk.inj (Option.some.inj (there.symm.trans here))
      obtain rfl := Status.running.inj hp
      exact .inl ⟨w, st, goes_of_move goes, rfl⟩
    · exact .inr ⟨p, by simpa [System.moved, List.getElem?_set_ne hj] using here, .inl rfl⟩
  | @answer j call' p' e a device files there asks gets =>
    right
    by_cases hj : j = i
    · subst hj
      obtain ⟨rfl, hp⟩ := Thread.mk.inj (Option.some.inj (there.symm.trans here))
      obtain rfl := Status.running.inj hp
      exact ⟨_, by simp [System.answered, List.getElem?_set_self hlt], .inr (.inr ⟨a, rfl⟩)⟩
    · exact ⟨p, by simpa [System.answered, List.getElem?_set_ne hj] using here, .inl rfl⟩
  | @wake j call' p' there waits =>
    right
    by_cases hj : j = i
    · subst hj
      obtain ⟨rfl, hp⟩ := Thread.mk.inj (Option.some.inj (there.symm.trans here))
      obtain rfl := Status.running.inj hp
      exact ⟨_, by simp [List.getElem?_set_self hlt], .inr (.inl rfl)⟩
    · exact ⟨p, by simpa [List.getElem?_set_ne hj] using here, .inl rfl⟩
  | engine goes => exact .inr ⟨p, here, .inl rfl⟩
  | drift goes => exact .inr ⟨p, here, .inl rfl⟩

/-- An engine that was started was so before, or its call got the answer in this step. -/
lemma Step.started (step : Step setup around s t) (stays : s.Stays) {n : Nat}
    (started : t.Started n) : s.Started n ∨
      ∃ (i : Nat) (call : Call) (p : Point), t.threads[i]? = some ⟨call, .running p⟩ ∧
        p.stream? = some n := by
  obtain ⟨request, output, k, hk⟩ := started
  have hold (hs : (k, .performed (.startEngine n request) (.ok output)) ∈ s.history) :
      s.Started n := ⟨request, output, k, hs⟩
  cases step with
  | start may => exact .inl (hold hk)
  | move here goes =>
    rcases mem_moved.mp hk with ⟨-, hlog⟩ | hs
    · have htells := (goes_of_move goes).tells hlog
      cases htells
    · exact .inl (hold hs)
  | @answer i call p e a device files here asks gets =>
    rcases List.mem_cons.mp hk with heq | hs
    · right
      obtain ⟨-, hevent⟩ := Prod.mk.inj heq
      obtain ⟨rfl, rfl⟩ := Event.performed.inj hevent
      obtain ⟨g, target, rfl⟩ :=
        (asks_of_move asks).starting_of_startEngine (stays i call p here)
      refine ⟨i, call, .settling g target (.streaming n), ?_, rfl⟩
      simp only [System.answered,
        getElem?_set_here here]
      rfl
    · exact .inl (hold hs)
  | wake here waits => exact .inl (hold hk)
  | engine goes => exact .inl (hold hk)
  | drift goes => exact .inl (hold hk)

/-- The streams that somebody holds are those of engines, and whoever stops one waits. -/
structure Tended (s : System σ) : Prop where
  stays : s.Stays
  stopsWell : s.All fun _ _ p => p.StopsWell
  feeds : ∀ n, s.world.controller.Feeds n → s.Started n
  holds : s.All fun _ _ p => ∀ n, p.stream? = some n → s.Started n

lemma Step.started_mono (step : Step setup around s t) {n : Nat} (h : s.Started n) :
    t.Started n := by
  obtain ⟨request, output, hlogged⟩ := h
  exact ⟨request, output, step.extends.logged hlogged⟩

lemma tended_fresh (w : World) (d : σ) (hw : w.controller = {}) : Tended (System.fresh w d) := by
  refine ⟨System.all_fresh w d, System.all_fresh w d, ?_, System.all_fresh w d⟩
  rintro n ⟨u, hu, -⟩
  simp [System.fresh, hw] at hu

lemma Tended.step (h : Tended s) (step : Step setup around s t) : Tended t := by
  refine ⟨step.stays h.stays, ?_, ?_, ?_⟩
  · refine h.stopsWell.step step (fun _ _ _ _ _ hp => hp) (fun _ _ => trivial)
      (fun _ _ _ _ _ _ goes _ hp => goes.stopsWell hp) ?_ ?_
    · intro i call p a hp
      cases p with
      | starting => cases a <;> trivial
      | _ => exact hp
    · intro i call p hp
      cases p <;> exact hp
  · intro n hn
    obtain hquiet | ⟨i, call, p, w, st, here, goes, rfl⟩ := step.quiet_or_goes
    · rw [hquiet.controller] at hn
      exact step.started_mono (h.feeds n hn)
    · rcases goes.feeds_back hn with hfeeds | hholds
      · exact step.started_mono (h.feeds n hfeeds)
      · exact step.started_mono (h.holds i call p here n hholds)
  · have hmono {n : Nat} : s.Started n → t.Started n := step.started_mono
    cases step with
    | start may =>
      exact h.holds.start (fun _ _ _ _ hp n hn => hmono (hp n hn)) fun n hn => by
        simp [Point.stream?] at hn
    | @move i call p w st here goes =>
      refine h.holds.set here (fun _ _ _ _ _ hp n hn => hmono (hp n hn)) fun p' hp' n hn => ?_
      dsimp only at hp'
      subst hp'
      rcases (goes_of_move goes).stream_back hn with hholds | hfeeds
      · exact hmono (h.holds i call p here n hholds)
      · exact hmono (h.feeds n hfeeds)
    | @answer i call p e a device files here asks gets =>
      refine h.holds.set here (fun _ _ _ _ _ hp n hn => hmono (hp n hn)) fun p' hp' n hn => ?_
      obtain rfl : p.resume a = p' := by simpa using hp'
      cases p with
      | starting g target stream request =>
        cases a with
        | error error => simp [Point.resume, Point.stream?] at hn
        | ok output =>
          obtain rfl : _ = e := by simpa [Point.move] using asks
          obtain rfl : stream = n := by simpa [Point.resume, Point.stream?] using hn
          exact ⟨request, output, i, List.mem_cons_self⟩
      | settling | discarding | stopping => exact hmono (h.holds i call _ here n hn)
      | _ => simp [Point.resume, Point.stream?] at hn
    | @wake i call p here waits =>
      refine h.holds.set here (fun _ _ _ _ _ hp n hn => hmono (hp n hn)) fun p' hp' n hn => ?_
      obtain rfl : p.wake = p' := by simpa using hp'
      cases p with
      | settling | discarding | stopping => exact hmono (h.holds i call _ here n hn)
      | _ => simp [Point.wake, Point.stream?] at hn
    | engine goes => exact fun i call p here n hn => hmono (h.holds i call p here n hn)
    | drift goes => exact fun i call p here n hn => hmono (h.holds i call p here n hn)

end Session

end DeviceUpdate
