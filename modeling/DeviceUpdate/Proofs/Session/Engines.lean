import DeviceUpdate.Proofs.Session.Holding

/-!
# One streaming engine at a time

An engine that was started works until it reports its end, and until then somebody holds its
stream. One call can let go of it: a chunk that finds its stream aborted is refused at once, and its
data call ends the update while the engine still winds down.
-/

namespace DeviceUpdate

/-- The engine has reported its end, or was told to stop. -/
def Slot.Over (s : Slot) : Prop := s.signaled ∨ s.aborted

lemma Slot.Over.mono {s t : Slot} (h : s.Over) (grows : s.Grows t) : t.Over :=
  h.imp grows.signaled grows.aborted

/-- After the outcome of the current update a request can be accepted. -/
lemma Controller.accepts_conclude {c : Controller} {g : Nat} (current : c.generation = g)
    (outcome : UpdateOutcome) : (c.conclude g outcome).2.accepts := by
  obtain ⟨hne, -⟩ | ⟨-, -, heq⟩ | ⟨-, -, heq⟩ := c.conclude_cases g outcome
  · exact absurd current hne
  · simp [heq, Controller.release, Controller.accepts]
  · simp [heq, Controller.accepts]

/-- If this update is current and active, it goes to this stream. -/
def World.Tied (w : World) (g n : Nat) : Prop :=
  w.controller.generation = g → ∀ u, w.controller.active = some u → u.delivery = .streaming n

/-- If this update is current and goes to a stream, the stream is over. -/
def World.Spent (w : World) (g : Nat) : Prop :=
  w.controller.generation = g → ∀ n, w.controller.Feeds n → (w.slot n).Over

lemma World.Tied.spent {w : World} {g n : Nat} (h : w.Tied g n) (ended : (w.slot n).Over) :
    w.Spent g := by
  rintro hg m ⟨u, hu, hstream⟩
  obtain rfl := Delivery.streaming.inj ((h hg u hu).symm.trans hstream)
  exact ended

namespace Session

variable {σ : Type} {setup : Setup} {around : Surroundings σ} {s t : System σ}

/-! ### Engines that work -/

/-- An engine was started on this stream and has not reported its end. -/
def System.Working (s : System σ) (n : Nat) : Prop :=
  s.Started n ∧ (s.world.slot n).signaled = false

/-- Somebody holds the stream. -/
def System.Held (s : System σ) (n : Nat) : Prop :=
  s.world.controller.Feeds n ∨
    ∃ (i : Nat) (call : Call) (p : Point), s.threads[i]? = some ⟨call, .running p⟩ ∧
      p.stream? = some n

/-- Each engine that works is held by somebody. -/
def Attended (s : System σ) : Prop := ∀ n, s.Working n → s.Held n

/-- The step ends an update whose engine still works. -/
def System.Deserts (s t : System σ) (n : Nat) : Prop :=
  s.world.controller.Feeds n ∧ t.world.controller.accepts ∧ (t.world.slot n).signaled = false

lemma Step.not_signaled (step : Step setup around s t) {n : Nat}
    (h : (t.world.slot n).signaled = false) : (s.world.slot n).signaled = false := by
  by_contra hne
  rw [Bool.not_eq_false] at hne
  rw [(step.extends.grows n).signaled hne] at h
  cases h

/-- Releasing and recording make the controller accept the next request. -/
lemma Goes.accepts_of_ends {w w' : World} {p : Point} {st : Status} (h : Goes setup w p w' st)
    (ends : p.EndsStream w.controller.generation) {n : Nat} (feeds : w.controller.Feeds n) :
    w'.controller.Feeds n ∨ w'.controller.accepts := by
  cases h with
  | @pushFailed g code =>
    by_cases howns : w.controller.owns g
    · right
      simp [howns, Controller.release, Controller.accepts]
    · left
      simpa [howns] using feeds
  | recorded current => exact .inr (Controller.accepts_conclude ends.1.symm _)
  | givenUp lost => exact .inr (Controller.accepts_conclude ends.1.symm _)
  | takenBack lost => exact .inr (Controller.accepts_conclude ends.1.symm _)
  | inside wraps h => cases wraps <;> exact ends.elim
  | _ => exact ends.elim

theorem Attended.step (h : Attended s) (tended : Tended s)
    (owned : Owned s.world.controller s.role) (consistent : s.world.controller.Consistent)
    (step : Step setup around s t) (keeps : ∀ n, ¬ s.Deserts t n) : Attended t := by
  rintro n ⟨hstarted, hworking⟩
  rcases step.started tended.stays hstarted with hstarted' | hnew
  · rcases h n ⟨hstarted', step.not_signaled hworking⟩ with hfeeds | ⟨i, call, p, here, hholds⟩
    · obtain hquiet | ⟨i, call, p, w, st, here, goes, rfl⟩ := step.quiet_or_goes
      · exact .inl (by rwa [hquiet.controller])
      · have hfits := owned.fits_here here
        rcases goes.feeds_on hfits consistent hfeeds with hfeeds' | ⟨p', rfl, hholds, -⟩ | hends
        · exact .inl hfeeds'
        · exact .inr ⟨i, call, p', by
            simp [System.moved, getElem?_set_here here],
            hholds⟩
        · rcases goes.accepts_of_ends hends hfeeds with hfeeds' | haccepts
          · exact .inl hfeeds'
          · exact absurd ⟨hfeeds, haccepts, hworking⟩ (keeps n)
    · obtain ⟨w, st, goes, rfl⟩ | ⟨p', there, hp'⟩ := step.fate here
      · rcases goes.stream_on (tended.stopsWell i call p here) hholds with
          hfeeds | ⟨p', rfl, hholds'⟩ | hsignaled
        · exact .inl hfeeds
        · exact .inr ⟨i, call, p', by
            simp [System.moved, getElem?_set_here here],
            hholds'⟩
        · rw [show (w.slot n).signaled = false from hworking] at hsignaled
          cases hsignaled
      · have hsame : p' = p := by
          rcases hp' with heq | heq | ⟨a, heq⟩
          · exact heq
          · rw [heq, wake_of_stream hholds]
          · rw [heq, resume_of_stream hholds]
        exact .inr ⟨i, call, p', there, by rwa [hsame]⟩
  · exact .inr hnew

/-! ### Requests that come too early -/

/-- The call prepares a partition for an engine, or starts the engine. -/
def Point.prepares : Point → Bool
  | .preparing _ _ _ | .starting _ _ _ _ => true
  | _ => false

/-- The next request can be accepted, or the next engine is about to be started, although an engine
still works. -/
def System.Crowded (s : System σ) : Prop :=
  (s.world.controller.accepts ∨ ∃ (i : Nat) (call : Call) (p : Point),
    s.threads[i]? = some ⟨call, .running p⟩ ∧ p.prepares) ∧ ∃ n, s.Working n

lemma Attended.not_crowded (h : Attended s) (owned : Owned s.world.controller s.role)
    (consistent : s.world.controller.Consistent) : ¬ s.Crowded := by
  rintro ⟨hfree, n, hworking⟩
  have hrole {j : Nat} {call : Call} {q : Point} (there : s.threads[j]? = some ⟨call, .running q⟩)
      (hholds : q.stream? = some n) : ∃ g, s.role j = .setup g ∨ s.role j = .undo g := by
    rw [role_of_getElem? there]
    exact role_of_stream hholds
  rcases hfree with haccepts | ⟨i, call, p, here, hprepares⟩
  · rcases h n hworking with hfeeds | ⟨j, call, q, there, hholds⟩
    · exact consistent.not_feeds haccepts hfeeds
    · have hstate : s.world.controller.state = .idle ∨ s.world.controller.state = .completed := by
        simpa [Controller.accepts] using haccepts
      have hfits := owned.fits j
      obtain ⟨g, hsetup | hundo⟩ := hrole there hholds
      · rw [hsetup] at hfits
        grind [Role.Fits]
      · rw [hundo] at hfits
        grind [Role.Fits]
  · obtain ⟨g, hi⟩ : ∃ g, s.role i = .setup g := by
      rw [role_of_getElem? here]
      cases p with
      | preparing g | starting g => exact ⟨g, rfl⟩
      | _ => simp [Point.prepares] at hprepares
    rcases h n hworking with ⟨u, hu, -⟩ | ⟨j, call', q, there, hholds⟩
    · have hfits := owned.fits i
      rw [hi] at hfits
      rw [hfits.2.2] at hu
      cases hu
    · have hne : i ≠ j := by
        rintro rfl
        obtain ⟨-, hq⟩ := Thread.mk.inj (Option.some.inj (here.symm.trans there))
        obtain rfl := Status.running.inj hq
        cases p with
        | preparing | starting => simp [Point.stream?] at hholds
        | _ => simp [Point.prepares] at hprepares
      have hclash := owned.apart i j hne
      obtain ⟨g', hsetup | hundo⟩ := hrole there hholds
      · rw [hi, hsetup] at hclash
        exact hclash trivial
      · rw [hi, hundo] at hclash
        exact hclash trivial

lemma Tended.crowded (h : Tended s) (step : Step setup around s t) {n : Nat}
    (deserts : s.Deserts t n) : t.Crowded :=
  ⟨.inl deserts.2.1, n, step.started_mono (h.feeds n deserts.1), deserts.2.2⟩

/-! ### Which call it is -/

/-- What a data call knows about the stream of its update. -/
def Point.Streams (w : World) : Point → Prop
  | .pushing g _ n last rest => w.Tied g n ∧ PushOf last (w.slot n) rest
  | .judging g _ n _ => w.Tied g n ∧ (w.slot n).Over
  | .pushFailed g _ => w.Spent g
  | .concluding g outcome _ _ => outcome.mode = .streaming → w.Spent g
  | _ => True

/-- A push that is refused, or was the final one, has seen that the stream is over. -/
lemma PushOf.isOver {last : Bool} {slot slot' : Slot} {rest : Stream.Point} {r : Stream.Reply}
    (h : PushOf last slot rest) (goes : rest.move slot = .reply slot' r)
    (ended : last = true ∨ ∃ e, pushResult r = .error e) : slot.Over := by
  have goes := Stream.goes_of_move (congrArg Stream.Move.result? goes)
  obtain ⟨chunk, rfl⟩ | ⟨-, rfl | ⟨waits, rfl, hend⟩⟩ := h
  · cases goes with
    | refused aborted => exact .inr aborted
    | tooLate running failed => exact .inl (by simp [Slot.signaled, failed])
    | pushed =>
      obtain hlast | ⟨e, he⟩ := ended
      · cases hlast
      · cases he
  · cases goes with
    | failed failed => exact .inl (by simp [Slot.signaled, failed])
  · exact .inl (by simp [Slot.signaled, hend])

section Goes

variable {w w' : World} {p p' : Point}

/-- A data call that goes on knows its stream. -/
lemma Goes.streams (h : Goes setup w p w' (.running p')) (hp : p.Streams w) : p'.Streams w' := by
  have hx : w.Grows w' := h.grows
  generalize hst : Status.running p' = st at h
  cases h with
  | request h =>
    cases h with
    | refused code => cases hst
    | accepted known name free goes =>
      cases hst
      obtain ⟨-, rfl⟩ | rfl := goes <;> trivial
  | data h =>
    cases h with
    | finished takes delivery write final synced =>
      generalize ActiveUpdate.target _ = target at hst
      cases target <;> cases hst <;> trivial
    | pushed takes delivery =>
      cases hst
      refine ⟨fun _ u hu => ?_, .inl ⟨_, rfl⟩⟩
      obtain rfl := Option.some.inj hu
      rfl
    | _ => cases hst <;> trivial
  | cancel h => cases h <;> cases hst <;> trivial
  | reset h =>
    cases h with
    | refused decision unscheduled => cases hst
    | begun done path =>
      generalize w.controller.outcome = outcome at path
      cases hst
      cases path <;> trivial
  | inside wraps h => cases wraps <;> cases hst <;> trivial
  | @pushes g stream target last rest rest' slot hmove =>
    cases hst
    exact ⟨hp.1, (hp.2.step hmove).mono (hx stream)⟩
  | @pushedFinal g stream target rest slot r hmove =>
    cases hst
    exact ⟨hp.1, (hp.2.isOver hmove (.inl rfl)).mono (hx stream)⟩
  | @notPushed g stream target rest slot r e hmove fails =>
    cases hst
    have htied : World.Tied (w.setSlot stream slot) g stream := hp.1
    exact htied.spent ((hp.2.isOver hmove (.inr ⟨e, fails⟩)).mono (hx stream))
  | judged =>
    cases hst
    exact fun _ => hp.1.spent hp.2
  | _ => cases hst <;> simp [Point.Streams, stagedOutcome]

/-- A data call goes on knowing its stream while other calls go on. -/
lemma Point.Streams.mono {q : Point} (h : q.Streams w) (grows : w.Grows w')
    (back : ∀ g, q.role = .push g ∨ q.role = .stream g → ∀ u, w'.controller.generation = g →
      w'.controller.active = some u → w.controller.generation = g ∧
        ∃ v, w.controller.active = some v ∧ v.delivery.closed = u.delivery.closed) :
    q.Streams w' := by
  have htied {g n : Nat} (hrole : q.role = .push g ∨ q.role = .stream g) (h : w.Tied g n) :
      w'.Tied g n := by
    intro hg u hu
    obtain ⟨hg', v, hv, hclosed⟩ := back g hrole u hg hu
    exact Delivery.streaming_of_closed hclosed.symm (h hg' v hv)
  have hspent {g : Nat} (hrole : q.role = .push g ∨ q.role = .stream g) (h : w.Spent g) :
      w'.Spent g := by
    rintro hg n ⟨u, hu, hstream⟩
    obtain ⟨hg', v, hv, hclosed⟩ := back g hrole u hg hu
    exact (h hg' n ⟨v, hv, Delivery.streaming_of_closed hclosed hstream⟩).mono (grows n)
  cases q with
  | pushing g target n last rest =>
    refine ⟨htied ?_ h.1, h.2.mono (grows n)⟩
    cases last
    · exact .inl rfl
    · exact .inr rfl
  | judging g target n result => exact ⟨htied (.inr rfl) h.1, h.2.mono (grows n)⟩
  | pushFailed g code => exact hspent (.inl rfl) h
  | concluding g outcome result otherwise =>
    intro hmode
    refine hspent (.inr ?_) (h hmode)
    simp [Point.role, Role.ofOutcome, hmode]
  | _ => trivial

end Goes

/-- All that is known of the streams if chunks come one after another. -/
structure Supervised (s : System σ) : Prop where
  orderly : Orderly s
  consistent : s.world.controller.Consistent
  tended : Tended s
  streams : s.All fun _ _ p => p.Streams s.world

lemma supervised_fresh (w : World) (d : σ) (hw : w.controller = {}) :
    Supervised (System.fresh w d) :=
  ⟨orderly_fresh w d, consistent_fresh d hw, tended_fresh w d hw, System.all_fresh w d⟩

/-- No delivery is opened while a data call works on a stream of the current update. -/
lemma Role.Fits.not_opening {c : Controller} {q : Role} {g g' : Nat} (h : q.Fits c)
    (role : q = .push g ∨ q = .stream g) (setup : (Role.setup g').Fits c) (owner : c.owns g')
    (current : c.generation = g) : False := by
  have hstate : c.state = .requested := by
    rcases setup.2.1 with hrequested | hcancelled
    · exact hrequested
    · exact absurd hcancelled (Controller.owns_iff.mp owner).2
  rcases role with rfl | rfl
  · exact (h.2 current).1 hstate
  · rcases (h.2 current).1 with hidle | ⟨hfinal | hcancelled, -⟩
    · simp [hstate] at hidle
    · simp [hstate] at hfinal
    · simp [hstate] at hcancelled

lemma Supervised.step_streams (h : Supervised s) (step : Step setup around s t) :
    t.All fun _ _ p => p.Streams t.world := by
  refine h.streams.step step ?_ (fun _ _ => trivial) ?_ ?_ ?_
  · intro i call q here beside hq
    refine hq.mono step.extends.grows fun g hrole u hg hu => ?_
    have hfits := h.orderly.owned.fits_here here
    cases beside with
    | quiet hquiet =>
      rw [hquiet.controller] at hg hu
      exact ⟨hg, u, hu, rfl⟩
    | @other j call' p w st ne there goes =>
      have hg : w.controller.generation = g := hg
      obtain ⟨hsame, ⟨v, hv, -, hclosed⟩ | ⟨g', rfl, howner⟩⟩ := goes.active_back hu
      · exact ⟨by omega, v, hv, hclosed⟩
      · have hsetup := h.orderly.owned.fits_here there
        exact (hfits.not_opening hrole hsetup howner (by omega)).elim
  · rintro i call p w p' - goes rfl hp
    exact goes.streams hp
  · intro i call p a hp
    cases p with
    | starting => cases a <;> trivial
    | _ => exact hp
  · intro i call p hp
    cases p with
    | pushing => exact ⟨hp.1, hp.2.wake⟩
    | _ => exact hp

theorem Supervised.step (one : around.OneSender) (h : Supervised s)
    (step : Step setup around s t) : Supervised t :=
  ⟨h.orderly.step one step, step.consistent h.orderly h.consistent, h.tended.step step,
    h.step_streams step⟩

/-- An update whose engine still works is ended by a data call, whose stream was aborted. -/
lemma Supervised.deserts (h : Supervised s)
    (step : Step setup around s t) {n : Nat} (deserts : s.Deserts t n) :
    (s.world.slot n).aborted ∧ ∃ i call p w st, s.threads[i]? = some ⟨call, .running p⟩ ∧
      call.sends ∧ t = s.moved i call p w st := by
  obtain ⟨hfeeds, haccepts, hworking⟩ := deserts
  have hgone : ¬ t.world.controller.Feeds n :=
    (step.consistent h.orderly h.consistent).not_feeds haccepts
  obtain hquiet | ⟨i, call, p, w, st, here, goes, rfl⟩ := step.quiet_or_goes
  · rw [hquiet.controller] at hgone
    exact absurd hfeeds hgone
  · have hfits := h.orderly.owned.fits_here here
    rcases goes.feeds_on hfits h.consistent hfeeds with hkeeps | ⟨p', -, -, hcancelled⟩ | hends
    · exact absurd hkeeps hgone
    · have haccepts : w.controller.accepts := haccepts
      simp [Controller.accepts, hcancelled] at haccepts
    · have hstreams := h.streams i call p here
      have hover : (s.world.slot n).Over ∧ p.role.sends := by
        cases p with
        | pushFailed g code =>
          obtain rfl := hends
          exact ⟨hstreams rfl n hfeeds, rfl⟩
        | concluding g outcome result otherwise =>
          obtain ⟨rfl, hmode⟩ := hends
          exact ⟨hstreams hmode rfl n hfeeds,
            by simp [Point.role, Role.ofOutcome, hmode, Role.sends]⟩
        | _ => exact hends.elim
      refine ⟨hover.1.resolve_left ?_, i, call, p, w, st, here,
        h.orderly.sends i call p here hover.2, rfl⟩
      rw [step.not_signaled hworking]
      simp

/-! ### Which runs wait for their engines -/

section

variable {files : FileSystem} {layout : Option BootLayout} {w : World} {d : σ}

/-- As long as no update is ended whose engine still works, each engine that works is held. -/
lemma attended_of_run (built : setup.build files layout = .ok w) (one : around.OneSender)
    (run : Run setup around (System.fresh w d) s)
    (keeps : ∀ u v n, Run setup around (System.fresh w d) u → Step setup around u v →
      Run setup around v s → ¬ u.Deserts v n) : Supervised s ∧ Attended s := by
  refine keeps_unless (P := fun u => Supervised u ∧ Attended u)
    (B := fun u v => ∃ n, u.Deserts v n) run ⟨supervised_fresh w d (build_controller built), ?_⟩
    (fun u v hu step hv ⟨n, hdeserts⟩ => keeps u v n hu step hv hdeserts) ?_
  · rintro n ⟨⟨request, output, i, hi⟩, -⟩
    simp [System.fresh] at hi
  · rintro u v ⟨hu, hattended⟩ step hkeeps
    exact ⟨hu.step one step, hattended.step hu.tended hu.orderly.owned hu.consistent step
      fun n hdeserts => hkeeps ⟨n, hdeserts⟩⟩

/-- In every run in which chunks come one after another, whatever else overlaps and whatever the
engines do: requests wait for the engines before in exactly those runs in which no update is ended
whose engine still works. Only a data call ends one, and only if its stream was aborted. -/
theorem requests_wait_for_engines_iff (built : setup.build files layout = .ok w)
    (one : around.OneSender) :
    ((∀ u, Run setup around (System.fresh w d) u → Run setup around u s → ¬ u.Crowded) ↔
      ∀ u v n, Run setup around (System.fresh w d) u → Step setup around u v →
        Run setup around v s → ¬ u.Deserts v n) ∧
    ∀ u v n, Run setup around (System.fresh w d) u → Step setup around u v → u.Deserts v n →
      (u.world.slot n).aborted ∧ ∃ i call p w' st, u.threads[i]? = some ⟨call, .running p⟩ ∧
        call.sends ∧ v = u.moved i call p w' st := by
  have hall {u : System σ} (hu : Run setup around (System.fresh w d) u) : Supervised u :=
    hu.keeps (supervised_fresh w d (build_controller built)) fun hx step => hx.step one step
  refine ⟨⟨fun hnever u v n hu step hv hdeserts => ?_, fun hkeeps u hu hs => ?_⟩, ?_⟩
  · exact hnever v (hu.tail step) hv ((hall hu).tended.crowded step hdeserts)
  · obtain ⟨hsupervised, hattended⟩ := attended_of_run built one hu
      fun a b n ha step hb => hkeeps a b n ha step (hb.trans hs)
    exact hattended.not_crowded hsupervised.orderly.owned hsupervised.consistent
  · exact fun u v n hu step hdeserts => (hall hu).deserts step hdeserts

end

namespace Small

/-- The final chunk is accepted, and before it is pushed the update is cancelled. -/
def lateAbort : List Choice :=
  streamRequested ++ [.start (.data 0 0 [7] true), .go 1, .start (.cancel 0 .userAbort), .go 2,
    .go 2, .go 1, .go 1]

def beforeDesertion : System Unit :=
  (streamChunkwise? (fresh .dual) lateAbort).getD (fresh .dual)

def afterDesertion : System Unit :=
  (beforeDesertion.go? streamSetup streamAnswers 1).getD (fresh .dual)

/-- The next request comes in. -/
def beforeNext : System Unit := afterDesertion.start (.request 0 "image.swu" 2)

def afterNext : System Unit :=
  (beforeNext.go? streamSetup streamAnswers 3).getD (fresh .dual)

abbrev StreamRun : System Unit → System Unit → Prop := Run streamSetup (.oneSender streamAnswers)

lemma run_beforeDesertion : StreamRun (fresh .dual) beforeDesertion :=
  run_of_streamChunkwise
    (rfl : streamChunkwise? (fresh .dual) lateAbort = some beforeDesertion)

lemma step_afterDesertion :
    Step streamSetup (.oneSender streamAnswers) beforeDesertion afterDesertion :=
  step_of_go (allows_oneSender streamAnswers).answers
    (rfl : beforeDesertion.go? streamSetup streamAnswers 1 = some afterDesertion)

end Small

theorem deserted_engine_was_aborted :
    Small.beforeDesertion.Deserts Small.afterDesertion 0 ∧
      (Small.beforeDesertion.world.slot 0).aborted ∧
      ∃ u, Small.StreamRun (Small.fresh .dual) u ∧ Small.StreamRun u Small.afterDesertion ∧
        u.Crowded := by
  have hbuilt : Small.streamSetup.build Small.files (some .dual) = .ok (Small.world .dual) := rfl
  have hdeserts : Small.beforeDesertion.Deserts Small.afterDesertion 0 := ⟨⟨_, rfl, rfl⟩, rfl, rfl⟩
  obtain ⟨hiff, haborted⟩ := requests_wait_for_engines_iff (d := ()) (s := Small.afterDesertion)
    hbuilt (oneSender_oneSender Small.streamAnswers)
  refine ⟨hdeserts, ?_, ?_⟩
  · exact (haborted _ _ 0 Small.run_beforeDesertion Small.step_afterDesertion hdeserts).1
  · by_contra hnone
    refine hiff.mp (fun u hu hs hcrowded => hnone ⟨u, hu, hs, hcrowded⟩) _ _ 0
      Small.run_beforeDesertion Small.step_afterDesertion .refl hdeserts

/-- A request is accepted although the engine that the request before it started still works. -/
theorem next_request_overtakes_engine :
    Small.StreamRun (Small.fresh .dual) Small.beforeNext ∧
      Step Small.streamSetup (.oneSender Small.streamAnswers) Small.beforeNext Small.afterNext ∧
      Small.beforeNext.world.controller.state = .idle ∧
      Small.afterNext.world.controller.state = .requested ∧
      Small.afterNext.Started 0 ∧ (Small.afterNext.world.slot 0).signaled = false := by
  refine ⟨?_, ?_, rfl, rfl, ⟨⟨.mmc, .secondary⟩, .ok "a", 0, ?_⟩, rfl⟩
  · refine (Small.run_beforeDesertion.tail Small.step_afterDesertion).tail (.start ?_)
    intro hsends
    cases hsends
  · exact step_of_go (allows_oneSender Small.streamAnswers).answers
      (rfl : Small.beforeNext.go? Small.streamSetup Small.streamAnswers 3 = some Small.afterNext)
  · exact List.mem_of_getElem? (i := 4) rfl

end Session

end DeviceUpdate
