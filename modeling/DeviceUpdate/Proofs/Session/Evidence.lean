import DeviceUpdate.Proofs.Session.Discipline
import DeviceUpdate.Proofs.Session.Streams

/-!
# What the history bears out

A call knows things about its update that it does not look up again: for which target the update
was accepted, which stream is its own, how the install ended. Each of them is borne out by the
history and the streams, and stays so while other calls go on.
-/

namespace DeviceUpdate

namespace Session

variable {σ : Type} {setup : Setup} {around : Surroundings σ} {s t : System σ}

namespace System

def Logged (s : System σ) (e : Event) : Prop := ∃ i, (i, e) ∈ s.history

def Accepted (s : System σ) (generation : Nat) (target : Target) : Prop :=
  ∃ file, s.Logged (.accepted generation target file)

/-- This delivery was opened for the update, whatever file was open for it. -/
def Opened (s : System σ) (generation : Nat) (delivery : Delivery) : Prop :=
  ∃ d, s.Logged (.opened generation d) ∧ d.closed = delivery.closed

def Staged (s : System σ) (generation : Nat) : Prop :=
  ∃ path, s.Opened generation (.staged path none)

/-- The update was staged, one call handed its package over, and the install went well. -/
def Installed (s : System σ) (generation : Nat) : Prop :=
  s.Staged generation ∧
    ∃ i package content layout, (i, .handed generation package content) ∈ s.history ∧
      (i, .installed generation package (.ok layout)) ∈ s.history

/-- The update was streamed, the engine reported success, and the image is applied. -/
def Applied (s : System σ) (generation : Nat) : Prop :=
  ∃ stream, s.Opened generation (.streaming stream) ∧ (s.world.slot stream).succeeded

/-- The update ended like this. -/
structure Bears (s : System σ) (generation : Nat) (o : UpdateOutcome) : Prop where
  target : s.Accepted generation o.target
  staged : o.success → o.mode = .staged → s.Installed generation
  streamed : o.success → o.mode = .streaming → s.Applied generation

/-- Nothing that the first system knows is lost in the second. -/
structure Extends (s t : System σ) : Prop where
  history : ∀ e ∈ s.history, e ∈ t.history
  grows : s.world.Grows t.world

namespace Extends

variable {g : Nat} {target : Target} {delivery : Delivery} {o : UpdateOutcome} {e : Event}

lemma logged (h : s.Extends t) (hs : s.Logged e) : t.Logged e := by
  obtain ⟨i, hi⟩ := hs
  exact ⟨i, h.history _ hi⟩

lemma accepted (h : s.Extends t) (hs : s.Accepted g target) : t.Accepted g target := by
  obtain ⟨file, hfile⟩ := hs
  exact ⟨file, h.logged hfile⟩

lemma opened (h : s.Extends t) (hs : s.Opened g delivery) : t.Opened g delivery := by
  obtain ⟨d, hlogged, hd⟩ := hs
  exact ⟨d, h.logged hlogged, hd⟩

lemma staged (h : s.Extends t) (hs : s.Staged g) : t.Staged g := by
  obtain ⟨path, hpath⟩ := hs
  exact ⟨path, h.opened hpath⟩

lemma installed (h : s.Extends t) (hs : s.Installed g) : t.Installed g := by
  obtain ⟨hstaged, i, package, content, layout, hhanded, hinstalled⟩ := hs
  exact ⟨h.staged hstaged, i, package, content, layout, h.history _ hhanded,
    h.history _ hinstalled⟩

lemma applied (h : s.Extends t) (hs : s.Applied g) : t.Applied g := by
  obtain ⟨stream, hopened, hslot⟩ := hs
  exact ⟨stream, h.opened hopened, (h.grows stream).succeeded hslot⟩

lemma bears (h : s.Extends t) (hs : s.Bears g o) : t.Bears g o :=
  ⟨h.accepted hs.target, fun ho hm => h.installed (hs.staged ho hm),
    fun ho hm => h.applied (hs.streamed ho hm)⟩

end Extends

end System

/-- No step loses what was known before. -/
lemma Step.extends (h : Step setup around s t) : s.Extends t := by
  cases h with
  | start may => exact ⟨fun _ he => he, World.grows_of_streams rfl⟩
  | move here goes =>
    exact ⟨fun _ he => List.mem_append_right _ he, (goes_of_move goes).grows⟩
  | answer here asks gets =>
    exact ⟨fun _ he => List.mem_cons_of_mem _ he, World.grows_of_streams rfl⟩
  | wake here waits => exact ⟨fun _ he => he, World.grows_of_streams rfl⟩
  | engine goes =>
    exact ⟨fun _ he => he, World.grows_setSlot rfl (Stream.grows_of_move goes)⟩
  | drift goes => exact ⟨fun _ he => he, World.grows_of_streams rfl⟩

/-- A quiet step logs nothing but that an effect was performed. -/
lemma Quiet.logged (h : Quiet around s t) {e : Event} (logged : t.Logged e)
    (other : ∀ f a, e ≠ .performed f a) : s.Logged e := by
  obtain ⟨k, hk⟩ := logged
  rcases h.mem hk with hold | ⟨f, a, rfl⟩
  · exact ⟨k, hold⟩
  · exact absurd rfl (other f a)

/-! ### Which call stands where -/

/-- The call can stand at this point. -/
def Point.Serves (call : Call) : Point → Prop
  | .entry call' => call' = call
  | .choosing _ _ _ _ _ | .preparing _ _ _ | .starting _ _ _ _ | .checkingSpace _ _ _ _
  | .creating _ _ _ | .setupFailed _ _ | .settling _ _ _ => call.isRequest
  | .discarding _ _ _ | .stopping _ _ _ _ | .releasing _ _ => call.isRequest ∨ call.isCancel
  | .pushing _ _ _ last _ => call.last? = some last
  | .pushFailed _ _ => call.last? = some false
  | .judging _ _ _ _ | .assembling _ _ _ | .removingManifest _ _ _ _ | .checking _ _ _
  | .dropping _ _ _ | .installing _ _ _ _ | .installed _ _ _ _ | .withdrawing _ _ =>
    call.last? = some true
  | .concluding _ outcome _ otherwise =>
    call.last? = some true ∧ ∀ package, otherwise = .withdraw package → outcome.mode = .staged
  | .removing _ reply => call.sends ∧ ∃ code, reply = .data (.error code)
  | .swapping _ | .planning _ | .scheduling _ | .resetting _ => call.isReset
  | .asking _ => call = .bootLayout

def Status.Serves (call : Call) : Status → Prop
  | .running p => p.Serves call
  | .returned _ => True

/-- A call stays where it can stand. -/
lemma Goes.serves {w w' : World} {p : Point} {st : Status} {call : Call}
    (h : Goes setup w p w' st) (hp : p.Serves call) : st.Serves call := by
  cases h with
  | request h =>
    obtain rfl := hp
    cases h with
    | refused code => trivial
    | accepted known name free goes =>
      obtain ⟨-, rfl⟩ | rfl := goes <;> rfl
  | data h =>
    obtain rfl := hp
    cases h with
    | refused code => trivial
    | failed code takes delivery kept => exact ⟨rfl, code, rfl⟩
    | written takes delivery write more => trivial
    | @finished u path handle handle' files takes delivery write final =>
      subst final
      cases u.target <;> rfl
    | pushed takes delivery => rfl
  | cancel h =>
    obtain rfl := hp
    cases h with
    | active open_ update same => exact .inr rfl
    | lateStream late update delivery => exact .inr rfl
    | _ => trivial
  | reset h =>
    obtain rfl := hp
    cases h with
    | refused decision unscheduled => trivial
    | begun done path =>
      generalize w.controller.outcome = outcome at path
      cases path <;> rfl
  | bootLayout =>
    obtain rfl := hp
    rfl
  | inside wraps h => cases wraps <;> exact hp
  | lost lost => exact .inl hp
  | pushedFinal h => exact hp
  | judged => exact ⟨hp, by simp⟩
  | notAssembled => exact ⟨hp, by simp⟩
  | dropped => exact ⟨hp, by simp⟩
  | kept => exact ⟨hp, fun _ _ => rfl⟩
  | used other => exact ⟨hp, by simp⟩
  | takenBack lost => exact hp.1
  | withdrawn =>
    refine ⟨?_, .invalidData, rfl⟩
    cases call <;> simp_all [Point.Serves, Call.last?, Call.sends]
  | _ => first | exact hp | trivial

@[simp] lemma resume_serves {p : Point} {call : Call} (a : Answer) (h : p.Serves call) :
    (p.resume a).Serves call := by
  cases p with
  | starting g target stream request => cases a <;> exact h
  | _ => exact h

@[simp] lemma wake_serves {p : Point} {call : Call} (h : p.Serves call) :
    p.wake.Serves call := by
  cases p <;> exact h

/-- Every call stands where it can. -/
def System.Serving (s : System σ) : Prop := s.All fun _ call p => p.Serves call

theorem Step.serving (step : Step setup around s t) (h : s.Serving) : t.Serving :=
  h.step step (fun _ _ _ _ _ hp => hp) (fun _ _ => rfl)
    (fun _ _ _ _ _ _ goes _ hp => goes.serves hp)
    (fun _ _ _ a hp => resume_serves a hp) (fun _ _ _ hp => wake_serves hp)

lemma Run.serving {w : World} {d : σ} (run : Run setup around (System.fresh w d) s) : s.Serving :=
  run.keeps (System.all_fresh w d) fun hu step => step.serving hu

/-! ### What a call relies on -/

/-- Where the push of a chunk stands, and what it has seen of the engine by then. -/
def PushOf (last : Bool) (slot : Slot) (rest : Stream.Point) : Prop :=
  (∃ chunk, rest = .push chunk last) ∨ last = true ∧
    (rest = .awaitEnd ∨ ∃ waits, rest = .awaitApplied waits ∧ slot.endStatus = some .success)

/-- A reset acts on this outcome: it is the one of the current update, which had the number that
the reset names and went well. -/
structure System.Chosen (s : System σ) (call : Call) (o : UpdateOutcome) : Prop where
  named : ∃ version, call = .reset o.target.number version
  success : o.success
  bears : s.Bears s.world.controller.generation o

/-- What the call `i` relies on at this point is borne out. -/
def Point.Backed (s : System σ) (i : Nat) (call : Call) : Point → Prop
  | .choosing g target _ _ _ | .preparing g target _ | .starting g target _ _
  | .checkingSpace g target _ _ | .creating g target _ | .settling g target _ =>
    s.Accepted g target
  | .pushing g target stream last rest =>
    s.Accepted g target ∧ s.Opened g (.streaming stream) ∧
      PushOf last (s.world.slot stream) rest
  | .judging g target stream result =>
    s.Accepted g target ∧ s.Opened g (.streaming stream) ∧
      (result.isOk → (s.world.slot stream).succeeded)
  | .assembling g target _ | .removingManifest g target _ _ | .checking g target _
  | .dropping g target _ => s.Accepted g target ∧ s.Staged g
  | .installing g target package _ =>
    s.Accepted g target ∧ s.Staged g ∧ ∃ content, (i, .handed g package content) ∈ s.history
  | .installed g target package result =>
    s.Accepted g target ∧ s.Staged g ∧ (i, .installed g package result) ∈ s.history ∧
      ∃ content, (i, .handed g package content) ∈ s.history
  | .concluding g outcome result _ => s.Bears g outcome ∧ (result.isOk ↔ outcome.success)
  | .swapping _ => ∃ o, s.Chosen call o ∧ o.mode = .streaming
  | .planning _ | .scheduling _ =>
    ∃ o, s.Chosen call o ∧ (o.mode = .streaming → (i, .swapped) ∈ s.history)
  | _ => True

def Status.Backed (s : System σ) (i : Nat) (call : Call) : Status → Prop
  | .running p => p.Backed s i call
  | .returned _ => True

/-- What the controller knows of its update is borne out. -/
structure System.Backs (s : System σ) (c : Controller) : Prop where
  active : ∀ u, c.active = some u → s.Accepted c.generation u.target
  delivery : ∀ u, c.active = some u → s.Opened c.generation u.delivery
  outcome : ∀ o, c.outcome = some o → s.Bears c.generation o

lemma PushOf.mono {last : Bool} {slot slot' : Slot} {rest : Stream.Point}
    (h : PushOf last slot rest) (grows : slot.Grows slot') : PushOf last slot' rest := by
  obtain hpush | ⟨hlast, hwait | ⟨waits, hrest, hend⟩⟩ := h
  · exact .inl hpush
  · exact .inr ⟨hlast, .inl hwait⟩
  · exact .inr ⟨hlast, .inr ⟨waits, hrest, grows.status _ hend⟩⟩

lemma PushOf.wake {last : Bool} {slot : Slot} {rest : Stream.Point} (h : PushOf last slot rest) :
    PushOf last slot rest.wake := by
  obtain ⟨chunk, rfl⟩ | ⟨rfl, rfl | ⟨waits, rfl, hend⟩⟩ := h
  · exact .inl ⟨chunk, rfl⟩
  · exact .inr ⟨rfl, .inl rfl⟩
  · exact .inr ⟨rfl, .inr ⟨waits + 1, rfl, hend⟩⟩

lemma System.Chosen.mono {call : Call} {o : UpdateOutcome} (h : s.Chosen call o)
    (extends_ : s.Extends t)
    (current : t.world.controller.generation = s.world.controller.generation) :
    t.Chosen call o :=
  ⟨h.named, h.success, current ▸ extends_.bears h.bears⟩

/-- What a call relies on stays, unless a reset sees another update become current. -/
lemma Point.Backed.mono {i : Nat} {call : Call} {p : Point} (h : p.Backed s i call)
    (hx : s.Extends t)
    (current : p.role = .reset → t.world.controller.generation = s.world.controller.generation) :
    p.Backed t i call := by
  cases p with
  | pushing g target stream last rest =>
    exact ⟨hx.accepted h.1, hx.opened h.2.1, h.2.2.mono (hx.grows stream)⟩
  | judging g target stream result =>
    exact ⟨hx.accepted h.1, hx.opened h.2.1, fun hr => (hx.grows stream).succeeded (h.2.2 hr)⟩
  | assembling | removingManifest | checking | dropping =>
    exact ⟨hx.accepted h.1, hx.staged h.2⟩
  | installing g target package rest =>
    obtain ⟨hacc, hstaged, content, hhanded⟩ := h
    exact ⟨hx.accepted hacc, hx.staged hstaged, content, hx.history _ hhanded⟩
  | installed g target package result =>
    obtain ⟨hacc, hstaged, hinstalled, content, hhanded⟩ := h
    exact ⟨hx.accepted hacc, hx.staged hstaged, hx.history _ hinstalled, content,
      hx.history _ hhanded⟩
  | concluding g outcome result otherwise => exact ⟨hx.bears h.1, h.2⟩
  | swapping rest =>
    obtain ⟨o, ho, hmode⟩ := h
    exact ⟨o, ho.mono hx (current rfl), hmode⟩
  | planning rest =>
    obtain ⟨o, ho, hswap⟩ := h
    exact ⟨o, ho.mono hx (current rfl), fun hm => hx.history _ (hswap hm)⟩
  | scheduling plan =>
    obtain ⟨o, ho, hswap⟩ := h
    exact ⟨o, ho.mono hx (current rfl), fun hm => hx.history _ (hswap hm)⟩
  | choosing | preparing | starting | checkingSpace | creating | settling =>
    exact hx.accepted h
  | _ => trivial

lemma System.Backs.mono {c : Controller} (h : s.Backs c) (hx : s.Extends t) : t.Backs c :=
  ⟨fun u hu => hx.accepted (h.active u hu), fun u hu => hx.opened (h.delivery u hu),
    fun o ho => hx.bears (h.outcome o ho)⟩

lemma moved_logs {i : Nat} {call : Call} {p : Point} {w : World} {st : Status} {e : Event}
    (h : Event.of? s.world p w st = some e) : (i, e) ∈ (s.moved i call p w st).history :=
  mem_moved.mpr (.inl ⟨rfl, h⟩)

lemma moved_extends {i : Nat} {call : Call} {p : Point} {w : World} {st : Status}
    (h : Goes setup s.world p w st) : s.Extends (s.moved i call p w st) :=
  ⟨fun _ he => List.mem_append_right _ he, h.grows⟩

/-- The call that still owns its update returns once the delivery is settled. -/
lemma Goes.eq_of_settling {w w' : World} {st : Status} {g : Nat} {target : Target}
    {delivery : Delivery} (h : Goes setup w (.settling g target delivery) w' st)
    (owner : w.controller.owns g) : st = .returned (.request (.ok ())) := by
  generalize hp : Point.settling g target delivery = p at h
  cases h with
  | settled => rfl
  | lost lost =>
    cases hp
    simp [owner] at lost
  | inside wraps h => cases wraps <;> cases hp
  | _ => cases hp

/-- What the controller knows stays borne out when a call goes on. -/
lemma Goes.backs {i : Nat} {call : Call} {p : Point} {w' : World} {st : Status}
    (h : Goes setup s.world p w' st) (hp : p.Backed s i call)
    (hc : s.Backs s.world.controller) : (s.moved i call p w' st).Backs w'.controller := by
  have hx : s.Extends (s.moved i call p w' st) := moved_extends h
  constructor
  · intro u hu
    obtain ⟨hg, ⟨v, hv, htarget, -⟩ | ⟨g, rfl, owner⟩⟩ := h.active_back hu
    · rw [hg, ← htarget]
      exact hx.accepted (hc.active v hv)
    · rw [hg, (Controller.owns_iff.mp owner).1]
      exact hx.accepted hp
  · intro u hu
    obtain ⟨hg, ⟨v, hv, -, hclosed⟩ | ⟨g, rfl, owner⟩⟩ := h.active_back hu
    · obtain ⟨d, hlogged, hd⟩ := hx.opened (hc.delivery v hv)
      rw [hg]
      exact ⟨d, hlogged, hd.trans hclosed⟩
    · rw [hg, (Controller.owns_iff.mp owner).1]
      obtain rfl := h.eq_of_settling owner
      exact ⟨u.delivery, ⟨i, moved_logs rfl⟩, rfl⟩
  · intro o ho
    obtain ⟨hg, hold | ⟨result, otherwise, rfl⟩⟩ := h.outcome_back ho
    · rw [hg]
      exact hx.bears (hc.outcome o hold)
    · rw [hg]
      exact hx.bears hp.1

lemma PushOf.step {last : Bool} {slot slot' : Slot} {rest rest' : Stream.Point}
    (h : PushOf last slot rest) (goes : rest.move slot = .step slot' rest') :
    PushOf last slot rest' := by
  have goes := Stream.goes_of_move (congrArg Stream.Move.result? goes)
  obtain ⟨chunk, rfl⟩ | ⟨rfl, rfl | ⟨waits, rfl, hend⟩⟩ := h
  · cases goes with
    | pushedFinal => exact .inr ⟨rfl, .inl rfl⟩
  · cases goes with
    | succeeded done => exact .inr ⟨rfl, .inr ⟨0, rfl, done⟩⟩
  · cases goes

/-- A final push goes well only if the engine reported success and the image is applied. -/
lemma PushOf.succeeded {slot slot' : Slot} {rest : Stream.Point} {r : Stream.Reply}
    (h : PushOf true slot rest) (goes : rest.move slot = .reply slot' r)
    (fine : (pushResult r).isOk) : slot.succeeded := by
  have goes := Stream.goes_of_move (congrArg Stream.Move.result? goes)
  obtain ⟨chunk, rfl⟩ | ⟨-, rfl | ⟨waits, rfl, hend⟩⟩ := h
  · cases goes <;> cases fine
  · cases goes
    cases fine
  · cases goes with
    | finished applied => simp [Slot.succeeded, hend, applied]
    | timedOut => cases fine

/-- A chunk that ends a download is pushed, or assembled, for an update that is borne out. -/
lemma System.Backs.of_data (hc : s.Backs s.world.controller) {i number offset : Nat}
    {chunk : Bytes} {last : Bool} {w' : World} {st : Status} {call : Call}
    (h : DataStep s.world number offset chunk last w' st) (hx : s.Extends t) :
    st.Backed t i call := by
  cases h with
  | refused code => trivial
  | failed code takes delivery kept => trivial
  | written takes delivery write more => trivial
  | @finished u path handle handle' files takes delivery write final =>
    have hacc := hx.accepted (hc.active u takes.active)
    have hopened := hx.opened (hc.delivery u takes.active)
    rw [delivery] at hopened
    generalize u.target = target at hacc ⊢
    cases target with
    | system => exact ⟨hacc, path, hopened⟩
    | manifest => exact ⟨hacc, path, hopened⟩
  | @pushed u stream takes delivery =>
    have hopened := hx.opened (hc.delivery u takes.active)
    rw [delivery] at hopened
    exact ⟨hx.accepted (hc.active u takes.active), hopened, .inl ⟨_, rfl⟩⟩

/-- A reset that goes on was chosen for an outcome that is borne out. -/
lemma System.Backs.of_reset (hc : s.Backs s.world.controller) {i number : Nat}
    {version : Version} {w' : World} {st : Status} {call : Call}
    (h : ResetStep setup s.world number w' st) (serves : call = .reset number version)
    (hx : s.Extends t) (world : t.world = w') : st.Backed t i call := by
  cases h with
  | refused decision unscheduled => trivial
  | @begun p done path =>
    have hchosen {o : UpdateOutcome} (ho : s.world.controller.outcome = some o)
        (same : o.target.number = number) (success : o.success) : t.Chosen call o := by
      refine ⟨⟨version, ?_⟩, success, ?_⟩
      · rw [same]
        exact serves
      · rw [world]
        exact hx.bears (hc.outcome o ho)
    generalize hout : s.world.controller.outcome = outcome at path
    cases path with
    | refused => trivial
    | @swap o same success mode => exact ⟨o, hchosen hout same success, mode⟩
    | @plan o same success mode =>
      exact ⟨o, hchosen hout same success, fun hm => by simp [mode] at hm⟩

/-- What a call relies on stays borne out when it goes on. -/
lemma Goes.backed {i : Nat} {call : Call} {p : Point} {w' : World} {st : Status}
    (h : Goes setup s.world p w' st) (serves : p.Serves call) (hp : p.Backed s i call)
    (hc : s.Backs s.world.controller) : st.Backed (s.moved i call p w' st) i call := by
  have hx : s.Extends (s.moved i call p w' st) := moved_extends h
  have hlog : ∀ e, Event.of? s.world p w' st = some e →
      (i, e) ∈ (s.moved i call p w' st).history := fun e => moved_logs
  have hworld : (s.moved i call p w' st).world = w' := rfl
  generalize s.moved i call p w' st = t at hx hlog hworld
  cases h with
  | @request number size file v st h =>
    cases h with
    | refused code => trivial
    | @accepted target p known name free goes =>
      have hacc : t.Accepted (s.world.controller.generation + 1) target :=
        ⟨file, i, hlog _ (by simp [Event.of?, known, Controller.startUpdate])⟩
      obtain ⟨-, rfl⟩ | rfl := goes
      · exact hacc
      · exact hacc
  | data h => exact hc.of_data h hx
  | cancel h => cases h <;> trivial
  | reset h => exact hc.of_reset h serves.symm hx hworld
  | inside wraps h =>
    have hcurrent : t.world.controller.generation = s.world.controller.generation := by
      rw [hworld]
    cases wraps <;> exact Point.Backed.mono hp hx fun _ => hcurrent
  | chosenDual => exact hx.accepted hp
  | chosen other => exact hx.accepted hp
  | prepared => exact hx.accepted hp
  | spaceFound free fits => exact hx.accepted hp
  | created create => exact hx.accepted hp
  | @pushes g stream target last rest rest' slot h =>
    exact ⟨hx.accepted hp.1, hx.opened hp.2.1, (hp.2.2.step h).mono (hx.grows stream)⟩
  | @pushedFinal g stream target rest slot r h =>
    exact ⟨hx.accepted hp.1, hx.opened hp.2.1,
      fun hok => (hx.grows stream).succeeded (hp.2.2.succeeded h hok)⟩
  | @judged g stream target result =>
    refine ⟨⟨hx.accepted hp.1, by simp, fun hsuccess _ => ?_⟩, ?_⟩
    · simp only [Bool.and_eq_true] at hsuccess
      exact ⟨stream, hx.opened hp.2.1, (hx.grows stream).succeeded hsuccess.2⟩
    · have hslot := hp.2.2
      cases result <;> simp_all [codeOf, Except.isOk, Except.toBool]
  | assembled assembles => exact ⟨hx.accepted hp.1, hx.staged hp.2⟩
  | manifestRemoved => exact ⟨hx.accepted hp.1, hx.staged hp.2⟩
  | notAssembled =>
    exact ⟨⟨hx.accepted hp.1, by simp [stagedOutcome], by simp [stagedOutcome]⟩,
      by simp [stagedOutcome, Except.isOk, Except.toBool]⟩
  | handed owner => exact ⟨hx.accepted hp.1, hx.staged hp.2, _, hlog _ rfl⟩
  | unwanted lost => exact ⟨hx.accepted hp.1, hx.staged hp.2⟩
  | dropped =>
    exact ⟨⟨hx.accepted hp.1, by simp [stagedOutcome], by simp [stagedOutcome]⟩,
      by simp [stagedOutcome, Except.isOk, Except.toBool]⟩
  | installDone =>
    obtain ⟨hacc, hstaged, content, hhanded⟩ := hp
    exact ⟨hx.accepted hacc, hx.staged hstaged, hlog _ rfl, content, hx.history _ hhanded⟩
  | kept =>
    obtain ⟨hacc, hstaged, hinstalled, content, hhanded⟩ := hp
    refine ⟨⟨hx.accepted hacc, fun _ _ => ?_, by simp [stagedOutcome]⟩,
      by simp [stagedOutcome, Except.isOk, Except.toBool]⟩
    exact ⟨hx.staged hstaged, i, _, content, _, hx.history _ hhanded, hx.history _ hinstalled⟩
  | @used g target package result other =>
    obtain ⟨hacc, hstaged, hinstalled, content, hhanded⟩ := hp
    refine ⟨⟨hx.accepted hacc, fun hsuccess _ => ?_, by simp [stagedOutcome]⟩, ?_⟩
    · cases result with
      | error e => simp [stagedOutcome, Except.isOk, Except.toBool] at hsuccess
      | ok layout =>
        exact ⟨hx.staged hstaged, i, _, content, _, hx.history _ hhanded,
          hx.history _ hinstalled⟩
    · cases result <;> simp [stagedOutcome, codeOf, Except.isOk, Except.toBool]
  | swapped =>
    obtain ⟨o, hchosen, hmode⟩ := hp
    exact ⟨o, hchosen.mono hx (by rw [hworld]), fun _ => hlog _ rfl⟩
  | planned possible =>
    obtain ⟨o, hchosen, hswap⟩ := hp
    exact ⟨o, hchosen.mono hx (by rw [hworld]), fun hm => hx.history _ (hswap hm)⟩
  | _ => trivial

lemma resume_backed {i : Nat} {call : Call} {p : Point} (a : Answer) (h : p.Backed s i call) :
    (p.resume a).Backed s i call := by
  cases p with
  | starting g target stream request =>
    cases a with
    | ok output => exact h
    | error e => trivial
  | scheduling plan => trivial
  | _ => exact h

lemma wake_backed {i : Nat} {call : Call} {p : Point} (h : p.Backed s i call) :
    p.wake.Backed s i call := by
  cases p with
  | pushing g target stream last rest => exact ⟨h.1, h.2.1, h.2.2.wake⟩
  | _ => exact h

/-- During a reset no other update becomes current. -/
lemma Step.generation_of_reset (step : Step setup around s t)
    (owned : Owned s.world.controller s.role) {i : Nat} (reset : s.role i = .reset) :
    t.world.controller.generation = s.world.controller.generation := by
  have hfits := owned.fits i
  rw [reset] at hfits
  obtain ⟨call, -, hc, -⟩ | ⟨j, r, hc, -⟩ := step.control
  · rw [hc]
  · have hstate : s.world.controller.state = .resetDecision := hfits
    exact hc.generation (by simp [Controller.accepts, hstate])

/-- What the calls and the controller rely on is borne out. -/
structure Honest (s : System σ) : Prop where
  serving : s.Serving
  backed : s.All fun i call p => p.Backed s i call
  backs : s.Backs s.world.controller

/-- What a call relies on stays borne out when another call goes on. -/
lemma Step.backed_other (step : Step setup around s t)
    (owned : Owned s.world.controller s.role) {i : Nat} {call : Call} {p : Point}
    (role : s.role i = p.role) (h : p.Backed s i call) : p.Backed t i call := by
  refine h.mono step.extends fun hrole => ?_
  exact step.generation_of_reset owned (role.trans hrole)

theorem Honest.step (owned : Owned s.world.controller s.role) (h : Honest s)
    (step : Step setup around s t) : Honest t := by
  have hx := step.extends
  refine ⟨step.serving h.serving, ?_, ?_⟩
  · refine h.backed.step step ?_ (fun _ _ => trivial) ?_ ?_ ?_
    · intro i call p here _ hp
      exact step.backed_other owned (role_of_getElem? here) hp
    · rintro i call p w p' here goes rfl hp
      exact goes.backed (h.serving i call p here) hp h.backs
    · exact fun _ _ _ a hp => resume_backed a hp
    · exact fun _ _ _ hp => wake_backed hp
  · cases step with
    | @move i call p w status here goes =>
      exact (goes_of_move goes).backs (h.backed i call p here) h.backs
    | _ => exact h.backs.mono hx

lemma honest_fresh (w : World) (d : σ) (hw : w.controller = {}) : Honest (System.fresh w d) := by
  refine ⟨System.all_fresh w d, System.all_fresh w d, ?_⟩
  constructor <;> simp [System.fresh, hw]

end Session

end DeviceUpdate
