import DeviceUpdate.Proofs.Session.Moves

/-!
# What a step does to the controller

A call plays a role towards the controller: it sets an update up, undoes one, pushes a chunk, or
carries an update to its end. `Control` lists every change of the controller together with the
change of role that goes with it, and `Goes.control` says that the list is complete. Files, streams
and commands do not matter here. `Goes.active_back` and `Goes.outcome_back` read a step backwards:
they say where the active update and the outcome after it come from.
-/

namespace DeviceUpdate

/-- How an image reaches this delivery. -/
def Delivery.mode : Delivery → DeliveryMode
  | .staged _ _ => .staged
  | .streaming _ => .streaming

/-- The delivery without the file that is open for it. -/
def Delivery.closed : Delivery → Delivery
  | .staged path _ => .staged path none
  | .streaming stream => .streaming stream

lemma Delivery.mode_closed (d : Delivery) : d.closed.mode = d.mode := by
  cases d <;> rfl

/-- Deliveries that differ in the open file at most lead to the same file. -/
lemma Delivery.staged_of_closed {d e : Delivery} {path : String} {file : Option Handle}
    (h : d.closed = e.closed) (staged : e = .staged path file) :
    ∃ file', d = .staged path file' := by
  subst staged
  cases d with
  | staged path' file' =>
    obtain ⟨rfl, -⟩ := Delivery.staged.inj h
    exact ⟨file', rfl⟩
  | streaming stream => cases h

/-- Deliveries that differ in the open file at most lead to the same stream. -/
lemma Delivery.streaming_of_closed {d e : Delivery} {n : Nat} (h : d.closed = e.closed)
    (stream : e = .streaming n) : d = .streaming n := by
  subst stream
  cases d with
  | staged path file => cases h
  | streaming m => exact h

lemma Controller.owns_iff {c : Controller} {g : Nat} :
    c.owns g ↔ c.generation = g ∧ c.state ≠ .cancelled := by
  simp [owns]

lemma Controller.releaseIfCurrent_cases (c : Controller) (g : Nat) :
    c.releaseIfCurrent g = c ∨ c.releaseIfCurrent g = c.release := by
  unfold Controller.releaseIfCurrent
  split
  · exact .inr rfl
  · exact .inl rfl

lemma Controller.releaseIfCurrent_or (c : Controller) (g : Nat) :
    c.releaseIfCurrent g = c ∨ (c.releaseIfCurrent g).active = none :=
  (c.releaseIfCurrent_cases g).imp_right fun heq => by rw [heq]; rfl

@[simp] lemma Controller.releaseIfCurrent_generation (c : Controller) (g : Nat) :
    (c.releaseIfCurrent g).generation = c.generation := by
  rcases c.releaseIfCurrent_cases g with heq | heq <;> rw [heq]
  rfl

@[simp] lemma Controller.releaseIfCurrent_outcome (c : Controller) (g : Nat) :
    (c.releaseIfCurrent g).outcome = c.outcome := by
  rcases c.releaseIfCurrent_cases g with heq | heq <;> rw [heq]
  rfl

/-- Recording an outcome does nothing, or ends the update that was given up, or completes it. -/
lemma Controller.conclude_cases (c : Controller) (g : Nat) (outcome : UpdateOutcome) :
    c.generation ≠ g ∧ c.conclude g outcome = (false, c) ∨
    c.generation = g ∧ c.state = .cancelled ∧
      c.conclude g outcome = (false, { c.release with outcome := none }) ∨
    c.generation = g ∧ c.state ≠ .cancelled ∧ c.conclude g outcome =
      (true, { c with active := none, outcome := some outcome, state := .completed }) := by
  by_cases hg : c.generation = g
  · by_cases hs : c.state = .cancelled
    · exact .inr (.inl ⟨hg, hs, by simp [conclude, hg, hs]⟩)
    · exact .inr (.inr ⟨hg, hs, by simp [conclude, hg, hs]⟩)
  · exact .inl ⟨hg, by simp [conclude, hg]⟩

@[simp] lemma Controller.conclude_generation (c : Controller) (g : Nat) (outcome : UpdateOutcome) :
    (c.conclude g outcome).2.generation = c.generation := by
  obtain ⟨-, heq⟩ | ⟨-, -, heq⟩ | ⟨-, -, heq⟩ := c.conclude_cases g outcome <;> rw [heq]
  rfl

lemma Controller.conclude_or (c : Controller) (g : Nat) (outcome : UpdateOutcome) :
    (c.conclude g outcome).2 = c ∨ (c.conclude g outcome).2.active = none := by
  obtain ⟨-, heq⟩ | ⟨-, -, heq⟩ | ⟨-, -, heq⟩ := c.conclude_cases g outcome
  · exact .inl (by rw [heq])
  · exact .inr (by rw [heq]; rfl)
  · exact .inr (by rw [heq])

/-- An outcome that can be recorded is the one of the current update, and completes it. -/
lemma Controller.conclude_eq {c : Controller} {g : Nat} {outcome : UpdateOutcome}
    (current : (c.conclude g outcome).1) : c.generation = g ∧ (c.conclude g outcome).2 =
      { c with active := none, outcome := some outcome, state := .completed } := by
  obtain ⟨-, heq⟩ | ⟨-, -, heq⟩ | ⟨hg, -, heq⟩ := c.conclude_cases g outcome
  · simp [heq] at current
  · simp [heq] at current
  · exact ⟨hg, by rw [heq]⟩

/-- An outcome that cannot be recorded leaves the controller alone, or ends the update that was
given up. -/
lemma Controller.conclude_lost {c : Controller} {g : Nat} {outcome : UpdateOutcome}
    (lost : (c.conclude g outcome).1 = false) :
    (c.conclude g outcome).2 = c ∧ c.generation ≠ g ∨
      c.generation = g ∧ (c.conclude g outcome).2 = { c.release with outcome := none } := by
  obtain ⟨hne, heq⟩ | ⟨hg, -, heq⟩ | ⟨-, -, heq⟩ := c.conclude_cases g outcome
  · exact .inl ⟨by rw [heq], hne⟩
  · exact .inr ⟨hg, by rw [heq]⟩
  · simp [heq] at lost

namespace Session

/-- How far the call that finishes a staged update is. -/
inductive Stage where
  | assembling
  | installing
  /-- the outcome is about to be recorded -/
  | ending
  deriving DecidableEq, Repr

/-- What a call is to the controller. -/
inductive Role where
  /-- has not touched the controller, which a question for the boot layout never does -/
  | entering (call : Call)
  /-- opens the delivery of an accepted request -/
  | setup (generation : Nat)
  /-- releases an update that was given up -/
  | undo (generation : Nat)
  | push (generation : Nat)
  /-- has pushed the final chunk of a streamed update -/
  | stream (generation : Nat)
  /-- has written the final chunk of a staged update -/
  | staged (generation : Nat) (stage : Stage)
  | reset
  /-- has no business with the controller any more -/
  | free

/-- What a call is after the chunk that it brought was accepted. -/
def Role.ofChunk (generation : Nat) (last : Bool) : DeliveryMode → Role
  | .staged => if last then .staged generation .assembling else .free
  | .streaming => if last then .stream generation else .push generation

/-- What a call is that is about to record an outcome. -/
def Role.ofOutcome (generation : Nat) : DeliveryMode → Role
  | .staged => .staged generation .ending
  | .streaming => .stream generation

def Point.role : Point → Role
  | .entry call => .entering call
  | .choosing generation _ _ _ _ | .preparing generation _ _ | .starting generation _ _ _
  | .checkingSpace generation _ _ _ | .creating generation _ _ | .setupFailed generation _
  | .settling generation _ _ => .setup generation
  | .discarding generation _ _ | .stopping _ _ (some generation) _ | .releasing generation _ =>
    .undo generation
  | .pushing generation _ _ last _ => if last then .stream generation else .push generation
  | .pushFailed generation _ => .push generation
  | .judging generation _ _ _ => .stream generation
  | .assembling generation _ _ | .removingManifest generation _ _ _
  | .checking generation _ _ | .dropping generation _ _ => .staged generation .assembling
  | .installing generation _ _ _ | .installed generation _ _ _ => .staged generation .installing
  | .concluding generation outcome _ _ => .ofOutcome generation outcome.mode
  | .swapping _ | .planning _ | .scheduling _ | .resetting _ => .reset
  | .stopping _ _ none _ | .withdrawing _ _ | .removing _ _ => .free
  | .asking _ => .entering .bootLayout

lemma entry_of_entering {p : Point} {call : Call} (h : p.role = .entering call) :
    p = .entry call ∨ call = .bootLayout := by
  cases p with
  | entry call' =>
    obtain rfl := Role.entering.inj h
    exact .inl rfl
  | asking rest => exact .inr (Role.entering.inj h).symm
  | pushing g target stream last rest => cases last <;> cases h
  | stopping stream rest release reply => cases release <;> cases h
  | concluding g outcome result otherwise =>
    cases hm : outcome.mode <;> simp [Point.role, Role.ofOutcome, hm] at h
  | _ => cases h

def Status.role : Status → Role
  | .running p => p.role
  | .returned _ => .free

/-- A step of a call: its role and the controller before, and both after. -/
inductive Control : Role → Controller → Role → Controller → Prop
  /-- the call goes on within its role -/
  | stay {r c} : Control r c r c
  /-- the call turns to what leaves the controller alone -/
  | refuse {call c} : Control (.entering call) c .free c
  | accept {number file size} {c : Controller} (free : c.accepts) :
      Control (.entering (.request number file size)) c (.setup (c.generation + 1)) c.startUpdate
  | settle {g} {c : Controller} (delivery : Delivery) (target : Target) (owner : c.owns g) :
      Control (.setup g) c .free { c with active := some ⟨target, 0, delivery⟩ }
  | giveUp {g} {c : Controller} (lost : c.owns g = false) : Control (.setup g) c (.undo g) c
  | setupFailed {g c} : Control (.setup g) c .free (c.releaseIfCurrent g)
  | released {g c} : Control (.undo g) c .free (c.releaseIfCurrent g)
  | receive {number offset chunk last} {u v : ActiveUpdate} {c : Controller}
      (open_ : c.state.isOpen) (update : c.active = some u)
      (target : v.target = u.target) (mode : v.delivery.mode = u.delivery.mode) :
      Control (.entering (.data number offset chunk last)) c
        (.ofChunk c.generation last u.delivery.mode)
        { c with state := if last then .finalizing else .receiving, active := some v }
  | writeFailed {number offset chunk last} {u : ActiveUpdate} {c : Controller}
      (open_ : c.state.isOpen) (update : c.active = some u)
      (mode : u.delivery.mode = .staged) :
      Control (.entering (.data number offset chunk last)) c .free c.release
  | pushed {g c} : Control (.push g) c .free c
  | pushFailed {g} {c : Controller} :
      Control (.push g) c .free (if c.owns g then c.release else c)
  | install {g} {c : Controller} (owner : c.owns g) :
      Control (.staged g .assembling) c (.staged g .installing) { c with state := .installing }
  | end_ {g stage c} : Control (.staged g stage) c (.staged g .ending) c
  | conclude {g c} (outcome : UpdateOutcome) :
      Control (.ofOutcome g outcome.mode) c .free (c.conclude g outcome).2
  | cancelSetup {number reason} {c : Controller}
      (open_ : c.state.isOpen) (none : c.active = none) :
      Control (.entering (.cancel number reason)) c .free { c with state := .cancelled }
  | cancelActive {number reason} {u : ActiveUpdate} {c : Controller}
      (open_ : c.state.isOpen) (update : c.active = some u) :
      Control (.entering (.cancel number reason)) c (.undo c.generation)
        { c with state := .cancelled, active := none }
  | cancelEnd {number reason} {c : Controller}
      (late : c.state.isLate) :
      Control (.entering (.cancel number reason)) c .free { c with state := .cancelled }
  | resetBegin {number version} {c : Controller} (done : c.state = .completed) :
      Control (.entering (.reset number version)) c .reset
        { c with state := .resetDecision, outcome := none }
  | resetEnd {scheduled : Bool} {c : Controller} :
      Control .reset c .free { c with state := if scheduled then .rebooting else .idle }

lemma control_of_request {setup : Setup} {w w' : World} {number size : Nat} {file : String}
    {st : Status} (h : RequestStep setup w number file size w' st) :
    Control (.entering (.request number file size)) w.controller st.role w'.controller := by
  cases h with
  | refused code => exact .refuse
  | accepted known name free goes =>
    obtain ⟨-, rfl⟩ | rfl := goes
    · exact .accept free
    · exact .accept free

lemma control_of_data {w w' : World} {number offset : Nat} {chunk : Bytes} {last : Bool}
    {st : Status} (h : DataStep w number offset chunk last w' st) :
    Control (.entering (.data number offset chunk last)) w.controller st.role w'.controller := by
  have hgot {u : ActiveUpdate} (htakes : Takes w.controller number offset u)
      (delivery : Delivery) (hmode : delivery.mode = u.delivery.mode) :
      Control (.entering (.data number offset chunk last)) w.controller
        (.ofChunk w.controller.generation last u.delivery.mode)
        { w.controller with
          state := if last then .finalizing else .receiving
          active := some (u.grown chunk delivery) } :=
    .receive htakes.open_ htakes.active rfl hmode
  cases h with
  | refused code => exact .refuse
  | failed code takes delivery kept =>
    exact .writeFailed takes.open_ takes.active (by rw [delivery]; rfl)
  | @written u path handle handle' files takes delivery write more =>
    have hc := hgot takes (.staged path (some handle')) (by rw [delivery]; rfl)
    rw [delivery] at hc
    subst more
    exact hc
  | @finished u path handle handle' files takes delivery write final =>
    have hc := hgot takes (.staged path none) (by rw [delivery]; rfl)
    rw [delivery] at hc
    subst final
    cases u.target
    · exact hc
    · exact hc
  | @pushed u stream takes delivery =>
    have hc := hgot takes (.streaming stream) (by rw [delivery])
    rw [delivery] at hc
    exact hc

lemma control_of_cancel {w w' : World} {number : Nat} {reason : CancelReason} {st : Status}
    (h : CancelStep w number w' st) :
    Control (.entering (.cancel number reason)) w.controller st.role w'.controller := by
  cases h with
  | ignored => exact .refuse
  | early open_ none => exact .cancelSetup open_ none
  | active open_ update same => exact .cancelActive open_ update
  | late late => exact .cancelEnd late
  | lateStream late update delivery => exact .cancelEnd late

lemma control_of_reset {setup : Setup} {w w' : World} {number : Nat} {version : Version}
    {st : Status} (h : ResetStep setup w number w' st) :
    Control (.entering (.reset number version)) w.controller st.role w'.controller := by
  cases h with
  | refused decision unscheduled => exact .refuse
  | begun done path =>
    generalize w.controller.outcome = outcome at path
    cases path with
    | refused => exact .resetBegin done
    | swap same success mode => exact .resetBegin done
    | plan same success mode => exact .resetBegin done

/-- Every way that a call goes on is one of `Control`. -/
theorem Goes.control {setup : Setup} {w w' : World} {p : Point} {st : Status}
    (h : Goes setup w p w' st) : Control p.role w.controller st.role w'.controller := by
  cases h with
  | request h => exact control_of_request h
  | data h => exact control_of_data h
  | cancel h => exact control_of_cancel h
  | reset h => exact control_of_reset h
  | asked => exact .refuse
  | inside wraps h => cases wraps <;> exact .stay
  | setupFailed => exact .setupFailed
  | settled owner => exact .settle _ _ owner
  | lost lost => exact .giveUp lost
  | stops h =>
    rename_i release _
    cases release <;> exact .stay
  | released => exact .released
  | pushed h fine => exact .pushed
  | pushFailed => exact .pushFailed
  | notAssembled => exact .end_
  | handed owner => exact .install owner
  | dropped => exact .end_
  | kept => exact .end_
  | used other => exact .end_
  | recorded current => exact .conclude _
  | givenUp lost => exact .conclude _
  | takenBack lost => exact .conclude _
  | resetDone => exact .resetEnd
  | _ => exact .stay

/-- The generation changes only when a request is accepted, and then by one. -/
lemma Control.generation_or {c c' : Controller} {r r' : Role} (h : Control r c r' c') :
    c'.generation = c.generation ∨ c.accepts ∧ c'.generation = c.generation + 1 := by
  cases h with
  | accept free => exact .inr ⟨free, rfl⟩
  | setupFailed => exact .inl (by simp)
  | released => exact .inl (by simp)
  | pushFailed =>
    left
    split <;> rfl
  | conclude outcome => exact .inl (by simp)
  | _ => exact .inl rfl

lemma Control.generation_cases {c c' : Controller} {r r' : Role} (h : Control r c r' c') :
    c'.generation = c.generation ∨ c'.generation = c.generation + 1 :=
  h.generation_or.imp_right And.right

lemma Control.generation {c c' : Controller} {r r' : Role} (h : Control r c r' c')
    (busy : c.accepts = false) : c'.generation = c.generation :=
  h.generation_or.resolve_right fun ⟨free, _⟩ => by simp [busy] at free

/-! ### Where the active update and the outcome come from -/

/-- The controller had the update before, with this target and this file or stream, or the call at
this point has just opened its delivery. -/
def Point.Brings (p : Point) (c : Controller) (u : ActiveUpdate) : Prop :=
  (∃ v, c.active = some v ∧ v.target = u.target ∧ v.delivery.closed = u.delivery.closed) ∨
    ∃ g, p = .settling g u.target u.delivery ∧ c.owns g

section Goes

variable {setup : Setup} {w w' : World} {p : Point} {st : Status}

/-- A step keeps the active update, but for its progress, or drops it, or settles a new one. -/
lemma Goes.active_back (h : Goes setup w p w' st) {u : ActiveUpdate}
    (active : w'.controller.active = some u) :
    w'.controller.generation = w.controller.generation ∧ p.Brings w.controller u := by
  have hsame {c : Controller} (hc : c = w.controller) (hu : c.active = some u) :
      c.generation = w.controller.generation ∧ p.Brings w.controller u := by
    subst hc
    exact ⟨rfl, .inl ⟨u, hu, rfl, rfl⟩⟩
  have hor {c : Controller} (or : c = w.controller ∨ c.active = none) (hu : c.active = some u) :
      c.generation = w.controller.generation ∧ p.Brings w.controller u := by
    rcases or with hc | hnone
    · exact hsame hc hu
    · rw [hnone] at hu
      cases hu
  cases h with
  | request h =>
    cases h with
    | refused code => exact hsame rfl active
    | accepted known name free goes => cases active
  | data h =>
    cases h with
    | refused code => exact hsame rfl active
    | failed code takes delivery kept => cases active
    | written takes delivery | finished takes delivery | pushed takes delivery =>
      obtain rfl := Option.some.inj active
      exact ⟨rfl, .inl ⟨_, takes.active, rfl, by rw [delivery]; rfl⟩⟩
  | cancel h =>
    cases h with
    | active open_ update same => cases active
    | ignored => exact hsame rfl active
    | _ => exact ⟨rfl, .inl ⟨u, active, rfl, rfl⟩⟩
  | reset h =>
    cases h with
    | refused decision unscheduled => exact hsame rfl active
    | begun done path => exact ⟨rfl, .inl ⟨u, active, rfl, rfl⟩⟩
  | settled owner =>
    obtain rfl := Option.some.inj active
    exact ⟨rfl, .inr ⟨_, rfl, owner⟩⟩
  | setupFailed => exact hor (Controller.releaseIfCurrent_or _ _) active
  | released => exact hor (Controller.releaseIfCurrent_or _ _) active
  | pushFailed =>
    dsimp only at active ⊢
    split at active
    · cases active
    · exact hsame (if_neg ‹_›) (by rwa [if_neg ‹_›])
  | handed owner => exact ⟨rfl, .inl ⟨u, active, rfl, rfl⟩⟩
  | recorded current => exact hor (Controller.conclude_or _ _ _) active
  | givenUp lost => exact hor (Controller.conclude_or _ _ _) active
  | takenBack lost => exact hor (Controller.conclude_or _ _ _) active
  | resetDone => exact ⟨rfl, .inl ⟨u, active, rfl, rfl⟩⟩
  | _ => exact hsame rfl active

/-- A step keeps the outcome, or drops it, or records the one that the call was about to record. -/
lemma Goes.outcome_back (h : Goes setup w p w' st) {o : UpdateOutcome}
    (ho : w'.controller.outcome = some o) :
    w'.controller.generation = w.controller.generation ∧ (w.controller.outcome = some o ∨
      ∃ result otherwise, p = .concluding w.controller.generation o result otherwise) := by
  have hconclude {g : Nat} {outcome : UpdateOutcome} {result : Except DataCode Unit}
      {otherwise : Otherwise} (hp : p = .concluding g outcome result otherwise)
      (hr : (w.controller.conclude g outcome).2.outcome = some o) :
      (w.controller.conclude g outcome).2.generation = w.controller.generation ∧
        (w.controller.outcome = some o ∨
          ∃ result otherwise, p = .concluding w.controller.generation o result otherwise) := by
    obtain ⟨-, heq⟩ | ⟨-, -, heq⟩ | ⟨hg, -, heq⟩ := w.controller.conclude_cases g outcome <;>
      rw [heq] at hr ⊢
    · exact ⟨rfl, .inl hr⟩
    · cases hr
    · obtain rfl : outcome = o := Option.some.inj hr
      exact ⟨rfl, .inr ⟨result, otherwise, by rw [hp, hg]⟩⟩
  cases h with
  | request h =>
    cases h with
    | refused code => exact ⟨rfl, .inl ho⟩
    | accepted known name free goes => cases ho
  | data h => cases h <;> exact ⟨rfl, .inl ho⟩
  | cancel h => cases h <;> exact ⟨rfl, .inl ho⟩
  | reset h =>
    cases h with
    | refused decision unscheduled => exact ⟨rfl, .inl ho⟩
    | begun done path => cases ho
  | setupFailed => exact ⟨by simp, .inl (by simpa using ho)⟩
  | released => exact ⟨by simp, .inl (by simpa using ho)⟩
  | pushFailed =>
    dsimp only at ho ⊢
    split at ho <;> exact ⟨by split <;> rfl, .inl ho⟩
  | recorded current => exact hconclude rfl ho
  | givenUp lost => exact hconclude rfl ho
  | takenBack lost => exact hconclude rfl ho
  | _ => exact ⟨rfl, .inl ho⟩

end Goes

end Session

end DeviceUpdate
