import DeviceUpdate.Proofs.FileSystem.Content
import DeviceUpdate.Proofs.Session.System

/-!
# How a call begins

The first step of a call looks at the controller and decides most of what follows. For each kind
of call the ways that it can begin are listed, with the checks that were passed.
-/

namespace DeviceUpdate

/-- The states in which the active update takes data. -/
def SessionState.isOpen (s : SessionState) : Prop := s = .requested ∨ s = .receiving

/-- The states in which the call with the final chunk works on the update. -/
def SessionState.isLate (s : SessionState) : Prop := s = .finalizing ∨ s = .installing

/-- The states in which an update is under way, or its files are being cleaned up. -/
def SessionState.isBusy (s : SessionState) : Prop := s.isOpen ∨ s.isLate ∨ s = .cancelled

/-- The update with one chunk more. -/
def ActiveUpdate.grown (u : ActiveUpdate) (chunk : Bytes) (delivery : Delivery) : ActiveUpdate :=
  ⟨u.target, u.received + chunk.length, delivery⟩

namespace Session

@[simp] lemma result?_step (w : World) (p : Point) :
    (Move.step w p).result? = some (w, .running p) := rfl

@[simp] lemma result?_reply (w : World) (r : Reply) :
    (Move.reply w r).result? = some (w, .returned r) := rfl

@[simp] lemma result?_wait : Move.wait.result? = none := rfl

@[simp] lemma result?_effect (e : Effect) : (Move.effect e).result? = none := rfl

variable {setup : Setup} {w w' : World} {st : Status}

inductive RequestStep (setup : Setup) (w : World) (number : Nat) (file : String) (size : Nat) :
    World → Status → Prop
  | refused (code : RequestCode) :
      RequestStep setup w number file size w (.returned (.request (.error code)))
  | accepted {target : Target} {p : Point} (known : Target.ofNumber? number = some target)
      (name : acceptableFileName file) (free : w.controller.accepts)
      (goes : mayStream setup target ∧
          p = .choosing (w.controller.generation + 1) target file size Procedure.bootLayout ∨
        p = .checkingSpace (w.controller.generation + 1) target file size) :
      RequestStep setup w number file size { w with controller := w.controller.startUpdate }
        (.running p)

lemma requestStep_of_result {number size : Nat} {file : String}
    (h : (enterRequest setup w number file size).result? = some (w', st)) :
    RequestStep setup w number file size w' st := by
  unfold enterRequest at h
  split at h
  · obtain ⟨rfl, rfl⟩ := by simpa using h
    exact .refused _
  · rename_i target hknown
    split at h
    · obtain ⟨rfl, rfl⟩ := by simpa using h
      exact .refused _
    · rename_i hname
      split at h
      · obtain ⟨rfl, rfl⟩ := by simpa using h
        exact .refused _
      · rename_i hfree
        obtain ⟨rfl, rfl⟩ := by simpa using h
        refine .accepted hknown (by simpa using hname) (by simpa using hfree) ?_
        split
        · exact .inl ⟨‹_›, rfl⟩
        · exact .inr rfl

/-- The update takes a chunk for this target at this offset. -/
structure Takes (c : Controller) (number offset : Nat) (u : ActiveUpdate) : Prop where
  known : Target.ofNumber? number = some u.target
  active : c.active = some u
  open_ : c.state.isOpen
  offset : offset = u.received

inductive DataStep (w : World) (number offset : Nat) (chunk : Bytes) (last : Bool) :
    World → Status → Prop
  | refused (code : DataCode) :
      DataStep w number offset chunk last w (.returned (.data (.error code)))
  | failed {u : ActiveUpdate} {path : String} {file : Option Handle} {files : FileSystem}
      (code : DataCode) (takes : Takes w.controller number offset u)
      (delivery : u.delivery = .staged path file)
      (kept : files = w.files ∨ ∃ handle handle' part, file = some handle ∧
        w.files.write handle part = .ok (handle', files)) :
      DataStep w number offset chunk last
        { w.setFiles files with controller := w.controller.release }
        (.running (.removing path (.data (.error code))))
  | written {u : ActiveUpdate} {path : String} {handle handle' : Handle} {files : FileSystem}
      (takes : Takes w.controller number offset u)
      (delivery : u.delivery = .staged path (some handle))
      (write : w.files.write handle chunk = .ok (handle', files)) (more : last = false) :
      DataStep w number offset chunk last
        { w.setFiles files with
          controller := { w.controller with
            state := .receiving
            active := some (u.grown chunk (.staged path (some handle'))) } }
        (.returned (.data (.ok ())))
  | finished {u : ActiveUpdate} {path : String} {handle handle' : Handle} {files : FileSystem}
      (takes : Takes w.controller number offset u)
      (delivery : u.delivery = .staged path (some handle))
      (write : w.files.write handle chunk = .ok (handle', files)) (final : last = true)
      (synced : files.sync handle' = .ok ()) :
      DataStep w number offset chunk last
        { w.setFiles files with
          controller := { w.controller with
            state := .finalizing
            active := some (u.grown chunk (.staged path none)) } }
        (.running (match u.target with
          | .manifest => .assembling w.controller.generation .manifest path
          | .system => .checking w.controller.generation .system path))
  | pushed {u : ActiveUpdate} {stream : Nat} (takes : Takes w.controller number offset u)
      (delivery : u.delivery = .streaming stream) :
      DataStep w number offset chunk last
        { w with
          controller := { w.controller with
            state := if last then .finalizing else .receiving
            active := some (u.grown chunk (.streaming stream)) } }
        (.running
          (.pushing w.controller.generation u.target stream last (.push chunk last)))

lemma dataStep_of_write {number offset : Nat} {chunk : Bytes} {last : Bool} {u : ActiveUpdate}
    {path : String} {file : Option Handle} (takes : Takes w.controller number offset u)
    (delivery : u.delivery = .staged path file)
    (h : (writeChunk w { u with received := u.received + chunk.length } path file chunk
      last).result? = some (w', st)) :
    DataStep w number offset chunk last w' st := by
  unfold writeChunk at h
  dsimp only at h
  split at h
  · obtain ⟨rfl, rfl⟩ := by simpa using h
    exact .failed _ takes delivery (.inl rfl)
  · rename_i handle
    split at h
    · obtain ⟨rfl, rfl⟩ := by simpa using h
      obtain ⟨part, handle', hwrite⟩ := FileSystem.write_of_spill w.files handle chunk
      exact .failed _ takes delivery (.inr ⟨handle, handle', part, rfl, hwrite⟩)
    · rename_i handle' files hwrite
      split at h
      · rename_i hlast
        obtain ⟨rfl, rfl⟩ := by simpa using h
        exact .written takes delivery hwrite (by simpa using hlast)
      · rename_i hlast
        split at h
        · obtain ⟨rfl, rfl⟩ := by simpa using h
          exact .failed _ takes delivery (.inr ⟨handle, handle', chunk, rfl, hwrite⟩)
        · rename_i hsync
          obtain ⟨rfl, rfl⟩ := by simpa using h
          exact .finished takes delivery hwrite (by simpa using hlast) hsync

lemma dataStep_of_result {number offset : Nat} {chunk : Bytes} {last : Bool}
    (h : (enterData w number offset chunk last).result? = some (w', st)) :
    DataStep w number offset chunk last w' st := by
  unfold enterData at h
  dsimp only at h
  split at h
  · obtain ⟨rfl, rfl⟩ := by simpa using h
    exact .refused _
  · obtain ⟨rfl, rfl⟩ := by simpa using h
    exact .refused _
  · rename_i target u hknown hactive
    split at h
    · obtain ⟨rfl, rfl⟩ := by simpa using h
      exact .refused _
    · rename_i hstate
      split at h
      · obtain ⟨rfl, rfl⟩ := by simpa using h
        exact .refused _
      · rename_i hoffset
        simp only [Bool.or_eq_true, Bool.and_eq_true, bne_iff_ne, not_or, not_and,
          Decidable.not_not] at hstate hoffset
        have hopen : w.controller.state.isOpen := by
          by_cases hr : w.controller.state = .requested
          · exact .inl hr
          · exact .inr (hstate.1 hr)
        have htakes : Takes w.controller number offset u :=
          ⟨by rw [hknown, hstate.2], hactive, hopen, hoffset⟩
        split at h
        · rename_i path file hd
          exact dataStep_of_write htakes hd h
        · rename_i stream hd
          obtain ⟨rfl, rfl⟩ := by simpa using h
          rcases u with ⟨t, received, _ | _⟩
          · simp at hd
          · cases hd
            cases hstate.2
            exact .pushed htakes rfl

inductive CancelStep (w : World) (number : Nat) : World → Status → Prop
  | ignored : CancelStep w number w (.returned .cancelled)
  | early (open_ : w.controller.state.isOpen) (none : w.controller.active = none) :
      CancelStep w number { w with controller := { w.controller with state := .cancelled } }
        (.returned .cancelled)
  | active {u : ActiveUpdate} (open_ : w.controller.state.isOpen)
      (update : w.controller.active = some u) (same : u.target.number = number) :
      CancelStep w number
        { w with controller := { w.controller with state := .cancelled, active := none } }
        (.running (.discarding w.controller.generation u.delivery .cancelled))
  | late (late : w.controller.state.isLate) :
      CancelStep w number { w with controller := { w.controller with state := .cancelled } }
        (.returned .cancelled)
  | lateStream {u : ActiveUpdate} {stream : Nat} (late : w.controller.state.isLate)
      (update : w.controller.active = some u) (delivery : u.delivery = .streaming stream) :
      CancelStep w number { w with controller := { w.controller with state := .cancelled } }
        (.running (.stopping stream .abort none .cancelled))

lemma cancelStep_of_result {number : Nat} (h : (enterCancel w number).result? = some (w', st)) :
    CancelStep w number w' st := by
  unfold enterCancel at h
  dsimp only at h
  split at h
  case h_1 hs | h_2 hs =>
    have hopen : w.controller.state.isOpen := by simp [SessionState.isOpen, hs]
    split at h
    · rename_i hnone
      obtain ⟨rfl, rfl⟩ := by simpa using h
      exact .early hopen hnone
    · rename_i u hu
      split at h
      · obtain ⟨rfl, rfl⟩ := by simpa using h
        exact .ignored
      · rename_i hsame
        obtain ⟨rfl, rfl⟩ := by simpa using h
        exact .active hopen hu (by simpa using hsame)
  case h_3 hs | h_4 hs =>
    have hlate : w.controller.state.isLate := by simp [SessionState.isLate, hs]
    split at h
    · rename_i hu
      obtain ⟨rfl, rfl⟩ := by simpa using h
      exact .lateStream hlate hu rfl
    · obtain ⟨rfl, rfl⟩ := by simpa using h
      exact .late hlate
  case h_5 =>
    obtain ⟨rfl, rfl⟩ := by simpa using h
    exact .ignored

/-- Where a reset goes on, by the outcome that it took over. -/
inductive ResetPath (setup : Setup) (number : Nat) : Option UpdateOutcome → Point → Prop
  | refused {outcome : Option UpdateOutcome}
      (other : ∀ o, outcome = some o → o.success → o.target.number ≠ number) :
      ResetPath setup number outcome (.resetting false)
  | swap {outcome : UpdateOutcome} (same : outcome.target.number = number)
      (success : outcome.success) (mode : outcome.mode = .streaming) :
      ResetPath setup number (some outcome)
        (.swapping (StreamPreparation.ofConfig setup.config).swapActiveSystem)
  | plan {outcome : UpdateOutcome} (same : outcome.target.number = number)
      (success : outcome.success) (mode : outcome.mode = .staged) :
      ResetPath setup number (some outcome) (.planning Procedure.bootLayout)

inductive ResetStep (setup : Setup) (w : World) (number : Nat) : World → Status → Prop
  | refused (decision : ResetDecision) (unscheduled : decision.rebootScheduled = false) :
      ResetStep setup w number w (.returned (.reset decision))
  | begun {p : Point} (done : w.controller.state = .completed)
      (path : ResetPath setup number w.controller.outcome p) :
      ResetStep setup w number
        { w with controller := { w.controller with state := .resetDecision, outcome := none } }
        (.running p)

lemma resetStep_of_result {number : Nat}
    (h : (enterReset setup w number).result? = some (w', st)) :
    ResetStep setup w number w' st := by
  unfold enterReset at h
  split at h
  · obtain ⟨rfl, rfl⟩ := by simpa using h
    exact .refused _ rfl
  · rename_i hdone
    obtain ⟨rfl, rfl⟩ := by simpa using h
    refine .begun (by simpa using hdone) ?_
    cases w.controller.outcome with
    | none => exact .refused (by simp)
    | some outcome =>
      dsimp only
      split
      · rename_i hbad
        refine .refused fun o ho success same => ?_
        obtain rfl := Option.some.inj ho
        simp [same, success] at hbad
      · rename_i hgood
        simp only [not_or, Decidable.not_not, Bool.not_eq_false] at hgood
        split
        · rename_i hmode
          exact .swap hgood.1 hgood.2 hmode
        · rename_i hmode
          exact .plan hgood.1 hgood.2 hmode

end Session

end DeviceUpdate
