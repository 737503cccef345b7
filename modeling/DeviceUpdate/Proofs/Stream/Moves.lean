import DeviceUpdate.Stream.Call
import Mathlib.Tactic.Lemma

/-!
# How a call on a slot goes on

`Goes` lists every way that a call on a slot goes on by itself, with the slot and the status that
it comes to; `goes_of_move` says that the list is complete. A call that does not go on is held up,
for which there are four reasons, or waits for the action after the install.
-/

namespace DeviceUpdate

/-- The second slot keeps what the first one knows of the engine's end, and that it is aborted. -/
structure Slot.Grows (s t : Slot) : Prop where
  status : ∀ e, s.endStatus = some e → t.endStatus = some e
  applied : s.applied → t.applied
  aborted : s.aborted → t.aborted

namespace Slot.Grows

variable {s t u : Slot}

lemma refl (s : Slot) : s.Grows s := ⟨fun _ h => h, fun h => h, fun h => h⟩

lemma trans (h : s.Grows t) (k : t.Grows u) : s.Grows u :=
  ⟨fun e he => k.status e (h.status e he), fun ha => k.applied (h.applied ha),
    fun ha => k.aborted (h.aborted ha)⟩

lemma signaled (h : s.Grows t) (hs : s.signaled) : t.signaled := by
  obtain ⟨e, he⟩ := Option.isSome_iff_exists.mp hs
  rw [Slot.signaled, h.status e he]
  rfl

lemma succeeded (h : s.Grows t) (hs : s.succeeded) : t.succeeded := by
  simp only [Slot.succeeded, Bool.and_eq_true, beq_iff_eq] at hs ⊢
  exact ⟨h.status _ hs.1, h.applied hs.2⟩

end Slot.Grows

namespace Slot

/-- The slot takes a chunk. -/
structure Accepts (s : Slot) : Prop where
  running : s.aborted = false
  fine : s.endStatus ≠ some .failure

lemma Accepts.back {s t : Slot} (h : t.Accepts) (grows : s.Grows t) : s.Accepts where
  running := by
    cases ha : s.aborted with
    | false => rfl
    | true => exact (grows.aborted ha).symm.trans h.running
  fine hf := h.fine (grows.status _ hf)

/-- The slot with a chunk in it. -/
def filled (s : Slot) (chunk : Bytes) (last : Bool) : Slot :=
  { s with buffer := chunk, ready := true, finalPushed := last }

/-- The slot after its chunk was taken. -/
def drained (s : Slot) : Slot :=
  { s with
    buffer := []
    ready := false
    lastChunkSize := s.buffer.length
    finalDrained := s.finalPushed }

/-- The slot once it is known how the engine ended. -/
def ended (s : Slot) (status : EndStatus) : Slot := { s with endStatus := some status }

variable (s : Slot)

lemma offer_cases (chunk : Bytes) (last : Bool) :
    s.aborted ∧ s.offer chunk last = .error (.cancelled "streaming session aborted") ∨
    s.aborted = false ∧ s.endStatus = some .failure ∧
      s.offer chunk last = .error (.streamingFailed "engine already reported a failure") ∨
    s.Accepts ∧ s.offer chunk last = .ok (s.filled chunk last) := by
  by_cases ha : s.aborted
  · exact .inl ⟨ha, by rw [offer, if_pos ha]⟩
  · by_cases hf : s.endStatus = some .failure
    · exact .inr (.inl ⟨by simpa using ha, hf, by rw [offer, if_neg ha, if_pos hf]⟩)
    · exact .inr (.inr ⟨⟨by simpa using ha, hf⟩, by rw [offer, if_neg ha, if_neg hf, filled]⟩)

lemma take_cases :
    (s.aborted ∨ s.finalDrained) ∧ s.take = .ended ∨
    s.aborted = false ∧ s.finalDrained = false ∧
      (s.ready ∧ s.take = .chunk s.buffer s.drained ∨ s.ready = false ∧ s.take = .notYet) := by
  by_cases ho : s.aborted || s.finalDrained
  · exact .inl ⟨by simpa using ho, by rw [take, if_pos ho]⟩
  · obtain ⟨ha, hd⟩ : s.aborted = false ∧ s.finalDrained = false := by simpa using ho
    by_cases hr : s.ready
    · exact .inr ⟨ha, hd, .inl ⟨hr, by rw [take, if_neg ho, if_pos hr, drained]⟩⟩
    · exact .inr ⟨ha, hd, .inr ⟨by simpa using hr, by rw [take, if_neg ho, if_neg hr]⟩⟩

lemma beginReport_cases :
    (s.completing ∨ s.signaled) ∧ s.beginReport = none ∨
    s.completing = false ∧ s.endStatus = none ∧
      s.beginReport = some { s with completing := true } := by
  by_cases hk : s.completing || s.signaled
  · exact .inl ⟨by simpa using hk, by rw [beginReport, if_pos hk]⟩
  · obtain ⟨hc, hs⟩ : s.completing = false ∧ s.endStatus = none := by simpa [signaled] using hk
    exact .inr ⟨hc, hs, by rw [beginReport, if_neg hk]⟩

lemma signal_cases (status : EndStatus) :
    s.signaled ∧ s.signal status = none ∨
    s.endStatus = none ∧ s.signal status = some (s.ended status) := by
  by_cases hk : s.signaled
  · exact .inl ⟨hk, by rw [signal, if_pos hk]⟩
  · exact .inr ⟨by simpa [signaled] using hk, by rw [signal, if_neg hk, ended]⟩

end Slot

namespace Stream

/-- Where a call stands, or what it answered. -/
inductive Status where
  | running (point : Point)
  | returned (reply : Reply)

/-- The slot after a move, and where the call then stands. -/
def Move.result? : Move → Option (Slot × Status)
  | .reply slot r => some (slot, .returned r)
  | .step slot p => some (slot, .running p)
  | _ => none

@[simp] lemma result?_step (s : Slot) (p : Point) :
    (Move.step s p).result? = some (s, .running p) := rfl

@[simp] lemma result?_reply (s : Slot) (r : Reply) :
    (Move.reply s r).result? = some (s, .returned r) := rfl

@[simp] lemma result?_wait : Move.wait.result? = none := rfl

@[simp] lemma result?_postUpdate : Move.postUpdate.result? = none := rfl

/-- A call that has the action after the update to perform does not go on by itself. -/
lemma result?_of_postUpdate {s : Slot} : (Point.postUpdate.move s).result? = none := by
  simp [Point.move]

/-- A push was turned away because of an abort. -/
def refusedAborted : Reply := .pushed (.error (.cancelled "streaming session aborted"))

/-- A push was turned away because the engine had failed. -/
def refusedFailed : Reply := .pushed (.error (.streamingFailed "engine already reported a failure"))

/-- The engine failed after the final chunk was accepted. -/
def engineFailed : Reply := .pushed (.error (.streamingFailed "engine reported a failure"))

/-- The engine succeeded, but the image was not applied in time. -/
def notApplied : Reply :=
  .pushed (.error (.timeout "streaming engine did not finish applying the image"))

/-- The call goes on from a point, to a slot and a status. -/
inductive Goes (s : Slot) : Point → Slot → Status → Prop
  | refused {chunk : Bytes} {last : Bool} (aborted : s.aborted) :
      Goes s (.push chunk last) s (.returned refusedAborted)
  | tooLate {chunk : Bytes} {last : Bool} (running : s.aborted = false)
      (failed : s.endStatus = some .failure) :
      Goes s (.push chunk last) s (.returned refusedFailed)
  | pushed {chunk : Bytes} (takes : s.Accepts) :
      Goes s (.push chunk false) (s.filled chunk false) (.returned (.pushed (.ok ())))
  | pushedFinal {chunk : Bytes} (takes : s.Accepts) :
      Goes s (.push chunk true) (s.filled chunk true) (.running .awaitEnd)
  | failed (failed : s.endStatus = some .failure) :
      Goes s .awaitEnd s (.returned engineFailed)
  | succeeded (done : s.endStatus = some .success) :
      Goes s .awaitEnd s (.running (.awaitApplied 0))
  | finished {waits : Nat} (applied : s.applied) :
      Goes s (.awaitApplied waits) s (.returned (.pushed (.ok ())))
  | timedOut {waits : Nat} (pending : s.applied = false) (late : finalizeAttempts ≤ waits) :
      Goes s (.awaitApplied waits) s (.returned notApplied)
  | ended (dry : s.aborted ∨ s.finalDrained) : Goes s .pull s (.returned (.pulled none))
  | pulled (running : s.aborted = false) (more : s.finalDrained = false) (ready : s.ready) :
      Goes s .pull s.drained (.returned (.pulled (some s.buffer)))
  | ignored {status : EndStatus} (known : s.completing ∨ s.signaled) :
      Goes s (.complete status) s (.returned .completed)
  | completesSuccess (first : s.completing = false) (silent : s.endStatus = none) :
      Goes s (.complete .success) { s with completing := true } (.running .postUpdate)
  | completesFailure (first : s.completing = false) (silent : s.endStatus = none) :
      Goes s (.complete .failure) { s with completing := true } (.running (.report .failure))
  | reportedSuccess (silent : s.endStatus = none) :
      Goes s (.report .success) (s.ended .success) (.running .apply)
  | reportedFailure (silent : s.endStatus = none) :
      Goes s (.report .failure) (s.ended .failure) (.returned .completed)
  | superseded {status : EndStatus} (known : s.signaled) :
      Goes s (.report status) s (.returned .completed)
  | applies : Goes s .apply s.markApplied (.returned .completed)
  | signals {status : EndStatus} (silent : s.endStatus = none) :
      Goes s (.signal status) (s.ended status) (.returned (.signaled true))
  | signalsLate {status : EndStatus} (known : s.signaled) :
      Goes s (.signal status) s (.returned (.signaled false))
  | marks : Goes s .markApplied s.markApplied (.returned .applied)
  | aborts : Goes s .abort s.raiseAbort (.running .awaitAbort)
  | aborted {status : EndStatus} (done : s.endStatus = some status) :
      Goes s .awaitAbort s (.returned (.aborted status))

variable {s t : Slot} {st : Status}

/-! ### The list is complete -/

lemma goes_of_push {chunk : Bytes} {last : Bool}
    (h : ((Point.push chunk last).move s).result? = some (t, st)) :
    Goes s (.push chunk last) t st := by
  simp only [Point.move] at h
  rcases s.offer_cases chunk last with ⟨ha, heq⟩ | ⟨ha, hf, heq⟩ | ⟨takes, heq⟩ <;> rw [heq] at h
  · obtain ⟨rfl, rfl⟩ := by simpa using h
    exact .refused ha
  · obtain ⟨rfl, rfl⟩ := by simpa using h
    exact .tooLate ha hf
  · cases last with
    | true =>
      obtain ⟨rfl, rfl⟩ := by simpa using h
      exact .pushedFinal takes
    | false =>
      obtain ⟨rfl, rfl⟩ := by simpa using h
      exact .pushed takes

lemma goes_of_awaitEnd (h : (Point.awaitEnd.move s).result? = some (t, st)) :
    Goes s .awaitEnd t st := by
  simp only [Point.move] at h
  split at h
  · simp at h
  · obtain ⟨rfl, rfl⟩ := by simpa using h
    exact .failed ‹_›
  · obtain ⟨rfl, rfl⟩ := by simpa using h
    exact .succeeded ‹_›

lemma goes_of_awaitApplied {waits : Nat}
    (h : ((Point.awaitApplied waits).move s).result? = some (t, st)) :
    Goes s (.awaitApplied waits) t st := by
  simp only [Point.move] at h
  split at h
  · obtain ⟨rfl, rfl⟩ := by simpa using h
    exact .finished ‹_›
  · rename_i hp
    split at h
    · obtain ⟨rfl, rfl⟩ := by simpa using h
      exact .timedOut (by simpa using hp) ‹_›
    · simp at h

lemma goes_of_pull (h : (Point.pull.move s).result? = some (t, st)) : Goes s .pull t st := by
  simp only [Point.move] at h
  rcases s.take_cases with ⟨ho, heq⟩ | ⟨ha, hd, ⟨hr, heq⟩ | ⟨-, heq⟩⟩ <;> rw [heq] at h
  · obtain ⟨rfl, rfl⟩ := by simpa using h
    exact .ended ho
  · obtain ⟨rfl, rfl⟩ := by simpa using h
    exact .pulled ha hd hr
  · simp at h

lemma goes_of_complete {status : EndStatus}
    (h : ((Point.complete status).move s).result? = some (t, st)) :
    Goes s (.complete status) t st := by
  simp only [Point.move] at h
  rcases s.beginReport_cases with ⟨hk, heq⟩ | ⟨hc, hs, heq⟩ <;> rw [heq] at h
  · obtain ⟨rfl, rfl⟩ := by simpa using h
    exact .ignored hk
  · cases status with
    | success =>
      obtain ⟨rfl, rfl⟩ := by simpa using h
      exact .completesSuccess hc hs
    | failure =>
      obtain ⟨rfl, rfl⟩ := by simpa using h
      exact .completesFailure hc hs

lemma goes_of_report {status : EndStatus}
    (h : ((Point.report status).move s).result? = some (t, st)) :
    Goes s (.report status) t st := by
  simp only [Point.move] at h
  rcases s.signal_cases status with ⟨hknown, heq⟩ | ⟨hsilent, heq⟩ <;> rw [heq] at h
  · obtain ⟨rfl, rfl⟩ := by simpa using h
    exact .superseded hknown
  · cases status with
    | success =>
      obtain ⟨rfl, rfl⟩ := by simpa using h
      exact .reportedSuccess hsilent
    | failure =>
      obtain ⟨rfl, rfl⟩ := by simpa using h
      exact .reportedFailure hsilent

lemma goes_of_signal {status : EndStatus}
    (h : ((Point.signal status).move s).result? = some (t, st)) :
    Goes s (.signal status) t st := by
  simp only [Point.move] at h
  rcases s.signal_cases status with ⟨hknown, heq⟩ | ⟨hsilent, heq⟩ <;> rw [heq] at h
  · obtain ⟨rfl, rfl⟩ := by simpa using h
    exact .signalsLate hknown
  · obtain ⟨rfl, rfl⟩ := by simpa using h
    exact .signals hsilent

lemma goes_of_awaitAbort (h : (Point.awaitAbort.move s).result? = some (t, st)) :
    Goes s .awaitAbort t st := by
  simp only [Point.move] at h
  split at h
  · simp at h
  · obtain ⟨rfl, rfl⟩ := by simpa using h
    exact .aborted ‹_›

/-- Every move of a call is in the list. -/
theorem goes_of_move {p : Point} (h : (p.move s).result? = some (t, st)) : Goes s p t st := by
  -- a point from which there is one way only goes it here
  have hway {u : Slot} {next : Status} (move : (p.move s).result? = some (u, next))
      (goes : Goes s p u next) : Goes s p t st := by
    obtain ⟨rfl, rfl⟩ := Prod.mk.inj (Option.some.inj (move.symm.trans h))
    exact goes
  cases p with
  | push chunk last => exact goes_of_push h
  | awaitEnd => exact goes_of_awaitEnd h
  | awaitApplied waits => exact goes_of_awaitApplied h
  | pull => exact goes_of_pull h
  | complete status => exact goes_of_complete h
  | postUpdate => simp [result?_of_postUpdate] at h
  | report status => exact goes_of_report h
  | apply => exact hway rfl .applies
  | signal status => exact goes_of_signal h
  | markApplied => exact hway rfl .marks
  | abort => exact hway rfl .aborts
  | awaitAbort => exact goes_of_awaitAbort h

/-- A call that goes on takes nothing back. -/
lemma Goes.grows {p : Point} (h : Goes s p t st) : s.Grows t := by
  have hended (status : EndStatus) (silent : s.endStatus = none) : s.Grows (s.ended status) :=
    ⟨fun e he => by simp [silent] at he, fun ha => ha, fun ha => ha⟩
  cases h with
  | pushed | pushedFinal | pulled | completesSuccess | completesFailure =>
    exact ⟨fun _ he => he, fun ha => ha, fun ha => ha⟩
  | reportedSuccess silent | reportedFailure silent => exact hended _ silent
  | signals silent => exact hended _ silent
  | applies | marks => exact ⟨fun _ he => he, fun _ => rfl, fun ha => ha⟩
  | aborts => exact ⟨fun _ he => he, fun ha => ha, fun _ => rfl⟩
  | _ => exact .refl s

/-- What holds a call up. -/
def Point.Held (s : Slot) : Point → Prop
  | .awaitEnd | .awaitAbort => s.endStatus = none
  | .awaitApplied waits => s.applied = false ∧ waits < finalizeAttempts
  | .pull => s.aborted = false ∧ s.finalDrained = false ∧ s.ready = false
  | _ => False

/-- A call waits if it is held up, is at the action after the install, or goes on. -/
lemma move_cases (s : Slot) (p : Point) : p.move s = .wait ∧ p.Held s ∨
    p.move s = .postUpdate ∧ p = .postUpdate ∨ (p.move s).result?.isSome ∧ ¬ p.Held s := by
  cases p with
  | push chunk last =>
    rcases s.offer_cases chunk last with ⟨-, heq⟩ | ⟨-, -, heq⟩ | ⟨-, heq⟩
    · exact .inr (.inr ⟨by simp [Point.move, heq], id⟩)
    · exact .inr (.inr ⟨by simp [Point.move, heq], id⟩)
    · cases last <;> exact .inr (.inr ⟨by simp [Point.move, heq], id⟩)
  | awaitEnd =>
    cases he : s.endStatus with
    | none => exact .inl ⟨by simp [Point.move, he], he⟩
    | some e => cases e <;> exact .inr (.inr ⟨by simp [Point.move, he], by simp [Point.Held, he]⟩)
  | awaitApplied waits =>
    cases ha : s.applied with
    | true => exact .inr (.inr ⟨by simp [Point.move, ha], by simp [Point.Held, ha]⟩)
    | false =>
      rcases Nat.lt_or_ge waits finalizeAttempts with hlt | hge
      · exact .inl ⟨by simp [Point.move, ha, Nat.not_le.mpr hlt], ha, hlt⟩
      · exact .inr (.inr ⟨by simp [Point.move, ha, hge], fun held => Nat.not_lt.mpr hge held.2⟩)
  | pull =>
    rcases s.take_cases with ⟨ho, heq⟩ | ⟨ha, hd, ⟨hr, heq⟩ | ⟨hr, heq⟩⟩
    · exact .inr (.inr ⟨by simp [Point.move, heq], fun held => by simp [held.1, held.2.1] at ho⟩)
    · exact .inr (.inr ⟨by simp [Point.move, heq], fun held => by simp [held.2.2] at hr⟩)
    · exact .inl ⟨by simp [Point.move, heq], ha, hd, hr⟩
  | complete status =>
    rcases s.beginReport_cases with ⟨-, heq⟩ | ⟨-, -, heq⟩ <;>
      exact .inr (.inr ⟨by simp [Point.move, heq], id⟩)
  | postUpdate => exact .inr (.inl ⟨rfl, rfl⟩)
  | report status =>
    rcases s.signal_cases status with ⟨-, heq⟩ | ⟨-, heq⟩
    · exact .inr (.inr ⟨by simp [Point.move, heq], id⟩)
    · cases status <;> exact .inr (.inr ⟨by simp [Point.move, heq], id⟩)
  | signal status =>
    rcases s.signal_cases status with ⟨-, heq⟩ | ⟨-, heq⟩ <;>
      exact .inr (.inr ⟨by simp [Point.move, heq], id⟩)
  | awaitAbort =>
    cases he : s.endStatus with
    | none => exact .inl ⟨by simp [Point.move, he], he⟩
    | some e => exact .inr (.inr ⟨by simp [Point.move, he], by simp [Point.Held, he]⟩)
  | apply | markApplied | abort => exact .inr (.inr ⟨rfl, id⟩)

lemma held_of_wait {p : Point} (h : p.move s = .wait) : p.Held s := by
  rcases move_cases s p with ⟨-, held⟩ | ⟨heq, -⟩ | ⟨hgoes, -⟩
  · exact held
  · rw [h] at heq
    cases heq
  · simp [h] at hgoes

lemma eq_of_postUpdate {p : Point} (h : p.move s = .postUpdate) : p = .postUpdate := by
  rcases move_cases s p with ⟨heq, -⟩ | ⟨-, hp⟩ | ⟨hgoes, -⟩
  · rw [h] at heq
    cases heq
  · exact hp
  · simp [h] at hgoes

end Stream

end DeviceUpdate
