import DeviceUpdate.Proofs.Stream.Completion
import DeviceUpdate.Proofs.Stream.Delivery

/-!
# When the calls of a stream return

A push of the last chunk waits until the end of the stream is recorded, and then, if that is
success, a bounded number of times for the image to be applied. An abort waits for the end too, and
from its first section on the slot stays closed.
-/

namespace DeviceUpdate.Stream

/-- It is a wait of a final push for the image to be applied. -/
def Event.isWait : Event → Bool
  | .waited => true
  | _ => false

/-- How often the call `i` has waited for the image to be applied. -/
def System.waits (s : System) (i : Nat) : Nat := (s.deeds i).countP Event.isWait

/-- The waits that a point counts. -/
def Point.waits : Point → Nat
  | .awaitApplied waits => waits
  | _ => 0

/-- A slot that lets nothing in or out. -/
structure Closed (s : Slot) : Prop where
  aborted : s.aborted
  empty : s.ready = false
  push : ∀ chunk last, (Point.push chunk last).move s = .reply s refusedAborted
  pull : Point.pull.move s = .reply s (.pulled none)

/-- What a call returns whose section comes after an abort. -/
def Call.closed? : Call → Option Reply
  | .push _ _ => some refusedAborted
  | .pull => some (.pulled none)
  | _ => none

/-- The call `i` gets from a point to an answer. -/
structure Returns (s t : System) (i : Nat) (call : Call) (p : Point) (r : Reply) : Prop where
  step : Step s t
  before : s.threads[i]? = some ⟨call, .running p⟩
  after : t.threads[i]? = some ⟨call, .returned r⟩

/-- What a push returns from its first section, and what becomes of the slot. -/
inductive FirstAnswer (s t : Slot) (chunk : Bytes) (last : Bool) (r : Reply) : Prop
  | aborted (aborted : s.aborted) (refused : r = refusedAborted) (same : t = s)
  | failed (running : s.aborted = false) (failure : s.endStatus = some .failure)
      (refused : r = refusedFailed) (same : t = s)
  | accepted (takes : s.Accepts) (more : last = false) (ok : r = .pushed (.ok ()))
      (now : t = s.filled chunk false)

/-- What a push returns whose last chunk was accepted, when it has waited that often. -/
structure FinalAnswer (s t : Slot) (waits : Nat) (r : Reply) : Prop where
  same : t = s
  signaled : s.signaled
  ok_iff : r = .pushed (.ok ()) ↔ s.endStatus = some .success ∧ s.applied
  failed_iff : r = engineFailed ↔ s.endStatus = some .failure
  late_iff : r = notApplied ↔ s.endStatus = some .success ∧ s.applied = false
  bounded : waits ≤ finalizeAttempts
  exhausted : r = notApplied → waits = finalizeAttempts

variable {s t : System}

/-! ### After an abort -/

lemma closed_of_aborted {a : Slot} (aborted : a.aborted) (empty : a.ready = false) : Closed a where
  aborted := aborted
  empty := empty
  push chunk last := by
    rw [Point.move, Slot.offer, if_pos aborted]
    rfl
  pull := by rw [Point.move, Slot.take, if_pos (by simp [aborted])]

/-- An aborted slot holds no chunk. -/
lemma empty_of_aborted (run : Run .fresh s) (aborted : s.slot.aborted) : s.slot.ready = false := by
  refine run.keeps (P := fun s => s.slot.aborted → s.slot.ready = false) (fun _ => rfl)
    (fun _ hu step ht => ?_) aborted
  obtain ⟨e, -, deals⟩ := step.deals
  cases deals with
  | puts takes now =>
    rw [now, Slot.filled, takes.running] at ht
    cases ht
  | refuses _ same | ends _ same => exact same ▸ hu (same ▸ ht)
  | takes _ _ _ now => rw [now, Slot.drained]
  | aborts now => rw [now, Slot.raiseAbort]
  | aside _ same => exact same.ready.trans (hu (same.still ▸ ht))

/-- The call has not come to its first section in this state, or is not made yet. -/
def System.Untouched (s : System) (i : Nat) : Prop :=
  ∀ call st, s.threads[i]? = some ⟨call, st⟩ → st = .running call.entry

/-- In an aborted slot a push and a pull go on to the same answer always. -/
lemma Goes.closed {a b : Slot} {call : Call} {st : Status} {r : Reply}
    (goes : Goes a call.entry b st) (aborted : a.aborted) (hr : call.closed? = some r) :
    st = .returned r := by
  cases call with
  | push chunk last =>
    cases hr
    cases goes with
    | refused => rfl
    | tooLate running => simp [aborted] at running
    | pushed takes | pushedFinal takes => simp [takes.running] at aborted
  | pull =>
    cases hr
    cases goes with
    | ended => rfl
    | pulled running => simp [aborted] at running
  | _ => cases hr

/-- Once a slot is aborted, a push or pull whose section is still to come returns only that. -/
lemma closed_answer (aborted : s.slot.aborted) (run : Run s t) :
    t.Each fun i call st => s.Untouched i → ∀ r, call.closed? = some r →
      st = .running call.entry ∨ st = .returned r := by
  refine run.keeps (P := fun t => t.Each fun i call st => s.Untouched i →
    ∀ r, call.closed? = some r → st = .running call.entry ∨ st = .returned r)
    (fun i call st hi huntouched _ _ => .inl (huntouched call st hi))
    fun reached hu step i call st hi huntouched r hr => ?_
  cases step.turn hi with
  | new => exact .inl rfl
  | idle there => exact hu i call st there huntouched r hr
  | @goes p _ there goes =>
    obtain rfl : p = call.entry := by simpa using hu i call _ there huntouched r hr
    exact .inr (goes.closed (reached.grows.aborted aborted) hr)
  | answered there =>
    have hentry := hu i call _ there huntouched r hr
    cases call <;> simp [Call.closed?, Call.entry] at hr hentry
  | @woken p there =>
    obtain rfl : p = call.entry := by simpa using hu i call _ there huntouched r hr
    exact .inl (by cases call <;> rfl)

/-! ### Answers -/

lemma Returns.goes {i : Nat} {call : Call} {p : Point} {r : Reply} (h : Returns s t i call p r) :
    Goes s.slot p t.slot (.returned r) := by
  cases h.step.turn h.after with
  | idle there => cases h.before.symm.trans there
  | goes there goes =>
    cases h.before.symm.trans there
    exact goes

lemma Returns.firstAnswer {i : Nat} {chunk : Bytes} {last : Bool} {r : Reply}
    (h : Returns s t i (.push chunk last) (.push chunk last) r) :
    FirstAnswer s.slot t.slot chunk last r := by
  have goes := h.goes
  generalize s.slot = a, t.slot = b at goes
  cases goes with
  | refused aborted => exact .aborted aborted rfl rfl
  | tooLate running failed => exact .failed running failed rfl rfl
  | pushed takes => exact .accepted takes rfl rfl rfl

/-! ### The waits of a final push -/

/-- The call `i` counts its waits for the image, and began them after a success. -/
structure Counted (s : System) (i : Nat) (p : Point) : Prop where
  counted : s.waits i = p.waits
  bounded : p.waits ≤ finalizeAttempts
  succeeded : ∀ w, p = .awaitApplied w → s.slot.endStatus = some .success

section Counted

variable {i : Nat} {p : Point}

lemma waits_of_silent (h : t.deeds i = s.deeds i) : t.waits i = s.waits i := by
  rw [System.waits, h, System.waits]

lemma waits_of_tells {e : Option Event} (h : t.deeds i = e.toList ++ s.deeds i)
    (he : e.any Event.isWait = false) : t.waits i = s.waits i := by
  rw [System.waits, h, List.countP_append, System.waits]
  cases e with
  | none => simp
  | some ev => simpa using he

lemma Goes.no_wait {a b : Slot} {st : Status} (goes : Goes a p b st) :
    (Event.of? a p st).any Event.isWait = false := by
  cases goes <;> rfl

/-- A call that goes on has not waited, and is yet to wait. -/
lemma Goes.unwaited {a b : Slot} {q : Point} (goes : Goes a p b (.running q)) :
    p.waits = 0 ∧ q.waits = 0 ∧ ∀ w, q = .awaitApplied w → b.endStatus = some .success := by
  cases goes with
  | succeeded done => exact ⟨rfl, rfl, fun _ _ => done⟩
  | _ => exact ⟨rfl, rfl, fun w hw => by cases hw⟩

/-- A call that waited has one wait more, if it waits for the image to be applied. -/
lemma Counted.wake (h : Counted s i p) (grows : s.slot.Grows t.slot) (held : p.Held s.slot)
    (tells : t.deeds i = (Event.ofWake? p).toList ++ s.deeds i) : Counted t i p.wake := by
  cases p with
  | awaitApplied w =>
    refine ⟨?_, held.2, fun _ _ => grows.status _ (h.succeeded w rfl)⟩
    have hcounted := h.counted
    rw [System.waits] at hcounted
    rw [System.waits, tells, List.countP_append, hcounted, Nat.add_comm]
    rfl
  | _ =>
    exact ⟨(waits_of_silent tells).trans h.counted, h.bounded, fun w hw => by cases hw⟩

/-- A call counts its waits as long as it runs. -/
theorem counted (run : Run .fresh s) :
    s.Each fun i _ st => ∀ p, st = .running p → Counted s i p := by
  refine run.keeps (P := fun s => s.Each fun i _ st => ∀ p, st = .running p → Counted s i p)
    System.each_fresh fun {u v} reached hu step i call st hi p hp => ?_
  have grows := step.grows
  cases step.turn hi with
  | new last silent =>
    cases hp
    have hnone : v.waits i = 0 := by rw [System.waits, silent, last, deeds_new reached]; rfl
    have hzero : call.entry.waits = 0 := by cases call <;> rfl
    refine ⟨hnone.trans hzero.symm, hzero ▸ Nat.zero_le _, fun w hw => ?_⟩
    cases call <;> cases hw
  | idle there silent =>
    have h := hu i call st there p hp
    exact ⟨(waits_of_silent silent).trans h.counted, h.bounded,
      fun w hw => grows.status _ (h.succeeded w hw)⟩
  | goes there goes tells =>
    subst hp
    obtain ⟨hold, hnew, hdone⟩ := goes.unwaited
    refine ⟨?_, hnew ▸ Nat.zero_le _, hdone⟩
    rw [waits_of_tells tells goes.no_wait, (hu i call _ there _ rfl).counted, hold, hnew]
  | @answered a there tells =>
    have hsame : v.waits i = u.waits i := waits_of_tells (e := some (.performed a)) tells rfl
    have hcounted := hsame.trans (hu i call _ there _ rfl).counted
    cases hp
    cases a <;> exact ⟨hcounted, Nat.zero_le _, fun w hw => by cases hw⟩
  | woken there held tells =>
    cases hp
    exact (hu i call _ there _ rfl).wake grows held tells

/-- No call waits for the image more than a hundred times. -/
theorem waits_le (run : Run .fresh s) : s.Each fun i _ _ => s.waits i ≤ finalizeAttempts := by
  refine run.keeps (P := fun s => s.Each fun i _ _ => s.waits i ≤ finalizeAttempts)
    System.each_fresh fun {u v} reached hu step i call st hi => ?_
  cases step.turn hi with
  | new =>
    have h := counted (reached.tail step) i call _ hi _ rfl
    exact h.counted.trans_le h.bounded
  | idle there silent => exact (waits_of_silent silent).trans_le (hu i call _ there)
  | goes there goes tells =>
    exact (waits_of_tells tells goes.no_wait).trans_le (hu i call _ there)
  | @answered a there tells =>
    exact (waits_of_tells (e := some (.performed a)) tells rfl).trans_le (hu i call _ there)
  | woken there held tells =>
    have h := counted (reached.tail step) i call _ hi _ rfl
    exact h.counted.trans_le h.bounded

end Counted

/-! ### The answer of a final push -/

lemma finalAnswer_failed {a : Slot} (failed : a.endStatus = some .failure) :
    FinalAnswer a a 0 engineFailed where
  same := rfl
  signaled := by simp [Slot.signaled, failed]
  ok_iff := by simp [engineFailed, failed]
  failed_iff := ⟨fun _ => failed, fun _ => rfl⟩
  late_iff := by simp [engineFailed, notApplied, failed]
  bounded := Nat.zero_le _
  exhausted := nofun

lemma finalAnswer_applied {a : Slot} {waits : Nat} (done : a.endStatus = some .success)
    (applied : a.applied) (bounded : waits ≤ finalizeAttempts) :
    FinalAnswer a a waits (.pushed (.ok ())) where
  same := rfl
  signaled := by simp [Slot.signaled, done]
  ok_iff := ⟨fun _ => ⟨done, applied⟩, fun _ => rfl⟩
  failed_iff := by simp [engineFailed, done]
  late_iff := by simp [notApplied, applied]
  bounded := bounded
  exhausted := nofun

lemma finalAnswer_late {a : Slot} {waits : Nat} (done : a.endStatus = some .success)
    (pending : a.applied = false) (exhausted : waits = finalizeAttempts) :
    FinalAnswer a a waits notApplied where
  same := rfl
  signaled := by simp [Slot.signaled, done]
  ok_iff := by simp [notApplied, pending]
  failed_iff := by simp [notApplied, engineFailed, done]
  late_iff := ⟨fun _ => ⟨done, pending⟩, fun _ => rfl⟩
  bounded := exhausted.le
  exhausted _ := exhausted

/-- A push whose last chunk was accepted answers as the end of the stream says. -/
theorem Returns.finalAnswer (run : Run .fresh s) {i : Nat} {chunk : Bytes} {p : Point} {r : Reply}
    {waiting : Bool} (h : Returns s t i (.push chunk true) p r)
    (accepted : (i, .pushed chunk true waiting) ∈ s.history) :
    FinalAnswer s.slot t.slot (s.waits i) r := by
  have goes := h.goes
  obtain ⟨hwaits, hbounded, hdone⟩ := counted run i _ _ h.before p rfl
  rw [hwaits]
  cases stands run i _ _ h.before with
  | entry =>
    have hsilent := silent_at_entry run i _ _ h.before rfl
    rw [← mem_deeds, hsilent] at accepted
    cases accepted
  | awaitsEnd =>
    generalize s.slot = a, t.slot = b at goes
    cases goes with
    | failed failed => exact finalAnswer_failed failed
  | awaitsApplied =>
    have done := hdone _ rfl
    generalize s.slot = a, t.slot = b at goes done
    cases goes with
    | finished applied => exact finalAnswer_applied done applied hbounded
    | timedOut pending late => exact finalAnswer_late done pending (Nat.le_antisymm hbounded late)

/-- An abort returns only with the recorded end, and from its first section on the slot is closed: a
push returns that it was aborted, a pull that there are no more chunks, and none waits any more. A
push is turned away just for an abort or a recorded failure, and then leaves the slot alone. A push
of the last chunk returns only after the end, with what that says: success if the image was applied
by its last look at the slot, too late after a hundred waits, or the engine's failure. No call is
held up once it can tell what to return. -/
theorem blocking_calls_return_right (run : Run .fresh s) :
    (∀ (i : Nat) (r : Reply), s.threads[i]? = some ⟨.abort, .returned r⟩ →
      ∃ status, r = .aborted status ∧ s.slot.endStatus = some status) ∧
      (.aborted ∈ s.events → ∀ t, Run s t → Closed t.slot ∧
        ∀ (i : Nat) (call : Call) (st : Status) (r : Reply), t.threads[i]? = some ⟨call, st⟩ →
          s.Untouched i → call.closed? = some r → st = .running call.entry ∨ st = .returned r) ∧
      (∀ t i chunk last r, Returns s t i (.push chunk last) (.push chunk last) r →
        FirstAnswer s.slot t.slot chunk last r) ∧
      (∀ t i chunk p waiting r, Returns s t i (.push chunk true) p r →
        (i, .pushed chunk true waiting) ∈ s.history →
          FinalAnswer s.slot t.slot (s.waits i) r) ∧
      (s.Each fun i _ _ => s.waits i ≤ finalizeAttempts) ∧
      (∀ (i : Nat) (call : Call) (p : Point), s.threads[i]? = some ⟨call, .running p⟩ →
        p.move s.slot = .wait → p.Held s.slot ∧ s.waits i = p.waits) := by
  refine ⟨fun i r hi => ?_, fun hevent t later => ?_, fun t i chunk last r h => h.firstAnswer,
    fun t i chunk p waiting r h => h.finalAnswer run, waits_le run,
    fun i call p hi hwait => ⟨held_of_wait hwait, (counted run i _ _ hi p rfl).counted⟩⟩
  · cases stands run i _ _ hi with
    | aborted => exact ⟨_, rfl, end_of_aborted run i _ _ hi _ rfl⟩
  · have aborted : s.slot.aborted := (explained run).aborted.mpr hevent
    have still := later.grows.aborted aborted
    exact ⟨closed_of_aborted still (empty_of_aborted (run.trans later) still),
      fun i call st r hi huntouched => closed_answer aborted later i call st hi huntouched r⟩

/-- The engine takes the last chunk, succeeds, and marks the image as applied while the push waits
for that; then an abort comes. -/
def lateMark : List Choice :=
  [.start (.push [7] true), .go 0, .start .pull, .go 1, .start (.complete .success), .go 2,
    .answer 2 (.ok ()), .go 2, .go 0, .go 0, .go 2, .start .abort, .go 3]

def beforeAnswer : System := (System.fresh.replay? lateMark).getD .fresh

/-- The push looks at the slot once more. -/
def afterAnswer : System := (beforeAnswer.next? (.go 0)).getD .fresh

theorem late_mark_is_accepted :
    beforeAnswer.waits 0 = 1 ∧ beforeAnswer.slot.succeeded ∧
      afterAnswer.slot = beforeAnswer.slot ∧ Closed afterAnswer.slot := by
  have run : Run .fresh beforeAnswer :=
    run_of_replay (rfl : System.fresh.replay? lateMark = some beforeAnswer)
  have step : Step beforeAnswer afterAnswer :=
    step_of_next (rfl : beforeAnswer.next? (.go 0) = some afterAnswer)
  obtain ⟨-, hclosed, -, hfinal, -⟩ := blocking_calls_return_right run
  have returns : Returns beforeAnswer afterAnswer 0 (.push [7] true) (.awaitApplied 1)
      (.pushed (.ok ())) := ⟨step, rfl, rfl⟩
  have hhistory : beforeAnswer.history = [(3, .aborted), (0, .waited), (2, .signaled .success true),
    (2, .performed (.ok ())), (2, .reporting .success), (1, .pulled [7]),
    (0, .pushed [7] true false)] := rfl
  have haccepted : (0, .pushed [7] true false) ∈ beforeAnswer.history := by simp [hhistory]
  have answer := hfinal _ 0 [7] _ _ _ returns haccepted
  obtain ⟨hdone, happlied⟩ := answer.ok_iff.mp rfl
  have habort : .aborted ∈ beforeAnswer.events := by simp [System.events, hhistory]
  exact ⟨rfl, by simp [Slot.succeeded, hdone, happlied], answer.same,
    (hclosed habort _ (.single step)).1⟩

end DeviceUpdate.Stream
