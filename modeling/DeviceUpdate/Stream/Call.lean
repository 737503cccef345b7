import DeviceUpdate.Stream.Slot

/-!
# Calls on a slot

Several threads use one slot. Each call is a series of steps that hold the slot's lock; between
them other calls go on. A point says where a call stands.
-/

namespace DeviceUpdate

/-- How often a final push looks whether the image is applied, after its first look. -/
def finalizeAttempts : Nat := 100

/-- Milliseconds between two of those looks. -/
def finalizeInterval : Nat := 10

namespace Stream

inductive Point where
  | push (chunk : Bytes) (last : Bool)
  /-- the final chunk is in the slot, the engine has not reported yet -/
  | awaitEnd
  /-- the engine reported success; this many waits for the image are over -/
  | awaitApplied (waits : Nat)
  | pull
  | complete (status : EndStatus)
  /-- the action after a successful install runs -/
  | postUpdate
  /-- the engine's own report is about to be recorded -/
  | report (status : EndStatus)
  /-- the engine's own report was recorded as success -/
  | apply
  | signal (status : EndStatus)
  | markApplied
  | abort
  /-- the slot is aborted, the engine has not reported yet -/
  | awaitAbort
  deriving DecidableEq, Repr

inductive Reply where
  | pushed (result : Except UpdateError Unit)
  | pulled (chunk : Option Bytes)
  | completed
  | signaled (first : Bool)
  | applied
  | aborted (status : EndStatus)

inductive Move where
  | reply (slot : Slot) (r : Reply)
  | step (slot : Slot) (point : Point)
  /-- nothing can be done until another call changes the slot, or time passes -/
  | wait
  /-- the action after a successful install has to answer -/
  | postUpdate

/-- The next step of a call. -/
def Point.move (s : Slot) : Point → Move
  | .push chunk last =>
    match s.offer chunk last with
    | .error e => .reply s (.pushed (.error e))
    | .ok s => if last then .step s .awaitEnd else .reply s (.pushed (.ok ()))
  | .awaitEnd =>
    match s.endStatus with
    | none => .wait
    | some .failure => .reply s (.pushed (.error (.streamingFailed "engine reported a failure")))
    | some .success => .step s (.awaitApplied 0)
  | .awaitApplied waits =>
    if s.applied then .reply s (.pushed (.ok ()))
    else if finalizeAttempts ≤ waits then
      .reply s
        (.pushed (.error (.timeout "streaming engine did not finish applying the image")))
    else .wait
  | .pull =>
    match s.take with
    | .ended => .reply s (.pulled none)
    | .chunk bytes s => .reply s (.pulled (some bytes))
    | .notYet => .wait
  | .complete status =>
    match s.beginReport with
    | none => .reply s .completed
    | some s => .step s (if status = .success then .postUpdate else .report .failure)
  | .postUpdate => .postUpdate
  | .report status =>
    match s.signal status with
    | some s => if status = .success then .step s .apply else .reply s .completed
    | none => .reply s .completed
  | .apply => .reply s.markApplied .completed
  | .signal status =>
    match s.signal status with
    | some s => .reply s (.signaled true)
    | none => .reply s (.signaled false)
  | .markApplied => .reply s.markApplied .applied
  | .abort => .step s.raiseAbort .awaitAbort
  | .awaitAbort =>
    match s.endStatus with
    | none => .wait
    | some status => .reply s (.aborted status)

/-- A wait of a final push for the image ends. -/
def Point.wake : Point → Point
  | .awaitApplied waits => .awaitApplied (waits + 1)
  | p => p

/-- Takes the answer of the action after a successful install. -/
def Point.resume (answer : Except UpdateError Unit) : Point → Point
  | .postUpdate =>
    match answer with
    | .ok _ => .report .success
    | .error _ => .report .failure
  | p => p

end Stream

end DeviceUpdate
