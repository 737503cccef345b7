import DeviceUpdate.Error
import DeviceUpdate.Text.Utf8

/-!
# The slot between connector and engine

A streamed image passes chunk by chunk through one slot: the connector puts a chunk in, the engine
takes it out. A second chunk before that replaces the first. The engine reports once how it ended,
and marks the image as applied.
-/

namespace DeviceUpdate

/-- How the engine ended. -/
inductive EndStatus where
  | success
  | failure
  deriving DecidableEq, Repr

structure Slot where
  buffer : Bytes := []
  /-- a chunk waits in the buffer -/
  ready : Bool := false
  /-- size of the chunk that was taken last -/
  lastChunkSize : Nat := 0
  /-- the chunk that was put in last is the final one -/
  finalPushed : Bool := false
  /-- the final chunk was taken -/
  finalDrained : Bool := false
  aborted : Bool := false
  /-- the engine's own report is under way -/
  completing : Bool := false
  endStatus : Option EndStatus := none
  applied : Bool := false
  deriving DecidableEq, Repr

namespace Slot

def signaled (s : Slot) : Bool := s.endStatus.isSome

/-- The engine reported success and the image is applied. -/
def succeeded (s : Slot) : Bool := s.endStatus == some .success && s.applied

/-- Puts a chunk in. -/
def offer (s : Slot) (chunk : Bytes) (last : Bool) : Except UpdateError Slot :=
  if s.aborted then .error (.cancelled "streaming session aborted")
  else if s.endStatus = some .failure then
    .error (.streamingFailed "engine already reported a failure")
  else .ok { s with buffer := chunk, ready := true, finalPushed := last }

/-- What taking a chunk comes to. -/
inductive Taken where
  /-- there will be no more chunks -/
  | ended
  | chunk (bytes : Bytes) (rest : Slot)
  /-- there is no chunk yet -/
  | notYet
  deriving DecidableEq, Repr

def take (s : Slot) : Taken :=
  if s.aborted || s.finalDrained then .ended
  else if s.ready then
    .chunk s.buffer { s with
      buffer := []
      ready := false
      lastChunkSize := s.buffer.length
      finalDrained := s.finalPushed }
  else .notYet

/-- Lets the engine's own report begin, unless one has begun or ended before. -/
def beginReport (s : Slot) : Option Slot :=
  if s.completing || s.signaled then none else some { s with completing := true }

/-- Records how the engine ended, unless that is known already. -/
def signal (s : Slot) (status : EndStatus) : Option Slot :=
  if s.signaled then none else some { s with endStatus := some status }

def markApplied (s : Slot) : Slot := { s with applied := true }

/-- Drops what waits and lets nothing in or out from now on. -/
def raiseAbort (s : Slot) : Slot := { s with aborted := true, ready := false, buffer := [] }

end Slot

end DeviceUpdate
