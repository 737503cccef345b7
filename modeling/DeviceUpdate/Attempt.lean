import DeviceUpdate.Command
import DeviceUpdate.Text.Utf8

/-!
# Attempts at commands

A command is started as a process of its own, and looked at now and then until it has ended or its
time is up.
-/

namespace DeviceUpdate

/-- What came of an attempt to run a command. -/
inductive Attempt where
  | notStarted (reason : FileError)
  /-- it still ran when its time was up -/
  | givenUp
  /-- `status` is none if a signal ended it -/
  | ended (status : Option Int) (stdout : Bytes)
  deriving DecidableEq, Repr

namespace Attempt

/-- Nanoseconds between two looks at a running command. -/
def lookInterval : Nat := 10000000

/-- The last look at a command, in nanoseconds from its start: the first one that its timeout has
run out at. -/
def lastLook (timeout : Duration) : Nat :=
  (timeout.nanoseconds + (lookInterval - 1)) / lookInterval * lookInterval

/-- A text with a NUL character cannot be handed to a program. -/
def nulFault : FileError := .other "nul byte found in provided data"

/-- Whether a command can be handed over at all. -/
def isSendable (c : Command) : Bool :=
  (c.program :: c.arguments).all fun s => !s.toList.contains '\x00'

/-- The answer of a command. Bytes that are no text are replaced; a command that ended has
answered, whatever its status. -/
def answer (c : Command) : Attempt → Answer
  | .notStarted reason => .error (.command c.line ("unable to start: " ++ reason.message))
  | .givenUp =>
    let limit := (c.timeout.map Duration.text).getD ""
    .error (.timeout ("'" ++ c.line ++ "' exceeded " ++ limit))
  | .ended status stdout => .ok ⟨status, Text.decodeUtf8Lossy stdout⟩

theorem le_lastLook (timeout : Duration) : timeout.nanoseconds ≤ lastLook timeout := by
  unfold lastLook lookInterval
  omega

end Attempt

end DeviceUpdate
