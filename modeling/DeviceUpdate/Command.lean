import DeviceUpdate.Error
import DeviceUpdate.Text.Blank
import DeviceUpdate.Text.Duration

/-!
# Commands

The tools of the device are run as commands; what counts is their exit status and what they
print.
-/

namespace DeviceUpdate

structure Command where
  program : String
  arguments : List String
  /-- when the command is given up; without it, never -/
  timeout : Option Duration
  deriving DecidableEq, Repr

/-- The program and its arguments with one blank between them. -/
def Command.line (c : Command) : String := String.intercalate " " (c.program :: c.arguments)

/-- What a command leaves when it ends. -/
structure CommandOutput where
  /-- the exit status; none if a signal ended the command -/
  status : Option Int
  stdout : String
  deriving DecidableEq, Repr

namespace CommandOutput

def ok (stdout : String) : CommandOutput := ⟨some 0, stdout⟩

def success (o : CommandOutput) : Bool := o.status == some 0

def lines (o : CommandOutput) : List (List Char) := Text.lines o.stdout.toList

/-- The output without the blanks at its ends. -/
def trimmed (o : CommandOutput) : String := Text.trimString o.stdout

/-- The text of the exit status in messages. -/
def statusText (o : CommandOutput) : String :=
  match o.status with
  | some code => s!"Some({code})"
  | none => "None"

end CommandOutput

/-- What a request to the device answers. -/
abbrev Answer := Except UpdateError CommandOutput

/-- The output of a command that must exit with status 0. -/
def Command.expectSuccess (c : Command) (answer : Answer) : Except UpdateError CommandOutput := do
  let output ← answer
  if output.success then return output
  else throw (.command c.line ("exit status " ++ output.statusText))

end DeviceUpdate
