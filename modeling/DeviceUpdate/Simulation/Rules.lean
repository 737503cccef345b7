import DeviceUpdate.Procedure

/-!
# Scripted tools

A device whose tools answer by rules, for trying procedures out. Of the rules whose text starts a
command line, the first that is not used up answers. A command without a rule succeeds and prints
nothing.
-/

namespace DeviceUpdate.Simulation

inductive ToolReply where
  | fail (reason : String)
  | timeout (reason : String)
  | output (value : CommandOutput)
  deriving DecidableEq, Repr

/-- How commands that start in some way are answered. `η` is what happens meanwhile. -/
structure Rule (η : Type) where
  start : String
  /-- how often the rule can still be used; without it, always -/
  times : Option Nat
  reply : ToolReply
  hook : List η

def ToolReply.answer (line : String) : ToolReply → Answer
  | .fail reason => .error (.command line reason)
  | .timeout reason => .error (.timeout reason)
  | .output value => .ok value

def Rule.matches {η : Type} (r : Rule η) (line : String) : Bool :=
  r.times != some 0 && r.start.toList.isPrefixOf line.toList

def Rule.use {η : Type} (r : Rule η) : Rule η := { r with times := r.times.map (· - 1) }

/-- The rule that answers a command line, and the rules after its use. -/
def select {η : Type} (line : String) : List (Rule η) → Option (Rule η) × List (Rule η)
  | [] => (none, [])
  | r :: rest =>
    if r.matches line then (some r, r.use :: rest)
    else
      let (found, rest) := select line rest
      (found, r :: rest)

/-- Something that the device was asked to do. -/
inductive DeviceEvent where
  | ran (timeout : Option Duration) (line : String)
  | wroteRecovery (package : String)
  | clearedRecovery
  | postUpdated
  | engineStarted (request : StreamRequest)
  | restarted (plan : RebootPlan)
  deriving DecidableEq, Repr

/-- How a recovery writer of its own fails, if it does. -/
structure RecoveryFaults where
  onWrite : Option String := none
  onClear : Option String := none
  deriving DecidableEq, Repr

/-- The answer of something that may fail with a reason. -/
def answerOf (fault : Option String) : Answer :=
  match fault with
  | some reason => .error (.invalidState reason)
  | none => .ok (.ok "")

/-- A device with scripted tools, and what it was asked to do so far, last first. -/
structure ToolBench where
  rules : List (Rule Unit)
  faults : RecoveryFaults := {}
  events : List DeviceEvent := []

namespace ToolBench

def record (b : ToolBench) (e : DeviceEvent) : ToolBench := { b with events := e :: b.events }

/-- Answers an effect. -/
def answer (e : Effect) : ToolBench × FileSystem → Answer × ToolBench × FileSystem
  | (b, fs) =>
    match e with
    | .run command =>
      let (rule, rules) := select command.line b.rules
      let reply := (rule.map fun r => r.reply.answer command.line).getD (.ok (.ok ""))
      (reply, { b with rules }.record (.ran command.timeout command.line), fs)
    | .writeRecovery package => (answerOf b.faults.onWrite, b.record (.wroteRecovery package), fs)
    | .clearRecovery => (answerOf b.faults.onClear, b.record .clearedRecovery, fs)
    | .startEngine _ request => (.ok (.ok ""), b.record (.engineStarted request), fs)
    | .postUpdate => (.ok (.ok ""), b.record .postUpdated, fs)
    | .restart plan => (.ok (.ok ""), b.record (.restarted plan), fs)

/-- Runs a procedure: its value, what the device was asked to do meanwhile, and what comes after. -/
def run {α : Type} (b : ToolBench) (shared : Shared) (p : Procedure α) :
    α × List DeviceEvent × ToolBench × Shared :=
  let (value, b, shared) := p.eval answer (b, shared)
  (value, b.events.reverse, { b with events := [] }, shared)

end ToolBench

end DeviceUpdate.Simulation
