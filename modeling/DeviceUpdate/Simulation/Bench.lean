import DeviceUpdate.FileSystem.Listing
import DeviceUpdate.Session.Call
import DeviceUpdate.Simulation.Rules

/-!
# A bench for controllers

A controller with scripted tools, an engine and a script of steps. Calls run one at a time up to
where they wait; a call that cannot go on is parked, and goes on once another call, the engine or
the time that passes lets it. Commands may run steps of their own before they answer.
-/

namespace DeviceUpdate.Simulation

/-- A call under way: on the controller, or on one of its streams. -/
inductive Activity where
  | session (point : Session.Point)
  | stream (number : Nat) (point : Stream.Point)

inductive Reply where
  | session (r : Session.Reply)
  | stream (r : Stream.Reply)

/-- What a step of a script does. -/
inductive Action where
  | call (c : Session.Call)
  | outcome
  | targets
  | state
  | plant (path : String) (what : Planted)
  | remove (path : String)
  | makePipe (path : String)
  | feed (path : String) (bytes : Bytes)
  | list
  /-- a call on the stream of the engine's latest start -/
  | stream (point : Stream.Point)
  | progress
  | flags
  /-- asks for the reply of a call that was parked -/
  | join

structure Step where
  action : Action
  /-- the name of the thread, for a call that may wait -/
  thread : Option String

inductive StepAnswer where
  | reply (r : Reply)
  | blocked
  | notBlocked
  | noEngine
  | outcome (o : Option UpdateOutcome)
  | targets (ds : Option (List TargetDescriptor))
  | nothing
  | done
  | made
  | listing (entries : List Listed)
  | flags (slot : Slot)

/-- What a step came to, and how controller and stream then stand. -/
structure Report where
  answer : StepAnswer
  state : SessionState
  slot : Slot

inductive Event where
  | device (e : DeviceEvent)
  /-- a step that a command ran -/
  | hook (r : Report)

/-- How the engine behaves. -/
structure EnginePlan where
  startFault : Option String := none
  /-- steps that run before the start returns -/
  startHook : List Step := []
  /-- the engine pulls and reports by itself -/
  auto : Bool := true
  /-- how it ends, start by start; the last entry stands for all later starts -/
  ends : List EndStatus := []
  /-- the engine fails after this many chunks -/
  stopAfter : Option Nat := none

/-- A start of the engine, and what it received since. -/
structure EngineRun where
  request : StreamRequest
  stream : Nat
  /-- pieces received, last first -/
  received : List Bytes := []
  chunks : Nat := 0
  /-- where its own thread stands, if it has one that has not ended -/
  worker : Option Stream.Point := none

inductive ParkedState where
  | running (a : Activity)
  | busy
  | finished (r : Reply)

structure Parked where
  id : Nat
  label : String
  state : ParkedState

structure Bench where
  setup : Setup
  world : World
  rules : List (Rule Step) := []
  faults : RecoveryFaults := {}
  postUpdateFault : Option String := none
  /-- whether the action after an install leaves a trace -/
  postUpdateSeen : Bool := false
  engine : EnginePlan := {}
  engines : Array EngineRun := #[]
  parked : List Parked := []
  nextId : Nat := 0
  /-- what happened since it was last asked for, last first -/
  events : List Event := []

namespace Bench

def record (b : Bench) (e : Event) : Bench := { b with events := e :: b.events }

def latestStream? (b : Bench) : Option Nat := b.engines.back?.map (·.stream)

def latestSlot (b : Bench) : Slot :=
  match b.latestStream? with
  | some i => b.world.slot i
  | none => {}

def setParked (b : Bench) (id : Nat) (state : ParkedState) : Bench :=
  { b with parked := b.parked.map fun p => if p.id == id then { p with state } else p }

/-- The parked call with this number, if nobody is driving it and it has no reply yet. -/
def running? (b : Bench) (id : Nat) : Option Activity :=
  b.parked.findSome? fun p =>
    if p.id != id then none
    else
      match p.state with
      | .running a => some a
      | _ => none

/-- Milliseconds after which a call counts as blocked. -/
def patience : Nat := 150

/-- Milliseconds that pass after each step while calls are parked. -/
def settlingTime : Nat := 40

def hasRunning (b : Bench) : Bool :=
  b.parked.any fun p => match p.state with
    | .running _ => true
    | _ => false

/-- Says what the thread of an engine start does next. -/
def setWorker (b : Bench) (index : Nat) (worker : Option Stream.Point) : Bench :=
  { b with engines := b.engines.modify index fun run => { run with worker } }

/-- What the thread of an engine start does after a reply of its stream. -/
def engineNext (b : Bench) (index : Nat) (run : EngineRun) : Stream.Reply → Option Stream.Point
  | .pulled none =>
    if (b.world.slot run.stream).aborted then some (.complete .failure)
    else some (.complete ((b.engine.ends[index]? <|> b.engine.ends.getLast?).getD .success))
  | .pulled (some _) =>
    if b.engine.stopAfter = some (run.chunks + 1) then some (.complete .failure) else some .pull
  | _ => none

/-- Notes down what was pulled from a stream. -/
def notePulled (b : Bench) (stream : Nat) : Stream.Reply → Bench
  | .pulled (some chunk) =>
    { b with engines := b.engines.map fun run =>
        if run.stream == stream then
          { run with received := chunk :: run.received, chunks := run.chunks + 1 }
        else run }
  | _ => b

def wakeAll (b : Bench) : Bench :=
  { b with parked := b.parked.map fun p => match p.state with
      | .running (.session point) => { p with state := .running (.session point.wake) }
      | .running (.stream n point) => { p with state := .running (.stream n point.wake) }
      | _ => p }

def Activity.wake : Activity → Activity
  | .session point => .session point.wake
  | .stream n point => .stream n point.wake

def report (b : Bench) (answer : StepAnswer) : Report :=
  ⟨answer, b.world.controller.state, b.latestSlot⟩

/-- What driving an activity came to: its reply, or where it waits and whether it moved at all. -/
inductive Driven where
  | replied (r : Reply)
  | waiting (a : Activity) (moved : Bool)

mutual

/-- Answers an effect. -/
def perform (fuel : Nat) (b : Bench) (e : Effect) : Answer × Bench :=
  match fuel with
  | 0 => (.ok (.ok ""), b)
  | fuel + 1 =>
    match e with
    | .run command =>
      let line := command.line
      let (rule, rules) := select line b.rules
      let b := { b with rules }.record (.device (.ran command.timeout line))
      match rule with
      | none => (.ok (.ok ""), b)
      | some r => (r.reply.answer line, runHooks fuel b r.hook)
    | .writeRecovery package =>
      (answerOf b.faults.onWrite, b.record (.device (.wroteRecovery package)))
    | .clearRecovery => (answerOf b.faults.onClear, b.record (.device .clearedRecovery))
    | .startEngine stream request =>
      let b := b.record (.device (.engineStarted request))
      match b.engine.startFault with
      | some reason => (.error (.streamingFailed reason), b)
      | none =>
        let failsAtOnce := b.engine.auto && b.engine.stopAfter == some 0
        let worker := if b.engine.auto && !failsAtOnce then some Stream.Point.pull else none
        let b := { b with engines := b.engines.push { request, stream, worker } }
        let b := if failsAtOnce then
            (finish fuel b (.stream stream (.complete .failure))).2
          else b
        (.ok (.ok ""), runHooks fuel b b.engine.startHook)
    | .postUpdate =>
      let b := if b.postUpdateSeen then b.record (.device .postUpdated) else b
      (answerOf b.postUpdateFault, b)
    | .restart plan => (.ok (.ok ""), b.record (.device (.restarted plan)))
  termination_by structural fuel

/-- Runs an activity up to its reply or to where it waits. -/
def drive (fuel : Nat) (b : Bench) (a : Activity) (moved : Bool) : Driven × Bench :=
  match fuel with
  | 0 => (.waiting a moved, b)
  | fuel + 1 =>
    match a with
    | .session point =>
      match point.move b.setup b.world with
      | .reply world r => (.replied (.session r), { b with world })
      | .step world point => drive fuel { b with world } (.session point) true
      | .wait => (.waiting a moved, b)
      | .effect e =>
        let (answer, b) := perform fuel b e
        drive fuel b (.session (point.resume answer)) true
    | .stream n point =>
      match point.move (b.world.slot n) with
      | .reply slot r =>
        (.replied (.stream r), { b with world := b.world.setSlot n slot }.notePulled n r)
      | .step slot point =>
        drive fuel { b with world := b.world.setSlot n slot } (.stream n point) true
      | .wait => (.waiting a moved, b)
      | .postUpdate =>
        let (answer, b) := perform fuel b .postUpdate
        drive fuel b (.stream n (point.resume (answer.map fun _ => ()))) true
  termination_by structural fuel

/-- Lets the thread of an engine start go on, and tells whether it could. -/
def driveEngine (fuel : Nat) (b : Bench) (index : Nat) : Bool × Bench :=
  match fuel with
  | 0 => (false, b)
  | fuel + 1 =>
    match b.engines[index]? with
    | none => (false, b)
    | some run =>
      match run.worker with
      | none => (false, b)
      | some point =>
        match drive fuel (b.setWorker index none) (.stream run.stream point) false with
        | (.replied (.stream r), b) => (true, b.setWorker index (b.engineNext index run r))
        | (.waiting (.stream _ point) moved, b) => (moved, b.setWorker index (some point))
        | (_, b) => (false, b)
  termination_by structural fuel

/-- Lets the threads of the engine starts below `count` go on. -/
def driveEngines (fuel : Nat) (b : Bench) (count : Nat) : Bool × Bench :=
  match fuel with
  | 0 => (false, b)
  | fuel + 1 =>
    match count with
    | 0 => (false, b)
    | index + 1 =>
      let (first, b) := driveEngines fuel b index
      let (second, b) := driveEngine fuel b index
      (first || second, b)
  termination_by structural fuel

/-- Lets parked calls go on. -/
def driveParked (fuel : Nat) (b : Bench) (ids : List Nat) : Bool × Bench :=
  match fuel with
  | 0 => (false, b)
  | fuel + 1 =>
    match ids with
    | [] => (false, b)
    | id :: rest =>
      match b.running? id with
      | none => driveParked fuel b rest
      | some a =>
        let (first, b) := match drive fuel (b.setParked id .busy) a false with
          | (.replied r, b) => (true, b.setParked id (.finished r))
          | (.waiting a moved, b) => (moved, b.setParked id (.running a))
        let (second, b) := driveParked fuel b rest
        (first || second, b)
  termination_by structural fuel

/-- Lets everything go on until nothing can; tells whether anything did. -/
def settle (fuel : Nat) (b : Bench) (moved : Bool) : Bool × Bench :=
  match fuel with
  | 0 => (moved, b)
  | fuel + 1 =>
    let (first, b) := driveEngines fuel b b.engines.size
    let (second, b) := driveParked fuel b (b.parked.map (·.id))
    if first || second then settle fuel b true else (moved, b)
  termination_by structural fuel

/-- Lets time pass, in units of the interval at which a final push looks for the image. -/
def elapse (fuel : Nat) (b : Bench) (units : Nat) : Bench :=
  match fuel with
  | 0 => b
  | fuel + 1 =>
    match units with
    | 0 => b
    | units + 1 => elapse fuel (settle fuel b.wakeAll false).2 units
  termination_by structural fuel

/-- Runs an activity to its reply, as far as the others and the time let it; `none` if it is stuck
where it then stands. -/
def finish (fuel : Nat) (b : Bench) (a : Activity) : Driven × Bench :=
  match fuel with
  | 0 => (.waiting a false, b)
  | fuel + 1 =>
    match drive fuel b a false with
    | (.replied r, b) => (.replied r, b)
    | (.waiting a _, b) =>
      let (moved, b) := settle fuel b false
      if moved then finish fuel b a else wait fuel b a (patience / finalizeInterval)
  termination_by structural fuel

/-- Goes on with an activity while time passes. -/
def wait (fuel : Nat) (b : Bench) (a : Activity) (units : Nat) : Driven × Bench :=
  match fuel with
  | 0 => (.waiting a false, b)
  | fuel + 1 =>
    match units with
    | 0 => (.waiting a false, b)
    | units + 1 =>
      match drive fuel b.wakeAll (Activity.wake a) false with
      | (.replied r, b) => (.replied r, b)
      | (.waiting a _, b) => wait fuel (settle fuel b false).2 a units
  termination_by structural fuel

/-- Makes a call; one that is stuck is parked under the name of its thread. -/
def call (fuel : Nat) (b : Bench) (thread : String) (a : Activity) : StepAnswer × Bench :=
  match fuel with
  | 0 => (.blocked, b)
  | fuel + 1 =>
    match finish fuel b a with
    | (.replied r, b) => (.reply r, b)
    | (.waiting a _, b) =>
      (.blocked, { b with
        parked := b.parked ++ [⟨b.nextId, thread, .running a⟩]
        nextId := b.nextId + 1 })
  termination_by structural fuel

/-- Does what a step says. -/
def act (fuel : Nat) (b : Bench) (s : Step) : StepAnswer × Bench :=
  match fuel with
  | 0 => (.nothing, b)
  | fuel + 1 =>
    let thread := s.thread.getD ""
    match s.action with
    | .call c => call fuel b thread (.session (.entry c))
    | .stream point =>
      match b.latestStream? with
      | none => (.noEngine, b)
      | some n => call fuel b thread (.stream n point)
    | .outcome => (.outcome b.world.controller.outcome, b)
    | .targets => (.targets (firmwareTargets b.setup.config.firmwareVersion), b)
    | .state => (.nothing, b)
    | .plant path what =>
      (.done, { b with world := b.world.setFiles (b.world.files.plant path what) })
    | .remove path =>
      (.done, { b with world := b.world.setFiles (b.world.files.removeTree path) })
    | .makePipe path =>
      (.made, { b with world := b.world.setFiles (b.world.files.makePipe path) })
    | .feed path bytes =>
      (.done, { b with world := b.world.setFiles (b.world.files.feed path bytes) })
    | .list => (.listing b.world.files.listing, b)
    | .progress => (.done, b)
    | .flags =>
      (match b.latestStream? with
        | none => .noEngine
        | some n => .flags (b.world.slot n), b)
    | .join =>
      match b.parked.reverse.find? (·.label == thread) with
      | none => (.notBlocked, b)
      | some p =>
        match p.state with
        | .finished r => (.reply r, { b with parked := b.parked.filter (·.id != p.id) })
        | _ => (.blocked, b)
  termination_by structural fuel

/-- Runs one step and lets what it set free go on. -/
def runStep (fuel : Nat) (b : Bench) (s : Step) : Report × Bench :=
  match fuel with
  | 0 => (b.report .nothing, b)
  | fuel + 1 =>
    let (answer, b) := act fuel b s
    let (_, b) := settle fuel b false
    let b := if b.hasRunning then elapse fuel b (settlingTime / finalizeInterval) else b
    (b.report answer, b)
  termination_by structural fuel

/-- Runs the steps of a command. -/
def runHooks (fuel : Nat) (b : Bench) (steps : List Step) : Bench :=
  match fuel with
  | 0 => b
  | fuel + 1 =>
    match steps with
    | [] => b
    | s :: rest =>
      let (report, b) := runStep fuel b s
      runHooks fuel (b.record (.hook report)) rest
  termination_by structural fuel

end

/-- More than any script needs. -/
def ample : Nat := 1000000000

/-- Runs a script: for each step its report and what happened meanwhile. -/
def runScript (b : Bench) : List Step → List (Report × List Event) × Bench
  | [] => ([], b)
  | s :: rest =>
    let (report, b) := b.runStep ample s
    let events := b.events.reverse
    let (reports, b) := runScript { b with events := [] } rest
    ((report, events) :: reports, b)

end Bench

end DeviceUpdate.Simulation
