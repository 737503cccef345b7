import DeviceUpdate.Boot
import DeviceUpdate.FileSystem.Operations

/-!
# Procedures

A procedure is a run of requests to the device: commands, file operations, and questions for the
boot layout, each of which may depend on the answers before. A procedure fixes no meaning for its
requests, so the same procedure can be run alone, or step by step between the steps of others.
-/

namespace DeviceUpdate

/-- The flash technology that holds the system partitions. -/
inductive StorageMedia where
  /-- raw flash -/
  | mtd
  /-- managed flash -/
  | mmc
  deriving DecidableEq, Repr

/-- The partition set that the streaming engine writes. -/
inductive RunningMode where
  | primary
  | secondary
  deriving DecidableEq, Repr

/-- What the streaming engine is asked to write. -/
structure StreamRequest where
  storageMedia : StorageMedia
  runningMode : RunningMode
  deriving DecidableEq, Repr

/-- How the device restarts. -/
inductive RebootPlan where
  /-- a plain restart -/
  | direct
  /-- a restart into the recovery system -/
  | recovery
  deriving DecidableEq, Repr

/-- Something that the device, or a part outside the core, is asked to do. -/
inductive Effect where
  | run (command : Command)
  /-- a recovery writer of its own kind notes the package down -/
  | writeRecovery (package : String)
  | clearRecovery
  /-- the engine starts to pull from the stream with this number -/
  | startEngine (stream : Nat) (request : StreamRequest)
  /-- the action after a successful streamed install -/
  | postUpdate
  | restart (plan : RebootPlan)
  deriving DecidableEq, Repr

inductive Procedure (α : Type) where
  | done (value : α)
  | perform (effect : Effect) (next : Answer → Procedure α)
  /-- changes the files at once; what comes next depends on the files before the change -/
  | files (change : FileSystem → FileSystem) (next : FileSystem → Procedure α)
  /-- asks for the boot layout -/
  | classify (next : BootLayout → Procedure α)
  /-- ends a question for the boot layout with this answer -/
  | settle (layout : BootLayout) (next : Procedure α)

namespace Procedure

def bind {α β : Type} : Procedure α → (α → Procedure β) → Procedure β
  | .done a, f => f a
  | .perform e next, f => .perform e fun answer => (next answer).bind f
  | .files change next, f => .files change fun fs => (next fs).bind f
  | .classify next, f => .classify fun layout => (next layout).bind f
  | .settle layout next, f => .settle layout (next.bind f)

instance : Monad Procedure where
  pure := .done
  bind := .bind

theorem bind_done {α β : Type} (a : α) (f : α → Procedure β) : bind (.done a) f = f a := rfl

theorem bind_assoc {α β γ : Type} (p : Procedure α) (f : α → Procedure β)
    (g : β → Procedure γ) : bind (bind p f) g = bind p fun a => bind (f a) g := by
  induction p with
  | done a => rfl
  | perform e next ih => simp [bind, ih]
  | files change next ih => simp [bind, ih]
  | classify next ih => simp [bind, ih]
  | settle layout next ih => simp [bind, ih]

/-- Asks the device for something. -/
def ask (e : Effect) : Procedure Answer := .perform e .done

def run (c : Command) : Procedure Answer := ask (.run c)

/-- Runs a command that must exit with status 0. -/
def runExpecting (c : Command) : Procedure (Except UpdateError CommandOutput) := do
  let answer ← run c
  return c.expectSuccess answer

/-- What a look at the files tells. -/
def look {α : Type} (f : FileSystem → α) : Procedure α := .files id fun fs => .done (f fs)

/-- A file operation with an answer. -/
def operate {α : Type} (f : FileSystem → α × FileSystem) : Procedure α :=
  .files (fun fs => (f fs).2) fun fs => .done (f fs).1

/-- The boot layout. -/
def bootLayout : Procedure BootLayout := .classify .done

/-- Whether there are two system partitions. -/
def isDual : Procedure Bool := do return (← bootLayout) == .dual

/-- Goes on with `f` unless there is an error. -/
def andThen {α β : Type} (p : Procedure (Except UpdateError α))
    (f : α → Procedure (Except UpdateError β)) : Procedure (Except UpdateError β) :=
  p.bind fun
    | .ok a => f a
    | .error e => .done (.error e)

end Procedure

/-- What procedures share: the files and the classifier. -/
structure Shared where
  files : FileSystem
  classifier : Classifier

/-- What the next step of a procedure is. -/
inductive Procedure.Move (α : Type) where
  | done (value : α)
  | step (shared : Shared) (rest : Procedure α)
  /-- somebody else is asking for the boot layout -/
  | wait
  /-- the device has to answer first -/
  | effect (e : Effect)

/-- The next step of a procedure. A question for the boot layout is answered by what is known, or
else becomes a query that keeps other questions waiting until it is settled. -/
def Procedure.move {α : Type} (shared : Shared) : Procedure α → Procedure.Move α
  | .done a => .done a
  | .perform e _ => .effect e
  | .files change next =>
    .step { shared with files := change shared.files } (next shared.files)
  | .classify next =>
    if shared.classifier.busy then .wait
    else
      match shared.classifier.known with
      | some layout => .step shared (next layout)
      | none =>
        .step { shared with classifier := { shared.classifier with busy := true } }
          (.perform (.run (BootLayout.query shared.classifier.timeout)) fun answer =>
            let layout := BootLayout.ofAnswer answer
            .settle layout (next layout))
  | .settle layout next =>
    .step { shared with classifier := shared.classifier.settle layout } next

/-- Takes an answer to the request that the procedure waits for. -/
def Procedure.resume {α : Type} (answer : Answer) : Procedure α → Procedure α
  | .perform _ next => next answer
  | p => p

/-- Runs a procedure alone. `device` answers each effect, from its own state and the files, which
it may change; nobody else asks for the boot layout meanwhile. -/
def Procedure.eval {σ α : Type} (device : Effect → σ × FileSystem → Answer × σ × FileSystem) :
    Procedure α → σ × Shared → α × σ × Shared
  | .done a, s => (a, s)
  | .perform e next, (s, shared) =>
    let (answer, s, after) := device e (s, shared.files)
    (next answer).eval device (s, { shared with files := after })
  | .files change next, (s, shared) =>
    (next shared.files).eval device (s, { shared with files := change shared.files })
  | .classify next, (s, shared) =>
    match shared.classifier.known with
    | some layout => (next layout).eval device (s, shared)
    | none =>
      let query := BootLayout.query shared.classifier.timeout
      let (answer, s, after) := device (.run query) (s, shared.files)
      let layout := BootLayout.ofAnswer answer
      (next layout).eval device (s, ⟨after, shared.classifier.settle layout⟩)
  | .settle layout next, (s, shared) =>
    next.eval device (s, { shared with classifier := shared.classifier.settle layout })

end DeviceUpdate
