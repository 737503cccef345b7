import DeviceUpdate.Reboot
import DeviceUpdate.Session.Controller
import DeviceUpdate.Stream.Call

/-!
# Calls on a controller

The connector calls a controller from several threads. A call is a series of steps; each either
holds the controller's lock, or has one effect outside it. A point says where a call stands, and
everything that the call knows. Nothing is locked while a command runs, a package is assembled or
the engine is waited for.
-/

namespace DeviceUpdate.Session

inductive Call where
  | request (target : Nat) (file : String) (size : Nat)
  | data (target offset : Nat) (chunk : Bytes) (last : Bool)
  | cancel (target : Nat) (reason : CancelReason)
  | reset (target : Nat) (version : Version)
  | bootLayout

inductive Reply where
  | request (result : Except RequestCode Unit)
  | data (result : Except DataCode Unit)
  | cancelled
  | reset (decision : ResetDecision)
  | bootLayout (layout : BootLayout)

/-- What a data call does if its update was given up before the outcome was recorded. -/
inductive Otherwise where
  /-- nothing is left to undo -/
  | refuse (code : DataCode)
  /-- the recovery system was asked to install this package, which is taken back -/
  | withdraw (package : String)
  deriving DecidableEq, Repr

inductive Point where
  /-- a call that has done nothing yet -/
  | entry (call : Call)
  -- a request that was accepted under a generation
  /-- asks for the boot layout, which decides how the image is delivered -/
  | choosing (generation : Nat) (target : Target) (file : String) (size : Nat)
      (rest : Procedure BootLayout)
  | preparing (generation : Nat) (target : Target)
      (rest : Procedure (Except UpdateError StreamRequest))
  /-- the engine is being started -/
  | starting (generation : Nat) (target : Target) (stream : Nat) (request : StreamRequest)
  | checkingSpace (generation : Nat) (target : Target) (file : String) (size : Nat)
  | creating (generation : Nat) (target : Target) (path : String)
  | setupFailed (generation : Nat) (code : RequestCode)
  /-- the delivery is open, the controller does not know of it yet -/
  | settling (generation : Nat) (target : Target) (delivery : Delivery)
  -- giving an update up
  /-- the delivery of an update that was given up is released, then the controller -/
  | discarding (generation : Nat) (delivery : Delivery) (reply : Reply)
  /-- the engine is stopped and waited for, then the controller is released if `release` names the
  current generation -/
  | stopping (stream : Nat) (rest : Stream.Point) (release : Option Nat) (reply : Reply)
  | releasing (generation : Nat) (reply : Reply)
  -- a chunk that was accepted
  | pushing (generation : Nat) (target : Target) (stream : Nat) (last : Bool)
      (rest : Stream.Point)
  | pushFailed (generation : Nat) (code : DataCode)
  /-- the final push is over; whether the image is applied decides -/
  | judging (generation : Nat) (target : Target) (stream : Nat) (result : Except UpdateError Unit)
  /-- the manifest is complete, its package is assembled -/
  | assembling (generation : Nat) (target : Target) (manifest : String)
  | removingManifest (generation : Nat) (target : Target) (manifest : String)
      (result : Except UpdateError String)
  /-- the package is complete; is the update still wanted? -/
  | checking (generation : Nat) (target : Target) (package : String)
  | dropping (generation : Nat) (target : Target) (package : String)
  | installing (generation : Nat) (target : Target) (package : String)
      (rest : Procedure (Except UpdateError BootLayout))
  | installed (generation : Nat) (target : Target) (package : String)
      (result : Except UpdateError BootLayout)
  /-- the outcome is recorded; `result` is the answer if that is possible -/
  | concluding (generation : Nat) (outcome : UpdateOutcome) (result : Except DataCode Unit)
      (otherwise : Otherwise)
  | withdrawing (package : String) (rest : Procedure (Except UpdateError Unit))
  /-- removes a file, whether that works or not, and answers -/
  | removing (path : String) (reply : Reply)
  -- a reset of a completed update
  | swapping (rest : Procedure (Except UpdateError Unit))
  | planning (rest : Procedure BootLayout)
  | scheduling (plan : RebootPlan)
  | resetting (scheduled : Bool)
  -- a question for the boot layout
  | asking (rest : Procedure BootLayout)

inductive Move where
  | reply (world : World) (r : Reply)
  | step (world : World) (point : Point)
  /-- nothing can be done until another call changes something, or time passes -/
  | wait
  /-- something outside has to answer first -/
  | effect (e : Effect)

/-- Whether an update of this target may stream, the boot layout apart. -/
def mayStream (setup : Setup) (target : Target) : Bool :=
  setup.engine && setup.config.onTheFly && target != .manifest

/-- The outcome of an update that was written to a file. -/
def stagedOutcome (target : Target) (success : Bool) : UpdateOutcome := ⟨target, .staged, success⟩

def codeOf {α : Type} (result : Except UpdateError α) : Except DataCode Unit :=
  match result with
  | .ok _ => .ok ()
  | .error e => .error e.dataCode

def enterRequest (setup : Setup) (w : World) (number : Nat) (file : String) (size : Nat) : Move :=
  match Target.ofNumber? number with
  | none => .reply w (.request (.error .encounteredError))
  | some target =>
    if !acceptableFileName file then .reply w (.request (.error .denied))
    else if !w.controller.accepts then .reply w (.request (.error .notAllowed))
    else
      let controller := w.controller.startUpdate
      let generation := controller.generation
      .step { w with controller }
        (if mayStream setup target then
          .choosing generation target file size Procedure.bootLayout
        else .checkingSpace generation target file size)

/-- Writes an accepted chunk to the file of a staged update. -/
def writeChunk (w : World) (update : ActiveUpdate) (path : String) (file : Option Handle)
    (chunk : Bytes) (last : Bool) : Move :=
  let controller := w.controller
  let failed (w : World) (e : UpdateError) : Move :=
    .step { w with controller := controller.release } (.removing path (.data (.error e.dataCode)))
  match file with
  | none => failed w (.invalidState "firmware file already closed")
  | some handle =>
    match w.files.write handle chunk with
    | .error e => failed (w.setFiles (w.files.spill handle chunk)) (.file path e)
    | .ok (handle, files) =>
      let w := w.setFiles files
      if !last then
        let active := { update with delivery := .staged path (some handle) }
        let controller := { controller with state := .receiving, active := some active }
        .reply { w with controller } (.data (.ok ()))
      else
        match files.sync handle with
        | .error e => failed w (.file path e)
        | .ok _ =>
          let active := { update with delivery := .staged path none }
          let generation := controller.generation
          .step { w with
              controller := { controller with state := .finalizing, active := some active } }
            (match update.target with
              | .manifest => .assembling generation .manifest path
              | .system => .checking generation .system path)

def enterData (w : World) (number offset : Nat) (chunk : Bytes) (last : Bool) : Move :=
  let refused (code : DataCode) : Move := .reply w (.data (.error code))
  match Target.ofNumber? number, w.controller.active with
  | none, _ => refused .invalidData
  | _, none => refused .invalidData
  | some target, some update =>
    let state := w.controller.state
    if (state != .requested && state != .receiving) || update.target != target then
      refused .invalidData
    else if offset != update.received then refused .invalidOffset
    else
      let update := { update with received := update.received + chunk.length }
      match update.delivery with
      | .staged path file => writeChunk w update path file chunk last
      | .streaming stream =>
        let controller := { w.controller with
          state := if last then .finalizing else .receiving
          active := some update }
        .step { w with controller }
          (.pushing controller.generation target stream last (.push chunk last))

def enterCancel (w : World) (number : Nat) : Move :=
  let controller := w.controller
  match controller.state with
  | .requested | .receiving =>
    match controller.active with
    | none =>
      .reply { w with controller := { controller with state := .cancelled } } .cancelled
    | some update =>
      if update.target.number != number then .reply w .cancelled
      else
        .step { w with controller := { controller with state := .cancelled, active := none } }
          (.discarding controller.generation update.delivery .cancelled)
  | .finalizing | .installing =>
    let w := { w with controller := { controller with state := .cancelled } }
    match controller.active with
    | some ⟨_, _, .streaming stream⟩ => .step w (.stopping stream .abort none .cancelled)
    | _ => .reply w .cancelled
  | _ => .reply w .cancelled

def enterReset (setup : Setup) (w : World) (number : Nat) : Move :=
  if w.controller.state != .completed then .reply w (.reset {})
  else
    .step { w with controller := { w.controller with state := .resetDecision, outcome := none } }
      (match w.controller.outcome with
        | none => .resetting false
        | some outcome =>
          if outcome.target.number != number || !outcome.success then .resetting false
          else
            match outcome.mode with
            | .streaming =>
              .swapping (StreamPreparation.ofConfig setup.config).swapActiveSystem
            | .staged => .planning Procedure.bootLayout)

/-- The next step of a procedure within a call: `wrap` says where the call then stands, `finish`
what comes after the procedure. -/
def advance {α : Type} (w : World) (rest : Procedure α) (wrap : Procedure α → Point)
    (finish : α → Point) : Move :=
  match rest.move w.shared with
  | .done a => .step w (finish a)
  | .step shared rest => .step { w with shared } (wrap rest)
  | .wait => .wait
  | .effect e => .effect e

/-- The next step of a call on a stream within a call on the controller. -/
def advanceStream (w : World) (stream : Nat) (rest : Stream.Point) (wrap : Stream.Point → Point)
    (finish : World → Stream.Reply → Move) : Move :=
  match rest.move (w.slot stream) with
  | .reply slot r => finish (w.setSlot stream slot) r
  | .step slot rest => .step (w.setSlot stream slot) (wrap rest)
  | .wait => .wait
  | .postUpdate => .effect .postUpdate

/-- The result of a push, by its reply. -/
def pushResult : Stream.Reply → Except UpdateError Unit
  | .pushed result => result
  | _ => .ok ()

/-- The next step of a call. -/
def Point.move (setup : Setup) (w : World) : Point → Move
  | .entry (.request number file size) => enterRequest setup w number file size
  | .entry (.data number offset chunk last) => enterData w number offset chunk last
  | .entry (.cancel number _) => enterCancel w number
  | .entry (.reset number _) => enterReset setup w number
  | .entry .bootLayout => .step w (.asking Procedure.bootLayout)
  | .choosing generation target file size rest =>
    advance w rest (.choosing generation target file size) fun layout =>
      if layout = .dual then
        .preparing generation target (StreamPreparation.ofConfig setup.config).prepare
      else .checkingSpace generation target file size
  | .preparing generation target rest =>
    match rest with
    | .done (.ok request) =>
      .step { w with streams := w.streams.push {} }
        (.starting generation target w.streams.size request)
    | rest =>
      advance w rest (.preparing generation target) fun
        | .error e => .setupFailed generation e.requestCode
        | .ok request => .preparing generation target (.done (.ok request))
  | .starting _ _ stream request => .effect (.startEngine stream request)
  | .checkingSpace generation target file size =>
    let directory := setup.config.downloadDirectory
    .step w (match Space.ensure w.files directory size with
      | .error e => .setupFailed generation e.requestCode
      | .ok _ => .creating generation target (Path.join directory file))
  | .creating generation target path =>
    match w.files.create path with
    | .error e => .step w (.setupFailed generation (UpdateError.file path e).requestCode)
    | .ok (handle, files) =>
      .step (w.setFiles files) (.settling generation target (.staged path (some handle)))
  | .setupFailed generation code =>
    .reply { w with controller := w.controller.releaseIfCurrent generation }
      (.request (.error code))
  | .settling generation target delivery =>
    if w.controller.owns generation then
      .reply { w with controller := { w.controller with active := some ⟨target, 0, delivery⟩ } }
        (.request (.ok ()))
    else .step w (.discarding generation delivery (.request (.error .encounteredError)))
  | .discarding generation delivery reply =>
    match delivery with
    | .staged path _ =>
      .step (w.setFiles (w.files.removeIfPossible path)) (.releasing generation reply)
    | .streaming stream => .step w (.stopping stream .abort (some generation) reply)
  | .stopping stream rest release reply =>
    advanceStream w stream rest (.stopping stream · release reply) fun w _ =>
      match release with
      | some generation => .step w (.releasing generation reply)
      | none => .reply w reply
  | .releasing generation reply =>
    .reply { w with controller := w.controller.releaseIfCurrent generation } reply
  | .pushing generation target stream last rest =>
    advanceStream w stream rest (.pushing generation target stream last) fun w r =>
      if last then .step w (.judging generation target stream (pushResult r))
      else
        match pushResult r with
        | .ok _ => .reply w (.data (.ok ()))
        | .error e => .step w (.pushFailed generation e.dataCode)
  | .pushFailed generation code =>
    let controller := w.controller
    .reply { w with
        controller := if controller.owns generation then controller.release else controller }
      (.data (.error code))
  | .judging generation target stream result =>
    let success := result.isOk && (w.slot stream).succeeded
    .step w (.concluding generation ⟨target, .streaming, success⟩ (codeOf result)
      (.refuse .invalidData))
  | .assembling generation target manifest =>
    if w.files.awaitsWriter manifest then .wait
    else
      let (result, files) := setup.assemble w.files manifest
      .step (w.setFiles files) (.removingManifest generation target manifest result)
  | .removingManifest generation target manifest result =>
    .step (w.setFiles (w.files.removeIfPossible manifest)) (match result with
      | .ok package => .checking generation target package
      | .error e =>
        .concluding generation (stagedOutcome target false) (.error e.dataCode)
          (.refuse e.dataCode))
  | .checking generation target package =>
    if w.controller.owns generation then
      .step { w with controller := { w.controller with state := .installing } }
        (.installing generation target package (Install.dispatch setup.recovery package))
    else .step w (.dropping generation target package)
  | .dropping generation target package =>
    .step (w.setFiles (w.files.removeIfPossible package))
      (.concluding generation (stagedOutcome target false) (.error .invalidData)
        (.refuse .invalidData))
  | .installing generation target package rest =>
    advance w rest (.installing generation target package) (.installed generation target package)
  | .installed generation target package result =>
    let outcome := stagedOutcome target result.isOk
    match result with
    | .ok .single =>
      .step w (.concluding generation outcome (.ok ()) (.withdraw package))
    | result =>
      .step (w.setFiles (w.files.removeIfPossible package))
        (.concluding generation outcome (codeOf result) (.refuse .invalidData))
  | .concluding generation outcome result otherwise =>
    let (recorded, controller) := w.controller.conclude generation outcome
    let w := { w with controller }
    if recorded then .reply w (.data result)
    else
      match otherwise with
      | .withdraw package => .step w (.withdrawing package (Install.withdraw setup.recovery))
      | .refuse code => .reply w (.data (.error code))
  | .withdrawing package rest =>
    advance w rest (.withdrawing package) fun _ =>
      .removing package (.data (.error .invalidData))
  | .removing path reply => .reply (w.setFiles (w.files.removeIfPossible path)) reply
  | .swapping rest =>
    advance w rest .swapping fun
      | .ok _ => .planning Procedure.bootLayout
      | .error _ => .resetting false
  | .planning rest =>
    advance w rest .planning fun layout =>
      match RebootPlan.ofLayout? layout with
      | some plan => .scheduling plan
      | none => .resetting false
  | .scheduling plan => .effect (.restart plan)
  | .resetting scheduled =>
    .reply { w with
        controller := { w.controller with state := if scheduled then .rebooting else .idle } }
      (.reset { rebootScheduled := scheduled })
  | .asking rest =>
    match rest with
    | .done layout => .reply w (.bootLayout layout)
    | rest => advance w rest .asking fun layout => .asking (.done layout)

/-- Takes the answer to the effect that a call waits for. A worker of its own restarts the device,
so how that goes does not matter here. -/
def Point.resume (answer : Answer) : Point → Point
  | .choosing generation target file size rest =>
    .choosing generation target file size (rest.resume answer)
  | .preparing generation target rest => .preparing generation target (rest.resume answer)
  | .starting generation target stream _ =>
    match answer with
    | .ok _ => .settling generation target (.streaming stream)
    | .error e => .setupFailed generation e.requestCode
  | .installing generation target package rest =>
    .installing generation target package (rest.resume answer)
  | .withdrawing package rest => .withdrawing package (rest.resume answer)
  | .swapping rest => .swapping (rest.resume answer)
  | .planning rest => .planning (rest.resume answer)
  | .scheduling _ => .resetting true
  | .asking rest => .asking (rest.resume answer)
  | p => p

/-- Some time passes for a call that waits. -/
def Point.wake : Point → Point
  | .pushing generation target stream last rest =>
    .pushing generation target stream last rest.wake
  | p => p

end DeviceUpdate.Session
