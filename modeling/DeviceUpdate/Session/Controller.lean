import DeviceUpdate.Assembly
import DeviceUpdate.Partition
import DeviceUpdate.Install
import DeviceUpdate.Stream.Slot

/-!
# The state of a controller

One update runs at a time. Each accepted request gets a generation of its own, so that a late
thread can tell whether the update it worked for is still the current one.
-/

namespace DeviceUpdate

inductive SessionState where
  | idle
  /-- a download was accepted, no data yet -/
  | requested
  | receiving
  /-- the last chunk came; the package is assembled, or the engine finishes -/
  | finalizing
  | installing
  /-- the data is dealt with, a reset may follow -/
  | completed
  | resetDecision
  | rebooting
  /-- given up; what is left is being released -/
  | cancelled
  deriving DecidableEq, Repr

/-- How an image reaches the device. -/
inductive DeliveryMode where
  /-- written to a file, installed afterwards -/
  | staged
  /-- installed while it arrives -/
  | streaming
  deriving DecidableEq, Repr

/-- How the data of an update was dealt with. -/
structure UpdateOutcome where
  target : Target
  mode : DeliveryMode
  success : Bool
  deriving DecidableEq, Repr

/-- Where the data of an update goes. -/
inductive Delivery where
  | staged (path : String) (file : Option Handle)
  | streaming (stream : Nat)
  deriving DecidableEq, Repr

structure ActiveUpdate where
  target : Target
  /-- bytes accepted so far -/
  received : Nat
  delivery : Delivery
  deriving DecidableEq, Repr

structure Controller where
  state : SessionState := .idle
  generation : Nat := 0
  active : Option ActiveUpdate := none
  outcome : Option UpdateOutcome := none
  deriving DecidableEq, Repr

namespace Controller

/-- Whether the update of this generation is current and not given up. -/
def owns (c : Controller) (generation : Nat) : Bool :=
  c.generation == generation && c.state != .cancelled

/-- Returns to the idle state without an active update. -/
def release (c : Controller) : Controller := { c with state := .idle, active := none }

/-- Releases the update of this generation if it is current. -/
def releaseIfCurrent (c : Controller) (generation : Nat) : Controller :=
  if c.generation = generation then c.release else c

/-- Whether a new request can be accepted. -/
def accepts (c : Controller) : Bool := c.state == .idle || c.state == .completed

/-- Accepts a request under a new generation. -/
def startUpdate (c : Controller) : Controller :=
  { state := .requested, generation := c.generation + 1, active := none, outcome := none }

/-- Records how an update ended, and whether that was possible: the update of another generation
changes nothing, and that of an update given up is dropped. -/
def conclude (c : Controller) (generation : Nat) (outcome : UpdateOutcome) : Bool × Controller :=
  if c.generation != generation then (false, c)
  else if c.state = .cancelled then (false, { c.release with outcome := none })
  else (true, { c with active := none, outcome := some outcome, state := .completed })

end Controller

/-- Whether a download may be stored under this name. -/
def acceptableFileName (name : String) : Bool :=
  !name.isEmpty && Path.isPlain name.toList

/-- What a controller is built from. -/
structure Setup where
  config : Config
  /-- there is a streaming engine -/
  engine : Bool
  recovery : Option RecoveryWriter
  /-- the library that reads fragments -/
  [archives : Archive.Reader]

/-- Assembles the package that a manifest file describes into the download directory. -/
def Setup.assemble (setup : Setup) (files : FileSystem) (manifest : String) :
    Except UpdateError String × FileSystem :=
  @Assembly.assembleFromManifest setup.archives files manifest setup.config.downloadDirectory

/-- What all calls on a controller share. -/
structure World where
  controller : Controller
  shared : Shared
  streams : Array Slot

def World.files (w : World) : FileSystem := w.shared.files

def World.setFiles (w : World) (files : FileSystem) : World :=
  { w with shared := { w.shared with files } }

def World.slot (w : World) (stream : Nat) : Slot := w.streams[stream]?.getD {}

def World.setSlot (w : World) (stream : Nat) (slot : Slot) : World :=
  { w with streams := w.streams.setIfInBounds stream slot }

/-- Checks the configuration and builds the parts of a controller. Without a given layout the boot
layout is asked for when it is needed. -/
def Setup.build (setup : Setup) (files : FileSystem) (layout : Option BootLayout) :
    Except UpdateError World := do
  setup.config.validate files
  let classifier := match layout with
    | some layout => Classifier.fixed layout
    | none => { timeout := setup.config.commandTimeout }
  return { controller := {}, shared := ⟨files, classifier⟩, streams := #[] }

end DeviceUpdate
