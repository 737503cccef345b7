import DeviceUpdate.Session.Call
import Mathlib.Logic.Relation
import Mathlib.Tactic.Lemma

/-!
# Calls side by side

Calls on one controller go on side by side. A system holds the calls made so far, where each of
them stands, the state of the device, and a history of what happened to the updates. In each of its
steps one call goes on by one critical section or one effect, the engine touches a stream, or the
device changes by itself.
-/

namespace DeviceUpdate

/-- The slot after a move. -/
def Stream.Move.slot? : Stream.Move → Option Slot
  | .reply slot _ | .step slot _ => some slot
  | _ => none

namespace Session

def Call.sends : Call → Bool
  | .data _ _ _ _ => true
  | _ => false

def Call.isRequest : Call → Bool
  | .request _ _ _ => true
  | _ => false

def Call.isCancel : Call → Bool
  | .cancel _ _ => true
  | _ => false

def Call.isReset : Call → Bool
  | .reset _ _ => true
  | _ => false

/-- Whether the chunk that the call brings is the final one. -/
def Call.last? : Call → Option Bool
  | .data _ _ _ last => some last
  | _ => none

/-- Something that happened to an update, as the call that did it saw it. -/
inductive Event where
  | accepted (generation : Nat) (target : Target) (file : String)
  /-- the delivery is open and the controller knows of it -/
  | opened (generation : Nat) (delivery : Delivery)
  | received (generation : Nat) (chunk : Bytes) (last : Bool)
  /-- a chunk could not be written, which ended the update -/
  | writeFailed (generation : Nat) (path : String)
  | cancelled (generation : Nat)
  /-- the manifest's package was assembled, which left the files like this -/
  | assembled (generation : Nat) (manifest package : String) (files : FileSystem)
  /-- the package went to the install, and read so at that moment -/
  | handed (generation : Nat) (package : String) (content : Except FileError Bytes)
  | installed (generation : Nat) (package : String) (result : Except UpdateError BootLayout)
  | recorded (generation : Nat) (outcome : UpdateOutcome)
  /-- the update turned out cancelled after the recovery system was asked to install it -/
  | withdrawn (generation : Nat) (package : String)
  /-- a reset took the outcome over -/
  | consumed (generation : Nat) (outcome : Option UpdateOutcome)
  | swapped
  | performed (effect : Effect) (answer : Answer)

inductive Status where
  | running (point : Point)
  | returned (reply : Reply)

def Status.isRunning : Status → Bool
  | .running _ => true
  | .returned _ => false

structure Thread where
  call : Call
  status : Status

structure System (σ : Type) where
  world : World
  threads : List Thread
  device : σ
  /-- by thread, last first -/
  history : List (Nat × Event)

/-- What surrounds a controller: which calls its users make, and how the device behaves. -/
structure Surroundings (σ : Type) where
  /-- whether a call may be made while the others stand as they do -/
  starts : List Thread → Call → Prop
  /-- how an effect may be answered, and what it may leave behind -/
  answers : Effect → σ → FileSystem → Answer → σ → FileSystem → Prop
  /-- what may change by itself -/
  drifts : σ → FileSystem → σ → FileSystem → Prop

/-- The world after a move, and where the call then stands. -/
def Move.result? : Move → Option (World × Status)
  | .step w p => some (w, .running p)
  | .reply w r => some (w, .returned r)
  | _ => none

/-- What it tells about an update that a call went on from `p` in the world `w`, to the world
`after` and the status `status`. -/
def Event.of? (w : World) (p : Point) (after : World) (status : Status) : Option Event :=
  let generation := w.controller.generation
  match p, status with
  | .entry (.request number file _), .running _ =>
    (Target.ofNumber? number).map fun target =>
      .accepted after.controller.generation target file
  | .settling generation _ delivery, .returned _ => some (.opened generation delivery)
  | .entry (.data _ _ chunk last), .returned (.data (.ok _)) =>
    some (.received generation chunk last)
  | .entry (.data _ _ _ _), .running (.removing path _) => some (.writeFailed generation path)
  | .entry (.data _ _ chunk last), .running _ => some (.received generation chunk last)
  | .entry (.cancel _ _), _ =>
    if after.controller.state = .cancelled ∧ w.controller.state ≠ .cancelled then
      some (.cancelled generation)
    else none
  | .assembling generation _ manifest, .running (.removingManifest _ _ _ (.ok package)) =>
    some (.assembled generation manifest package after.files)
  | .checking generation _ package, .running (.installing _ _ _ _) =>
    some (.handed generation package (w.files.read package))
  | .installing generation _ package _, .running (.installed _ _ _ result) =>
    some (.installed generation package result)
  | .concluding generation outcome _ _, .returned _ =>
    if (w.controller.conclude generation outcome).1 then some (.recorded generation outcome)
    else none
  | .concluding generation _ _ _, .running (.withdrawing package _) =>
    some (.withdrawn generation package)
  | .entry (.reset _ _), .running _ => some (.consumed generation w.controller.outcome)
  | .swapping _, .running (.planning _) => some .swapped
  | _, _ => none

namespace System

variable {σ : Type}

/-- A controller that was just built. -/
def fresh (world : World) (device : σ) : System σ := ⟨world, [], device, []⟩

/-- Where a call stands, if it has not returned. -/
def point? (s : System σ) (i : Nat) : Option Point :=
  match s.threads[i]? with
  | some ⟨_, .running p⟩ => some p
  | _ => none

/-- Makes a call. -/
def start (s : System σ) (call : Call) : System σ :=
  { s with threads := s.threads ++ [⟨call, .running (.entry call)⟩] }

/-- The call `i` moved from `p`, to the world `w` and the status `status`. -/
def moved (s : System σ) (i : Nat) (call : Call) (p : Point) (w : World) (status : Status) :
    System σ where
  world := w
  threads := s.threads.set i ⟨call, status⟩
  device := s.device
  history := ((Event.of? s.world p w status).map (i, ·)).toList ++ s.history

/-- The call `i` got the answer to its effect. -/
def answered (s : System σ) (i : Nat) (call : Call) (p : Point) (e : Effect) (a : Answer)
    (device : σ) (files : FileSystem) : System σ where
  world := s.world.setFiles files
  threads := s.threads.set i ⟨call, .running (p.resume a)⟩
  device := device
  history := (i, .performed e a) :: s.history

end System

variable {σ : Type}

/-- What a setup builds. -/
lemma eq_of_build {setup : Setup} {files : FileSystem} {layout : Option BootLayout} {w : World}
    (built : setup.build files layout = .ok w) : w =
      ⟨{}, ⟨files, layout.elim { timeout := setup.config.commandTimeout } Classifier.fixed⟩,
        #[]⟩ := by
  unfold Setup.build at built
  cases hv : setup.config.validate files with
  | error e => simp [hv, bind, Except.bind] at built
  | ok value =>
    simp only [hv, bind, Except.bind, pure, Except.pure, Except.ok.injEq] at built
    cases layout <;> exact built.symm

lemma build_controller {setup : Setup} {files : FileSystem} {layout : Option BootLayout}
    {w : World} (built : setup.build files layout = .ok w) : w.controller = {} := by
  rw [eq_of_build built]

/-- One step of a system. -/
inductive Step (setup : Setup) (around : Surroundings σ) : System σ → System σ → Prop
  | start {s : System σ} {call : Call} (may : around.starts s.threads call) :
      Step setup around s (s.start call)
  | move {s : System σ} {i : Nat} {call : Call} {p : Point} {w : World} {status : Status}
      (here : s.threads[i]? = some ⟨call, .running p⟩)
      (goes : (p.move setup s.world).result? = some (w, status)) :
      Step setup around s (s.moved i call p w status)
  | answer {s : System σ} {i : Nat} {call : Call} {p : Point} {e : Effect} {a : Answer}
      {device : σ} {files : FileSystem} (here : s.threads[i]? = some ⟨call, .running p⟩)
      (asks : p.move setup s.world = .effect e)
      (gets : around.answers e s.device s.world.files a device files) :
      Step setup around s (s.answered i call p e a device files)
  | wake {s : System σ} {i : Nat} {call : Call} {p : Point}
      (here : s.threads[i]? = some ⟨call, .running p⟩) (waits : p.move setup s.world = .wait) :
      Step setup around s { s with threads := s.threads.set i ⟨call, .running p.wake⟩ }
  /-- some thread of the engine goes on in a call on a stream -/
  | engine {s : System σ} {n : Nat} {q : Stream.Point} {slot : Slot}
      (goes : (q.move (s.world.slot n)).slot? = some slot) :
      Step setup around s { s with world := s.world.setSlot n slot }
  | drift {s : System σ} {device : σ} {files : FileSystem}
      (goes : around.drifts s.device s.world.files device files) :
      Step setup around s { s with world := s.world.setFiles files, device := device }

/-- Any number of steps. -/
abbrev Run (setup : Setup) (around : Surroundings σ) : System σ → System σ → Prop :=
  Relation.ReflTransGen (Step setup around)

/-- What holds at the start and is kept by every step holds after every run. -/
theorem Run.keeps {setup : Setup} {around : Surroundings σ} {P : System σ → Prop}
    {s t : System σ} (run : Run setup around s t) (start : P s)
    (step : ∀ {u v}, P u → Step setup around u v → P v) : P t := by
  induction run with
  | refl => exact start
  | tail _ h ih => exact step ih h

/-- The same, if the steps are kept within the run. -/
theorem Run.keeps_within {setup : Setup} {around : Surroundings σ} {P : System σ → Prop}
    {s t : System σ} (run : Run setup around s t) (start : P s)
    (step : ∀ {u v}, Run setup around s u → P u → Step setup around u v → Run setup around v t →
      P v) : P t := by
  induction run with
  | refl => exact start
  | tail hu h ih => exact step hu (ih fun ha pa hab hb => step ha pa hab (hb.tail h)) h .refl

/-- What is kept by every step but some holds after every run without one of those. -/
theorem keeps_unless {R B : System σ → System σ → Prop} {P : System σ → Prop} {s t : System σ}
    (run : Relation.ReflTransGen R s t) (start : P s)
    (without : ∀ u v, Relation.ReflTransGen R s u → R u v → Relation.ReflTransGen R v t → ¬ B u v)
    (step : ∀ {u v}, P u → R u v → ¬ B u v → P v) : P t := by
  induction run with
  | refl => exact start
  | @tail u v before h ih =>
    have hu : P u := ih fun a b ha hab hb => without a b ha hab (hb.tail h)
    exact step hu h (without u v before h .refl)

end Session

end DeviceUpdate
