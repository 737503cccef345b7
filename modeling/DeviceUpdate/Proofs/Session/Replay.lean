import DeviceUpdate.Archive.Zip
import DeviceUpdate.Proofs.Session.Discipline

/-!
# Replaying runs

A run can be told by what goes on next, step by step, if the device answers as a function. What
such a replay comes to is reached by a run.
-/

namespace DeviceUpdate.Session

/-- How a device answers an effect, and what it leaves behind. -/
abbrev Answers (σ : Type) : Type := Effect → σ → FileSystem → Answer × σ × FileSystem

/-- What goes on next. -/
inductive Choice where
  | start (call : Call)
  /-- the call with this number goes on, or gets its answer, or waits a little longer -/
  | go (i : Nat)
  /-- the engine goes on in a call on a stream -/
  | engine (stream : Nat) (q : Stream.Point)

section Replays

variable {σ : Type} {setup : Setup} {around : Surroundings σ}

/-- The call `i` goes on. -/
def System.go? (setup : Setup) (answers : Answers σ) (s : System σ) (i : Nat) :
    Option (System σ) :=
  match s.threads[i]? with
  | some ⟨call, .running p⟩ =>
    match p.move setup s.world with
    | .step w q => some (s.moved i call p w (.running q))
    | .reply w r => some (s.moved i call p w (.returned r))
    | .effect e =>
      let (a, device, files) := answers e s.device s.world.files
      some (s.answered i call p e a device files)
    | .wait => some { s with threads := s.threads.set i ⟨call, .running p.wake⟩ }
  | _ => none

/-- The next step, where `may` says which calls may be made. -/
def System.next? (setup : Setup) (may : List Thread → Call → Bool) (answers : Answers σ)
    (s : System σ) : Choice → Option (System σ)
  | .start call => if may s.threads call then some (s.start call) else none
  | .go i => s.go? setup answers i
  | .engine n q =>
    match (q.move (s.world.slot n)).slot? with
    | some slot => some { s with world := s.world.setSlot n slot }
    | none => none

def System.replay? (setup : Setup) (may : List Thread → Call → Bool) (answers : Answers σ) :
    System σ → List Choice → Option (System σ)
  | s, [] => some s
  | s, c :: rest =>
    match s.next? setup may answers c with
    | some t => t.replay? setup may answers rest
    | none => none

/-- The surroundings allow the calls that `may` allows, and the device may answer like this. -/
structure Allows (around : Surroundings σ) (may : List Thread → Call → Bool)
    (answers : Answers σ) : Prop where
  starts : ∀ threads call, may threads call → around.starts threads call
  answers : ∀ e d files,
    around.answers e d files (answers e d files).1 (answers e d files).2.1
      (answers e d files).2.2

lemma step_of_go {answers : Answers σ} {s t : System σ} {i : Nat}
    (hanswers : ∀ e d files,
      around.answers e d files (answers e d files).1 (answers e d files).2.1
        (answers e d files).2.2)
    (h : s.go? setup answers i = some t) : Step setup around s t := by
  unfold System.go? at h
  split at h
  case h_1 call p here =>
    split at h
    case h_1 w q hm =>
      obtain rfl := by simpa using h
      exact .move here (by rw [hm]; rfl)
    case h_2 w r hm =>
      obtain rfl := by simpa using h
      exact .move here (by rw [hm]; rfl)
    case h_3 e hm =>
      obtain rfl := by simpa using h
      exact .answer here hm (hanswers _ _ _)
    case h_4 hm =>
      obtain rfl := by simpa using h
      exact .wake here hm
  case h_2 => simp at h

lemma step_of_next {may : List Thread → Call → Bool} {answers : Answers σ} {s t : System σ}
    {c : Choice} (allows : Allows around may answers) (h : s.next? setup may answers c = some t) :
    Step setup around s t := by
  cases c with
  | start call =>
    simp only [System.next?] at h
    split at h
    · rename_i hmay
      obtain rfl := by simpa using h
      exact .start (allows.starts _ _ hmay)
    · simp at h
  | go i => exact step_of_go allows.answers h
  | engine n q =>
    simp only [System.next?] at h
    split at h
    · rename_i slot hslot
      obtain rfl := by simpa using h
      exact .engine hslot
    · simp at h

/-- What a replay comes to is reached by a run. -/
theorem run_of_replay {may : List Thread → Call → Bool} {answers : Answers σ} {s t : System σ}
    {choices : List Choice} (allows : Allows around may answers)
    (h : s.replay? setup may answers choices = some t) : Run setup around s t := by
  induction choices generalizing s with
  | nil =>
    obtain rfl : s = t := by simpa [System.replay?] using h
    exact .refl
  | cons c rest ih =>
    simp only [System.replay?] at h
    split at h
    · rename_i u hu
      exact .head (step_of_next allows hu) (ih h)
    · simp at h

/-! ### Kinds of surroundings -/

/-- One call is made after another, the device answers as a function, and nothing else changes. -/
def Surroundings.sequential (answers : Answers σ) : Surroundings σ where
  starts threads _ := ∀ t ∈ threads, t.status.isRunning = false
  answers e d files a d' files' := (a, d', files') = answers e d files
  drifts _ _ _ _ := False

/-- Calls overlap in any way, but nobody resets. -/
def Surroundings.overlapping (answers : Answers σ) : Surroundings σ where
  starts _ call := call.isReset = false
  answers e d files a d' files' := (a, d', files') = answers e d files
  drifts _ _ _ _ := False

/-- Calls overlap in any way, but chunks come one after another. -/
def Surroundings.oneSender (answers : Answers σ) : Surroundings σ where
  starts threads call := call.sends → ∀ t ∈ threads, t.sends = false
  answers e d files a d' files' := (a, d', files') = answers e d files
  drifts _ _ _ _ := False

/-- Calls overlap in any way. -/
def Surroundings.free (answers : Answers σ) : Surroundings σ where
  starts _ _ := True
  answers e d files a d' files' := (a, d', files') = answers e d files
  drifts _ _ _ _ := False

lemma allows_sequential (answers : Answers σ) :
    Allows (.sequential answers) (fun threads _ => threads.all (!·.status.isRunning)) answers := by
  constructor
  · intro threads call hmay t ht
    simpa using List.all_eq_true.mp hmay t ht
  · intro e d files
    rfl

lemma allows_overlapping (answers : Answers σ) :
    Allows (.overlapping answers) (fun _ call => !call.isReset) answers := by
  constructor
  · intro threads call hmay
    show call.isReset = false
    simpa using hmay
  · intro e d files
    rfl

lemma allows_oneSender (answers : Answers σ) :
    Allows (.oneSender answers) (fun threads call => !call.sends || threads.all (!·.sends))
      answers := by
  constructor
  · intro threads call hmay hsends t ht
    simp only [hsends, Bool.not_true, Bool.false_or] at hmay
    simpa using List.all_eq_true.mp hmay t ht
  · intro e d files
    rfl

lemma allows_free (answers : Answers σ) : Allows (.free answers) (fun _ _ => true) answers := by
  constructor
  · intro threads call _
    trivial
  · intro e d files
    rfl

lemma sequential_oneSender (answers : Answers σ) : (Surroundings.sequential answers).OneSender := by
  intro threads call may _ t ht
  simp [Thread.sends, may t ht]

lemma oneSender_oneSender (answers : Answers σ) : (Surroundings.oneSender answers).OneSender :=
  fun _ _ may => may

lemma overlapping_neverResets (answers : Answers σ) :
    (Surroundings.overlapping answers).NeverResets := by
  intro threads number version may
  cases may

end Replays

/-! ### A small device -/

namespace Small

/-- An empty download directory, and nothing else. -/
def files : FileSystem := ⟨#[.directory 0 [("dl", 1)], .directory 0 []], 0, 0, 1000, none⟩

/-- Downloads are staged; with one system partition the bootloader's environment is used. -/
def setup : Setup where
  config := { downloadDirectory := "dl" }
  engine := false
  recovery := some (.environment (.ofSeconds 2))
  archives := Archive.zip

def world (layout : BootLayout) : World := ⟨{}, ⟨files, .fixed layout⟩, #[]⟩

/-- All commands go well. -/
def answers : Answers Unit := fun _ d files => (.ok (.ok ""), d, files)

def fresh (layout : BootLayout) : System Unit := .fresh (world layout) ()

/-- Any calls but resets. -/
abbrev overlapping : Surroundings Unit := .overlapping answers

def overlap? (s : System Unit) (choices : List Choice) : Option (System Unit) :=
  s.replay? setup (fun _ call => !call.isReset) answers choices

lemma run_of_overlap {choices : List Choice} {s t : System Unit}
    (h : overlap? s choices = some t) : Run setup overlapping s t :=
  run_of_replay (allows_overlapping answers) h

def chunkwise? (s : System Unit) (choices : List Choice) : Option (System Unit) :=
  s.replay? setup (fun threads call => !call.sends || threads.all (!·.sends)) answers choices

lemma run_of_chunkwise {choices : List Choice} {s t : System Unit}
    (h : chunkwise? s choices = some t) : Run setup (.oneSender answers) s t :=
  run_of_replay (allows_oneSender answers) h

def freely? (s : System Unit) (choices : List Choice) : Option (System Unit) :=
  s.replay? setup (fun _ _ => true) answers choices

lemma run_of_freely {choices : List Choice} {s t : System Unit} (h : freely? s choices = some t) :
    Run setup (.free answers) s t :=
  run_of_replay (allows_free answers) h

/-- Downloads are streamed. -/
def streamSetup : Setup where
  config := { downloadDirectory := "dl", onTheFly := true }
  engine := true
  recovery := none
  archives := Archive.zip

/-- All commands go well, and the device runs from the first partition. -/
def streamAnswers : Answers Unit := fun _ d files => (.ok (.ok "a"), d, files)

/-- A request that starts the engine. -/
def streamRequested : List Choice :=
  .start (.request 0 "image.swu" 2) :: List.replicate 9 (.go 0)

def streamChunkwise? (s : System Unit) (choices : List Choice) : Option (System Unit) :=
  s.replay? streamSetup (fun threads call => !call.sends || threads.all (!·.sends)) streamAnswers
    choices

lemma run_of_streamChunkwise {choices : List Choice} {s t : System Unit}
    (h : streamChunkwise? s choices = some t) :
    Run streamSetup (.oneSender streamAnswers) s t :=
  run_of_replay (allows_oneSender streamAnswers) h

/-- One call after another. -/
abbrev sequential : Surroundings Unit := .sequential answers

def follow? (s : System Unit) (choices : List Choice) : Option (System Unit) :=
  s.replay? setup (fun threads _ => threads.all (!·.status.isRunning)) answers choices

lemma run_of_follow {choices : List Choice} {s t : System Unit}
    (h : follow? s choices = some t) : Run setup sequential s t :=
  run_of_replay (allows_sequential answers) h

end Small

end DeviceUpdate.Session
