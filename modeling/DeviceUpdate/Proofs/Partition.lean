import DeviceUpdate.Proofs.Procedure.Alone
import DeviceUpdate.Proofs.Text.Fields

/-!
# The partition that a stream goes into

Before a stream starts, the device is asked which partition runs. Only a clear answer lets the
stream go on, and only into the other partition: that one is unmounted if the mount table lists it,
and the running one is never touched.
-/

namespace DeviceUpdate

/-! ### The answer to the question -/

namespace Partition

/-- What the tool prints for the partition that runs. -/
def letter : Partition → String
  | .a => "a"
  | .b => "b"

/-- The answer names the running partition: the tool exited with status 0, and its letter is all
that it printed, blanks apart. -/
def NamedBy (active : Partition) (answer : Answer) : Prop :=
  ∃ stdout, answer = .ok ⟨some 0, stdout⟩ ∧ Text.trimString stdout = active.letter

lemma ofAnswer?_eq_some_iff {stdout : String} {active : Partition} :
    ofAnswer? stdout = some active ↔ Text.trimString stdout = active.letter := by
  unfold ofAnswer?
  split
  · rename_i ha
    rw [ha]
    cases active <;> simp [letter]
  · rename_i hb
    rw [hb]
    cases active <;> simp [letter]
  · rename_i ha hb
    cases active
    · simpa [letter] using ha
    · simpa [letter] using hb

/-- One answer does not name two partitions. -/
lemma NamedBy.unique {p q : Partition} {answer : Answer} (hp : p.NamedBy answer)
    (hq : q.NamedBy answer) : p = q := by
  obtain ⟨stdout, rfl, hp⟩ := hp
  obtain ⟨_, ⟨⟩, hq⟩ := hq
  rw [← ofAnswer?_eq_some_iff] at hp hq
  exact Option.some.inj (hp.symm.trans hq)

/-- While `active` runs, the other partition is mounted at this place, and this mode runs it. -/
inductive Spare : (active : Partition) → (place : String) → RunningMode → Prop
  | b : Spare .a "/mnt/linux_b" .secondary
  | a : Spare .b "/mnt/linux_a" .primary

lemma Spare.eq {active : Partition} {place : String} {mode : RunningMode}
    (h : active.Spare place mode) :
    place = active.other.mountPoint ∧ mode = active.other.runningMode := by
  cases h <;> exact ⟨rfl, rfl⟩

lemma runningMode_ne (active : Partition) : active.other.runningMode ≠ active.runningMode := by
  cases active <;> simp [other, runningMode]

lemma mountPoint_ne (active : Partition) : active.other.mountPoint ≠ active.mountPoint := by
  cases active <;> simp [other, mountPoint]

end Partition

/-! ### The mount table -/

namespace Mount

/-- A line of the table has the directory as its second word. -/
def Lists (table directory : List Char) : Prop :=
  ∃ row ∈ Text.rows table, ∃ first others, Text.Words row (first :: directory :: others)

/-- The mount table lists the directory, or it cannot be read and the directory is there. -/
def Mounted (fs : FileSystem) (table directory : String) : Prop :=
  (∃ text, fs.readText table = .ok text ∧ Lists text.toList directory.toList) ∨
    (∃ e, fs.readText table = .error e) ∧ fs.isDirectory directory

/-- The second field is the second word. -/
lemma getElem?_fields_iff {row w : List Char} :
    (Text.fields row)[1]? = some w ↔ ∃ first others, Text.Words row (first :: w :: others) := by
  simp only [← Text.fields_eq_iff]
  cases hfields : Text.fields row with
  | nil => simp
  | cons first rest => cases rest <;> simp

lemma listedIn_iff {table : List Char} {directory : String} :
    listedIn table directory ↔ Lists table directory.toList := by
  simp only [listedIn, Lists, List.any_eq_true, beq_iff_eq, ← getElem?_fields_iff]
  exact Text.exists_line_iff (fun row => by rw [Text.fields_dropReturn])
    (by simp [Text.fields, Text.splitWhere_nil]) table

lemma isMountPoint_iff {fs : FileSystem} {table directory : String} :
    isMountPoint fs table directory ↔ Mounted fs table directory := by
  unfold isMountPoint Mounted
  cases fs.readText table with
  | ok text => simp [listedIn_iff]
  | error e => simp

end Mount

/-! ### Preparing a stream -/

namespace StreamPreparation

variable {σ : Type} (p : StreamPreparation) (device : Handler σ)

/-- The question which partition runs. -/
def question : Effect := .run ⟨"update-firmware", ["-a", "-s"], some p.timeout⟩

/-- What the answer to the question tells. -/
def told (answer : Answer) : Except UpdateError Partition :=
  match (p.tool ["-a", "-s"]).expectSuccess answer with
  | .error e => .error e
  | .ok output =>
    match Partition.ofAnswer? output.stdout with
    | some active => .ok active
    | none => .error (.streamingFailed s!"unexpected active system '{output.trimmed}'")

lemma told_eq_ok_iff {answer : Answer} {active : Partition} :
    p.told answer = .ok active ↔ active.NamedBy answer := by
  have hsuccess (output : CommandOutput) :
      (p.tool ["-a", "-s"]).expectSuccess answer = .ok output ↔
        answer = .ok output ∧ output.status = some 0 := Command.expectSuccess_eq_ok_iff
  unfold told Partition.NamedBy
  cases hresult : (p.tool ["-a", "-s"]).expectSuccess answer with
  | error e =>
    simp only [reduceCtorEq, false_iff]
    rintro ⟨stdout, rfl, -⟩
    have hok := (hsuccess ⟨some 0, stdout⟩).mpr ⟨rfl, rfl⟩
    cases hresult.symm.trans hok
  | ok output =>
    obtain ⟨status, stdout⟩ := output
    obtain ⟨rfl, rfl⟩ := (hsuccess ⟨status, stdout⟩).mp hresult
    cases hnamed : Partition.ofAnswer? stdout with
    | none =>
      simp [hnamed, ← Partition.ofAnswer?_eq_some_iff]
    | some named =>
      simp [hnamed, ← Partition.ofAnswer?_eq_some_iff]

/-- Frees the partition that is not the active one. -/
def freeing (active : Partition) : Procedure (Except UpdateError StreamRequest) :=
  .files id fun fs => .files id fun later =>
    if Mount.isMountPoint later p.mountTable active.other.mountPoint then
      .perform (.run (p.unmount active.other.mountPoint)) fun _ =>
        .done (.ok ⟨StorageMedia.detect fs p.flashTable, active.other.runningMode⟩)
    else .done (.ok ⟨StorageMedia.detect fs p.flashTable, active.other.runningMode⟩)

/-- What follows the answer to the question. -/
def following (answer : Answer) : Procedure (Except UpdateError StreamRequest) :=
  match p.told answer with
  | .ok active => p.freeing active
  | .error e => .done (.error e)

lemma prepare_eq : p.prepare = .perform p.question p.following := by
  have hactive : p.activePartition = .perform p.question fun answer => .done (p.told answer) := by
    refine congrArg (Procedure.perform _) (funext fun answer => ?_)
    unfold told
    change Procedure.bind (.done _) _ = _
    cases (p.tool ["-a", "-s"]).expectSuccess answer with
    | error e => rfl
    | ok output =>
      dsimp only [Procedure.bind_done]
      cases Partition.ofAnswer? output.stdout <;> rfl
  rw [prepare, hactive]
  refine congrArg (Procedure.perform _) (funext fun answer => ?_)
  rw [Procedure.bind_done, following]
  cases p.told answer with
  | error e => rfl
  | ok active =>
    refine congrArg (Procedure.files _) (funext fun fs => ?_)
    refine congrArg (Procedure.files _) (funext fun later => ?_)
    dsimp only [Procedure.bind_done]
    split <;> rfl

/-- What is asked for after the question, and what comes of it, if it was answered with `answer`
and the files then were `files`. -/
structure Prepares (answer : Answer) (files : FileSystem) (later : List (Effect × Answer))
    (result : Except UpdateError StreamRequest) : Prop where
  /-- it succeeds exactly if the answer names the running partition -/
  succeeds : (∃ request, result = .ok request) ↔ ∃ active : Partition, active.NamedBy answer
  /-- the other partition is written, whatever came of unmounting it -/
  selects : ∀ (active : Partition) place mode, active.NamedBy answer → active.Spare place mode →
    result = .ok ⟨StorageMedia.detect files p.flashTable, mode⟩
  /-- it is unmounted exactly if it is mounted, once -/
  frees : ∀ (active : Partition) place mode, active.NamedBy answer → active.Spare place mode →
    (Mount.Mounted files p.mountTable place →
      ∃ a, later = [(.run ⟨"umount", [place], some p.timeout⟩, a)]) ∧
    (¬ Mount.Mounted files p.mountTable place → later = [])
  /-- without success nothing is unmounted -/
  stops : (∀ active : Partition, ¬ active.NamedBy answer) → later = []
  /-- the running partition is in no command, and is not selected -/
  spares : ∀ (active : Partition) place mode, active.NamedBy answer →
    active.other.Spare place mode →
    (∀ d ∈ later, ∀ c, d.1 = .run c → place ∉ c.arguments) ∧
      ∀ request, result = .ok request → request.runningMode ≠ mode

/-- What freeing a partition asks for. -/
lemma freeing_asked (active : Partition) (s : σ) (shared : Shared) :
    (p.freeing active).asked device (s, shared) =
      if Mount.isMountPoint shared.files p.mountTable active.other.mountPoint then
        [(.run (p.unmount active.other.mountPoint),
          (device (.run (p.unmount active.other.mountPoint)) (s, shared.files)).1)]
      else [] := by
  by_cases mounted : Mount.isMountPoint shared.files p.mountTable active.other.mountPoint
  · simp [Procedure.asked, freeing, Procedure.eval, mounted, Handler.noting]
  · simp [Procedure.asked, freeing, Procedure.eval, mounted]

/-- The answer to unmounting is not looked at. -/
lemma freeing_eval (active : Partition) (s : σ) (shared : Shared) :
    ((p.freeing active).eval device (s, shared)).1 =
      .ok ⟨StorageMedia.detect shared.files p.flashTable, active.other.runningMode⟩ := by
  by_cases mounted : Mount.isMountPoint shared.files p.mountTable active.other.mountPoint
  · simp [freeing, Procedure.eval, mounted]
  · simp [freeing, Procedure.eval, mounted]

lemma freeing_prepares {answer : Answer} {active : Partition} (named : active.NamedBy answer)
    (s : σ) (shared : Shared) :
    p.Prepares answer shared.files ((p.freeing active).asked device (s, shared))
      ((p.freeing active).eval device (s, shared)).1 := by
  rw [freeing_asked, freeing_eval]
  have hactive {other : Partition} (h : other.NamedBy answer) : other = active := h.unique named
  refine ⟨⟨fun _ => ⟨active, named⟩, fun _ => ⟨_, rfl⟩⟩, ?_, ?_, ?_, ?_⟩
  · intro other place mode h spare
    rw [spare.eq.2, hactive h]
  · intro other place mode h spare
    rw [spare.eq.1, hactive h, ← Mount.isMountPoint_iff]
    constructor
    · intro mounted
      exact ⟨_, if_pos mounted⟩
    · intro free
      exact if_neg free
  · intro none
    exact absurd named (none active)
  · intro other place mode h spare
    obtain rfl := hactive h
    obtain ⟨rfl, rfl⟩ := spare.eq
    rw [other.other_other]
    constructor
    · intro d hd c hc
      split at hd
      · obtain rfl := List.mem_singleton.mp hd
        obtain rfl := Effect.run.inj hc
        simpa [unmount] using other.mountPoint_ne.symm
      · cases hd
    · rintro request ⟨⟩
      exact other.runningMode_ne

lemma refused_prepares {answer : Answer} {e : UpdateError} (refused : p.told answer = .error e)
    (files : FileSystem) : p.Prepares answer files [] (.error e) := by
  have hnone (active : Partition) : ¬ active.NamedBy answer := by
    intro named
    cases refused.symm.trans (p.told_eq_ok_iff.mpr named)
  refine ⟨⟨?_, ?_⟩, ?_, ?_, fun _ => rfl, ?_⟩
  · rintro ⟨request, ⟨⟩⟩
  · rintro ⟨active, named⟩
    exact absurd named (hnone active)
  · exact fun active _ _ named => absurd named (hnone active)
  · exact fun active _ _ named => absurd named (hnone active)
  · exact fun active _ _ named => absurd named (hnone active)

lemma following_prepares (answer : Answer) (s : σ) (shared : Shared) :
    p.Prepares answer shared.files ((p.following answer).asked device (s, shared))
      ((p.following answer).eval device (s, shared)).1 := by
  unfold following
  cases htold : p.told answer with
  | error e => exact p.refused_prepares htold shared.files
  | ok active => exact p.freeing_prepares device (p.told_eq_ok_iff.mp htold) s shared

/-- What the device answers later makes no difference. -/
lemma following_eval (answer : Answer) (s : σ) (shared : Shared) :
    ((p.following answer).eval device (s, shared)).1 = (p.told answer).map fun active =>
      ⟨StorageMedia.detect shared.files p.flashTable, active.other.runningMode⟩ := by
  unfold following
  cases p.told answer with
  | error e => rfl
  | ok active => exact p.freeing_eval device active s shared

/-- Only the answer to the first question decides whether a stream can start and where it goes. The
running partition is not touched, whatever else the device answers. -/
theorem prepare_spares_running (s : σ) (shared : Shared) :
    let answered := device p.question (s, shared.files)
    ∃ later, p.prepare.asked device (s, shared) = (p.question, answered.1) :: later ∧
      p.Prepares answered.1 answered.2.2 later (p.prepare.eval device (s, shared)).1 ∧
      ∀ other : Handler σ, other p.question (s, shared.files) = answered →
        (p.prepare.eval other (s, shared)).1 = (p.prepare.eval device (s, shared)).1 := by
  intro answered
  rw [prepare_eq]
  refine ⟨_, Procedure.asked_perform device _ _ _ _,
    p.following_prepares device answered.1 answered.2.1 { shared with files := answered.2.2 },
    fun other same => ?_⟩
  simp only [Procedure.eval, same, following_eval]
  rfl

end StreamPreparation

end DeviceUpdate
