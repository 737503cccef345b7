import DeviceUpdate.Proofs.Assembly
import DeviceUpdate.Proofs.FileSystem.Removal
import DeviceUpdate.Proofs.Session.Files
import DeviceUpdate.Proofs.Session.Replay

/-!
# What is handed over

The file of a staged update gathers its chunks in order, and the assembled package is verified. So
what goes to the install is what came, or what the manifest vouches for, with one exception: the
manifest is removed after its package was verified, and takes the package along if both have the
same name.
-/

namespace DeviceUpdate.Session

section

variable {σ : Type} {setup : Setup} {around : Surroundings σ} {s t : System σ}

/-- The chunk that the event brings to the update. -/
def Event.chunkOf? (generation : Nat) : Event → Option Bytes
  | .received g chunk _ => if g = generation then some chunk else none
  | _ => none

/-- All that was accepted for the update, in order. -/
def System.chunks (s : System σ) (generation : Nat) : Bytes :=
  (s.history.reverse.filterMap (·.2.chunkOf? generation)).flatten

lemma chunks_moved {i g : Nat} {call : Call} {p : Point} {w : World} {st : Status} :
    (s.moved i call p w st).chunks g =
      s.chunks g ++ ((Event.of? s.world p w st).bind (·.chunkOf? g)).getD [] := by
  unfold System.chunks System.moved
  cases Event.of? s.world p w st with
  | none => simp
  | some e => cases he : e.chunkOf? g <;> simp [he]

lemma Quiet.chunks_eq (h : Quiet around s t) (g : Nat) : t.chunks g = s.chunks g := by
  unfold System.chunks
  rcases h.history with hsame | ⟨i, f, a, hnew⟩
  · rw [hsame]
  · rw [hnew]
    simp [Event.chunkOf?]

lemma chunks_eq_nil {g : Nat} (h : ∀ chunk last, ¬ s.Logged (.received g chunk last)) :
    s.chunks g = [] := by
  have hnone : s.history.reverse.filterMap (·.2.chunkOf? g) = [] := by
    rw [List.filterMap_eq_nil_iff]
    rintro ⟨i, e⟩ he
    cases e with
    | received g' chunk last =>
      simp only [Event.chunkOf?, ite_eq_right_iff, reduceCtorEq, imp_false]
      rintro rfl
      exact h chunk last ⟨i, List.mem_reverse.mp he⟩
    | _ => rfl
  rw [System.chunks, hnone, List.flatten_nil]

/-- Only a chunk that the update takes adds to it. -/
lemma chunks_moved_of_not_takes {i g : Nat} {call : Call} {p : Point} {w : World} {st : Status}
    (goes : Goes setup s.world p w st)
    (none : ∀ number offset u, ¬ Takes s.world.controller number offset u) :
    (s.moved i call p w st).chunks g = s.chunks g := by
  rw [chunks_moved]
  cases hlog : Event.of? s.world p w st with
  | none => simp
  | some e =>
    cases goes.tells hlog with
    | received h fine =>
      cases h with
      | refused code => simp [Event.of?] at hlog
      | failed code takes delivery kept => exact absurd rfl (fine _ _)
      | written takes delivery write more => exact absurd takes (none _ _ _)
      | finished takes delivery write final synced => exact absurd takes (none _ _ _)
      | pushed takes delivery => exact absurd takes (none _ _ _)
    | _ => simp [Event.chunkOf?]

/-! ### What calls know of the files -/

/-- The update was accepted under a file name, and this is the path for it. -/
def System.Named (s : System σ) (directory : String) (generation : Nat) (target : Target)
    (path : String) : Prop :=
  ∃ file, s.Logged (.accepted generation target file) ∧ acceptableFileName file ∧
    path = Path.join directory file

/-- The file that came for the update, under the name `file`, is the manifest `m`. Its package had
the size and the checksum that `m` says when it was assembled, with these files then. -/
structure System.Assembled (s : System σ) (directory : String) (generation : Nat)
    (package : String) (files : FileSystem) (file : String) (m : Manifest) : Prop where
  accepted : s.Logged (.accepted generation .manifest file)
  name : acceptableFileName file
  logged : s.Logged (.assembled generation (Path.join directory file) package files)
  describes : m.Describes (s.chunks generation)
  path : package = Path.join directory m.packageFileName
  fits : m.Fits (files.read package)

/-- What a call at this point knows of the files of its update. -/
def Point.Stocked (s : System σ) (directory : String) : Point → Prop
  | .choosing g target file _ _ | .checkingSpace g target file _ =>
    s.Logged (.accepted g target file) ∧ acceptableFileName file ∧ s.chunks g = []
  | .creating g target path => s.Named directory g target path ∧ s.chunks g = []
  | .settling g target (.staged path (some handle)) =>
    s.Named directory g target path ∧ s.chunks g = [] ∧ s.world.files.Gathers path handle []
  | .assembling g target manifest =>
    target = .manifest ∧ s.Named directory g target manifest ∧
      s.world.files.read manifest = .ok (s.chunks g)
  | .removingManifest g target manifest (.ok package) =>
    target = .manifest ∧ ∃ file m, manifest = Path.join directory file ∧
      s.Assembled directory g package s.world.files file m
  | .checking g .system package => s.world.files.read package = .ok (s.chunks g)
  | .checking g .manifest package =>
    ∃ files file m, s.Assembled directory g package files file m ∧
      s.world.files = files.removeIfPossible (Path.join directory file)
  | _ => True

def Status.Stocked (s : System σ) (directory : String) : Status → Prop
  | .running p => p.Stocked s directory
  | .returned _ => True

/-- The file of the active update gathers its chunks. -/
def System.Gathering (s : System σ) (directory : String) : Prop :=
  ∀ u path handle, s.world.controller.active = some u →
    u.delivery = .staged path (some handle) → s.world.controller.state.isOpen →
      s.Named directory s.world.controller.generation u.target path ∧
        s.world.files.Gathers path handle (s.chunks s.world.controller.generation)

/-- What is known of the files of the current update. -/
structure Stock (directory : String) (s : System σ) : Prop where
  past : ∀ g chunk last, s.Logged (.received g chunk last) → g ≤ s.world.controller.generation
  points : s.All fun _ _ p => p.Stocked s directory
  active : s.Gathering directory

lemma stock_fresh (directory : String) (w : World) (d : σ) (hw : w.controller = {}) :
    Stock directory (System.fresh w d) := by
  refine ⟨?_, System.all_fresh w d, ?_⟩
  · rintro g chunk last ⟨i, hi⟩
    simp [System.fresh] at hi
  · intro u path handle hu
    simp [System.fresh, hw] at hu

/-! ### What stays -/

/-- Neither the files nor what came changes. -/
structure Untouched (s t : System σ) : Prop where
  logged : s.Extends t
  files : t.world.files = s.world.files
  chunks : ∀ g, t.chunks g = s.chunks g

lemma Untouched.assembled {directory package file : String} {g : Nat} {files : FileSystem}
    {m : Manifest} (h : Untouched s t) (hs : s.Assembled directory g package files file m) :
    t.Assembled directory g package files file m := by
  refine ⟨h.logged.logged hs.accepted, hs.name, h.logged.logged hs.logged, ?_, hs.path, hs.fits⟩
  rw [h.chunks]
  exact hs.describes

lemma System.Extends.named {directory path : String} {g : Nat} {target : Target}
    (h : s.Extends t) (hs : s.Named directory g target path) : t.Named directory g target path := by
  obtain ⟨file, haccepted, hname, hpath⟩ := hs
  exact ⟨file, h.logged haccepted, hname, hpath⟩

lemma Point.Stocked.mono {directory : String} {p : Point} (h : Untouched s t)
    (hp : p.Stocked s directory) : p.Stocked t directory := by
  cases p with
  | choosing g target file size rest =>
    exact ⟨h.logged.logged hp.1, hp.2.1, by rw [h.chunks, hp.2.2]⟩
  | checkingSpace g target file size =>
    exact ⟨h.logged.logged hp.1, hp.2.1, by rw [h.chunks, hp.2.2]⟩
  | creating g target path => exact ⟨h.logged.named hp.1, by rw [h.chunks, hp.2]⟩
  | settling g target delivery =>
    cases delivery with
    | streaming stream => trivial
    | staged path file =>
      cases file with
      | none => trivial
      | some handle =>
        exact ⟨h.logged.named hp.1, by rw [h.chunks, hp.2.1], by rw [h.files]; exact hp.2.2⟩
  | assembling g target manifest =>
    exact ⟨hp.1, h.logged.named hp.2.1, by rw [h.files, h.chunks]; exact hp.2.2⟩
  | removingManifest g target manifest result =>
    cases result with
    | error e => trivial
    | ok package =>
      obtain ⟨htarget, file, m, hmanifest, hassembled⟩ := hp
      refine ⟨htarget, file, m, hmanifest, ?_⟩
      rw [h.files]
      exact h.assembled hassembled
  | checking g target package =>
    cases target with
    | system =>
      change t.world.files.read package = .ok (t.chunks g)
      rw [h.files, h.chunks]
      exact hp
    | manifest =>
      obtain ⟨files, file, m, hassembled, hfiles⟩ := hp
      exact ⟨files, file, m, h.assembled hassembled, h.files.trans hfiles⟩
  | _ => trivial

/-- A call with no role for files knows nothing of them. -/
lemma stocked_of_not_holds {directory : String} {p : Point} (h : ¬ p.role.Holds) :
    p.Stocked s directory := by
  cases p with
  | choosing | checkingSpace | creating | settling => exact absurd trivial h
  | assembling | removingManifest | checking => exact absurd trivial h
  | _ => trivial

lemma Role.not_takes {c : Controller} {r : Role} (holds : r.Holds) (fits : r.Fits c)
    (number offset : Nat) (u : ActiveUpdate) : ¬ Takes c number offset u := by
  intro htakes
  have hopen := htakes.open_
  have hactive := htakes.active
  cases r with
  | setup g => simp [Role.Fits, hactive] at fits
  | staged g stage =>
    cases stage <;> grind [Role.Fits, Stage.covers, SessionState.isOpen]
  | _ => simp [Role.Holds] at holds

/-- What a call knows of the files stays while it does not go on. -/
lemma Stock.stays {directory : String} (steady : Steady s) (keeps : around.KeepsFiles)
    {i : Nat} {call : Call} {p : Point} (here : s.threads[i]? = some ⟨call, .running p⟩)
    (step : Step setup around s t) (beside : Beside setup around s i t)
    (hp : p.Stocked s directory) : p.Stocked t directory := by
  by_cases holds : p.role.Holds
  · refine hp.mono ⟨step.extends, steady.files_of_holds keeps here holds beside, fun g => ?_⟩
    cases beside with
    | quiet hquiet => exact hquiet.chunks_eq g
    | other ne there goes =>
      exact chunks_moved_of_not_takes goes (Role.not_takes holds (steady.fits here))
  · exact stocked_of_not_holds holds

/-! ### What a call that goes on knows -/

lemma moved_logged {i : Nat} {call : Call} {p : Point} {w : World} {st : Status} {e : Event}
    (h : Event.of? s.world p w st = some e) : (s.moved i call p w st).Logged e :=
  ⟨i, moved_logs h⟩

/-- What the file of a staged update holds after the final chunk. -/
lemma Stock.read_of_finished {directory : String} {i number offset : Nat} {call : Call}
    {chunk : Bytes} {last : Bool} {w : World} {st : Status} {u : ActiveUpdate} {path : String}
    {handle handle' : Handle} {files : FileSystem} (h : Stock directory s)
    (takes : Takes s.world.controller number offset u)
    (delivery : u.delivery = .staged path (some handle))
    (write : s.world.files.write handle chunk = .ok (handle', files))
    (synced : files.sync handle' = .ok ())
    (log : Event.of? s.world (.entry (.data number offset chunk last)) w st =
      some (.received s.world.controller.generation chunk last)) :
    files.read path = .ok ((s.moved i call (.entry (.data number offset chunk last)) w st).chunks
      s.world.controller.generation) := by
  obtain ⟨-, hgathers⟩ := h.active u path handle takes.active delivery takes.open_
  have hread := (hgathers.write write).read synced
  rw [chunks_moved, log]
  simpa [Event.chunkOf?] using hread

/-- Nothing has come for an update that was just accepted. -/
lemma Stock.chunks_next {directory : String} (h : Stock directory s) :
    s.chunks (s.world.controller.generation + 1) = [] := by
  refine chunks_eq_nil fun chunk last hlogged => ?_
  have hle := h.past _ chunk last hlogged
  omega

lemma Goes.stocked {directory : String} {i : Nat} {call : Call} {p : Point} {w : World}
    {st : Status} (goes : Goes setup s.world p w st)
    (dir : setup.config.downloadDirectory = directory) (h : Stock directory s)
    (hp : p.Stocked s directory) : st.Stocked (s.moved i call p w st) directory := by
  have hx : s.Extends (s.moved i call p w st) := moved_extends goes
  have hsame (g : Nat) (log : (Event.of? s.world p w st).bind (·.chunkOf? g) = none) :
      (s.moved i call p w st).chunks g = s.chunks g := by
    rw [chunks_moved, log]
    simp
  cases goes with
  | @request number size file v st h' =>
    cases h' with
    | refused code => trivial
    | @accepted target p known name free goes =>
      have hevent : Event.of? s.world (.entry (.request number file size))
          { s.world with controller := s.world.controller.startUpdate } (.running p) =
            some (.accepted (s.world.controller.generation + 1) target file) := by
        simp [Event.of?, known, Controller.startUpdate]
      have hnone := hsame (s.world.controller.generation + 1) (by rw [hevent]; rfl)
      rw [h.chunks_next] at hnone
      obtain ⟨-, rfl⟩ | rfl := goes
      · exact ⟨moved_logged hevent, name, hnone⟩
      · exact ⟨moved_logged hevent, name, hnone⟩
  | data h' =>
    cases h' with
    | @finished u path handle handle' files takes delivery write final synced =>
      obtain ⟨hnamed, -⟩ := h.active u path handle takes.active delivery takes.open_
      replace hnamed := hx.named hnamed
      generalize u.target = target at hx hnamed ⊢
      cases target with
      | system => exact h.read_of_finished takes delivery write synced rfl
      | manifest =>
        exact ⟨rfl, hnamed, h.read_of_finished takes delivery write synced rfl⟩
    | _ => trivial
  | cancel h' => cases h' <;> trivial
  | reset h' =>
    cases h' with
    | refused decision unscheduled => trivial
    | begun done path =>
      generalize s.world.controller.outcome = outcome at path
      cases path <;> trivial
  | inside wraps hmove =>
    cases wraps with
    | choosing => exact ⟨hx.logged hp.1, hp.2.1, by rw [hsame _ rfl, hp.2.2]⟩
    | _ => trivial
  | chosen other => exact ⟨hx.logged hp.1, hp.2.1, by rw [hsame _ rfl, hp.2.2]⟩
  | spaceFound free fits =>
    exact ⟨⟨_, hx.logged hp.1, hp.2.1, by rw [dir]⟩, by rw [hsame _ rfl, hp.2.2]⟩
  | created create =>
    exact ⟨hx.named hp.1, by rw [hsame _ rfl, hp.2], FileSystem.gathers_of_create create⟩
  | @assembled g target manifest result files assembles =>
    cases result with
    | error e => trivial
    | ok package =>
      obtain ⟨rfl, ⟨file, haccepted, hname, rfl⟩, hcontent⟩ := hp
      obtain ⟨content, m, hread, hdescribes, hpackage, hfits⟩ :=
        Assembly.assembleFromManifest_fits assembles
      obtain rfl : s.chunks g = content := by
        rw [hcontent] at hread
        exact Except.ok.inj hread
      rw [← hsame g rfl] at hdescribes
      exact ⟨rfl, file, m, rfl, hx.logged haccepted, hname, moved_logged rfl, hdescribes,
        by rw [hpackage, dir], hfits⟩
  | @manifestRemoved g target manifest package =>
    obtain ⟨rfl, file, m, rfl, hassembled⟩ := hp
    have hdescribes := hassembled.describes
    rw [← hsame g rfl] at hdescribes
    exact ⟨s.world.files, file, m, ⟨hx.logged hassembled.accepted, hassembled.name,
      hx.logged hassembled.logged, hdescribes, hassembled.path, hassembled.fits⟩, rfl⟩
  | _ => trivial

lemma resume_stocked {directory : String} {p : Point} (a : Answer) (h : p.Stocked s directory) :
    (p.resume a).Stocked s directory := by
  cases p with
  | starting g target stream request => cases a <;> trivial
  | scheduling plan => trivial
  | _ => exact h

lemma wake_stocked {directory : String} {p : Point} (h : p.Stocked s directory) :
    p.wake.Stocked s directory := by
  cases p <;> exact h

/-! ### The active update -/

/-- While an update takes data, only the calls that bring it change files. -/
lemma Steady.files_of_open (h : Steady s) {i : Nat} {call : Call} {p : Point} {w : World}
    {st : Status} (here : s.threads[i]? = some ⟨call, .running p⟩)
    (goes : Goes setup s.world p w st) (open_ : s.world.controller.state.isOpen)
    (active : s.world.controller.active.isSome)
    (other : ∀ number offset chunk last, p ≠ .entry (.data number offset chunk last)) :
    w.files = s.world.files := by
  rcases goes.edits (h.stays i call p here) with hsame | hedits | ⟨hcleans, hfree⟩
  · exact hsame
  · obtain ⟨call', hrole⟩ := Role.sends_of_edits hedits (h.fits here) open_ active
    obtain ⟨number, offset, chunk, last, rfl⟩ := Point.data_of_edits hrole hedits
    exact absurd rfl (other number offset chunk last)
  · exact absurd (.inl open_) (h.clear i call p here hcleans hfree)

lemma gathering_of_none {directory : String} (h : s.world.controller.active = none) :
    s.Gathering directory := by
  intro u path handle hu
  rw [h] at hu
  cases hu

lemma gathering_of_shut {directory : String} (h : ¬ s.world.controller.state.isOpen) :
    s.Gathering directory := fun _ _ _ _ _ hopen => absurd hopen h

lemma System.Gathering.mono {directory : String} (h : s.Gathering directory)
    (extends_ : s.Extends t) (controller : t.world.controller = s.world.controller)
    (same : s.world.controller.state.isOpen → s.world.controller.active.isSome →
      t.world.files = s.world.files ∧ ∀ g, t.chunks g = s.chunks g) : t.Gathering directory := by
  intro u path handle hu hdelivery hopen
  rw [controller] at hu hopen ⊢
  obtain ⟨hnamed, hgathers⟩ := h u path handle hu hdelivery hopen
  obtain ⟨hfiles, hchunks⟩ := same hopen (by rw [hu]; rfl)
  rw [hfiles, hchunks]
  exact ⟨extends_.named hnamed, hgathers⟩

/-- A call that brings a chunk leaves the file with it, or ends the update. -/
lemma DataStep.gathering {directory : String} {i number offset : Nat} {chunk : Bytes} {last : Bool}
    {call : Call} {w : World} {st : Status}
    (step : DataStep s.world number offset chunk last w st) (h : s.Gathering directory)
    (hx : s.Extends (s.moved i call (.entry (.data number offset chunk last)) w st)) :
    (s.moved i call (.entry (.data number offset chunk last)) w st).Gathering directory := by
  cases step with
  | refused code =>
    refine h.mono hx rfl fun _ _ => ⟨rfl, fun g => ?_⟩
    rw [chunks_moved]
    simp [Event.of?]
  | failed code takes delivery kept => exact gathering_of_none rfl
  | @written u path handle handle' files takes delivery write more =>
    intro v path' handle'' hv hdelivery hopen
    obtain ⟨hnamed, hgathers⟩ := h u path handle takes.active delivery takes.open_
    obtain rfl : u.grown chunk (.staged path (some handle')) = v := Option.some.inj hv
    obtain ⟨rfl, rfl⟩ : path = path' ∧ handle' = handle'' := by
      simpa [ActiveUpdate.grown] using hdelivery
    refine ⟨hx.named hnamed, ?_⟩
    change files.Gathers path handle' (System.chunks _ s.world.controller.generation)
    rw [chunks_moved]
    simpa [Event.of?, Event.chunkOf?] using hgathers.write write
  | finished takes delivery write final synced =>
    exact gathering_of_shut (by simp [System.moved, SessionState.isOpen])
  | @pushed u stream takes delivery =>
    intro v path handle hv hdelivery
    obtain rfl : u.grown chunk (.streaming stream) = v := Option.some.inj hv
    simp [ActiveUpdate.grown] at hdelivery

lemma Goes.gathering {directory : String} {i : Nat} {call : Call} {p : Point} {w : World}
    {st : Status} (goes : Goes setup s.world p w st) (steady : Steady s)
    (here : s.threads[i]? = some ⟨call, .running p⟩) (h : Stock directory s) :
    (s.moved i call p w st).Gathering directory := by
  have hx : s.Extends (s.moved i call p w st) := moved_extends goes
  have hp := h.points i call p here
  -- a call that brings no chunk leaves the file alone
  have hkept (hother : ∀ number offset chunk last, p ≠ .entry (.data number offset chunk last))
      (hcontroller : w.controller = s.world.controller) :
      (s.moved i call p w st).Gathering directory := by
    refine h.active.mono hx hcontroller fun hopen hactive => ⟨?_, fun g => ?_⟩
    · exact steady.files_of_open here goes hopen hactive hother
    · rw [chunks_moved]
      cases hlog : Event.of? s.world p w st with
      | none => simp
      | some e =>
        cases goes.tells hlog with
        | received _ _ => exact absurd rfl (hother _ _ _ _)
        | _ => simp [Event.chunkOf?]
  -- and one that only releases the update leaves no file
  have hreleased (hother : ∀ number offset chunk last, p ≠ .entry (.data number offset chunk last))
      (h : w.controller = s.world.controller ∨ w.controller.active = none) :
      (s.moved i call p w st).Gathering directory := by
    rcases h with hsame | hnone
    · exact hkept hother hsame
    · exact gathering_of_none hnone
  cases goes with
  | request h' =>
    cases h' with
    | refused code => exact hkept (by simp) rfl
    | accepted known name free goes => exact gathering_of_none rfl
  | data h' => exact h'.gathering h.active hx
  | cancel h' =>
    cases h' with
    | ignored => exact hkept (by simp) rfl
    | _ => exact gathering_of_shut (by simp [System.moved, SessionState.isOpen])
  | reset h' =>
    cases h' with
    | refused decision unscheduled => exact hkept (by simp) rfl
    | begun done path => exact gathering_of_shut (by simp [System.moved, SessionState.isOpen])
  | setupFailed => exact hreleased (by simp) (Controller.releaseIfCurrent_or _ _)
  | released => exact hreleased (by simp) (Controller.releaseIfCurrent_or _ _)
  | @settled g target delivery owner =>
    have hg := (Controller.owns_iff.mp owner).1
    intro u path handle hu hdelivery hopen
    obtain rfl : ⟨target, 0, delivery⟩ = u := Option.some.inj hu
    obtain rfl : delivery = .staged path (some handle) := hdelivery
    obtain ⟨hnamed, hchunks, hgathers⟩ := hp
    change System.Named _ directory s.world.controller.generation target path ∧
      s.world.files.Gathers path handle (System.chunks _ s.world.controller.generation)
    rw [hg, chunks_moved, hchunks]
    exact ⟨hx.named hnamed, hgathers⟩
  | pushFailed =>
    refine hreleased (by simp) ?_
    dsimp only
    split
    · exact .inr rfl
    · exact .inl rfl
  | handed owner => exact gathering_of_shut (by simp [System.moved, SessionState.isOpen])
  | recorded current => exact hreleased (by simp) (Controller.conclude_or _ _ _)
  | givenUp lost => exact hreleased (by simp) (Controller.conclude_or _ _ _)
  | takenBack lost => exact hreleased (by simp) (Controller.conclude_or _ _ _)
  | @resetDone scheduled =>
    refine gathering_of_shut ?_
    cases scheduled <;> simp [System.moved, SessionState.isOpen]
  | bootLayout => exact hkept (by simp) rfl
  | inside wraps hmove => exact hkept (by cases wraps <;> simp) rfl
  | _ => exact hkept (by simp) rfl

/-! ### What is known after runs -/

/-- A name that is accepted is the last to walk through. -/
lemma components_of_acceptable (directory : String) {name : String}
    (h : acceptableFileName name) :
    ∃ names, Path.components (Path.join directory name) = names ++ [name] := by
  refine Path.components_join directory (not_slash_of_acceptable h) fun hempty => ?_
  rw [String.toList_eq_nil_iff] at hempty
  simp [acceptableFileName, hempty] at h

theorem Stock.step {directory : String} (dir : setup.config.downloadDirectory = directory)
    (keeps : around.KeepsFiles) (steady : Steady s) (h : Stock directory s)
    (step : Step setup around s t) : Stock directory t := by
  have hpoints : t.All fun _ _ p => p.Stocked t directory := by
    refine h.points.step step ?_ (fun _ _ => trivial) ?_ ?_ ?_
    · intro i call p here beside hp
      exact Stock.stays steady keeps here step beside hp
    · rintro i call p w p' - goes rfl hp
      exact goes.stocked dir h hp
    · exact fun _ _ _ a hp => resume_stocked a hp
    · exact fun _ _ _ hp => wake_stocked hp
  obtain hquiet | ⟨i, call, p, w, st, here, goes, rfl⟩ := step.quiet_or_goes
  · refine ⟨?_, hpoints, ?_⟩
    · intro g chunk last hlogged
      rw [hquiet.controller]
      exact h.past g chunk last (hquiet.logged hlogged (by simp))
    · exact h.active.mono step.extends hquiet.controller fun _ _ =>
        ⟨hquiet.files_eq keeps, hquiet.chunks_eq⟩
  · refine ⟨?_, hpoints, goes.gathering steady here h⟩
    have hle : s.world.controller.generation ≤ w.controller.generation := by
      rcases goes.control.generation_cases with hsame | hnext
      · exact Nat.le_of_eq hsame.symm
      · omega
    rintro g chunk last ⟨k, hk⟩
    rcases mem_moved.mp hk with ⟨-, hlog⟩ | hold
    · generalize he : Event.received g chunk last = e at hlog
      cases goes.tells hlog with
      | received _ _ =>
        cases he
        exact hle
      | _ => cases he
    · exact Nat.le_trans (h.past g chunk last ⟨k, hold⟩) hle

/-- The package fits its manifest after the manifest was removed, or it is gone. -/
lemma System.Assembled.fits_iff_exists {directory package file : String} {g : Nat}
    {files : FileSystem} {m : Manifest} (h : s.Assembled directory g package files file m) :
    m.Fits ((files.removeIfPossible (Path.join directory file)).read package) ↔
      (files.removeIfPossible (Path.join directory file)).exists? package := by
  obtain ⟨content, hread, hsize, hcrc⟩ := h.fits
  rcases files.removeIfPossible_keeps (Path.join directory file) package with hkeeps | hgone
  · obtain ⟨i, hfind, -⟩ := FileSystem.find_of_read hread
    constructor
    · intro _
      rw [FileSystem.exists?, hkeeps.find, hfind]
    · intro _
      exact ⟨content, hkeeps.read.trans hread, hsize, hcrc⟩
  · constructor
    · rintro ⟨content', hread', -⟩
      rw [FileSystem.read, hgone] at hread'
      cases hread'
    · intro hexists
      rw [FileSystem.exists?, hgone] at hexists
      cases hexists

/-- It is gone exactly if both have one name, apart from links. -/
lemma System.Assembled.fits_iff_names {directory package file : String} {g : Nat}
    {files : FileSystem} {m : Manifest} (h : s.Assembled directory g package files file m)
    (link : files.isLink (Path.join directory file) = false)
    (link' : files.isLink package = false) :
    m.Fits ((files.removeIfPossible (Path.join directory file)).read package) ↔
      file ≠ m.packageFileName := by
  obtain ⟨content, hread, hsize, hcrc⟩ := h.fits
  obtain ⟨hslash, hempty, hdot, hdots⟩ := h.describes.packageFileName
  obtain ⟨names, hnames⟩ := Path.components_join directory hslash hempty
  rw [h.path] at hread link' ⊢
  constructor
  · rintro ⟨content', hread', -⟩ rfl
    have hgone := FileSystem.find_removeIfPossible_self hnames ⟨hdot, hdots⟩ link' hread
    rw [FileSystem.read, hgone] at hread'
    cases hread'
  · intro hne
    obtain ⟨names', hnames'⟩ := components_of_acceptable directory h.name
    have hkeeps := FileSystem.keeps_removeIfPossible hnames' hnames hne (by simp [link])
      (by simp [link']) hread
    exact ⟨content, hkeeps.read.trans hread, hsize, hcrc⟩

/-- Whatever calls come in, if no request is accepted before the cleanup of the update before is
done: a package that goes to the install is what came for its update, or was assembled by the
manifest that came and had the size and the checksum of the manifest. When the manifest was removed
after that, the package either stayed as it was or is gone. It is gone exactly if it has the name
that the manifest was stored under, apart from links in place of the two. -/
theorem handed_package_verified_iff {files : FileSystem} {layout : Option BootLayout} {w : World}
    {d : σ} (built : setup.build files layout = .ok w) (fair : around.Fair)
    (keeps : around.KeepsFiles) (run : PatientRun setup around (System.fresh w d) s) {i g : Nat}
    {call : Call} {target : Target} {package : String}
    (here : s.threads[i]? = some ⟨call, .running (.checking g target package)⟩) :
    (target = .system → s.world.files.read package = .ok (s.chunks g)) ∧
      (target = .manifest → ∃ files file m,
        s.Assembled setup.config.downloadDirectory g package files file m ∧
        (m.Fits (s.world.files.read package) ↔ s.world.files.exists? package) ∧
        (files.isLink (Path.join setup.config.downloadDirectory file) = false →
          files.isLink package = false →
            (m.Fits (s.world.files.read package) ↔ file ≠ m.packageFileName))) := by
  have hfresh := build_controller built
  obtain ⟨-, hstock⟩ := run.keeps (steady_fresh fair w d hfresh)
    (stock_fresh setup.config.downloadDirectory w d hfresh)
    fun hsteady hstock step _ => hstock.step rfl keeps hsteady step
  have hp := hstock.points i call _ here
  constructor
  · rintro rfl
    exact hp
  · rintro rfl
    obtain ⟨files, file, m, hassembled, hfiles⟩ := hp
    rw [hfiles]
    exact ⟨files, file, m, hassembled, hassembled.fits_iff_exists, hassembled.fits_iff_names⟩

end

/-! ### Two runs -/

/-- What the call is about to hand over: its update, the target, and the package. -/
def Point.package? : Point → Option (Nat × Target × String)
  | .checking generation target package => some (generation, target, package)
  | _ => none

lemma checking_of_package? {σ : Type} {s : System σ} {i g : Nat} {target : Target}
    {package : String} (h : (s.point? i).bind Point.package? = some (g, target, package)) :
    ∃ call, s.threads[i]? = some ⟨call, .running (.checking g target package)⟩ := by
  obtain ⟨p, hp, hpackage⟩ := Option.bind_eq_some_iff.mp h
  unfold System.point? at hp
  split at hp
  · rename_i call p' hthread
    obtain rfl : p' = p := by simpa using hp
    cases p' with
    | checking g' target' package' =>
      obtain ⟨rfl, rfl, rfl⟩ : g' = g ∧ target' = target ∧ package' = package := by
        simpa [Point.package?] using hpackage
      exact ⟨call, hthread⟩
    | _ => simp [Point.package?] at hpackage
  · simp at hp

namespace Small

/-- An archive that holds the four bytes of `data` as `img.swu`. -/
def archive : Bytes :=
  [80, 75, 3, 4, 20, 0, 0, 0, 0, 0, 0, 0, 0, 0, 99, 243, 243, 173, 4, 0, 0, 0, 4, 0, 0, 0, 7, 0,
    0, 0, 105, 109, 103, 46, 115, 119, 117, 100, 97, 116, 97, 80, 75, 1, 2, 20, 0, 20, 0, 0, 0, 0,
    0, 0, 0, 0, 0, 99, 243, 243, 173, 4, 0, 0, 0, 4, 0, 0, 0, 7, 0, 0, 0, 0, 0, 0, 0, 0, 0, 0, 0,
    0, 0, 0, 0, 0, 0, 105, 109, 103, 46, 115, 119, 117, 80, 75, 5, 6, 0, 0, 0, 0, 1, 0, 1, 0, 53, 0,
    0, 0, 41, 0, 0, 0, 0, 0]

/-- The manifest of the package `img.swu` in this one archive. -/
def manifestText : String :=
  "size=4\nfragments=1\nname=img\nchecksum=2918445923\nsrc_dir=dl\n"

def manifest : Manifest := ⟨4, 1, "img", 2918445923, "dl"⟩

/-- The archive is in the download directory. -/
def fragment : FileSystem :=
  ⟨#[.directory 0 [("dl", 1)], .directory 0 [("img0.zip", 2)], .file archive false],
    0, 0, 1000, none⟩

def fragmentFresh : System Unit := .fresh ⟨{}, ⟨fragment, .fixed .single⟩, #[]⟩ ()

/-- The manifest comes under a file name, and its package is assembled. -/
def assembling (file : String) : List Choice :=
  [.start (.request 1 file 59), .go 0, .go 0, .go 0, .go 0,
    .start (.data 1 0 (Text.encodeUtf8 manifestText) true), .go 1, .go 1, .go 1]

def afterAssembly (file : String) : System Unit :=
  (follow? fragmentFresh (assembling file)).getD fragmentFresh

lemma run_afterAssembly {file : String} (h : (follow? fragmentFresh (assembling file)).isSome) :
    Run setup sequential fragmentFresh (afterAssembly file) := by
  obtain ⟨s, hs⟩ := Option.isSome_iff_exists.mp h
  rw [afterAssembly, hs]
  exact run_of_follow hs

lemma sequential_keepsFiles : sequential.KeepsFiles :=
  Surroundings.keepsFiles_of_answers (fun _ _ _ _ _ _ h => h) (fun _ _ _ => rfl) fun _ _ _ _ => id

end Small

/-- A manifest under a name of its own hands over the package that it describes. -/
theorem named_manifest_hands_package :
    ∃ m, Manifest.Describes m ((Small.afterAssembly "m").chunks 1) ∧
      m.Fits ((Small.afterAssembly "m").world.files.read "dl/img.swu") := by
  have hbuilt : Small.setup.build Small.fragment (some .single) =
      .ok ⟨{}, ⟨Small.fragment, .fixed .single⟩, #[]⟩ := rfl
  obtain ⟨hsome, hpackage, hexists⟩ :
      (Small.follow? Small.fragmentFresh (Small.assembling "m")).isSome ∧
      ((Small.afterAssembly "m").point? 1).bind Point.package? =
        some (1, .manifest, "dl/img.swu") ∧
      (Small.afterAssembly "m").world.files.exists? "dl/img.swu" := by
    decide +kernel
  have hrun := Run.patient (sequential_inTurn _) (Small.run_afterAssembly hsome)
  obtain ⟨call, here⟩ := checking_of_package? hpackage
  obtain ⟨files, file, m, hassembled, hfits, -⟩ := (handed_package_verified_iff hbuilt
    (.inl (sequential_oneSender _)) Small.sequential_keepsFiles hrun here).2 rfl
  exact ⟨m, hassembled.describes, hfits.mpr hexists⟩

/-- A manifest that comes under the name of its package takes it along when it is removed: the
install gets a package that is not there. -/
theorem misnamed_manifest_hands_nothing :
    Run Small.setup Small.sequential Small.fragmentFresh (Small.afterAssembly "img.swu") ∧
      ((Small.afterAssembly "img.swu").point? 1).bind Point.package? =
        some (1, .manifest, "dl/img.swu") ∧
      (Small.afterAssembly "img.swu").world.controller.owns 1 = true ∧
      Small.manifest.Describes ((Small.afterAssembly "img.swu").chunks 1) ∧
      (Small.afterAssembly "img.swu").world.files.exists? "dl/img.swu" = false ∧
      ¬ Small.manifest.Fits ((Small.afterAssembly "img.swu").world.files.read "dl/img.swu") := by
  -- one evaluation of the run for all that is read off it
  obtain ⟨hsome, hpackage, howner, hchunks, hgone⟩ :
      (Small.follow? Small.fragmentFresh (Small.assembling "img.swu")).isSome ∧
      ((Small.afterAssembly "img.swu").point? 1).bind Point.package? =
        some (1, .manifest, "dl/img.swu") ∧
      (Small.afterAssembly "img.swu").world.controller.owns 1 = true ∧
      Text.decodeUtf8? ((Small.afterAssembly "img.swu").chunks 1) = some Small.manifestText ∧
      (Small.afterAssembly "img.swu").world.files.exists? "dl/img.swu" = false := by
    decide +kernel
  refine ⟨Small.run_afterAssembly hsome, hpackage, howner,
    ⟨Small.manifestText, Small.fragment, hchunks, rfl⟩, hgone, ?_⟩
  rintro ⟨content, hread, -⟩
  obtain ⟨i, hfind, -⟩ := FileSystem.find_of_read hread
  rw [FileSystem.exists?, hfind] at hgone
  cases hgone

end DeviceUpdate.Session
