import DeviceUpdate.Proofs.Assembly
import DeviceUpdate.Proofs.Session.Effects
import DeviceUpdate.Proofs.Session.SingleBoot

/-!
# The files of an update

An update has its files in the download directory, under plain names, and none of them is a
directory. Each is known to the call that made it, or to the controller while more data may come.
-/

namespace DeviceUpdate.Session

open FileSystem (Tame Alike Named)

variable {σ : Type} {setup : Setup} {around : Surroundings σ} {s t : System σ}

/-! ### Paths -/

/-- A path that a file of an update may have: a plain name in the download directory. -/
def Stored (setup : Setup) (path : String) : Prop :=
  ∃ name : String, '/' ∉ name.toList ∧ name.toList ≠ [] ∧ name ≠ ".." ∧
    path = Path.join setup.config.downloadDirectory name

lemma name_of_acceptable {name : String} (h : acceptableFileName name) :
    '/' ∉ name.toList ∧ name.toList ≠ [] ∧ name ≠ ".." := by
  refine ⟨not_slash_of_acceptable h, ?_, ?_⟩
  · rintro hempty
    simp [acceptableFileName, String.toList_eq_nil_iff.mp hempty] at h
  · rintro rfl
    exact absurd h (by decide)

lemma stored_of_acceptable {name : String} (h : acceptableFileName name) :
    Stored setup (Path.join setup.config.downloadDirectory name) := by
  obtain ⟨hslash, hempty, hup⟩ := name_of_acceptable h
  exact ⟨name, hslash, hempty, hup, rfl⟩

lemma stored_of_describes {content : Bytes} {m : Manifest} (h : m.Describes content) :
    Stored setup (Path.join setup.config.downloadDirectory m.packageFileName) := by
  obtain ⟨hslash, hempty, -, hup⟩ := h.packageFileName
  exact ⟨_, hslash, hempty, hup, rfl⟩

namespace Stored

variable {path other : String}

lemma inDownloads (h : Stored setup path) : InDownloads setup path := by
  obtain ⟨name, hslash, -, -, rfl⟩ := h
  exact ⟨name, hslash, rfl⟩

lemma named (h : Stored setup path) : Named path := by
  obtain ⟨name, hslash, hempty, hup, rfl⟩ := h
  obtain ⟨names, hnames⟩ := Path.components_join setup.config.downloadDirectory hslash hempty
  exact ⟨names, name, hnames, hup⟩

/-- What stands at a path is kept when a file at another one is removed, unless the path is a link
that leads there. -/
lemma stands_of_removed {fs : FileSystem} (h : Stored setup path) (h' : Stored setup other)
    (ne : path ≠ other) (plain : fs.Plain path)
    (apart : fs.isLink other = true → fs.find other ≠ fs.find path) (stands : fs.Stands other) :
    (fs.removeIfPossible path).Stands other := by
  obtain ⟨name, hslash, hempty, -, rfl⟩ := h
  obtain ⟨name', hslash', hempty', -, rfl⟩ := h'
  obtain ⟨names, hnames⟩ := Path.components_join setup.config.downloadDirectory hslash hempty
  obtain ⟨names', hnames'⟩ := Path.components_join setup.config.downloadDirectory hslash' hempty'
  obtain ⟨bytes, hread⟩ := FileSystem.stands_iff_read.mp stands
  have hne : name ≠ name' := by
    rintro rfl
    exact ne rfl
  have hkeeps :=
    FileSystem.keeps_removeIfPossible hnames hnames' hne (fun _ => plain) apart hread
  exact FileSystem.stands_iff_read.mpr ⟨bytes, hkeeps.read.trans hread⟩

end Stored

/-- The same names lead to the same files in the download directory. What these hold may differ. -/
structure SameNames (setup : Setup) (files files' : FileSystem) : Prop where
  find : ∀ path, InDownloads setup path → files'.find path = files.find path
  directory : ∀ path, InDownloads setup path → files'.isDirectory path = files.isDirectory path
  link : ∀ path, InDownloads setup path → files'.isLink path = files.isLink path

lemma SameNames.refl (files : FileSystem) : SameNames setup files files :=
  ⟨fun _ _ => rfl, fun _ _ => rfl, fun _ _ => rfl⟩

lemma SameNames.of_eq {files files' : FileSystem} (h : files' = files) :
    SameNames setup files files' := by
  rw [h]
  exact .refl files

lemma SameNames.there {files files' : FileSystem} {path : String}
    (h : SameNames setup files files') (stored : InDownloads setup path) :
    files'.exists? path = files.exists? path := by
  rw [FileSystem.exists?, FileSystem.exists?, h.find path stored]

lemma SameNames.stands {files files' : FileSystem} {path : String}
    (h : SameNames setup files files') (stored : InDownloads setup path)
    (stands : files.Stands path) : files'.Stands path :=
  ⟨(h.there stored).trans stands.1, (h.directory path stored).trans stands.2⟩

lemma SameNames.plain {files files' : FileSystem} {path : String}
    (h : SameNames setup files files') (stored : InDownloads setup path)
    (plain : files.Plain path) : files'.Plain path :=
  ⟨by rw [h.find path stored]; exact plain.1, (h.directory path stored).trans plain.2⟩

/-- Nobody but the calls makes, moves or removes files in the download directory. -/
structure Surroundings.KeepsNames (around : Surroundings σ) (setup : Setup) : Prop where
  answers : ∀ e d files a d' files', around.answers e d files a d' files' →
    SameNames setup files files'
  drifts : ∀ d files d' files', around.drifts d files d' files' → SameNames setup files files'

lemma Quiet.names (h : Quiet around s t) (keeps : around.KeepsNames setup) :
    SameNames setup s.world.files t.world.files := by
  rcases h.files with hsame | ⟨e, a, hanswer⟩ | hdrift
  · exact .of_eq hsame
  · exact keeps.answers _ _ _ _ _ _ hanswer
  · exact keeps.drifts _ _ _ _ hdrift

/-! ### Which call minds a file -/

/-- A call at this point knows the file at the path to be one of its update, and has not removed
it yet. -/
def Point.Minds (path : String) : Point → Prop
  | .settling _ _ (.staged file _) | .discarding _ (.staged file _) _ => file = path
  | .assembling _ _ manifest => manifest = path
  | .removingManifest _ _ manifest result => manifest = path ∨ result = .ok path
  | .checking _ _ package | .dropping _ _ package | .installing _ _ package _
  | .installed _ _ package _ | .concluding _ _ _ (.withdraw package)
  | .withdrawing package _ => package = path
  | .removing file _ => file = path
  | _ => False

def Status.Minds (path : String) : Status → Prop
  | .running p => p.Minds path
  | .returned _ => False

lemma Point.Minds.resume {p : Point} {path : String} (h : p.Minds path) (a : Answer) :
    (p.resume a).Minds path := by
  cases p with
  | starting => exact h.elim
  | _ => exact h

lemma Point.Minds.wake {p : Point} {path : String} (h : p.Minds path) : p.wake.Minds path := by
  cases p <;> exact h

/-- A call that has not touched the controller minds no file. -/
lemma Point.Minds.not_entering {p : Point} {path : String} (h : p.Minds path) (call : Call) :
    p.role ≠ .entering call := by
  intro hrole
  rcases entry_of_entering hrole with rfl | rfl
  · exact h
  · cases p with
    | entry | pushing | stopping | asking => exact h
    | concluding g outcome result otherwise =>
      cases hm : outcome.mode <;> simp [Point.role, Role.ofOutcome, hm] at hrole
    | _ => cases hrole

/-- The files of a call at this point have plain names in the download directory. -/
def Point.Housed (setup : Setup) : Point → Prop
  | .choosing _ _ file _ _ | .checkingSpace _ _ file _ => acceptableFileName file
  | .creating _ _ path => Stored setup path
  | p => ∀ path, p.Minds path → Stored setup path

def Status.Housed (setup : Setup) : Status → Prop
  | .running p => p.Housed setup
  | .returned _ => True

lemma Point.Housed.minds {p : Point} (h : p.Housed setup) (path : String) (minds : p.Minds path) :
    Stored setup path := by
  cases p with
  | choosing | checkingSpace | creating => exact minds.elim
  | _ => exact h path minds

/-- The file of the active update has a plain name in the download directory. -/
def Controller.Housed (setup : Setup) (c : Controller) : Prop :=
  ∀ u path file, c.active = some u → u.delivery = .staged path file → Stored setup path

lemma Goes.housed {w w' : World} {p : Point} {st : Status} (h : Goes setup w p w' st)
    (hp : p.Housed setup) (active : Controller.Housed setup w.controller) : st.Housed setup := by
  cases h with
  | request h =>
    cases h with
    | refused code => trivial
    | accepted known name free goes =>
      obtain ⟨-, rfl⟩ | rfl := goes <;> exact name
  | data h =>
    cases h with
    | failed code takes delivery kept =>
      rintro path rfl
      exact active _ _ _ takes.active delivery
    | finished takes delivery write final synced =>
      have hstored := active _ _ _ takes.active delivery
      generalize ActiveUpdate.target _ = target
      cases target <;> (rintro path rfl; exact hstored)
    | pushed takes delivery => rintro path ⟨⟩
    | _ => trivial
  | cancel h =>
    cases h with
    | @active u open_ update same =>
      rintro path hminds
      cases hd : u.delivery with
      | staged file handle =>
        rw [hd] at hminds
        obtain rfl : file = path := hminds
        exact active _ _ _ update hd
      | streaming stream =>
        rw [hd] at hminds
        exact hminds.elim
    | lateStream late update delivery => rintro path ⟨⟩
    | _ => trivial
  | reset h =>
    cases h with
    | refused decision unscheduled => trivial
    | begun done path =>
      generalize w.controller.outcome = outcome at path
      cases path <;> rintro path ⟨⟩
  | inside wraps h => cases wraps <;> exact hp
  | chosenDual => rintro path ⟨⟩
  | chosen other => exact hp
  | spaceFound free fits => exact stored_of_acceptable hp
  | created create =>
    rintro path rfl
    exact hp
  | @lost g target delivery lost => cases delivery <;> exact hp
  | @assembled g target manifest result files assembles =>
    rintro path (rfl | rfl)
    · exact hp _ rfl
    · obtain ⟨content, m, -, hdescribes, rfl, -⟩ := Assembly.assembleFromManifest_fits assembles
      exact stored_of_describes hdescribes
  | manifestRemoved =>
    rintro path rfl
    exact hp _ (.inr rfl)
  | handed owner => exact hp
  | unwanted lost => exact hp
  | installDone => exact hp
  | kept => exact hp
  | takenBack lost => exact hp
  | withdrawn => exact hp
  | settled | setupFailed | stopped | released | pushed | pushFailed | recorded | givenUp
  | removed | resetDone | asked => trivial
  | _ => rintro path ⟨⟩

/-- All files of updates have plain names in the download directory. -/
structure System.Housed (setup : Setup) (s : System σ) : Prop where
  points : s.All fun _ _ p => p.Housed setup
  active : Controller.Housed setup s.world.controller

theorem System.Housed.step (h : s.Housed setup) (step : Step setup around s t) :
    t.Housed setup := by
  constructor
  · refine h.points.step step (fun _ _ _ _ _ hp => hp) (fun call _ path => False.elim) ?_ ?_ ?_
    · rintro i call p w p' - goes rfl hp
      exact goes.housed hp h.active
    · intro i call p a hp
      cases p with
      | starting g target stream request => cases a <;> exact fun path => False.elim
      | _ => exact hp
    · intro i call p hp
      cases p <;> exact hp
  · intro u path file hu hd
    obtain hquiet | ⟨i, call, p, w, st, here, goes, rfl⟩ := step.quiet_or_goes
    · rw [hquiet.controller] at hu
      exact h.active u path file hu hd
    · obtain ⟨-, ⟨v, hv, -, hclosed⟩ | ⟨g, rfl, -⟩⟩ := goes.active_back hu
      · obtain ⟨file', hfile⟩ := Delivery.staged_of_closed hclosed hd
        exact h.active v path file' hv hfile
      · rw [hd] at here
        exact h.points i call _ here path rfl

lemma housed_fresh (w : World) (d : σ) (hw : w.controller = {}) :
    (System.fresh w d).Housed setup := by
  refine ⟨System.all_fresh w d, ?_⟩
  intro u path file hu
  simp [System.fresh, hw] at hu

/-! ### No directories -/

/-- A chunk changes the content of a file at most. -/
lemma DataStep.alike {w w' : World} {number offset : Nat} {chunk : Bytes} {last : Bool}
    {st : Status} (h : DataStep w number offset chunk last w' st) : Alike w.files w'.files := by
  cases h with
  | refused code => exact ⟨rfl, rfl, fun _ => rfl⟩
  | failed code takes delivery kept =>
    rcases kept with rfl | ⟨handle, handle', part, -, hwrite⟩
    · exact ⟨rfl, rfl, fun _ => rfl⟩
    · exact FileSystem.alike_of_write hwrite
  | written takes delivery write more => exact FileSystem.alike_of_write write
  | finished takes delivery write final synced => exact FileSystem.alike_of_write write
  | pushed takes delivery => exact ⟨rfl, rfl, fun _ => rfl⟩

/-- No call makes a directory. -/
lemma Goes.tame {w w' : World} {p : Point} {st : Status} (h : Goes setup w p w' st)
    (stays : p.Only Effect.Stays) : Tame w.files w'.files := by
  cases h with
  | request h => cases h <;> exact .refl _
  | data h => exact h.alike.tame
  | cancel h => cases h <;> exact .refl _
  | reset h => cases h <;> exact .refl _
  | @inside α wrap rest rest' shared wraps h =>
    have hfiles : shared.files = w.shared.files := by
      cases wraps <;> exact Procedure.Only.looks stays h
    intro path hdirectory
    rwa [← show shared.files = w.files from hfiles]
  | created create => exact FileSystem.tame_of_create create
  | assembled assembles => exact Assembly.tame_of_assembleFromManifest assembles
  | discardedFile | manifestRemoved | notAssembled | dropped | removed =>
    exact (FileSystem.wanes_removeIfPossible _ _).tame
  | used other => exact (FileSystem.wanes_removeIfPossible _ _).tame
  | _ => exact .refl _

lemma plain_step {path : String} (plain : s.world.files.isDirectory path = false)
    (stays : s.Stays) (keeps : around.KeepsNames setup) (stored : Stored setup path)
    (step : Step setup around s t) : t.world.files.isDirectory path = false := by
  obtain hquiet | ⟨i, call, p, w, st, here, goes, rfl⟩ := step.quiet_or_goes
  · rw [(hquiet.names keeps).directory path stored.inDownloads, plain]
  · exact (goes.tame (stays i call p here)).plain plain

end DeviceUpdate.Session
