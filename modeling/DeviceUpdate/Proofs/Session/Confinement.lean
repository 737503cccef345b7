import DeviceUpdate.Proofs.Assembly.Traces
import DeviceUpdate.Proofs.Session.Downloads

/-!
# Names stay in their directory

The file name of a request and the names in a manifest come from outside. Joined to a directory,
each of them is one name more under that directory. So whatever the calls on a controller do, they
open and remove only files right in the download directory, and fragments right in the source
directory of the manifest that they assemble.
-/

namespace DeviceUpdate

open FileSystem (Edits)

/-- The node that the active update writes to. -/
def Controller.MayWrite (c : Controller) (n : Nat) : Prop :=
  ∃ u path handle, c.active = some u ∧ u.delivery = .staged path (some handle) ∧ handle.node = n

namespace Session

variable {setup : Setup}

/-! ### Names that name a file -/

/-- A file that was opened is not its directory. -/
lemma Stored.child_of_create {path : String} {fs fs' : FileSystem} {h : Handle}
    (stored : Stored setup path) (create : fs.create path = .ok (h, fs')) :
    Path.Child setup.config.downloadDirectory path := by
  obtain ⟨name, hslash, hempty, hup, rfl⟩ := stored
  refine Path.child_join _ ⟨hslash, hempty, ?_, hup⟩
  rintro rfl
  obtain ⟨names, hlast⟩ := Path.components_join setup.config.downloadDirectory hslash hempty
  obtain ⟨hexists, hplain⟩ := FileSystem.stands_of_create create
  obtain ⟨i, hfind⟩ := FileSystem.exists?_iff.mp hexists
  obtain ⟨entry, hfound⟩ := FileSystem.resolve_of_find hfind
  obtain ⟨parent, lookup, hview⟩ := FileSystem.directory_of_resolve hlast hfound
  rw [FileSystem.isDirectory_iff.mpr ⟨i, parent, lookup, hfind, hview⟩] at hplain
  cases hplain

/-- A file that was removed is not its directory. -/
lemma Stored.child_of_remove {path : String} {fs fs' : FileSystem} (stored : Stored setup path)
    (remove : fs.remove path = .ok fs') : Path.Child setup.config.downloadDirectory path := by
  obtain ⟨name, hslash, hempty, hup, rfl⟩ := stored
  refine Path.child_join _ ⟨hslash, hempty, ?_, hup⟩
  rintro rfl
  obtain ⟨names, hlast⟩ := Path.components_join setup.config.downloadDirectory hslash hempty
  obtain ⟨i, d, name, hfound, hfile, -⟩ := FileSystem.lacks_of_remove remove
  obtain ⟨parent, lookup, hview⟩ := FileSystem.directory_of_resolve hlast hfound
  obtain ⟨entries, hnode, -⟩ := FileSystem.view_directory hview
  exact hfile parent entries hnode

/-! ### What calls do to files -/

/-- The paths that a call at this point may remove: files of updates, and the fragments of the
manifest that it assembles. -/
def Point.MayRemove (setup : Setup) (files : FileSystem) (p : Point) (path : String) : Prop :=
  Path.Child setup.config.downloadDirectory path ∨
    ∃ g target manifest m, p = .assembling g target manifest ∧
      Manifest.load files manifest = .ok m ∧ Path.Child m.sourceDirectory path ∧
      ∃ i < m.fragmentCount, path = (m.fragment i).path

variable {w w' : World} {p : Point} {st : Status} {held : Nat → Prop}

lemma Stored.edits_remove {path : String} (stored : Stored setup path) :
    Edits (Path.Child setup.config.downloadDirectory) (p.MayRemove setup w.files) held w.files
      (w.files.removeIfPossible path) :=
  .removeIfPossible fun _ hremove => .inl (stored.child_of_remove hremove)

/-- Assembly opens the package, and removes it and the fragments of the manifest. -/
lemma edits_of_assemble {g : Nat} {target : Target} {manifest : String} {files : FileSystem}
    {result : Except UpdateError String}
    (assembles : setup.assemble w.files manifest = (result, files)) :
    Edits (Path.Child setup.config.downloadDirectory)
      ((Point.assembling g target manifest).MayRemove setup w.files) held w.files files := by
  unfold Setup.assemble Assembly.assembleFromManifest at assembles
  cases hplan : Assembly.planFor w.files manifest setup.config.downloadDirectory with
  | error e =>
    rw [hplan] at assembles
    obtain ⟨-, rfl⟩ := Prod.mk.inj assembles
    exact .done
  | ok plan =>
    rw [hplan] at assembles
    obtain ⟨m, free, hload, -, -, rfl⟩ := Assembly.planFor_eq_ok_iff.mp hplan
    have hplain := Assembly.plain_of_load hload
    have hpackage : Path.Child setup.config.downloadDirectory
        (m.packagePath setup.config.downloadDirectory) :=
      Path.child_join _ (Manifest.single_packageFileName hplain)
    have hfragment {path : String}
        (uses : Assembly.Uses (m.plan setup.config.downloadDirectory).fragments path) :
        (Point.assembling g target manifest).MayRemove setup w.files path := by
      obtain ⟨f, hf, rfl⟩ := uses
      obtain ⟨i, hi, rfl⟩ := Manifest.mem_plan_fragments.mp hf
      exact .inr ⟨g, target, manifest, m, rfl, hload,
        Path.child_join _ (Manifest.single_fragmentFileName hplain i), i, hi, rfl⟩
    rcases Assembly.edits_of_assemble assembles with ⟨e, -, -, rfl⟩ | ⟨h, fs₁, hcreate, hedits⟩
    · exact Assembly.edits_removeAll fun f hf => hfragment ⟨f, hf, rfl⟩
    · refine .opened hpackage hcreate (hedits.mono (fun _ => id) ?_ fun n hn => .inr hn)
      rintro path (rfl | huses)
      · exact .inl hpackage
      · exact hfragment huses

/-- A chunk is written to the file of the active update. -/
lemma DataStep.edits {number offset : Nat} {chunk : Bytes} {last : Bool}
    (h : DataStep w number offset chunk last w' st) :
    Edits (Path.Child setup.config.downloadDirectory) (p.MayRemove setup w.files)
      w.controller.MayWrite w.files w'.files := by
  cases h with
  | refused code => exact .done
  | @failed u path file files code takes delivery kept =>
    rcases kept with rfl | ⟨handle, handle', part, rfl, hwrite⟩
    · exact .done
    · exact .written ⟨u, path, handle, takes.active, delivery, rfl⟩ hwrite .done
  | @written u path handle handle' files takes delivery write more =>
    exact .written ⟨u, path, handle, takes.active, delivery, rfl⟩ write .done
  | @finished u path handle handle' files takes delivery write final synced =>
    exact .written ⟨u, path, handle, takes.active, delivery, rfl⟩ write .done
  | pushed takes delivery => exact .done

/-- A call that goes on opens and removes only such files, and writes only to the file of the
active update or what it opened itself. -/
theorem Goes.confined (h : Goes setup w p w' st) (stays : p.Only Effect.Stays)
    (housed : p.Housed setup) :
    Edits (Path.Child setup.config.downloadDirectory) (p.MayRemove setup w.files)
      w.controller.MayWrite w.files w'.files := by
  cases h with
  | request h => cases h <;> exact .done
  | data h => exact h.edits
  | cancel h => cases h <;> exact .done
  | reset h => cases h <;> exact .done
  | @inside α wrap rest rest' shared wraps h =>
    have hfiles : shared.files = w.shared.files := by
      cases wraps <;> exact Procedure.Only.looks stays h
    show Edits _ _ _ w.shared.files shared.files
    rw [hfiles]
    exact .done
  | created create => exact .opened (Stored.child_of_create housed create) create .done
  | discardedFile => exact (housed _ rfl).edits_remove
  | assembled assembles => exact edits_of_assemble assembles
  | manifestRemoved => exact (housed _ (.inl rfl)).edits_remove
  | notAssembled => exact (housed _ (.inl rfl)).edits_remove
  | dropped => exact (housed _ rfl).edits_remove
  | used other => exact (housed _ rfl).edits_remove
  | removed => exact (housed _ rfl).edits_remove
  | _ => exact .done

/-- Names from outside stay in their directory. The file name of a request is one name more under
any directory, or stands for the directory itself; the package and the fragments of a manifest are
right in their directories. Over every run, each step of a call opens only files right in the
download directory, and removes only such files and fragments right in the source directory of the
manifest that it assembles. -/
theorem names_stay_inside :
    (∀ directory name, acceptableFileName name →
      Path.Under directory (Path.join directory name) name ∧ (Path.Single name ∨ name = ".")) ∧
    (∀ fs text m, Manifest.ofText fs text = .ok m →
      (∀ directory, Path.Under directory (m.packagePath directory) m.packageFileName) ∧
      Path.Single m.packageFileName ∧
      ∀ i, Path.Under m.sourceDirectory (m.fragment i).path (m.fragmentFileName i) ∧
        Path.Single (m.fragmentFileName i)) ∧
    ∀ {σ : Type} {setup : Setup} {around : Surroundings σ} {files : FileSystem}
      {layout : Option BootLayout} {w : World} {d : σ} {s : System σ},
      setup.build files layout = .ok w → Run setup around (System.fresh w d) s →
      ∀ (i : Nat) (call : Call) (p : Point) (v : World) (st : Status),
        s.threads[i]? = some ⟨call, .running p⟩ →
        (p.move setup s.world).result? = some (v, st) →
        Edits (Path.Child setup.config.downloadDirectory) (p.MayRemove setup s.world.files)
          s.world.controller.MayWrite s.world.files v.files := by
  refine ⟨fun directory name hname => ?_, fun fs text m htext => ?_,
    fun built run i call p v st here goes => ?_⟩
  · obtain ⟨hslash, hempty, hup⟩ := name_of_acceptable hname
    refine ⟨Path.under_join directory hslash hempty, ?_⟩
    by_cases hdot : name = "."
    · exact .inr hdot
    · exact .inl ⟨hslash, hempty, hdot, hup⟩
  · have hplain := (Manifest.sound_of_ofText htext).2
    have hpackage := Manifest.single_packageFileName hplain
    refine ⟨fun directory => Path.under_join directory hpackage.slash hpackage.nonempty, hpackage,
      fun i => ?_⟩
    have hfragment := Manifest.single_fragmentFileName hplain i
    exact ⟨Path.under_join _ hfragment.slash hfragment.nonempty, hfragment⟩
  · have hstays := run.keeps (System.all_fresh _ _) fun h step => step.stays h
    have hhoused := run.keeps (housed_fresh _ _ (build_controller built)) fun h step => h.step step
    exact (goes_of_move goes).confined (hstays i call p here) (hhoused.points i call p here)

/-- A request, until its file is about to be opened. -/
def Small.toCreate : List Choice := [.start (.request 0 "a.swu" 4), .go 0, .go 0]

def Small.beforeCreate : System Unit :=
  (Small.follow? (Small.fresh .dual) Small.toCreate).getD (Small.fresh .dual)

/-- A request opens the file that it names in the download directory. -/
theorem request_opens_in_downloads :
    ∃ v st, ((Point.creating 1 .system "dl/a.swu").move Small.setup
        Small.beforeCreate.world).result? = some (v, st) ∧
      Small.beforeCreate.world.files.exists? "dl/a.swu" = false ∧
      v.files.exists? "dl/a.swu" = true ∧
      Edits (Path.Child "dl")
        ((Point.creating 1 .system "dl/a.swu").MayRemove Small.setup Small.beforeCreate.world.files)
        Small.beforeCreate.world.controller.MayWrite Small.beforeCreate.world.files v.files := by
  have hbuilt : Small.setup.build Small.files (some .dual) = .ok (Small.world .dual) := rfl
  have hrun : Run Small.setup Small.sequential (Small.fresh .dual) Small.beforeCreate :=
    Small.run_of_follow
      (rfl : Small.follow? (Small.fresh .dual) Small.toCreate = some Small.beforeCreate)
  have here : Small.beforeCreate.threads[0]? =
      some ⟨.request 0 "a.swu" 4, .running (.creating 1 .system "dl/a.swu")⟩ := rfl
  exact ⟨_, _, rfl, rfl, rfl, names_stay_inside.2.2 hbuilt hrun 0 _ _ _ _ here rfl⟩

end Session

end DeviceUpdate
