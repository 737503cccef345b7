import DeviceUpdate.Archive.Zip
import DeviceUpdate.Proofs.Assembly
import Mathlib.Logic.Basic

/-!
# All or nothing

Assembly either refuses before it has touched anything, or it uses all fragments up: none of them
is there afterwards, and the package is there if it is complete. Nothing else changes. The changes
that assembly makes are listed once, as `Edits`, and what they spare is read off that list.
-/

namespace DeviceUpdate

open FileSystem (Edits Spares Wanes Named)

variable {fs fs' : FileSystem}

namespace Assembly

variable {archives : Archive.Reader} {manifest directory : String}
  {opens removes : String → Prop} {held : Nat → Prop} {plan : AssemblyPlan}
  {fragments : List Fragment} {entry : String} {h : Handle}

/-! ### What assembly changes -/

lemma edits_of_append {f : Fragment} {result : Except UpdateError Handle} (on : held h.node)
    (append : append fs h f entry = (result, fs')) :
    Edits opens removes held fs fs' ∧ ∀ h', result = .ok h' → h'.node = h.node := by
  unfold Assembly.append at append
  split at append
  · obtain ⟨rfl, rfl⟩ := Prod.mk.inj append
    exact ⟨.done, by simp⟩
  · split at append
    · obtain ⟨rfl, rfl⟩ := Prod.mk.inj append
      exact ⟨.done, by simp⟩
    · dsimp only at append
      split at append
      · obtain ⟨rfl, rfl⟩ := Prod.mk.inj append
        obtain ⟨part, h', hwrite⟩ := FileSystem.write_of_spill fs h _
        exact ⟨.written on hwrite .done, by simp⟩
      · rename_i hwrite
        have hnode := FileSystem.node_of_write hwrite
        split at append <;>
        · obtain ⟨rfl, rfl⟩ := Prod.mk.inj append
          refine ⟨.written on hwrite .done, ?_⟩
          simp [hnode]

lemma edits_removeAll (may : ∀ f ∈ fragments, removes f.path) :
    Edits opens removes held fs (removeAll fs fragments) := by
  induction fragments generalizing fs with
  | nil => exact .done
  | cons f rest ih =>
    exact (Edits.removeIfPossible fun _ _ => may f (by simp)).trans
      (ih fun g hg => may g (by simp [hg]))

lemma edits_of_appendAll {result : Except UpdateError Handle} (on : held h.node)
    (may : ∀ f ∈ fragments, removes f.path)
    (all : appendAll entry fs h fragments = (result, fs')) : Edits opens removes held fs fs' := by
  induction fragments generalizing fs h with
  | nil =>
    obtain ⟨-, rfl⟩ := Prod.mk.inj all
    exact .done
  | cons f rest ih =>
    simp only [appendAll] at all
    split at all
    · rename_i happend
      obtain ⟨-, rfl⟩ := Prod.mk.inj all
      exact (edits_of_append on happend).1.trans (edits_removeAll may)
    · rename_i h' fs₁ happend
      obtain ⟨hedits, hnode⟩ := edits_of_append on happend
      have hrest := ih (by rwa [hnode h' rfl]) (fun g hg => may g (by simp [hg])) all
      exact hedits.trans ((Edits.removeIfPossible fun _ _ => may f (by simp)).trans hrest)

/-- The paths of the fragments. -/
def Uses (fragments : List Fragment) (path : String) : Prop := ∃ f ∈ fragments, path = f.path

/-- What assembly changes: without a package to write to the fragments go away, otherwise the
package is written, and it and the fragments may be removed. -/
theorem edits_of_assemble {result : Except UpdateError String}
    (assembles : assemble fs plan = (result, fs')) :
    (∃ e, fs.create plan.destination = .error e ∧ result = .error (.file plan.destination e) ∧
      fs' = removeAll fs plan.fragments) ∨
    ∃ h fs₁, fs.create plan.destination = .ok (h, fs₁) ∧
      Edits opens (fun path => path = plan.destination ∨ Uses plan.fragments path)
        (fun n => n = h.node) fs₁ fs' := by
  have hmay : ∀ f ∈ plan.fragments, f.path = plan.destination ∨ Uses plan.fragments f.path :=
    fun f hf => .inr ⟨f, hf, rfl⟩
  rcases ran_of_assemble assembles with
    hfails | ⟨h, fs₁, r, fs₂, hcreate, hall, hends⟩
  · exact .inl hfails
  · have hedits : Edits opens (fun path => path = plan.destination ∨ Uses plan.fragments path)
        (fun n => n = h.node) fs₁ fs₂ := edits_of_appendAll rfl hmay hall
    refine .inr ⟨h, fs₁, hcreate, ?_⟩
    rcases hends with ⟨-, rfl⟩ | ⟨-, rfl⟩
    · exact hedits.trans (.removeIfPossible fun _ _ => .inl rfl)
    · exact hedits

/-! ### The fragments are used up -/

lemma gone_of_removeAll {f : Fragment} (mem : f ∈ fragments) (named : Named f.path)
    (plain : fs.isDirectory f.path = false) :
    (removeAll fs fragments).exists? f.path = false := by
  induction fragments generalizing fs with
  | nil => cases mem
  | cons g rest ih =>
    have hwanes := FileSystem.wanes_removeIfPossible fs g.path
    rcases List.mem_cons.mp mem with rfl | hrest
    · exact (wanes_removeAll _ rest).gone (FileSystem.gone_of_removeIfPossible named plain)
    · exact ih hrest (hwanes.tame.plain plain)

lemma gone_of_appendAll {f : Fragment} {result : Except UpdateError Handle} (mem : f ∈ fragments)
    (named : Named f.path) (plain : fs.isDirectory f.path = false)
    (all : appendAll entry fs h fragments = (result, fs')) : fs'.exists? f.path = false := by
  induction fragments generalizing fs h with
  | nil => cases mem
  | cons g rest ih =>
    simp only [appendAll] at all
    split at all
    · rename_i happend
      obtain ⟨-, rfl⟩ := Prod.mk.inj all
      exact gone_of_removeAll mem named ((alike_of_append happend).tame.plain plain)
    · rename_i h' fs₁ happend
      have hplain := (alike_of_append happend).tame.plain plain
      rcases List.mem_cons.mp mem with rfl | hrest
      · exact (wanes_of_appendAll all).gone (FileSystem.gone_of_removeIfPossible named hplain)
      · exact ih hrest ((FileSystem.wanes_removeIfPossible fs₁ g.path).tame.plain hplain) all

/-- Whatever comes of assembly, no fragment is left. -/
lemma gone_of_assemble {f : Fragment} {result : Except UpdateError String}
    (mem : f ∈ plan.fragments) (named : Named f.path) (plain : fs.isDirectory f.path = false)
    (assembles : assemble fs plan = (result, fs')) : fs'.exists? f.path = false := by
  rcases ran_of_assemble assembles with
    ⟨e, -, -, rfl⟩ | ⟨h, fs₁, r, fs₂, hcreate, hall, hends⟩
  · exact gone_of_removeAll mem named plain
  · have hgone :=
      gone_of_appendAll mem named ((FileSystem.tame_of_create hcreate).plain plain) hall
    rcases hends with ⟨-, rfl⟩ | ⟨-, rfl⟩
    · exact FileSystem.gone_removeIfPossible hgone plan.destination
    · exact hgone

/-! ### Refused or run -/

/-- Why nothing is begun: the manifest is no good, there is no room, or a fragment is missing. -/
inductive Refusal (fs : FileSystem) (manifest directory : String) : UpdateError → Prop
  | manifest {e : UpdateError} (load : Manifest.load fs manifest = .error e) :
      Refusal fs manifest directory e
  | space {m : Manifest} {e : UpdateError} (load : Manifest.load fs manifest = .ok m)
      (short : Space.ensure fs directory m.totalSize = .error e) :
      Refusal fs manifest directory e
  | fragment {m : Manifest} {free : Nat} {e : UpdateError}
      (load : Manifest.load fs manifest = .ok m)
      (room : Space.ensure fs directory m.totalSize = .ok free)
      (missing : Fragment.locate fs m = .error e) : Refusal fs manifest directory e

lemma refusal_iff {e : UpdateError} :
    Refusal fs manifest directory e ↔ planFor fs manifest directory = .error e := by
  unfold planFor AssemblyPlan.prepare
  constructor
  · intro h
    cases h with
    | manifest load => simp [load, bind, Except.bind]
    | space load short => simp [load, short, bind, Except.bind]
    | fragment load room missing => simp [load, room, missing, bind, Except.bind]
  · intro h
    cases hload : Manifest.load fs manifest with
    | error e' =>
      obtain rfl : e' = e := by simpa [hload, bind, Except.bind] using h
      exact .manifest hload
    | ok m => cases hroom : Space.ensure fs directory m.totalSize with
      | error e' =>
        obtain rfl : e' = e := by simpa [hload, hroom, bind, Except.bind] using h
        exact .space hload hroom
      | ok free => cases hlocate : Fragment.locate fs m with
        | error e' =>
          obtain rfl : e' = e := by simpa [hload, hroom, hlocate, bind, Except.bind] using h
          exact .fragment hload hroom hlocate
        | ok fragments => simp [hload, hroom, hlocate, bind, Except.bind, pure, Except.pure] at h

/-- A plan is made from a manifest, when there is room and all fragments are there. -/
lemma planFor_eq_ok_iff {plan : AssemblyPlan} : planFor fs manifest directory = .ok plan ↔
    ∃ m free, Manifest.load fs manifest = .ok m ∧
      Space.ensure fs directory m.totalSize = .ok free ∧
      (∀ i < m.fragmentCount, fs.isFile (m.fragment i).path) ∧
      plan = m.plan directory := by
  unfold planFor AssemblyPlan.prepare
  constructor
  · intro h
    obtain ⟨m, hload, h⟩ := ok_of_bind h
    obtain ⟨free, hroom, h⟩ := ok_of_bind h
    obtain ⟨fragments, hlocate, h⟩ := ok_of_bind h
    obtain rfl : _ = plan := Except.ok.inj h
    obtain ⟨hfiles, rfl⟩ := Fragment.locate_eq_ok_iff.mp hlocate
    exact ⟨m, free, hload, hroom, hfiles, rfl⟩
  · rintro ⟨m, free, hload, hroom, hfiles, rfl⟩
    have hlocate := Fragment.locate_eq_ok_iff.mpr ⟨hfiles, rfl⟩
    simp [hload, hroom, hlocate, bind, Except.bind, pure, Except.pure, Manifest.plan,
      Manifest.packagePath]

/-- Nothing was begun, and all files are as they were. -/
def Refused (fs : FileSystem) (manifest directory : String) (result : Except UpdateError String)
    (fs' : FileSystem) : Prop :=
  ∃ e, Refusal fs manifest directory e ∧ result = .error e ∧ fs' = fs

/-- There was room, the fragments were all there and none is left. The package is there if there is
a result, and as it was if it could not be opened. -/
structure Attempted (fs : FileSystem) (m : Manifest) (directory : String)
    (result : Except UpdateError String) (fs' : FileSystem) : Prop where
  room : ∃ free, Space.ensure fs directory m.totalSize = .ok free
  found : ∀ i < m.fragmentCount, fs.isFile (m.fragment i).path
  used : ∀ i < m.fragmentCount, fs'.exists? (m.fragment i).path = false
  package : ∀ h fs₁, fs.create (m.packagePath directory) = .ok (h, fs₁) →
    (fs'.exists? (m.packagePath directory) ↔ ∃ package, result = .ok package)
  unopened : ∀ e, fs.create (m.packagePath directory) = .error e →
    result = .error (.file (m.packagePath directory) e) ∧
      ∀ follow i entry, fs'.resolve follow (m.packagePath directory) = .ok (.found i entry) ↔
        fs.resolve follow (m.packagePath directory) = .ok (.found i entry)

/-- The path leads to no fragment, and neither to the package nor to the file that is opened for
it. -/
structure Elsewhere (fs : FileSystem) (m : Manifest) (directory : String) (follow : Bool)
    (path : String) : Prop where
  fragments : ∀ i < m.fragmentCount, ¬ fs.SamePlace follow (m.fragment i).path path
  package : ∀ h fs₁, fs.create (m.packagePath directory) = .ok (h, fs₁) →
    ¬ fs₁.SamePlace follow (m.packagePath directory) path ∧
      ∀ entry, fs₁.resolve follow path ≠ .ok (.found h.node entry)

/-- Only the fragments and the package may differ. -/
structure Framed (fs : FileSystem) (m : Manifest) (directory : String) (fs' : FileSystem) :
    Prop where
  places : ∀ follow path, Elsewhere fs m directory follow path → ∀ i entry,
    fs'.resolve follow path = .ok (.found i entry) ↔ fs.resolve follow path = .ok (.found i entry)
  reads : ∀ path, Elsewhere fs m directory true path → ∀ bytes,
    fs'.read path = .ok bytes ↔ fs.read path = .ok bytes
  nodes : ∀ i, (∀ h fs₁, fs.create (m.packagePath directory) = .ok (h, fs₁) → i ≠ h.node) →
    ¬ fs.Directory i → fs'.node? i = fs.node? i

section Attempt

variable {m : Manifest} {result : Except UpdateError String}

lemma plain_of_load (load : Manifest.load fs manifest = .ok m) : Path.isPlain m.name.toList := by
  obtain ⟨content, -, hdescribes⟩ := Manifest.describes_of_load load
  exact hdescribes.sound.2

/-- A fragment and the package are at different places. -/
lemma fragment_apart_package (plain : Path.isPlain m.name.toList) (i : Nat) :
    ¬ fs.SamePlace false (m.fragment i).path (m.packagePath directory) :=
  Manifest.not_samePlace_of_names (Manifest.single_fragmentFileName plain i)
    (Manifest.single_packageFileName plain) (m.fragmentFileName_ne i)

/-- Without a package to write to only the fragments go away. -/
lemma spares_removeAll (directory : String)
    (found : ∀ i < m.fragmentCount, fs.isFile (m.fragment i).path) :
    Spares (Uses (m.plan directory).fragments) (fun _ => False) fs
      (removeAll fs (m.plan directory).fragments) := by
  have hedits : Edits (fun _ => False) (Uses (m.plan directory).fragments) (fun _ => False) fs
      (removeAll fs (m.plan directory).fragments) := edits_removeAll fun f hf => ⟨f, hf, rfl⟩
  refine hedits.spares ?_
  rintro path ⟨f, hf, rfl⟩
  obtain ⟨i, hi, rfl⟩ := Manifest.mem_plan_fragments.mp hf
  exact (FileSystem.stands_of_isFile (found i hi)).toPlain

/-- Behind the opening of the package only it and the fragments go away. -/
lemma spares_opened {h : Handle} {fs₁ : FileSystem}
    (found : ∀ i < m.fragmentCount, fs.isFile (m.fragment i).path)
    (create : fs.create (m.packagePath directory) = .ok (h, fs₁))
    (edits : Edits (fun _ => False)
      (fun path => path = m.packagePath directory ∨ Uses (m.plan directory).fragments path)
      (fun n => n = h.node) fs₁ fs') :
    Spares (fun path => path = m.packagePath directory ∨ Uses (m.plan directory).fragments path)
      (fun n => n = h.node) fs₁ fs' := by
  refine edits.spares ?_
  rintro path (hpath | ⟨f, hf, rfl⟩)
  · rw [hpath]
    exact (FileSystem.stands_of_create create).toPlain
  · obtain ⟨i, hi, rfl⟩ := Manifest.mem_plan_fragments.mp hf
    exact (FileSystem.stands_of_stands_create create
      (FileSystem.stands_of_isFile (found i hi))).toPlain

/-- What could not be opened for writing is left alone. -/
lemma unopened_kept (plain : Path.isPlain m.name.toList)
    (found : ∀ i < m.fragmentCount, fs.isFile (m.fragment i).path) {e : FileError}
    (create : fs.create (m.packagePath directory) = .error e) {follow : Bool} {i : Nat}
    {entry : Option (Nat × String)} :
    (removeAll fs (m.plan directory).fragments).resolve follow (m.packagePath directory) =
      .ok (.found i entry) ↔
    fs.resolve follow (m.packagePath directory) = .ok (.found i entry) := by
  have hspares := spares_removeAll directory found
  refine ⟨hspares.back, fun hfound => hspares.keeps hfound ?_⟩
  rintro path ⟨f, hf, rfl⟩ hthere
  obtain ⟨j, hj, rfl⟩ := Manifest.mem_plan_fragments.mp hf
  cases follow with
  | false => exact fragment_apart_package plain j ⟨i, entry, hthere, hfound⟩
  | true =>
    -- a file could have been opened
    obtain ⟨k, content, x, hfind, hnode⟩ := FileSystem.isFile_iff.mp (found j hj)
    rw [FileSystem.find_of_found hthere] at hfind
    obtain rfl : i = k := Except.ok.inj hfind
    simp [FileSystem.create, hfound, hnode] at create

lemma Framed.refl : Framed fs m directory fs :=
  ⟨fun _ _ _ _ _ => Iff.rfl, fun _ _ _ => Iff.rfl, fun _ _ _ => rfl⟩

/-- An assembly that was planned uses all fragments up. -/
theorem attempted_of_assemble {free : Nat} (load : Manifest.load fs manifest = .ok m)
    (room : Space.ensure fs directory m.totalSize = .ok free)
    (found : ∀ i < m.fragmentCount, fs.isFile (m.fragment i).path)
    (assembles : assemble fs (m.plan directory) = (result, fs')) :
    Attempted fs m directory result fs' := by
  have hplain := plain_of_load load
  have hnamed : Named (m.plan directory).destination :=
    Manifest.named_of_single (Manifest.single_packageFileName hplain) directory
  constructor
  case room => exact ⟨free, room⟩
  case found => exact found
  case used =>
    intro i hi
    have hname := Manifest.named_of_single (Manifest.single_fragmentFileName hplain i)
      m.sourceDirectory
    exact gone_of_assemble (Manifest.mem_plan_fragments.mpr ⟨i, hi, rfl⟩) hname
      (FileSystem.stands_of_isFile (found i hi)).2 assembles
  case package =>
    intro h fs₁ create
    rcases assemble_leaves hnamed create assembles with ⟨⟨e, rfl⟩, hgone⟩ | rfl
    · simpa using hgone
    · obtain ⟨content, hread, -⟩ := (assemble_fits
        (Manifest.describes_of_load load).choose_spec.2.sound.1 assembles).2
      obtain ⟨i, hfind, -⟩ := FileSystem.find_of_read hread
      have hexists : fs'.exists? (m.packagePath directory) :=
        FileSystem.exists?_iff.mpr ⟨i, hfind⟩
      simp [hexists]
  case unopened =>
    intro e create
    rcases ran_of_assemble assembles with ⟨e', hcreate, rfl, rfl⟩ | ⟨h, fs₁, r, fs₂, hcreate, -⟩
    · obtain rfl : e' = e := Except.error.inj (hcreate.symm.trans create)
      exact ⟨rfl, fun follow i entry => unopened_kept hplain found create⟩
    · cases hcreate.symm.trans create

/-- Nothing but the fragments and the package changes. -/
theorem framed_of_assemble (found : ∀ i < m.fragmentCount, fs.isFile (m.fragment i).path)
    (assembles : assemble fs (m.plan directory) = (result, fs')) :
    Framed fs m directory fs' := by
  have hapart {follow : Bool} {path : String} (away : Elsewhere fs m directory follow path)
      (other : String) (uses : Uses (m.plan directory).fragments other) :
      ¬ fs.SamePlace follow other path := by
    obtain ⟨f, hf, rfl⟩ := uses
    obtain ⟨i, hi, rfl⟩ := Manifest.mem_plan_fragments.mp hf
    exact away.fragments i hi
  rcases edits_of_assemble assembles with ⟨e, hcreate, -, rfl⟩ | ⟨h, fs₁, hcreate, hedits⟩
  · have hspares := spares_removeAll directory found
    refine ⟨fun follow path away i entry => ⟨hspares.back, fun hfound => ?_⟩,
      fun path away bytes => hspares.read_iff (hapart away) fun _ _ => id,
      fun i _ => hspares.node i id⟩
    exact hspares.keeps hfound fun other hother hthere =>
      hapart away other hother ⟨i, entry, hthere, hfound⟩
  · have hspares := spares_opened found hcreate hedits
    have hopened {follow : Bool} {path : String} (away : Elsewhere fs m directory follow path)
        (other : String)
        (removed : other = m.packagePath directory ∨ Uses (m.plan directory).fragments other) :
        ¬ fs₁.SamePlace follow other path := by
      obtain ⟨hpackage, hnode⟩ := away.package h fs₁ hcreate
      rcases removed with rfl | huses
      · exact hpackage
      · exact fun hsame => hapart away other huses (.of_create hcreate hnode hsame)
    refine ⟨fun follow path away i entry => ?_, fun path away bytes => ?_, fun i hi plain => ?_⟩
    · exact hspares.places_of_create hcreate (hopened away) (away.package h fs₁ hcreate).2
    · exact hspares.read_iff_of_create hcreate (hopened away) (away.package h fs₁ hcreate).2
    · have hne := hi h fs₁ hcreate
      have hstays := FileSystem.directory_of_create hcreate i
      rw [hspares.node i hne fun hd => plain (hstays.mp hd),
        FileSystem.node?_of_create hcreate hne plain]

/-- Assembly is all or nothing: it refuses and leaves all files as they are, or it uses all
fragments up and leaves the package only if it is complete. Nothing else changes, so the manifest
file stays as it is if it is none of these files. -/
theorem assembled_or_refused
    (assembles : assembleFromManifest fs manifest directory = (result, fs')) :
    Xor (Refused fs manifest directory result fs')
      (∃ m, Manifest.load fs manifest = .ok m ∧ Attempted fs m directory result fs') ∧
    ∀ m, Manifest.load fs manifest = .ok m → Framed fs m directory fs' ∧
      (Elsewhere fs m directory true manifest → fs'.read manifest = fs.read manifest) := by
  unfold assembleFromManifest at assembles
  cases hplan : planFor fs manifest directory with
  | error e =>
    rw [hplan] at assembles
    obtain ⟨rfl, rfl⟩ := Prod.mk.inj assembles
    refine ⟨.inl ⟨⟨e, refusal_iff.mpr hplan, rfl, rfl⟩, ?_⟩, fun m _ => ⟨.refl, fun _ => rfl⟩⟩
    rintro ⟨m, hload, hattempted⟩
    obtain ⟨free, hroom⟩ := hattempted.room
    have hplanned := planFor_eq_ok_iff.mpr ⟨m, free, hload, hroom, hattempted.found, rfl⟩
    rw [hplan] at hplanned
    cases hplanned
  | ok plan =>
    rw [hplan] at assembles
    obtain ⟨m, free, hload, hroom, hfound, rfl⟩ := planFor_eq_ok_iff.mp hplan
    refine ⟨.inr ⟨⟨m, hload, attempted_of_assemble hload hroom hfound assembles⟩, ?_⟩,
      fun m' hload' => ?_⟩
    · rintro ⟨e, hrefusal, -⟩
      rw [refusal_iff, hplan] at hrefusal
      cases hrefusal
    · obtain rfl : m = m' := Except.ok.inj (hload.symm.trans hload')
      have hframed := framed_of_assemble hfound assembles
      refine ⟨hframed, fun away => ?_⟩
      obtain ⟨content, hcontent, -⟩ := Manifest.describes_of_load hload
      rw [hcontent]
      exact (hframed.reads manifest away content).mpr hcontent

end Attempt

end Assembly

namespace Assembly

open scoped Archive.Zip

/-- The manifest of a package that comes in one fragment. -/
def spoiledText : String := "size=4\nfragments=1\nname=img\nchecksum=7\nsrc_dir=dl\n"

/-- A manifest whose one fragment is no archive. -/
def spoiled : FileSystem :=
  ⟨#[.directory 0 [("dl", 1), ("m", 2)], .directory 0 [("img0.zip", 3)],
    .file (Text.encodeUtf8 spoiledText) false, .file [80, 75] false], 0, 0, 1000, none⟩

def spoiledManifest : Manifest := ⟨4, 1, "img", 7, "dl"⟩

lemma load_spoiled : Manifest.load spoiled "m" = .ok spoiledManifest := by
  have hdecode : Text.decodeUtf8? (Text.encodeUtf8 spoiledText) = some spoiledText := by
    decide +kernel
  have hread : spoiled.read "m" = .ok (Text.encodeUtf8 spoiledText) := rfl
  have htext : Manifest.ofText spoiled spoiledText = .ok spoiledManifest := rfl
  simp only [Manifest.load, FileSystem.readText, hread, hdecode, htext]

/-- A fragment that is no archive is used up, and no package is left. -/
theorem spoiled_fragment_used_up :
    Attempted spoiled spoiledManifest "dl" (assembleFromManifest spoiled "m" "dl").1
      (assembleFromManifest spoiled "m" "dl").2 ∧
    (assembleFromManifest spoiled "m" "dl").2.exists? "dl/img.swu" = false ∧
    (assembleFromManifest spoiled "m" "dl").2.read "m" = spoiled.read "m" := by
  obtain ⟨hbefore, hafter, hpackage⟩ : spoiled.exists? "dl/img0.zip" = true ∧
      (assembleFromManifest spoiled "m" "dl").2.exists? "dl/img0.zip" = false ∧
      (assembleFromManifest spoiled "m" "dl").2.exists? "dl/img.swu" = false := by
    decide +kernel
  obtain ⟨heither, hframe⟩ :=
    assembled_or_refused (Prod.eta (assembleFromManifest spoiled "m" "dl")).symm
  have helsewhere : Elsewhere spoiled spoiledManifest "dl" true "m" := by
    have hm : spoiled.resolve true "m" = .ok (.found 2 (some (0, "m"))) := rfl
    constructor
    · rintro i hi ⟨j, entry, hthere, hfound⟩
      obtain rfl : i = 0 := Nat.lt_one_iff.mp hi
      have hfragment : spoiled.resolve true (spoiledManifest.fragment 0).path =
        .ok (.found 3 (some (1, "img0.zip"))) := rfl
      cases hthere.symm.trans hfragment
      cases hfound.symm.trans hm
    · intro h fs₁ create
      have hopened : spoiled.create (spoiledManifest.packagePath "dl") =
        .ok (⟨4, 0⟩, spoiled.addFile 1 "img.swu") := rfl
      cases create.symm.trans hopened
      have hm' : (spoiled.addFile 1 "img.swu").resolve true "m" =
        .ok (.found 2 (some (0, "m"))) := rfl
      have hpackage' : (spoiled.addFile 1 "img.swu").resolve true
        (spoiledManifest.packagePath "dl") = .ok (.found 4 (some (1, "img.swu"))) := rfl
      refine ⟨?_, fun entry hfound => by cases hfound.symm.trans hm'⟩
      rintro ⟨j, entry, hthere, hfound⟩
      cases hthere.symm.trans hpackage'
      cases hfound.symm.trans hm'
  refine ⟨?_, hpackage, (hframe spoiledManifest load_spoiled).2 helsewhere⟩
  rcases heither with ⟨⟨e, -, -, hsame⟩, -⟩ | ⟨⟨m, hload, hattempted⟩, -⟩
  · rw [hsame, hbefore] at hafter
    cases hafter
  · obtain rfl : spoiledManifest = m := Except.ok.inj (load_spoiled.symm.trans hload)
    exact hattempted

end Assembly

end DeviceUpdate
