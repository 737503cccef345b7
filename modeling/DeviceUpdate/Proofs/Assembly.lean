import DeviceUpdate.Assembly
import DeviceUpdate.Proofs.Fragment

/-!
# What assembly vouches for

A package that assembly hands back was read from its own path at the end, and had the size and the
CRC-32 of the manifest then, however the fragments came together. If assembly fails after it has
opened the package for writing, nothing is left at that path.
-/

namespace DeviceUpdate

lemma ok_of_bind {ε α β : Type} {x : Except ε α} {f : α → Except ε β} {b : β}
    (h : x >>= f = .ok b) : ∃ a, x = .ok a ∧ f a = .ok b := by
  cases x with
  | error e => cases h
  | ok a => exact ⟨a, rfl, h⟩

/-- Reading in pieces comes to the same as reading all at once. -/
lemma checksumReads_eq {buffer : Nat} (room : 0 < buffer) (register : UInt32) (content : Bytes) :
    checksumReads buffer register content = Crc32.update register content := by
  induction register, content using checksumReads.induct buffer with
  | case1 register content hroom ih =>
    rw [checksumReads, dif_pos hroom, ih, ← Crc32.update_append, List.take_append_drop]
  | case2 register content hempty =>
    obtain rfl : content = [] := Decidable.byContradiction fun hne => hempty ⟨room, hne⟩
    rw [checksumReads, dif_neg hempty]
    rfl

lemma read_of_fileChecksum {fs : FileSystem} {path : String} {buffer : Nat} {checksum : UInt32}
    (room : 0 < buffer) (h : fileChecksum fs path buffer = .ok checksum) :
    ∃ content, fs.read path = .ok content ∧ crc32 content = checksum := by
  unfold fileChecksum at h
  split at h
  · rename_i content hread
    obtain rfl : _ = checksum := by simpa using h
    exact ⟨content, hread, by rw [checksumReads_eq room, crc32]⟩
  · simp at h

/-- A file that can be read has the checksum of its content, through any buffer with room. -/
lemma fileChecksum_of_read {fs : FileSystem} {path : String} {buffer : Nat} {content : Bytes}
    (room : 0 < buffer) (read : fs.read path = .ok content) :
    fileChecksum fs path buffer = .ok (crc32 content) := by
  rw [fileChecksum, read]
  dsimp only
  rw [checksumReads_eq room, crc32]

namespace Manifest

/-- What is read has the size and the CRC-32 of the manifest. -/
def Fits (m : Manifest) (read : Except FileError Bytes) : Prop :=
  ∃ content, read = .ok content ∧ content.length = m.totalSize ∧ crc32 content = m.checksum

/-- The manifest is the one that this content is the text of. -/
def Describes (m : Manifest) (content : Bytes) : Prop :=
  ∃ text fs, Text.decodeUtf8? content = some text ∧ ofText fs text = .ok m

lemma positive_pos {properties : List Property} {key : String} {n : Nat}
    (h : positive properties key = .ok n) : 0 < n := by
  obtain ⟨value, -, h⟩ := ok_of_bind h
  split at h
  · simp at h
  · split at h
    · obtain rfl : _ = n := by simpa using h
      omega
    · simp at h

lemma plain_of_packageName {properties : List Property} {name : String}
    (h : packageName properties = .ok name) : Path.isPlain name.toList := by
  obtain ⟨value, -, h⟩ := ok_of_bind h
  split at h
  · rename_i hplain
    obtain rfl : _ = name := Except.ok.inj h
    rw [String.toList_ofList]
    exact hplain
  · simp at h

/-- A manifest describes a package that is not empty, under a plain name. -/
lemma sound_of_ofText {fs : FileSystem} {text : String} {m : Manifest}
    (h : ofText fs text = .ok m) : 0 < m.totalSize ∧ Path.isPlain m.name.toList := by
  obtain ⟨properties, -, h⟩ := ok_of_bind h
  obtain ⟨totalSize, hsize, h⟩ := ok_of_bind h
  obtain ⟨fragments, -, h⟩ := ok_of_bind h
  obtain ⟨name, hname, h⟩ := ok_of_bind h
  obtain ⟨checksum, -, h⟩ := ok_of_bind h
  obtain ⟨directory, -, h⟩ := ok_of_bind h
  obtain rfl : _ = m := Except.ok.inj h
  exact ⟨positive_pos hsize, plain_of_packageName hname⟩

lemma Describes.sound {content : Bytes} {m : Manifest} (h : m.Describes content) :
    0 < m.totalSize ∧ Path.isPlain m.name.toList := by
  obtain ⟨text, fs, -, h⟩ := h
  exact sound_of_ofText h

/-- The package's file name is a name to look for in a directory. -/
lemma Describes.packageFileName {content : Bytes} {m : Manifest} (h : m.Describes content) :
    '/' ∉ m.packageFileName.toList ∧ m.packageFileName.toList ≠ [] ∧
      m.packageFileName ≠ "." ∧ m.packageFileName ≠ ".." := by
  have hsingle := single_packageFileName h.sound.2
  exact ⟨hsingle.slash, hsingle.nonempty, hsingle.here, hsingle.up⟩

lemma describes_of_load {fs : FileSystem} {path : String} {m : Manifest}
    (h : load fs path = .ok m) : ∃ content, fs.read path = .ok content ∧ m.Describes content := by
  unfold load at h
  split at h
  · rename_i text htext
    unfold FileSystem.readText at htext
    split at htext
    · rename_i content hread
      split at htext
      · rename_i text' hdecode
        obtain rfl : text' = text := by simpa using htext
        exact ⟨content, hread, text', fs, hdecode, h⟩
      · simp at htext
    · simp at htext
  · simp at h

end Manifest

namespace Assembly

variable {archives : Archive.Reader} {fs fs' : FileSystem}
  {path manifest directory package : String} {m : Manifest}

/-- What was verified has the size that the system reports, so it is a file: a pipe and a device
report no size, and a directory cannot be read. -/
lemma fits_of_verify (size : 0 < m.totalSize) (h : verify fs path m = .ok ()) :
    m.Fits (fs.read path) := by
  unfold verify at h
  split at h
  · simp at h
  · rename_i n hsize
    split at h
    · simp at h
    · rename_i hn
      split at h
      · simp at h
      · rename_i checksum hchecksum
        split at h
        · simp at h
        · rename_i hc
          obtain ⟨content, hread, hcrc⟩ := read_of_fileChecksum (by decide) hchecksum
          simp only [bne_iff_ne, ne_eq, Decidable.not_not] at hn hc
          refine ⟨content, hread, ?_, hcrc.trans hc⟩
          rw [← hn]
          unfold FileSystem.size at hsize
          unfold FileSystem.read FileSystem.content at hread
          grind

/-- A file is judged by its size first, and then by its checksum. -/
lemma verify_file {content : Bytes} {i : Nat} {x : Bool} (find : fs.find path = .ok i)
    (file : fs.node? i = some (.file content x)) : verify fs path m =
      if content.length ≠ m.totalSize then
        .error (.integrity
          s!"Wrong size for '{path}': {content.length} bytes, manifest says {m.totalSize}")
      else if crc32 content ≠ m.checksum then
        .error (.integrity
          s!"Wrong CRC32 for '{path}': calculated {crc32 content}, manifest says {m.checksum}")
      else .ok () := by
  have hsize : fs.size path = .ok content.length := by
    rw [FileSystem.size, find]
    dsimp only
    rw [file]
  have hread : fs.read path = .ok content := by
    rw [FileSystem.read, find]
    exact FileSystem.content_file file
  simp only [verify, hsize, fileChecksum_of_read (by decide : 0 < bufferSize) hread, bne_iff_ne]

/-- How assembly goes: it ends where something fails first. -/
inductive Assembles [Archive.Reader] (fs : FileSystem) (plan : AssemblyPlan) :
    Except UpdateError String → FileSystem → Prop
  | unopened {e : FileError} (create : fs.create plan.destination = .error e) :
      Assembles fs plan (.error (.file plan.destination e)) (removeAll fs plan.fragments)
  | unappended {h : Handle} {fs₁ fs₂ : FileSystem} {e : UpdateError}
      (create : fs.create plan.destination = .ok (h, fs₁))
      (all : appendAll plan.fileName fs₁ h plan.fragments = (.error e, fs₂)) :
      Assembles fs plan (.error e) (fs₂.removeIfPossible plan.destination)
  | unsynced {h h' : Handle} {fs₁ fs₂ : FileSystem} {e : FileError}
      (create : fs.create plan.destination = .ok (h, fs₁))
      (all : appendAll plan.fileName fs₁ h plan.fragments = (.ok h', fs₂))
      (sync : fs₂.sync h' = .error e) :
      Assembles fs plan (.error (.file plan.destination e))
        (fs₂.removeIfPossible plan.destination)
  | unverified {h h' : Handle} {fs₁ fs₂ : FileSystem} {e : UpdateError}
      (create : fs.create plan.destination = .ok (h, fs₁))
      (all : appendAll plan.fileName fs₁ h plan.fragments = (.ok h', fs₂))
      (sync : fs₂.sync h' = .ok ())
      (verify : verify fs₂ plan.destination plan.manifest = .error e) :
      Assembles fs plan (.error e) (fs₂.removeIfPossible plan.destination)
  | complete {h h' : Handle} {fs₁ fs₂ : FileSystem}
      (create : fs.create plan.destination = .ok (h, fs₁))
      (all : appendAll plan.fileName fs₁ h plan.fragments = (.ok h', fs₂))
      (sync : fs₂.sync h' = .ok ())
      (verify : verify fs₂ plan.destination plan.manifest = .ok ()) :
      Assembles fs plan (.ok plan.destination) fs₂

lemma assembles_of_assemble {plan : AssemblyPlan} {result : Except UpdateError String}
    (h : assemble fs plan = (result, fs')) : Assembles fs plan result fs' := by
  unfold assemble at h
  split at h
  · rename_i hcreate
    obtain ⟨rfl, rfl⟩ := Prod.mk.inj h
    exact .unopened hcreate
  · rename_i hcreate
    split at h
    · rename_i hall
      obtain ⟨rfl, rfl⟩ := Prod.mk.inj h
      exact .unappended hcreate hall
    · rename_i hall
      split at h
      · rename_i hsync
        obtain ⟨rfl, rfl⟩ := Prod.mk.inj h
        exact .unsynced hcreate hall hsync
      · rename_i hsync
        split at h
        · rename_i hverify
          obtain ⟨rfl, rfl⟩ := Prod.mk.inj h
          exact .unverified hcreate hall hsync hverify
        · rename_i hverify
          obtain ⟨rfl, rfl⟩ := Prod.mk.inj h
          exact .complete hcreate hall hsync hverify

/-- Once the package is open all fragments are gone through. After a failure the package is
dropped. -/
lemma ran_of_assemble {plan : AssemblyPlan} {result : Except UpdateError String}
    (h : assemble fs plan = (result, fs')) :
    (∃ e, fs.create plan.destination = .error e ∧ result = .error (.file plan.destination e) ∧
      fs' = removeAll fs plan.fragments) ∨
    ∃ h fs₁ r fs₂, fs.create plan.destination = .ok (h, fs₁) ∧
      appendAll plan.fileName fs₁ h plan.fragments = (r, fs₂) ∧
      ((∃ e, result = .error e) ∧ fs' = fs₂.removeIfPossible plan.destination ∨
        result = .ok plan.destination ∧ fs' = fs₂) := by
  cases assembles_of_assemble h with
  | unopened create => exact .inl ⟨_, create, rfl, rfl⟩
  | unappended create all => exact .inr ⟨_, _, _, _, create, all, .inl ⟨⟨_, rfl⟩, rfl⟩⟩
  | unsynced create all sync => exact .inr ⟨_, _, _, _, create, all, .inl ⟨⟨_, rfl⟩, rfl⟩⟩
  | unverified create all sync verify =>
    exact .inr ⟨_, _, _, _, create, all, .inl ⟨⟨_, rfl⟩, rfl⟩⟩
  | complete create all sync verify => exact .inr ⟨_, _, _, _, create, all, .inr ⟨rfl, rfl⟩⟩

lemma assemble_fits {plan : AssemblyPlan} (size : 0 < plan.manifest.totalSize)
    (h : assemble fs plan = (.ok package, fs')) :
    package = plan.destination ∧ plan.manifest.Fits (fs'.read package) := by
  cases assembles_of_assemble h with
  | complete create all sync verify => exact ⟨rfl, fits_of_verify size verify⟩

/-- An assembled package is the one that the manifest file describes. -/
theorem assembleFromManifest_fits
    (h : assembleFromManifest fs manifest directory = (.ok package, fs')) :
    ∃ (content : Bytes) (m : Manifest), fs.read manifest = .ok content ∧ m.Describes content ∧
      package = Path.join directory m.packageFileName ∧ m.Fits (fs'.read package) := by
  unfold assembleFromManifest at h
  split at h
  · simp at h
  · rename_i plan hplan
    obtain ⟨m, hload, hplan⟩ := ok_of_bind hplan
    obtain ⟨-, -, hplan⟩ := ok_of_bind hplan
    obtain ⟨fragments, -, hplan⟩ := ok_of_bind hplan
    obtain rfl : _ = plan := Except.ok.inj hplan
    obtain ⟨content, hread, hdescribes⟩ := Manifest.describes_of_load hload
    obtain ⟨hpackage, hfits⟩ := assemble_fits hdescribes.sound.1 h
    exact ⟨content, m, hread, hdescribes, hpackage, hfits⟩

/-! ### What is left of the package -/

open FileSystem (Tame Wanes Alike Named)

lemma alike_of_append {h : Handle} {f : Fragment} {entry : String}
    {result : Except UpdateError Handle} (append : append fs h f entry = (result, fs')) :
    Alike fs fs' := by
  have hsame : Alike fs fs := ⟨rfl, rfl, fun _ => rfl⟩
  unfold Assembly.append at append
  split at append
  · obtain ⟨-, rfl⟩ := Prod.mk.inj append
    exact hsame
  · split at append
    · obtain ⟨-, rfl⟩ := Prod.mk.inj append
      exact hsame
    · dsimp only at append
      split at append
      · obtain ⟨-, rfl⟩ := Prod.mk.inj append
        obtain ⟨part, h', hwrite⟩ := FileSystem.write_of_spill fs h _
        exact FileSystem.alike_of_write hwrite
      · rename_i hwrite
        have halike := FileSystem.alike_of_write hwrite
        split at append <;>
        · obtain ⟨-, rfl⟩ := Prod.mk.inj append
          exact halike

lemma wanes_removeAll (fs : FileSystem) (fragments : List Fragment) :
    Wanes fs (removeAll fs fragments) := by
  induction fragments generalizing fs with
  | nil => exact .refl fs
  | cons f rest ih => exact (FileSystem.wanes_removeIfPossible fs f.path).trans (ih _)

lemma wanes_of_appendAll {h : Handle} {fragments : List Fragment} {entry : String}
    {result : Except UpdateError Handle} (all : appendAll entry fs h fragments = (result, fs')) :
    Wanes fs fs' := by
  induction fragments generalizing fs h with
  | nil =>
    obtain ⟨-, rfl⟩ := Prod.mk.inj all
    exact .refl fs
  | cons f rest ih =>
    simp only [appendAll] at all
    split at all
    · rename_i happend
      obtain ⟨-, rfl⟩ := Prod.mk.inj all
      exact (alike_of_append happend).wanes.trans (wanes_removeAll _ _)
    · rename_i happend
      exact ((alike_of_append happend).wanes.trans (FileSystem.wanes_removeIfPossible _ _)).trans
        (ih all)

/-- A package that was opened for writing stands at its path afterwards, or nothing does. -/
lemma assemble_leaves {plan : AssemblyPlan} {h : Handle} {fs₁ : FileSystem}
    {result : Except UpdateError String} (named : Named plan.destination)
    (create : fs.create plan.destination = .ok (h, fs₁))
    (assembles : assemble fs plan = (result, fs')) :
    (∃ e, result = .error e) ∧ fs'.exists? plan.destination = false ∨
      result = .ok plan.destination := by
  rcases ran_of_assemble assembles with
    ⟨e, fails, -⟩ | ⟨_, fs₁, r, fs₂, hcreate, hall, ⟨hfails, rfl⟩ | ⟨hpackage, -⟩⟩
  · rw [create] at fails
    cases fails
  · have hplain := (wanes_of_appendAll hall).tame.plain (FileSystem.stands_of_create hcreate).2
    exact .inl ⟨hfails, FileSystem.gone_of_removeIfPossible named hplain⟩
  · exact .inr hpackage

/-- When the package has been opened, files are written or go away. -/
lemma wanes_of_assemble {plan : AssemblyPlan} {result : Except UpdateError String}
    (assembles : assemble fs plan = (result, fs')) : Wanes fs fs' ∨
      ∃ h fs₁, fs.create plan.destination = .ok (h, fs₁) ∧ Wanes fs₁ fs' := by
  rcases ran_of_assemble assembles with
    ⟨e, -, -, rfl⟩ | ⟨h, fs₁, r, fs₂, hcreate, hall, ⟨-, rfl⟩ | ⟨-, rfl⟩⟩
  · exact .inl (wanes_removeAll _ _)
  · refine .inr ⟨h, fs₁, hcreate, ?_⟩
    exact (wanes_of_appendAll hall).trans (FileSystem.wanes_removeIfPossible _ _)
  · exact .inr ⟨h, fs₁, hcreate, wanes_of_appendAll hall⟩

lemma tame_of_assembleFromManifest {result : Except UpdateError String}
    (h : assembleFromManifest fs manifest directory = (result, fs')) : Tame fs fs' := by
  unfold assembleFromManifest at h
  split at h
  · obtain ⟨-, rfl⟩ := Prod.mk.inj h
    exact .refl _
  · rcases wanes_of_assemble h with hwanes | ⟨h, fs₁, hcreate, hwanes⟩
    · exact hwanes.tame
    · exact (FileSystem.tame_of_create hcreate).trans hwanes.tame

/-- What stood at a path is there afterwards, or is gone. -/
lemma plain_of_assembleFromManifest {result : Except UpdateError String}
    (h : assembleFromManifest fs manifest directory = (result, fs')) (stands : fs.Stands path) :
    fs'.Plain path := by
  refine ⟨?_, (tame_of_assembleFromManifest h).plain stands.2⟩
  obtain ⟨i, hfind⟩ := FileSystem.exists?_iff.mp stands.1
  have hwanes {fs₁ : FileSystem} (w : Wanes fs₁ fs') (hfound : fs₁.find path = .ok i) :
      fs'.find path ≠ .error .tooManyLinks := by
    rcases w.find path with hsame | hgone
    · rw [hsame, hfound]
      rintro ⟨⟩
    · rw [hgone]
      rintro ⟨⟩
  unfold assembleFromManifest at h
  split at h
  · obtain ⟨-, rfl⟩ := Prod.mk.inj h
    exact hwanes (.refl _) hfind
  · rcases wanes_of_assemble h with w | ⟨h, fs₁, hcreate, w⟩
    · exact hwanes w hfind
    · exact hwanes w (FileSystem.find_of_create hcreate hfind)

/-- A package goes under its file name into the directory. -/
lemma destination_of_planFor {plan : AssemblyPlan} (h : planFor fs manifest directory = .ok plan) :
    ∃ (content : Bytes) (m : Manifest), m.Describes content ∧
      plan.destination = Path.join directory m.packageFileName := by
  obtain ⟨m, hload, hplan⟩ := ok_of_bind h
  obtain ⟨-, -, hplan⟩ := ok_of_bind hplan
  obtain ⟨fragments, -, hplan⟩ := ok_of_bind hplan
  obtain rfl : _ = plan := Except.ok.inj hplan
  obtain ⟨content, -, hdescribes⟩ := Manifest.describes_of_load hload
  exact ⟨content, m, hdescribes, rfl⟩

end Assembly

end DeviceUpdate
