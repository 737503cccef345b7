import DeviceUpdate.Archive.Zip
import DeviceUpdate.Proofs.Assembly.Reads
import DeviceUpdate.Proofs.Assembly.Traces
import Mathlib.Data.List.Forall2

/-!
# Assembly is exact

Assembly succeeds if every fragment is an archive that holds a slice of the package, the slices
behind one another are what the manifest describes, and all of them can be written. The package is
then these slices. Fragments are read and removed one after another while the package grows, so
this needs that no fragment is another one, or the package, under a second name. Which entries of
which archives can be read is up to the library that reads them.
-/

namespace DeviceUpdate

open FileSystem (Alike Edits Gathers Spares)

variable {archives : Archive.Reader} {held? : Bytes → String → Option Bytes}
  {fs fs' : FileSystem}

/-- The fragment is an archive whose entry of this name can be read, and is this slice. -/
def Fragment.Holds (held? : Bytes → String → Option Bytes) (fs : FileSystem) (entry : String)
    (f : Fragment) (slice : Bytes) : Prop :=
  ∃ archive, fs.read f.path = .ok archive ∧ held? archive entry = some slice

namespace Assembly

variable {entry path : String} {f : Fragment} {rest fragments : List Fragment} {h h' : Handle}
  {slice content : Bytes} {slices : List Bytes}

/-! ### One fragment -/

/-- A fragment is appended if it holds a slice, and that can be written. -/
lemma append_ok_iff (follows : archives.Follows held?) :
    append fs h f entry = (.ok h', fs') ↔
      ∃ slice, f.Holds held? fs entry slice ∧ fs.write h slice = .ok (h', fs') := by
  unfold append
  constructor
  · intro happend
    split at happend
    · cases (Prod.mk.inj happend).1
    · rename_i i hfind
      split at happend
      · cases (Prod.mk.inj happend).1
      · rename_i archive hcontent
        dsimp only at happend
        split at happend
        · cases (Prod.mk.inj happend).1
        · rename_i h₁ fs₁ hwrite
          split at happend
          · rename_i hwhole
            obtain ⟨hh, rfl⟩ := Prod.mk.inj happend
            obtain rfl : h₁ = h' := Except.ok.inj hh
            have hread : fs.read f.path = .ok archive := by
              rw [FileSystem.read, hfind]
              exact hcontent
            cases hentry : held? archive entry with
            | none => exact absurd hwhole (follows.unreadable archive entry hentry)
            | some slice =>
              rw [follows.readable archive entry slice hentry] at hwrite
              exact ⟨slice, ⟨archive, hread, hentry⟩, hwrite⟩
          · cases (Prod.mk.inj happend).1
  · rintro ⟨slice, ⟨archive, hread, hentry⟩, hwrite⟩
    obtain ⟨i, e, hfound, hcontent⟩ := FileSystem.read_eq_ok_iff.mp hread
    rw [FileSystem.find_of_found hfound]
    dsimp only
    rw [hcontent]
    dsimp only
    rw [follows.readable archive entry slice hentry]
    dsimp only
    rw [hwrite]

/-- No fragment is another one under a second name, and none is the node `n`. -/
structure Separate (fs : FileSystem) (n : Nat) (fragments : List Fragment) : Prop where
  apart : fragments.Pairwise fun f g => ¬ fs.SamePlace true f.path g.path
  elsewhere : ∀ f ∈ fragments, fs.find f.path ≠ .ok n

/-- Writing the package and using up one fragment spares the others. -/
lemma spares_of_use (holds : f.Holds held? fs entry slice)
    (write : fs.write h slice = .ok (h', fs')) :
    Spares (fun path => path = f.path) (fun n => n = h.node) fs
      (fs'.removeIfPossible f.path) := by
  obtain ⟨archive, hread, -⟩ := holds
  have hplain : fs.Plain f.path := (FileSystem.stands_iff_read.mpr ⟨archive, hread⟩).toPlain
  have hedits : Edits (fun _ => False) (fun path => path = f.path) (fun n => n = h.node) fs
      (fs'.removeIfPossible f.path) := .written rfl write (.removeIfPossible fun _ _ => rfl)
  exact hedits.spares fun path hpath => hpath ▸ hplain

lemma Separate.use (separate : Separate fs h.node (f :: rest))
    (spares : Spares (fun path => path = f.path) (fun n => n = h.node) fs fs') :
    Separate fs' h.node rest := by
  refine ⟨(List.pairwise_cons.mp separate.apart).2.imp fun hapart hsame => ?_,
    fun g hg hfind => ?_⟩
  · obtain ⟨i, e, hthere, hother⟩ := hsame
    exact hapart ⟨i, e, spares.back hthere, spares.back hother⟩
  · obtain ⟨e, hfound⟩ := FileSystem.resolve_of_find hfind
    exact separate.elsewhere g (by simp [hg]) (FileSystem.find_of_found (spares.back hfound))

/-- The other fragments hold the same slices. -/
lemma Separate.holds_iff (separate : Separate fs h.node (f :: rest))
    (spares : Spares (fun path => path = f.path) (fun n => n = h.node) fs fs') {g : Fragment}
    (mem : g ∈ rest) (s : Bytes) : g.Holds held? fs' entry s ↔ g.Holds held? fs entry s := by
  have hapart := (List.pairwise_cons.mp separate.apart).1 g mem
  have hread {archive : Bytes} : fs'.read g.path = .ok archive ↔ fs.read g.path = .ok archive := by
    refine spares.read_iff ?_ ?_
    · rintro path rfl
      exact hapart
    · rintro i hfind rfl
      exact separate.elsewhere g (by simp [mem]) hfind
  simp only [Fragment.Holds, hread]

lemma forall₂_holds_iff
    (same : ∀ g ∈ rest, ∀ s, g.Holds held? fs' entry s ↔ g.Holds held? fs entry s) :
    List.Forall₂ (Fragment.Holds held? fs' entry) rest slices ↔
      List.Forall₂ (Fragment.Holds held? fs entry) rest slices := by
  induction rest generalizing slices with
  | nil => simp
  | cons g rest ih =>
    cases slices with
    | nil => simp
    | cons s slices =>
      rw [List.forall₂_cons, List.forall₂_cons, same g (by simp) s,
        ih fun g' hg' => same g' (by simp [hg'])]

/-- The package that gathers the slices is not touched by the removal of a fragment. -/
lemma gathers_of_use (separate : Separate fs h.node (f :: rest))
    (holds : f.Holds held? fs entry slice) (write : fs.write h slice = .ok (h', fs'))
    (gathers : fs.Gathers path h content) :
    (fs'.removeIfPossible f.path).Gathers path h' (content ++ slice) ∧
      ((fs'.removeIfPossible f.path).sync h' = .ok () ↔ fs.sync h = .ok ()) := by
  have hwritten := gathers.write write
  have hnode := FileSystem.node_of_write write
  obtain ⟨archive, hread, -⟩ := holds
  have halike := FileSystem.alike_of_write write
  have hplain := halike.wanes.plain (FileSystem.stands_iff_read.mpr ⟨archive, hread⟩).toPlain
  -- the removal on its own, which writes nothing
  have hspares : Spares (fun path => path = f.path) (fun _ => False) fs'
      (fs'.removeIfPossible f.path) := FileSystem.spares_removeIfPossible rfl fun _ => hplain
  have hfile {bytes : Bytes} {x : Bool}
      (hafter : (fs'.removeIfPossible f.path).node? h'.node = some (.file bytes x)) :
      fs'.node? h'.node = some (.file bytes x) := by
    rw [← hafter]
    refine (hspares.node _ id fun hd => ?_).symm
    exact FileSystem.not_directory_of_node? hafter (by simp) ((hspares.directory _).mpr hd)
  refine ⟨⟨?_, hwritten.offset, fun bytes x hafter => hwritten.content bytes x (hfile hafter)⟩,
    (hspares.sync_iff id).trans (FileSystem.sync_of_write write)⟩
  obtain ⟨e, hfound⟩ := FileSystem.resolve_of_find hwritten.find
  refine FileSystem.find_of_found (hspares.keeps hfound ?_)
  rintro path rfl hthere
  refine separate.elsewhere f (by simp) ?_
  rw [← hnode, ← halike.find, FileSystem.find_of_found hthere]

/-! ### All fragments -/

/-- What was appended are the slices, in the order of the fragments. A file had room for them. -/
lemma holds_of_appendAll (follows : archives.Follows held?)
    (separate : Separate fs h.node fragments) (gathers : fs.Gathers path h content)
    (all : appendAll entry fs h fragments = (.ok h', fs')) :
    ∃ slices, List.Forall₂ (Fragment.Holds held? fs entry) fragments slices ∧
      fs'.Gathers path h' (content ++ slices.flatten) ∧
      (fs'.sync h' = .ok () ↔ fs.sync h = .ok ()) ∧
      (fs.sync h = .ok () → fs.takes slices.flatten.length) := by
  induction fragments generalizing fs h content with
  | nil =>
    obtain ⟨hh, rfl⟩ := Prod.mk.inj all
    obtain rfl : h = h' := Except.ok.inj hh
    exact ⟨[], .nil, by simpa using gathers, Iff.rfl, fun _ => by simp⟩
  | cons f rest ih =>
    simp only [appendAll] at all
    split at all
    · cases (Prod.mk.inj all).1
    · rename_i h₁ fs₁ happend
      obtain ⟨slice, hholds, hwrite⟩ := (append_ok_iff follows).mp happend
      have hspares := spares_of_use hholds hwrite
      have hnode := FileSystem.node_of_write hwrite
      obtain ⟨hgathers, hsync⟩ := gathers_of_use separate hholds hwrite gathers
      have hseparate := separate.use hspares
      rw [← hnode] at hseparate
      obtain ⟨slices, hrest, hlast, hsyncs, hroom⟩ := ih hseparate hgathers all
      refine ⟨slice :: slices, ?_, ?_, hsyncs.trans hsync, fun sync => ?_⟩
      · refine .cons hholds ?_
        exact (forall₂_holds_iff fun g hg s => separate.holds_iff hspares hg s).mp hrest
      · rwa [List.flatten_cons, ← List.append_assoc]
      · obtain ⟨bytes, x, hfile⟩ := FileSystem.sync_iff.mp sync
        rw [List.flatten_cons, List.length_append, ← FileSystem.takes_of_write hfile hwrite,
          ← FileSystem.takes_removeIfPossible fs₁ f.path]
        exact hroom (hsync.mpr sync)

/-- Slices that the fragments hold are appended to a file that has room for them. -/
lemma appendAll_of_holds (follows : archives.Follows held?)
    (separate : Separate fs h.node fragments) (gathers : fs.Gathers path h content)
    (sync : fs.sync h = .ok ()) (room : fs.takes slices.flatten.length)
    (holds : List.Forall₂ (Fragment.Holds held? fs entry) fragments slices) :
    ∃ h' fs', appendAll entry fs h fragments = (.ok h', fs') ∧
      fs'.Gathers path h' (content ++ slices.flatten) ∧ fs'.sync h' = .ok () := by
  induction fragments generalizing fs h content slices with
  | nil =>
    cases holds
    exact ⟨h, fs, rfl, by simpa using gathers, sync⟩
  | cons f rest ih =>
    cases holds with
    | @cons _ slice _ slices hholds hrest =>
      obtain ⟨bytes, x, hfile⟩ := FileSystem.sync_iff.mp sync
      rw [List.flatten_cons, List.length_append] at room
      obtain ⟨h₁, fs₁, hwrite⟩ :=
        FileSystem.write_file hfile (FileSystem.takes_mono (Nat.le_add_right _ _) room)
      have hspares := spares_of_use hholds hwrite
      obtain ⟨hgathers, hsync⟩ := gathers_of_use separate hholds hwrite gathers
      have hseparate := separate.use hspares
      rw [← FileSystem.node_of_write hwrite] at hseparate
      have hrest' := (forall₂_holds_iff fun g hg s => separate.holds_iff hspares hg s).mpr hrest
      have hroom : (fs₁.removeIfPossible f.path).takes slices.flatten.length := by
        rwa [FileSystem.takes_removeIfPossible, FileSystem.takes_of_write hfile hwrite]
      obtain ⟨h', fs', hall, hwhole, hsynced⟩ :=
        ih hseparate hgathers (hsync.mpr sync) hroom hrest'
      refine ⟨h', fs', ?_, ?_, hsynced⟩
      · rw [appendAll, (append_ok_iff follows).mpr ⟨slice, hholds, hwrite⟩]
        exact hall
      · rwa [List.flatten_cons, ← List.append_assoc]

/-! ### The whole package -/

lemma verify_iff {m : Manifest} {i : Nat} {x : Bool} (find : fs.find path = .ok i)
    (file : fs.node? i = some (.file content x)) :
    verify fs path m = .ok () ↔ content.length = m.totalSize ∧ crc32 content = m.checksum := by
  rw [verify_file find file]
  by_cases hn : content.length = m.totalSize <;> by_cases hc : crc32 content = m.checksum <;>
    simp [hn, hc]

end Assembly

namespace AssemblyPlan

variable {plan : AssemblyPlan} {slices : List Bytes}

/-- No two fragments of the plan are one, and none is the package that is opened. -/
structure Separate (fs : FileSystem) (plan : AssemblyPlan) : Prop where
  apart : plan.fragments.Pairwise fun f g => ¬ fs.SamePlace true f.path g.path
  elsewhere : ∀ h fs₁, fs.create plan.destination = .ok (h, fs₁) →
    ∀ f ∈ plan.fragments, fs₁.find f.path ≠ .ok h.node

/-- The package can be put together from these slices: every fragment holds its one, all of them
can be written to the destination, synced and read back, and they are what the manifest says. -/
structure Comes (held? : Bytes → String → Option Bytes) (fs : FileSystem) (plan : AssemblyPlan)
    (slices : List Bytes) : Prop where
  holds : List.Forall₂ (Fragment.Holds held? fs plan.fileName) plan.fragments slices
  stored : ∃ h fs₁ h' fs₂, fs.create plan.destination = .ok (h, fs₁) ∧
    fs₁.write h slices.flatten = .ok (h', fs₂) ∧ fs₂.sync h' = .ok () ∧
    fs₂.read plan.destination = .ok slices.flatten
  size : slices.flatten.length = plan.manifest.totalSize
  checksum : crc32 slices.flatten = plan.manifest.checksum

/-- Opening the package spares the fragments. -/
lemma Separate.opened (separate : plan.Separate fs) {h : Handle} {fs₁ : FileSystem}
    (create : fs.create plan.destination = .ok (h, fs₁)) :
    Assembly.Separate fs₁ h.node plan.fragments ∧
      ∀ f ∈ plan.fragments, ∀ s,
        f.Holds held? fs₁ plan.fileName s ↔ f.Holds held? fs plan.fileName s := by
  have haway := separate.elsewhere h fs₁ create
  have hnode {f : Fragment} (hf : f ∈ plan.fragments) (entry : Option (Nat × String)) :
      fs₁.resolve true f.path ≠ .ok (.found h.node entry) :=
    fun hfound => haway f hf (FileSystem.find_of_found hfound)
  constructor
  · refine ⟨List.Pairwise.imp_of_mem ?_ separate.apart, haway⟩
    exact fun _ hg hapart hsame => hapart (.of_create create (hnode hg) hsame)
  · intro f hf s
    have hspares : Spares (fun _ => False) (fun n => n = h.node) fs₁ fs₁ := .refl fs₁
    have hread {archive : Bytes} :
        fs₁.read f.path = .ok archive ↔ fs.read f.path = .ok archive :=
      hspares.read_iff_of_create create (fun _ => False.elim) (hnode hf)
    simp only [Fragment.Holds, hread]

end AssemblyPlan

namespace Assembly

variable {plan : AssemblyPlan} {slices : List Bytes} {package : String}

/-- A package that was assembled comes from slices that the fragments held. -/
lemma comes_of_assemble (follows : archives.Follows held?) (separate : plan.Separate fs)
    (assembles : assemble fs plan = (.ok package, fs')) : ∃ slices, plan.Comes held? fs slices := by
  cases assembles_of_assemble assembles with
  | @complete h h' fs₁ fs₂ create all sync verify =>
    obtain ⟨hseparate, hholds⟩ := separate.opened create
    obtain ⟨slices, hslices, hgathers, hsync, hroom⟩ :=
      holds_of_appendAll follows hseparate (FileSystem.gathers_of_create create) all
    rw [List.nil_append] at hgathers
    obtain ⟨bytes, x, hfile⟩ := FileSystem.sync_iff.mp sync
    obtain rfl := hgathers.content bytes x hfile
    obtain ⟨hsize, hchecksum⟩ := (verify_iff hgathers.find hfile).mp verify
    refine ⟨slices, (forall₂_holds_iff hholds).mp hslices, ?_, hsize, hchecksum⟩
    -- the same bytes at once
    have hopened := hsync.mp sync
    obtain ⟨bytes₁, x₁, hfile₁⟩ := FileSystem.sync_iff.mp hopened
    obtain ⟨h₂, fs₃, hwrite⟩ := FileSystem.write_file hfile₁ (hroom hopened)
    have hsynced := (FileSystem.sync_of_write hwrite).mpr hopened
    have hwhole := (FileSystem.gathers_of_create create).write hwrite
    rw [List.nil_append] at hwhole
    exact ⟨h, fs₁, h₂, fs₃, create, hwrite, hsynced, hwhole.read hsynced⟩

/-- Slices that make up the package are assembled to it. -/
lemma assemble_of_comes (follows : archives.Follows held?) (separate : plan.Separate fs)
    (comes : plan.Comes held? fs slices) :
    ∃ fs', assemble fs plan = (.ok plan.destination, fs') ∧
      fs'.read plan.destination = .ok slices.flatten := by
  obtain ⟨h, fs₁, h₂, fs₃, hcreate, hwrite, hsynced, -⟩ := comes.stored
  obtain ⟨hseparate, hholds⟩ := separate.opened hcreate
  have hopened := (FileSystem.sync_of_write hwrite).mp hsynced
  obtain ⟨bytes₁, x₁, hfile₁⟩ := FileSystem.sync_iff.mp hopened
  have hroom : fs₁.takes slices.flatten.length := by
    simpa using (FileSystem.takes_of_write hfile₁ hwrite 0).symm
  have hholds' := (forall₂_holds_iff hholds).mpr comes.holds
  obtain ⟨h', fs', hall, hgathers, hsync⟩ := appendAll_of_holds follows hseparate
    (FileSystem.gathers_of_create hcreate) hopened hroom hholds'
  rw [List.nil_append] at hgathers
  obtain ⟨bytes, x, hfile⟩ := FileSystem.sync_iff.mp hsync
  obtain rfl := hgathers.content bytes x hfile
  have hverify := (verify_iff hgathers.find hfile).mpr ⟨comes.size, comes.checksum⟩
  refine ⟨fs', ?_, hgathers.read hsync⟩
  simp only [assemble, hcreate, hall, hsync, hverify]

end Assembly

/-! ### From a manifest -/

/-- The slices are in the fragments that the manifest names, one in each, and the manifest gives
their size and their checksum. -/
structure Manifest.Stores (held? : Bytes → String → Option Bytes) (fs : FileSystem) (m : Manifest)
    (slices : List Bytes) : Prop where
  count : slices.length = m.fragmentCount
  file : ∀ i < m.fragmentCount, fs.isFile (m.fragment i).path
  holds : ∀ i (h : i < slices.length), (m.fragment i).Holds held? fs m.packageFileName slices[i]
  size : slices.flatten.length = m.totalSize
  checksum : crc32 slices.flatten = m.checksum

/-- The package of a manifest has a place of its own: none of the fragments is a link, and none of
them is what the package's path opens, which is a file. All of the package can be written. -/
structure Manifest.Placed (fs : FileSystem) (m : Manifest) (directory : String) : Prop where
  unlinked : ∀ i < m.fragmentCount, fs.isLink (m.fragment i).path = false
  opens : ∃ h fs₁, fs.create (m.packagePath directory) = .ok (h, fs₁) ∧ fs₁.sync h = .ok () ∧
    ∀ i < m.fragmentCount, fs₁.find (m.fragment i).path ≠ .ok h.node
  room : fs.takes m.totalSize

namespace Assembly

section Stored

variable {directory : String} {m : Manifest} {slices : List Bytes}

lemma separate_of_placed (plain : Path.isPlain m.name.toList) (placed : m.Placed fs directory) :
    (m.plan directory).Separate fs := by
  constructor
  · rw [Manifest.plan, List.pairwise_map]
    refine List.Pairwise.imp_of_mem ?_ List.pairwise_lt_range
    rintro i j hi hj hlt ⟨n, e, hthere, hother⟩
    -- different names, and no link at the end
    rw [FileSystem.resolve_of_not_link (placed.unlinked _ (List.mem_range.mp hi))] at hthere
    rw [FileSystem.resolve_of_not_link (placed.unlinked _ (List.mem_range.mp hj))] at hother
    refine Manifest.not_samePlace_of_names (Manifest.single_fragmentFileName plain i)
      (Manifest.single_fragmentFileName plain j) (fun hname => ?_) ⟨n, e, hthere, hother⟩
    exact Nat.ne_of_lt hlt (m.fragmentFileName_injective hname)
  · intro h fs₁ create f hf
    obtain ⟨i, hi, rfl⟩ := Manifest.mem_plan_fragments.mp hf
    obtain ⟨h', fs', hcreate, -, haway⟩ := placed.opens
    obtain ⟨rfl, rfl⟩ := Prod.mk.inj (Except.ok.inj (hcreate.symm.trans create))
    exact haway i hi

lemma comes_of_stores (stores : m.Stores held? fs slices) (placed : m.Placed fs directory) :
    (m.plan directory).Comes held? fs slices := by
  obtain ⟨h, fs₁, hcreate, hsync, -⟩ := placed.opens
  obtain ⟨bytes, x, hfile⟩ := FileSystem.sync_iff.mp hsync
  have hroom : fs₁.takes slices.flatten.length := by
    rw [FileSystem.takes_of_create hcreate, stores.size]
    exact placed.room
  obtain ⟨h', fs₂, hwrite⟩ := FileSystem.write_file hfile hroom
  have hsynced := (FileSystem.sync_of_write hwrite).mpr hsync
  have hgathers := (FileSystem.gathers_of_create hcreate).write hwrite
  rw [List.nil_append] at hgathers
  refine ⟨?_, ⟨h, fs₁, h', fs₂, hcreate, hwrite, hsynced, hgathers.read hsynced⟩, stores.size,
    stores.checksum⟩
  rw [List.forall₂_iff_get]
  refine ⟨by simp [Manifest.plan, stores.count], fun i hi hi' => ?_⟩
  simpa [Manifest.plan] using stores.holds i hi'

/-- Assembly is exact, if the library reads what archives hold. It does not matter how reads come
apart. A plan whose files are all different is carried out if the package comes from its fragments,
slice by slice, and the package is these slices behind one another, whatever was at its path before.
So a package that is cut into slices, which are stored in the fragments of a manifest that describes
it, is put together again. -/
theorem assembly_exact (reads : Reads) (follows : archives.Follows held?) {fs : FileSystem}
    {plan : AssemblyPlan} (separate : plan.Separate fs) :
    assembleBy reads fs plan = assemble fs plan ∧
    ((∃ package, (assemble fs plan).1 = .ok package) ↔ ∃ slices, plan.Comes held? fs slices) ∧
    (∀ slices, plan.Comes held? fs slices → (assemble fs plan).1 = .ok plan.destination ∧
      (assemble fs plan).2.read plan.destination = .ok slices.flatten) ∧
    ∀ manifest directory m free slices, Manifest.load fs manifest = .ok m →
      Space.ensure fs directory m.totalSize = .ok free → m.Stores held? fs slices →
      m.Placed fs directory →
      (assembleFromManifest fs manifest directory).1 = .ok (m.packagePath directory) ∧
      (assembleFromManifest fs manifest directory).2.read (m.packagePath directory) =
        .ok slices.flatten := by
  have hcomes {plan : AssemblyPlan} {slices : List Bytes} (separate : plan.Separate fs)
      (comes : plan.Comes held? fs slices) : (assemble fs plan).1 = .ok plan.destination ∧
        (assemble fs plan).2.read plan.destination = .ok slices.flatten := by
    obtain ⟨fs', hassembles, hread⟩ := assemble_of_comes follows separate comes
    rw [hassembles]
    exact ⟨rfl, hread⟩
  refine ⟨assembleBy_eq reads fs plan, ⟨?_, ?_⟩, fun slices => hcomes separate, ?_⟩
  · rintro ⟨package, hpackage⟩
    exact comes_of_assemble follows separate (Prod.ext hpackage rfl)
  · rintro ⟨slices, comes⟩
    exact ⟨_, (hcomes separate comes).1⟩
  · intro manifest directory m free slices hload hroom hstores hplaced
    have hplan : planFor fs manifest directory = .ok (m.plan directory) :=
      planFor_eq_ok_iff.mpr ⟨m, free, hload, hroom, hstores.file, rfl⟩
    have hseparate := separate_of_placed (plain_of_load hload) hplaced
    rw [assembleFromManifest, hplan]
    exact hcomes hseparate (comes_of_stores hstores hplaced)

end Stored

end Assembly

end DeviceUpdate

namespace DeviceUpdate.Assembly

namespace Sample

/-- The entries that can be read from zip archives. -/
def held? (archive : Bytes) (name : String) : Option Bytes :=
  let reading := Archive.readEntry archive name
  if reading.failure = none then some reading.content else none

lemma follows_held? : Archive.zip.Follows held? := by
  constructor
  · intro archive name content hentry
    simp only [held?, Option.ite_none_right_eq_some, Option.some.injEq] at hentry
    obtain ⟨hwhole, rfl⟩ := hentry
    exact congrArg (Archive.Reading.mk _) hwhole
  · intro archive name hentry hwhole
    simp [held?, show (Archive.readEntry archive name).failure = none from hwhole] at hentry

/-- A number, least significant byte first. -/
def littleEndian (n : Nat) : (bytes : Nat) → Bytes
  | 0 => []
  | bytes + 1 => n.toUInt8 :: littleEndian (n / 256) bytes

/-- An archive that stores one entry as it is. -/
def stored (name : String) (content : Bytes) : Bytes :=
  let name := Text.encodeUtf8 name
  let sizes := littleEndian (crc32 content).toNat 4 ++ littleEndian content.length 4 ++
    littleEndian content.length 4 ++ littleEndian name.length 2
  let header := [0x50, 0x4B, 3, 4, 20, 0] ++ List.replicate 8 0 ++ sizes ++ [0, 0] ++ name
  let entry := [0x50, 0x4B, 1, 2, 20, 0, 20, 0] ++ List.replicate 8 0 ++ sizes ++
    List.replicate 16 0 ++ name
  header ++ content ++ entry ++ [0x50, 0x4B, 5, 6, 0, 0, 0, 0, 1, 0, 1, 0] ++
    littleEndian entry.length 4 ++ littleEndian (header.length + content.length) 4 ++ [0, 0]

/-- An image that is cut into three slices, one of them empty. -/
def slices : List Bytes := [[100, 97], [], [116, 97]]

def manifestText : String :=
  "size=4\nfragments=3\nname=img\nchecksum=2918445923\nsrc_dir=frag\n"

def manifest : Manifest := ⟨4, 3, "img", 2918445923, "frag"⟩

/-- The slices are in the fragments, and an older package is in the way. -/
def files : FileSystem :=
  ⟨#[.directory 0 [("frag", 1), ("dl", 2), ("m", 3)],
    .directory 0 [("img0.zip", 4), ("img1.zip", 5), ("img2.zip", 6)],
    .directory 0 [("img.swu", 7)], .file (Text.encodeUtf8 manifestText) false,
    .file (stored "img.swu" [100, 97]) false, .file (stored "img.swu" []) false,
    .file (stored "img.swu" [116, 97]) false, .file [1, 2, 3, 4, 5, 6] false], 0, 0, 1000, none⟩

lemma load_manifest : Manifest.load files "m" = .ok manifest := by
  have hdecode : Text.decodeUtf8? (Text.encodeUtf8 manifestText) = some manifestText := by
    decide +kernel
  have hread : files.read "m" = .ok (Text.encodeUtf8 manifestText) := rfl
  have htext : Manifest.ofText files manifestText = .ok manifest := rfl
  simp only [Manifest.load, FileSystem.readText, hread, hdecode, htext]

lemma stores : manifest.Stores held? files slices := by
  refine ⟨rfl, by decide +kernel, fun i hi => ?_, rfl, by decide +kernel⟩
  have hholds : ∀ i (h : i < slices.length),
      held? (stored "img.swu" slices[i]) "img.swu" = some slices[i] := by
    decide +kernel
  refine ⟨stored "img.swu" slices[i], ?_, hholds i hi⟩
  match i, hi with
  | 0, _ | 1, _ | 2, _ => rfl

lemma placed : manifest.Placed files "dl" := by
  have hnode : files.node? 7 = some (.file [1, 2, 3, 4, 5, 6] false) := rfl
  have hfound : files.resolve true (manifest.packagePath "dl") =
    .ok (.found 7 (some (2, "img.swu"))) := rfl
  have hcreate : files.create (manifest.packagePath "dl") =
      .ok (⟨7, 0⟩, files.setNode 7 (.file [] false)) := by
    rw [FileSystem.create, hfound]
    dsimp only
    rw [hnode]
  refine ⟨by decide +kernel, ⟨⟨7, 0⟩, _, hcreate, ?_, fun i hi hfind => ?_⟩, rfl⟩
  · exact FileSystem.sync_iff.mpr
      ⟨[], false, by rw [FileSystem.node?_setNode hnode, if_pos rfl]⟩
  · have hother : ∀ i < manifest.fragmentCount,
        (files.find (manifest.fragment i).path).toOption ≠ some 7 := by
      decide +kernel
    rw [(FileSystem.alike_setNode hnode).find] at hfind
    exact hother i hi (congrArg Except.toOption hfind)

end Sample

open scoped Archive.Zip

/-- A cut image is put together again in place of an older package, also if every byte is read by
itself. -/
theorem cut_image_is_assembled :
    assembleBy .bytewise Sample.files (Sample.manifest.plan "dl") =
      assemble Sample.files (Sample.manifest.plan "dl") ∧
    (assembleFromManifest Sample.files "m" "dl").1 = .ok "dl/img.swu" ∧
    (assembleFromManifest Sample.files "m" "dl").2.read "dl/img.swu" =
      .ok [100, 97, 116, 97] := by
  have hplain : Path.isPlain Sample.manifest.name.toList := by decide
  obtain ⟨hreads, -, -, hcut⟩ :=
    assembly_exact .bytewise Sample.follows_held? (separate_of_placed hplain Sample.placed)
  exact ⟨hreads, hcut "m" "dl" _ 1000 Sample.slices Sample.load_manifest rfl Sample.stores
    Sample.placed⟩

end DeviceUpdate.Assembly
