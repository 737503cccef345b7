import DeviceUpdate.Fragment
import DeviceUpdate.Proofs.FileSystem.Places

/-!
# Where fragments are

A manifest with a plain name names one fragment for each index, by file names of their own: no two
of them are the same, and none is that of the package. All fragments are looked for before anything
else is done, and they are listed in the order of their indices.
-/

namespace DeviceUpdate

open FileSystem (Named)

variable {fs : FileSystem} {m : Manifest}

/-! ### Names -/

namespace Manifest

/-- The path of the package in a directory. -/
def packagePath (m : Manifest) (directory : String) : String :=
  Path.join directory m.packageFileName

lemma toList_packageFileName (m : Manifest) :
    m.packageFileName.toList = m.name.toList ++ ['.', 's', 'w', 'u'] := by
  rw [packageFileName, String.toList_append]
  rfl

lemma toList_fragmentFileName (m : Manifest) (index : Nat) :
    (m.fragmentFileName index).toList =
      m.name.toList ++ Nat.toDigits 10 index ++ ['.', 'z', 'i', 'p'] := by
  rw [fragmentFileName, String.toList_append, String.toList_append]
  simp only [Nat.toString_eq_repr, Nat.toList_repr]
  rfl

lemma single_packageFileName (plain : Path.isPlain m.name.toList) :
    Path.Single m.packageFileName := by
  apply Path.single_of_length
  · rw [toList_packageFileName]
    simp [Path.not_slash_of_isPlain plain]
  · rw [toList_packageFileName, List.length_append, List.length_cons]
    simp

lemma slash_not_mem_toDigits (index : Nat) : '/' ∉ Nat.toDigits 10 index := by
  intro h
  have hdigit := Nat.isDigit_of_mem_toDigits (by decide) (by decide) h
  exact absurd hdigit (by decide)

lemma single_fragmentFileName (plain : Path.isPlain m.name.toList) (index : Nat) :
    Path.Single (m.fragmentFileName index) := by
  apply Path.single_of_length
  · rw [toList_fragmentFileName]
    simp [Path.not_slash_of_isPlain plain, slash_not_mem_toDigits]
  · rw [toList_fragmentFileName, List.length_append]
    simp

/-- Fragments of different indices have different names. -/
lemma fragmentFileName_injective (m : Manifest) {i j : Nat}
    (h : m.fragmentFileName i = m.fragmentFileName j) : i = j := by
  have htext := congrArg String.toList h
  rw [toList_fragmentFileName, toList_fragmentFileName] at htext
  have hdigits := List.append_cancel_left (List.append_cancel_right htext)
  have hindices := congrArg (Nat.ofDigitChars 10 · 0) hdigits
  simpa only [Nat.ofDigitChars_ten_toDigits] using hindices

/-- No fragment has the name of the package, as they end differently. -/
lemma fragmentFileName_ne (m : Manifest) (index : Nat) :
    m.fragmentFileName index ≠ m.packageFileName := by
  intro h
  have hlast := congrArg (fun name : String => name.toList.getLast?) h
  simp [toList_fragmentFileName, toList_packageFileName] at hlast

/-- The path of a single name in a directory ends with that name. -/
lemma components_of_single {name : String} (single : Path.Single name) (base : String) :
    ∃ names, Path.components (Path.join base name) = names ++ [name] :=
  Path.components_join base single.slash single.nonempty

lemma named_of_single {name : String} (single : Path.Single name) (base : String) :
    Named (Path.join base name) := by
  obtain ⟨names, hnames⟩ := components_of_single single base
  exact ⟨names, name, hnames, single.up⟩

/-- Paths that end with different names lead to different places, if a last link is not
followed. -/
lemma not_samePlace_of_names {name name' base base' : String} (single : Path.Single name)
    (single' : Path.Single name') (ne : name ≠ name') :
    ¬ fs.SamePlace false (Path.join base name) (Path.join base' name') := by
  rintro ⟨i, entry, hfound, hfound'⟩
  obtain ⟨names, hlast⟩ := components_of_single single base
  obtain ⟨names', hlast'⟩ := components_of_single single' base'
  rcases FileSystem.ends_of_resolve hlast hfound with ⟨d, rfl⟩ | ⟨-, hdot | hdots⟩
  · rcases FileSystem.ends_of_resolve hlast' hfound' with ⟨d', heq⟩ | ⟨hnone, -⟩
    · obtain ⟨-, hname⟩ := Prod.mk.inj (Option.some.inj heq)
      exact ne hname
    · cases hnone
  · exact single.here hdot
  · exact single.up hdots

end Manifest

/-! ### Locating -/

namespace Fragment

@[simp] lemma locateFrom_zero (found : List Fragment) (index : Nat) :
    locateFrom fs m found index 0 = .ok found.reverse := rfl

lemma locateFrom_succ (found : List Fragment) (index count : Nat) :
    locateFrom fs m found index (count + 1) =
      if fs.isFile (m.fragment index).path then
        locateFrom fs m (m.fragment index :: found) (index + 1) count
      else .error (.missingFragment index (m.fragment index).path) := rfl

lemma locateFrom_ok {found fragments : List Fragment} {index count : Nat}
    (h : locateFrom fs m found index count = .ok fragments) :
    (∀ i, index ≤ i → i < index + count → fs.isFile (m.fragment i).path) ∧
      fragments = found.reverse ++ (List.range' index count).map m.fragment := by
  induction count generalizing found index with
  | zero =>
    obtain rfl : found.reverse = fragments := by simpa using h
    exact ⟨fun i hlow hhigh => by omega, by simp⟩
  | succ count ih =>
    rw [locateFrom_succ] at h
    split at h
    · rename_i hfile
      obtain ⟨hfiles, rfl⟩ := ih h
      refine ⟨fun i hlow hhigh => ?_, by simp [List.range'_succ]⟩
      rcases Nat.eq_or_lt_of_le hlow with rfl | hlt
      · exact hfile
      · exact hfiles i hlt (by omega)
    · simp at h

lemma locateFrom_all {found : List Fragment} {index count : Nat}
    (files : ∀ i, index ≤ i → i < index + count → fs.isFile (m.fragment i).path) :
    locateFrom fs m found index count =
      .ok (found.reverse ++ (List.range' index count).map m.fragment) := by
  induction count generalizing found index with
  | zero => simp
  | succ count ih =>
    rw [locateFrom_succ, if_pos (files index (Nat.le_refl _) (by omega)),
      ih fun i hlow hhigh => files i (by omega) (by omega)]
    simp [List.range'_succ]

/-- All fragments are found, in the order of their indices, if each is a file. -/
theorem locate_eq_ok_iff {fragments : List Fragment} :
    locate fs m = .ok fragments ↔ (∀ i < m.fragmentCount, fs.isFile (m.fragment i).path) ∧
      fragments = (List.range m.fragmentCount).map m.fragment := by
  unfold locate
  constructor
  · intro h
    obtain ⟨hfiles, heq⟩ := locateFrom_ok h
    refine ⟨fun i hi => hfiles i (Nat.zero_le i) (by omega), ?_⟩
    simpa [List.range_eq_range'] using heq
  · rintro ⟨hfiles, rfl⟩
    rw [locateFrom_all fun i _ hi => hfiles i (by omega)]
    simp [List.range_eq_range']

end Fragment

/-- The plan for a manifest whose fragments are all there. -/
def Manifest.plan (m : Manifest) (directory : String) : AssemblyPlan :=
  ⟨m.packagePath directory, m.packageFileName, m, (List.range m.fragmentCount).map m.fragment⟩

@[simp] lemma Manifest.plan_destination (m : Manifest) (directory : String) :
    (m.plan directory).destination = m.packagePath directory := rfl

lemma Manifest.mem_plan_fragments {directory : String} {f : Fragment} :
    f ∈ (m.plan directory).fragments ↔ ∃ i < m.fragmentCount, m.fragment i = f := by
  simp [Manifest.plan]

end DeviceUpdate
