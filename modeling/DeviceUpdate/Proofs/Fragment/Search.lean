import DeviceUpdate.Proofs.Fragment
import Mathlib.Data.List.Nodup
import Mathlib.Data.Nat.Find
import Mathlib.Tactic.ByContra
import Mathlib.Tactic.Push

/-!
# The search for fragments

The fragments of a manifest are looked for one at a time, and the search ends at the first gap. So
its cost is bounded by what is there, however many fragments the manifest claims; what it comes to
depends on nothing that it has not looked at, and it changes nothing. The paths are those of
different files for every name, also for one with slashes or with digits at its end.
-/

namespace DeviceUpdate

/-! ### Paths -/

namespace Path

/-- What follows the last slash of a text, or all of it. -/
lemma exists_last_name (text : List Char) : ∃ last, '/' ∉ last ∧
    (text = last ∨ ∃ front, text = front ++ '/' :: last) := by
  induction text with
  | nil => exact ⟨[], by simp, .inl rfl⟩
  | cons c text ih =>
    obtain ⟨last, slash, rfl | ⟨front, rfl⟩⟩ := ih
    · by_cases here : c = '/'
      · exact ⟨text, slash, .inr ⟨[], by rw [here, List.nil_append]⟩⟩
      · exact ⟨c :: text, by simp [slash, Ne.symm here], .inl rfl⟩
    · exact ⟨last, slash, .inr ⟨c :: front, rfl⟩⟩

/-- What a text begins with leaves its last name open: whatever is put behind it, without slashes,
ends that name. -/
lemma components_append (text : List Char) : ∃ names last, ∀ rest : List Char, rest ≠ [] →
    '/' ∉ rest → components (String.ofList (text ++ rest)) =
      names ++ [String.ofList (last ++ rest)] := by
  obtain ⟨last, hslash, hparts⟩ := exists_last_name text
  have hlast {rest : List Char} (nonempty : rest ≠ []) (slash : '/' ∉ rest) :
      namesOf (last ++ rest) = [String.ofList (last ++ rest)] := by
    have hname := @namesOf_name (String.ofList (last ++ rest))
    simp only [String.toList_ofList, List.mem_append, not_or] at hname
    exact hname ⟨hslash, slash⟩ (by simp [nonempty])
  have hcomponents {rest : List Char} (nonempty : rest ≠ []) (slash : '/' ∉ rest) :
      components (String.ofList (text ++ rest)) = namesOf (text ++ rest) := by
    have hend : (String.ofList (text ++ rest)).toList.getLast? ≠ some '/' := by
      rw [String.toList_ofList, List.getLast?_append, Option.or_of_isSome (by simpa using nonempty)]
      exact fun h => slash (List.mem_of_getLast? h)
    rw [components, if_neg (by simpa using hend), ← namesOf, String.toList_ofList]
  rcases hparts with rfl | ⟨front, rfl⟩
  · refine ⟨[], text, fun rest nonempty slash => ?_⟩
    rw [hcomponents nonempty slash, hlast nonempty slash]
    rfl
  · refine ⟨namesOf front, last, fun rest nonempty slash => ?_⟩
    rw [hcomponents nonempty slash, List.append_assoc, List.cons_append, namesOf_append,
      hlast nonempty slash]

/-- It also is the end of the path, whatever the name is joined to. -/
lemma join_append (base : String) (text : List Char) : ∃ front, ∀ rest : List Char,
    '/' ∉ rest → join base (String.ofList (text ++ rest)) = String.ofList (front ++ rest) := by
  have habsolute {rest : List Char} (slash : '/' ∉ rest) :
      isAbsolute (String.ofList (text ++ rest)) = isAbsolute (String.ofList text) := by
    simp only [isAbsolute, String.toList_ofList]
    cases text with
    | nil => simpa using fun h => slash (List.mem_of_head? h)
    | cons c text => rfl
  by_cases absolute : isAbsolute (String.ofList text)
  · refine ⟨text, fun rest slash => ?_⟩
    rw [join, habsolute slash, if_pos absolute]
  · by_cases closed : base.toList.isEmpty || base.toList.getLast? == some '/'
    · refine ⟨base.toList ++ text, fun rest slash => ?_⟩
      rw [join, habsolute slash, if_neg absolute, if_pos closed]
      simp
    · refine ⟨base.toList ++ '/' :: text, fun rest slash => ?_⟩
      rw [join, habsolute slash, if_neg absolute, if_neg closed]
      apply String.toList_injective
      simp

end Path

namespace Manifest

/-- Where the fragment with this index has to be. -/
def fragmentPath (m : Manifest) (index : Nat) : String :=
  Path.join m.sourceDirectory (m.name ++ toString index ++ ".zip")

/-- No two fragments share a path, even if repeated slashes and dots in it count for nothing. -/
lemma fragmentPath_components_injective (m : Manifest) :
    Function.Injective fun index => Path.components (m.fragmentPath index) := by
  let ending (index : Nat) : List Char := Nat.toDigits 10 index ++ ['.', 'z', 'i', 'p']
  have hname (index : Nat) :
      m.fragmentFileName index = String.ofList (m.name.toList ++ ending index) := by
    apply String.toList_injective
    rw [toList_fragmentFileName, String.toList_ofList, List.append_assoc]
  have hslash (index : Nat) : '/' ∉ ending index := by
    simp [ending, slash_not_mem_toDigits]
  obtain ⟨front, hjoin⟩ := Path.join_append m.sourceDirectory m.name.toList
  obtain ⟨names, last, hcomponents⟩ := Path.components_append front
  have hpath (index : Nat) : Path.components (m.fragmentPath index) =
      names ++ [String.ofList (last ++ ending index)] := by
    rw [← hcomponents _ (by simp [ending]) (hslash index), ← hjoin _ (hslash index), ← hname]
    rfl
  intro i j h
  simp only [hpath] at h
  have hending : last ++ ending i = last ++ ending j :=
    String.ofList_injective (List.singleton_inj.mp (List.append_cancel_left h))
  apply m.fragmentFileName_injective
  rw [hname, hname, List.append_cancel_left hending]

/-- How many fragments are there before the first gap. -/
def leading (m : Manifest) (fs : FileSystem) : Nat :=
  ((List.range m.fragmentCount).takeWhile fun i => fs.isFile (m.fragmentPath i)).length

end Manifest

/-! ### One look after the other -/

namespace Fragment

/-- A look at a path, which is noted. -/
def watch (path : String) : StateM (FileSystem × List String) Bool :=
  fun (fs, seen) => (fs.isFile path, (fs, seen ++ [path]))

/-- The paths that are looked at from `index` on. -/
def seenFrom (fs : FileSystem) (m : Manifest) (index : Nat) : (count : Nat) → List String
  | 0 => []
  | count + 1 =>
    m.fragmentPath index ::
      if fs.isFile (m.fragmentPath index) then seenFrom fs m (index + 1) count else []

variable {fs : FileSystem} {m : Manifest} {found : List Fragment} {index count : Nat}

lemma locateFrom_present (here : fs.isFile (m.fragmentPath index)) :
    locateFrom fs m found index (count + 1) =
      locateFrom fs m (m.fragment index :: found) (index + 1) count := if_pos here

lemma locateFrom_absent (gap : ¬ fs.isFile (m.fragmentPath index)) :
    locateFrom fs m found index (count + 1) =
      .error (.missingFragment index (m.fragmentPath index)) := if_neg gap

lemma searchFrom_watch (seen : List String) :
    (searchFrom watch m found index count).run (fs, seen) =
      (locateFrom fs m found index count, (fs, seen ++ seenFrom fs m index count)) := by
  induction count generalizing found index seen with
  | zero =>
    rw [seenFrom, List.append_nil]
    rfl
  | succ count ih =>
    have hlook : (searchFrom watch m found index (count + 1)).run (fs, seen) =
        (if fs.isFile (m.fragmentPath index) then
          searchFrom watch m (m.fragment index :: found) (index + 1) count
        else return .error (.missingFragment index (m.fragmentPath index))).run
          (fs, seen ++ [m.fragmentPath index]) := rfl
    rw [hlook, seenFrom]
    by_cases here : fs.isFile (m.fragmentPath index)
    · rw [if_pos here, if_pos here, locateFrom_present here, ih, List.append_assoc]
      rfl
    · rw [if_neg here, if_neg here, locateFrom_absent here]
      rfl

lemma seenFrom_length_le : (seenFrom fs m index count).length ≤
    ((List.range' index count).takeWhile fun i => fs.isFile (m.fragmentPath i)).length + 1 := by
  induction count generalizing index with
  | zero => simp [seenFrom]
  | succ count ih =>
    rw [seenFrom, List.range'_succ, List.takeWhile_cons]
    split
    · rw [List.length_cons, List.length_cons]
      exact Nat.succ_le_succ ih
    · simp

lemma seenFrom_prefix :
    seenFrom fs m index count <+: (List.range' index count).map m.fragmentPath := by
  induction count generalizing index with
  | zero => simp [seenFrom]
  | succ count ih =>
    rw [seenFrom, List.range'_succ, List.map_cons, List.prefix_cons_inj]
    split
    · exact ih
    · exact List.nil_prefix

/-- What has not been looked at makes no difference. -/
lemma locateFrom_congr {other : FileSystem}
    (same : ∀ path ∈ seenFrom fs m index count, other.isFile path = fs.isFile path) :
    locateFrom other m found index count = locateFrom fs m found index count := by
  induction count generalizing found index with
  | zero => rfl
  | succ count ih =>
    obtain ⟨hhere, hlater⟩ := List.forall_mem_cons.mp same
    by_cases here : fs.isFile (m.fragmentPath index)
    · rw [if_pos here] at hlater
      rw [locateFrom_present here, locateFrom_present (hhere.trans here), ih hlater]
    · rw [locateFrom_absent here, locateFrom_absent (hhere ▸ here)]

/-- The search ends at the first gap. -/
lemma locateFrom_gap {i : Nat} (low : index ≤ i) (high : i < index + count)
    (before : ∀ j, index ≤ j → j < i → fs.isFile (m.fragmentPath j))
    (gap : ¬ fs.isFile (m.fragmentPath i)) :
    locateFrom fs m found index count = .error (.missingFragment i (m.fragmentPath i)) := by
  induction count generalizing found index with
  | zero => omega
  | succ count ih =>
    rcases Nat.eq_or_lt_of_le low with rfl | hlt
    · exact locateFrom_absent gap
    · rw [locateFrom_present (before index (Nat.le_refl _) hlt)]
      exact ih hlt (by omega) fun j hj => before j (by omega)

/-- An error is that of the first gap. -/
theorem locate_eq_error_iff {e : UpdateError} : locate fs m = .error e ↔
    ∃ i < m.fragmentCount, ¬ fs.isFile (m.fragmentPath i) ∧
      (∀ j < i, fs.isFile (m.fragmentPath j)) ∧
      e = .missingFragment i (m.fragmentPath i) := by
  have hgap {i : Nat} (high : i < m.fragmentCount) (gap : ¬ fs.isFile (m.fragmentPath i))
      (before : ∀ j < i, fs.isFile (m.fragmentPath j)) :
      locate fs m = .error (.missingFragment i (m.fragmentPath i)) :=
    locateFrom_gap (Nat.zero_le i) (by omega) (fun j _ hj => before j hj) gap
  constructor
  · intro h
    have hmissing : ∃ i, i < m.fragmentCount ∧ ¬ fs.isFile (m.fragmentPath i) := by
      by_contra hall
      push Not at hall
      have hok := locate_eq_ok_iff.mpr ⟨hall, rfl⟩
      cases hok.symm.trans h
    -- the smallest index that is missing
    obtain ⟨high, gap⟩ := Nat.find_spec hmissing
    have hbefore (j : Nat) (hj : j < Nat.find hmissing) : fs.isFile (m.fragmentPath j) := by
      by_contra hnot
      exact Nat.find_min hmissing hj ⟨Nat.lt_trans hj high, hnot⟩
    exact ⟨_, high, gap, hbefore, Except.error.inj (h.symm.trans (hgap high gap hbefore))⟩
  · rintro ⟨i, high, gap, before, rfl⟩
    exact hgap high gap before

/-- What the search for the fragments of a manifest comes to. -/
structure Located (fs : FileSystem) (m : Manifest) (result : Except UpdateError (List Fragment)) :
    Prop where
  /-- it succeeds exactly if every fragment is there -/
  complete : (∃ fragments, result = .ok fragments) ↔
    ∀ i < m.fragmentCount, fs.isFile (m.fragmentPath i)
  /-- it lists the fragments in the order of their indices -/
  listed : ∀ fragments, result = .ok fragments → fragments.length = m.fragmentCount ∧
    ∀ i f, fragments[i]? = some f → f.index = i ∧ f.path = m.fragmentPath i
  distinct : ∀ fragments, result = .ok fragments →
    (fragments.map fun f => Path.components f.path).Nodup
  /-- or it reports the first one that is missing -/
  gap : ∀ e, result = .error e ↔ ∃ i < m.fragmentCount, ¬ fs.isFile (m.fragmentPath i) ∧
    (∀ j < i, fs.isFile (m.fragmentPath j)) ∧ e = .missingFragment i (m.fragmentPath i)

lemma located (fs : FileSystem) (m : Manifest) : Located fs m (locate fs m) := by
  refine ⟨⟨?_, ?_⟩, fun fragments h => ?_, fun fragments h => ?_, fun e => locate_eq_error_iff⟩
  · rintro ⟨fragments, h⟩
    exact (locate_eq_ok_iff.mp h).1
  · intro files
    exact ⟨_, locate_eq_ok_iff.mpr ⟨files, rfl⟩⟩
  · obtain ⟨-, rfl⟩ := locate_eq_ok_iff.mp h
    refine ⟨by simp, fun i f hf => ?_⟩
    obtain ⟨-, rfl⟩ : i < m.fragmentCount ∧ m.fragment i = f := by
      simpa [List.getElem?_eq_some_iff] using hf
    exact ⟨rfl, rfl⟩
  · obtain ⟨-, rfl⟩ := locate_eq_ok_iff.mp h
    rw [List.map_map]
    exact List.nodup_range.map m.fragmentPath_components_injective

/-- However many fragments a manifest claims, and whatever name it gives them, the search lists all
of them in order or reports the first gap. It looks at the leading fragments and at one path more,
and neither changes anything nor depends on anything else: noting its looks leaves the result and
the files as they are. -/
theorem locate_reports_first_gap (fs : FileSystem) (m : Manifest) :
    Located fs m (locate fs m) ∧ ∃ seen,
      (searchFrom watch m [] 0 m.fragmentCount).run (fs, []) = (locate fs m, (fs, seen)) ∧
      seen <+: (List.range m.fragmentCount).map m.fragmentPath ∧
      seen.length ≤ m.leading fs + 1 ∧
      ∀ other : FileSystem, (∀ path ∈ seen, other.isFile path = fs.isFile path) →
        locate other m = locate fs m := by
  refine ⟨located fs m, seenFrom fs m 0 m.fragmentCount, searchFrom_watch [], ?_, ?_,
    fun other same => locateFrom_congr same⟩
  · rw [List.range_eq_range']
    exact seenFrom_prefix
  · rw [Manifest.leading, List.range_eq_range']
    exact seenFrom_length_le

end Fragment

end DeviceUpdate
