import DeviceUpdate.FileSystem.Path
import Mathlib.Tactic.Lemma

/-!
# Joined paths

A name without a slash that is joined to a base is the last name to walk through, whatever the base
is.
-/

namespace DeviceUpdate

lemma Text.splitWhere_append {p : Char → Bool} {c : Char} (h : p c) (a b : List Char) :
    Text.splitWhere p (a ++ c :: b) = Text.splitWhere p a ++ Text.splitWhere p b := by
  induction a with
  | nil => simp [Text.splitWhere_cons, Text.splitWhere_nil, h]
  | cons d a ih =>
    rw [List.cons_append, Text.splitWhere_cons, Text.splitWhere_cons, ih]
    split
    · rfl
    · cases hs : Text.splitWhere p a with
      | nil => exact absurd hs (Text.splitWhere_ne_nil p a)
      | cons w ws => rfl

lemma Text.splitWhere_of_not {p : Char → Bool} {a : List Char} (h : ∀ c ∈ a, p c = false) :
    Text.splitWhere p a = [a] := by
  induction a with
  | nil => rfl
  | cons c a ih =>
    rw [Text.splitWhere_cons, h c (by simp), ih fun d hd => h d (by simp [hd])]
    rfl

lemma Text.splitWhere_of_not_mem {c : Char} {a : List Char} (h : c ∉ a) :
    Text.splitWhere (· == c) a = [a] := by
  refine Text.splitWhere_of_not fun d hd => ?_
  simp only [beq_eq_false_iff_ne]
  rintro rfl
  exact h hd

namespace Path

lemma not_isAbsolute {name : String} (h : '/' ∉ name.toList) : isAbsolute name = false := by
  unfold isAbsolute
  cases hn : name.toList with
  | nil => rfl
  | cons c rest =>
    have hc : c ≠ '/' := by
      rintro rfl
      exact h (by simp [hn])
    simpa using hc

/-- What stands before a name that is joined to a base. -/
lemma toList_join (base : String) {name : String} (h : '/' ∉ name.toList) :
    ∃ before, (join base name).toList = before ++ name.toList ∧
      (before = [] ∨ ∃ front, before = front ++ ['/']) := by
  have habsolute := not_isAbsolute h
  rw [join, habsolute]
  simp only [Bool.false_eq_true, if_false]
  split
  · rename_i hbase
    refine ⟨base.toList, by simp, ?_⟩
    simp only [Bool.or_eq_true, List.isEmpty_iff, beq_iff_eq] at hbase
    rcases hbase with hempty | hlast
    · exact .inl hempty
    · obtain ⟨front, hfront⟩ := List.getLast?_eq_some_iff.mp hlast
      exact .inr ⟨front, hfront⟩
  · exact ⟨base.toList ++ ['/'], by simp, .inr ⟨_, rfl⟩⟩

lemma splitWhere_name {name : String} (h : '/' ∉ name.toList) :
    Text.splitWhere (· == '/') name.toList = [name.toList] :=
  Text.splitWhere_of_not_mem h

/-- A plain name that is joined to a base is walked through last. -/
lemma components_join (base : String) {name : String} (h : '/' ∉ name.toList)
    (nonempty : name.toList ≠ []) : ∃ names, components (join base name) = names ++ [name] := by
  obtain ⟨before, hjoin, hbefore⟩ := toList_join base h
  have hlast : (join base name).toList.getLast? ≠ some '/' := by
    rw [hjoin, List.getLast?_append, Option.or_of_isSome (by simpa using nonempty)]
    intro hslash
    exact h (List.mem_of_getLast? hslash)
  have hname := splitWhere_name h
  have hsplit : ∃ front, Text.splitWhere (· == '/') (join base name).toList =
      front ++ [name.toList] := by
    rw [hjoin]
    rcases hbefore with rfl | ⟨front, rfl⟩
    · exact ⟨[], hname⟩
    · refine ⟨Text.splitWhere (· == '/') front, ?_⟩
      rw [List.append_assoc, List.singleton_append, Text.splitWhere_append (by simp), hname]
  obtain ⟨front, hsplit⟩ := hsplit
  refine ⟨(front.filter (!·.isEmpty)).map String.ofList, ?_⟩
  rw [components, hsplit, if_neg (by simpa using hlast)]
  simp [nonempty]

/-- The names between the slashes of a text. -/
def namesOf (text : List Char) : List String :=
  ((Text.splitWhere (· == '/') text).filter (!·.isEmpty)).map String.ofList

lemma namesOf_append (a b : List Char) : namesOf (a ++ '/' :: b) = namesOf a ++ namesOf b := by
  rw [namesOf, Text.splitWhere_append (by simp), List.filter_append, List.map_append]
  rfl

lemma namesOf_name {name : String} (slash : '/' ∉ name.toList) (nonempty : name.toList ≠ []) :
    namesOf name.toList = [name] := by
  rw [namesOf, splitWhere_name slash]
  simp [nonempty]

/-- The path is the directory and one name more; the name does not replace the directory. -/
structure Under (directory path name : String) : Prop where
  names : namesOf path.toList = namesOf directory.toList ++ [name]
  absolute : isAbsolute path = isAbsolute directory
  begins : directory.toList <+: path.toList

/-- A name without a slash goes under every directory. -/
theorem under_join (directory : String) {name : String} (slash : '/' ∉ name.toList)
    (nonempty : name.toList ≠ []) : Under directory (join directory name) name := by
  have hname := namesOf_name slash nonempty
  have hrelative := not_isAbsolute slash
  rw [join, hrelative]
  simp only [Bool.false_eq_true, if_false, Bool.or_eq_true, List.isEmpty_iff, beq_iff_eq]
  split
  · rename_i hbase
    rcases hbase with hempty | hlast
    · obtain rfl : directory = "" := String.toList_eq_nil_iff.mp hempty
      refine ⟨?_, ?_, ?_⟩
      · rw [String.toList_append, hempty, List.nil_append, hname]
        rfl
      · rw [isAbsolute, String.toList_append, hempty, List.nil_append]
        exact hrelative
      · rw [hempty]
        exact List.nil_prefix
    · obtain ⟨front, hfront⟩ := List.getLast?_eq_some_iff.mp hlast
      refine ⟨?_, ?_, ?_⟩
      · rw [String.toList_append, hfront, List.append_assoc, List.singleton_append,
          namesOf_append, namesOf_append, hname]
        simp [namesOf, Text.splitWhere_nil]
      · rw [isAbsolute, isAbsolute, String.toList_append, hfront]
        cases front <;> rfl
      · rw [String.toList_append]
        exact List.prefix_append _ _
  · rename_i hbase
    have htext : (directory ++ "/" ++ name).toList = directory.toList ++ '/' :: name.toList := by
      simp
    refine ⟨by rw [htext, namesOf_append, hname], ?_, ?_⟩
    · rw [isAbsolute, isAbsolute, htext]
      cases hd : directory.toList with
      | nil => exact absurd (.inl hd) hbase
      | cons c rest => rfl
    · rw [htext]
      exact List.prefix_append _ _

/-- A name to look for in a directory, which leads nowhere else. -/
structure Single (name : String) : Prop where
  slash : '/' ∉ name.toList
  nonempty : name.toList ≠ []
  here : name ≠ "."
  up : name ≠ ".."

lemma single_of_length {name : String} (slash : '/' ∉ name.toList)
    (long : 2 < name.toList.length) : Single name := by
  refine ⟨slash, ?_, ?_, ?_⟩ <;> intro h <;> simp [h] at long

/-- The path is the directory and one name more, which leads nowhere else. -/
def Child (directory path : String) : Prop := ∃ name, Single name ∧ Under directory path name

lemma child_join (directory : String) {name : String} (single : Single name) :
    Child directory (join directory name) :=
  ⟨name, single, under_join directory single.slash single.nonempty⟩

/-- A plain name leads to no other directory. -/
lemma not_slash_of_isPlain {name : List Char} (h : isPlain name) : '/' ∉ name := by
  simp only [isPlain, Bool.and_eq_true, Bool.not_eq_true', List.contains_eq_mem,
    decide_eq_false_iff_not] at h
  exact h.1.1

end Path

end DeviceUpdate
