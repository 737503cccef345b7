import DeviceUpdate.Proofs.Text.Rows

/-!
# The words of a line

The fields of a text are its words: runs of characters that are not blank, each as long as it can
be, with blanks in front, between and behind. Every text has them in one way only.
-/

namespace DeviceUpdate.Text

/-- The text has these words. What follows a word is nothing, or a blank. -/
inductive Words : List Char → List (List Char) → Prop
  | none {cs : List Char} (blank : ∀ c ∈ cs, isBlank c) : Words cs []
  | word {lead w rest : List Char} {ws : List (List Char)} (blank : ∀ c ∈ lead, isBlank c)
      (nonempty : w ≠ []) (solid : ∀ c ∈ w, isBlank c = false)
      (ends : ∀ c, rest.head? = some c → isBlank c) (others : Words rest ws) :
      Words (lead ++ (w ++ rest)) (w :: ws)

/-- A blank divides the words. -/
lemma fields_append_cons {c : Char} (blank : isBlank c) (a b : List Char) :
    fields (a ++ c :: b) = fields a ++ fields b := by
  rw [fields, splitWhere_append blank, List.filter_append]
  rfl

lemma fields_cons {c : Char} (blank : isBlank c) (cs : List Char) : fields (c :: cs) = fields cs :=
  fields_append_cons blank [] cs

lemma fields_blank_append {lead : List Char} (blank : ∀ c ∈ lead, isBlank c) (cs : List Char) :
    fields (lead ++ cs) = fields cs := by
  induction lead with
  | nil => rfl
  | cons c lead ih =>
    obtain ⟨first, others⟩ := List.forall_mem_cons.mp blank
    rw [List.cons_append, fields_cons first, ih others]

lemma fields_solid {w : List Char} (nonempty : w ≠ []) (solid : ∀ c ∈ w, isBlank c = false) :
    fields w = [w] := by
  rw [fields, splitWhere_of_not solid]
  simp [nonempty]

lemma fields_word {w rest : List Char} (nonempty : w ≠ []) (solid : ∀ c ∈ w, isBlank c = false)
    (ends : ∀ c, rest.head? = some c → isBlank c) : fields (w ++ rest) = w :: fields rest := by
  cases rest with
  | nil =>
    rw [List.append_nil, fields_solid nonempty solid]
    rfl
  | cons c rest =>
    have blank := ends c rfl
    rw [fields_append_cons blank, fields_solid nonempty solid, fields_cons blank]
    rfl

lemma Words.fields_eq {cs : List Char} {ws : List (List Char)} (h : Words cs ws) :
    fields cs = ws := by
  induction h with
  | @none cs blank =>
    rw [← List.append_nil cs, fields_blank_append blank]
    rfl
  | word blank nonempty solid ends _ ih =>
    rw [fields_blank_append blank, fields_word nonempty solid ends, ih]

/-- A text is blank, or has a first word. -/
lemma blank_or_first_word (cs : List Char) : (∀ c ∈ cs, isBlank c) ∨
    ∃ lead w rest, cs = lead ++ (w ++ rest) ∧ (∀ c ∈ lead, isBlank c) ∧ w ≠ [] ∧
      (∀ c ∈ w, isBlank c = false) ∧ ∀ c, rest.head? = some c → isBlank c := by
  have hcs : cs = cs.takeWhile isBlank ++ cs.dropWhile isBlank :=
    List.takeWhile_append_dropWhile.symm
  cases htail : cs.dropWhile isBlank with
  | nil => exact .inl (List.dropWhile_eq_nil_iff.mp htail)
  | cons d tail =>
    have hfirst : isBlank d = false := by
      have hnot := List.head?_dropWhile_not isBlank cs
      simpa [htail] using hnot
    refine .inr ⟨cs.takeWhile isBlank, d :: tail.takeWhile (!isBlank ·),
      tail.dropWhile (!isBlank ·), ?_, fun c hc => List.mem_takeWhile_imp hc,
      List.cons_ne_nil _ _, List.forall_mem_cons.mpr ⟨hfirst, fun c hc => ?_⟩, fun c hc => ?_⟩
    · rw [List.cons_append, List.takeWhile_append_dropWhile, ← htail, ← hcs]
    · simpa using List.mem_takeWhile_imp hc
    · have hnot := List.head?_dropWhile_not (!isBlank ·) tail
      simpa [hc] using hnot

/-- Every text has words. -/
lemma words_fields (cs : List Char) : Words cs (fields cs) := by
  rcases blank_or_first_word cs with blank | ⟨lead, w, rest, rfl, blank, nonempty, solid, ends⟩
  · have hnone : Words cs [] := .none blank
    rwa [hnone.fields_eq]
  · have hshort : 0 < w.length := List.length_pos_of_ne_nil nonempty
    have hwords := Words.word blank nonempty solid ends (words_fields rest)
    rwa [hwords.fields_eq]
termination_by cs.length
decreasing_by
  subst cs
  simp only [List.length_append]
  omega

/-- The fields of a text are its words. -/
theorem fields_eq_iff {cs : List Char} {ws : List (List Char)} : fields cs = ws ↔ Words cs ws := by
  constructor
  · rintro rfl
    exact words_fields cs
  · exact Words.fields_eq

/-- A carriage return at the end of a row belongs to no word. -/
lemma fields_dropReturn (row : List Char) : fields (dropReturn row) = fields row := by
  unfold dropReturn
  split
  · rename_i hlast
    obtain ⟨front, rfl⟩ := List.getLast?_eq_some_iff.mp hlast
    rw [List.dropLast_concat, fields_append_cons (by decide)]
    exact (List.append_nil _).symm
  · rfl

end DeviceUpdate.Text
