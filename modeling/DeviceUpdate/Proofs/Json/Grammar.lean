import DeviceUpdate.Proofs.Json.Printing
import DeviceUpdate.Proofs.Json.Strings

/-!
# The grammar of JSON

`Written cs j` says that the characters are a JSON text for the value: with blanks wherever they
mean nothing, any escapes in strings, and members in the order that the value keeps. Such a text is
read as the value.
-/

namespace DeviceUpdate.Json

instance (cs : List Char) : Decidable (Blank cs) :=
  decidable_of_iff (cs.all isSpace) List.all_eq_true

/-- A member as it is written: its key behind the opening quote, its value, and blanks. -/
structure Member where
  before : List Char
  key : List Char
  between : List Char
  value : List Char
  name : Option String
  content : Json

namespace Member

def chars (m : Member) : List Char := m.before ++ '"' :: (m.key ++ m.between ++ ':' :: m.value)

/-- The key is spelled, and there are blanks where blanks must be. -/
structure Formed (m : Member) : Prop where
  before : Blank m.before
  key : SpellsString m.key m.name
  between : Blank m.between

end Member

/-- The characters are a JSON text for the value. -/
inductive Written : List Char → Json → Prop
  | null : Written "null".toList .null
  | bool (value : Bool) : Written (if value then "true" else "false").toList (.bool value)
  | integer {digits : List Char} (negative : Bool) (numeral : Numeral digits) :
      Written ((if negative then ['-'] else []) ++ digits)
        (.integer negative (Nat.ofDigitChars 10 digits 0))
  | real {digits fraction exponent : List Char} (negative : Bool) (numeral : Numeral digits)
      (fractional : Fraction fraction) (exponential : Exponent exponent)
      (either : fraction ≠ [] ∨ exponent ≠ []) :
      Written ((if negative then ['-'] else []) ++ (digits ++ (fraction ++ exponent))) .real
  | string {cs : List Char} {text : Option String} (spelled : SpellsString cs text) :
      Written ('"' :: cs) (.string text)
  | array (gap : List Char) (items : List (List Char × Json)) (blank : Blank gap)
      (written : ∀ item ∈ items, Written item.1 item.2) :
      Written ('[' :: (gap ++ List.intercalate [','] (items.map (·.1)) ++ [']']))
        (.array (items.map (·.2)))
  | object (gap : List Char) (members : List Member) (blank : Blank gap)
      (formed : ∀ m ∈ members, m.Formed) (written : ∀ m ∈ members, Written m.value m.content) :
      Written ('\x7b' :: (gap ++ List.intercalate [','] (members.map Member.chars) ++ ['\x7d']))
        (.object (members.map fun m => (m.name, m.content)))
  /-- blanks around a value -/
  | padded (front back : List Char) {cs : List Char} {j : Json} (before : Blank front)
      (written : Written cs j) (behind : Blank back) : Written (front ++ cs ++ back) j

/-! ### Written texts are read -/

lemma blank_nil : Blank [] := by decide

/-- Each part may have blanks of its own in front. -/
lemma Bracketing.padded {α : Type} {opening closing : Char} {build : List α → Json}
    {read : Nat → List α → List Char → Option (Json × List Char)} {Part : List Char → α → Prop}
    (h : Bracketing opening closing read build Part) :
    Bracketing opening closing read build fun cs a =>
      ∃ blank piece, Blank blank ∧ Part piece a ∧ cs = blank ++ piece where
  solid := h.solid
  stops := h.stops
  empty := h.empty
  first := h.first
  next {fuel seen front cs part rest after} spelled before enough stops comma := by
    obtain ⟨blank, piece, spaces, spelled, rfl⟩ := spelled
    rw [← List.append_assoc] at enough ⊢
    exact h.next spelled (before.append spaces) enough stops comma
  last {fuel seen front cs part rest after} spelled before enough stops closes := by
    obtain ⟨blank, piece, spaces, spelled, rfl⟩ := spelled
    rw [← List.append_assoc] at enough ⊢
    exact h.last spelled (before.append spaces) enough stops closes

/-- How a member is spelled, with blanks in front. -/
def SpellsPadded (cs : List Char) (m : Option String × Json) : Prop :=
  ∃ blank piece, Blank blank ∧ SpellsMember piece m ∧ cs = blank ++ piece

lemma Member.Formed.spells {m : Member} (h : m.Formed) (value : Spells m.value m.content) :
    SpellsPadded m.chars (m.name, m.content) :=
  ⟨m.before, _, h.before,
    ⟨m.key, m.between, m.value, spellsText_iff.mpr h.key, h.between, value, rfl⟩, rfl⟩

lemma forall₂_spells {members : List Member} (formed : ∀ m ∈ members, m.Formed)
    (values : ∀ m ∈ members, Spells m.value m.content) :
    List.Forall₂ SpellsPadded (members.map Member.chars)
      (members.map fun m => (m.name, m.content)) := by
  rw [List.forall₂_map_left_iff, List.forall₂_map_right_iff, List.forall₂_same]
  exact fun m hm => (formed m hm).spells (values m hm)

theorem Written.spells {cs : List Char} {j : Json} (h : Written cs j) : Spells cs j := by
  induction h with
  | null => exact .null
  | bool value => exact .bool value
  | integer negative numeral =>
    rw [← natOfDigits_eq]
    exact .integer negative numeral
  | real negative numeral fractional exponential either =>
    exact .real negative numeral fractional exponential either
  | string spelled => exact .string (spellsText_iff.mpr spelled)
  | array gap items blank _ ih =>
    have spelled : List.Forall₂ Spells (items.map (·.1)) (items.map (·.2)) := by
      rw [List.forall₂_map_left_iff, List.forall₂_map_right_iff, List.forall₂_same]
      exact ih
    simpa using Spells.array spelled blank blank_nil blank_nil
  | object gap members blank formed _ ih =>
    simpa using bracketing_object.padded.spells (forall₂_spells formed ih) blank blank_nil blank_nil
  | padded _ _ before _ behind ih => exact (ih.blank_append before).append_blank behind

theorem Written.ofText?_eq {text : String} {j : Json} (h : Written text.toList j) :
    ofText? text = some j :=
  h.spells.ofText?_eq

/-- A written object has its brackets, and blanks around them. -/
lemma Written.object_parts {cs : List Char} {members : List (Option String × Json)}
    (h : Written cs (.object members)) : ∃ front gap pieces back, Blank front ∧ Blank gap ∧
      Blank back ∧ List.Forall₂ SpellsPadded pieces members ∧
      cs = front ++ '\x7b' :: (gap ++ List.intercalate [','] pieces ++ '\x7d' :: back) := by
  generalize hj : Json.object members = j at h
  induction h with
  | null | bool _ | integer _ _ | real _ _ _ _ _ | string _ | array _ _ _ _ => cases hj
  | object gap written blank formed values _ =>
    obtain rfl := Json.object.inj hj
    have spelled := forall₂_spells formed fun m hm => (values m hm).spells
    exact ⟨[], gap, _, [], blank_nil, blank, blank_nil, spelled, by simp⟩
  | padded _ _ before _ behind ih =>
    obtain ⟨front, gap, pieces, back, hfront, hgap, hback, spelled, rfl⟩ := ih hj
    exact ⟨_, gap, pieces, _, before.append hfront, hgap, hback.append behind, spelled, by simp⟩

/-- An object ends with its bracket: what stands behind it, if not blank, makes the text none. -/
theorem Written.ofText?_append {cs more : List Char} {members : List (Option String × Json)}
    (h : Written cs (.object members)) (something : ¬ Blank more) :
    ofText? (String.ofList (cs ++ more)) = none := by
  obtain ⟨front, gap, pieces, back, hfront, hgap, hback, spelled, rfl⟩ := h.object_parts
  have left : skipSpace (back ++ more) ≠ [] := by
    rw [skipSpace_append hback]
    simpa [skipSpace, Blank] using something
  -- `Spells` does not tell what is read in front of a digit, but a bracket ends the object
  have read := bracketing_object.padded.readValue_eq spelled hgap blank_nil blank_nil
    (front ++ '\x7b' :: (gap ++ List.intercalate [','] pieces ++ '\x7d' :: back) ++ more).length
    (back ++ more) (by simp; omega)
  have text : front ++ '\x7b' :: (gap ++ List.intercalate [','] pieces ++ '\x7d' :: back) ++ more =
      front ++ '\x7b' :: (gap ++ List.intercalate [','] pieces ++ '\x7d' :: (back ++ more)) := by
    simp
  rw [List.nil_append, text] at read
  simp only [ofText?, String.toList_ofList, text, readValue_append hfront, read, List.isEmpty_iff,
    left, if_false]

/-! ### Printed values are written -/

lemma compactItems_eq (items : List Json) : compactItems items = items.map compact := by
  induction items with
  | nil => rfl
  | cons j rest ih => rw [compactItems, ih, List.map_cons]

lemma compactMembers_eq (members : List (Option String × Json)) :
    compactMembers members = members.map fun m => quote (m.1.getD "") ++ ":" ++ compact m.2 := by
  induction members with
  | nil => rfl
  | cons m rest ih => rw [compactMembers, ih, List.map_cons]

lemma toList_brackets (left right : Char) (texts : List String) :
    (left.toString ++ String.intercalate "," texts ++ right.toString).toList =
      left :: ([] ++ List.intercalate [','] (texts.map String.toList) ++ [right]) := by
  simp [String.toList_intercalate]

/-- A member as it is printed on one line. -/
def compactMember (m : Option String × Json) : Member where
  before := []
  key := (quote (m.1.getD "")).toList.tail
  between := []
  value := (compact m.2).toList
  name := m.1
  content := m.2

lemma compactMember_formed {m : Option String × Json} (key : m.1.isSome) :
    (compactMember m).Formed ∧
      (compactMember m).chars = (quote (m.1.getD "") ++ ":" ++ compact m.2).toList := by
  obtain ⟨name, j⟩ := m
  obtain ⟨name, rfl⟩ := Option.isSome_iff_exists.mp key
  obtain ⟨cs, printed, spelled⟩ := spells_quote name
  refine ⟨⟨blank_nil, ?_, blank_nil⟩, ?_⟩
  · simpa [compactMember, printed] using spellsText_iff.mp spelled
  · simp [compactMember, Member.chars, printed]

/-- What is printed on one line is a text for the value. -/
theorem Plain.written_compact {j : Json} (h : Plain j) : Written (compact j).toList j := by
  induction h with
  | null => simpa [compact, leafText] using Written.null
  | bool value =>
    cases value with
    | true => simpa [compact, leafText] using Written.bool true
    | false => simpa [compact, leafText] using Written.bool false
  | integer negative n =>
    have written := Written.integer negative (numeral_toDigits n)
    rw [Nat.ofDigitChars_ten_toDigits] at written
    cases negative <;> simpa [compact, leafText, Nat.toString_eq_ofList_toDigits] using written
  | text s =>
    obtain ⟨cs, printed, spelled⟩ := spells_quote s
    have leaf : compact (ofString s) = quote s := by simp [ofString, compact, leafText]
    rw [leaf, printed]
    exact .string (spellsText_iff.mp spelled)
  | @array items _ ih =>
    have written := Written.array [] (items.map fun j => ((compact j).toList, j)) blank_nil
      (by simpa using ih)
    rw [compact, compactItems_eq]
    refine (congrArg (Written · _) (toList_brackets '[' ']' _)).mpr ?_
    simpa [Function.comp_def] using written
  | @object members keys _ ih =>
    have printed : (members.map fun m => quote (m.1.getD "") ++ ":" ++ compact m.2).map
        String.toList = (members.map compactMember).map Member.chars := by
      rw [List.map_map, List.map_map]
      exact List.map_congr_left fun m hm => (compactMember_formed (keys m hm)).2.symm
    have written := Written.object [] (members.map compactMember) blank_nil
      (List.forall_mem_map.mpr fun m hm => (compactMember_formed (keys m hm)).1)
      (List.forall_mem_map.mpr ih)
    have content : (members.map compactMember).map (fun m => (m.name, m.content)) = members := by
      rw [List.map_map]
      exact List.map_id members
    rw [compact, compactMembers_eq]
    refine (congrArg (Written · _) (toList_brackets '\x7b' '\x7d' _)).mpr ?_
    rw [printed]
    rwa [content] at written

end DeviceUpdate.Json
