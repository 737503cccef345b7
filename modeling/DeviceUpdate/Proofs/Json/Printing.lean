import DeviceUpdate.Json.Printer
import DeviceUpdate.Proofs.Json.Spelling
import Mathlib.Data.List.Nodup

/-!
# Printed values are read back

`Plain j` says that all strings of the value are texts and all its numbers integers. What is
printed of such a value is read as the same value, with the members of every object in the order
of their keys.
-/

namespace DeviceUpdate.Json

/-! ## Strings and numbers -/

lemma hexDigit?_hexCharacter (n : Nat) : hexDigit? (hexCharacter n) = some (n % 16) := by
  have digits : ∀ m < 16, hexDigit? ((Nat.toDigits 16 m).headD '0') = some m := by decide
  exact digits (n % 16) (Nat.mod_lt _ (by decide))

/-- Every character is written as a unit that stands for it. -/
lemma spells_escapeCharacter (c : Char) :
    ∃ unit, SpellsUnit (escapeCharacter c) unit ∧
      ∀ seen rest, decodeUnits seen (unit :: rest) = decodeUnits (c :: seen) rest := by
  have simple {e : Char} (h : simpleEscape? e = some c) :
      ∃ unit, SpellsUnit ['\\', e] unit ∧
        ∀ seen rest, decodeUnits seen (unit :: rest) = decodeUnits (c :: seen) rest :=
    ⟨.char c, .simple h, fun _ _ => rfl⟩
  unfold escapeCharacter
  split_ifs with quote backslash backspace feed newline carriage tab control
  · exact simple (by rw [eq_of_beq quote]; rfl)
  · exact simple (by rw [eq_of_beq backslash]; rfl)
  · exact simple (by rw [eq_of_beq backspace]; rfl)
  · exact simple (by rw [eq_of_beq feed]; rfl)
  · exact simple (by rw [eq_of_beq newline]; rfl)
  · exact simple (by rw [eq_of_beq carriage]; rfl)
  · exact simple (by rw [eq_of_beq tab]; rfl)
  · refine ⟨.escaped c.toNat, .hex ?_, fun seen rest => ?_⟩
    · have zero : hexDigit? '0' = some 0 := rfl
      simp only [hexQuad?, zero, hexDigit?_hexCharacter, Option.bind_eq_bind, Option.bind_some]
      exact congrArg some (by omega)
    · -- a control character is no half of a surrogate pair
      have low : ¬ (0xD800 ≤ c.toNat) ∧ ¬ (0xDC00 ≤ c.toNat) := by omega
      rw [decodeUnits.eq_def]
      simp [low]
  · exact ⟨.char c, .plain (by omega) (by simpa using quote) (by simpa using backslash),
      fun _ _ => rfl⟩

lemma spells_escaped (cs : List Char) :
    ∃ units, List.Forall₂ SpellsUnit (cs.map escapeCharacter) units ∧
      ∀ seen, decodeUnits seen units = some (seen.reverse ++ cs) := by
  induction cs with
  | nil => exact ⟨[], .nil, fun seen => by simp [decodeUnits]⟩
  | cons c cs ih =>
    obtain ⟨unit, spelled, decoded⟩ := spells_escapeCharacter c
    obtain ⟨units, others, rest⟩ := ih
    exact ⟨unit :: units, .cons spelled others, fun seen => by simp [decoded, rest]⟩

/-- A printed string is its opening quote and what spells it. -/
lemma spells_quote (s : String) : ∃ cs, (quote s).toList = '"' :: cs ∧ SpellsText cs (some s) := by
  obtain ⟨units, spelled, decoded⟩ := spells_escaped s.toList
  refine ⟨s.toList.flatMap escapeCharacter ++ ['"'], by simp [quote], _, units, spelled, ?_, ?_⟩
  · simp [decoded]
  · rw [List.flatMap_def]

lemma natOfDigits_eq (digits : List Char) : natOfDigits digits = Nat.ofDigitChars 10 digits 0 := by
  simp [Nat.ofDigitChars_eq_foldl, natOfDigits, Nat.mul_comm]

lemma natOfDigits_toDigits (n : Nat) : natOfDigits (Nat.toDigits 10 n) = n := by
  rw [natOfDigits_eq, Nat.ofDigitChars_ten_toDigits]

lemma head_toDigits {n : Nat} (positive : 0 < n) : (Nat.toDigits 10 n).head? ≠ some '0' := by
  induction n using Nat.strongRecOn with
  | _ n ih =>
    by_cases small : n < 10
    · have digits : ∀ d < 10, 0 < d → d.digitChar ≠ '0' := by decide
      rw [Nat.toDigits_of_lt_base small]
      simpa using digits n small positive
    · rw [Nat.toDigits_of_base_le (by decide) (by omega),
        List.head?_append_of_ne_nil _ Nat.toDigits_ne_nil]
      exact ih (n / 10) (by omega) (by omega)

lemma numeral_toDigits (n : Nat) : Numeral (Nat.toDigits 10 n) where
  all d hd := by
    have digit := Nat.isDigit_of_mem_toDigits (by decide) (by decide) hd
    simpa [Char.isDigit, isDigit, Char.le_def] using digit
  nonempty := Nat.toDigits_ne_nil
  leading zero := by
    rcases Nat.eq_zero_or_pos n with rfl | positive
    · rfl
    · exact absurd zero (head_toDigits positive)

/-! ## Values -/

/-- All strings are texts, and all numbers integers. -/
inductive Plain : Json → Prop
  | null : Plain .null
  | bool (value : Bool) : Plain (.bool value)
  | integer (negative : Bool) (magnitude : Nat) : Plain (.integer negative magnitude)
  | text (s : String) : Plain (.ofString s)
  | array {items : List Json} (all : ∀ j ∈ items, Plain j) : Plain (.array items)
  | object {members : List (Option String × Json)} (keys : ∀ m ∈ members, m.1.isSome)
      (values : ∀ m ∈ members, Plain m.2) : Plain (.object members)

namespace Plain

attribute [simp] text bool

@[simp] lemma ofNat (n : Nat) : Plain (.ofNat n) := .integer false n

lemma ofMembers {members : List (String × Json)} (values : ∀ m ∈ members, Plain m.2) :
    Plain (.ofMembers members) := by
  refine .object ?_ ?_ <;> simp only [List.forall_mem_map]
  · exact fun m _ => rfl
  · exact values

end Plain

lemma prettyItems_eq (level : Nat) (items : List Json) :
    prettyItems level items = items.map (pretty level) := by
  induction items with
  | nil => rfl
  | cons j rest ih => rw [prettyItems, ih, List.map_cons]

lemma prettyMembers_eq (level : Nat) (members : List (Option String × Json)) :
    prettyMembers level members =
      members.map fun m => quote (m.1.getD "") ++ ": " ++ pretty level m.2 := by
  induction members with
  | nil => rfl
  | cons m rest ih => rw [prettyMembers, ih, List.map_cons]

lemma sortedItems_eq (items : List Json) : sortedItems items = items.map sorted := by
  induction items with
  | nil => rfl
  | cons j rest ih => rw [sortedItems, ih, List.map_cons]

lemma sortedMembers_eq (members : List (Option String × Json)) :
    sortedMembers members = members.map fun m => (m.1, sorted m.2) := by
  induction members with
  | nil => rfl
  | cons m rest ih => rw [sortedMembers, ih, List.map_cons]

/-- Texts between brackets have nothing but blanks around the commas. -/
lemma toList_bracketed (left right : Char) (level : Nat) (texts : List String) :
    ∃ front gap back, Blank front ∧ Blank gap ∧ Blank back ∧
      (bracketed left.toString right.toString level texts).toList =
        left :: (front ++ List.intercalate (',' :: gap) (texts.map String.toList) ++ back ++
          [right]) := by
  cases texts with
  | nil =>
    have none : Blank [] := by simp [Blank]
    exact ⟨[], [], [], none, none, none, by simp [bracketed]⟩
  | cons text texts =>
    have line (n : Nat) : Blank ('\n' :: List.replicate n ' ') := by simp [Blank, isSpace]
    refine ⟨_, _, _, line (2 * (level + 1)), line (2 * (level + 1)), line (2 * level), ?_⟩
    simp [bracketed, indentation, String.toList_intercalate]

lemma spells_pretty {j : Json} (h : Plain j) (level : Nat) : Spells (pretty level j).toList j := by
  induction h generalizing level with
  | null => simpa [pretty, leafText] using Spells.null
  | bool value =>
    cases value with
    | true => simpa [pretty, leafText] using Spells.bool true
    | false => simpa [pretty, leafText] using Spells.bool false
  | integer negative n =>
    have spelled := Spells.integer negative (numeral_toDigits n)
    rw [natOfDigits_toDigits] at spelled
    cases negative <;> simpa [pretty, leafText, Nat.toString_eq_ofList_toDigits] using spelled
  | text s =>
    obtain ⟨cs, printed, spelled⟩ := spells_quote s
    have leaf : pretty level (ofString s) = quote s := by simp [ofString, pretty, leafText]
    rw [leaf, printed]
    exact .string spelled
  | @array items _ ih =>
    obtain ⟨front, gap, back, before, between, behind, printed⟩ :=
      toList_bracketed '[' ']' level (prettyItems (level + 1) items)
    rw [pretty]
    refine (congrArg (Spells · _) printed).mpr (.array ?_ before between behind)
    rw [prettyItems_eq, List.map_map, List.forall₂_map_left_iff, List.forall₂_same]
    exact fun j hj => ih j hj (level + 1)
  | @object members keys _ ih =>
    obtain ⟨front, gap, back, before, between, behind, printed⟩ :=
      toList_bracketed '\x7b' '\x7d' level (prettyMembers (level + 1) members)
    rw [pretty]
    refine (congrArg (Spells · _) printed).mpr (.object ?_ before between behind)
    rw [prettyMembers_eq, List.map_map, List.forall₂_map_left_iff, List.forall₂_same]
    rintro ⟨key, j⟩ hj
    obtain ⟨key, rfl⟩ := Option.isSome_iff_exists.mp (keys _ hj)
    obtain ⟨cs, quoted, spelled⟩ := spells_quote key
    have blank : Blank [' '] := by simp [Blank, isSpace]
    exact ⟨cs, [], [' '] ++ (pretty (level + 1) j).toList, spelled, by simp [Blank],
      (ih _ hj (level + 1)).blank_append blank, by simp [quoted]⟩

lemma sortMembers_perm (members : List (Option String × Json)) :
    (sortMembers members).Perm members :=
  List.mergeSort_perm members _

lemma Plain.sorted {j : Json} (h : Plain j) : Plain j.sorted := by
  induction h with
  | null => exact .null
  | bool value => exact .bool value
  | integer negative n => exact .integer negative n
  | text s => exact .text s
  | array all ih =>
    rw [Json.sorted, sortedItems_eq]
    exact .array (List.forall_mem_map.mpr ih)
  | object keys values ih =>
    rw [Json.sorted, sortedMembers_eq]
    refine .object (fun m hm => ?_) (fun m hm => ?_)
    · obtain ⟨m, mem, rfl⟩ := List.mem_map.mp ((sortMembers_perm _).mem_iff.mp hm)
      exact keys m mem
    · obtain ⟨m, mem, rfl⟩ := List.mem_map.mp ((sortMembers_perm _).mem_iff.mp hm)
      exact ih m mem

/-- A document is read as what was printed, its members in the order of their keys. -/
theorem Plain.ofText?_document {j : Json} (h : Plain j) :
    ofText? (j.document ++ "\n") = some j.sorted := by
  have blank : Blank ['\n'] := by simp [Blank, isSpace]
  exact Spells.ofText?_eq (by simpa [document] using (spells_pretty h.sorted 0).append_blank blank)

/-- Two documents one behind the other are not a document. -/
lemma Plain.ofText?_documents {j k : Json} (first : Plain j) (second : Plain k) :
    ofText? (j.document ++ "\n" ++ (k.document ++ "\n")) = none := by
  have blank : Blank ['\n'] := by simp [Blank, isSpace]
  have more := (spells_pretty second.sorted 0).append_blank blank
  have behind : ("\n" ++ (k.document ++ "\n")).toList =
      '\n' :: ((pretty 0 k.sorted).toList ++ ['\n']) := by simp [document]
  rw [String.append_assoc]
  refine (spells_pretty first.sorted 0).ofText?_append ?_ ?_
  · rw [behind]
    rintro c ⟨⟩
    decide
  · rw [behind]
    exact (more.blank_append blank).not_blank

/-! ## Fields of a document -/

/-- A member whose key no other has is the field of that name. -/
lemma fields?_of_mem {members : List (Option String × Json)} {name : String} {j : Json}
    (keys : ∀ m ∈ members, m.1.isSome) (distinct : (members.map Prod.fst).Nodup)
    (mem : (some name, j) ∈ members) : (Json.object members).fields? [name] = some [some j] := by
  have once : (members.filter fun m => m.1 == some name).length ≤ 1 := by
    have count := List.nodup_iff_count_le_one.mp distinct (some name)
    rwa [List.count, List.countP_map, List.countP_eq_length_filter] at count
  have found : members.find? (fun m => m.1 == some name) = some (some name, j) := by
    obtain ⟨m, find⟩ := Option.isSome_iff_exists.mp
      (List.find?_isSome (p := fun m => m.1 == some name).mpr ⟨_, mem, by simp⟩)
    have same : m.1 = some name := by simpa using List.find?_some find
    rw [find, List.inj_on_of_nodup_map distinct (List.mem_of_find?_eq_some find) mem same]
  have texts : members.all (fun m => m.1.isSome) = true := List.all_eq_true.mpr keys
  simp [fields?, texts, once, found]

lemma fields?_sorted {members : List (String × Json)} {name : String} {j : Json}
    (distinct : (members.map Prod.fst).Nodup) (mem : (name, j) ∈ members) :
    (ofMembers members).sorted.fields? [name] = some [some j.sorted] := by
  have perm := sortMembers_perm (members.map fun m => (some m.1, m.2.sorted))
  rw [ofMembers, sorted, sortedMembers_eq, List.map_map]
  refine fields?_of_mem (fun m hm => ?_) ?_ (perm.mem_iff.mpr ?_)
  · obtain ⟨m, -, rfl⟩ := List.mem_map.mp (perm.mem_iff.mp hm)
    rfl
  · have keys : ((members.map Prod.fst).map some).Nodup := distinct.map fun _ _ => Option.some.inj
    rw [List.map_map] at keys
    exact (perm.map Prod.fst).nodup_iff.mpr (by rwa [List.map_map])
  · exact List.mem_map.mpr ⟨_, mem, rfl⟩

end DeviceUpdate.Json
