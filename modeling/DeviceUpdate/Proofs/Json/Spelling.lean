import DeviceUpdate.Json.Reader
import Mathlib.Data.List.DropRight
import Mathlib.Data.List.Forall2
import Mathlib.Tactic.Lemma

/-!
# What texts are read as

`Spells cs j` says that the characters `cs` are read as the value `j` wherever they stand, with
any blanks around them. It holds of every leaf that is spelled by the rules, and of arrays and
objects whose parts are spelled.
-/

namespace DeviceUpdate.Json

/-! ## Strings -/

/-- How a unit of a string is spelled. -/
inductive SpellsUnit : List Char → Unit16 → Prop
  | plain {c : Char} (printable : 0x20 ≤ c.toNat) (quote : c ≠ '"') (escape : c ≠ '\\') :
      SpellsUnit [c] (.char c)
  | simple {e c : Char} (escape : simpleEscape? e = some c) : SpellsUnit ['\\', e] (.char c)
  | hex {a b c d : Char} {n : Nat} (digits : hexQuad? a b c d = some n) :
      SpellsUnit ['\\', 'u', a, b, c, d] (.escaped n)

lemma readUnits_of_spells {piece : List Char} {unit : Unit16} (h : SpellsUnit piece unit)
    (seen : List Unit16) (rest : List Char) :
    readUnits seen (piece ++ rest) = readUnits (unit :: seen) rest := by
  cases h with
  | @plain c printable quote escape =>
    have ordinary : ¬ (c.toNat < 0x20) := by omega
    simp [readUnits, escape, ordinary]
  | @simple e c escape =>
    have notHex : e ≠ 'u' := by rintro rfl; simp [simpleEscape?] at escape
    simp [readUnits, notHex, escape]
  | hex digits => simp [readUnits, digits]

lemma readUnits_flatten {pieces : List (List Char)} {units : List Unit16}
    (h : List.Forall₂ SpellsUnit pieces units) (seen : List Unit16) (rest : List Char) :
    readUnits seen (pieces.flatten ++ '"' :: rest) = some (seen.reverse ++ units, rest) := by
  induction h generalizing seen with
  | nil => simp [readUnits]
  | cons first _ ih =>
    rw [List.flatten_cons, List.append_assoc, readUnits_of_spells first, ih]
    simp

/-- How a string is spelled behind its opening quote. -/
def SpellsText (cs : List Char) (text : Option String) : Prop :=
  ∃ pieces units, List.Forall₂ SpellsUnit pieces units ∧
    (decodeUnits [] units).map String.ofList = text ∧ cs = pieces.flatten ++ ['"']

lemma readString_of_spells {cs : List Char} {text : Option String} (h : SpellsText cs text)
    (rest : List Char) : readString (cs ++ rest) = some (text, rest) := by
  obtain ⟨pieces, units, spelled, decoded, rfl⟩ := h
  rw [readString, List.append_assoc, List.singleton_append, readUnits_flatten spelled]
  simp [decoded]

/-! ## Blanks and what follows a value -/

/-- There is nothing but blanks. -/
def Blank (cs : List Char) : Prop := ∀ c ∈ cs, isSpace c

/-- The characters do not go on with a number that ends in front of them. -/
def Stops (cs : List Char) : Prop :=
  ∀ c ∈ cs.head?, isDigit c = false ∧ c ≠ '.' ∧ c ≠ 'e' ∧ c ≠ 'E'

lemma Blank.append {front back : List Char} (h : Blank front) (h' : Blank back) :
    Blank (front ++ back) :=
  fun c hc => (List.mem_append.mp hc).elim (h c) (h' c)

lemma skipSpace_append {blank : List Char} (h : Blank blank) (cs : List Char) :
    skipSpace (blank ++ cs) = skipSpace cs :=
  List.dropWhile_append_of_pos h

lemma skipSpace_skipSpace (cs : List Char) : skipSpace (skipSpace cs) = skipSpace cs :=
  List.dropWhile_idempotent isSpace cs

lemma skipSpace_cons {c : Char} (h : isSpace c = false) (cs : List Char) :
    skipSpace (c :: cs) = c :: cs :=
  List.dropWhile_cons_of_neg (by simp [h])

lemma readValue_append {blank : List Char} (h : Blank blank) (fuel : Nat) (cs : List Char) :
    readValue fuel (blank ++ cs) = readValue fuel cs := by
  cases fuel with
  | zero => rfl
  | succ fuel => simp only [readValue, skipSpace_append h]

lemma readValue_skipSpace (fuel : Nat) (cs : List Char) :
    readValue fuel (skipSpace cs) = readValue fuel cs := by
  have blank : Blank (cs.takeWhile isSpace) := fun c hc => List.mem_takeWhile_imp hc
  conv_rhs => rw [← List.takeWhile_append_dropWhile (p := isSpace) (l := cs)]
  rw [readValue_append blank]
  rfl

lemma Stops.append {blank cs : List Char} (h : Stops cs) (spaces : Blank blank) :
    Stops (blank ++ cs) := by
  cases blank with
  | nil => exact h
  | cons c blank =>
    have space := spaces c List.mem_cons_self
    simp only [isSpace, Bool.or_eq_true, beq_iff_eq] at space
    rintro d ⟨⟩
    obtain ((rfl | rfl) | rfl) | rfl := space <;> decide

/-! ## Numbers -/

/-- The digits of a number: at least one, and no zero in front of others. -/
structure Numeral (digits : List Char) : Prop where
  all : ∀ d ∈ digits, isDigit d
  nonempty : digits ≠ []
  leading : digits.head? = some '0' → digits.length = 1

lemma span_digits {digits rest : List Char} (all : ∀ d ∈ digits, isDigit d)
    (stop : ∀ c ∈ rest.head?, isDigit c = false) :
    (digits ++ rest).takeWhile isDigit = digits ∧ (digits ++ rest).dropWhile isDigit = rest := by
  have none : rest.takeWhile isDigit = [] ∧ rest.dropWhile isDigit = rest := by
    cases rest with
    | nil => simp
    | cons c rest => simp [stop c rfl]
  rw [List.takeWhile_append_of_pos all, List.dropWhile_append_of_pos all, none.1, none.2]
  simp

/-- A point and the digits behind it, or nothing. -/
inductive Fraction : List Char → Prop
  | none : Fraction []
  | some {digits : List Char} (nonempty : digits ≠ []) (all : ∀ d ∈ digits, isDigit d) :
      Fraction ('.' :: digits)

/-- The mark of an exponent and its digits, with a sign or without, or nothing. -/
inductive Exponent : List Char → Prop
  | none : Exponent []
  | some {e : Char} {sign digits : List Char} (mark : e = 'e' ∨ e = 'E')
      (signed : sign ∈ [[], ['+'], ['-']]) (nonempty : digits ≠ [])
      (all : ∀ d ∈ digits, isDigit d) : Exponent (e :: (sign ++ digits))

lemma readFraction_append {fraction rest : List Char} (h : Fraction fraction)
    (stop : ∀ c ∈ rest.head?, isDigit c = false ∧ c ≠ '.') :
    readFraction (fraction ++ rest) = some (!fraction.isEmpty, rest) := by
  cases h with
  | none =>
    cases rest with
    | nil => rfl
    | cons c rest => simp [readFraction, (stop c rfl).2]
  | some nonempty all =>
    obtain ⟨taken, dropped⟩ := span_digits all fun c hc => (stop c hc).1
    simp [readFraction, taken, dropped, nonempty]

lemma readExponent_append {exponent rest : List Char} (h : Exponent exponent)
    (stops : Stops rest) :
    readExponent (exponent ++ rest) = some (!exponent.isEmpty, rest) := by
  cases h with
  | none =>
    cases rest with
    | nil => rfl
    | cons c rest => simp [readExponent, (stops c rfl).2.2]
  | @some e sign digits mark signed nonempty all =>
    have unsigned : dropSign (sign ++ (digits ++ rest)) = digits ++ rest := by
      obtain ⟨d, digits, rfl⟩ := List.exists_cons_of_ne_nil nonempty
      have digit := all d List.mem_cons_self
      have notSign : d ≠ '+' ∧ d ≠ '-' := by
        constructor <;> rintro rfl <;> simp [isDigit] at digit
      simp only [List.mem_cons, List.not_mem_nil, or_false] at signed
      rcases signed with rfl | rfl | rfl <;> simp [dropSign, notSign]
    obtain ⟨taken, dropped⟩ := span_digits all fun c hc => (stops c hc).1
    simp [readExponent, mark, unsigned, taken, dropped, nonempty]

/-- A number is an integer if there is neither a fraction nor an exponent. -/
lemma readUnsigned_append {digits fraction exponent rest : List Char} (negative : Bool)
    (h : Numeral digits) (fractional : Fraction fraction) (exponential : Exponent exponent)
    (stops : Stops rest) :
    readUnsigned negative (digits ++ fraction ++ exponent ++ rest) =
      some (if fraction = [] ∧ exponent = [] then .integer negative (natOfDigits digits) else .real,
        rest) := by
  have single : ¬ (1 < digits.length ∧ digits.head? = some '0') := fun ⟨long, zero⟩ => by
    have := h.leading zero
    omega
  have behind : ∀ c ∈ (exponent ++ rest).head?, isDigit c = false ∧ c ≠ '.' := by
    cases exponential with
    | none => exact fun c hc => ⟨(stops c hc).1, (stops c hc).2.1⟩
    | some mark =>
      rintro c ⟨⟩
      rcases mark with rfl | rfl <;> decide
  have front : ∀ c ∈ (fraction ++ (exponent ++ rest)).head?, isDigit c = false := by
    cases fractional with
    | none => exact fun c hc => (behind c hc).1
    | some =>
      rintro c ⟨⟩
      decide
  obtain ⟨taken, dropped⟩ := span_digits h.all front
  have fractionRead := readFraction_append fractional behind
  have exponentRead := readExponent_append exponential stops
  rw [List.append_assoc, List.append_assoc]
  simp only [readUnsigned, taken, dropped, fractionRead, exponentRead, Option.bind_eq_bind,
    Option.bind_some]
  cases fraction <;> cases exponent <;> simp [h.nonempty, single]

/-! ## Values -/

/-- Whatever follows that does not go on with a number, the characters are read as the value, and
nothing else is read but blanks. -/
def Spells (cs : List Char) (j : Json) : Prop :=
  ∀ fuel rest, cs.length ≤ fuel → Stops rest →
    ∃ left, readValue fuel (cs ++ rest) = some (j, left) ∧ skipSpace left = skipSpace rest

/-- A digit begins a number and nothing else. -/
lemma readValue_of_digit {d : Char} (digit : isDigit d) (fuel : Nat) (rest : List Char) :
    readValue (fuel + 1) (d :: rest) = readUnsigned false (d :: rest) := by
  have other : ∀ c, isDigit c = false → d ≠ c := by
    rintro c no rfl
    simp [digit] at no
  have space : isSpace d = false := by
    simp [isSpace, other ' ' rfl, other '\n' rfl, other '\r' rfl, other '\t' rfl]
  simp [readValue, skipSpace_cons space, readNumber, other 'n' rfl, other 't' rfl, other 'f' rfl,
    other '"' rfl, other '[' rfl, other '\x7b' rfl, other '-' rfl]

namespace Spells

/-- The leaves are read by one step. -/
lemma of_step {cs : List Char} {j : Json} (nonempty : cs ≠ [])
    (step : ∀ fuel rest, Stops rest → readValue (fuel + 1) (cs ++ rest) = some (j, rest)) :
    Spells cs j := by
  intro fuel rest enough stops
  obtain ⟨fuel, rfl⟩ : ∃ n, fuel = n + 1 :=
    Nat.exists_eq_add_one.mpr (Nat.lt_of_lt_of_le (List.length_pos_of_ne_nil nonempty) enough)
  exact ⟨rest, step fuel rest stops, rfl⟩

lemma null : Spells "null".toList .null :=
  of_step (by simp) fun fuel rest _ => by simp [readValue, skipSpace, isSpace]

lemma bool (value : Bool) : Spells (if value then "true" else "false").toList (.bool value) := by
  cases value with
  | true => exact of_step (by simp) fun fuel rest _ => by simp [readValue, skipSpace, isSpace]
  | false => exact of_step (by simp) fun fuel rest _ => by simp [readValue, skipSpace, isSpace]

lemma string {cs : List Char} {text : Option String} (h : SpellsText cs text) :
    Spells ('"' :: cs) (.string text) :=
  of_step (by simp) fun fuel rest _ => by
    simp [readValue, skipSpace, isSpace, readString_of_spells h]

lemma number {digits more : List Char} {j : Json} (negative : Bool) (h : Numeral digits)
    (read : ∀ rest, Stops rest → readUnsigned negative (digits ++ more ++ rest) = some (j, rest)) :
    Spells ((if negative then ['-'] else []) ++ (digits ++ more)) j := by
  refine of_step (by simp [h.nonempty]) fun fuel rest stops => ?_
  have read := read rest stops
  cases negative with
  | true => simpa [readValue, skipSpace, isSpace, readNumber] using read
  | false =>
    obtain ⟨d, digits, rfl⟩ := List.exists_cons_of_ne_nil h.nonempty
    exact (readValue_of_digit (h.all d List.mem_cons_self) fuel _).trans read

lemma integer {digits : List Char} (negative : Bool) (h : Numeral digits) :
    Spells ((if negative then ['-'] else []) ++ digits)
      (.integer negative (natOfDigits digits)) := by
  have read := @number digits [] _ negative h fun rest stops => by
    simpa using readUnsigned_append negative h .none .none stops
  rwa [List.append_nil] at read

lemma real {digits fraction exponent : List Char} (negative : Bool) (h : Numeral digits)
    (fractional : Fraction fraction) (exponential : Exponent exponent)
    (either : fraction ≠ [] ∨ exponent ≠ []) :
    Spells ((if negative then ['-'] else []) ++ (digits ++ (fraction ++ exponent))) .real :=
  number negative h fun rest stops => by
    have neither : ¬ (fraction = [] ∧ exponent = []) := by tauto
    have read := readUnsigned_append negative h fractional exponential stops
    rwa [if_neg neither, List.append_assoc digits] at read

lemma blank_append {blank cs : List Char} {j : Json} (h : Spells cs j) (spaces : Blank blank) :
    Spells (blank ++ cs) j := by
  intro fuel rest enough stops
  obtain ⟨left, read, same⟩ := h fuel rest (by simp at enough; omega) stops
  exact ⟨left, by rw [List.append_assoc, readValue_append spaces, read], same⟩

lemma append_blank {blank cs : List Char} {j : Json} (h : Spells cs j) (spaces : Blank blank) :
    Spells (cs ++ blank) j := by
  intro fuel rest enough stops
  obtain ⟨left, read, same⟩ := h fuel (blank ++ rest) (by simp at enough; omega)
    (stops.append spaces)
  exact ⟨left, by rw [List.append_assoc, read], by rw [same, skipSpace_append spaces]⟩

/-- A text that spells a value is read as it. -/
lemma ofText?_eq {text : String} {j : Json} (h : Spells text.toList j) : ofText? text = some j := by
  obtain ⟨left, read, same⟩ := h (text.toList.length + 1) [] (by omega) (by simp [Stops])
  rw [List.append_nil] at read
  have nothing : skipSpace left = [] := same
  simp [ofText?, read, nothing]

lemma not_blank {cs : List Char} {j : Json} (h : Spells cs j) : skipSpace cs ≠ [] := by
  intro blank
  obtain ⟨left, read, -⟩ := h (cs.length + 1) [] (by omega) (by simp [Stops])
  rw [List.append_nil, ← readValue_skipSpace, blank] at read
  simp [readValue, skipSpace, readNumber, readUnsigned] at read

/-- A text that goes on behind a value spells none. -/
lemma ofText?_append {text more : String} {j : Json} (h : Spells text.toList j)
    (stops : Stops more.toList) (something : skipSpace more.toList ≠ []) :
    ofText? (text ++ more) = none := by
  obtain ⟨left, read, same⟩ := h ((text ++ more).toList.length + 1) more.toList (by simp; omega)
    stops
  rw [← String.toList_append] at read
  rw [← same] at something
  simp only [ofText?, read, List.isEmpty_iff, something, if_false]

end Spells

/-! ## Arrays and objects -/

/-- How a member of an object is spelled. -/
def SpellsMember (cs : List Char) (m : Option String × Json) : Prop :=
  ∃ key gap value, SpellsText key m.1 ∧ Blank gap ∧ Spells value m.2 ∧
    cs = '"' :: (key ++ gap ++ ':' :: value)

/-- `read` reads the parts between two brackets one at a time, with commas between them. -/
structure Bracketing {α : Type} (opening closing : Char)
    (read : Nat → List α → List Char → Option (Json × List Char)) (build : List α → Json)
    (Part : List Char → α → Prop) : Prop where
  solid : isSpace closing = false
  stops : Stops [closing]
  /-- nothing between the brackets -/
  empty : ∀ {fuel cs rest}, skipSpace cs = closing :: rest →
    readValue (fuel + 1) (opening :: cs) = some (build [], rest)
  /-- what is read behind the opening bracket is the value -/
  first : ∀ {fuel cs result}, read fuel [] cs = some result →
    readValue (fuel + 1) (opening :: cs) = some result
  /-- a part with others behind it -/
  next : ∀ {fuel seen front cs part rest after}, Part cs part → Blank front →
    (front ++ cs).length ≤ fuel → Stops rest → skipSpace rest = ',' :: after →
    read (fuel + 1) seen (front ++ cs ++ rest) = read fuel (part :: seen) after
  /-- the part in front of the closing bracket -/
  last : ∀ {fuel seen front cs part rest after}, Part cs part → Blank front →
    (front ++ cs).length ≤ fuel → Stops rest → skipSpace rest = closing :: after →
    read (fuel + 1) seen (front ++ cs ++ rest) = some (build (part :: seen).reverse, after)

namespace Bracketing

variable {α : Type} {opening closing : Char} {build : List α → Json}
  {read : Nat → List α → List Char → Option (Json × List Char)} {Part : List Char → α → Prop}
  {parts : List α} {pieces : List (List Char)} {front gap back : List Char}

/-- Parts that are spelled one after the other, up to the bracket behind them. -/
lemma read_intercalate (h : Bracketing opening closing read build Part)
    (spelled : List.Forall₂ Part pieces parts) (some_part : pieces ≠ [])
    (before : Blank front) (between : Blank gap) (behind : Blank back) (fuel : Nat)
    (enough : (front ++ List.intercalate (',' :: gap) pieces).length < fuel) (seen : List α)
    (rest : List Char) :
    read fuel seen (front ++ List.intercalate (',' :: gap) pieces ++ (back ++ closing :: rest)) =
      some (build (seen.reverse ++ parts), rest) := by
  -- the blanks in front of the next part are those behind the comma
  induction spelled generalizing front fuel seen with
  | nil => exact absurd rfl some_part
  | @cons piece part _ _ this others ih =>
    obtain ⟨fuel, rfl⟩ := Nat.exists_eq_add_one_of_ne_zero (Nat.ne_zero_of_lt enough)
    cases others with
    | nil =>
      rw [List.intercalate_singleton] at enough ⊢
      have closes : skipSpace (back ++ closing :: rest) = closing :: rest := by
        rw [skipSpace_append behind, skipSpace_cons h.solid]
      have stops : Stops (back ++ closing :: rest) := Stops.append h.stops behind
      rw [h.last this before (by omega) stops closes, List.reverse_cons]
    | @cons second _ later _ _ _ =>
      rw [List.intercalate_cons_cons] at enough ⊢
      simp only [List.length_append, List.length_cons] at enough
      have more := ih (by simp) between fuel (by simp; omega) (part :: seen)
      have comma : ∀ cs, Stops (',' :: cs) := fun cs => by rintro c ⟨⟩; decide
      simp only [List.append_assoc, List.cons_append] at more ⊢
      rw [← List.append_assoc, h.next this before (by simp; omega) (comma _) (skipSpace_cons rfl _),
        more]
      simp

/-- Parts that are spelled are read with the brackets around them, whatever follows. -/
lemma readValue_eq (h : Bracketing opening closing read build Part)
    (spelled : List.Forall₂ Part pieces parts) (before : Blank front) (between : Blank gap)
    (behind : Blank back) (fuel : Nat) (rest : List Char)
    (enough : (front ++ List.intercalate (',' :: gap) pieces).length < fuel) :
    readValue (fuel + 1) (opening :: (front ++ List.intercalate (',' :: gap) pieces ++
      (back ++ closing :: rest))) = some (build parts, rest) := by
  cases spelled with
  | nil =>
    refine h.empty ?_
    simpa using (skipSpace_append (before.append behind) _).trans (skipSpace_cons h.solid rest)
  | cons this others =>
    exact h.first (h.read_intercalate (.cons this others) (by simp) before between behind fuel
      enough [] rest)

/-- Parts that are spelled make a value with the brackets around them. -/
lemma spells (h : Bracketing opening closing read build Part)
    (spelled : List.Forall₂ Part pieces parts) (before : Blank front) (between : Blank gap)
    (behind : Blank back) :
    Spells (opening :: (front ++ List.intercalate (',' :: gap) pieces ++ back ++ [closing]))
      (build parts) := by
  intro fuel rest enough _
  obtain ⟨fuel, rfl⟩ := Nat.exists_eq_add_one_of_ne_zero (Nat.ne_zero_of_lt enough)
  refine ⟨rest, ?_, rfl⟩
  have read := h.readValue_eq spelled before between behind fuel rest
    (by simp at enough ⊢; omega)
  simpa using read

end Bracketing

/-- No value begins with a closing bracket. -/
lemma readValue_closing (fuel : Nat) (rest : List Char) : readValue fuel (']' :: rest) = none := by
  cases fuel with
  | zero => rfl
  | succ fuel => simp [readValue, skipSpace, isSpace, readNumber, readUnsigned, isDigit]

lemma bracketing_array : Bracketing '[' ']' readItems .array Spells where
  solid := rfl
  stops := by rintro c ⟨⟩; decide
  empty closes := by simp [readValue, skipSpace_cons, isSpace, closes]
  first {fuel cs result} reads := by
    cases fuel with
    | zero => cases reads
    | succ fuel =>
      simp only [readValue, skipSpace_cons (c := '[') rfl]
      split
      next rest closes =>
        -- then there is no first item
        have none : readValue fuel cs = none := by
          rw [← readValue_skipSpace, closes, readValue_closing]
        simp [readItems, none] at reads
      next => simpa only [readItems, readValue_skipSpace] using reads
  next {fuel seen front cs part rest after} spelled before enough stops comma := by
    obtain ⟨left, read, same⟩ := spelled fuel rest (by simp at enough; omega) stops
    rw [comma] at same
    simp only [readItems, List.append_assoc, readValue_append before, read, same]
  last {fuel seen front cs part rest after} spelled before enough stops closes := by
    obtain ⟨left, read, same⟩ := spelled fuel rest (by simp at enough; omega) stops
    rw [closes] at same
    simp only [readItems, List.append_assoc, readValue_append before, read, same]

/-- A member is read up to its value. -/
lemma readMembers_of_spells {fuel : Nat} {front cs rest : List Char}
    {member : Option String × Json} (h : SpellsMember cs member) (before : Blank front)
    (enough : (front ++ cs).length ≤ fuel) (stops : Stops rest) :
    ∃ key colon value left, skipSpace (front ++ cs ++ rest) = '"' :: key ∧
      readString key = some (member.1, colon) ∧ skipSpace colon = ':' :: value ∧
      readValue fuel value = some (member.2, left) ∧ skipSpace left = skipSpace rest := by
  obtain ⟨key, gap, value, text, blank, spelled, rfl⟩ := h
  obtain ⟨left, read, same⟩ := spelled fuel rest (by simp at enough; omega) stops
  refine ⟨key ++ (gap ++ ':' :: (value ++ rest)), gap ++ ':' :: (value ++ rest), value ++ rest,
    left, ?_, readString_of_spells text _, ?_, read, same⟩
  · rw [List.append_assoc, skipSpace_append before, List.cons_append, skipSpace_cons rfl]
    simp
  · rw [skipSpace_append blank, skipSpace_cons rfl]

lemma bracketing_object : Bracketing '\x7b' '\x7d' readMembers .object SpellsMember where
  solid := rfl
  stops := by rintro c ⟨⟩; decide
  empty closes := by simp [readValue, skipSpace_cons, isSpace, closes]
  first {fuel cs result} reads := by
    cases fuel with
    | zero => cases reads
    | succ fuel =>
      simp only [readValue, skipSpace_cons (c := '\x7b') rfl]
      split
      next rest closes => simp [readMembers, closes] at reads
      next => simpa only [readMembers, skipSpace_skipSpace] using reads
  next spelled before enough stops comma := by
    obtain ⟨key, colon, value, left, opens, name, colons, read, same⟩ :=
      readMembers_of_spells spelled before enough stops
    rw [comma] at same
    simp only [readMembers, opens, name, colons, read, same]
  last spelled before enough stops closes := by
    obtain ⟨key, colon, value, left, opens, name, colons, read, same⟩ :=
      readMembers_of_spells spelled before enough stops
    rw [closes] at same
    simp only [readMembers, opens, name, colons, read, same]

namespace Spells

variable {pieces : List (List Char)} {front gap back : List Char}

lemma array {items : List Json} (spelled : List.Forall₂ Spells pieces items) (before : Blank front)
    (between : Blank gap) (behind : Blank back) :
    Spells ('[' :: (front ++ List.intercalate (',' :: gap) pieces ++ back ++ [']']))
      (.array items) :=
  bracketing_array.spells spelled before between behind

lemma object {members : List (Option String × Json)}
    (spelled : List.Forall₂ SpellsMember pieces members) (before : Blank front)
    (between : Blank gap) (behind : Blank back) :
    Spells ('\x7b' :: (front ++ List.intercalate (',' :: gap) pieces ++ back ++ ['\x7d']))
      (.object members) :=
  bracketing_object.spells spelled before between behind

end Spells

end DeviceUpdate.Json
