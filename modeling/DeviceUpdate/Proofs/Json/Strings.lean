import DeviceUpdate.Proofs.Json.Spelling

/-!
# What strings say

The characters of a string stand for themselves or are escaped, by a letter, by the four digits of
their number, or by those of two surrogates. A string that is none of a text has half of a surrogate
pair somewhere.
-/

namespace DeviceUpdate.Json

def shortEscapes : List (Char × Char) :=
  [('"', '"'), ('\\', '\\'), ('/', '/'), ('b', '\x08'), ('f', '\x0c'), ('n', '\n'), ('r', '\r'),
    ('t', '\t')]

def hexDigits : List (Char × Nat) :=
  [('0', 0), ('1', 1), ('2', 2), ('3', 3), ('4', 4), ('5', 5), ('6', 6), ('7', 7), ('8', 8),
    ('9', 9), ('a', 10), ('b', 11), ('c', 12), ('d', 13), ('e', 14), ('f', 15), ('A', 10),
    ('B', 11), ('C', 12), ('D', 13), ('E', 14), ('F', 15)]

/-- The escape with the four digits of a number. -/
inductive Quad : List Char → Nat → Prop
  | digits {a b c d : Char} {w x y z : Nat} (first : (a, w) ∈ hexDigits)
      (second : (b, x) ∈ hexDigits) (third : (c, y) ∈ hexDigits) (fourth : (d, z) ∈ hexDigits) :
      Quad ['\\', 'u', a, b, c, d] (((w * 16 + x) * 16 + y) * 16 + z)

/-- How a character is spelled in a string. -/
inductive SpellsChar : List Char → Char → Prop
  | plain {c : Char} (printable : 0x20 ≤ c.toNat) (quote : c ≠ '"') (escape : c ≠ '\\') :
      SpellsChar [c] c
  | short {e c : Char} (escape : (e, c) ∈ shortEscapes) : SpellsChar ['\\', e] c
  | hex {cs : List Char} {c : Char} (quad : Quad cs c.toNat) : SpellsChar cs c
  /-- a pair of surrogates -/
  | pair {front back : List Char} {high low : Nat} (first : Quad front (0xD800 + high))
      (second : Quad back (0xDC00 + low)) (above : high < 0x400) (below : low < 0x400) :
      SpellsChar (front ++ back) (Char.ofNat (0x10000 + high * 0x400 + low))

/-- How the text of a string is spelled behind its opening quote. -/
def SpellsChars (cs text : List Char) : Prop :=
  ∃ pieces, List.Forall₂ SpellsChar pieces text ∧ cs = pieces.flatten ++ ['"']

/-- How a string is spelled behind its opening quote. -/
inductive SpellsString : List Char → Option String → Prop
  | text {cs : List Char} {s : String} (spelled : SpellsChars cs s.toList) :
      SpellsString cs (some s)
  /-- escapes that are well-formed each, but spell no text together -/
  | half {pieces : List (List Char)}
      (formed : ∀ piece ∈ pieces, (∃ c, SpellsChar piece c) ∨ ∃ n, Quad piece n)
      (textless : ∀ text, ¬ SpellsChars (pieces.flatten ++ ['"']) text) :
      SpellsString (pieces.flatten ++ ['"']) none

/-! ### Escapes -/

lemma simpleEscape?_eq_some_iff {e c : Char} :
    simpleEscape? e = some c ↔ (e, c) ∈ shortEscapes := by
  constructor
  · intro h
    unfold simpleEscape? at h
    split at h <;> cases h <;> simp [shortEscapes]
  · have htable : ∀ p ∈ shortEscapes, simpleEscape? p.1 = some p.2 := by decide
    exact htable (e, c)

/-- The digits are characters up to `f`. -/
lemma le_of_hexDigit? {d : Char} {v : Nat} (h : hexDigit? d = some v) : d.toNat ≤ 'f'.toNat := by
  have hle : d ≤ 'f' := by
    unfold hexDigit? at h
    split_ifs at h with decimal lower upper
    · exact Char.le_trans decimal.2 (by decide)
    · exact lower.2
    · exact Char.le_trans upper.2 (by decide)
  simpa [Char.le_def, UInt32.le_iff_toNat_le] using hle

lemma hexDigit?_eq_some_iff {d : Char} {v : Nat} :
    hexDigit? d = some v ↔ (d, v) ∈ hexDigits := by
  constructor
  · intro h
    have htable : ∀ n ≤ 'f'.toNat, ∀ v ∈ hexDigit? (Char.ofNat n),
        (Char.ofNat n, v) ∈ hexDigits := by
      decide +kernel
    have hd := htable d.toNat (le_of_hexDigit? h)
    rw [Char.ofNat_toNat] at hd
    exact hd v h
  · have htable : ∀ p ∈ hexDigits, hexDigit? p.1 = some p.2 := by decide
    exact htable (d, v)

lemma hexDigits_lt {d : Char} {v : Nat} (h : (d, v) ∈ hexDigits) : v < 16 := by
  have htable : ∀ p ∈ hexDigits, p.2 < 16 := by decide
  exact htable (d, v) h

lemma Quad.lt {cs : List Char} {n : Nat} (h : Quad cs n) : n < 0x10000 := by
  obtain ⟨first, second, third, fourth⟩ := h
  have := hexDigits_lt first
  have := hexDigits_lt second
  have := hexDigits_lt third
  have := hexDigits_lt fourth
  omega

lemma hexQuad?_eq_some_iff {a b c d : Char} {n : Nat} :
    hexQuad? a b c d = some n ↔ Quad ['\\', 'u', a, b, c, d] n := by
  simp only [hexQuad?, Option.bind_eq_bind, Option.bind_eq_some_iff, hexDigit?_eq_some_iff,
    Option.pure_def, Option.some.injEq]
  constructor
  · rintro ⟨w, first, x, second, y, third, z, fourth, rfl⟩
    exact .digits first second third fourth
  · rintro ⟨first, second, third, fourth⟩
    exact ⟨_, first, _, second, _, third, _, fourth, rfl⟩

lemma Quad.spells {cs : List Char} {n : Nat} (h : Quad cs n) : SpellsUnit cs (.escaped n) := by
  have hquad := h
  obtain ⟨first, second, third, fourth⟩ := h
  exact .hex (hexQuad?_eq_some_iff.mpr hquad)

/-! ### Characters and units -/

/-- A character is spelled as units that stand for it. -/
lemma SpellsChar.units {piece : List Char} {c : Char} (h : SpellsChar piece c) :
    ∃ parts units, List.Forall₂ SpellsUnit parts units ∧ parts.flatten = piece ∧
      ∀ seen rest, decodeUnits seen (units ++ rest) = decodeUnits (c :: seen) rest := by
  cases h with
  | plain printable quote escape =>
    exact ⟨[[c]], [.char c], .cons (.plain printable quote escape) .nil, rfl, fun _ _ => rfl⟩
  | @short e _ escape =>
    exact ⟨[['\\', e]], [.char c], .cons (.simple (simpleEscape?_eq_some_iff.mpr escape)) .nil, rfl,
      fun _ _ => rfl⟩
  | hex quad =>
    have valid : c.toNat < 0xD800 ∨ 0xDFFF < c.toNat ∧ c.toNat < 0x110000 := c.valid
    refine ⟨[piece], [.escaped c.toNat], .cons quad.spells .nil, by simp, fun seen rest => ?_⟩
    rw [List.singleton_append, decodeUnits.eq_def]
    dsimp only
    rw [if_neg (by omega), if_neg (by omega), Char.ofNat_toNat]
  | @pair front back high low first second above below =>
    refine ⟨[front, back], _, .cons first.spells (.cons second.spells .nil), by simp,
      fun seen rest => ?_⟩
    rw [List.cons_append, List.singleton_append, decodeUnits.eq_def]
    dsimp only
    rw [if_pos (by omega), if_pos (by omega), Nat.add_sub_cancel_left, Nat.add_sub_cancel_left]

lemma units_of_chars {pieces : List (List Char)} {text : List Char}
    (h : List.Forall₂ SpellsChar pieces text) :
    ∃ parts units, List.Forall₂ SpellsUnit parts units ∧ parts.flatten = pieces.flatten ∧
      ∀ seen, decodeUnits seen units = some (seen.reverse ++ text) := by
  induction h with
  | nil => exact ⟨[], [], .nil, rfl, fun seen => by simp [decodeUnits]⟩
  | cons first _ ih =>
    obtain ⟨parts, units, spelled, hparts, hunits⟩ := first.units
    obtain ⟨others, more, hspelled, hothers, hmore⟩ := ih
    refine ⟨parts ++ others, units ++ more, List.rel_append spelled hspelled, ?_, fun seen => ?_⟩
    · rw [List.flatten_append, hparts, hothers, List.flatten_cons]
    · rw [hunits, hmore]
      simp

lemma SpellsUnit.quad {piece : List Char} {n : Nat} (h : SpellsUnit piece (.escaped n)) :
    Quad piece n := by
  cases h with
  | hex digits => exact hexQuad?_eq_some_iff.mp digits

lemma SpellsUnit.char {piece : List Char} {c : Char} (h : SpellsUnit piece (.char c)) :
    SpellsChar piece c := by
  cases h with
  | plain printable quote escape => exact .plain printable quote escape
  | simple escape => exact .short (simpleEscape?_eq_some_iff.mp escape)

/-- Units that are decoded spell the characters that they are decoded to. -/
lemma chars_of_units {pieces : List (List Char)} {units : List Unit16}
    (h : List.Forall₂ SpellsUnit pieces units) {seen result : List Char}
    (decoded : decodeUnits seen units = some result) :
    ∃ parts text, List.Forall₂ SpellsChar parts text ∧ parts.flatten = pieces.flatten ∧
      result = seen.reverse ++ text := by
  fun_induction decodeUnits seen units generalizing pieces with
  | case1 seen =>
    cases h
    exact ⟨[], [], .nil, rfl, by simpa using decoded.symm⟩
  | case2 seen c rest ih =>
    obtain _ | ⟨first, others⟩ := h
    obtain ⟨parts, text, spelled, same, rfl⟩ := ih others decoded
    exact ⟨_ :: parts, c :: text, .cons first.char spelled, by simp [same], by simp⟩
  | case3 seen n high m rest low ih =>
    obtain _ | ⟨first, _ | ⟨second, others⟩⟩ := h
    obtain ⟨parts, text, spelled, same, rfl⟩ := ih others decoded
    have hn : 0xD800 + (n - 0xD800) = n := by omega
    have hm : 0xDC00 + (m - 0xDC00) = m := by omega
    have hpair := SpellsChar.pair (hn ▸ first.quad) (hm ▸ second.quad) (by omega) (by omega)
    exact ⟨_ :: parts, _ :: text, .cons hpair spelled, by simp [same], by simp⟩
  -- a half that stands alone is not decoded
  | case4 | case5 | case6 => cases decoded
  | case7 seen n notHigh notLow rest ih =>
    obtain _ | ⟨first, others⟩ := h
    obtain ⟨parts, text, spelled, same, rfl⟩ := ih others decoded
    have hn : (Char.ofNat n).toNat = n := by
      have hlt := first.quad.lt
      have valid : n.isValidChar := by
        unfold Nat.isValidChar
        omega
      rw [Char.ofNat, dif_pos valid]
      rfl
    have hhex := SpellsChar.hex (hn.symm ▸ first.quad)
    exact ⟨_ :: parts, _ :: text, .cons hhex spelled, by simp [same], by simp⟩

lemma units_of_formed {pieces : List (List Char)}
    (formed : ∀ piece ∈ pieces, (∃ c, SpellsChar piece c) ∨ ∃ n, Quad piece n) :
    ∃ parts units, List.Forall₂ SpellsUnit parts units ∧ parts.flatten = pieces.flatten := by
  induction pieces with
  | nil => exact ⟨[], [], .nil, rfl⟩
  | cons piece pieces ih =>
    obtain ⟨first, others⟩ := List.forall_mem_cons.mp formed
    obtain ⟨parts, units, spelled, same⟩ := ih others
    obtain ⟨c, hc⟩ | ⟨n, hn⟩ := first
    · obtain ⟨front, more, hfront, rfl, -⟩ := hc.units
      exact ⟨front ++ parts, more ++ units, List.rel_append hfront spelled, by simp [same]⟩
    · exact ⟨piece :: parts, .escaped n :: units, .cons hn.spells spelled, by simp [same]⟩

lemma formed_of_units {pieces : List (List Char)} {units : List Unit16}
    (h : List.Forall₂ SpellsUnit pieces units) :
    ∀ piece ∈ pieces, (∃ c, SpellsChar piece c) ∨ ∃ n, Quad piece n := by
  induction h with
  | nil => simp
  | @cons piece unit _ _ first _ ih =>
    refine List.forall_mem_cons.mpr ⟨?_, ih⟩
    cases unit with
    | char c => exact .inl ⟨c, first.char⟩
    | escaped n => exact .inr ⟨n, first.quad⟩

/-- The units that characters spell are the same however they are cut into pieces. -/
lemma units_unique {pieces parts : List (List Char)} {units more : List Unit16}
    (h : List.Forall₂ SpellsUnit pieces units) (h' : List.Forall₂ SpellsUnit parts more)
    (same : parts.flatten = pieces.flatten) : units = more := by
  have hunits := readUnits_flatten h [] []
  have hmore := readUnits_flatten h' [] []
  rw [same, hunits] at hmore
  simpa using hmore

/-! ### Strings -/

/-- What the reader takes for a string is spelled like one, and stands for what it spells. -/
theorem spellsText_iff {cs : List Char} {t : Option String} :
    SpellsText cs t ↔ SpellsString cs t := by
  constructor
  · rintro ⟨pieces, units, spelled, rfl, rfl⟩
    cases hdecoded : decodeUnits [] units with
    | some result =>
      obtain ⟨parts, text, hspelled, same, rfl⟩ := chars_of_units spelled hdecoded
      refine .text ⟨parts, ?_, by rw [same]⟩
      rwa [String.toList_ofList]
    | none =>
      refine .half (formed_of_units spelled) ?_
      rintro text ⟨parts, hparts, same⟩
      obtain ⟨others, more, hmore, hothers, htext⟩ := units_of_chars hparts
      obtain rfl := units_unique spelled hmore (hothers.trans (List.append_cancel_right same).symm)
      cases hdecoded.symm.trans (htext [])
  · rintro (⟨pieces, spelled, rfl⟩ | ⟨formed, textless⟩)
    · obtain ⟨parts, units, hunits, same, htext⟩ := units_of_chars spelled
      exact ⟨parts, units, hunits, by simp [htext], by rw [same]⟩
    · obtain ⟨parts, units, hunits, same⟩ := units_of_formed formed
      refine ⟨parts, units, hunits, ?_, by rw [same]⟩
      cases hdecoded : decodeUnits [] units with
      | none => rfl
      | some result =>
        obtain ⟨others, text, hspelled, hothers, -⟩ := chars_of_units hunits hdecoded
        exact absurd ⟨others, hspelled, by rw [hothers, same]⟩ (textless text)

end DeviceUpdate.Json
