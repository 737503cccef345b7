import DeviceUpdate.Text.Blank
import DeviceUpdate.Text.Decimal
import Mathlib.Tactic.Lemma

/-!
# Which texts are numbers

A number is read as the value that its digits have in base ten, if that lies within the bounds, and
otherwise it is refused: no digit that is read brings a number back into the bounds.
-/

namespace DeviceUpdate.Text

/-- At least one digit, and the value they have. -/
structure Digits (ds : List Char) (n : Nat) : Prop where
  nonempty : ds ≠ []
  digit : ∀ d ∈ ds, d.isDigit
  value : Nat.ofDigitChars 10 ds 0 = n

/-- Digits, with a sign in front or without. -/
inductive Signed : List Char → Int → Prop
  | plain {ds : List Char} {n : Nat} (digits : Digits ds n) : Signed ds n
  | plus {ds : List Char} {n : Nat} (digits : Digits ds n) : Signed ('+' :: ds) n
  | minus {ds : List Char} {n : Nat} (digits : Digits ds n) : Signed ('-' :: ds) (-n)

/-- Digits, with a plus sign in front or without. -/
def Unsigned (cs : List Char) (n : Nat) : Prop := ∃ ds, Digits ds n ∧ (cs = ds ∨ cs = '+' :: ds)

lemma digit?_eq (c : Char) : digit? c = if c.isDigit then some (c.toNat - '0'.toNat) else none := by
  simp only [digit?, Char.isDigit, Char.le_def, Bool.and_eq_true, decide_eq_true_eq]

lemma ofDigitChars_cons (d : Char) (ds : List Char) (a : Nat) :
    Nat.ofDigitChars 10 (d :: ds) a = Nat.ofDigitChars 10 ds (10 * a + (d.toNat - '0'.toNat)) := by
  simp only [Nat.ofDigitChars_eq_foldl, List.foldl_cons]

lemma le_ofDigitChars (ds : List Char) (a : Nat) : a ≤ Nat.ofDigitChars 10 ds a := by
  induction ds generalizing a with
  | nil => exact Nat.le_refl a
  | cons d ds ih =>
    rw [ofDigitChars_cons]
    exact Nat.le_trans (by omega) (ih _)

/-- The number of this size, below zero or above. -/
def signed (negative : Bool) (n : Nat) : Int := if negative then -n else n

/-- The value only moves away from zero, so no number that has left the bounds comes back. -/
lemma readDigits_eq_ok_iff {lo hi : Int} (low : lo ≤ 0) (high : 0 ≤ hi) (negative : Bool)
    {ds : List Char} {a : Nat} {z : Int} (inside : lo ≤ signed negative a)
    (inside' : signed negative a ≤ hi) :
    readDigits lo hi negative (signed negative a) ds = .ok z ↔
      (∀ d ∈ ds, d.isDigit) ∧ signed negative (Nat.ofDigitChars 10 ds a) = z ∧ lo ≤ z ∧ z ≤ hi := by
  induction ds generalizing a with
  | nil =>
    simp only [readDigits, Except.ok.injEq]
    constructor
    · rintro rfl
      exact ⟨by simp, rfl, inside, inside'⟩
    · exact fun h => h.2.1
  | cons d ds ih =>
    simp only [readDigits, digit?_eq]
    by_cases digit : d.isDigit
    · simp only [digit, if_true]
      have hnext : (if negative then signed negative a * 10 - ((d.toNat - '0'.toNat : Nat) : Int)
          else signed negative a * 10 + ((d.toNat - '0'.toNat : Nat) : Int)) =
            signed negative (10 * a + (d.toNat - '0'.toNat)) := by
        cases negative <;> simp only [signed, Bool.false_eq_true, if_true, if_false] <;> omega
      rw [hnext, ofDigitChars_cons]
      have hgrows := le_ofDigitChars ds (10 * a + (d.toNat - '0'.toNat))
      generalize 10 * a + (d.toNat - '0'.toNat) = b at hgrows ⊢
      by_cases above : hi < signed negative b
      · simp only [above, if_true, reduceCtorEq, false_iff]
        rintro ⟨-, rfl, -, hhigh⟩
        cases negative <;> simp [signed] at above hhigh <;> omega
      · by_cases below : signed negative b < lo
        · simp only [above, below, if_true, if_false, reduceCtorEq, false_iff]
          rintro ⟨-, rfl, hlow, -⟩
          cases negative <;> simp [signed] at below hlow <;> omega
        · simp only [above, below, if_false]
          rw [ih (by omega) (by omega)]
          simp [digit]
    · simp [digit]

lemma readDigits_zero_iff {lo hi : Int} (low : lo ≤ 0) (high : 0 ≤ hi) (negative : Bool)
    {ds : List Char} {z : Int} (nonempty : ds ≠ []) :
    readDigits lo hi negative 0 ds = .ok z ↔
      (∃ n, Digits ds n ∧ signed negative n = z) ∧ lo ≤ z ∧ z ≤ hi := by
  have hzero : signed negative 0 = 0 := by cases negative <;> rfl
  have h := @readDigits_eq_ok_iff lo hi low high negative ds 0 z (by omega) (by omega)
  rw [hzero] at h
  rw [h]
  constructor
  · rintro ⟨digit, rfl, hlow, hhigh⟩
    exact ⟨⟨_, ⟨nonempty, digit, rfl⟩, rfl⟩, hlow, hhigh⟩
  · rintro ⟨⟨n, ⟨-, digit, rfl⟩, rfl⟩, hlow, hhigh⟩
    exact ⟨digit, rfl, hlow, hhigh⟩

lemma Digits.not_sign {c : Char} {ds : List Char} {n : Nat} (h : Digits (c :: ds) n) :
    c ≠ '+' ∧ c ≠ '-' := by
  have digit := h.digit c List.mem_cons_self
  constructor <;> rintro rfl <;> simp [Char.isDigit] at digit

lemma signed_iff_plus {ds : List Char} {z : Int} :
    Signed ('+' :: ds) z ↔ ∃ n, Digits ds n ∧ signed false n = z := by
  constructor
  · rintro (digits | digits)
    · exact absurd rfl digits.not_sign.1
    · exact ⟨_, digits, rfl⟩
  · rintro ⟨n, digits, rfl⟩
    exact .plus digits

lemma signed_iff_minus {ds : List Char} {z : Int} :
    Signed ('-' :: ds) z ↔ ∃ n, Digits ds n ∧ signed true n = z := by
  constructor
  · rintro (digits | _ | digits)
    · exact absurd rfl digits.not_sign.2
    · exact ⟨_, digits, rfl⟩
  · rintro ⟨n, digits, rfl⟩
    exact .minus digits

lemma signed_iff_plain {cs : List Char} {z : Int} (plus : cs.head? ≠ some '+')
    (minus : cs.head? ≠ some '-') : Signed cs z ↔ ∃ n, Digits cs n ∧ signed false n = z := by
  constructor
  · rintro (digits | _ | _)
    · exact ⟨_, digits, rfl⟩
    · exact absurd rfl plus
    · exact absurd rfl minus
  · rintro ⟨n, digits, rfl⟩
    exact .plain digits

/-- A number is read as its value if that lies within the bounds, and a minus sign is read only if
they hold a negative number. -/
theorem readNumber_eq_ok_iff {lo hi : Int} (low : lo ≤ 0) (high : 0 ≤ hi) {cs : List Char}
    {z : Int} :
    readNumber lo hi cs = .ok z ↔
      Signed cs z ∧ lo ≤ z ∧ z ≤ hi ∧ (cs.head? = some '-' → lo < 0) := by
  fun_cases readNumber lo hi cs with
  | case1 =>
    have hnone : ¬ Signed [] z := by
      rw [signed_iff_plain (by simp) (by simp)]
      rintro ⟨n, digits, -⟩
      exact digits.nonempty rfl
    simp [hnone]
  | case2 =>
    have hnone : ¬ Signed ['+'] z := by
      rw [signed_iff_plus]
      rintro ⟨n, digits, -⟩
      exact digits.nonempty rfl
    simp [hnone]
  | case3 =>
    have hnone : ¬ Signed ['-'] z := by
      rw [signed_iff_minus]
      rintro ⟨n, digits, -⟩
      exact digits.nonempty rfl
    simp [hnone]
  | case4 ds nonempty =>
    rw [readDigits_zero_iff low high false nonempty, signed_iff_plus]
    simp
  | case5 ds nonempty negative =>
    rw [readDigits_zero_iff low high true nonempty, signed_iff_minus]
    simp [negative]
  | case6 ds nonempty negative => simp [negative]
  | case7 cs nonempty _ _ plus minus =>
    have hplus : cs.head? ≠ some '+' := fun h => by
      obtain ⟨ds, rfl⟩ := List.head?_eq_some_iff.mp h
      exact plus ds rfl
    have hminus : cs.head? ≠ some '-' := fun h => by
      obtain ⟨ds, rfl⟩ := List.head?_eq_some_iff.mp h
      exact minus ds rfl
    rw [readDigits_zero_iff low high false nonempty, signed_iff_plain hplus hminus]
    simp [hminus]

lemma unsigned_iff {cs : List Char} {n : Nat} :
    Unsigned cs n ↔ Signed cs n ∧ cs.head? ≠ some '-' := by
  constructor
  · rintro ⟨ds, digits, rfl | rfl⟩
    · refine ⟨.plain digits, fun h => ?_⟩
      obtain ⟨rest, rfl⟩ := List.head?_eq_some_iff.mp h
      exact digits.not_sign.2 rfl
    · exact ⟨.plus digits, by simp⟩
  · rintro ⟨number, sign⟩
    generalize hz : (n : Int) = z at number
    cases number with
    | plain digits =>
      obtain rfl := Int.ofNat_inj.mp hz
      exact ⟨_, digits, .inl rfl⟩
    | plus digits =>
      obtain rfl := Int.ofNat_inj.mp hz
      exact ⟨_, digits, .inr rfl⟩
    | minus digits => exact absurd rfl sign

lemma Unsigned.nonempty {cs : List Char} {n : Nat} (h : Unsigned cs n) : cs ≠ [] := by
  obtain ⟨ds, digits, rfl | rfl⟩ := h
  · exact digits.nonempty
  · simp

/-- A natural number has no minus sign. -/
theorem readNatural_eq_ok_iff {hi : Nat} {cs : List Char} {n : Nat} :
    readNatural hi cs = .ok n ↔ Unsigned cs n ∧ n ≤ hi := by
  have hread (z : Int) : readNumber 0 hi cs = .ok z ↔ _ :=
    readNumber_eq_ok_iff (Int.le_refl 0) (Int.natCast_nonneg hi)
  rw [unsigned_iff, readNatural]
  constructor
  · intro h
    cases hz : readNumber 0 hi cs with
    | error e => simp [hz, Except.map] at h
    | ok z =>
      obtain rfl : z.toNat = n := by simpa [hz, Except.map] using h
      obtain ⟨number, low, high, sign⟩ := (hread z).mp hz
      obtain ⟨n, rfl⟩ := Int.eq_ofNat_of_zero_le low
      exact ⟨⟨number, fun h => absurd (sign h) (by simp)⟩, by simpa using high⟩
  · rintro ⟨⟨number, sign⟩, high⟩
    rw [(hread n).mpr ⟨number, Int.natCast_nonneg n, Int.ofNat_le.mpr high,
      fun h => absurd h sign⟩]
    rfl

/-! ### Written numbers -/

lemma isBlank_of_isDigit {c : Char} (h : c.isDigit) : isBlank c = false := by
  have hc : 48 ≤ c.toNat ∧ c.toNat ≤ 57 := by
    simpa [Char.isDigit, UInt32.le_iff_toNat_le] using h
  simp only [isBlank, Bool.or_eq_false_iff, Bool.and_eq_false_iff, decide_eq_false_iff_not,
    beq_eq_false_iff_ne]
  omega

/-- A number is written in digits that have its value. -/
lemma digits_toString (n : Nat) : Digits (toString n).toList n := by
  rw [Nat.toString_eq_ofList_toDigits, String.toList_ofList]
  exact ⟨Nat.toDigits_ne_nil, fun d hd => Nat.isDigit_of_mem_toDigits (by decide) (by decide) hd,
    Nat.ofDigitChars_ten_toDigits⟩

end DeviceUpdate.Text
