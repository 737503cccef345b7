import DeviceUpdate.Checksum
import Mathlib.Data.Nat.Bitwise
import Mathlib.Data.Nat.Digits.Defs
import Mathlib.Logic.Function.Iterate

/-!
# Bursts

The register takes a content in bit by bit. Each bit is added to the register before it is shifted,
and no shift loses anything. So contents of one length that differ only within 32 bits behind one
another leave the register different, whatever comes before and behind these bits.
-/

namespace DeviceUpdate

namespace Crc32

/-- The bits of a byte, the least significant first. -/
def bitsOf (b : UInt8) : List Bool := (List.range 8).map b.toNat.testBit

/-- The bits of a content in the order in which the register takes them. -/
def bits (content : Bytes) : List Bool := content.flatMap bitsOf

/-- All bits in which the contents differ lie within 32 bits behind one another. -/
def Burst (p q : Bytes) : Prop := ∃ k, ∀ i, (bits p)[i]? ≠ (bits q)[i]? → k ≤ i ∧ i < k + 32

/-- The number whose binary digits these bits are, the least significant first. -/
def value (bits : List Bool) : Nat := Nat.ofDigits 2 (bits.map Bool.toNat)

/-- Takes bits into the register, one after the other. -/
def feed (register : UInt32) (bits : List Bool) : UInt32 :=
  bits.foldl (fun register bit => shift (register ^^^ UInt32.ofNat bit.toNat)) register

/-! ### One shift -/

/-- What is added after a shift: the polynomial, if the bit that was shifted out is set. -/
def feedback (r : UInt32) : UInt32 := if r.toNat.testBit 0 then polynomial else 0

lemma shift_eq (r : UInt32) : shift r = (r >>> 1) ^^^ feedback r := by
  have hlast : r &&& 1 = 1 ↔ r.toNat.testBit 0 := by
    rw [← UInt32.toNat_inj, UInt32.toNat_and, Nat.testBit_zero, decide_eq_true_eq]
    exact iff_of_eq (congrArg (· = 1) (Nat.and_one_is_mod _))
  rw [shift, feedback, ite_congr (propext hlast) (fun _ => rfl) (fun _ => rfl)]
  split
  · rfl
  · exact UInt32.xor_zero.symm

lemma feedback_xor (a b : UInt32) : feedback (a ^^^ b) = feedback a ^^^ feedback b := by
  simp only [feedback, UInt32.toNat_xor, Nat.testBit_xor]
  cases a.toNat.testBit 0 <;> cases b.toNat.testBit 0 <;> simp

/-- To add before a shift is to add behind it. -/
lemma shift_xor (a b : UInt32) : shift (a ^^^ b) = shift a ^^^ shift b := by
  rw [shift_eq, shift_eq, shift_eq, UInt32.shiftRight_xor, feedback_xor]
  ac_rfl

lemma toNat_halve (r : UInt32) : (r >>> 1).toNat = r.toNat / 2 := by
  rw [UInt32.toNat_shiftRight]
  exact Nat.shiftRight_one _

/-- Only the empty register is shifted to the empty register: the polynomial that is added for an
odd one has the bit that the shift has cleared. -/
lemma eq_zero_of_shift {r : UInt32} (h : shift r = 0) : r = 0 := by
  have hbound := r.toNat_lt
  have hhalf := toNat_halve r
  rw [shift_eq, UInt32.xor_eq_zero_iff] at h
  rw [h, feedback, Nat.testBit_zero] at hhalf
  split at hhalf
  · have hpolynomial : polynomial.toNat = 3988292384 := rfl
    omega
  · rename_i heven
    have hzero : (0 : UInt32).toNat = 0 := rfl
    rw [← UInt32.toNat_inj]
    simp only [decide_eq_true_eq] at heven
    omega

lemma shift_injective : Function.Injective shift := by
  intro a b h
  rw [← UInt32.xor_eq_zero_iff]
  refine eq_zero_of_shift ?_
  rw [shift_xor, h, UInt32.xor_self]

lemma toNat_ofNat {n : Nat} (h : n < 2 ^ 32) : (UInt32.ofNat n).toNat = n :=
  UInt32.toNat_ofNat_of_lt' h

lemma shift_double {n : Nat} (h : n < 2 ^ 31) : shift (UInt32.ofNat (2 * n)) = UInt32.ofNat n := by
  have hdouble : (UInt32.ofNat (2 * n)).toNat = 2 * n := toNat_ofNat (by omega)
  have heven : feedback (UInt32.ofNat (2 * n)) = 0 := by
    rw [feedback, hdouble]
    simp
  rw [shift_eq, heven, UInt32.xor_zero, ← UInt32.toNat_inj, toNat_halve, hdouble,
    toNat_ofNat (by omega)]
  omega

/-! ### Bits -/

lemma value_cons (bit : Bool) (rest : List Bool) :
    value (bit :: rest) = bit.toNat ^^^ (2 * value rest) := by
  rw [value, List.map_cons, Nat.ofDigits_cons]
  cases bit with
  | false => simp [value]
  | true =>
    rw [Bool.toNat_true, Nat.xor_comm, Nat.xor_one_of_even (even_two_mul _), Nat.add_comm]
    rfl

lemma digit_lt (bits : List Bool) : ∀ d ∈ bits.map Bool.toNat, d < 2 :=
  List.forall_mem_map.mpr fun bit _ => bit.toNat_lt

lemma value_lt (bits : List Bool) : value bits < 2 ^ bits.length := by
  have h := Nat.ofDigits_lt_base_pow_length (by decide : 1 < 2) (digit_lt bits)
  rwa [List.length_map] at h

/-- Bits of one number are the same bits. -/
lemma eq_of_value {a b : List Bool} (length : a.length = b.length) (h : value a = value b) :
    a = b := by
  have hdigits := Nat.ofDigits_inj_of_len_eq (by decide : 1 < 2) (by simpa using length)
    (digit_lt a) (digit_lt b) h
  exact (List.map_inj_right fun a b => by cases a <;> cases b <;> simp).mp hdigits

/-- What 32 bits or fewer do to the register, they do at once. -/
lemma feed_eq {bits : List Bool} (short : bits.length ≤ 32) (r : UInt32) :
    feed r bits = shift^[bits.length] (r ^^^ UInt32.ofNat (value bits)) := by
  induction bits generalizing r with
  | nil => simp [feed, value]
  | cons bit rest ih =>
    rw [List.length_cons] at short
    have hbound : value rest < 2 ^ 31 :=
      (value_lt rest).trans_le (Nat.pow_le_pow_right (by decide) (by omega))
    have hsum : UInt32.ofNat (value (bit :: rest)) =
        UInt32.ofNat bit.toNat ^^^ UInt32.ofNat (2 * value rest) := by
      rw [value_cons, UInt32.ofNat_xor]
    calc feed r (bit :: rest)
        = shift^[rest.length] (shift (r ^^^ UInt32.ofNat bit.toNat) ^^^
            UInt32.ofNat (value rest)) := ih (by omega) _
      _ = shift^[rest.length] (shift (r ^^^ UInt32.ofNat (value (bit :: rest)))) := by
        rw [← shift_double hbound, ← shift_xor, UInt32.xor_assoc, ← hsum]

/-- The register after one piece depends on the register before it, bit by bit. -/
lemma feed_injective (bits : List Bool) : Function.Injective fun r => feed r bits := by
  induction bits with
  | nil => exact fun a b h => h
  | cons bit rest ih => exact fun a b h => (UInt32.xor_left_inj _).mp (shift_injective (ih h))

lemma feed_append (r : UInt32) (a b : List Bool) : feed r (a ++ b) = feed (feed r a) b :=
  List.foldl_append

/-- Different bits leave the register different, if they are 32 or fewer. -/
lemma eq_of_feed {a b : List Bool} {r : UInt32} (length : a.length = b.length)
    (short : a.length ≤ 32) (h : feed r a = feed r b) : a = b := by
  rw [feed_eq short, feed_eq (length ▸ short), ← length] at h
  have hvalues := (UInt32.xor_right_inj r).mp (shift_injective.iterate _ h)
  have hbound {bits : List Bool} (short : bits.length ≤ 32) : value bits < 2 ^ 32 :=
    (value_lt bits).trans_le (Nat.pow_le_pow_right (by decide) short)
  refine eq_of_value length ?_
  rw [← toNat_ofNat (hbound short), hvalues, toNat_ofNat (hbound (length ▸ short))]

/-! ### Bytes -/

lemma length_bitsOf (b : UInt8) : (bitsOf b).length = 8 := rfl

lemma value_bitsOf (b : UInt8) : value (bitsOf b) = b.toNat := by
  have h : ∀ n < 256, Nat.ofDigits 2 (((List.range 8).map n.testBit).map Bool.toNat) = n := by
    decide +kernel
  exact h b.toNat b.toNat_lt

/-- A byte is taken in as its bits. -/
lemma step_eq_feed (r : UInt32) (b : UInt8) : step r b = feed r (bitsOf b) := by
  have hbyte : UInt32.ofNat b.toNat = b.toUInt32 := by simp
  rw [feed_eq (by simp [length_bitsOf]), value_bitsOf, length_bitsOf, hbyte]
  rfl

lemma update_eq_feed (r : UInt32) (content : Bytes) : update r content = feed r (bits content) := by
  induction content generalizing r with
  | nil => rfl
  | cons b rest ih =>
    rw [bits, List.flatMap_cons, feed_append, ← step_eq_feed]
    exact ih _

lemma length_bits (content : Bytes) : (bits content).length = 8 * content.length := by
  induction content with
  | nil => rfl
  | cons b rest ih =>
    rw [bits, List.flatMap_cons, List.length_append, ← bits, ih, length_bitsOf, List.length_cons]
    omega

lemma bits_injective : Function.Injective bits := by
  intro p q h
  induction p generalizing q with
  | nil =>
    have hlength := congrArg List.length h
    rw [length_bits, length_bits] at hlength
    exact (List.length_eq_zero_iff.mp (by simpa using hlength.symm)).symm
  | cons b p ih =>
    cases q with
    | nil =>
      have hlength := congrArg List.length h
      simp [length_bits] at hlength
    | cons c q =>
      obtain ⟨hbyte, hrest⟩ := List.append_inj h rfl
      have hvalue : b.toNat = c.toNat := by rw [← value_bitsOf, hbyte, value_bitsOf]
      rw [UInt8.toNat_inj.mp hvalue, ih hrest]

/-! ### Bursts -/

lemma take_eq_of_burst {a b : List Bool} {k : Nat}
    (h : ∀ i, a[i]? ≠ b[i]? → k ≤ i ∧ i < k + 32) : a.take k = b.take k := by
  refine List.ext_getElem? fun i => ?_
  rw [List.getElem?_take, List.getElem?_take]
  split
  · by_contra hdiffer
    have := h i hdiffer
    omega
  · rfl

lemma drop_eq_of_burst {a b : List Bool} {k : Nat}
    (h : ∀ i, a[i]? ≠ b[i]? → k ≤ i ∧ i < k + 32) : a.drop (k + 32) = b.drop (k + 32) := by
  refine List.ext_getElem? fun i => ?_
  rw [List.getElem?_drop, List.getElem?_drop]
  by_contra hdiffer
  have := h _ hdiffer
  omega

/-- A burst leaves the register different. -/
theorem update_ne_of_burst {p q : Bytes} (length : p.length = q.length) (ne : p ≠ q)
    (burst : Burst p q) (r : UInt32) : update r p ≠ update r q := by
  obtain ⟨k, hk⟩ := burst
  have hlength : (bits p).length = (bits q).length := by rw [length_bits, length_bits, length]
  have hparts (bits : List Bool) :
      bits = bits.take k ++ ((bits.drop k).take 32 ++ bits.drop (k + 32)) := by
    rw [← List.drop_drop, List.take_append_drop, List.take_append_drop]
  intro h
  rw [update_eq_feed, update_eq_feed, hparts (bits p), hparts (bits q), take_eq_of_burst hk,
    drop_eq_of_burst hk, feed_append, feed_append, feed_append, feed_append] at h
  -- what is fed behind the burst keeps the difference, so the bits of the burst are the same
  have hburst := eq_of_feed (by simp [hlength]) (by simp) (feed_injective _ h)
  refine ne (bits_injective ?_)
  rw [hparts (bits p), hparts (bits q), take_eq_of_burst hk, drop_eq_of_burst hk, hburst]

end Crc32

/-- A burst changes the checksum. -/
theorem crc32_ne_of_burst {p q : Bytes} (length : p.length = q.length) (ne : p ≠ q)
    (burst : Crc32.Burst p q) : crc32 p ≠ crc32 q :=
  fun h => Crc32.update_ne_of_burst length ne burst _ ((UInt32.xor_left_inj _).mp h)

end DeviceUpdate
