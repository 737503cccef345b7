import DeviceUpdate.FileSystem.Operations
import Mathlib.Tactic.Lemma
import Mathlib.Tactic.SplitIfs

/-!
# Texts and their bytes

Decoding inverts encoding: the bytes of a text are read as that text, and no others are. Both
directions are compared with `Utf8 v bytes`, the table of well-formed byte sequences.
-/

namespace DeviceUpdate

namespace Text

/-- The bytes of the character with number `v`. The first byte carries the value bits `a`, each
further byte 6 bits. No value has a longer form than it needs, and surrogates have none. -/
inductive Utf8 : Nat → Bytes → Prop
  | one {v : Nat} (low : v < 0x80) : Utf8 v [.ofNat v]
  | two {a x : Nat} (lead : a < 32) (first : x < 64) (long : 2 ≤ a) :
      Utf8 (a * 64 + x) [.ofNat (0xC0 + a), .ofNat (0x80 + x)]
  | three {a x y : Nat} (lead : a < 16) (first : x < 64) (second : y < 64)
      (long : a = 0 → 32 ≤ x) (surrogate : a = 13 → x < 32) :
      Utf8 ((a * 64 + x) * 64 + y) [.ofNat (0xE0 + a), .ofNat (0x80 + x), .ofNat (0x80 + y)]
  | four {a x y z : Nat} (lead : a < 5) (first : x < 64) (second : y < 64) (third : z < 64)
      (long : a = 0 → 16 ≤ x) (last : a = 4 → x < 16) :
      Utf8 (((a * 64 + x) * 64 + y) * 64 + z)
        [.ofNat (0xF0 + a), .ofNat (0x80 + x), .ofNat (0x80 + y), .ofNat (0x80 + z)]

/-! ### Encoding -/

lemma Utf8.valid {v : Nat} {bytes : Bytes} (h : Utf8 v bytes) : v.isValidChar := by
  unfold Nat.isValidChar
  cases h <;> omega

lemma Utf8.nonempty {v : Nat} {bytes : Bytes} (h : Utf8 v bytes) : bytes ≠ [] := by
  cases h <;> simp

/-- A character is written as the table says. -/
lemma Utf8.encodeChar_eq {v : Nat} {bytes : Bytes} (h : Utf8 v bytes) :
    String.utf8EncodeChar (Char.ofNat v) = bytes := by
  have hv : (Char.ofNat v).val.toNat = v := by
    rw [Char.ofNat, dif_pos h.valid]
    rfl
  simp only [String.utf8EncodeChar, hv]
  cases h with
  | one low => rw [if_pos (by omega)]
  | two lead first long =>
    rw [if_neg (by omega), if_pos (by omega)]
    simp only [List.cons.injEq, and_true]
    exact ⟨congrArg _ (by omega), congrArg _ (by omega)⟩
  | three lead first second long surrogate =>
    rw [if_neg (by omega), if_neg (by omega), if_pos (by omega)]
    simp only [List.cons.injEq, and_true]
    exact ⟨congrArg _ (by omega), congrArg _ (by omega), congrArg _ (by omega)⟩
  | four lead first second third long last =>
    rw [if_neg (by omega), if_neg (by omega), if_neg (by omega)]
    simp only [List.cons.injEq, and_true]
    exact ⟨congrArg _ (by omega), congrArg _ (by omega), congrArg _ (by omega),
      congrArg _ (by omega)⟩

lemma exists_digit (v : Nat) : ∃ a x, x < 64 ∧ a * 64 + x = v :=
  ⟨v / 64, v % 64, by omega, by omega⟩

/-- Every character is in the table. -/
lemma exists_utf8 (c : Char) : ∃ bytes, Utf8 c.toNat bytes := by
  have valid : c.toNat.isValidChar := c.valid
  unfold Nat.isValidChar at valid
  generalize c.toNat = v at valid
  by_cases one : v < 0x80
  · exact ⟨_, .one one⟩
  obtain ⟨a, z, hz, rfl⟩ := exists_digit v
  by_cases two : a < 32
  · exact ⟨_, .two two hz (by omega)⟩
  obtain ⟨a, y, hy, rfl⟩ := exists_digit a
  by_cases three : a < 16
  · exact ⟨_, .three three hy hz (by omega) (by omega)⟩
  obtain ⟨a, x, hx, rfl⟩ := exists_digit a
  exact ⟨_, .four (by omega) hx hy hz (by omega) (by omega)⟩

lemma utf8_encodeChar (c : Char) : Utf8 c.toNat (String.utf8EncodeChar c) := by
  obtain ⟨bytes, h⟩ := exists_utf8 c
  have heq := h.encodeChar_eq
  rw [Char.ofNat_toNat] at heq
  rwa [heq]

/-! ### Reading a character -/

lemma leadByte?_two {a : Nat} (long : 2 ≤ a) (lead : a < 32) :
    leadByte? (.ofNat (0xC0 + a)) = some (1, 0x80, 0xBF, a) := by
  have all : ∀ k < 30, leadByte? (.ofNat (0xC0 + (k + 2))) = some (1, 0x80, 0xBF, k + 2) := by
    decide
  obtain ⟨k, rfl⟩ := Nat.exists_eq_add_of_le' long
  exact all k (by omega)

lemma leadByte?_three {a : Nat} (lead : a < 16) :
    leadByte? (.ofNat (0xE0 + a)) =
      some (2, if a = 0 then 0xA0 else 0x80, if a = 13 then 0x9F else 0xBF, a) := by
  have all : ∀ a < 16, leadByte? (.ofNat (0xE0 + a)) =
      some (2, if a = 0 then 0xA0 else 0x80, if a = 13 then 0x9F else 0xBF, a) := by decide
  exact all a lead

lemma leadByte?_four {a : Nat} (lead : a < 5) :
    leadByte? (.ofNat (0xF0 + a)) =
      some (3, if a = 0 then 0x90 else 0x80, if a = 4 then 0x8F else 0xBF, a) := by
  have all : ∀ a < 5, leadByte? (.ofNat (0xF0 + a)) =
      some (3, if a = 0 then 0x90 else 0x80, if a = 4 then 0x8F else 0xBF, a) := by decide
  exact all a lead

/-- These are all lead bytes. -/
lemma leadByte?_cases {b lo hi : UInt8} {n a : Nat} (h : leadByte? b = some (n, lo, hi, a)) :
    (b.toNat = 0xC0 + a ∧ 2 ≤ a ∧ a < 32) ∨ (b.toNat = 0xE0 + a ∧ a < 16) ∨
      (b.toNat = 0xF0 + a ∧ a < 5) := by
  simp only [leadByte?, UInt8.le_iff_toNat_le, ← UInt8.toNat_inj, UInt8.reduceToNat] at h
  split_ifs at h <;> cases h <;> omega

lemma eq_ofNat {b : UInt8} {k : Nat} (h : b.toNat = k) : b = .ofNat k := by
  rw [← h, UInt8.ofNat_toNat]

/-- A further byte adds its 6 bits. -/
lemma continueCharacter_succ {n value x : Nat} {lo hi : UInt8} (bits : x < 64)
    (low : lo.toNat ≤ 0x80 + x) (high : 0x80 + x ≤ hi.toNat) (rest : Bytes) :
    continueCharacter (n + 1) lo hi value (.ofNat (0x80 + x) :: rest) =
      continueCharacter n 0x80 0xBF (value * 64 + x) rest := by
  have hb : (UInt8.ofNat (0x80 + x)).toNat = 0x80 + x := by
    rw [UInt8.toNat_ofNat']
    omega
  rw [continueCharacter, if_pos ⟨UInt8.le_iff_toNat_le.mpr (by omega),
    UInt8.le_iff_toNat_le.mpr (by omega)⟩, hb]
  congr 2
  omega

/-- A character is continued only by bytes that carry 6 bits each. -/
lemma continueCharacter_eq_some {n value : Nat} {lo hi : UInt8} {bytes rest : Bytes} {c : Char}
    (low : 0x80 ≤ lo.toNat) (high : hi.toNat ≤ 0xBF)
    (h : continueCharacter (n + 1) lo hi value bytes = (some c, rest)) :
    ∃ x more, x < 64 ∧ lo.toNat ≤ 0x80 + x ∧ 0x80 + x ≤ hi.toNat ∧
      bytes = .ofNat (0x80 + x) :: more ∧
      continueCharacter n 0x80 0xBF (value * 64 + x) more = (some c, rest) := by
  cases bytes with
  | nil => simp [continueCharacter] at h
  | cons b more =>
    rw [continueCharacter] at h
    split at h
    · rename_i inside
      simp only [UInt8.le_iff_toNat_le] at inside
      refine ⟨b.toNat % 64, more, by omega, by omega, by omega, ?_, h⟩
      rw [← eq_ofNat (b := b) (by omega)]
    · simp at h

lemma readCharacter_of_low {b : UInt8} (low : b.toNat < 0x80) (bytes : Bytes) :
    readCharacter b bytes = (some (Char.ofNat b.toNat), bytes) := by
  rw [readCharacter, if_pos (UInt8.lt_iff_toNat_lt.mpr low)]

lemma readCharacter_of_lead {b lo hi : UInt8} {n a : Nat}
    (lead : leadByte? b = some (n, lo, hi, a)) (bytes : Bytes) :
    readCharacter b bytes = continueCharacter n lo hi a bytes := by
  have hb := leadByte?_cases lead
  have high : ¬ b < 0x80 := by
    simp only [UInt8.lt_iff_toNat_lt, UInt8.reduceToNat]
    omega
  simp only [readCharacter, if_neg high, lead]

/-- The bytes of a character are read as that character. -/
lemma Utf8.read {v : Nat} {b : UInt8} {tail : Bytes} (h : Utf8 v (b :: tail)) (rest : Bytes) :
    readCharacter b (tail ++ rest) = (some (Char.ofNat v), rest) := by
  cases h with
  | one low =>
    have hv : (UInt8.ofNat v).toNat = v := by
      rw [UInt8.toNat_ofNat']
      omega
    rw [List.nil_append, readCharacter_of_low (by omega), hv]
  | two lead first long =>
    rw [readCharacter_of_lead (leadByte?_two long lead), List.cons_append,
      continueCharacter_succ first (by simp) (by simp; omega)]
    rfl
  | @three a x y lead first second long surrogate =>
    rw [readCharacter_of_lead (leadByte?_three lead), List.cons_append, List.cons_append,
      continueCharacter_succ first (by split <;> simp; omega) (by split <;> simp <;> omega),
      continueCharacter_succ second (by simp) (by simp; omega)]
    rfl
  | four lead first second third long last =>
    rw [readCharacter_of_lead (leadByte?_four lead), List.cons_append, List.cons_append,
      List.cons_append,
      continueCharacter_succ first (by split <;> simp; omega) (by split <;> simp <;> omega),
      continueCharacter_succ second (by simp) (by simp; omega),
      continueCharacter_succ third (by simp) (by simp; omega)]
    rfl

/-- A lead byte and what continues it are the bytes of a character. -/
lemma utf8_of_lead {b lo hi : UInt8} {n a : Nat} {bytes rest : Bytes} {c : Char}
    (lead : leadByte? b = some (n, lo, hi, a))
    (h : continueCharacter n lo hi a bytes = (some c, rest)) :
    ∃ v tail, Utf8 v (b :: tail) ∧ Char.ofNat v = c ∧ bytes = tail ++ rest := by
  obtain ⟨hb, long, high⟩ | ⟨hb, high⟩ | ⟨hb, high⟩ := leadByte?_cases lead
  · obtain rfl := eq_ofNat hb
    rw [leadByte?_two long high] at lead
    cases lead
    obtain ⟨x, more, hx, -, -, rfl, hdone⟩ := continueCharacter_eq_some (by simp) (by simp) h
    obtain ⟨rfl, rfl⟩ := by simpa [continueCharacter] using hdone
    exact ⟨_, _, .two high hx long, rfl, rfl⟩
  · obtain rfl := eq_ofNat hb
    rw [leadByte?_three high] at lead
    cases lead
    obtain ⟨x, more, hx, hlow, hhigh, rfl, hmore⟩ :=
      continueCharacter_eq_some (by split <;> simp) (by split <;> simp) h
    obtain ⟨y, more, hy, -, -, rfl, hdone⟩ :=
      continueCharacter_eq_some (by simp) (by simp) hmore
    obtain ⟨rfl, rfl⟩ := by simpa [continueCharacter] using hdone
    refine ⟨_, _, .three high hx hy (fun ha => ?_) fun ha => ?_, rfl, rfl⟩
    · simp [ha] at hlow
      omega
    · simp [ha] at hhigh
      omega
  · obtain rfl := eq_ofNat hb
    rw [leadByte?_four high] at lead
    cases lead
    obtain ⟨x, more, hx, hlow, hhigh, rfl, hmore⟩ :=
      continueCharacter_eq_some (by split <;> simp) (by split <;> simp) h
    obtain ⟨y, more, hy, -, -, rfl, hlast⟩ :=
      continueCharacter_eq_some (by simp) (by simp) hmore
    obtain ⟨z, more, hz, -, -, rfl, hdone⟩ :=
      continueCharacter_eq_some (by simp) (by simp) hlast
    obtain ⟨rfl, rfl⟩ := by simpa [continueCharacter] using hdone
    refine ⟨_, _, .four high hx hy hz (fun ha => ?_) fun ha => ?_, rfl, rfl⟩
    · simp [ha] at hlow
      omega
    · simp [ha] at hhigh
      omega

/-- Only the bytes of a character are read as one. -/
lemma utf8_of_read {b : UInt8} {bytes rest : Bytes} {c : Char}
    (h : readCharacter b bytes = (some c, rest)) :
    ∃ v tail, Utf8 v (b :: tail) ∧ Char.ofNat v = c ∧ bytes = tail ++ rest := by
  by_cases low : b.toNat < 0x80
  · rw [readCharacter_of_low low] at h
    obtain ⟨rfl, rfl⟩ := by simpa using h
    refine ⟨b.toNat, [], ?_, rfl, rfl⟩
    simpa using Utf8.one low
  cases hlead : leadByte? b with
  | none =>
    have high : ¬ b < 0x80 := by simpa [UInt8.lt_iff_toNat_lt] using low
    simp [readCharacter, high, hlead] at h
  | some found =>
    rw [readCharacter_of_lead hlead] at h
    exact utf8_of_lead hlead h

/-! ### Texts -/

lemma scanUtf8_encoded (seen : List (Option Char)) (cs : List Char) :
    scanUtf8 seen (cs.flatMap String.utf8EncodeChar) = seen.reverse ++ cs.map some := by
  induction cs generalizing seen with
  | nil => simp [scanUtf8]
  | cons c cs ih =>
    have hc := utf8_encodeChar c
    obtain ⟨b, tail, hbytes⟩ := List.exists_cons_of_ne_nil hc.nonempty
    rw [hbytes] at hc
    have hread := hc.read (cs.flatMap String.utf8EncodeChar)
    rw [Char.ofNat_toNat] at hread
    rw [List.flatMap_cons, hbytes, List.cons_append, scanUtf8, hread, ih]
    simp

lemma encoded_of_scanUtf8 {seen : List (Option Char)} {bs : Bytes}
    (all : ∀ part ∈ scanUtf8 seen bs, part.isSome) :
    ∃ cs : List Char, scanUtf8 seen bs = seen.reverse ++ cs.map some ∧
      bs = cs.flatMap String.utf8EncodeChar := by
  induction seen, bs using scanUtf8.induct with
  | case1 seen => exact ⟨[], by simp [scanUtf8], rfl⟩
  | case2 seen b rest next ih =>
    rw [scanUtf8] at all ⊢
    obtain ⟨cs, hscan, hrest⟩ := ih all
    have hpart : next.1.isSome := all _ (by rw [hscan]; simp)
    obtain ⟨c, hc⟩ := Option.isSome_iff_exists.mp hpart
    obtain ⟨v, tail, hv, rfl, hbytes⟩ := utf8_of_read (Prod.ext hc rfl : _ = (some c, next.2))
    refine ⟨Char.ofNat v :: cs, ?_, ?_⟩
    · rw [hscan, hc]
      simp
    · rw [List.flatMap_cons, hv.encodeChar_eq, hbytes, hrest]
      rfl

/-- The bytes of a text are decoded as that text, and no others are. -/
theorem decodeUtf8?_eq_some_iff {bs : Bytes} {text : String} :
    decodeUtf8? bs = some text ↔ bs = encodeUtf8 text := by
  constructor
  · intro h
    simp only [decodeUtf8?] at h
    split at h
    · rename_i all
      obtain ⟨cs, hscan, rfl⟩ := encoded_of_scanUtf8 (List.all_eq_true.mp all)
      obtain rfl : String.ofList cs = text := by simpa [hscan] using h
      rw [encodeUtf8, String.toList_ofList]
    · simp at h
  · rintro rfl
    simp [decodeUtf8?, encodeUtf8, scanUtf8_encoded]

end Text

/-- A file is read as a text exactly if it holds the bytes of that text. -/
theorem FileSystem.readText_eq_ok_iff {fs : FileSystem} {path text : String} :
    fs.readText path = .ok text ↔ fs.read path = .ok (Text.encodeUtf8 text) := by
  unfold readText
  cases fs.read path with
  | error e => simp
  | ok bytes =>
    rw [Except.ok.injEq, ← Text.decodeUtf8?_eq_some_iff]
    cases hdecoded : Text.decodeUtf8? bytes <;> simp [hdecoded]

end DeviceUpdate
