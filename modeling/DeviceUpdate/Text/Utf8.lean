/-!
# UTF-8

Bytes to characters, strictly or with U+FFFD for each maximal ill-formed part, and characters to
bytes. An ill-formed part ends before the first byte that cannot continue it.
-/

namespace DeviceUpdate

/-- The content of a file, a pipe or a chunk. -/
abbrev Bytes := List UInt8

namespace Text

/-- What a lead byte announces: the number of bytes that follow, the bounds of the first of them,
and the value bits it carries itself. -/
def leadByte? (b : UInt8) : Option (Nat × UInt8 × UInt8 × Nat) :=
  if 0xC2 ≤ b ∧ b ≤ 0xDF then some (1, 0x80, 0xBF, b.toNat - 0xC0)
  else if b = 0xE0 then some (2, 0xA0, 0xBF, 0)
  else if b = 0xED then some (2, 0x80, 0x9F, 0xD)
  else if 0xE1 ≤ b ∧ b ≤ 0xEF then some (2, 0x80, 0xBF, b.toNat - 0xE0)
  else if b = 0xF0 then some (3, 0x90, 0xBF, 0)
  else if 0xF1 ≤ b ∧ b ≤ 0xF3 then some (3, 0x80, 0xBF, b.toNat - 0xF0)
  else if b = 0xF4 then some (3, 0x80, 0x8F, 4)
  else none

/-- Reads `n` further bytes of a character, the first between `lo` and `hi`. The answer is the
character, or `none` for an ill-formed part, and the bytes behind it. -/
def continueCharacter : Nat → UInt8 → UInt8 → Nat → Bytes → Option Char × Bytes
  | 0, _, _, value, rest => (some (Char.ofNat value), rest)
  | _ + 1, _, _, _, [] => (none, [])
  | n + 1, lo, hi, value, b :: rest =>
    if lo ≤ b ∧ b ≤ hi then continueCharacter n 0x80 0xBF (value * 64 + b.toNat % 64) rest
    else (none, b :: rest)

/-- Reads one character or one ill-formed part that starts with `b`. -/
def readCharacter (b : UInt8) (rest : Bytes) : Option Char × Bytes :=
  if b < 0x80 then (some (Char.ofNat b.toNat), rest)
  else
    match leadByte? b with
    | none => (none, rest)
    | some (n, lo, hi, value) => continueCharacter n lo hi value rest

theorem continueCharacter_length (n : Nat) (lo hi : UInt8) (value : Nat) (bs : Bytes) :
    (continueCharacter n lo hi value bs).2.length ≤ bs.length := by
  induction n generalizing lo hi value bs with
  | zero => simp [continueCharacter]
  | succ n ih =>
    cases bs with
    | nil => simp [continueCharacter]
    | cons b rest =>
      simp only [continueCharacter]
      split
      · exact Nat.le_trans (ih ..) (by simp)
      · simp

theorem readCharacter_length (b : UInt8) (rest : Bytes) :
    (readCharacter b rest).2.length ≤ rest.length := by
  unfold readCharacter
  split
  · simp
  · split
    · simp
    · exact continueCharacter_length ..

/-- The characters and the ill-formed parts of `bs`, in order, behind those of `seen`. -/
def scanUtf8 (seen : List (Option Char)) (bs : Bytes) : List (Option Char) :=
  match bs with
  | [] => seen.reverse
  | b :: rest =>
    let next := readCharacter b rest
    scanUtf8 (next.1 :: seen) next.2
termination_by bs.length
decreasing_by
  have := readCharacter_length b rest
  simp only [List.length_cons]
  omega

/-- The text that `bs` encodes, if it is well-formed UTF-8. -/
def decodeUtf8? (bs : Bytes) : Option String :=
  let parts := scanUtf8 [] bs
  if parts.all Option.isSome then some (String.ofList (parts.filterMap id)) else none

/-- The text that `bs` encodes, with U+FFFD for each ill-formed part. -/
def decodeUtf8Lossy (bs : Bytes) : String :=
  String.ofList ((scanUtf8 [] bs).map fun part => part.getD '\uFFFD')

def encodeUtf8 (s : String) : Bytes := s.toList.flatMap String.utf8EncodeChar

end Text

end DeviceUpdate
