import DeviceUpdate.Text.Blank
import DeviceUpdate.Text.Decimal

/-!
# Firmware versions

A version has four parts, each a byte. Its text is read part by part up to the first part that is
no number; what is left out is zero. Without a first part there is no version.
-/

namespace DeviceUpdate

structure Version where
  major : UInt8
  minor : UInt8
  revision : UInt8
  build : UInt8
  deriving DecidableEq, Repr, Inhabited

namespace Version

/-- The value of one part of a version text, which may have blanks around it. -/
def part? (token : List Char) : Option UInt8 :=
  match Text.readNatural 255 (Text.trim token) with
  | .ok n => some n.toUInt8
  | .error _ => none

/-- The values of the tokens up to the first that is no part. -/
def leadingParts : List (List Char) → List UInt8
  | [] => []
  | token :: rest =>
    match part? token with
    | some value => value :: leadingParts rest
    | none => []

/-- The version that a text stands for. -/
def ofText? (text : String) : Option Version :=
  let tokens := Text.splitWhere (· == '.') (Text.trim text.toList)
  match leadingParts (tokens.take 4) with
  | [] => none
  | [a] => some ⟨a, 0, 0, 0⟩
  | [a, b] => some ⟨a, b, 0, 0⟩
  | [a, b, c] => some ⟨a, b, c, 0⟩
  | a :: b :: c :: d :: _ => some ⟨a, b, c, d⟩

def parts (v : Version) : List UInt8 := [v.major, v.minor, v.revision, v.build]

def text (v : Version) : String := s!"{v.major}.{v.minor}.{v.revision}.{v.build}"

end Version

end DeviceUpdate
