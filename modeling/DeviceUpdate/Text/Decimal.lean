/-!
# Decimal numbers within bounds

A number is an optional sign and at least one digit. It is read from the left, so of two faults
the one further to the left is reported. A minus sign is a fault when the bounds hold no negative
number.
-/

namespace DeviceUpdate.Text

inductive NumberError where
  | empty
  | invalidDigit
  | tooLarge
  | tooSmall
  deriving DecidableEq, Repr

def NumberError.message : NumberError → String
  | .empty => "cannot parse integer from empty string"
  | .invalidDigit => "invalid digit found in string"
  | .tooLarge => "number too large to fit in target type"
  | .tooSmall => "number too small to fit in target type"

def digit? (c : Char) : Option Nat :=
  if '0' ≤ c ∧ c ≤ '9' then some (c.toNat - '0'.toNat) else none

/-- Reads digits after the value `acc`, which they extend away from zero. -/
def readDigits (lo hi : Int) (negative : Bool) : Int → List Char → Except NumberError Int
  | acc, [] => .ok acc
  | acc, c :: cs =>
    match digit? c with
    | none => .error .invalidDigit
    | some d =>
      let next := if negative then acc * 10 - d else acc * 10 + d
      if hi < next then .error .tooLarge
      else if next < lo then .error .tooSmall
      else readDigits lo hi negative next cs

/-- Reads a whole text as a number between `lo` and `hi`. -/
def readNumber (lo hi : Int) : List Char → Except NumberError Int
  | [] => .error .empty
  | ['+'] => .error .invalidDigit
  | ['-'] => .error .invalidDigit
  | '+' :: ds => readDigits lo hi false 0 ds
  | '-' :: ds => if lo < 0 then readDigits lo hi true 0 ds else .error .invalidDigit
  | ds => readDigits lo hi false 0 ds

/-- Reads a natural number of at most `hi`. -/
def readNatural (hi : Nat) (cs : List Char) : Except NumberError Nat :=
  (readNumber 0 hi cs).map Int.toNat

end DeviceUpdate.Text
