/-!
# Durations

A length of time in whole nanoseconds. Its text uses the largest unit of s, ms, µs and ns that
leaves a whole part, with the fraction that is left and no zeros at its end.
-/

namespace DeviceUpdate

structure Duration where
  nanoseconds : Nat
  deriving DecidableEq, Repr

namespace Duration

def ofSeconds (n : Nat) : Duration := ⟨n * 1000000000⟩
def ofMilliseconds (n : Nat) : Duration := ⟨n * 1000000⟩
def ofMicroseconds (n : Nat) : Duration := ⟨n * 1000⟩

def seconds (d : Duration) : Nat := d.nanoseconds / 1000000000

/-- The digits of `n` filled up with zeros to `width` digits, without the zeros at the end. -/
def fraction (width n : Nat) : List Char :=
  let digits := Nat.toDigits 10 n
  let filled := List.replicate (width - digits.length) '0' ++ digits
  (filled.reverse.dropWhile (· == '0')).reverse

/-- `n` in units of `10 ^ width`, with the unit's name. -/
def inUnit (n width : Nat) (unit : String) : String :=
  let scale := Nat.pow 10 width
  let digits := fraction width (n % scale)
  let tail := if digits.isEmpty then "" else "." ++ String.ofList digits
  toString (n / scale) ++ tail ++ unit

def text (d : Duration) : String :=
  let n := d.nanoseconds
  if 1000000000 ≤ n then inUnit n 9 "s"
  else if 1000000 ≤ n then inUnit n 6 "ms"
  else if 1000 ≤ n then inUnit n 3 "µs"
  else inUnit n 0 "ns"

end Duration

end DeviceUpdate
