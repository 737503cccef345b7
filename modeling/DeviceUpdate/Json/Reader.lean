import DeviceUpdate.Json.Basic

/-!
# Reading JSON

The grammar is RFC 8259's. Nesting is limited by the length of the text alone. An escape for half
of a surrogate pair is well-formed here; the string then stands for no text.
-/

namespace DeviceUpdate.Json

def isSpace (c : Char) : Bool := c == ' ' || c == '\n' || c == '\r' || c == '\t'

def skipSpace (cs : List Char) : List Char := cs.dropWhile isSpace

def hexDigit? (c : Char) : Option Nat :=
  if '0' ≤ c ∧ c ≤ '9' then some (c.toNat - '0'.toNat)
  else if 'a' ≤ c ∧ c ≤ 'f' then some (c.toNat - 'a'.toNat + 10)
  else if 'A' ≤ c ∧ c ≤ 'F' then some (c.toNat - 'A'.toNat + 10)
  else none

/-- The value of four hexadecimal digits. -/
def hexQuad? (a b c d : Char) : Option Nat := do
  let a ← hexDigit? a
  let b ← hexDigit? b
  let c ← hexDigit? c
  let d ← hexDigit? d
  return ((a * 16 + b) * 16 + c) * 16 + d

/-- The character after a backslash, for escapes of one letter. -/
def simpleEscape? : Char → Option Char
  | '"' => some '"'
  | '\\' => some '\\'
  | '/' => some '/'
  | 'b' => some '\x08'
  | 'f' => some '\x0c'
  | 'n' => some '\n'
  | 'r' => some '\r'
  | 't' => some '\t'
  | _ => none

/-- A unit of a string: a character, or a 16-bit value from an escape. -/
inductive Unit16 where
  | char (c : Char)
  | escaped (value : Nat)

/-- The units of a string up to its closing quote, behind those of `seen`, last first. -/
def readUnits (seen : List Unit16) : List Char → Option (List Unit16 × List Char)
  | [] => none
  | '"' :: rest => some (seen.reverse, rest)
  | '\\' :: 'u' :: a :: b :: c :: d :: rest =>
    match hexQuad? a b c d with
    | some n => readUnits (.escaped n :: seen) rest
    | none => none
  | '\\' :: e :: rest =>
    match simpleEscape? e with
    | some c => readUnits (.char c :: seen) rest
    | none => none
  | c :: rest => if c.toNat < 0x20 || c == '\\' then none else readUnits (.char c :: seen) rest

/-- The characters that units stand for, behind those of `seen`, last first. -/
def decodeUnits (seen : List Char) : List Unit16 → Option (List Char)
  | [] => some seen.reverse
  | .char c :: rest => decodeUnits (c :: seen) rest
  | .escaped n :: rest =>
    if 0xD800 ≤ n ∧ n < 0xDC00 then
      match rest with
      | .escaped m :: rest =>
        if 0xDC00 ≤ m ∧ m < 0xE000 then
          decodeUnits (Char.ofNat (0x10000 + (n - 0xD800) * 0x400 + (m - 0xDC00)) :: seen) rest
        else none
      | _ => none
    else if 0xDC00 ≤ n ∧ n < 0xE000 then none
    else decodeUnits (Char.ofNat n :: seen) rest

/-- A string whose opening quote has been read. -/
def readString (cs : List Char) : Option (Option String × List Char) :=
  (readUnits [] cs).map fun (units, rest) =>
    ((decodeUnits [] units).map String.ofList, rest)

def isDigit (c : Char) : Bool := '0' ≤ c && c ≤ '9'

def natOfDigits (ds : List Char) : Nat :=
  ds.foldl (fun n c => n * 10 + (c.toNat - '0'.toNat)) 0

/-- What follows the digits before a number's point: at least one digit after a point. -/
def readFraction : List Char → Option (Bool × List Char)
  | '.' :: rest =>
    let after := rest.dropWhile isDigit
    if (rest.takeWhile isDigit).isEmpty then none else some (true, after)
  | cs => some (false, cs)

def dropSign : List Char → List Char
  | '+' :: rest => rest
  | '-' :: rest => rest
  | cs => cs

def readExponent : List Char → Option (Bool × List Char)
  | [] => some (false, [])
  | c :: rest =>
    if c == 'e' || c == 'E' then
      let digits := dropSign rest
      if (digits.takeWhile isDigit).isEmpty then none else some (true, digits.dropWhile isDigit)
    else some (false, c :: rest)

def readUnsigned (negative : Bool) (cs : List Char) : Option (Json × List Char) := do
  let digits := cs.takeWhile isDigit
  if digits.isEmpty || (digits.length > 1 && digits.head? == some '0') then none
  else
    let (fraction, rest) ← readFraction (cs.dropWhile isDigit)
    let (exponent, rest) ← readExponent rest
    if fraction || exponent then some (.real, rest)
    else some (.integer negative (natOfDigits digits), rest)

def readNumber : List Char → Option (Json × List Char)
  | '-' :: rest => readUnsigned true rest
  | cs => readUnsigned false cs

mutual

/-- One value at the start of the text. -/
def readValue : (fuel : Nat) → List Char → Option (Json × List Char)
  | 0, _ => none
  | fuel + 1, cs =>
    match skipSpace cs with
    | 'n' :: 'u' :: 'l' :: 'l' :: rest => some (.null, rest)
    | 't' :: 'r' :: 'u' :: 'e' :: rest => some (.bool true, rest)
    | 'f' :: 'a' :: 'l' :: 's' :: 'e' :: rest => some (.bool false, rest)
    | '"' :: rest => (readString rest).map fun (text, rest) => (.string text, rest)
    | '[' :: rest =>
      match skipSpace rest with
      | ']' :: rest => some (.array [], rest)
      | rest => readItems fuel [] rest
    | '{' :: rest =>
      match skipSpace rest with
      | '}' :: rest => some (.object [], rest)
      | rest => readMembers fuel [] rest
    | cs => readNumber cs

/-- The items of an array that has at least one more, behind those of `seen`, last first. -/
def readItems : (fuel : Nat) → (seen : List Json) → List Char → Option (Json × List Char)
  | 0, _, _ => none
  | fuel + 1, seen, cs =>
    match readValue fuel cs with
    | none => none
    | some (item, rest) =>
      match skipSpace rest with
      | ',' :: rest => readItems fuel (item :: seen) rest
      | ']' :: rest => some (.array (item :: seen).reverse, rest)
      | _ => none

/-- The members of an object that has at least one more, behind those of `seen`, last first. -/
def readMembers : (fuel : Nat) → (seen : List (Option String × Json)) → List Char →
    Option (Json × List Char)
  | 0, _, _ => none
  | fuel + 1, seen, cs =>
    match skipSpace cs with
    | '"' :: rest =>
      match readString rest with
      | none => none
      | some (key, rest) =>
        match skipSpace rest with
        | ':' :: rest =>
          match readValue fuel rest with
          | none => none
          | some (value, rest) =>
            match skipSpace rest with
            | ',' :: rest => readMembers fuel ((key, value) :: seen) rest
            | '}' :: rest => some (.object ((key, value) :: seen).reverse, rest)
            | _ => none
        | _ => none
    | _ => none

end

/-- The value that a text consists of. Every call reads a character or ends, so the length of
the text bounds their number. -/
def ofText? (text : String) : Option Json :=
  let cs := text.toList
  match readValue (cs.length + 1) cs with
  | some (value, rest) => if (skipSpace rest).isEmpty then some value else none
  | none => none

end DeviceUpdate.Json
