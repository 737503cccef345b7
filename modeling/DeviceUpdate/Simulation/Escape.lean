import DeviceUpdate.Text.Utf8

/-!
# Escapes and formats

A backslash announces a byte in what the tools print: by a letter, or by its octal digits. A format
is used again as long as there are arguments left.
-/

namespace DeviceUpdate.Simulation

namespace Escape

/-- Reads at most `n` octal digits behind the value `acc`. -/
def octal : (n : Nat) → (acc : Nat) → List Char → Nat × List Char
  | 0, acc, cs => (acc, cs)
  | _ + 1, acc, [] => (acc, [])
  | n + 1, acc, c :: cs =>
    if '0' ≤ c && c ≤ '7' then octal n (acc * 8 + (c.toNat - '0'.toNat)) cs else (acc, c :: cs)

/-- What a letter behind a backslash stands for. -/
def letter? : Char → Option UInt8
  | 'a' => some 7
  | 'b' => some 8
  | 'f' => some 12
  | 'n' => some 10
  | 'r' => some 13
  | 't' => some 9
  | 'v' => some 11
  | '\\' => some 92
  | _ => none

/-- Reads what follows a backslash: the bytes it stands for and the rest, or nothing if all output
ends here. With `zeroFirst` an octal number starts with a zero of its own. -/
def read? (zeroFirst : Bool) : List Char → Option (Bytes × List Char)
  | [] => some ([92], [])
  | c :: cs =>
    if c = 'c' then none
    else
      match letter? c with
      | some b => some ([b], cs)
      | none =>
        if zeroFirst && c = '0' then
          let (value, rest) := octal 3 0 cs
          some ([value.toUInt8], rest)
        else if !zeroFirst && '0' ≤ c && c ≤ '7' then
          let (value, rest) := octal 3 0 (c :: cs)
          some ([value.toUInt8], rest)
        else some ([92], c :: cs)

/-- The bytes of a text with escapes, and whether all output ends in it. -/
def expand (zeroFirst : Bool) : (fuel : Nat) → List Char → Bytes × Bool
  | 0, _ | _, [] => ([], false)
  | fuel + 1, '\\' :: cs =>
    match read? zeroFirst cs with
    | none => ([], true)
    | some (bytes, rest) =>
      let (more, ends) := expand zeroFirst fuel rest
      (bytes ++ more, ends)
  | fuel + 1, c :: cs =>
    let (more, ends) := expand zeroFirst fuel cs
    (String.utf8EncodeChar c ++ more, ends)

/-- The bytes of a text with escapes. -/
def bytes (zeroFirst : Bool) (text : String) : Bytes × Bool :=
  expand zeroFirst text.toList.length text.toList

end Escape

/-- How a use of a format ends. -/
structure Formatted where
  bytes : Bytes := []
  /-- arguments that are left -/
  rest : List String := []
  /-- an argument was asked for -/
  asked : Bool := false
  /-- all output ends here -/
  ends : Bool := false
  fault : Bool := false

namespace Formatted

def before (b : Bytes) (f : Formatted) : Formatted := { f with bytes := b ++ f.bytes }

def asking (f : Formatted) : Formatted := { f with asked := true }

/-- The bytes that a letter behind a percent sign makes of an argument. -/
def conversion? (letter : Char) (argument : String) : Option Bytes :=
  match letter with
  | 's' => some (Text.encodeUtf8 argument)
  | 'c' => some ((Text.encodeUtf8 argument).take 1)
  | 'd' | 'i' | 'u' => some (Text.encodeUtf8 (toString (argument.toInt?.getD 0)))
  | _ => none

/-- Uses a format once. -/
def once : (fuel : Nat) → List Char → List String → Formatted
  | 0, _, rest | _, [], rest => { rest }
  | fuel + 1, '%' :: '%' :: cs, args => (once fuel cs args).before [37]
  | fuel + 1, '%' :: 'b' :: cs, args =>
    let (bytes, ends) := Escape.bytes true (args.headD "")
    if ends then { bytes, ends, asked := true } else ((once fuel cs args.tail).before bytes).asking
  | fuel + 1, '%' :: c :: cs, args =>
    match conversion? c (args.headD "") with
    | some bytes => ((once fuel cs args.tail).before bytes).asking
    | none => { fault := true, ends := true }
  | fuel + 1, '\\' :: cs, args =>
    match Escape.read? false cs with
    | none => { ends := true }
    | some (bytes, cs) => (once fuel cs args).before bytes
  | fuel + 1, c :: cs, args => (once fuel cs args).before (String.utf8EncodeChar c)

/-- Uses a format for all arguments; each further use takes at least one. -/
def all : (fuel : Nat) → List Char → List String → Formatted
  | 0, _, _ => {}
  | fuel + 1, format, args =>
    let first := once format.length format args
    if first.ends || first.rest.isEmpty || !first.asked then first
    else (all fuel format first.rest).before first.bytes

end Formatted

end DeviceUpdate.Simulation
