import DeviceUpdate.Json.Basic

/-!
# Writing JSON

Strings escape the quote, the backslash and control characters, and nothing else. Values are
written on one line, or over several with two blanks for each level of nesting.
-/

namespace DeviceUpdate.Json

def hexCharacter (n : Nat) : Char := (Nat.toDigits 16 (n % 16)).headD '0'

def escapeCharacter (c : Char) : List Char :=
  if c == '"' then ['\\', '"']
  else if c == '\\' then ['\\', '\\']
  else if c == '\x08' then ['\\', 'b']
  else if c == '\x0c' then ['\\', 'f']
  else if c == '\n' then ['\\', 'n']
  else if c == '\r' then ['\\', 'r']
  else if c == '\t' then ['\\', 't']
  else if c.toNat < 0x20 then
    ['\\', 'u', '0', '0', hexCharacter (c.toNat / 16), hexCharacter c.toNat]
  else [c]

def quote (s : String) : String :=
  "\"" ++ String.ofList (s.toList.flatMap escapeCharacter) ++ "\""

/-- The text of a value that holds no others. -/
def leafText : Json → String
  | .bool true => "true"
  | .bool false => "false"
  | .integer negative n => (if negative then "-" else "") ++ toString n
  | .string (some text) => quote text
  | _ => "null"

/-- Members in the order of their keys. -/
def sortMembers (members : List (Option String × Json)) : List (Option String × Json) :=
  members.mergeSort fun a b => a.1.getD "" ≤ b.1.getD ""

mutual

/-- The value on one line. -/
def compact : Json → String
  | .array items => "[" ++ String.intercalate "," (compactItems items) ++ "]"
  | .object members => "\x7b" ++ String.intercalate "," (compactMembers members) ++ "\x7d"
  | j => leafText j

def compactItems : List Json → List String
  | [] => []
  | j :: rest => compact j :: compactItems rest

def compactMembers : List (Option String × Json) → List String
  | [] => []
  | (key, j) :: rest => (quote (key.getD "") ++ ":" ++ compact j) :: compactMembers rest

end

def indentation (level : Nat) : String := String.ofList (List.replicate (2 * level) ' ')

/-- Texts between brackets, one to a line, at this level of nesting. -/
def bracketed (left right : String) (level : Nat) (texts : List String) : String :=
  if texts.isEmpty then left ++ right
  else
    let inner := "\n" ++ indentation (level + 1)
    left ++ inner ++ String.intercalate ("," ++ inner) texts ++ "\n" ++ indentation level ++ right

mutual

/-- The value over several lines, members in the order they are kept in. -/
def pretty (level : Nat) : Json → String
  | .array items => bracketed "[" "]" level (prettyItems (level + 1) items)
  | .object members => bracketed "\x7b" "\x7d" level (prettyMembers (level + 1) members)
  | j => leafText j

def prettyItems (level : Nat) : List Json → List String
  | [] => []
  | j :: rest => pretty level j :: prettyItems level rest

def prettyMembers (level : Nat) : List (Option String × Json) → List String
  | [] => []
  | (key, j) :: rest =>
    (quote (key.getD "") ++ ": " ++ pretty level j) :: prettyMembers level rest

end

mutual

/-- The value with the members of every object in the order of their keys. -/
def sorted : Json → Json
  | .array items => .array (sortedItems items)
  | .object members => .object (sortMembers (sortedMembers members))
  | j => j

def sortedItems : List Json → List Json
  | [] => []
  | j :: rest => sorted j :: sortedItems rest

def sortedMembers : List (Option String × Json) → List (Option String × Json)
  | [] => []
  | (key, j) :: rest => (key, sorted j) :: sortedMembers rest

end

/-- The value over several lines, members in the order of their keys. -/
def document (j : Json) : String := pretty 0 (sorted j)

end DeviceUpdate.Json
