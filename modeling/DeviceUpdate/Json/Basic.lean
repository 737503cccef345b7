/-!
# JSON values

Objects keep their members in order and may repeat a key. A string may hold half of a surrogate
pair; such a string stands for no text, and is `none` here.
-/

namespace DeviceUpdate

inductive Json where
  | null
  | bool (value : Bool)
  | integer (negative : Bool) (magnitude : Nat)
  /-- a number with a fraction or an exponent; its value is never asked for -/
  | real
  | string (text : Option String)
  | array (items : List Json)
  | object (members : List (Option String × Json))

namespace Json

def ofString (s : String) : Json := .string (some s)

def ofNat (n : Nat) : Json := .integer false n

def ofInt : Int → Json
  | .ofNat n => .integer false n
  | .negSucc n => .integer true (n + 1)

/-- An object with these keys and values. -/
def ofMembers (members : List (String × Json)) : Json :=
  .object (members.map fun (key, value) => (some key, value))

def asText? : Json → Option String
  | .string text => text
  | _ => none

def asBool? : Json → Option Bool
  | .bool b => some b
  | _ => none

/-- A natural number of at most `hi`. -/
def asNat? (hi : Nat) : Json → Option Nat
  | .integer false n => if n ≤ hi then some n else none
  | _ => none

def asInt? : Json → Option Int
  | .integer false n => some n
  | .integer true n => some (-n)
  | _ => none

/-- The value of the last member with this key. -/
def get? (j : Json) (key : String) : Option Json :=
  match j with
  | .object members => (members.reverse.find? fun m => m.1 == some key).map (·.2)
  | _ => none

/-- The values of named fields, each present or not. An object gives them by key: every key must
be a text and no field may come twice. An array gives them by position and may hold no more than
there are fields. -/
def fields? (names : List String) : Json → Option (List (Option Json))
  | .object members =>
    if members.all (fun m => m.1.isSome) &&
        names.all (fun name => (members.filter fun m => m.1 == some name).length ≤ 1) then
      some (names.map fun name => (members.find? fun m => m.1 == some name).map (·.2))
    else none
  | .array items =>
    if items.length ≤ names.length then
      some (items.map some ++ List.replicate (names.length - items.length) none)
    else none
  | _ => none

/-- The value that a field holds, or `default` if it is not there. -/
def fieldOr {α : Type} (read : Json → Option α) (default : α) : Option Json → Option α
  | none => some default
  | some j => read j

end Json

end DeviceUpdate
