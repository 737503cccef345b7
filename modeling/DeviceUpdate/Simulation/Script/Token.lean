import DeviceUpdate.Text.Blank

/-!
# Tokens of a script

A script is cut into words and operators. A word is a run of pieces: text, parameters, and the
output of scripts within it. What stands in quotes is kept together.
-/

namespace DeviceUpdate.Simulation

inductive Piece where
  | text (s : String) (quoted : Bool)
  /-- the value of a parameter -/
  | parameter (name : String) (quoted : Bool)
  /-- what another script prints -/
  | output (script : String) (quoted : Bool)
  deriving DecidableEq, Repr

abbrev Word := List Piece

inductive Token where
  | word (w : Word)
  | operator (symbol : String)
  /-- the number in front of a redirection -/
  | descriptor (number : Nat)
  deriving DecidableEq, Repr

namespace Token

/-- What the reader is within. -/
inductive Mode where
  | plain
  | singleQuotes
  | doubleQuotes
  | comment
  deriving DecidableEq, Repr

structure Reading where
  /-- tokens read, last first -/
  tokens : List Token := []
  /-- pieces of the word under way, last first -/
  word : Option Word := none

namespace Reading

def addPiece (r : Reading) (p : Piece) : Reading := { r with word := some (p :: r.word.getD []) }

/-- Adds a character to the word; characters of one kind make one piece. -/
def addChar (r : Reading) (quoted : Bool) (c : Char) : Reading :=
  match r.word with
  | some (.text s q :: rest) =>
    if q = quoted then { r with word := some (.text (s.push c) quoted :: rest) }
    else r.addPiece (.text (String.singleton c) quoted)
  | _ => r.addPiece (.text (String.singleton c) quoted)

def endWord (r : Reading) : Reading :=
  match r.word with
  | some pieces => { tokens := .word pieces.reverse :: r.tokens }
  | none => r

def addOperator (r : Reading) (symbol : String) : Reading :=
  let r := r.endWord
  { r with tokens := .operator symbol :: r.tokens }

/-- Adds the sign of a redirection. A number right in front of it says what is redirected. -/
def addRedirection (r : Reading) (symbol : String) : Reading :=
  match r.word with
  | some [.text s false] =>
    match s.toNat? with
    | some n => { tokens := .operator symbol :: .descriptor n :: r.tokens }
    | none => r.addOperator symbol
  | _ => r.addOperator symbol

end Reading

def isNameStart (c : Char) : Bool := c.isAlpha || c == '_'

def isNamePart (c : Char) : Bool := c.isAlphanum || c == '_'

/-- The parameters whose name is one character, and no letter. -/
def isSpecialName (c : Char) : Bool := c.isDigit || ['*', '@', '#', '?', '$', '!'].contains c

/-- The text before the parenthesis that closes what `depth` says is open, and what follows. -/
def closed? : (depth : Nat) → List Char → Option (List Char × List Char)
  | _, [] => none
  | 0, ')' :: rest => some ([], rest)
  | depth, c :: rest =>
    let depth := if c = '(' then depth + 1 else if c = ')' then depth - 1 else depth
    (closed? depth rest).map fun (inside, rest) => (c :: inside, rest)

/-- Reads what a dollar sign announces. -/
def expansion? (quoted : Bool) : List Char → Option (Piece × List Char)
  | '(' :: rest => (closed? 0 rest).map fun (s, rest) => (.output (String.ofList s) quoted, rest)
  | '\x7b' :: rest =>
    (Text.cut? '\x7d' rest).map fun (s, rest) => (.parameter (String.ofList s) quoted, rest)
  | c :: rest =>
    if isSpecialName c then some (.parameter (String.singleton c) quoted, rest)
    else if isNameStart c then
      some (.parameter (String.ofList (c :: rest.takeWhile isNamePart)) quoted,
        rest.dropWhile isNamePart)
    else none
  | [] => none

/-- Whether a backslash within double quotes takes away the meaning of this character. -/
def isEscapable (c : Char) : Bool := ['$', '"', '\\', '\x60'].contains c

/-- Reads the characters of a script; each step takes at least one. -/
def scan : (fuel : Nat) → Mode → Reading → List Char → Option (List Token)
  | 0, _, _, _ => none
  | _ + 1, .plain, r, [] | _ + 1, .comment, r, [] => some r.endWord.tokens.reverse
  | _ + 1, _, _, [] => none
  | fuel + 1, .comment, r, c :: cs =>
    if c = '\n' then scan fuel .plain (r.addOperator "\n") cs else scan fuel .comment r cs
  | fuel + 1, .singleQuotes, r, c :: cs =>
    if c = '\'' then scan fuel .plain r cs else scan fuel .singleQuotes (r.addChar true c) cs
  | fuel + 1, .doubleQuotes, r, c :: cs =>
    match c, cs with
    | '"', cs => scan fuel .plain r cs
    | '\\', '\n' :: cs => scan fuel .doubleQuotes r cs
    | '\\', d :: cs =>
      let r := if isEscapable d then r else r.addChar true '\\'
      scan fuel .doubleQuotes (r.addChar true d) cs
    | '$', cs =>
      match expansion? true cs with
      | some (piece, cs) => scan fuel .doubleQuotes (r.addPiece piece) cs
      | none => scan fuel .doubleQuotes (r.addChar true '$') cs
    | c, cs => scan fuel .doubleQuotes (r.addChar true c) cs
  | fuel + 1, .plain, r, c :: cs =>
    match c, cs with
    | '\'', '\'' :: cs => scan fuel .plain (r.addPiece (.text "" true)) cs
    | '\'', cs => scan fuel .singleQuotes r cs
    | '"', '"' :: cs => scan fuel .plain (r.addPiece (.text "" true)) cs
    | '"', cs => scan fuel .doubleQuotes r cs
    | '\\', '\n' :: cs => scan fuel .plain r cs
    | '\\', d :: cs => scan fuel .plain (r.addChar true d) cs
    | '$', cs =>
      match expansion? false cs with
      | some (piece, cs) => scan fuel .plain (r.addPiece piece) cs
      | none => scan fuel .plain (r.addChar false '$') cs
    | '&', '&' :: cs => scan fuel .plain (r.addOperator "&&") cs
    | '|', '|' :: cs => scan fuel .plain (r.addOperator "||") cs
    | '>', '>' :: cs => scan fuel .plain (r.addRedirection ">>") cs
    | '>', '&' :: cs => scan fuel .plain (r.addRedirection ">&") cs
    | '>', cs => scan fuel .plain (r.addRedirection ">") cs
    | '<', cs => scan fuel .plain (r.addRedirection "<") cs
    | '#', cs =>
      if r.word.isNone then scan fuel .comment r cs
      else scan fuel .plain (r.addChar false '#') cs
    | c, cs =>
      if ['&', '|', ';', '(', ')', '\n'].contains c then
        scan fuel .plain (r.addOperator (String.singleton c)) cs
      else if c = ' ' || c = '\t' then scan fuel .plain r.endWord cs
      else scan fuel .plain (r.addChar false c) cs

/-- The tokens of a script, if its quotes and parentheses are closed. -/
def ofText? (script : String) : Option (List Token) :=
  let cs := script.toList
  scan (cs.length + 1) .plain {} cs

end Token

end DeviceUpdate.Simulation
