import DeviceUpdate.Simulation.Script.Token

/-!
# Programs

What a script says to do: commands, joined by pipes, conditions and order.
-/

namespace DeviceUpdate.Simulation

inductive RedirectionKind where
  | read
  | write
  | append
  /-- to where another descriptor leads -/
  | duplicate
  deriving DecidableEq, Repr

structure Redirection where
  descriptor : Nat
  kind : RedirectionKind
  target : Word
  deriving DecidableEq, Repr

/-- A command by its words. -/
structure SimpleCommand where
  assignments : List (String × Word) := []
  words : List Word := []
  redirections : List Redirection := []
  deriving DecidableEq, Repr

inductive Program where
  | nothing
  | run (c : SimpleCommand)
  | pipe (left right : Program)
  | negation (p : Program)
  /-- the right side only if the left one succeeds -/
  | both (left right : Program)
  /-- the right side only if the left one fails -/
  | either (left right : Program)
  | sequence (left right : Program)
  /-- runs while the rest goes on -/
  | background (p : Program)
  /-- a program in braces, or one of its own in parentheses -/
  | group (p : Program) (apart : Bool) (redirections : List Redirection)
  | branch (condition yes no : Program)
  deriving Repr

namespace Program

/-- Tells whether the next token is a plain word, unquoted. -/
def startsWith (keyword : String) : List Token → Bool
  | .word [.text s false] :: _ => s == keyword
  | _ => false

/-- The words that end a list of commands. -/
def closesList (ts : List Token) : Bool :=
  ts.isEmpty || ts.head? == some (.operator ")") ||
    ["\x7d", "then", "else", "elif", "fi"].any (startsWith · ts)

def expect? (keyword : String) (ts : List Token) : Option (List Token) :=
  if startsWith keyword ts then some ts.tail else none

def skipNewlines (ts : List Token) : List Token := ts.dropWhile (· == .operator "\n")

/-- The name and the value of a word that is an assignment. -/
def assignment? : Word → Option (String × Word)
  | .text s false :: rest =>
    match Text.cut? '=' s.toList with
    | some (name, value) =>
      if (name.head?.any Token.isNameStart) && name.all Token.isNamePart then
        some (String.ofList name, .text (String.ofList value) false :: rest)
      else none
    | none => none
  | _ => none

/-- The redirection that a sign stands for. -/
def kindOf? : String → Option RedirectionKind
  | "<" => some .read
  | ">" => some .write
  | ">>" => some .append
  | ">&" => some .duplicate
  | _ => none

/-- Reads a redirection if there is one. -/
def redirection? : List Token → Option (Redirection × List Token)
  | .descriptor n :: .operator symbol :: .word target :: rest =>
    (kindOf? symbol).map fun kind => (⟨n, kind, target⟩, rest)
  | .operator symbol :: .word target :: rest =>
    (kindOf? symbol).map fun kind => (⟨if kind = .read then 0 else 1, kind, target⟩, rest)
  | _ => none

/-- Reads the words and redirections of a command. -/
def readSimple : (fuel : Nat) → SimpleCommand → List Token → SimpleCommand × List Token
  | 0, c, ts => (c, ts)
  | fuel + 1, c, ts =>
    match redirection? ts with
    | some (r, rest) => readSimple fuel { c with redirections := c.redirections ++ [r] } rest
    | none =>
      match ts with
      | .word w :: rest =>
        match if c.words.isEmpty then assignment? w else none with
        | some a => readSimple fuel { c with assignments := c.assignments ++ [a] } rest
        | none => readSimple fuel { c with words := c.words ++ [w] } rest
      | _ => (c, ts)

/-- Reads the redirections behind a group. -/
def readRedirections : (fuel : Nat) → List Token → List Redirection × List Token
  | 0, ts => ([], ts)
  | fuel + 1, ts =>
    match redirection? ts with
    | none => ([], ts)
    | some (r, rest) =>
      let (more, rest) := readRedirections fuel rest
      (r :: more, rest)

mutual

/-- Reads commands up to the end of a list. -/
def readList (fuel : Nat) (ts : List Token) : Option (Program × List Token) :=
  match fuel with
  | 0 => none
  | fuel + 1 =>
    let ts := skipNewlines ts
    if closesList ts then some (.nothing, ts)
    else do
      let (first, ts) ← readConditional fuel ts
      match ts with
      | .operator ";" :: ts | .operator "\n" :: ts =>
        let (rest, ts) ← readList fuel ts
        return (.sequence first rest, ts)
      | .operator "&" :: ts =>
        let (rest, ts) ← readList fuel ts
        return (.sequence (.background first) rest, ts)
      | ts => if closesList ts then return (first, ts) else none
  termination_by structural fuel

/-- Reads pipelines joined by conditions. -/
def readConditional (fuel : Nat) (ts : List Token) : Option (Program × List Token) :=
  match fuel with
  | 0 => none
  | fuel + 1 => do
    let (first, ts) ← readPipeline fuel ts
    readConditions fuel first ts
  termination_by structural fuel

/-- Reads what is joined to the pipelines in `left`. -/
def readConditions (fuel : Nat) (left : Program) (ts : List Token) :
    Option (Program × List Token) :=
  match fuel with
  | 0 => none
  | fuel + 1 =>
    match ts with
    | .operator "&&" :: ts => do
      let (right, ts) ← readPipeline fuel (skipNewlines ts)
      readConditions fuel (.both left right) ts
    | .operator "||" :: ts => do
      let (right, ts) ← readPipeline fuel (skipNewlines ts)
      readConditions fuel (.either left right) ts
    | ts => some (left, ts)
  termination_by structural fuel

/-- Reads a pipeline, which an exclamation mark may negate. -/
def readPipeline (fuel : Nat) (ts : List Token) : Option (Program × List Token) :=
  match fuel with
  | 0 => none
  | fuel + 1 =>
    if startsWith "!" ts then do
      let (p, ts) ← readPipeline fuel ts.tail
      return (.negation p, ts)
    else do
      let (first, ts) ← readCommand fuel ts
      match ts with
      | .operator "|" :: ts =>
        let (rest, ts) ← readPipeline fuel (skipNewlines ts)
        return (.pipe first rest, ts)
      | ts => return (first, ts)
  termination_by structural fuel

def readCommand (fuel : Nat) (ts : List Token) : Option (Program × List Token) :=
  match fuel with
  | 0 => none
  | fuel + 1 =>
    match ts with
    | .operator "(" :: ts => do
      let (p, ts) ← readList fuel ts
      match ts with
      | .operator ")" :: ts =>
        let (rs, ts) := readRedirections fuel ts
        return (.group p true rs, ts)
      | _ => none
    | ts =>
      if startsWith "\x7b" ts then do
        let (p, ts) ← readList fuel ts.tail
        let (rs, ts) := readRedirections fuel (← expect? "\x7d" ts)
        return (.group p false rs, ts)
      else if startsWith "if" ts then readBranches fuel ts.tail
      else
        let (c, rest) := readSimple fuel {} ts
        if c.assignments.isEmpty && c.words.isEmpty && c.redirections.isEmpty then none
        else some (.run c, rest)
  termination_by structural fuel

/-- Reads the condition of a branch and what follows it. -/
def readBranches (fuel : Nat) (ts : List Token) : Option (Program × List Token) :=
  match fuel with
  | 0 => none
  | fuel + 1 => do
    let (condition, ts) ← readList fuel ts
    let (yes, ts) ← readList fuel (← expect? "then" ts)
    if startsWith "elif" ts then
      let (no, ts) ← readBranches fuel ts.tail
      return (.branch condition yes no, ts)
    else if startsWith "else" ts then
      let (no, ts) ← readList fuel ts.tail
      return (.branch condition yes no, ← expect? "fi" ts)
    else return (.branch condition yes .nothing, ← expect? "fi" ts)
  termination_by structural fuel

end

/-- The program of a script, if it is well-formed. Reading a token takes at most five calls. -/
def ofText? (script : String) : Option Program := do
  let ts ← Token.ofText? script
  let (p, rest) ← readList (6 * ts.length + 6) ts
  if rest.isEmpty then return p else none

end Program

end DeviceUpdate.Simulation
