import DeviceUpdate.FileSystem.Listing

/-!
# Executables

A program is a file that may be executed: a common tool, or a script whose first line names the
program that runs it. A name without a slash is looked for in a list of directories.
-/

namespace DeviceUpdate.Simulation

/-- A common tool and its arguments. -/
structure Invocation where
  tool : String
  arguments : List String
  deriving DecidableEq, Repr

namespace Executable

/-- The content that marks a common tool, in front of its name. -/
def mark : Bytes := Text.encodeUtf8 "\x7fELF"

/-- The content of a common tool. -/
def content (name : String) : Bytes := mark ++ Text.encodeUtf8 name

/-- The system cannot tell how to execute this. -/
def unknownFormat : FileError := .system 8

def isGap (c : Char) : Bool := c == ' ' || c == '\t'

/-- The program that a first line names, and the argument behind it. -/
def interpreter? (content : Bytes) : Option (String × List String) :=
  match content with
  | 35 :: 33 :: rest =>
    let line := ((Text.decodeUtf8Lossy (rest.takeWhile (· != 10))).toList).dropWhile isGap
    let argument := Text.trim (line.dropWhile (!isGap ·))
    some (String.ofList (line.takeWhile (!isGap ·)),
      if argument.isEmpty then [] else [String.ofList argument])
  | _ => none

/-- What executing the file at `path` comes to. A script leads to its interpreter, through at most
`depth` of them. -/
def invocation (fs : FileSystem) : (depth : Nat) → (path : String) → (args : List String) →
    Except FileError Invocation
  | 0, _, _ => .error .tooManyLinks
  | depth + 1, path, args => do
    let i ← fs.find path
    match fs.node? i with
    | some (.file content true) =>
      if mark.isPrefixOf content then
        return ⟨Text.decodeUtf8Lossy (content.drop mark.length), args⟩
      else
        match interpreter? content with
        | some (program, first) => invocation fs depth program (first ++ path :: args)
        | none => throw unknownFormat
    | _ => throw .permissionDenied

/-- Scripts that may lead to each other before the system gives up. -/
def scriptLimit : Nat := 5

/-- Tries the directories in turn. Where the program may not be executed the search goes on, but
that is what a search without success then reports; other errors than a missing file end it. -/
def search (fs : FileSystem) (program : String) (args : List String) (failure : FileError) :
    List String → Except FileError Invocation
  | [] => .error failure
  | directory :: rest =>
    match invocation fs scriptLimit (Path.join directory program) args with
    | .ok i => .ok i
    | .error e =>
      if e == .permissionDenied then search fs program args e rest
      else if e == .notFound || e == .notDirectory then
        search fs program args (if failure == .permissionDenied then failure else e) rest
      else .error e

/-- What starting a program comes to. -/
def find (fs : FileSystem) (directories : List String) (program : String) (args : List String) :
    Except FileError Invocation :=
  if program.isEmpty then .error .notFound
  else if program.toList.contains '/' then invocation fs scriptLimit program args
  else search fs program args .notFound directories

end Executable

end DeviceUpdate.Simulation
