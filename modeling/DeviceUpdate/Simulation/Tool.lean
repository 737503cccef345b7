import DeviceUpdate.FileSystem.Listing
import DeviceUpdate.Simulation.Escape
import DeviceUpdate.Text.Decimal

/-!
# Common tools

The small programs that scripts are made of. A tool takes arguments and input, may look at the
files and change them, and leaves output, messages, a status, and the time it took.
-/

namespace DeviceUpdate.Simulation

/-- What a tool leaves when it ends. -/
structure ToolResult where
  stdout : Bytes := []
  messages : Bytes := []
  status : Nat := 0
  /-- in nanoseconds -/
  time : Nat := 0
  files : FileSystem

namespace Tool

def printing (files : FileSystem) (bytes : Bytes) : ToolResult := { stdout := bytes, files }

def failing (files : FileSystem) (tool message : String) : ToolResult :=
  { messages := Text.encodeUtf8 (tool ++ ": " ++ message ++ "\n"), status := 1, files }

def line (s : String) : Bytes := Text.encodeUtf8 (s ++ "\n")

/-- What is said of an operand that cannot be used. -/
def complaint (operand : String) (e : FileError) : String :=
  match e with
  | .system n => operand ++ ": " ++ FileError.systemText n
  | e => operand ++ ": " ++ e.message

/-- How arguments are printed. -/
structure EchoStyle where
  /-- the line is left open -/
  opens : Bool := false
  escapes : Bool := false
  deriving DecidableEq, Repr

/-- Prints arguments with blanks between them. -/
def echoAs (files : FileSystem) (style : EchoStyle) (args : List String) : ToolResult :=
  let text := String.intercalate " " args
  let (bytes, ends) := if style.escapes then Escape.bytes true text
    else (Text.encodeUtf8 text, false)
  printing files (if style.opens || ends then bytes else bytes ++ [10])

/-- The style behind an argument of options. -/
def EchoStyle.adjust? (style : EchoStyle) : List Char → Option EchoStyle
  | [] => some style
  | 'n' :: rest => adjust? { style with opens := true } rest
  | 'e' :: rest => adjust? { style with escapes := true } rest
  | 'E' :: rest => adjust? { style with escapes := false } rest
  | _ => none

/-- Prints its arguments, behind those that are options. -/
def echo (files : FileSystem) (style : EchoStyle) : List String → ToolResult
  | [] => echoAs files style []
  | arg :: args =>
    match arg.toList with
    | '-' :: c :: cs =>
      match style.adjust? (c :: cs) with
      | some style => echo files style args
      | none => echoAs files style (arg :: args)
    | _ => echoAs files style (arg :: args)

/-- As `echo`, with escapes and only one option. -/
def echoEscaped (files : FileSystem) : List String → ToolResult
  | "-n" :: args => echoAs files ⟨true, true⟩ args
  | args => echoAs files ⟨false, true⟩ args

def printf (files : FileSystem) : List String → ToolResult
  | [] => failing files "printf" "missing operand"
  | format :: args =>
    let f := Formatted.all (args.length + 1) format.toList args
    { stdout := f.bytes, status := if f.fault then 1 else 0, files }

/-- The bytes of an operand; a dash stands for the input. -/
def operand (files : FileSystem) (input : Bytes) (path : String) : Except FileError Bytes :=
  if path = "-" then .ok input else files.read path

/-- Prints its operands one after the other. -/
def cat (files : FileSystem) (input : Bytes) (args : List String) : ToolResult :=
  let operands := if args.isEmpty then ["-"] else args
  operands.foldl (fun r path =>
    match operand files input path with
    | .ok bytes => { r with stdout := r.stdout ++ bytes }
    | .error e => { r with
        status := 1
        messages := r.messages ++ line ("cat: " ++ complaint path e) }) { files }

/-- The device that gives zeros without end. -/
def zeros : String := "/dev/zero"

/-- The first `n` lines. -/
def firstLines : Nat → Bytes → Bytes
  | 0, _ | _, [] => []
  | n + 1, b :: rest => b :: firstLines (if b = 10 then n else n + 1) rest

/-- Prints the first bytes or lines. -/
def head (files : FileSystem) (input : Bytes) (args : List String) : ToolResult :=
  let of (count : String) (rest : List String) (take : Nat → Bytes → Bytes) : ToolResult :=
    match count.toNat?, rest with
    | none, _ => failing files "head" ("invalid number: '" ++ count ++ "'")
    | some n, [] => printing files (take n input)
    | some n, path :: _ =>
      if path = zeros then printing files (List.replicate n 0)
      else
        match operand files input path with
        | .ok bytes => printing files (take n bytes)
        | .error e => failing files "head" ("cannot open '" ++ path ++ "': " ++ e.message)
  match args with
  | "-c" :: count :: rest => of count rest List.take
  | "-n" :: count :: rest => of count rest firstLines
  | rest => of "10" rest firstLines

/-- The bytes between two bytes, both included. -/
def range (first last : UInt8) : Bytes :=
  (List.range (last.toNat + 1 - first.toNat)).map fun i => first + i.toUInt8

/-- Puts ranges in full. -/
def spread : Bytes → Bytes
  | first :: 45 :: last :: rest => range first last ++ spread rest
  | b :: rest => b :: spread rest
  | [] => []

/-- The bytes that a set of `tr` names. -/
def byteSet (s : String) : Bytes := spread (Escape.bytes false s).1

/-- What `tr` makes of a byte; the last byte of `target` stands for all that
it lacks. -/
def exchange (source target : Bytes) (b : UInt8) : UInt8 :=
  match source.findIdx? (· == b) with
  | none => b
  | some i => target[i]?.getD (target.getLast?.getD b)

/-- Exchanges or deletes bytes of the input. -/
def tr (files : FileSystem) (input : Bytes) : List String → ToolResult
  | ["-d", set] =>
    let set := byteSet set
    printing files (input.filter fun b => !set.contains b)
  | [source, target] => printing files (input.map (exchange (byteSet source) (byteSet target)))
  | _ => failing files "tr" "missing operand"

/-- Counts lines or bytes. -/
def wc (files : FileSystem) (input : Bytes) (args : List String) : ToolResult :=
  let of (rest : List String) (count : Bytes → Nat) : ToolResult :=
    match rest with
    | [] => printing files (line (toString (count input)))
    | path :: _ =>
      match operand files input path with
      | .ok bytes => printing files (line (toString (count bytes) ++ " " ++ path))
      | .error e => failing files "wc" (complaint path e)
  match args with
  | "-l" :: rest => of rest fun bytes => bytes.count 10
  | "-c" :: rest => of rest List.length
  | _ => failing files "wc" "only lines or bytes can be counted"

/-- The nanoseconds that a decimal number of seconds is. -/
def nanoseconds? (s : String) : Option Nat :=
  let (whole, part) := (Text.cut? '.' s.toList).getD (s.toList, [])
  let digits := whole ++ part.take 9 ++ List.replicate (9 - part.length) '0'
  if (whole ++ part).isEmpty then none else (Text.readNatural (Nat.pow 10 30) digits).toOption

def sleep (files : FileSystem) (args : List String) : ToolResult :=
  match args.mapM nanoseconds? with
  | some (t :: ts) => { time := ts.foldl (· + ·) t, files }
  | _ => failing files "sleep" "invalid time interval"

/-- What a condition of `test` says. -/
def condition? (files : FileSystem) : List String → Option Bool
  | [] => some false
  | ["!"] => some true
  | "!" :: rest => (condition? files rest).map (!·)
  | [s] => some (!s.isEmpty)
  | ["-n", s] => some (!s.isEmpty)
  | ["-z", s] => some s.isEmpty
  | ["-e", path] => some (files.exists? path)
  | ["-f", path] => some (files.isFile path)
  | ["-d", path] => some (files.isDirectory path)
  | ["-s", path] => some (((files.size path).toOption.getD 0) != 0)
  | [a, "=", b] => some (a == b)
  | [a, "!=", b] => some (a != b)
  | [a, "-eq", b] => return (← a.toInt?) == (← b.toInt?)
  | [a, "-ne", b] => return (← a.toInt?) != (← b.toInt?)
  | [a, "-lt", b] => return (← a.toInt?) < (← b.toInt?)
  | [a, "-gt", b] => return (← a.toInt?) > (← b.toInt?)
  | _ => none

def test (files : FileSystem) (args : List String) : ToolResult :=
  { status := match condition? files args with
      | some true => 0
      | some false => 1
      | none => 2
    files }

/-- Removes files; `-f` says nothing of those that are not there. -/
def rm (files : FileSystem) (args : List String) : ToolResult :=
  let forced := args.head? == some "-f"
  (if forced then args.tail else args).foldl (fun r path =>
    match r.files.remove path with
    | .ok files => { r with files }
    | .error e =>
      if forced && e == .notFound then r
      else { r with
        status := 1
        messages := r.messages ++ line ("rm: cannot remove '" ++ path ++ "': " ++ e.message) })
    { files }

/-- Does what the common tool of this name does, if there is one. -/
def run? (name : String) (args : List String) (input : Bytes) (files : FileSystem) :
    Option ToolResult :=
  match name with
  | "true" => some { files }
  | "false" => some { status := 1, files }
  | "echo" => some (echo files {} args)
  | "printf" => some (printf files args)
  | "cat" => some (cat files input args)
  | "head" => some (head files input args)
  | "tr" => some (tr files input args)
  | "wc" => some (wc files input args)
  | "sleep" => some (sleep files args)
  | "test" => some (test files args)
  | "rm" => some (rm files args)
  | _ => none

end Tool

end DeviceUpdate.Simulation
