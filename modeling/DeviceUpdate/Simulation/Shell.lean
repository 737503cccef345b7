import DeviceUpdate.Simulation.Machine
import DeviceUpdate.Simulation.Script.Program

/-!
# A shell

Runs programs on a machine whose clock moves only when something takes time. A limit on the clock
stops everything that still runs then. What is printed is kept with the time of the printing, so
that programs in the background come in where they belong.
-/

namespace DeviceUpdate.Simulation

/-- Where what is printed goes. -/
inductive Sink where
  | capture
  | nowhere
  /-- an open file, by its index -/
  | file (index : Nat)
  deriving DecidableEq, Repr

structure Sinks where
  output : Sink := .capture
  messages : Sink := .nowhere
  deriving DecidableEq, Repr

/-- How a part of a program ends. -/
inductive Flow where
  /-- the next part follows -/
  | next
  /-- the shell ends -/
  | exit
  /-- a signal ends the shell -/
  | killed (signal : Nat)
  /-- the limit stops everything -/
  | stopped
  deriving DecidableEq, Repr

/-- A program in the background that has not run yet, with what it knows. -/
structure Job where
  program : Program
  sinks : Sinks
  start : Nat
  bindings : List (String × String)
  arguments : List String

structure Shell where
  files : FileSystem
  /-- the directories that programs are looked for in -/
  directories : List String
  /-- nanoseconds since the start -/
  clock : Nat := 0
  limit : Option Nat := none
  name : String := "sh"
  arguments : List String := []
  bindings : List (String × String) := []
  /-- the status of the last command -/
  status : Nat := 0
  /-- a failure ends the shell, unless it is a condition -/
  strict : Bool := false
  /-- the number of this process -/
  number : Nat := 1
  input : Bytes := []
  handles : Array Handle := #[]
  /-- what was printed and when, last first -/
  printed : List (Nat × Bytes) := []
  jobs : List Job := []

namespace Shell

/-- Nanoseconds that starting a program takes. -/
def startTime : Nat := 1000000

/-- Lets time pass; false if the limit comes first. -/
def elapse (s : Shell) (time : Nat) : Bool × Shell :=
  let clock := s.clock + time
  match s.limit with
  | some limit => if limit < clock then (false, s) else (true, { s with clock })
  | none => (true, { s with clock })

def print (s : Shell) (sink : Sink) (bytes : Bytes) : Shell :=
  match sink with
  | .capture => { s with printed := (s.clock, bytes) :: s.printed }
  | .nowhere => s
  | .file i =>
    match s.handles[i]? with
    | none => s
    | some handle =>
      match s.files.write handle bytes with
      | .ok (handle, files) => { s with files, handles := s.handles.setIfInBounds i handle }
      | .error _ => { s with files := s.files.spill handle bytes, status := 2 }

def complain (s : Shell) (io : Sinks) (message : String) : Shell :=
  s.print io.messages (Text.encodeUtf8 (s.name ++ ": 1: " ++ message ++ "\n"))

/-- What was printed, in the order of time. -/
def output (s : Shell) : Bytes :=
  ((s.printed.reverse.mergeSort fun a b => a.1 ≤ b.1).map (·.2)).flatten

/-- The value of a parameter with a plain name. -/
def value (s : Shell) (name : String) : String :=
  match name with
  | "*" | "@" => String.intercalate " " s.arguments
  | "#" => toString s.arguments.length
  | "?" => toString s.status
  | "$" => toString s.number
  | "0" => s.name
  | name =>
    match name.toNat? with
    | some n => (s.arguments[n - 1]?).getD ""
    | none => (s.bindings.lookup name).getD ""

/-- The value of a parameter, or of one with a default behind a colon and a dash. -/
def valueOr (s : Shell) (name : String) : String :=
  match Text.cut? ':' name.toList with
  | some (name, '-' :: fallback) =>
    let v := s.value (String.ofList name)
    if v.isEmpty then String.ofList fallback else v
  | _ => s.value name

def assign (s : Shell) (name value : String) : Shell :=
  { s with bindings := (name, value) :: s.bindings.filter (·.1 != name) }

/-- Parts of an expanded word: text, and places where it falls apart. -/
inductive Part where
  /-- `whole` text makes a field even if it is empty -/
  | text (s : String) (whole : Bool)
  | split
  deriving DecidableEq, Repr

def isSeparator (c : Char) : Bool := c == ' ' || c == '\t' || c == '\n'

/-- The parts of a value that is not quoted. -/
def partsOf (value : String) : List Part :=
  List.intersperse .split
    ((Text.splitWhere isSeparator value.toList).map fun w => .text (String.ofList w) false)

/-- The fields that parts make up. -/
def fieldsOf (parts : List Part) : List String :=
  let (current, fields) := parts.foldl (fun (current, fields) part =>
    match part with
    | .text s whole =>
      if whole || !s.isEmpty then (some (current.getD "" ++ s), fields) else (current, fields)
    | .split => (none, current.toList ++ fields)) ((none, []) : Option String × List String)
  (current.toList ++ fields).reverse

/-- The text that parts make up together. -/
def joined (parts : List Part) : String :=
  String.join (parts.map fun
    | .text s _ => s
    | .split => " ")

/-- The parts of a parameter. -/
def parameterParts (s : Shell) (name : String) (quoted : Bool) : List Part :=
  if name = "@" && quoted then
    List.intersperse .split (s.arguments.map fun a => .text a true)
  else if (name = "*" || name = "@") && !quoted then
    List.intercalate [.split] (s.arguments.map partsOf)
  else if quoted then [.text (s.valueOr name) true]
  else partsOf (s.valueOr name)

/-- A text without the line feeds at its end. -/
def withoutNewlines (s : String) : String :=
  String.ofList ((s.toList.reverse.dropWhile (· == '\n')).reverse)

def signalNumber? (name : String) : Option Nat :=
  match name with
  | "HUP" | "1" => some 1
  | "INT" | "2" => some 2
  | "QUIT" | "3" => some 3
  | "KILL" | "9" => some 9
  | "USR1" | "10" => some 10
  | "SEGV" | "11" => some 11
  | "USR2" | "12" => some 12
  | "PIPE" | "13" => some 13
  | "ALRM" | "14" => some 14
  | "TERM" | "15" => some 15
  | _ => none

/-- The signal and the process that the arguments of `kill` name. -/
def killed? : List String → Option (Nat × String)
  | ["-s", signal, target] => (signalNumber? signal).map (·, target)
  | [signal, target] =>
    (signalNumber? (String.ofList (signal.toList.drop 1))).map (·, target)
  | [target] => some (15, target)
  | _ => none

/-- Sends a signal to the shell itself; it reaches nobody else. -/
def kill (s : Shell) (args : List String) : Flow × Shell :=
  match killed? args with
  | some (signal, target) =>
    if target = toString s.number then (.killed signal, s) else (.next, { s with status := 1 })
  | none => (.next, { s with status := 2 })

/-- Reads a line of the input into variables, the last of which takes all that is left. -/
def readLine (s : Shell) (names : List String) : Shell :=
  let line := s.input.takeWhile (· != 10)
  let rest := s.input.drop line.length
  let s := { s with input := rest.drop 1, status := if rest.isEmpty then 1 else 0 }
  let rec give (s : Shell) (text : List Char) : List String → Shell
    | [] => s
    | [name] => s.assign name (String.ofList ((text.reverse.dropWhile isSeparator).reverse))
    | name :: names =>
      give (s.assign name (String.ofList (text.takeWhile (!isSeparator ·))))
        ((text.dropWhile (!isSeparator ·)).dropWhile isSeparator) names
  give s ((Text.decodeUtf8Lossy line).toList.dropWhile isSeparator) names

/-- What a tool left is printed, and its time passes. -/
def finishTool (s : Shell) (io : Sinks) (r : ToolResult) : Flow × Shell :=
  match s.elapse r.time with
  | (false, s) => (.stopped, s)
  | (true, s) =>
    let s := { s with files := r.files, status := r.status }
    (.next, (s.print io.messages r.messages).print io.output r.stdout)

/-- Opens what a redirection asks for. -/
def redirect (s : Shell) (io : Sinks) (r : Redirection) (target : String) :
    Except String (Sinks × Shell) :=
  let point (sink : Sink) : Sinks :=
    if r.descriptor = 2 then { io with messages := sink }
    else if r.descriptor = 1 then { io with output := sink }
    else io
  let opened (handle : Handle) (files : FileSystem) : Sinks × Shell :=
    (point (.file s.handles.size), { s with files, handles := s.handles.push handle })
  match r.kind with
  | .read =>
    match s.files.read target with
    | .ok bytes => .ok (io, { s with input := bytes })
    | .error _ => .error ("cannot open " ++ target ++ ": No such file")
  | .write =>
    match s.files.create target with
    | .ok (handle, files) => .ok (opened handle files)
    | .error _ => .error ("cannot create " ++ target ++ ": Directory nonexistent")
  | .append =>
    match s.files.read target with
    | .ok bytes =>
      match s.files.find target with
      | .ok i => .ok (opened ⟨i, bytes.length⟩ s.files)
      | .error _ => .error ("cannot create " ++ target ++ ": Directory nonexistent")
    | .error _ =>
      match s.files.create target with
      | .ok (handle, files) => .ok (opened handle files)
      | .error _ => .error ("cannot create " ++ target ++ ": Directory nonexistent")
  | .duplicate =>
    match target with
    | "1" => .ok (point io.output, s)
    | "2" => .ok (point io.messages, s)
    | _ => .ok (point .nowhere, s)

/-- Ends a strict shell after a failure. -/
def settle : Flow × Shell → Flow × Shell
  | (.next, s) => (if s.strict && s.status != 0 then .exit else .next, s)
  | other => other

mutual

/-- Runs a condition, whose failure is none of the shell. -/
def judge (fuel : Nat) (p : Program) (io : Sinks) (s : Shell) : Flow × Shell :=
  match fuel with
  | 0 => (.stopped, s)
  | fuel + 1 =>
    let (flow, after) := run fuel p io { s with strict := false }
    (flow, { after with strict := s.strict })
  termination_by structural fuel

/-- Runs a program. -/
def run (fuel : Nat) (p : Program) (io : Sinks) (s : Shell) : Flow × Shell :=
  match fuel with
  | 0 => (.stopped, s)
  | fuel + 1 =>
    match p with
    | .nothing => (.next, s)
    | .run c => settle (runCommand fuel c io s)
    | .pipe left right =>
      let (bytes, flow, after) := capture fuel left io s
      if flow = .next then
        let (flow, after) := apart fuel right io { after with input := bytes, clock := s.clock }
        settle (flow, { after with input := s.input, clock := max after.clock s.clock })
      else (flow, after)
    | .negation p =>
      match judge fuel p io s with
      | (.next, s) => (.next, { s with status := if s.status = 0 then 1 else 0 })
      | other => other
    | .both left right =>
      match judge fuel left io s with
      | (.next, s) => if s.status = 0 then run fuel right io s else (.next, s)
      | other => other
    | .either left right =>
      match judge fuel left io s with
      | (.next, s) => if s.status = 0 then (.next, s) else run fuel right io s
      | other => other
    | .sequence left right =>
      match run fuel left io s with
      | (.next, s) => run fuel right io s
      | other => other
    | .background p =>
      (.next, { s with
        status := 0
        jobs := s.jobs ++ [⟨p, io, s.clock, s.bindings, s.arguments⟩] })
    | .group p isApart rs =>
      match redirectAll fuel rs io s with
      | (none, s) => (.next, { s with status := 2 })
      | (some inner, after) =>
        let (flow, after) :=
          if isApart then apart fuel p inner after else run fuel p inner after
        settle (flow, { after with input := if rs.isEmpty then after.input else s.input })
    | .branch condition yes no =>
      match judge fuel condition io s with
      | (.next, s) =>
        if s.status = 0 then run fuel yes io s else run fuel no io { s with status := 0 }
      | other => other
  termination_by structural fuel

/-- Runs a program whose variables are its own. -/
def apart (fuel : Nat) (p : Program) (io : Sinks) (s : Shell) : Flow × Shell :=
  match fuel with
  | 0 => (.stopped, s)
  | fuel + 1 =>
    let (flow, after) := run fuel p io s
    (if flow = .exit then .next else flow,
      { after with bindings := s.bindings, arguments := s.arguments })
  termination_by structural fuel

/-- Runs a program and takes what it prints, up to the end of all that it put in the background. -/
def capture (fuel : Nat) (p : Program) (io : Sinks) (s : Shell) : Bytes × Flow × Shell :=
  match fuel with
  | 0 => ([], .stopped, s)
  | fuel + 1 =>
    let (flow, after) := apart fuel p { io with output := .capture }
      { s with printed := [], jobs := [] }
    let after := if flow = .next then runJobs fuel after else after
    (after.output, flow, { after with printed := s.printed, jobs := s.jobs })
  termination_by structural fuel

/-- Runs everything in the background; the clock moves to the end of the last. -/
def runJobs (fuel : Nat) (s : Shell) : Shell :=
  match fuel with
  | 0 => s
  | fuel + 1 =>
    match s.jobs with
    | [] => s
    | job :: rest =>
      let (_, after) := apart fuel job.program job.sinks { s with
        jobs := rest
        clock := job.start
        bindings := job.bindings
        arguments := job.arguments
        input := [] }
      runJobs fuel { after with
        clock := max s.clock after.clock
        bindings := s.bindings
        arguments := s.arguments
        input := s.input
        status := s.status }
  termination_by structural fuel

/-- The parts of a word. -/
def expand (fuel : Nat) (w : Word) (s : Shell) : List Part × Shell :=
  match fuel with
  | 0 => ([], s)
  | fuel + 1 =>
    match w with
    | [] => ([], s)
    | piece :: rest =>
      let (first, s) : List Part × Shell := match piece with
        | .text t quoted => ([.text t quoted], s)
        | .parameter name quoted => (s.parameterParts name quoted, s)
        | .output script quoted =>
          match Program.ofText? script with
          | none => ([], { s with status := 2 })
          | some p =>
            let (bytes, _, s) := capture fuel p {} s
            let text := withoutNewlines (Text.decodeUtf8Lossy bytes)
            (if quoted then [.text text true] else partsOf text, s)
      let (more, s) := expand fuel rest s
      (first ++ more, s)
  termination_by structural fuel

/-- The fields of words. -/
def expandAll (fuel : Nat) (ws : List Word) (s : Shell) : List String × Shell :=
  match fuel with
  | 0 => ([], s)
  | fuel + 1 =>
    match ws with
    | [] => ([], s)
    | w :: rest =>
      let (parts, s) := expand fuel w s
      let (more, s) := expandAll fuel rest s
      (fieldsOf parts ++ more, s)
  termination_by structural fuel

/-- Makes redirections in turn; none if one of them fails. -/
def redirectAll (fuel : Nat) (rs : List Redirection) (io : Sinks) (s : Shell) :
    Option Sinks × Shell :=
  match fuel with
  | 0 => (none, s)
  | fuel + 1 =>
    match rs with
    | [] => (some io, s)
    | r :: rest =>
      let (parts, s) := expand fuel r.target s
      match s.redirect io r (joined parts) with
      | .ok (io, s) => redirectAll fuel rest io s
      | .error message => (none, s.complain io message)
  termination_by structural fuel

def assignAll (fuel : Nat) (assignments : List (String × Word)) (s : Shell) : Shell :=
  match fuel with
  | 0 => s
  | fuel + 1 =>
    match assignments with
    | [] => s
    | (name, w) :: rest =>
      let (parts, s) := expand fuel w s
      assignAll fuel rest (s.assign name (joined parts))
  termination_by structural fuel

/-- Runs a simple command. Its redirections hold for it alone, and so do its assignments unless
it has no words. -/
def runCommand (fuel : Nat) (c : SimpleCommand) (io : Sinks) (s : Shell) : Flow × Shell :=
  match fuel with
  | 0 => (.stopped, s)
  | fuel + 1 =>
    let (fields, s) := expandAll fuel c.words s
    let s := if fields.isEmpty then { s with status := 0 } else s
    let outer := s.input
    match redirectAll fuel c.redirections io s with
    | (none, s) => (.next, { s with status := 2, input := outer })
    | (some io, s) =>
      let assigned := assignAll fuel c.assignments s
      match fields with
      | [] => (.next, { assigned with input := outer })
      | program :: args =>
        let (flow, after) := execute fuel program args io assigned
        let after := if c.assignments.isEmpty then after
          else { after with bindings := s.bindings }
        (flow, { after with input := if c.redirections.isEmpty then after.input else outer })
  termination_by structural fuel

/-- Runs a command that the shell knows itself, or starts a program. -/
def execute (fuel : Nat) (program : String) (args : List String) (io : Sinks) (s : Shell) :
    Flow × Shell :=
  match fuel with
  | 0 => (.stopped, s)
  | fuel + 1 =>
    let next (status : Nat) : Flow × Shell := (.next, { s with status })
    match program with
    | ":" | "export" | "trap" => next 0
    | "set" =>
      let strict := if args.head? == some "-e" then true
        else if args.head? == some "+e" then false else s.strict
      (.next, { s with status := 0, strict })
    | "unset" =>
      let bindings := s.bindings.filter fun b => !args.contains b.1
      (.next, { s with status := 0, bindings })
    | "echo" => s.finishTool io (Tool.echoEscaped s.files args)
    | "true" | "false" | "printf" | "test" =>
      match Tool.run? program args [] s.files with
      | some r => s.finishTool io r
      | none => next 127
    | "[" =>
      if args.getLast? == some "]" then s.finishTool io (Tool.test s.files args.dropLast)
      else next 2
    | "pwd" => s.finishTool io (Tool.printing s.files (Tool.line workDirectory))
    | "shift" => (.next, { s with arguments := s.arguments.tail, status := 0 })
    | "read" => (.next, s.readLine args)
    | "kill" => s.kill args
    | "wait" => (.next, runJobs fuel { s with status := 0 })
    | "exit" =>
      match args with
      | [] => (.exit, s)
      | n :: _ =>
        match n.toNat? with
        | some n => (.exit, { s with status := n % 256 })
        | none => (.exit, { s with status := 2 })
    | "exec" =>
      match args with
      | [] => next 0
      | program :: args =>
        match start fuel program args io s with
        | (.next, s) => (.exit, s)
        | other => other
    | program =>
      match start fuel program args io s with
      | (.killed signal, after) => (.next, { after with status := 128 + signal })
      | (.exit, after) => (.next, after)
      | other => other
  termination_by structural fuel

/-- Starts a program and waits for its end. A program that is not there has the status 127, one that
may not be executed 126. A file of an unknown format is run as a script. -/
def start (fuel : Nat) (program : String) (args : List String) (io : Sinks) (s : Shell) :
    Flow × Shell :=
  match fuel with
  | 0 => (.stopped, s)
  | fuel + 1 =>
    match Executable.find s.files s.directories program args with
    | .ok i => invoke fuel i io s
    | .error e =>
      if e == Executable.unknownFormat then invoke fuel ⟨"sh", program :: args⟩ io s
      else if e == .permissionDenied then
        (.next, { s.complain io (program ++ ": Permission denied") with status := 126 })
      else (.next, { s.complain io (program ++ ": not found") with status := 127 })
  termination_by structural fuel

/-- Runs a common tool; its process has been started for it. -/
def invoke (fuel : Nat) (i : Invocation) (io : Sinks) (s : Shell) : Flow × Shell :=
  match fuel with
  | 0 => (.stopped, s)
  | fuel + 1 =>
    match s.elapse startTime with
    | (false, s) => (.stopped, s)
    | (true, s) =>
      match i.tool with
      | "sh" => runShell fuel i.arguments io s
      | "pwd" => s.finishTool io (Tool.printing s.files (Tool.line workDirectory))
      | tool =>
        match Tool.run? tool i.arguments s.input s.files with
        | some r => s.finishTool io r
        | none => (.next, { s with status := 127 })
  termination_by structural fuel

/-- Runs another shell: a script among its arguments, in a file, or on its input. -/
def runShell (fuel : Nat) (args : List String) (io : Sinks) (s : Shell) : Flow × Shell :=
  match fuel with
  | 0 => (.stopped, s)
  | fuel + 1 =>
    let strict := args.head? == some "-e"
    let args := if strict then args.tail else args
    let within (name : String) (arguments : List String) (script : Bytes) : Flow × Shell :=
      match Program.ofText? (Text.decodeUtf8Lossy script) with
      | none => (.next, { s with status := 2 })
      | some p =>
        let (flow, after) := run fuel p io
          { s with name, arguments, strict, bindings := [], status := 0, number := s.number + 1 }
        (if flow = .exit then .next else flow, { after with
          name := s.name
          strict := s.strict
          arguments := s.arguments
          bindings := s.bindings
          number := s.number })
    match args with
    | "-c" :: script :: name :: arguments => within name arguments (Text.encodeUtf8 script)
    | ["-c", script] => within "sh" [] (Text.encodeUtf8 script)
    | ["-c"] => (.next, { s with status := 2 })
    | [] => within "sh" [] s.input
    | path :: arguments =>
      match s.files.read path with
      | .ok bytes => within path arguments bytes
      | .error _ => (.next, { s with status := 2 })
  termination_by structural fuel

end

end Shell

end DeviceUpdate.Simulation
