import DeviceUpdate.Target

/-!
# Arguments

A command line is switches of the program, the name of a task, and switches and operands of the
task. Some switches are known at both places; the later place wins. A value is looked at when the
next switch comes or the arguments end, so help that is asked for within a task comes before a
fault of a value in front of it. Command lines are read as far as they are text; a path that a task
is given may be something else.
-/

namespace DeviceUpdate.CommandLine

/-- A path as the system has it, which need not be text. -/
structure PathName where
  /-- the path, or what stands for it if it is not text -/
  text : String
  isText : Bool := true
  deriving DecidableEq, Repr

/-- A text names the path that it is. -/
instance : Coe String PathName := ⟨fun text => { text }⟩

/-- What the tool is asked to do. -/
inductive Task where
  /-- puts a package together from its fragments -/
  | assemble (manifest : String) (directory : Option PathName)
  | install (package : PathName) (target : Target)
  | bootLayout
  | targets (version : Option String)
  deriving DecidableEq, Repr

structure Arguments where
  config : Option String
  json : Bool
  task : Task
  deriving DecidableEq, Repr

inductive TaskName where
  | assemble
  | install
  | bootLayout
  | targets
  deriving DecidableEq, Repr

/-- What a command line comes to. -/
inductive Request where
  | run (arguments : Arguments)
  /-- help for the program, or for one of its tasks -/
  | help (task : Option TaskName)
  | version
  | misuse
  deriving DecidableEq, Repr

def TaskName.all : List TaskName := [.assemble, .install, .bootLayout, .targets]

def TaskName.text : TaskName → String
  | .assemble => "assemble"
  | .install => "install"
  | .bootLayout => "boot-type"
  | .targets => "targets"

def TaskName.ofText? (s : String) : Option TaskName := TaskName.all.find? (·.text == s)

/-- The switches, and the operand of an install. -/
inductive Switch where
  | config
  | json
  | verbose
  | help
  | version
  | manifest
  | directory
  | target
  | firmwareVersion
  | package
  deriving DecidableEq, Repr

namespace Switch

def short? : Switch → Option Char
  | .config => some 'c'
  | .verbose => some 'v'
  | .help => some 'h'
  | .version => some 'V'
  | .manifest => some 'm'
  | .directory => some 'd'
  | .target => some 't'
  | _ => none

def long? : Switch → Option String
  | .config => some "config"
  | .json => some "json"
  | .verbose => some "verbose"
  | .help => some "help"
  | .version => some "version"
  | .manifest => some "manifest"
  | .directory => some "download-dir"
  | .target => some "target"
  | .firmwareVersion => some "firmware-version"
  | .package => none

def takesValue : Switch → Bool
  | .json | .verbose | .help | .version => false
  | _ => true

/-- The targets by the names that arguments have for them. -/
def targetOf? : String → Option Target
  | "system" => some .system
  | "manifest" => some .manifest
  | _ => none

/-- Whether a value can be used. A path must not be empty. -/
def accepts (s : Switch) (value : String) : Bool :=
  match s with
  | .target => (targetOf? value).isSome
  | .firmwareVersion => true
  | _ => !value.isEmpty

end Switch

/-- Why reading ends before the arguments do. -/
inductive Stop where
  | misuse
  | help
  | version
  deriving DecidableEq, Repr

/-- What arguments say so far. -/
structure Given where
  values : List (Switch × String) := []
  flags : List Switch := []
  /-- the switch that was read last, and its value, not looked at yet -/
  pending : Option (Switch × Option String) := none

namespace Given

/-- Looks at what is pending: it must have a value that can be used, and must be the first of its
kind. -/
def resolve (g : Given) : Except Stop Given :=
  match g.pending with
  | none => .ok g
  | some (_, none) => .error .misuse
  | some (s, some value) =>
    if s.accepts value && (g.values.lookup s).isNone then
      .ok { g with values := (s, value) :: g.values, pending := none }
    else .error .misuse

/-- Takes a switch without a value. Only the verbose one may come again. -/
def takeFlag (g : Given) (s : Switch) : Except Stop Given := do
  let g ← g.resolve
  match s with
  | .help => throw .help
  | .version => throw .version
  | s =>
    if g.flags.contains s && s != .verbose then throw .misuse
    else return { g with flags := s :: g.flags }

/-- Takes a switch whose value stands in the same argument. -/
def takeAttached (g : Given) (s : Switch) (value : String) : Except Stop Given := do
  let g ← g.resolve
  { g with pending := some (s, some value) }.resolve

/-- Takes a switch whose value is the next argument. -/
def takeAwaiting (g : Given) (s : Switch) : Except Stop Given := do
  let g ← g.resolve
  return { g with pending := some (s, none) }

/-- The switch whose value comes next. -/
def awaiting? (g : Given) : Option Switch :=
  match g.pending with
  | some (s, none) => some s
  | _ => none

/-- Takes an operand, where one may stand and none has. -/
def takeOperand (g : Given) (known : List Switch) (value : String) : Except Stop Given :=
  let taken := (g.values.lookup .package).isSome ||
    (g.pending.map (·.1) == some .package)
  if taken || !known.contains .package then .error .misuse
  else do
    let g ← g.resolve
    return { g with pending := some (.package, some value) }

/-- Takes an argument of short switches, up to one with a value. -/
def takeShort (known : List Switch) (g : Given) : List Char → Except Stop Given
  | [] => .ok g
  | c :: rest =>
    match known.find? fun s => s.short? == some c with
    | none => .error .misuse
    | some s =>
      if !s.takesValue then do takeShort known (← g.takeFlag s) rest
      else
        match rest with
        | [] => g.takeAwaiting s
        | '=' :: value => g.takeAttached s (String.ofList value)
        | value => g.takeAttached s (String.ofList value)

/-- Takes an argument of one long switch. -/
def takeLong (known : List Switch) (g : Given) (name : String) (value : Option String) :
    Except Stop Given :=
  match known.find? fun s => s.long? == some name with
  | none => .error .misuse
  | some s =>
    match s.takesValue, value with
    | true, some value => g.takeAttached s value
    | true, none => g.takeAwaiting s
    | false, some _ => .error .misuse
    | false, none => g.takeFlag s

/-- Takes an argument that is no task's name. -/
def take (known : List Switch) (g : Given) (argument : String) : Except Stop Given :=
  match argument.toList with
  | '-' :: '-' :: cs =>
    match Text.cut? '=' cs with
    | some (name, value) => takeLong known g (String.ofList name) (some (String.ofList value))
    | none => takeLong known g (String.ofList cs) none
  | '-' :: c :: cs => takeShort known g (c :: cs)
  | _ =>
    match g.awaiting? with
    | some s => .ok { g with pending := some (s, some argument) }
    | none => g.takeOperand known argument

/-- Reads arguments. Behind two dashes there are operands only. With `stopAt` a text that it holds
of ends the reading, unless it is a value. -/
def read (known : List Switch) (stopAt : String → Bool) :
    (operandsOnly : Bool) → Given → List String → Except Stop (Given × List String)
  | _, g, [] => .ok (g, [])
  | true, g, a :: rest => do read known stopAt true (← g.takeOperand known a) rest
  | false, g, a :: rest =>
    if g.awaiting?.isNone && stopAt a then .ok (g, a :: rest)
    else if a = "--" then read known stopAt true g rest
    else do read known stopAt false (← g.take known a) rest

end Given

/-- The switches that are known at both places. -/
def commonSwitches : List Switch := [.config, .json, .verbose, .help]

def programSwitches : List Switch := .version :: commonSwitches

def TaskName.switches : TaskName → List Switch
  | .assemble => [.manifest, .directory] ++ commonSwitches
  | .install => [.target, .package] ++ commonSwitches
  | .bootLayout => commonSwitches
  | .targets => .firmwareVersion :: commonSwitches

/-- The task that was asked for, if it has all it needs. -/
def TaskName.task? (name : TaskName) (g : Given) : Option Task :=
  match name with
  | .assemble => do
    let directory := (g.values.lookup .directory).map fun text => { text }
    return .assemble (← g.values.lookup .manifest) directory
  | .install => do
    let target := ((g.values.lookup .target).bind Switch.targetOf?).getD .system
    return .install (← g.values.lookup .package) target
  | .bootLayout => some .bootLayout
  | .targets => some (.targets (g.values.lookup .firmwareVersion))

/-- The configuration file: what the arguments of a place name, or else the environment. -/
def configOf (environment : Option String) (g : Given) : Except Stop (Option String) :=
  match g.values.lookup .config, environment with
  | some path, _ => .ok (some path)
  | none, some path => if path.isEmpty then .error .misuse else .ok (some path)
  | none, none => .ok none

/-- Help on a task, by the names behind the word for help. -/
def helpFor : List String → Request
  | [] | ["help"] => .help none
  | [name] =>
    match TaskName.ofText? name with
    | some task => .help (some task)
    | none => .misuse
  | _ => .misuse

def stopped (task : Option TaskName) : Stop → Request
  | .misuse => .misuse
  | .help => .help task
  | .version => .version

/-- Reads a task's own arguments, behind those of the program. -/
def readTask (environment : Option String) (program : Given) (name : TaskName)
    (args : List String) : Request :=
  let read : Except Stop (Given × Option String) := do
    let (own, _) ← Given.read name.switches (fun _ => false) false {} args
    let own ← own.resolve
    return (own, ← configOf environment own)
  match read with
  | .error stop => stopped (some name) stop
  | .ok (own, ownConfig) =>
    let rest : Except Stop (Given × Option String) := do
      let program ← program.resolve
      return (program, ← configOf environment program)
    match rest, name.task? own with
    | .ok (program, programConfig), some task =>
      let config := if (own.values.lookup .config).isSome then ownConfig else programConfig
      .run ⟨config, own.flags.contains .json || program.flags.contains .json, task⟩
    | _, _ => .misuse

/-- What a command line asks for; `environment` may name a configuration file. -/
def Request.ofArguments (environment : Option String) (args : List String) : Request :=
  let isTask (s : String) : Bool := s == "help" || (TaskName.ofText? s).isSome
  match Given.read programSwitches isTask false {} args with
  | .error stop => stopped none stop
  | .ok (_, []) => .misuse
  | .ok (program, name :: rest) =>
    match TaskName.ofText? name with
    | some task => readTask environment program task rest
    | none => helpFor rest

end DeviceUpdate.CommandLine
