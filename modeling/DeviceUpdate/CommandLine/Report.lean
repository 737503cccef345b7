import DeviceUpdate.CommandLine.Usage
import DeviceUpdate.Error
import DeviceUpdate.Json.Printer
import DeviceUpdate.Wire

/-!
# Reports

What the tool prints about a task that was done and about one that failed: lines for people, or a
JSON document. Failures for people go to the second output; documents always go to the first.
-/

namespace DeviceUpdate.CommandLine

/-- What a run of the tool leaves. -/
structure Outcome where
  code : Nat := 0
  stdout : String := ""
  stderr : String := ""
  deriving DecidableEq, Repr

/-- Why a task fails. -/
inductive Failure where
  | configuration (path : String) (cause : UpdateError)
  | invalidVersion (version : String)
  | layoutUnknown
  | assembling (manifest : String) (cause : UpdateError)
  /-- the package that was assembled cannot be looked at -/
  | reading (package : String) (cause : FileError)
  | installing (package : String) (cause : UpdateError)
  deriving DecidableEq, Repr

namespace Failure

/-- The exit status for each kind of error. -/
def categoryCode : ErrorCategory → Nat
  | .validation => 4
  | .file => 3
  | .fragment => 5
  | .integrity => 6
  | .resource => 7
  | .install => 8
  | .classifierUnknown => 9
  | .protocolTimeout | .process => 10
  | .state => 1

def code : Failure → Nat
  | .configuration _ _ => 2
  | .invalidVersion _ => 4
  | .layoutUnknown => 9
  | .assembling _ e | .installing _ e => categoryCode e.category
  | .reading _ _ => 1

def message : Failure → String
  | .configuration path _ => s!"loading configuration from '{path}'"
  | .invalidVersion version => s!"Invalid firmware version '{version}'"
  | .layoutUnknown => "Boot system type could not be determined"
  | .assembling manifest _ => s!"assembling package from '{manifest}'"
  | .reading package _ => s!"reading '{package}'"
  | .installing package _ => s!"installing '{package}'"

/-- An error with what caused it; a file error has the system's own words as its cause. -/
def chain : UpdateError → List String
  | .file path cause => [(UpdateError.file path cause).message, cause.message]
  | e => [e.message]

/-- What the failure comes from, nearest first. -/
def causes : Failure → List String
  | .configuration _ e => ["Invalid configuration: " ++ e.message]
  | .assembling _ e | .installing _ e => chain e
  | .reading _ e => [e.message]
  | _ => []

def lines (f : Failure) : String :=
  "Error: " ++ f.message ++ "\n" ++
    String.join (f.causes.map fun cause => "  Caused by: " ++ cause ++ "\n")

def document (f : Failure) : Json :=
  .ofMembers [
    ("success", .bool false),
    ("error", .ofMembers [
      ("message", .ofString f.message),
      ("causes", .array (f.causes.map .ofString))])]

end Failure

/-- What a task that was done tells. -/
inductive Report where
  | assembled (package : PathName) (size : Nat)
  | installed (package : PathName) (target : Target) (layout : BootLayout)
  | bootLayout (layout : BootLayout)
  | targets (table : List TargetDescriptor)
  deriving DecidableEq, Repr

namespace Report

/-- What the operator does to apply an installed package. -/
def nextStep : BootLayout → String
  | .single => "reboot into recovery to apply"
  | _ => "reboot to start the updated system"

def targetLine (d : TargetDescriptor) : String :=
  let chunk := if d.chunkSize = 0 then "default" else toString d.chunkSize
  s!"  {d.number} " ++ padded 16 d.description ++
    s!" version {d.version.text}  chunk {chunk}  files {d.filespec}\n"

def lines : Report → String
  | .assembled package size => s!"Assembled {package.text} ({size} bytes)\n"
  | .installed package _ layout =>
    s!"Installed {package.text} ({layout.text} boot), {nextStep layout}\n"
  | .bootLayout layout => "Boot system: " ++ layout.text ++ "\n"
  | .targets table => "Firmware targets:\n" ++ String.join (table.map targetLine)

def members : Report → List (String × Json)
  | .assembled package size => [("package", .ofString package.text), ("size", .ofNat size)]
  | .installed package target layout => [
      ("package", .ofString package.text),
      ("target", .ofNat target.number),
      ("boot_type", Wire.bootLayout.encode layout),
      ("next_step", .ofString (nextStep layout))]
  | .bootLayout layout => [("boot_type", Wire.bootLayout.encode layout)]
  | .targets table => [("targets", .array (table.map Wire.targetDescriptor.encode))]

def document (r : Report) : Json := .ofMembers (("success", .bool true) :: r.members)

/-- Whether there is a document for the report: a path that is not text has no place in it. -/
def hasDocument : Report → Bool
  | .assembled package _ | .installed package _ _ => package.isText
  | .bootLayout _ | .targets _ => true

end Report

namespace Outcome

/-- The tool aborts where it stands, by a signal. -/
def abort (o : Outcome) : Outcome :=
  { o with code := 134, stderr := o.stderr ++ "path contains invalid UTF-8 characters\n" }

/-- Prints a report. Without a document for it, asking for one ends the tool. -/
def tell (json : Bool) (r : Report) (o : Outcome) : Outcome :=
  if !json then { o with stdout := o.stdout ++ r.lines }
  else if r.hasDocument then { o with stdout := o.stdout ++ r.document.document ++ "\n" }
  else o.abort

/-- Prints a failure and takes its exit status. -/
def fail (json : Bool) (f : Failure) (o : Outcome) : Outcome :=
  if json then { o with code := f.code, stdout := o.stdout ++ f.document.document ++ "\n" }
  else { o with code := f.code, stderr := o.stderr ++ f.lines }

/-- Prints what a task came to. -/
def ofResult (json : Bool) : Except Failure Report → Outcome
  | .ok r => ({} : Outcome).tell json r
  | .error f => ({} : Outcome).fail json f

end Outcome

end DeviceUpdate.CommandLine
