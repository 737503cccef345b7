import DeviceUpdate.Assembly
import DeviceUpdate.CommandLine.Report
import DeviceUpdate.Config
import DeviceUpdate.Install

/-!
# Running a command line

Each task is a procedure: it asks the device, and ends in what the tool prints and its exit status.
-/

namespace DeviceUpdate.CommandLine

/-- Assembles the package that a manifest describes. -/
def assembly [Archive.Reader] (manifest directory : String) :
    Procedure (Except Failure String) := do
  let result ← Procedure.operate fun fs => Assembly.assembleFromManifest fs manifest directory
  return result.mapError (.assembling manifest)

/-- Puts a package together and tells its size. -/
def assembleTask [Archive.Reader] (config : Config) (manifest : String)
    (directory : Option PathName) : Procedure (Except Failure Report) := do
  let directory : PathName := directory.getD config.downloadDirectory
  match ← assembly manifest directory.text with
  | .error f => return .error f
  | .ok package =>
    match ← Procedure.look fun fs => fs.size package with
    | .error e => return .error (.reading package e)
    | .ok size => return .ok (.assembled { directory with text := package } size)

/-- The package that is installed for a target: a manifest's is assembled first. -/
def packageFor [Archive.Reader] (config : Config) (file : PathName) :
    Target → Procedure (Except Failure PathName)
  | .system => return .ok file
  | .manifest => do
    let package ← assembly file.text config.downloadDirectory
    return package.map fun text => { text }

/-- Installs a package. Nothing is done on a device whose boot layout is unknown. -/
def installTask [Archive.Reader] (config : Config) (file : PathName) (target : Target) :
    Procedure (Except Failure Report) := do
  let layout ← Procedure.bootLayout
  if layout = .unknown then return .error .layoutUnknown
  else
    match ← packageFor config file target with
    | .error f => return .error f
    | .ok package =>
      match ← Install.dispatch (some (.environment config.commandTimeout)) package.text with
      | .error e => return .error (.installing package.text e)
      | .ok layout => return .ok (.installed package target layout)

/-- Tells the boot layout. An unknown one is told too, and is a failure then. -/
def bootLayoutTask (json : Bool) : Procedure Outcome := do
  let layout ← Procedure.bootLayout
  let told := ({} : Outcome).tell json (.bootLayout layout)
  return if layout = .unknown then told.fail json .layoutUnknown else told

/-- Tells the table of targets. -/
def targetsTask (config : Config) (version : Option String) : Except Failure Report :=
  let version := version.getD config.firmwareVersion
  match firmwareTargets version with
  | some table => .ok (.targets table)
  | none => .error (.invalidVersion version)

def Task.outcome [Archive.Reader] (config : Config) (json : Bool) : Task → Procedure Outcome
  | .assemble manifest directory => do
    return .ofResult json (← assembleTask config manifest directory)
  | .install package target => do return .ofResult json (← installTask config package target)
  | .bootLayout => bootLayoutTask json
  | .targets version => return .ofResult json (targetsTask config version)

/-- The settings that a task works with. -/
def settings (fs : FileSystem) : Option String → Except Failure Config
  | none => .ok {}
  | some path => (Config.load fs path).mapError (.configuration path)

/-- Runs what a command line asks for, with `device` to answer each effect. -/
def Request.outcome [Archive.Reader] (device : Effect → FileSystem → Answer × FileSystem)
    (fs : FileSystem) : Request → Outcome × FileSystem
  | .help task => ({ stdout := Usage.help task }, fs)
  | .version => ({ stdout := Usage.version }, fs)
  | .misuse => ({ code := 2, stderr := Usage.misuse }, fs)
  | .run arguments =>
    match settings fs arguments.config with
    | .error f => (({} : Outcome).fail arguments.json f, fs)
    | .ok config =>
      let shared : Shared := ⟨fs, { timeout := config.commandTimeout }⟩
      let (outcome, _, shared) := (arguments.task.outcome config arguments.json).eval
        (fun e (_, fs) => let (answer, fs) := device e fs; (answer, (), fs)) ((), shared)
      (outcome, shared.files)

end DeviceUpdate.CommandLine
