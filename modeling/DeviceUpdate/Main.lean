import DeviceUpdate.CommandLine.Run
import DeviceUpdate.Simulation.Device

/-!
# The command line tool

The tool works on a copy of the files below the current directory and writes back what changed
when it is done. Programs are looked for in `bin` there, and among the common tools.
-/

namespace DeviceUpdate.CommandLine

/-- Levels of directories that are looked into. -/
def treeDepth : Nat := 64

/-- Copies entries of a real directory to the directory at `base`. What a link leads to is copied
in its place. -/
def copyEntries : (depth : Nat) → (base : String) → Array IO.FS.DirEntry → FileSystem →
    IO FileSystem
  | 0, _, _, fs => return fs
  | depth + 1, base, entries, fs =>
    entries.foldlM (fun fs entry => do
      let path := Path.join base entry.fileName
      match (← entry.path.metadata).type with
      | .dir =>
        copyEntries depth path (← entry.path.readDir) (fs.plant path .directory)
      | .file =>
        let content := (← IO.FS.readBinFile entry.path).toList
        let executable := (Simulation.Executable.interpreter? content).isSome
        return fs.plant path (.file content executable)
      | _ => return fs) fs

/-- Writes what is new or changed, and removes what is gone. -/
def writeBack (before after : FileSystem) : IO Unit := do
  for entry in after.listing do
    match entry with
    | .directory path => if !before.isDirectory path then IO.FS.createDirAll path
    | .file path _ _ =>
      let content := (after.read path).toOption.getD []
      if (before.read path).toOption != some content then
        IO.FS.writeBinFile path ⟨content.toArray⟩
    | _ => pure ()
  for entry in before.listing do
    match entry with
    | .file path _ _ => if !after.exists? path then IO.FS.removeFile path
    | _ => pure ()

end DeviceUpdate.CommandLine

open DeviceUpdate DeviceUpdate.CommandLine DeviceUpdate.Simulation in
/-- Runs the tool. -/
def main (args : List String) : IO UInt32 := do
  let here ← IO.currentDir
  let before ← copyEntries treeDepth "" (← here.readDir) machine
  let request := Request.ofArguments (← IO.getEnv "FWAGENT_CONFIG") args
  let (outcome, after) := request.outcome (deviceAnswer ("bin" :: programDirectories)) before
  writeBack before after
  IO.print outcome.stdout
  IO.eprint outcome.stderr
  return outcome.code.toUInt32
