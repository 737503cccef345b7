import DeviceUpdate.Archive.Zip
import DeviceUpdate.Simulation.Executable
import DeviceUpdate.Simulation.Tool

/-!
# A small machine

Files to work on: some devices, a directory of common tools, and an empty working directory.
Archives are zip files.
-/

namespace DeviceUpdate.Simulation

scoped instance : Archive.Reader := Archive.zip

/-- Bytes that are free on the machine. -/
def machineSpace : Nat := 64 * 1024 * 1024 * 1024

/-- The directory that work starts in. -/
def workDirectory : String := "/tmp/work"

/-- The tools that every machine has. -/
def commonTools : List String :=
  ["sh", "echo", "printf", "true", "false", "cat", "head", "tr", "wc", "sleep", "test", "rm", "pwd"]

/-- The directories that programs are looked for in. -/
def programDirectories : List String := ["/usr/bin", "/bin"]

/-- The machine before anything happened on it. -/
def machine : FileSystem :=
  let fs := ["/dev", "/proc", "/bin", "/usr/bin", workDirectory].foldl
    FileSystem.makeDirectories (FileSystem.empty machineSpace)
  let fs := fs.addAt "/dev/null" fun _ => .device .null
  let fs := fs.addAt "/dev/full" fun _ => .device .full
  let fs := fs.addAt Tool.zeros fun _ => .device .null
  let fs := commonTools.foldl (fun fs name =>
    fs.plant ("/bin/" ++ name) (.file (Executable.content name) true)) fs
  match fs.find workDirectory with
  | .ok i => { fs with current := i }
  | .error _ => fs

end DeviceUpdate.Simulation
