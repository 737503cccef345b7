import DeviceUpdate.CommandLine.Arguments

/-!
# Usage

The name of the tool, its version, and what it says of its own use.
-/

namespace DeviceUpdate.CommandLine

def programName : String := "fwagentctl"

def programVersion : String := "0.1.0"

/-- The text with blanks behind it, up to `width` characters. -/
def padded (width : Nat) (s : String) : String :=
  s ++ String.ofList (List.replicate (width - s.length) ' ')

namespace TaskName

/-- What a task does, in a line. -/
def purpose : TaskName → String
  | .assemble => "Assemble a fragmented package described by a manifest"
  | .install => "Install a package without rebooting"
  | .bootLayout => "Print whether the device is single- or dual-boot"
  | .targets => "Print the firmware target table"

/-- The switches and operands of a task, each with what it means. -/
def details : TaskName → List (String × String)
  | .assemble => [
      ("-m, --manifest <MANIFEST>", "Manifest file"),
      ("-d, --download-dir <DOWNLOAD_DIR>", "Directory for the assembled package")]
  | .install => [
      ("<PACKAGE>", "Package, or manifest with --target manifest"),
      ("-t, --target <TARGET>", "Firmware target the file belongs to: system or manifest")]
  | .bootLayout => []
  | .targets => [
      ("--firmware-version <FIRMWARE_VERSION>",
        "Firmware version to report instead of the configured one")]

end TaskName

namespace Usage

/-- The switches that are known everywhere. -/
def commonDetails : List (String × String) := [
  ("-c, --config <CONFIG>", "Agent configuration file (JSON)"),
  ("--json", "Output in JSON format for machine parsing"),
  ("-v, --verbose...", "Verbose logging"),
  ("-h, --help", "Print help")]

/-- Entries with their explanations below each other. -/
def table (entries : List (String × String)) : String :=
  let width := (entries.map (·.1.length)).foldl max 0
  String.join (entries.map fun (entry, meaning) =>
    "  " ++ padded (width + 2) entry ++ meaning ++ "\n")

def help : Option TaskName → String
  | none =>
    "Firmware update tool for the device agent\n\nUsage: " ++ programName ++
      " [OPTIONS] <COMMAND>\n\nCommands:\n" ++
      table (TaskName.all.map fun t => (t.text, t.purpose)) ++ "\nOptions:\n" ++
      table (commonDetails ++ [("-V, --version", "Print version")])
  | some task =>
    task.purpose ++ "\n\nUsage: " ++ programName ++ " " ++ task.text ++
      " [OPTIONS]\n\nOptions:\n" ++ table (task.details ++ commonDetails)

def version : String := programName ++ " " ++ programVersion ++ "\n"

/-- What is said of arguments that cannot be used. -/
def misuse : String :=
  "Usage: " ++ programName ++ " [OPTIONS] <COMMAND>\n\nFor more information, try '--help'.\n"

end Usage

end DeviceUpdate.CommandLine
