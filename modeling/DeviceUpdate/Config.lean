import DeviceUpdate.Error
import DeviceUpdate.FileSystem.Operations
import DeviceUpdate.Json.Reader
import DeviceUpdate.Text.Duration

/-!
# Configuration

The settings of the update core. They are read from a JSON object, or from an array that holds
the settings in order; what is missing keeps its default.
-/

namespace DeviceUpdate

structure Config where
  /-- the directory for downloads and assembled packages -/
  downloadDirectory : String := "/mnt/update"
  /-- install packages while they arrive -/
  onTheFly : Bool := false
  /-- the version that the targets report -/
  firmwareVersion : String := "0.0.0.0"
  rebootDelaySeconds : Nat := 1
  commandTimeoutSeconds : Nat := 2
  /-- the table of raw flash partitions -/
  flashTable : String := "/proc/mtd"
  mountTable : String := "/proc/mounts"
  deriving DecidableEq, Repr

namespace Config

/-- The largest number of seconds. -/
def secondsLimit : Nat := 18446744073709551615

/-- The keys of the settings, in order. -/
def keys : List String :=
  ["firmware_download_path", "on_the_fly", "firmware_version", "reboot_delay_secs",
    "command_timeout_secs", "mtd_info_path", "mounts_path"]

/-- The settings that a JSON value gives, over those of `base`. -/
def ofJsonOver? (base : Config) (j : Json) : Option Config := do
  match ← j.fields? keys with
  | [directory, fly, version, delay, timeout, flash, mounts] =>
    return {
      downloadDirectory := ← Json.fieldOr Json.asText? base.downloadDirectory directory
      onTheFly := ← Json.fieldOr Json.asBool? base.onTheFly fly
      firmwareVersion := ← Json.fieldOr Json.asText? base.firmwareVersion version
      rebootDelaySeconds := ← Json.fieldOr (Json.asNat? secondsLimit) base.rebootDelaySeconds delay
      commandTimeoutSeconds :=
        ← Json.fieldOr (Json.asNat? secondsLimit) base.commandTimeoutSeconds timeout
      flashTable := ← Json.fieldOr Json.asText? base.flashTable flash
      mountTable := ← Json.fieldOr Json.asText? base.mountTable mounts }
  | _ => none

def ofJson? (j : Json) : Option Config := ofJsonOver? {} j

def toJson (c : Config) : Json :=
  .ofMembers [
    ("firmware_download_path", .ofString c.downloadDirectory),
    ("on_the_fly", .bool c.onTheFly),
    ("firmware_version", .ofString c.firmwareVersion),
    ("reboot_delay_secs", .ofNat c.rebootDelaySeconds),
    ("command_timeout_secs", .ofNat c.commandTimeoutSeconds),
    ("mtd_info_path", .ofString c.flashTable),
    ("mounts_path", .ofString c.mountTable)]

/-- Reads a configuration text. -/
def ofText (text : String) : Except UpdateError Config :=
  match Json.ofText? text with
  | none => .error (.serialization "not a JSON text")
  | some j =>
    match ofJson? j with
    | none => .error (.serialization "not a configuration")
    | some c => .ok c

/-- Reads the configuration file at `path`. -/
def load (fs : FileSystem) (path : String) : Except UpdateError Config :=
  match fs.readText path with
  | .ok text => ofText text
  | .error e => .error (.file path e)

/-- Checks that the core can work with the settings. -/
def validate (fs : FileSystem) (c : Config) : Except UpdateError Unit :=
  if c.downloadDirectory.isEmpty then
    .error (.invalidConfiguration "firmware_download_path cannot be empty")
  else if !fs.isDirectory c.downloadDirectory then
    .error (.invalidConfiguration
      s!"firmware_download_path '{c.downloadDirectory}' is not an existing directory")
  else if c.commandTimeoutSeconds = 0 then
    .error (.invalidConfiguration "command_timeout_secs must be greater than 0")
  else .ok ()

def rebootDelay (c : Config) : Duration := .ofSeconds c.rebootDelaySeconds

def commandTimeout (c : Config) : Duration := .ofSeconds c.commandTimeoutSeconds

end Config

end DeviceUpdate
