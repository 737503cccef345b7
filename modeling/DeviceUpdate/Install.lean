import DeviceUpdate.Procedure
import DeviceUpdate.Target

/-!
# Installing packages

With two system partitions an installer tool writes the package into the inactive one. With one,
the package is noted down for the recovery system, which installs it on the next boot.
-/

namespace DeviceUpdate

/-- How a package is noted down for the recovery system. -/
inductive RecoveryWriter where
  /-- in the bootloader's environment -/
  | environment (timeout : Duration)
  /-- by a part of its own -/
  | external
  deriving DecidableEq, Repr

namespace RecoveryWriter

/-- Sets a variable of the bootloader's environment, or deletes it if there is no value. -/
def setVariable (timeout : Duration) (arguments : List String) :
    Procedure (Except UpdateError Unit) := do
  let result ← Procedure.runExpecting ⟨"fw_setenv", arguments, some timeout⟩
  return result.map fun _ => ()

/-- Notes a package down. The command comes before the flag that makes the recovery system look at
it, so the flag never stands alone. -/
def write (package : String) : RecoveryWriter → Procedure (Except UpdateError Unit)
  | .environment timeout =>
    (setVariable timeout ["recovery_command", "--update_package=" ++ package]).andThen fun _ =>
      setVariable timeout ["boot_recovery", "yes"]
  | .external => do
    let answer ← Procedure.ask (.writeRecovery package)
    return answer.map fun _ => ()

/-- Takes the note back, the flag first. -/
def clear : RecoveryWriter → Procedure (Except UpdateError Unit)
  | .environment timeout =>
    (setVariable timeout ["boot_recovery"]).andThen fun _ =>
      setVariable timeout ["recovery_command"]
  | .external => do
    let answer ← Procedure.ask .clearRecovery
    return answer.map fun _ => ()

end RecoveryWriter

namespace Install

/-- What the installer tool prints when it fails; its exit status tells nothing. -/
def failureMarker : String := "There was an error performing the update"

/-- Whether a line of the output holds the marker. -/
def reportsFailure (o : CommandOutput) : Bool :=
  o.lines.any (Text.contains failureMarker.toList)

def installer (package : String) : Command :=
  ⟨"update-firmware", ["--no-reboot", package], none⟩

/-- Installs into the inactive partition. -/
def intoPartition (package : String) : Procedure (Except UpdateError Unit) := do
  match ← Procedure.run (installer package) with
  | .error e => return .error (.installFailed e.message)
  | .ok output =>
    if reportsFailure output then
      return .error (.installFailed s!"installer reported an error for '{package}'")
    else return .ok ()

/-- Hands the package to the recovery system. -/
def throughRecovery (recovery : Option RecoveryWriter) (package : String) :
    Procedure (Except UpdateError Unit) :=
  match recovery with
  | none => return .error (.installFailed "single-boot device without recovery support")
  | some writer => do
    match ← writer.write package with
    | .ok _ => return .ok ()
    | .error e => return .error (.installFailed e.message)

/-- Installs a package in the way of the boot layout, which is the answer. -/
def dispatch (recovery : Option RecoveryWriter) (package : String) :
    Procedure (Except UpdateError BootLayout) := do
  match ← Procedure.bootLayout with
  | .dual =>
    let result ← intoPartition package
    return result.map fun _ => .dual
  | .single =>
    let result ← throughRecovery recovery package
    return result.map fun _ => .single
  | .unknown => return .error .bootLayoutUnknown

/-- Takes back the note of an install that was given up. -/
def withdraw (recovery : Option RecoveryWriter) : Procedure (Except UpdateError Unit) :=
  match recovery with
  | some writer => writer.clear
  | none => return .ok ()

end Install

end DeviceUpdate
