import DeviceUpdate.Error
import DeviceUpdate.FileSystem.Operations

/-!
# Free space

Space reserved for the administrator counts as free.
-/

namespace DeviceUpdate.Space

/-- Free bytes on the file system that holds `path`; 0 if it cannot be asked. -/
def available (fs : FileSystem) (path : String) : Nat := (fs.available? path).getD 0

/-- The free bytes on the file system that holds `path`, if `needed` bytes fit. -/
def ensure (fs : FileSystem) (path : String) (needed : Nat) : Except UpdateError Nat :=
  match fs.available? path with
  | none => .error (.spaceUnavailable path)
  | some free =>
    if free < needed then .error (.insufficientSpace path needed free) else .ok free

end DeviceUpdate.Space
