import DeviceUpdate.Version

/-!
# Firmware targets

What can be updated: the system package, and the manifest of a package that comes in fragments.
Each target has a number by which the connector names it.
-/

namespace DeviceUpdate

inductive Target where
  /-- a complete package -/
  | system
  /-- a manifest that names the fragments of a package -/
  | manifest
  deriving DecidableEq, Repr

/-- Bytes in one chunk of a streamed image. -/
def streamChunkSize : Nat := 128 * 1024

namespace Target

/-- All targets in the order of their numbers. -/
def all : List Target := [.system, .manifest]

def number : Target → Nat
  | .system => 0
  | .manifest => 1

def ofNumber? : Nat → Option Target
  | 0 => some .system
  | 1 => some .manifest
  | _ => none

def description : Target → String
  | .system => "System"
  | .manifest => "Update manifest"

/-- The file names that the target takes, as a regular expression. -/
def filespec : Target → String
  | .system => ".*\\.[sS][wW][uU]"
  | .manifest => "[mM][aA][nN][iI][fF][eE][sS][tT]\\.[tT][xX][tT]"

/-- Bytes in one chunk of a download; 0 leaves it to the connector. -/
def chunkSize : Target → Nat
  | .system => streamChunkSize
  | .manifest => 0

def text (t : Target) : String := s!"{t.number} ({t.description})"

theorem ofNumber?_number (t : Target) : ofNumber? t.number = some t := by cases t <;> rfl

theorem number_of_ofNumber? {n : Nat} {t : Target} (h : ofNumber? n = some t) : t.number = n := by
  unfold ofNumber? at h
  split at h <;> simp_all [number] <;> subst h <;> rfl

end Target

/-- What the connector registers for one target. -/
structure TargetDescriptor where
  target : Target
  number : Nat
  description : String
  filespec : String
  chunkSize : Nat
  /-- largest size that is taken; 0 for no limit -/
  maximumSize : Nat
  version : Version
  deriving DecidableEq, Repr

def Target.descriptor (t : Target) (version : Version) : TargetDescriptor :=
  ⟨t, t.number, t.description, t.filespec, t.chunkSize, 0, version⟩

/-- The table of all targets, unless the version text holds no version. -/
def firmwareTargets (version : String) : Option (List TargetDescriptor) :=
  (Version.ofText? version).map fun v => Target.all.map (·.descriptor v)

end DeviceUpdate
