import DeviceUpdate.Error
import DeviceUpdate.FileSystem.Operations
import DeviceUpdate.Text.Decimal

/-!
# Manifests

A manifest describes a package that comes in fragments. It is a text of lines `key = value`;
blank lines and lines that start with `#` say nothing, unknown keys are skipped, and of two lines
with one key the later counts. One pair of double quotes around a value is taken off.
-/

namespace DeviceUpdate

structure Manifest where
  /-- bytes in the assembled package -/
  totalSize : Nat
  fragmentCount : Nat
  /-- the name that the files of the package start with -/
  name : String
  /-- CRC-32 of the assembled package -/
  checksum : UInt32
  /-- the directory that holds the fragments -/
  sourceDirectory : String
  deriving DecidableEq, Repr

namespace Manifest

def packageFileName (m : Manifest) : String := m.name ++ ".swu"

def fragmentFileName (m : Manifest) (index : Nat) : String := m.name ++ toString index ++ ".zip"

/-- A property of a manifest text: a key and its value. -/
abbrev Property := List Char × List Char

/-- The value without one pair of double quotes around it. -/
def unquote (value : List Char) : List Char :=
  match value with
  | '"' :: rest => if rest.getLast? = some '"' then rest.dropLast else value
  | _ => value

/-- What one line says: nothing, a property, or no manifest line at all. -/
inductive Line where
  | silent
  | property (p : Property)
  | malformed
  deriving DecidableEq, Repr

def Line.ofText (raw : List Char) : Line :=
  let line := Text.trim raw
  if line.isEmpty || line.head? == some '#' then .silent
  else
    match Text.cut? '=' line with
    | some (key, value) => .property (Text.trim key, unquote (Text.trim value))
    | none => .malformed

/-- The properties of the lines from line number `number` on, in order. -/
def propertiesFrom (number : Nat) : List (List Char) → Except UpdateError (List Property)
  | [] => .ok []
  | raw :: rest =>
    match Line.ofText raw with
    | .silent => propertiesFrom (number + 1) rest
    | .property p => (propertiesFrom (number + 1) rest).map (p :: ·)
    | .malformed => .error (.invalidManifest s!"line {number}: expected 'key = value'")

/-- All properties of a text, in the order of its lines. -/
def properties (text : List Char) : Except UpdateError (List Property) :=
  propertiesFrom 1 (Text.lines text)

/-- The value of the last property with this key. -/
def value? (properties : List Property) (key : String) : Option (List Char) :=
  (properties.reverse.find? fun p => p.1 == key.toList).map (·.2)

def required (properties : List Property) (key : String) : Except UpdateError (List Char) :=
  match value? properties key with
  | some value => .ok value
  | none => .error (.invalidManifest ("missing " ++ key))

def nonEmpty (properties : List Property) (key : String) : Except UpdateError (List Char) :=
  match required properties key with
  | .ok [] => .error (.invalidManifest (key ++ ": cannot be empty"))
  | other => other

/-- A number from 1 to 2^63 - 1. -/
def positive (properties : List Property) (key : String) : Except UpdateError Nat := do
  let value ← required properties key
  match Text.readNumber (-9223372036854775808) 9223372036854775807 value with
  | .error e => .error (.invalidManifest s!"{key} ({String.ofList value}): {e.message}")
  | .ok n =>
    if 0 < n then .ok n.toNat
    else .error (.invalidManifest s!"{key} ({n}): must be greater than 0")

def packageName (properties : List Property) : Except UpdateError String := do
  let name ← nonEmpty properties "name"
  if Path.isPlain name then .ok (String.ofList name)
  else .error (.invalidManifest s!"name ({String.ofList name}): must be a plain file name")

def fragmentsOf (properties : List Property) : Except UpdateError Nat := do
  let n ← positive properties "fragments"
  if n < 4294967296 then .ok n
  else .error (.invalidManifest ("fragments: " ++ Text.NumberError.message .tooLarge))

def checksumOf (properties : List Property) : Except UpdateError UInt32 := do
  let value ← nonEmpty properties "checksum"
  match Text.readNatural 4294967295 value with
  | .ok n => .ok n.toUInt32
  | .error e =>
    .error (.invalidManifest
      s!"checksum ({String.ofList value}): not a decimal CRC32: {e.message}")

def sourceDirectoryOf (fs : FileSystem) (properties : List Property) :
    Except UpdateError String := do
  let value ← nonEmpty properties "src_dir"
  let path := String.ofList value
  if fs.isDirectory path then .ok path
  else .error (.invalidManifest s!"src_dir ({path}): file does not exist or is not readable")

/-- The manifest with these properties. The first property that is missing or wrong in the order
size, fragments, name, checksum, src_dir is reported. -/
def ofProperties (fs : FileSystem) (properties : List Property) : Except UpdateError Manifest := do
  let totalSize ← positive properties "size"
  let fragmentCount ← fragmentsOf properties
  let name ← packageName properties
  let checksum ← checksumOf properties
  let sourceDirectory ← sourceDirectoryOf fs properties
  return { totalSize, fragmentCount, name, checksum, sourceDirectory }

/-- Reads a manifest text; `fs` decides whether the source directory is there. -/
def ofText (fs : FileSystem) (text : String) : Except UpdateError Manifest := do
  ofProperties fs (← properties text.toList)

/-- Reads the manifest file at `path`. -/
def load (fs : FileSystem) (path : String) : Except UpdateError Manifest :=
  match fs.readText path with
  | .ok text => ofText fs text
  | .error e => .error (.file path e)

end Manifest

end DeviceUpdate
