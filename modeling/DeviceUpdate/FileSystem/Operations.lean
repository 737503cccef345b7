import DeviceUpdate.FileSystem.Basic

/-!
# Operations on files

Reading, creating, writing and removing. A handle writes behind what it wrote before, whatever
happens to the path that it was opened by.
-/

namespace DeviceUpdate

/-- A file that is open for writing: its node, and where the next byte goes. -/
structure Handle where
  node : Nat
  offset : Nat
  deriving DecidableEq, Repr

namespace FileSystem

/-- The bytes of a node. Only files and pipes hold any. -/
def content (fs : FileSystem) (i : Nat) : Except FileError Bytes :=
  match fs.node? i with
  | some (.file bytes _) => .ok bytes
  | some (.pipe pending) => .ok (pending.getD [])
  | some (.directory _ _) => .error .isDirectory
  | _ => .ok []

/-- The whole content of the file at `path`. -/
def read (fs : FileSystem) (path : String) : Except FileError Bytes :=
  match fs.find path with
  | .ok i => fs.content i
  | .error e => .error e

/-- The whole content of the file at `path` as text. -/
def readText (fs : FileSystem) (path : String) : Except FileError String :=
  match fs.read path with
  | .ok bytes =>
    match Text.decodeUtf8? bytes with
    | some text => .ok text
    | none => .error .notText
  | .error e => .error e

/-- The size that the system reports for `path`. -/
def size (fs : FileSystem) (path : String) : Except FileError Nat :=
  match fs.find path with
  | .ok i =>
    match fs.node? i with
    | some (.file bytes _) => .ok bytes.length
    | some (.directory _ _) => .ok 4096
    | _ => .ok 0
  | .error e => .error e

/-- Names the node `i` in a directory. -/
def addEntry (fs : FileSystem) (directory : Nat) (name : String) (i : Nat) : FileSystem :=
  match fs.node? directory with
  | some (.directory parent entries) =>
    fs.setNode directory (.directory parent (entries ++ [(name, i)]))
  | _ => fs

/-- Takes a name out of a directory. -/
def removeEntry (fs : FileSystem) (directory : Nat) (name : String) : FileSystem :=
  match fs.node? directory with
  | some (.directory parent entries) =>
    fs.setNode directory (.directory parent (entries.filter fun e => e.1 != name))
  | _ => fs

/-- Opens `path` for writing: an existing file becomes empty, a missing one is made. -/
def create (fs : FileSystem) (path : String) : Except FileError (Handle × FileSystem) :=
  match fs.resolve true path with
  | .error e => .error e
  | .ok (.vacant directory name) =>
    let (i, fs) := fs.addNode (.file [] false)
    .ok (⟨i, 0⟩, fs.addEntry directory name i)
  | .ok (.found i _) =>
    match fs.node? i with
    | some (.file _ executable) => .ok (⟨i, 0⟩, fs.setNode i (.file [] executable))
    | some (.directory _ _) => .error .isDirectory
    | _ => .ok (⟨i, 0⟩, fs)

/-- `old` with `new` written at `offset`; a gap is filled with zeros. -/
def overwrite (old : Bytes) (offset : Nat) (new : Bytes) : Bytes :=
  old.take offset ++ List.replicate (offset - old.length) 0 ++ new ++
    old.drop (offset + new.length)

/-- Writes all of `bytes`. -/
def write (fs : FileSystem) (h : Handle) (bytes : Bytes) :
    Except FileError (Handle × FileSystem) :=
  if bytes.isEmpty then .ok (h, fs)
  else
    let moved : Handle := { h with offset := h.offset + bytes.length }
    match fs.node? h.node with
    | some (.file old executable) =>
      if fs.takes bytes.length then
        let new := overwrite old h.offset bytes
        .ok (moved, (fs.setNode h.node (.file new executable)).spend bytes.length)
      else .error .deviceFull
    | some (.device .full) => .error .deviceFull
    | _ => .ok (moved, fs)

/-- What a failed write of `bytes` leaves: a file took as much of it as there was room for. -/
def spill (fs : FileSystem) (h : Handle) (bytes : Bytes) : FileSystem :=
  match fs.room with
  | none => fs
  | some room =>
    match fs.write h (bytes.take room) with
    | .ok (_, fs) => fs
    | .error _ => fs

/-- Waits until what was written is on the medium, which only files have. -/
def sync (fs : FileSystem) (h : Handle) : Except FileError Unit :=
  match fs.node? h.node with
  | some (.file _ _) => .ok ()
  | _ => .error .invalidArgument

/-- Removes the file, link or pipe at `path`; a link is not followed. -/
def remove (fs : FileSystem) (path : String) : Except FileError FileSystem :=
  match fs.resolve false path with
  | .error e => .error e
  | .ok (.vacant _ _) => .error .notFound
  | .ok (.found i entry) =>
    match fs.node? i, entry with
    | some (.directory _ _), _ => .error .isDirectory
    | _, some (directory, name) => .ok (fs.removeEntry directory name)
    | _, none => .error .isDirectory

/-- Removes the file at `path` if that is possible. -/
def removeIfPossible (fs : FileSystem) (path : String) : FileSystem :=
  match fs.remove path with
  | .ok fs => fs
  | .error _ => fs

/-- Bytes that the system reports as free on the file system that holds `path`. -/
def available? (fs : FileSystem) (path : String) : Option Nat :=
  if fs.exists? path then some fs.freeSpace else none

theorem removeIfPossible_of_ok {fs fs' : FileSystem} {path : String}
    (h : fs.remove path = .ok fs') : fs.removeIfPossible path = fs' := by
  simp [removeIfPossible, h]

end FileSystem

end DeviceUpdate
