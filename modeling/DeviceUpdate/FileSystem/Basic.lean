import DeviceUpdate.FileSystem.Error
import DeviceUpdate.FileSystem.Path
import DeviceUpdate.Text.Utf8

/-!
# Files

A file system is a table of nodes. Directories name nodes, so a file that was removed stays
usable through a handle that was opened before. Looking a path up follows symbolic links, at most
`linkLimit` of them.
-/

namespace DeviceUpdate

inductive Device where
  /-- takes everything, holds nothing -/
  | null
  /-- takes nothing -/
  | full
  deriving DecidableEq, Repr

inductive Node where
  | file (content : Bytes) (executable : Bool)
  | directory (parent : Nat) (entries : List (String × Nat))
  | link (target : String)
  /-- a named pipe, and what was written into it -/
  | pipe (pending : Option Bytes)
  | device (kind : Device)
  deriving Repr

structure FileSystem where
  nodes : Array Node
  root : Nat
  /-- the directory that relative paths start from -/
  current : Nat
  /-- bytes that the system reports as free -/
  freeSpace : Nat
  /-- bytes that files still take before a write fails, if one ever does -/
  room : Option Nat := none
  deriving Repr

/-- Where a path leads: to a node, with the directory entry that names it if the path ends in a
name, or to a name that its directory does not have. -/
inductive Place where
  | found (node : Nat) (entry : Option (Nat × String))
  | vacant (directory : Nat) (name : String)
  deriving DecidableEq, Repr

namespace FileSystem

def linkLimit : Nat := 40
def nameLimit : Nat := 255
def pathLimit : Nat := 4095

def node? (fs : FileSystem) (i : Nat) : Option Node := fs.nodes[i]?

def setNode (fs : FileSystem) (i : Nat) (n : Node) : FileSystem :=
  { fs with nodes := fs.nodes.setIfInBounds i n }

/-- Whether files take `n` bytes more. -/
def takes (fs : FileSystem) (n : Nat) : Bool := fs.room.all (n ≤ ·)

/-- Files have taken `n` bytes. -/
def spend (fs : FileSystem) (n : Nat) : FileSystem := { fs with room := fs.room.map (· - n) }

/-- Adds a node that no directory names yet. -/
def addNode (fs : FileSystem) (n : Node) : Nat × FileSystem :=
  (fs.nodes.size, { fs with nodes := fs.nodes.push n })

/-- Walks from the node `here`, which `entry` names, through `names`. A link on the way is left to
`jump`, which is told where to start and what names to go through; a link at the end is followed
if `follow` holds. -/
def walkNames (fs : FileSystem) (follow : Bool) (jump : Nat → List String → Except FileError Place)
    (here : Nat) (entry : Option (Nat × String)) : (names : List String) → Except FileError Place
  | [] => .ok (.found here entry)
  | name :: rest =>
    match fs.node? here with
    | some (.directory parent entries) =>
      if name = "." then walkNames fs follow jump here none rest
      else if name = ".." then walkNames fs follow jump parent none rest
      else if nameLimit < name.utf8ByteSize then .error .nameTooLong
      else
        match entries.lookup name with
        | none => if rest.isEmpty then .ok (.vacant here name) else .error .notFound
        | some next =>
          match fs.node? next with
          | some (.link target) =>
            if rest.isEmpty && !follow then .ok (.found next (some (here, name)))
            else
              jump (if Path.isAbsolute target then fs.root else here)
                (Path.components target ++ rest)
          | _ => walkNames fs follow jump next (some (here, name)) rest
    | _ => .error .notDirectory

/-- Walks from the directory `start` through `names`; `links` links may be followed. -/
def walk (fs : FileSystem) (follow : Bool) :
    (links start : Nat) → (names : List String) → Except FileError Place
  | 0, start, names => fs.walkNames follow (fun _ _ => .error .tooManyLinks) start none names
  | links + 1, start, names => fs.walkNames follow (fs.walk follow links) start none names

/-- Looks a path up; a link at its end is followed if `follow` holds. -/
def resolve (fs : FileSystem) (follow : Bool) (path : String) : Except FileError Place :=
  if path.toList.contains '\x00' then .error .nulInPath
  else if path.isEmpty then .error .notFound
  else if pathLimit < path.utf8ByteSize then .error .nameTooLong
  else
    let start := if Path.isAbsolute path then fs.root else fs.current
    fs.walk follow linkLimit start (Path.components path)

/-- The node that a path names, through any links. -/
def find (fs : FileSystem) (path : String) : Except FileError Nat :=
  match fs.resolve true path with
  | .ok (.found i _) => .ok i
  | .ok (.vacant _ _) => .error .notFound
  | .error e => .error e

def exists? (fs : FileSystem) (path : String) : Bool :=
  match fs.find path with
  | .ok _ => true
  | .error _ => false

def isFile (fs : FileSystem) (path : String) : Bool :=
  match fs.find path with
  | .ok i => match fs.node? i with
    | some (.file _ _) => true
    | _ => false
  | .error _ => false

def isDirectory (fs : FileSystem) (path : String) : Bool :=
  match fs.find path with
  | .ok i => match fs.node? i with
    | some (.directory _ _) => true
    | _ => false
  | .error _ => false

/-- Whether reading the path has to wait for somebody to write into a pipe. -/
def awaitsWriter (fs : FileSystem) (path : String) : Bool :=
  match fs.find path with
  | .ok i => match fs.node? i with
    | some (.pipe none) => true
    | _ => false
  | .error _ => false

end FileSystem

end DeviceUpdate
