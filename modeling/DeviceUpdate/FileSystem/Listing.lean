import DeviceUpdate.Checksum
import DeviceUpdate.FileSystem.Operations

/-!
# Laying out and listing directories

Trees are laid out entry by entry; the parents of an entry are made as needed. A listing names
every entry below the current directory in the order of the paths, links not followed.
-/

namespace DeviceUpdate

/-- What to put at a path. -/
inductive Planted where
  | directory
  | link (target : String)
  | file (content : Bytes) (executable : Bool)
  deriving Repr

/-- One line of a listing. -/
inductive Listed where
  | directory (path : String)
  | file (path : String) (size : Nat) (checksum : UInt32)
  | link (path target : String)
  | other (path : String)
  deriving DecidableEq, Repr

def Listed.path : Listed → String
  | .directory path | .file path _ _ | .link path _ | .other path => path

def Listed.text : Listed → String
  | .directory path => "D " ++ path
  | .file path size checksum => s!"F {path} {size} {checksum}"
  | .link path target => "L " ++ path ++ " -> " ++ target
  | .other path => "P " ++ path

namespace FileSystem

/-- A file system that holds a root directory and nothing else. -/
def empty (freeSpace : Nat) : FileSystem where
  nodes := #[.directory 0 []]
  root := 0
  current := 0
  freeSpace := freeSpace

/-- Adds a new node at the place a path leads to, if that place is vacant. -/
def addAt (fs : FileSystem) (path : String) (make : Nat → Node) : FileSystem :=
  match fs.resolve false path with
  | .ok (.vacant directory name) =>
    let (i, fs) := fs.addNode (make directory)
    fs.addEntry directory name i
  | _ => fs

/-- Makes the directory at `path` and every parent that is missing. -/
def makeDirectories (fs : FileSystem) (path : String) : FileSystem :=
  let start := if Path.isAbsolute path then "/" else ""
  let names := (Path.components path).filter (· != ".")
  (names.foldl (fun (fs, base) name =>
    let here := Path.join base name
    (fs.addAt here (fun parent => .directory parent []), here)) (fs, start)).1

/-- The path without its last name. -/
def parentPath (path : String) : String :=
  let cs := path.toList.reverse.dropWhile (· != '/')
  String.ofList (cs.dropWhile (· == '/')).reverse

def makeParents (fs : FileSystem) (path : String) : FileSystem :=
  let parent := parentPath path
  if parent.isEmpty then fs else fs.makeDirectories parent

/-- Puts one entry at `path`. A file that is there keeps its node and gets new content. -/
def plant (fs : FileSystem) (path : String) : Planted → FileSystem
  | .directory => fs.makeDirectories path
  | .link target => (fs.makeParents path).addAt path fun _ => .link target
  | .file content executable =>
    let fs := fs.makeParents path
    match fs.create path with
    | .error _ => fs
    | .ok (h, fs) =>
      match fs.write h content with
      | .error _ => fs
      | .ok (h, fs) =>
        match fs.node? h.node with
        | some (.file bytes old) => fs.setNode h.node (.file bytes (executable || old))
        | _ => fs

/-- Makes a named pipe at `path`. -/
def makePipe (fs : FileSystem) (path : String) : FileSystem := fs.addAt path fun _ => .pipe none

/-- Writes `bytes` into the pipe at `path`. -/
def feed (fs : FileSystem) (path : String) (bytes : Bytes) : FileSystem :=
  match fs.find path with
  | .ok i =>
    match fs.node? i with
    | some (.pipe _) => fs.setNode i (.pipe (some bytes))
    | _ => fs
  | .error _ => fs

/-- Removes whatever is at `path`, a directory with all it holds. -/
def removeTree (fs : FileSystem) (path : String) : FileSystem :=
  match fs.resolve false path with
  | .ok (.found _ (some (directory, name))) => fs.removeEntry directory name
  | _ => fs

/-- Everything below the directory `i`, whose path is `base`, down to `depth` levels. -/
def below (fs : FileSystem) : (depth : Nat) → (i : Nat) → (base : String) → List Listed
  | 0, _, _ => []
  | depth + 1, i, base =>
    match fs.node? i with
    | some (.directory _ entries) =>
      entries.flatMap fun (name, j) =>
        let path := if base.isEmpty then name else base ++ "/" ++ name
        match fs.node? j with
        | some (.directory _ _) => .directory path :: below fs depth j path
        | some (.file content _) => [.file path content.length (crc32 content)]
        | some (.link target) => [.link path target]
        | _ => [.other path]
    | _ => []

/-- Every entry below the current directory, sorted by path. -/
def listing (fs : FileSystem) : List Listed :=
  (below fs fs.nodes.size fs.current "").mergeSort fun a b => a.path ≤ b.path

end FileSystem

end DeviceUpdate
