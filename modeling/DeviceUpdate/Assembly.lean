import DeviceUpdate.Archive.Reader
import DeviceUpdate.Checksum
import DeviceUpdate.Fragment
import DeviceUpdate.Space

/-!
# Assembly

Each fragment is an archive that holds one slice of the package under the package's file name.
The slices are written to the destination in order, and each fragment is removed once its slice is
written. The finished package must have the manifest's size and CRC-32. A failure removes the
destination and the fragments that are left.
-/

namespace DeviceUpdate

/-- The register after reading `content` in pieces of at most `buffer` bytes. -/
def checksumReads (buffer : Nat) (register : UInt32) (content : Bytes) : UInt32 :=
  if _room : 0 < buffer ∧ content ≠ [] then
    checksumReads buffer (Crc32.update register (content.take buffer)) (content.drop buffer)
  else register
termination_by content.length
decreasing_by
  have := List.length_pos_iff.mpr _room.2
  simp only [List.length_drop]
  omega

/-- The CRC-32 of the file at `path`, read through a buffer of `buffer` bytes. A buffer without
room reads nothing. -/
def fileChecksum (fs : FileSystem) (path : String) (buffer : Nat) : Except UpdateError UInt32 :=
  match fs.read path with
  | .ok content => .ok (Crc32.finish (checksumReads buffer Crc32.start content))
  | .error e => .error (.file path e)

namespace Assembly

/-- Bytes read or unpacked at once. -/
def bufferSize : Nat := 128 * 1024

def failureText (entry : String) : Archive.Failure → String
  | .noArchive words => "unable to open archive: " ++ words
  | .noEntry words => s!"unable to locate '{entry}': " ++ words
  | .badContent words => "decompression failed: " ++ words

/-- Appends the slice in one fragment to the open destination. -/
def append [Archive.Reader] (fs : FileSystem) (h : Handle) (f : Fragment) (entry : String) :
    Except UpdateError Handle × FileSystem :=
  match fs.find f.path with
  | .error e => (.error (.file f.path e), fs)
  | .ok i =>
    match fs.content i with
    | .error _ => (.error (.archive f.path "unable to open archive: not readable"), fs)
    | .ok archive =>
      let reading := Archive.Reader.read archive entry
      match fs.write h reading.content with
      | .error e =>
        (.error (.archive f.path ("write failed: " ++ e.message)), fs.spill h reading.content)
      | .ok (h, fs) =>
        match reading.failure with
        | none => (.ok h, fs)
        | some failure => (.error (.archive f.path (failureText entry failure)), fs)

def removeAll (fs : FileSystem) (fragments : List Fragment) : FileSystem :=
  fragments.foldl (fun fs f => fs.removeIfPossible f.path) fs

/-- Appends all fragments in order, and removes each that was appended. After a failure the
fragments that are left are removed. -/
def appendAll [Archive.Reader] (entry : String) : FileSystem → Handle → List Fragment →
    Except UpdateError Handle × FileSystem
  | fs, h, [] => (.ok h, fs)
  | fs, h, f :: rest =>
    match append fs h f entry with
    | (.error e, fs) => (.error e, removeAll fs (f :: rest))
    | (.ok h, fs) => appendAll entry (fs.removeIfPossible f.path) h rest

/-- Checks the size and the CRC-32 of the package at `path`. -/
def verify (fs : FileSystem) (path : String) (m : Manifest) : Except UpdateError Unit :=
  match fs.size path with
  | .error e => .error (.file path e)
  | .ok size =>
    if size != m.totalSize then
      .error (.integrity
        s!"Wrong size for '{path}': {size} bytes, manifest says {m.totalSize}")
    else
      match fileChecksum fs path bufferSize with
      | .error e => .error e
      | .ok checksum =>
        if checksum != m.checksum then
          .error (.integrity
            s!"Wrong CRC32 for '{path}': calculated {checksum}, manifest says {m.checksum}")
        else .ok ()

/-- Assembles the package of a plan; the answer is the package's path. -/
def assemble [Archive.Reader] (fs : FileSystem) (plan : AssemblyPlan) :
    Except UpdateError String × FileSystem :=
  match fs.create plan.destination with
  | .error e => (.error (.file plan.destination e), removeAll fs plan.fragments)
  | .ok (h, fs) =>
    match appendAll plan.fileName fs h plan.fragments with
    | (.error e, fs) => (.error e, fs.removeIfPossible plan.destination)
    | (.ok h, fs) =>
      match fs.sync h with
      | .error e => (.error (.file plan.destination e), fs.removeIfPossible plan.destination)
      | .ok _ =>
        match verify fs plan.destination plan.manifest with
        | .error e => (.error e, fs.removeIfPossible plan.destination)
        | .ok _ => (.ok plan.destination, fs)

/-- What has to hold before anything is written: a sound manifest, room for the package, and all
fragments in place. -/
def planFor (fs : FileSystem) (manifestPath directory : String) :
    Except UpdateError AssemblyPlan := do
  let m ← Manifest.load fs manifestPath
  let _ ← Space.ensure fs directory m.totalSize
  AssemblyPlan.prepare fs m directory

/-- Assembles the package that a manifest file describes into `directory`. The manifest file
stays. -/
def assembleFromManifest [Archive.Reader] (fs : FileSystem) (manifestPath directory : String) :
    Except UpdateError String × FileSystem :=
  match planFor fs manifestPath directory with
  | .error e => (.error e, fs)
  | .ok plan => assemble fs plan

end Assembly

end DeviceUpdate
