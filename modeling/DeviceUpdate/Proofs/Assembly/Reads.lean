import DeviceUpdate.Proofs.Assembly
import DeviceUpdate.Proofs.FileSystem.Writing

/-!
# Reads through a buffer

A slice comes in pieces, one for each read, and each piece is written before the next one is read.
The finished package is read back in pieces for its checksum. How much a read brings is up to the
system, so `Reads` leaves that open: nothing depends on it, because writing piece by piece and
taking pieces into the checksum one by one come to the same as doing it at once.
-/

namespace DeviceUpdate

/-- How the content of each file comes apart when it is read. -/
structure Reads where
  pieces : (path : String) → (content : Bytes) → List Bytes
  /-- nothing is lost and nothing changes its place -/
  whole : ∀ path content, (pieces path content).flatten = content

/-- Every byte is read by itself. -/
def Reads.bytewise : Reads where
  pieces := fun _ content => content.map fun b => [b]
  whole := fun _ content => by
    induction content with
    | nil => rfl
    | cons b rest ih => simp [ih]

/-- The CRC-32 of the file at `path`, which is taken in piece by piece. -/
def Reads.checksum (reads : Reads) (fs : FileSystem) (path : String) : Except UpdateError UInt32 :=
  match fs.read path with
  | .ok content =>
    .ok (Crc32.finish ((reads.pieces path content).foldl Crc32.update Crc32.start))
  | .error e => .error (.file path e)

lemma foldl_update (register : UInt32) (pieces : List Bytes) :
    pieces.foldl Crc32.update register = Crc32.update register pieces.flatten := by
  induction pieces generalizing register with
  | nil => rfl
  | cons piece rest ih => rw [List.foldl_cons, ih, List.flatten_cons, Crc32.update_append]

/-- However the file is read, and through whatever buffer, it has one checksum. -/
theorem Reads.checksum_eq (reads : Reads) (fs : FileSystem) (path : String) {buffer : Nat}
    (room : 0 < buffer) : reads.checksum fs path = fileChecksum fs path buffer := by
  rw [Reads.checksum, fileChecksum]
  cases fs.read path with
  | error e => rfl
  | ok content =>
    dsimp only
    rw [foldl_update, reads.whole, checksumReads_eq room]

namespace Assembly

/-- Appends the slice in one fragment as the reads bring it. -/
def appendBy [Archive.Reader] (reads : Reads) (fs : FileSystem) (h : Handle) (f : Fragment)
    (entry : String) : Except UpdateError Handle × FileSystem :=
  match fs.find f.path with
  | .error e => (.error (.file f.path e), fs)
  | .ok i =>
    match fs.content i with
    | .error _ => (.error (.archive f.path "unable to open archive: not readable"), fs)
    | .ok archive =>
      let reading := Archive.Reader.read archive entry
      match FileSystem.writePieces fs h (reads.pieces f.path reading.content) with
      | (.error e, fs) => (.error (.archive f.path ("write failed: " ++ e.message)), fs)
      | (.ok h, fs) =>
        match reading.failure with
        | none => (.ok h, fs)
        | some failure => (.error (.archive f.path (failureText entry failure)), fs)

def appendAllBy [Archive.Reader] (reads : Reads) (entry : String) :
    FileSystem → Handle → List Fragment → Except UpdateError Handle × FileSystem
  | fs, h, [] => (.ok h, fs)
  | fs, h, f :: rest =>
    match appendBy reads fs h f entry with
    | (.error e, fs) => (.error e, removeAll fs (f :: rest))
    | (.ok h, fs) => appendAllBy reads entry (fs.removeIfPossible f.path) h rest

def verifyBy (reads : Reads) (fs : FileSystem) (path : String) (m : Manifest) :
    Except UpdateError Unit :=
  match fs.size path with
  | .error e => .error (.file path e)
  | .ok size =>
    if size != m.totalSize then
      .error (.integrity
        s!"Wrong size for '{path}': {size} bytes, manifest says {m.totalSize}")
    else
      match reads.checksum fs path with
      | .error e => .error e
      | .ok checksum =>
        if checksum != m.checksum then
          .error (.integrity
            s!"Wrong CRC32 for '{path}': calculated {checksum}, manifest says {m.checksum}")
        else .ok ()

/-- Assembles the package of a plan, with everything read and written in pieces. -/
def assembleBy [Archive.Reader] (reads : Reads) (fs : FileSystem) (plan : AssemblyPlan) :
    Except UpdateError String × FileSystem :=
  match fs.create plan.destination with
  | .error e => (.error (.file plan.destination e), removeAll fs plan.fragments)
  | .ok (h, fs) =>
    match appendAllBy reads plan.fileName fs h plan.fragments with
    | (.error e, fs) => (.error e, fs.removeIfPossible plan.destination)
    | (.ok h, fs) =>
      match fs.sync h with
      | .error e => (.error (.file plan.destination e), fs.removeIfPossible plan.destination)
      | .ok _ =>
        match verifyBy reads fs plan.destination plan.manifest with
        | .error e => (.error e, fs.removeIfPossible plan.destination)
        | .ok _ => (.ok plan.destination, fs)

variable {archives : Archive.Reader}

lemma appendBy_eq (reads : Reads) (fs : FileSystem) (h : Handle) (f : Fragment)
    (entry : String) : appendBy reads fs h f entry = append fs h f entry := by
  unfold appendBy append
  cases fs.find f.path with
  | error e => rfl
  | ok i =>
    dsimp only
    cases fs.content i with
    | error e => rfl
    | ok archive =>
      dsimp only
      rw [FileSystem.writePieces_eq, reads.whole, FileSystem.written]
      cases fs.write h (Archive.Reader.read archive entry).content <;> rfl

lemma appendAllBy_eq (reads : Reads) (entry : String) (fs : FileSystem) (h : Handle)
    (fragments : List Fragment) :
    appendAllBy reads entry fs h fragments = appendAll entry fs h fragments := by
  induction fragments generalizing fs h with
  | nil => rfl
  | cons f rest ih =>
    rw [appendAllBy, appendAll, appendBy_eq]
    obtain ⟨_ | h, fs⟩ := append fs h f entry
    · rfl
    · exact ih _ _

/-- How reads come apart does not matter for assembly. -/
theorem assembleBy_eq (reads : Reads) (fs : FileSystem) (plan : AssemblyPlan) :
    assembleBy reads fs plan = assemble fs plan := by
  have hverify (fs : FileSystem) (path : String) (m : Manifest) :
      verifyBy reads fs path m = verify fs path m := by
    have hroom : 0 < bufferSize := by decide
    unfold verifyBy
    rw [reads.checksum_eq fs path hroom]
    rfl
  unfold assembleBy
  simp only [appendAllBy_eq, hverify]
  rfl

end Assembly

end DeviceUpdate
