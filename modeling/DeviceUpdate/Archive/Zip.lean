import DeviceUpdate.Archive.Inflate
import DeviceUpdate.Archive.Reader
import DeviceUpdate.Checksum
import DeviceUpdate.Text.CodePage

/-!
# Zip archives

An archive ends with a record that says where its central directory is. The record is looked for
from the end backwards, so bytes may follow it, and the first one whose directory can be read
counts. Bytes may also precede the archive. Entries are stored or deflated.
-/

namespace DeviceUpdate.Archive

/-- One entry of the central directory. -/
structure Entry where
  name : String
  encrypted : Bool
  method : Nat
  checksum : UInt32
  compressedSize : Nat
  /-- where the entry's own header starts -/
  headerStart : Nat
  deriving DecidableEq, Repr

/-- The content of an archive file. -/
abbrev Image := Array UInt8

namespace Image

/-- A number of `n` bytes at `p`, least significant byte first. -/
def number (data : Image) (p : Nat) : (n : Nat) → Option Nat
  | 0 => some 0
  | n + 1 => do
    let low ← data[p]?
    let high ← number data (p + 1) n
    return low.toNat + 256 * high

/-- Whether the four bytes at `p` are the mark `P`, `K`, `a`, `b`. -/
def markedAt (data : Image) (p a b : Nat) : Bool :=
  data.number p 4 == some (0x50 + 256 * (0x4B + 256 * (a + 256 * b)))

/-- The `n` bytes at `p`. -/
def slice? (data : Image) (p n : Nat) : Option Bytes :=
  if p + n ≤ data.size then some (data.extract p (p + n)).toList else none

end Image

/-- The record at the end of an archive. -/
structure EndRecord where
  position : Nat
  disk : Nat
  directoryDisk : Nat
  entriesHere : Nat
  entriesTotal : Nat
  directoryOffset : Nat
  deriving DecidableEq, Repr

/-- The end record at `p`, if there is one and its comment fits. -/
def EndRecord.at? (data : Image) (p : Nat) : Option EndRecord := do
  if !data.markedAt p 5 6 then none
  let disk ← data.number (p + 4) 2
  let directoryDisk ← data.number (p + 6) 2
  let entriesHere ← data.number (p + 8) 2
  let entriesTotal ← data.number (p + 10) 2
  let directoryOffset ← data.number (p + 16) 4
  let commentLength ← data.number (p + 20) 2
  if data.size < p + 22 + commentLength then none
  return ⟨p, disk, directoryDisk, entriesHere, entriesTotal, directoryOffset⟩

/-- The first position from `p` on, before `limit`, where a directory entry starts. -/
def firstEntryFrom (data : Image) (limit p : Nat) : Option Nat :=
  if p < limit then
    if data.markedAt p 1 2 then some p else firstEntryFrom data limit (p + 1)
  else none
termination_by limit - p

/-- Whether an extra field of a directory entry has this tag. -/
def hasExtra (tag : Nat) (data : Image) (p limit : Nat) : Bool :=
  if p + 4 ≤ limit then
    match data.number p 2, data.number (p + 2) 2 with
    | some found, some length =>
      found == tag || hasExtra tag data (p + 4 + length) limit
    | _, _ => false
  else false
termination_by limit - p

/-- The directory entry at `p`, in an archive that starts at `base`, and where the next starts. -/
def Entry.at? (data : Image) (base p : Nat) : Option (Entry × Nat) := do
  if !data.markedAt p 1 2 then none
  let flags ← data.number (p + 8) 2
  let method ← data.number (p + 10) 2
  let checksum ← data.number (p + 16) 4
  let compressedSize ← data.number (p + 20) 4
  let nameLength ← data.number (p + 28) 2
  let extraLength ← data.number (p + 30) 2
  let commentLength ← data.number (p + 32) 2
  let offset ← data.number (p + 42) 4
  let nameBytes ← data.slice? (p + 46) nameLength
  let extraStart := p + 46 + nameLength
  let next := extraStart + extraLength + commentLength
  if data.size < next then none
  if method = 99 && !hasExtra 0x9901 data extraStart (extraStart + extraLength) then none
  let utf8 := flags / 2048 % 2 == 1
  let name := if utf8 then Text.decodeUtf8Lossy nameBytes else Text.decodeCodePage437 nameBytes
  return (⟨name, flags % 2 == 1, method, checksum.toUInt32, compressedSize, base + offset⟩, next)

/-- The `n` directory entries from `p` on. -/
def entriesFrom? (data : Image) (base p : Nat) : (n : Nat) → Option (List Entry)
  | 0 => some []
  | n + 1 => do
    let (entry, next) ← Entry.at? data base p
    let rest ← entriesFrom? data base next n
    return entry :: rest

/-- The entries of the directory that an end record names. -/
def EndRecord.entries? (data : Image) (r : EndRecord) : Option (List Entry) :=
  if r.entriesTotal = 0 then some []
  else if r.position ≤ r.directoryOffset then none
  else if r.disk != r.directoryDisk then none
  else do
    let start ← firstEntryFrom data r.position r.directoryOffset
    entriesFrom? data (start - r.directoryOffset) start r.entriesHere

/-- The entries by the last end record that starts before `limit` and can be used. -/
def entriesBefore? (data : Image) : (limit : Nat) → Option (List Entry)
  | 0 => none
  | p + 1 =>
    match EndRecord.at? data p with
    | none => entriesBefore? data p
    | some r =>
      match r.entries? data with
      | some entries => some entries
      | none => entriesBefore? data p

/-- All entries of an archive. -/
def entries? (data : Image) : Option (List Entry) := entriesBefore? data (data.size - 21)

/-- The compressed content of an entry; it is cut off where the archive ends. -/
def Entry.packed? (data : Image) (e : Entry) : Option Bytes := do
  if !data.markedAt e.headerStart 3 4 then none
  let nameLength ← data.number (e.headerStart + 26) 2
  let extraLength ← data.number (e.headerStart + 28) 2
  let start := e.headerStart + 30 + nameLength + extraLength
  return (data.extract start (start + e.compressedSize)).toList

/-- Bytes that are asked for at once. -/
def readSize : Nat := 128 * 1024

/-- The content does not unpack, or not to what its checksum says. -/
def corrupt : Failure := .badContent "corrupt content"

/-- No entry of the name can be reached. -/
def missing : Failure := .noEntry "not in the archive"

/-- Unpacks the content of an entry. Of content that turns out to be corrupt, only whole reads
before the fault arrive. -/
def Entry.unpack (e : Entry) (packed : Bytes) : Reading :=
  let (content, fault) :=
    if e.method = 0 then (packed, none) else Inflate.run packed
  if fault = some .corrupt then
    ⟨content.take (content.length / readSize * readSize), some corrupt⟩
  else if crc32 content = e.checksum then ⟨content, none⟩
  else ⟨content, some corrupt⟩

/-- Reads the entry `name` of an archive. Of several entries of one name the last counts. -/
def readEntry (archive : Bytes) (name : String) : Reading :=
  let data : Image := archive.toArray
  match entries? data with
  | none => ⟨[], some (.noArchive "no usable directory")⟩
  | some entries =>
    match entries.reverse.find? (·.name == name) with
    | none => ⟨[], some missing⟩
    | some e =>
      if e.encrypted || (e.method != 0 && e.method != 8) then ⟨[], some missing⟩
      else
        match e.packed? data with
        | none => ⟨[], some missing⟩
        | some packed => e.unpack packed

/-- Zip archives whose entries are stored or deflated. -/
abbrev zip : Reader := ⟨readEntry⟩

namespace Zip

scoped instance : Reader := zip

end Zip

end DeviceUpdate.Archive
