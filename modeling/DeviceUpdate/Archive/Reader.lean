import DeviceUpdate.Text.Utf8

/-!
# Reading archives

A library reads archives: it looks for an entry by its name, and hands out its content until it
ends or fails. Which archives it can read is its own matter.
-/

namespace DeviceUpdate.Archive

/-- Why an entry cannot be read to its end, in the library's words. -/
inductive Failure where
  /-- this is no archive -/
  | noArchive (words : String)
  /-- there is no such entry, or its content cannot be reached -/
  | noEntry (words : String)
  /-- the content turns out to be corrupt -/
  | badContent (words : String)
  deriving DecidableEq, Repr

/-- What reading an entry gives: the bytes that arrive, and the failure that ends them, if any. -/
structure Reading where
  content : Bytes
  failure : Option Failure
  deriving DecidableEq, Repr

/-- A library that reads archives. -/
class Reader where
  /-- reads the entry of this name in an archive of these bytes -/
  read : Bytes → String → Reading

/-- The library reads what archives hold: the content of an entry that can be read, and of any
other a failure. `held?` says which entries of which archives can be read. -/
structure Reader.Follows (archives : Reader) (held? : Bytes → String → Option Bytes) : Prop where
  readable : ∀ archive name content, held? archive name = some content →
    archives.read archive name = ⟨content, none⟩
  unreadable : ∀ archive name, held? archive name = none →
    (archives.read archive name).failure ≠ none

end DeviceUpdate.Archive
