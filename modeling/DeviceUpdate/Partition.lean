import DeviceUpdate.Config
import DeviceUpdate.Procedure

/-!
# System partitions

A streamed image goes straight into the partition that is not running. Before that the agent asks
which one runs, picks the other, and makes sure that it is not mounted.
-/

namespace DeviceUpdate

inductive Partition where
  | a
  | b
  deriving DecidableEq, Repr

namespace Partition

def other : Partition → Partition
  | .a => .b
  | .b => .a

/-- The partition that the tool's answer names. -/
def ofAnswer? (answer : String) : Option Partition :=
  match Text.trimString answer with
  | "a" => some .a
  | "b" => some .b
  | _ => none

/-- Where the partition is mounted while the other runs. -/
def mountPoint : Partition → String
  | .a => "/mnt/linux_a"
  | .b => "/mnt/linux_b"

def runningMode : Partition → RunningMode
  | .a => .primary
  | .b => .secondary

theorem other_other (p : Partition) : p.other.other = p := by cases p <;> rfl

theorem other_ne (p : Partition) : p.other ≠ p := by cases p <;> simp [other]

end Partition

namespace RunningMode

def text : RunningMode → String
  | .primary => "primary"
  | .secondary => "secondary"

end RunningMode

namespace StorageMedia

def text : StorageMedia → String
  | .mtd => "mtd"
  | .mmc => "mmc"

/-- The technology by the table of raw flash partitions: any mention of raw flash counts, and a
table that cannot be read mentions none. -/
def detect (fs : FileSystem) (flashTable : String) : StorageMedia :=
  match fs.readText flashTable with
  | .ok text => if Text.contains ['m', 't', 'd'] text.toList then .mtd else .mmc
  | .error _ => .mmc

end StorageMedia

namespace Mount

/-- Whether a line of a mount table has `directory` as its second field. -/
def listedIn (table : List Char) (directory : String) : Bool :=
  (Text.lines table).any fun line => (Text.fields line)[1]? == some directory.toList

/-- Whether a directory is a mount point. Without a readable table, a directory that exists counts
as one. -/
def isMountPoint (fs : FileSystem) (table directory : String) : Bool :=
  match fs.readText table with
  | .ok text => listedIn text.toList directory
  | .error _ => fs.isDirectory directory

end Mount

/-- What preparing a stream depends on. -/
structure StreamPreparation where
  timeout : Duration
  flashTable : String
  mountTable : String
  deriving DecidableEq, Repr

namespace StreamPreparation

def ofConfig (c : Config) : StreamPreparation := ⟨c.commandTimeout, c.flashTable, c.mountTable⟩

def tool (p : StreamPreparation) (arguments : List String) : Command :=
  ⟨"update-firmware", arguments, some p.timeout⟩

/-- Asks which partition runs. -/
def activePartition (p : StreamPreparation) : Procedure (Except UpdateError Partition) := do
  match ← Procedure.runExpecting (p.tool ["-a", "-s"]) with
  | .error e => return .error e
  | .ok output =>
    match Partition.ofAnswer? output.stdout with
    | some partition => return .ok partition
    | none => return .error (.streamingFailed s!"unexpected active system '{output.trimmed}'")

def unmount (p : StreamPreparation) (mountPoint : String) : Command :=
  ⟨"umount", [mountPoint], some p.timeout⟩

/-- Picks the inactive partition and frees it. Whether unmounting works does not matter. -/
def prepare (p : StreamPreparation) : Procedure (Except UpdateError StreamRequest) :=
  p.activePartition.andThen fun active => do
    let target := active.other
    let media ← Procedure.look (StorageMedia.detect · p.flashTable)
    let mounted ← Procedure.look (Mount.isMountPoint · p.mountTable target.mountPoint)
    if mounted then
      let _ ← Procedure.run (p.unmount target.mountPoint)
    return .ok ⟨media, target.runningMode⟩

/-- Makes the partition that was written the active one, without a restart. -/
def swapActiveSystem (p : StreamPreparation) : Procedure (Except UpdateError Unit) := do
  let result ← Procedure.runExpecting (p.tool ["--swap-active-system", "--no-reboot"])
  return result.map fun _ => ()

end StreamPreparation

end DeviceUpdate
