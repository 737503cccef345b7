import DeviceUpdate.Config
import DeviceUpdate.Partition
import DeviceUpdate.Session.Controller

/-!
# Wire forms

How the types of the core are written as JSON, and which JSON values are read back as them. A
named value is its name, or an object whose only member has that name and holds null. A record is
an object with all its keys, or an array of its fields in order.
-/

namespace DeviceUpdate

/-- A way to write the values of a type as JSON, and to read them. -/
structure Codec (α : Type) where
  encode : α → Json
  decode? : Json → Option α

namespace Codec

/-- The name in a JSON value that stands for a named value. -/
def nameOf? : Json → Option String
  | .string text => text
  | .object [(key, .null)] => key
  | _ => none

/-- Values that are written by their names. -/
def named {α : Type} (values : List α) (name : α → String) : Codec α where
  encode a := .ofString (name a)
  decode? j := do
    let found ← nameOf? j
    values.find? fun a => name a == found

def bool : Codec Bool := ⟨.bool, Json.asBool?⟩

def text : Codec String := ⟨.ofString, Json.asText?⟩

/-- Natural numbers of at most `hi`. -/
def natural (hi : Nat) : Codec Nat := ⟨.ofNat, Json.asNat? hi⟩

def byte : Codec UInt8 where
  encode n := .ofNat n.toNat
  decode? j := (j.asNat? 255).map Nat.toUInt8

/-- The values of all the named fields, by key or by position. -/
def record? (names : List String) (j : Json) : Option (List Json) := do
  let values ← j.fields? names
  values.mapM id

end Codec

namespace Wire

def partition : Codec Partition :=
  .named [.a, .b] fun
    | .a => "A"
    | .b => "B"

def runningMode : Codec RunningMode := .named [.primary, .secondary] RunningMode.text

def storageMedia : Codec StorageMedia := .named [.mtd, .mmc] StorageMedia.text

def endStatus : Codec EndStatus :=
  .named [.success, .failure] fun
    | .success => "Success"
    | .failure => "Failure"

def bootLayout : Codec BootLayout :=
  .named [.unknown, .single, .dual] fun
    | .unknown => "Unknown"
    | .single => "Single"
    | .dual => "Dual"

def rebootPlan : Codec RebootPlan :=
  .named [.direct, .recovery] fun
    | .direct => "Direct"
    | .recovery => "Recovery"

def deliveryMode : Codec DeliveryMode :=
  .named [.staged, .streaming] fun
    | .staged => "Staged"
    | .streaming => "Streaming"

def sessionState : Codec SessionState :=
  .named [.idle, .requested, .receiving, .finalizing, .installing, .completed, .resetDecision,
      .rebooting, .cancelled] fun
    | .idle => "Idle"
    | .requested => "Requested"
    | .receiving => "Receiving"
    | .finalizing => "Finalizing"
    | .installing => "Installing"
    | .completed => "Completed"
    | .resetDecision => "ResetDecision"
    | .rebooting => "Rebooting"
    | .cancelled => "Cancelled"

def target : Codec Target :=
  .named Target.all fun
    | .system => "Swu"
    | .manifest => "Manifest"

def requestCode : Codec RequestCode :=
  .named [.denied, .invalidSize, .invalidVersion, .unauthenticated, .notAllowed,
      .configuredToReject, .encounteredError] fun
    | .denied => "DownloadDenied"
    | .invalidSize => "DownloadInvalidSize"
    | .invalidVersion => "DownloadInvalidVersion"
    | .unauthenticated => "DownloadUnauthenticated"
    | .notAllowed => "DownloadNotAllowed"
    | .configuredToReject => "DownloadConfiguredToReject"
    | .encounteredError => "EncounteredError"

def dataCode : Codec DataCode :=
  .named [.busy, .invalidOffset, .invalidData, .hashError] fun
    | .busy => "Busy"
    | .invalidOffset => "InvalidOffset"
    | .invalidData => "InvalidData"
    | .hashError => "HashError"

def cancelReason : Codec CancelReason :=
  .named [.userAbort, .deviceError, .invalidOffset, .invalidData, .hardwareError] fun
    | .userAbort => "UserAbort"
    | .deviceError => "DeviceError"
    | .invalidOffset => "InvalidOffset"
    | .invalidData => "InvalidData"
    | .hardwareError => "HardwareError"

def streamRequest : Codec StreamRequest where
  encode r := .ofMembers [
    ("storage_media", storageMedia.encode r.storageMedia),
    ("running_mode", runningMode.encode r.runningMode)]
  decode? j := do
    match ← Codec.record? ["storage_media", "running_mode"] j with
    | [media, mode] => return ⟨← storageMedia.decode? media, ← runningMode.decode? mode⟩
    | _ => none

def updateOutcome : Codec UpdateOutcome where
  encode o := .ofMembers [
    ("target", target.encode o.target),
    ("mode", deliveryMode.encode o.mode),
    ("success", .bool o.success)]
  decode? j := do
    match ← Codec.record? ["target", "mode", "success"] j with
    | [t, mode, success] =>
      return ⟨← target.decode? t, ← deliveryMode.decode? mode, ← success.asBool?⟩
    | _ => none

def version : Codec Version where
  encode v := .ofMembers [
    ("major", Codec.byte.encode v.major),
    ("minor", Codec.byte.encode v.minor),
    ("revision", Codec.byte.encode v.revision),
    ("build", Codec.byte.encode v.build)]
  decode? j := do
    match ← Codec.record? ["major", "minor", "revision", "build"] j with
    | [a, b, c, d] =>
      return ⟨← Codec.byte.decode? a, ← Codec.byte.decode? b, ← Codec.byte.decode? c,
        ← Codec.byte.decode? d⟩
    | _ => none

def word32 : Codec Nat := .natural 4294967295

def word64 : Codec Nat := .natural 18446744073709551615

def targetDescriptor : Codec TargetDescriptor where
  encode d := .ofMembers [
    ("target", target.encode d.target),
    ("number", .ofNat d.number),
    ("description", .ofString d.description),
    ("filespec", .ofString d.filespec),
    ("chunk_size", .ofNat d.chunkSize),
    ("maximum_size", .ofNat d.maximumSize),
    ("version", version.encode d.version)]
  decode? j := do
    let names := ["target", "number", "description", "filespec", "chunk_size", "maximum_size",
      "version"]
    match ← Codec.record? names j with
    | [t, number, description, filespec, chunk, maximum, v] =>
      return {
        target := ← target.decode? t
        number := ← word32.decode? number
        description := ← description.asText?
        filespec := ← filespec.asText?
        chunkSize := ← word64.decode? chunk
        maximumSize := ← word64.decode? maximum
        version := ← version.decode? v }
    | _ => none

def resetDecision : Codec ResetDecision where
  encode d := .ofMembers [
    ("system_reset", .bool d.systemReset),
    ("reboot_scheduled", .bool d.rebootScheduled)]
  decode? j := do
    match ← Codec.record? ["system_reset", "reboot_scheduled"] j with
    | [a, b] => return ⟨← a.asBool?, ← b.asBool?⟩
    | _ => none

def config : Codec Config := ⟨Config.toJson, Config.ofJson?⟩

/-- A codec of some type. -/
def reencode {α : Type} (c : Codec α) (j : Json) : Option Json := (c.decode? j).map c.encode

/-- The value written again after it was read as the type of this name. -/
def roundTrip? (type : String) (j : Json) : Option Json :=
  match type with
  | "Partition" => reencode partition j
  | "RunningMode" => reencode runningMode j
  | "StorageMedia" => reencode storageMedia j
  | "EndStatus" => reencode endStatus j
  | "BootType" => reencode bootLayout j
  | "RebootPlan" => reencode rebootPlan j
  | "DeliveryMode" => reencode deliveryMode j
  | "SessionState" => reencode sessionState j
  | "StreamRequest" => reencode streamRequest j
  | "UpdateOutcome" => reencode updateOutcome j
  | "FirmwareTarget" => reencode target j
  | "FirmwareVersion" => reencode version j
  | "TargetDescriptor" => reencode targetDescriptor j
  | "RequestError" => reencode requestCode j
  | "DataError" => reencode dataCode j
  | "CancelReason" => reencode cancelReason j
  | "ResetDecision" => reencode resetDecision j
  | "UpdateConfig" => reencode config j
  | _ => none

end Wire

end DeviceUpdate
