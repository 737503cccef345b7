/-!
# Codes of the connector

What the callbacks answer to the connector, and why the connector gives an update up.
-/

namespace DeviceUpdate

/-- Why a download is refused. -/
inductive RequestCode where
  | denied
  | invalidSize
  | invalidVersion
  | unauthenticated
  | notAllowed
  | configuredToReject
  | encounteredError
  deriving DecidableEq, Repr

def RequestCode.text : RequestCode → String
  | .denied => "download denied"
  | .invalidSize => "download size cannot be accommodated"
  | .invalidVersion => "firmware version not accepted"
  | .unauthenticated => "download not authenticated"
  | .notAllowed => "download not allowed"
  | .configuredToReject => "device configured to reject downloads"
  | .encounteredError => "error processing the download request"

/-- Why a chunk is refused. -/
inductive DataCode where
  | busy
  | invalidOffset
  | invalidData
  | hashError
  deriving DecidableEq, Repr

def DataCode.text : DataCode → String
  | .busy => "device busy"
  | .invalidOffset => "invalid chunk offset"
  | .invalidData => "invalid data"
  | .hashError => "integrity check failed"

/-- Why the connector gives an update up. -/
inductive CancelReason where
  | userAbort
  | deviceError
  | invalidOffset
  | invalidData
  | hardwareError
  deriving DecidableEq, Repr

def CancelReason.text : CancelReason → String
  | .userAbort => "user abort"
  | .deviceError => "device error"
  | .invalidOffset => "invalid offset"
  | .invalidData => "invalid data"
  | .hardwareError => "hardware error"

/-- The answer to a reset. The device restarts on its own, so `systemReset` stays false. -/
structure ResetDecision where
  systemReset : Bool := false
  rebootScheduled : Bool := false
  deriving DecidableEq, Repr

end DeviceUpdate
