import DeviceUpdate.Codes
import DeviceUpdate.FileSystem.Error

/-!
# Update errors

Every cause of failure, its text, its category, and the code by which the connector learns of it.
-/

namespace DeviceUpdate

inductive UpdateError where
  | invalidManifest (reason : String)
  | file (path : String) (cause : FileError)
  | missingFragment (index : Nat) (path : String)
  | archive (path reason : String)
  | offsetMismatch (expected actual : Nat)
  | integrity (reason : String)
  | insufficientSpace (path : String) (required available : Nat)
  | spaceUnavailable (path : String)
  | installFailed (reason : String)
  | timeout (reason : String)
  | bootLayoutUnknown
  | command (line reason : String)
  | streamingFailed (reason : String)
  | invalidState (reason : String)
  | cancelled (reason : String)
  | invalidConfiguration (reason : String)
  | serialization (reason : String)
  deriving DecidableEq, Repr

/-- The kinds of failure that a caller tells apart. -/
inductive ErrorCategory where
  | validation
  | file
  | fragment
  | integrity
  | resource
  | install
  | protocolTimeout
  | classifierUnknown
  | process
  | state
  deriving DecidableEq, Repr

namespace UpdateError

def message : UpdateError → String
  | .invalidManifest reason => "Invalid manifest: " ++ reason
  | .file path cause => s!"I/O error on '{path}': {cause.message}"
  | .missingFragment index path => s!"Missing fragment number {index} ('{path}')"
  | .archive path reason => s!"Error assembling fragment '{path}': {reason}"
  | .offsetMismatch expected actual => s!"Unexpected chunk offset {actual}, expected {expected}"
  | .integrity reason => "Integrity check failed: " ++ reason
  | .insufficientSpace path required available =>
    s!"Not enough space in '{path}': needed {required} bytes, have {available}"
  | .spaceUnavailable path => s!"Unable to get available space in '{path}'"
  | .installFailed reason => "Install failed: " ++ reason
  | .timeout reason => "Timeout during operation: " ++ reason
  | .bootLayoutUnknown => "Unable to determine boot system type"
  | .command line reason => s!"Command '{line}' failed: {reason}"
  | .streamingFailed reason => "Streaming update failed: " ++ reason
  | .invalidState reason => "Invalid state for operation: " ++ reason
  | .cancelled reason => "Operation cancelled: " ++ reason
  | .invalidConfiguration reason => "Invalid configuration: " ++ reason
  | .serialization reason => "Serialization error: " ++ reason

def category : UpdateError → ErrorCategory
  | .invalidManifest _ | .invalidConfiguration _ | .offsetMismatch _ _ => .validation
  | .file _ _ | .serialization _ => .file
  | .missingFragment _ _ | .archive _ _ => .fragment
  | .integrity _ => .integrity
  | .insufficientSpace _ _ _ | .spaceUnavailable _ => .resource
  | .installFailed _ | .streamingFailed _ => .install
  | .timeout _ => .protocolTimeout
  | .bootLayoutUnknown => .classifierUnknown
  | .command _ _ => .process
  | .invalidState _ | .cancelled _ => .state

/-- The code for a request that fails with this error. -/
def requestCode : UpdateError → RequestCode
  | .insufficientSpace _ _ _ => .invalidSize
  | _ => .encounteredError

/-- The code for a chunk that fails with this error. -/
def dataCode : UpdateError → DataCode
  | .offsetMismatch _ _ => .invalidOffset
  | .integrity _ => .hashError
  | _ => .invalidData

end UpdateError

end DeviceUpdate
