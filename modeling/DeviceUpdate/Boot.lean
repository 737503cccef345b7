import DeviceUpdate.Command

/-!
# Boot layouts

A device has one system partition, and then updates through its recovery system, or two of them.
The bootloader's environment tells which. A definite answer is kept; without one the next question
is asked anew.
-/

namespace DeviceUpdate

inductive BootLayout where
  | unknown
  /-- one system partition, updated by the recovery system -/
  | single
  /-- two system partitions -/
  | dual
  deriving DecidableEq, Repr

namespace BootLayout

def text : BootLayout → String
  | .unknown => "unknown"
  | .single => "single"
  | .dual => "dual"

/-- The command that asks for the layout. -/
def query (timeout : Duration) : Command := ⟨"fw_printenv", ["-n", "dualboot"], some timeout⟩

/-- The layout that an answer to the query tells. The exit status does not count. -/
def ofAnswer : Answer → BootLayout
  | .error _ => .unknown
  | .ok output =>
    let value := output.trimmed
    if value.isEmpty then .unknown else if value = "yes" then .dual else .single

end BootLayout

/-- What is known of the boot layout, and whether somebody is asking for it right now. -/
structure Classifier where
  timeout : Duration
  known : Option BootLayout := none
  busy : Bool := false
  deriving DecidableEq, Repr

namespace Classifier

/-- The time for a query when nothing else is said. -/
def defaultTimeout : Duration := .ofSeconds 2

/-- A classifier that knows its answer, unless the layout is unknown. -/
def fixed (layout : BootLayout) : Classifier :=
  { timeout := defaultTimeout, known := if layout = .unknown then none else some layout }

/-- Keeps a definite answer, and lets the next caller ask. -/
def settle (c : Classifier) (layout : BootLayout) : Classifier :=
  { c with busy := false, known := if layout = .unknown then c.known else some layout }

end Classifier

end DeviceUpdate
