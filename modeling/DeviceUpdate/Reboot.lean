import DeviceUpdate.Procedure

/-!
# Restarting

The plan follows the boot layout. A restart into the recovery system first sets the flag that the
bootloader looks at.
-/

namespace DeviceUpdate

namespace RebootPlan

/-- The plan for a boot layout; an unknown layout has none. -/
def ofLayout? : BootLayout → Option RebootPlan
  | .dual => some .direct
  | .single => some .recovery
  | .unknown => none

def text : RebootPlan → String
  | .direct => "Direct"
  | .recovery => "Recovery"

end RebootPlan

namespace Reboot

def recoveryFlag (timeout : Duration) : Command :=
  ⟨"fw_setenv", ["boot_recovery", "yes"], some timeout⟩

/-- Restarts by a plan. Without the flag there is no restart into the recovery system. -/
def restart (timeout : Duration) : RebootPlan → Procedure (Except UpdateError Unit)
  | .direct => do
    let answer ← Procedure.ask (.restart .direct)
    return answer.map fun _ => ()
  | .recovery =>
    (Procedure.runExpecting (recoveryFlag timeout)).andThen fun _ => do
      let answer ← Procedure.ask (.restart .recovery)
      return answer.map fun _ => ()

end Reboot

end DeviceUpdate
