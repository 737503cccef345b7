import DeviceUpdate.Attempt
import DeviceUpdate.Procedure
import DeviceUpdate.Simulation.Shell

/-!
# A device with a shell

Commands are run as programs on a machine, by the files it has.
-/

namespace DeviceUpdate.Simulation

/-- More steps than any script needs. -/
def scriptFuel : Nat := 1000000000

/-- Runs a command with no input and its messages dropped. What it put in the background is waited
for too, as it can still print. -/
def attempt (directories : List String) (c : Command) (fs : FileSystem) : Attempt × FileSystem :=
  if !Attempt.isSendable c then (.notStarted Attempt.nulFault, fs)
  else
    match Executable.find fs directories c.program c.arguments with
    | .error e => (.notStarted e, fs)
    | .ok i =>
      let limit := c.timeout.map Attempt.lastLook
      let (flow, s) := Shell.invoke scriptFuel i {} { files := fs, directories, limit }
      let status := match flow with
        | .killed _ => none
        | _ => some (Int.ofNat s.status)
      if flow = .stopped then (.givenUp, (Shell.runJobs scriptFuel s).files)
      else
        let s := Shell.runJobs scriptFuel { s with limit := none }
        (.ended status s.output, s.files)

/-- Answers an effect: commands are run, nothing else is there. -/
def deviceAnswer (directories : List String) (e : Effect) (fs : FileSystem) :
    Answer × FileSystem :=
  match e with
  | .run c =>
    let (a, fs) := attempt directories c fs
    (a.answer c, fs)
  | _ => (.ok (.ok ""), fs)

end DeviceUpdate.Simulation
