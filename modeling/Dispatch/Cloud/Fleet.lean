import Dispatch.Batch.Queue
import Dispatch.Cloud.Launch
/-!
The virtual machines of a cloud endpoint, each of them running one job.
-/
namespace Dispatch.Cloud

/-- An endpoint, and the parameters that the job in question was submitted with. -/
structure Fleet where
  base : Config
  params : String := ""
  deriving DecidableEq, Repr, Inhabited

namespace Fleet

/-- The settings of the job. -/
def config (fleet : Fleet) : Backend.Task Config :=
  Backend.Task.ofExcept (fleet.base.withParams fleet.params)

def submit (fleet : Fleet) (script : String) (options : Job.Options) : Backend.Task Job.Submitted := do
  let config ← fleet.config
  let config ← Backend.Task.ofExcept (config.withParams options.specificParams)
  config.submit script options

def probeCommand (pid : UInt32) : String := s!"ps -o pid= -p {pid} | wc -l"

/-- The number of processes that a probe counted. -/
def readProbe (stdout : String) : Except Backend.Fault UInt32 :=
  let count := Text.trim stdout.toList
  match Text.readUInt32? count with
  | some alive => .ok alive
  | none =>
    .error (.scheduler Config.backendName s!"Unexpected process probe output '{String.ofList count}'")

/-- A job runs as long as its process does. When it is gone the machine is stopped, and only then the
job is completed. -/
def status (fleet : Fleet) (handle : String) : Backend.Task Job.Status := do
  let job ← Backend.Task.ofExcept (Handle.read handle)
  let vm ← Backend.Task.ofExcept (readVmId job.vmId)
  let config ← fleet.config
  let target := config.vmTarget job.vmUser job.vmAddress
  let command := probeCommand job.pid
  let outcome ← Backend.Task.remote target (.execute command none false)
  match outcome.stdout command with
  | .error fault => throw (.remote fault)
  | .ok stdout =>
    let alive ← Backend.Task.ofExcept (readProbe stdout)
    if 0 < alive then return .running
    config.act .stop vm
    return .completed

def cancel (fleet : Fleet) (handle : String) : Backend.Task Unit := do
  let vm ← Backend.Task.ofExcept (vmIdOf handle)
  let config ← fleet.config
  config.act .delete vm

def startTime (fleet : Fleet) (handle : String) : Backend.Task (Option Instant) := do
  let vm ← Backend.Task.ofExcept (vmIdOf handle)
  let config ← fleet.config
  return (← config.progress vm).startTime

/-- The machine itself. -/
def fileTarget (fleet : Fleet) (handle : String) : Except Backend.Fault Shell.Target := do
  let job ← Handle.read handle
  let config ← fleet.base.withParams fleet.params
  return config.vmTarget job.vmUser job.vmAddress

end Fleet

end Dispatch.Cloud
