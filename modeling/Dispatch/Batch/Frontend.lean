import Dispatch.Backend.Staging
import Dispatch.Batch.Queue
import Dispatch.Batch.Report
import Dispatch.Machine.Config
/-!
The front-end of a cluster, where jobs are submitted, watched and cancelled by the commands of its
scheduler.
-/
namespace Dispatch.Batch

/-- A scheduler, and the account that its commands are run as. -/
structure Frontend where
  scheduler : Scheduler
  target : Shell.Target
  deriving DecidableEq, Repr, Inhabited

/-- Callers without a login act as the default user. -/
def Config.frontend (config : Config) (login : Option String) : Frontend :=
  { scheduler := config.scheduler
    target := {
      host := config.host, port := config.port, user := login.getD config.defaultUser,
      identity := config.identity } }

namespace Frontend

def execute (frontend : Frontend) (command : String) (workingDir : Option String) :
    Backend.Task Shell.Outcome :=
  Backend.Task.remote frontend.target (.execute command workingDir false)

/-- The output of a command that must succeed. -/
def outputOf (frontend : Frontend) (command : String) (workingDir : Option String) :
    Backend.Task String := do
  let outcome ← frontend.execute command workingDir
  match outcome.stdout command with
  | .ok stdout => return stdout
  | .error fault => throw (frontend.scheduler.fault fault.message)

/-- The job is known by the identifier that the scheduler printed. -/
def submit (frontend : Frontend) (script : String) (options : Job.Options) :
    Backend.Task Job.Submitted := do
  let scheduler := frontend.scheduler
  let text ← Script.stage script scheduler.meaning
  let path ← Script.upload frontend.target options.workingDir text
  let stdout ← frontend.outputOf (scheduler.submitCommand path options) options.workingDir
  let handle ← Backend.Task.ofExcept (scheduler.readSubmission stdout)
  return {
    handle
    vmId := none
    name := options.name.getD (Script.stem script)
    outputPath := options.outputPath
    errorPath := options.errorPath
    status := .submitted }

def cancel (frontend : Frontend) (handle : String) : Backend.Task Unit := do
  let _ ← frontend.outputOf (frontend.scheduler.cancelCommand handle) none

/-- The answer of the first command that knows the job; a job that none of them knows is completed. -/
def statusBy (frontend : Frontend) (handle : String) : List String → Backend.Task Job.Status
  | [] => return .completed
  | command :: rest => do
    let outcome ← frontend.execute command none
    match ← Backend.Task.ofExcept (frontend.scheduler.readStatus handle outcome) with
    | some status => return status
    | none => statusBy frontend handle rest

def status (frontend : Frontend) (handle : String) : Backend.Task Job.Status :=
  frontend.statusBy handle (frontend.scheduler.statusCommands handle)

/-- A command that fails tells no start. -/
def startTime (frontend : Frontend) (handle : String) : Backend.Task (Option Instant) := do
  let outcome ← frontend.execute (frontend.scheduler.startTimeCommand handle) none
  match outcome with
  | .completed exitCode stdout _ =>
    return if exitCode = 0 then frontend.scheduler.readStartTime? handle stdout else none
  | .detached _ => return none

/-- All queues, or those of the wanted name. -/
def queues (frontend : Frontend) (wanted : Option String) : Backend.Task (List Queue) := do
  let stdout ← frontend.outputOf frontend.scheduler.queuesCommand none
  let found := frontend.scheduler.readQueues stdout
  match wanted with
  | none => return found
  | some name => return found.filter fun queue => queue.name == name

end Frontend

end Dispatch.Batch
