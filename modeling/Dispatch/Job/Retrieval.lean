import Dispatch.Job.Access
/-!
Fetching the output of jobs: both files or none.
-/
namespace Dispatch.Job

/-- A path without the host that schedulers may put before a colon. -/
def withoutHost (path : String) : String :=
  match Text.cut? ':' path.toList with
  | some (host, rest) =>
    if host.isEmpty || host.contains '/' then path else String.ofList rest
  | none => path

/-- A new local file for the output of a job. -/
def stagingFile (id suffix : String) : Service String := do
  match ← Service.ask (.stage id suffix) with
  | .ok path => return path
  | .error cause => throw (.system s!"Failed to create staging file: {cause}")

/-- Fetches one file, and the other only if that succeeded. -/
def fetchBoth (target : Shell.Target) (outputPath errorPath : String) (copies : Output) :
    Service (Except Shell.Fault Unit) := do
  match ← Service.ask (.remote target (.fetch outputPath copies.outputPath)) with
  | .ok _ => Service.ask (.remote target (.fetch errorPath copies.errorPath))
  | .error fault => return .error fault

/-- Fetches the output of a job. A completed job is then a downloaded one. -/
def retrieve (job : Job) : Service Output := do
  match job.outputPath, job.errorPath, job.handle with
  | some outputPath, some errorPath, some handle =>
    let place ← job.place
    let target ← Service.backend (Backend.Task.ofExcept (place.fileTarget handle))
    let localOutput ← stagingFile job.id ".out"
    let localError ← stagingFile job.id ".err"
    let copies : Output := { job := job.id, outputPath := localOutput, errorPath := localError }
    match ← fetchBoth target (withoutHost outputPath) (withoutHost errorPath) copies with
    | .error fault =>
      Service.ask (.discard localOutput)
      Service.ask (.discard localError)
      throw (Failure.ofShell fault)
    | .ok _ =>
      if job.status = .completed then
        let now ← Service.ask .now
        let _ ← Service.store (.transitionJob job.id .downloaded now)
      return copies
  | _, _, _ => throw (.unknownJob job.id)

def output (key id : String) : Service Output := do
  let caller ← Session.authorize key
  let job ← load id
  Service.ofExcept (requireOwner caller job "retrieve the output of")
  Session.within key s!"get output {id}" .files (fun _ => none) job.retrieve

/-- The output of those jobs whose retrieval succeeds. -/
def retrieveAll : List Job → Service (List Output)
  | [] => return []
  | job :: rest => do
    let result ← Service.attempt job.retrieve
    return result.toOption.toList ++ (← retrieveAll rest)

def hasFiles (job : Job) : Bool := job.outputPath.isSome && job.errorPath.isSome

def outputsCommand : String := "get completed jobs output"

/-- The output of all jobs of the caller that have files, whatever their status. -/
def outputs (key : String) : Service (List Output) := do
  let caller ← Session.authorize key
  let _ ← Session.startCommand key outputsCommand .files
  let jobs ← Service.store (.jobsOf caller.user.id)
  let found ← retrieveAll (jobs.filter hasFiles)
  Session.record key outputsCommand .files .success none
  return found

end Dispatch.Job
