import Dispatch.Identifier.Mint
import Dispatch.Job.Access
/-!
Submitting a job. A job gets its identifier before the place is asked, and is stored whatever comes of
it: a failed submission leaves a failed job with the text of the failure.
-/
namespace Dispatch.Job

/-- A file in a directory, or as it is if there is no directory. -/
def fileIn (workingDir : Option String) (file : String) : String :=
  match workingDir with
  | none => file
  | some dir => onChars (Text.dropEndWhile (· = '/')) dir ++ "/" ++ file

/-- The options as the place gets them: the home of the account as working directory, and in it files
named for the job. -/
def Options.complete (options : Options) (id : String) (home : Option String) : Options :=
  let workingDir := options.workingDir.or (home.filter fun dir => !dir.isEmpty)
  { options with
    workingDir
    outputPath := options.outputPath.or (some (fileIn workingDir s!"{id}.out"))
    errorPath := options.errorPath.or (some (fileIn workingDir s!"{id}.err")) }

/-- The home of a user on a machine. -/
def homeOn (machine user : String) : Service (Option String) := do
  return (← Service.store (.findLocalAccount user machine)).map LocalAccount.home

/-- The job as the place took it. -/
def accept (job : Job) (submitted : Submitted) : Job :=
  { job with
    handle := some submitted.handle
    vmId := submitted.vmId
    name := submitted.name
    status := submitted.status
    outputPath := submitted.outputPath.or job.outputPath
    errorPath := submitted.errorPath.or job.errorPath }

/-- The job as it is stored when the place refused it. -/
def reject (job : Job) (failure : Failure) (instant : Instant) : Job :=
  { job with status := .failed, finishedAt := some instant, error := some failure.message }

/-- Stores the job as the place left it. -/
def recordSubmission (job : Job) (result : Except Failure Submitted) : Service Job := do
  match result with
  | .ok submitted =>
    let accepted := job.accept submitted
    Service.store (.insertJob accepted)
    return accepted
  | .error failure =>
    let now ← Service.ask .now
    Service.store (.insertJob (job.reject failure now))
    throw failure

/-- The submission itself, for a caller that has passed the gate. -/
def submitFor (mint : Identifier.Mint) (caller : Caller) (machine script : String) (options : Options) :
    Service Job := do
  let owner := caller.user.id
  let (found, place) ← placeFor machine owner ""
  let site := if found.site.isEmpty then none else some found.site
  let id ← mint.next .job options.name site
  let home ← if options.workingDir.isNone then homeOn machine owner else pure none
  let options := options.complete id home
  let submittedAt ← Service.ask .now
  let job : Job := {
    id
    machine
    handle := none
    vmId := none
    name := options.name.getD (Script.stem script)
    status := .submitted
    outputPath := options.outputPath
    errorPath := options.errorPath
    backendParams := options.specificParams
    owner
    session := caller.session.id
    submittedAt
    startedAt := none
    finishedAt := none
    error := none }
  let result ← Service.attempt (Service.backend (place.submit script options))
  recordSubmission job result

def submit (mint : Identifier.Mint) (key machine script : String) (options : Options) : Service Job := do
  let caller ← Session.authorize key
  Session.within key s!"submit {script} on {machine}" .tasks (fun job => some job.id)
    (submitFor mint caller machine script options)

end Dispatch.Job
