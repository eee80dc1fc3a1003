import Dispatch.Job.Access
/-!
Following jobs: their status, their start and their end, and the lists of jobs and queues.
-/
namespace Dispatch.Job

def cancelAtPlace (job : Job) : Service Unit := do
  match job.handle with
  | none => pure ()
  | some handle =>
    let place ← job.place
    Service.backend (place.cancel handle)
  let now ← Service.ask .now
  let _ ← Service.store (.transitionJob job.id .cancelled now)

/-- Cancels a job; one that has ended is left as it is. -/
def cancel (key id : String) : Service Unit := do
  let caller ← Session.authorize key
  let job ← load id
  Service.ofExcept (requireOwner caller job "cancel")
  if job.status.isTerminal then return
  Session.within key s!"cancel {id}" .tasks (fun _ => none) job.cancelAtPlace

/-- Asks the place for the status, and moves the job on. -/
def observe (job : Job) : Service Status := do
  match job.handle with
  | none => throw (.system s!"Job {job.id} has no backend handle")
  | some handle =>
    let place ← job.place
    let observed ← Service.backend (place.status handle)
    let now ← Service.ask .now
    Service.store (.transitionJob job.id observed now)

/-- The status of a job, fresh from its place. A job that has ended or that is being asked about has the
status that is stored. -/
def refresh (id : String) : Service Status := do
  let job ← load id
  if job.status.isTerminal then return job.status
  if ← Service.ask (.claim id) then
    let result ← Service.attempt job.observe
    Service.ask (.release id)
    Service.ofExcept result
  else return job.status

/-- When a job started running, if it has. -/
def startTime (key id : String) : Service (Option Instant) := do
  let caller ← Session.authorize key
  let job ← load id
  Service.ofExcept (requireOwner caller job "inspect")
  match job.startedAt, job.handle with
  | some startedAt, _ => return some startedAt
  | none, none => return none
  | none, some handle =>
    let place ← job.place
    Service.backend (place.startTime handle)

/-- The queues of a machine, or those of the wanted name. -/
def queues (key machine : String) (wanted : Option String) : Service (List Batch.Queue) := do
  let caller ← Session.authorize key
  let (_, place) ← placeFor machine caller.user.id ""
  Service.backend (place.queues wanted)

/-- The jobs of the caller, the oldest first. -/
def list (key : String) : Service (List Job) := do
  let caller ← Session.authorize key
  let jobs ← Service.store (.jobsOf caller.user.id)
  return jobs.mergeSort isListedBefore

/-- Refreshes jobs one after the other, and counts those that have ended. A failure concerns one job
alone. -/
def refreshAll : List Job → Service Nat
  | [] => return 0
  | job :: rest => do
    let status ← Service.attempt (refresh job.id)
    let ended := status.toOption.any Status.isTerminal
    return (← refreshAll rest) + (if ended then 1 else 0)

/-- One pass over all jobs that have not ended. -/
def monitor : Service Nat := do
  refreshAll (← Service.store .unfinishedJobs)

end Dispatch.Job
