import Dispatch.Backend.Place
import Dispatch.Session.Gate
/-!
Who may do what with a job, and the place that a job is at.
-/
namespace Dispatch.Job

def load (id : String) : Service Job := do
  match ← Service.store (.findJob id) with
  | some job => return job
  | none => throw (.unknownJob id)

/-- A job belongs to its owner; admins may act on all. -/
def requireOwner (caller : Caller) (job : Job) (operation : String) : Except Failure Unit :=
  if job.owner = caller.user.id ∨ caller.isAdmin then .ok ()
  else .error (.permissionDenied s!"Only the owner of {job.id} or an admin may {operation} it")

def machineOf (id : String) : Service Machine := do
  match ← Service.ask (.machine id) with
  | some machine => return machine
  | none => throw (.unknownMachine id)

/-- The machine and its place, for a user who acts by the account there if there is one. -/
def placeFor (machine user params : String) : Service (Machine × Backend) := do
  let found ← machineOf machine
  let account ← Service.store (.findLocalAccount user machine)
  return (found, found.backend (account.map LocalAccount.login) params)

/-- The place of a job that has been submitted, for its owner and with its parameters, whoever asks. -/
def place (job : Job) : Service Backend := do
  return (← placeFor job.machine job.owner job.backendParams).2

end Dispatch.Job
