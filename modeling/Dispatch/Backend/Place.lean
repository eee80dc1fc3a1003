import Dispatch.Batch.Frontend
import Dispatch.Cloud.Fleet
/-!
The places where jobs run, as one caller uses them: what each kind of place does to submit a job, to
watch it and to end it.
-/
namespace Dispatch

inductive Backend
  | batch (frontend : Batch.Frontend)
  | cloud (fleet : Cloud.Fleet)
  deriving DecidableEq, Repr

/-- The place that a machine stands for, for a caller with that login and a job with those parameters. -/
def Machine.backend (machine : Machine) (login : Option String) (params : String) : Backend :=
  match machine.platform with
  | .batch config => .batch (config.frontend login)
  | .cloud config => .cloud { base := config, params }

namespace Backend

/-- The name in messages. -/
def name : Backend → String
  | batch frontend => frontend.scheduler.title
  | cloud _ => Cloud.Config.backendName

def submit (backend : Backend) (script : String) (options : Job.Options) : Task Job.Submitted :=
  match backend with
  | batch frontend => frontend.submit script options
  | cloud fleet => fleet.submit script options

def cancel (backend : Backend) (handle : String) : Task Unit :=
  match backend with
  | batch frontend => frontend.cancel handle
  | cloud fleet => fleet.cancel handle

def status (backend : Backend) (handle : String) : Task Job.Status :=
  match backend with
  | batch frontend => frontend.status handle
  | cloud fleet => fleet.status handle

/-- When the job started running, if the place knows. -/
def startTime (backend : Backend) (handle : String) : Task (Option Instant) :=
  match backend with
  | batch frontend => frontend.startTime handle
  | cloud fleet => fleet.startTime handle

/-- A cloud has no queues. -/
def queues (backend : Backend) (wanted : Option String) : Task (List Batch.Queue) :=
  match backend with
  | batch frontend => frontend.queues wanted
  | cloud _ => return []

/-- Where the files of a job are. -/
def fileTarget (backend : Backend) (handle : String) : Except Fault Shell.Target :=
  match backend with
  | batch frontend => .ok frontend.target
  | cloud fleet => fleet.fileTarget handle

end Backend

end Dispatch
