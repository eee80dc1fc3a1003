import Dispatch.Job.Status
/-!
Jobs: what a caller asks for, what a backend answers, and what is stored.
-/
namespace Dispatch

namespace Job

/-- Counts of zero or less leave the choice to the backend. -/
structure Options where
  name : Option String := none
  queue : Option String := none
  workingDir : Option String := none
  outputPath : Option String := none
  errorPath : Option String := none
  nodes : Option UInt32 := none
  cpus : Int32 := 0
  memory : Int32 := 0
  wallTime : Option UInt64 := none
  specificParams : String := ""
  deriving DecidableEq, Repr, Inhabited

namespace Options

def toJson (options : Options) : Json :=
  .object [
    ("name", Json.ofOption .string options.name),
    ("queue", Json.ofOption .string options.queue),
    ("working_dir", Json.ofOption .string options.workingDir),
    ("output_path", Json.ofOption .string options.outputPath),
    ("error_path", Json.ofOption .string options.errorPath),
    ("nb_nodes", Json.ofOption (fun nodes => .nat nodes.toNat) options.nodes),
    ("nb_cpu", .int options.cpus.toInt),
    ("memory", .int options.memory.toInt),
    ("wall_time", Json.ofOption (fun seconds => .nat seconds.toNat) options.wallTime),
    ("specific_params", .string options.specificParams)]

def ofJson? (json : Json) : Option Options := do
  let row ← Json.Row.open?
    ["name", "queue", "working_dir", "output_path", "error_path", "nb_nodes", "nb_cpu", "memory", "wall_time",
      "specific_params"] json
  let name ← row.optional "name" Json.asString?
  let queue ← row.optional "queue" Json.asString?
  let workingDir ← row.optional "working_dir" Json.asString?
  let outputPath ← row.optional "output_path" Json.asString?
  let errorPath ← row.optional "error_path" Json.asString?
  let nodes ← row.optional "nb_nodes" Json.asUInt32?
  let cpus ← row.required "nb_cpu" Json.asInt32?
  let memory ← row.required "memory" Json.asInt32?
  let wallTime ← row.optional "wall_time" Json.asUInt64?
  let specificParams ← row.required "specific_params" Json.asString?
  return { name, queue, workingDir, outputPath, errorPath, nodes, cpus, memory, wallTime, specificParams }

/-- What is missing is as in options that leave all open. -/
def ofSparseJson? (json : Json) : Option Options :=
  ofJson? (json.withDefaults
    [("nb_cpu", .nat 0), ("memory", .nat 0), ("specific_params", .string "")])

end Options

/-- What a backend answers to a submission. The handle is how the backend knows the job. -/
structure Submitted where
  handle : String
  vmId : Option String
  name : String
  outputPath : Option String
  errorPath : Option String
  status : Status
  deriving DecidableEq, Repr, Inhabited

namespace Submitted

def toJson (submitted : Submitted) : Json :=
  .object [
    ("handle", .string submitted.handle),
    ("vm_id", Json.ofOption .string submitted.vmId),
    ("name", .string submitted.name),
    ("output_path", Json.ofOption .string submitted.outputPath),
    ("error_path", Json.ofOption .string submitted.errorPath),
    ("status", submitted.status.toJson)]

def ofJson? (json : Json) : Option Submitted := do
  let row ← Json.Row.open? ["handle", "vm_id", "name", "output_path", "error_path", "status"] json
  let handle ← row.required "handle" Json.asString?
  let vmId ← row.optional "vm_id" Json.asString?
  let name ← row.required "name" Json.asString?
  let outputPath ← row.optional "output_path" Json.asString?
  let errorPath ← row.optional "error_path" Json.asString?
  let status ← row.required "status" Status.ofJson?
  return { handle, vmId, name, outputPath, errorPath, status }

end Submitted

/-- The local copies of the output and error files of a job. -/
structure Output where
  job : String
  outputPath : String
  errorPath : String
  deriving DecidableEq, Repr, Inhabited

namespace Output

def toJson (output : Output) : Json :=
  .object [
    ("job_id", .string output.job),
    ("output_path", .string output.outputPath),
    ("error_path", .string output.errorPath)]

def ofJson? (json : Json) : Option Output := do
  let row ← Json.Row.open? ["job_id", "output_path", "error_path"] json
  let job ← row.required "job_id" Json.asString?
  let outputPath ← row.required "output_path" Json.asString?
  let errorPath ← row.required "error_path" Json.asString?
  return { job, outputPath, errorPath }

end Output

end Job

/-- A job as it is stored. The handle is missing if the submission failed. -/
structure Job where
  id : String
  machine : String
  handle : Option String
  vmId : Option String
  name : String
  status : Job.Status
  outputPath : Option String
  errorPath : Option String
  backendParams : String
  owner : String
  session : String
  submittedAt : Instant
  startedAt : Option Instant
  finishedAt : Option Instant
  error : Option String
  deriving DecidableEq, Repr, Inhabited

namespace Job

/-- The job after a move to the given status, with the instants that the move sets. -/
def moveTo (job : Job) (next : Status) (instant : Instant) : Job :=
  { job with
    status := next
    startedAt := if next = .running && job.startedAt.isNone then some instant else job.startedAt
    finishedAt := if next.isTerminal && job.finishedAt.isNone then some instant else job.finishedAt }

/-- By the instant of submission, then by identifier. -/
def isListedBefore (job other : Job) : Bool :=
  job.submittedAt.isBefore other.submittedAt ||
    (job.submittedAt = other.submittedAt && decide (job.id ≤ other.id))

def toJson (job : Job) : Json :=
  .object [
    ("job_id", .string job.id),
    ("machine_id", .string job.machine),
    ("backend_handle", Json.ofOption .string job.handle),
    ("vm_id", Json.ofOption .string job.vmId),
    ("name", .string job.name),
    ("status", job.status.toJson),
    ("output_path", Json.ofOption .string job.outputPath),
    ("error_path", Json.ofOption .string job.errorPath),
    ("backend_params", .string job.backendParams),
    ("owner_user_id", .string job.owner),
    ("session_id", .string job.session),
    ("submitted_at", Json.ofInstant job.submittedAt),
    ("started_at", Json.ofOption Json.ofInstant job.startedAt),
    ("finished_at", Json.ofOption Json.ofInstant job.finishedAt),
    ("error_message", Json.ofOption .string job.error)]

def ofJson? (json : Json) : Option Job := do
  let row ← Json.Row.open?
    ["job_id", "machine_id", "backend_handle", "vm_id", "name", "status", "output_path", "error_path",
      "backend_params", "owner_user_id", "session_id", "submitted_at", "started_at", "finished_at",
      "error_message"] json
  let id ← row.required "job_id" Json.asString?
  let machine ← row.required "machine_id" Json.asString?
  let handle ← row.optional "backend_handle" Json.asString?
  let vmId ← row.optional "vm_id" Json.asString?
  let name ← row.required "name" Json.asString?
  let status ← row.required "status" Status.ofJson?
  let outputPath ← row.optional "output_path" Json.asString?
  let errorPath ← row.optional "error_path" Json.asString?
  let backendParams ← row.defaulted "backend_params" "" Json.asString?
  let owner ← row.required "owner_user_id" Json.asString?
  let session ← row.required "session_id" Json.asString?
  let submittedAt ← row.required "submitted_at" Json.asInstant?
  let startedAt ← row.optional "started_at" Json.asInstant?
  let finishedAt ← row.optional "finished_at" Json.asInstant?
  let error ← row.optional "error_message" Json.asString?
  return {
    id, machine, handle, vmId, name, status, outputPath, errorPath, backendParams, owner, session,
    submittedAt, startedAt, finishedAt, error }

end Job

end Dispatch
