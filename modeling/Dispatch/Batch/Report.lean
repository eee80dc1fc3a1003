import Dispatch.Batch.Scheduler
import Dispatch.Shell.Outcome
/-!
What the schedulers print, and what it tells: the identifier of a new job, the status of a job and the
instant it started.
-/
namespace Dispatch.Batch

/-- The text before the first separator. -/
def firstField (separator : Char) (line : List Char) : List Char :=
  ((Text.fields separator line).head?).getD line

/-- The value of a line of the form name = value. -/
def attribute? (name : String) (output : List Char) : Option (List Char) :=
  (Text.lines output).findSome? fun line =>
    match Text.cut? '=' line with
    | some (key, value) => if Text.trim key = name.toList then some (Text.trim value) else none
    | none => none

/-- The columns of the first row whose first column is the identifier. -/
def jobRow? (id : String) (output : List Char) : Option (List (List Char)) :=
  ((Text.lines output).map Text.words).find? fun columns => columns.head? = some id.toList

namespace Scheduler

/-- The identifier in the first line that is not blank: digits, or up to a full stop digits. Slurm may
add its cluster after a semicolon, PBS its server and SGE the range of tasks after a full stop. -/
def readSubmission (scheduler : Scheduler) (stdout : String) : Except Backend.Fault String :=
  match Text.firstFilledLine? stdout.toList with
  | none => .error (scheduler.fault "Submission printed no job id")
  | some line =>
    let id :=
      match scheduler with
      | slurm => firstField ';' line
      | pbs => line
      | sge => firstField '.' line
    let number := firstField '.' id
    if number.isEmpty || !number.all Text.isDigit then
      .error (scheduler.fault s!"Unexpected submission output '{String.ofList line}'")
    else .ok (String.ofList id)

def unknownState (scheduler : Scheduler) (code : String) : Except Backend.Fault Job.Status :=
  .error (scheduler.fault s!"Unknown job state '{code}'")

/-- The letters of an SGE code, tried in this order. -/
def readSgeCode? (code : List Char) : Option Job.Status :=
  if Text.beginsWith ['E'] code then some .failed
  else if Text.beginsWith ['d'] code then some .cancelled
  else if code.any fun c => c = 'h' || c = 's' || c = 'S' || c = 'T' then some .waiting
  else if code.any fun c => c = 'r' || c = 't' || c = 'R' then some .running
  else if Text.hasPart ['q', 'w'] code then some .queued
  else none

/-- The status that a code of the scheduler stands for. -/
def readCode (scheduler : Scheduler) (code : String) : Except Backend.Fault Job.Status :=
  match scheduler with
  | slurm =>
    match code with
    | "PENDING" | "REQUEUED" | "REQUEUE_HOLD" | "REQUEUE_FED" => .ok .queued
    | "CONFIGURING" => .ok .submitted
    | "SUSPENDED" | "STOPPED" | "PREEMPTED" | "RESV_DEL_HOLD" | "SIGNALING" => .ok .waiting
    | "RUNNING" | "COMPLETING" | "STAGE_OUT" | "RESIZING" => .ok .running
    | "COMPLETED" => .ok .completed
    | "CANCELLED" | "REVOKED" => .ok .cancelled
    | "FAILED" | "TIMEOUT" | "NODE_FAIL" | "OUT_OF_MEMORY" | "BOOT_FAIL" | "DEADLINE" => .ok .failed
    | code => scheduler.unknownState code
  | pbs =>
    match code with
    | "Q" => .ok .queued
    | "H" | "W" | "S" | "T" | "U" => .ok .waiting
    | "R" | "E" | "B" | "X" => .ok .running
    | "C" | "F" => .ok .completed
    | code => scheduler.unknownState code
  | sge =>
    match readSgeCode? code.toList with
    | some status => .ok status
    | none => scheduler.unknownState code

/-- Whether the scheduler says that it does not know the job. -/
def disowns (scheduler : Scheduler) (stderr : String) : Bool :=
  match scheduler with
  | slurm => Text.hasPart "Invalid job id".toList stderr.toList
  | pbs =>
    Text.hasPart "Unknown Job Id".toList stderr.toList ||
      Text.hasPart "Job has finished".toList stderr.toList
  | sge => false

/-- The status in the output of a status command that succeeded; none if the job is unknown. -/
def readStatusOutput (scheduler : Scheduler) (id stdout : String) :
    Except Backend.Fault (Option Job.Status) :=
  match scheduler with
  | slurm =>
    match (Text.words stdout.toList).head? with
    | some code => (scheduler.readCode (String.ofList code)).map some
    | none => .ok none
  | pbs =>
    match attribute? "job_state" stdout.toList with
    | some code => (scheduler.readCode (String.ofList code)).map some
    | none => .error (scheduler.fault s!"No job_state for {id}")
  | sge =>
    match jobRow? id stdout.toList with
    | none => .ok none
    | some columns =>
      match columns[4]? with
      | some code => (scheduler.readCode (String.ofList code)).map some
      | none => .error (scheduler.fault s!"Truncated qstat row for {id}")

/-- The status that a status command reports; none if the job is unknown. -/
def readStatus (scheduler : Scheduler) (id : String) :
    Shell.Outcome → Except Backend.Fault (Option Job.Status)
  | .detached _ => .error (scheduler.fault "Status command ran in background")
  | .completed exitCode stdout stderr =>
    if exitCode = 0 then scheduler.readStatusOutput id stdout
    else if scheduler.disowns stderr then .ok none
    else .error (scheduler.fault s!"Status query failed: {onChars Text.trim stderr}")

/-- Year, month and day, the letter T, and the time of day. -/
def slurmStamp : List Instant.Item :=
  [.number .year, .literal '-', .number .month, .literal '-', .number .day, .literal 'T', .number .hour,
    .literal ':', .number .minute, .literal ':', .number .second]

/-- Weekday, month and day by name, the time of day, and the year. -/
def pbsStamp : List Instant.Item :=
  [.weekdayName, .blanks, .monthName, .blanks, .number .day, .blanks, .number .hour, .literal ':',
    .number .minute, .literal ':', .number .second, .blanks, .number .year]

/-- Month, day and year between slashes, and the time of day. -/
def sgeStamp : List Instant.Item :=
  [.number .month, .literal '/', .number .day, .literal '/', .number .year, .blanks, .number .hour,
    .literal ':', .number .minute, .literal ':', .number .second]

/-- The instant a job started, if it has. Schedulers print it in UTC. -/
def readStartTime? (scheduler : Scheduler) (id stdout : String) : Option Instant :=
  match scheduler with
  | slurm => (Text.firstFilledLine? stdout.toList).bind (Instant.readPattern? slurmStamp)
  | pbs => do
    let value ← attribute? "start_time" stdout.toList
    Instant.readPattern? pbsStamp ([' '].intercalate (Text.words value))
  | sge => do
    let columns ← jobRow? id stdout.toList
    let state ← columns[4]?
    guard (state.contains 'r')
    let date ← columns[5]?
    let time ← columns[6]?
    Instant.readPattern? sgeStamp (date ++ ' ' :: time)

end Scheduler

end Dispatch.Batch
