import Dispatch.Batch.Scheduler
/-!
The queues of a batch scheduler.
-/
namespace Dispatch.Batch

namespace Queue

inductive State
  | started
  | notStarted
  | unknown
  deriving DecidableEq, Repr, Inhabited

namespace State

def all : List State := [started, notStarted, unknown]

def name : State → String
  | started => "Started"
  | notStarted => "NotStarted"
  | unknown => "Unknown"

def ofJson? (json : Json) : Option State := Json.asOneOf? all name json

def toJson (state : State) : Json := .string state.name

end State

end Queue

structure Queue where
  name : String
  state : Queue.State := .unknown
  nodes : Option UInt32 := none
  maxWallTime : Option String := none
  running : Option UInt32 := none
  queued : Option UInt32 := none
  isDefault : Bool := false
  deriving DecidableEq, Repr, Inhabited

namespace Queue

def toJson (queue : Queue) : Json :=
  .object [
    ("name", .string queue.name),
    ("state", queue.state.toJson),
    ("node_count", Json.ofOption (fun count => .nat count.toNat) queue.nodes),
    ("max_wall_time", Json.ofOption .string queue.maxWallTime),
    ("jobs_running", Json.ofOption (fun count => .nat count.toNat) queue.running),
    ("jobs_queued", Json.ofOption (fun count => .nat count.toNat) queue.queued),
    ("is_default", .bool queue.isDefault)]

def ofJson? (json : Json) : Option Queue := do
  let row ← Json.Row.open?
    ["name", "state", "node_count", "max_wall_time", "jobs_running", "jobs_queued", "is_default"] json
  let name ← row.required "name" Json.asString?
  let state ← row.required "state" State.ofJson?
  let nodes ← row.optional "node_count" Json.asUInt32?
  let maxWallTime ← row.optional "max_wall_time" Json.asString?
  let running ← row.optional "jobs_running" Json.asUInt32?
  let queued ← row.optional "jobs_queued" Json.asUInt32?
  let isDefault ← row.required "is_default" Json.asBool?
  return { name, state, nodes, maxWallTime, running, queued, isDefault }

/-- A line of four fields between bars: the name, with a star if it is the default queue, whether it is
up, its nodes and its time limit. -/
def ofSlurmLine? (line : List Char) : Option Queue :=
  let fields := Text.fields '|' (Text.trim line)
  match fields with
  | [] => none
  | [] :: _ => none
  | name :: rest =>
    let state : State :=
      match String.ofList ((rest[0]?).getD []) with
      | "up" => .started
      | "down" | "drain" | "inact" => .notStarted
      | _ => .unknown
    let limit := (rest[2]?).map String.ofList
    some {
      name := String.ofList (Text.dropEndWhile (· = '*') name)
      state
      nodes := (rest[1]?).bind Text.readUInt32?
      maxWallTime := limit.filter (· ≠ "infinite")
      isDefault := name.getLast? = some '*' }

/-- A line of columns: the name, in the fifth whether it is started, and then the jobs that wait and
those that run. -/
def ofPbsLine? (line : List Char) : Option Queue :=
  match Text.words line with
  | [] => none
  | name :: rest =>
    let state : State :=
      match (rest[3]?).map String.ofList with
      | some "yes" => .started
      | some "no" => .notStarted
      | _ => .unknown
    some {
      name := String.ofList name
      state
      queued := (rest[4]?).bind Text.readUInt32?
      running := (rest[5]?).bind Text.readUInt32? }

end Queue

namespace Scheduler

/-- Whether a line is the rule under the heading of a table. -/
def isRule (line : List Char) : Bool := Text.beginsWith ['-', '-', '-'] (Text.trimStart line)

def readQueues (scheduler : Scheduler) (stdout : String) : List Queue :=
  let lines := Text.lines stdout.toList
  match scheduler with
  | slurm => lines.filterMap Queue.ofSlurmLine?
  | pbs => ((lines.dropWhile fun line => !isRule line).drop 1).filterMap Queue.ofPbsLine?
  | sge =>
    ((lines.map Text.trim).filter fun line => !line.isEmpty).map fun name =>
      { name := String.ofList name, state := .started }

end Scheduler

end Dispatch.Batch
