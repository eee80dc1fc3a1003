import Dispatch.Backend.Fault
import Dispatch.Shell.Command
import Dispatch.Job.Record
/-!
The batch schedulers and the commands that they are driven with.
-/
namespace Dispatch.Batch

inductive Scheduler
  | slurm
  | pbs
  | sge
  deriving DecidableEq, Repr, Inhabited

namespace Scheduler

def all : List Scheduler := [slurm, pbs, sge]

def name : Scheduler → String
  | slurm => "SLURM"
  | pbs => "PBS"
  | sge => "SGE"

/-- The name in messages. -/
def title : Scheduler → String
  | slurm => "Slurm"
  | pbs => "PBS"
  | sge => "SGE"

def ofJson? (json : Json) : Option Scheduler := Json.asOneOf? all name json

def toJson (scheduler : Scheduler) : Json := .string scheduler.name

def fault (scheduler : Scheduler) (details : String) : Backend.Fault :=
  .scheduler scheduler.title details

/-- Hours, minutes and seconds with two digits each, hours with more when needed. -/
def clockText (seconds : Nat) : String :=
  String.ofList (Text.padded 2 (seconds / 3600) ++ ':' :: Text.padded 2 (seconds % 3600 / 60) ++
    ':' :: Text.padded 2 (seconds % 60))

/-- An option with a text that is quoted. -/
def quotedOption (flag : String) (value : Option String) : List String :=
  (value.map fun text => s!"{flag} {Shell.quote text}").toList

def countOption (flag : String) (value : Int32) (unit : String) : List String :=
  if 0 < value then [s!"{flag}{value}{unit}"] else []

def clockOption (flag : String) (seconds : Option UInt64) : List String :=
  (seconds.map fun seconds => s!"{flag}{clockText seconds.toNat}").toList

/-- The nodes of a PBS job, each with its processors. -/
def nodesOption (nodes : Option UInt32) (cpus : Int32) : List String :=
  match nodes with
  | none => []
  | some nodes =>
    if 0 < cpus then [s!"-l nodes={nodes}:ppn={cpus}"] else [s!"-l nodes={nodes}"]

/-- The submission command up to the script, in pieces. -/
def submitPieces (scheduler : Scheduler) (options : Job.Options) : List String :=
  match scheduler with
  | slurm =>
    ["sbatch --parsable"] ++ quotedOption "-J" options.name ++ quotedOption "-p" options.queue ++
      (options.nodes.map fun nodes => s!"-N {nodes}").toList ++ countOption "-c " options.cpus "" ++
      countOption "--mem=" options.memory "M" ++ clockOption "-t " options.wallTime ++
      quotedOption "-o" options.outputPath ++ quotedOption "-e" options.errorPath
  | pbs =>
    ["qsub"] ++ quotedOption "-N" options.name ++ quotedOption "-q" options.queue ++
      nodesOption options.nodes options.cpus ++ countOption "-l mem=" options.memory "mb" ++
      clockOption "-l walltime=" options.wallTime ++ quotedOption "-o" options.outputPath ++
      quotedOption "-e" options.errorPath
  | sge =>
    ["qsub -terse -cwd"] ++ quotedOption "-N" options.name ++ quotedOption "-q" options.queue ++
      clockOption "-l h_rt=" options.wallTime ++ countOption "-l h_vmem=" options.memory "M" ++
      quotedOption "-o" options.outputPath ++ quotedOption "-e" options.errorPath

/-- Submits a script that is on the front-end already. -/
def submitCommand (scheduler : Scheduler) (script : String) (options : Job.Options) : String :=
  " ".intercalate (scheduler.submitPieces options ++ [Shell.quote script])

/-- Asked one after the other for the status of a job. -/
def statusCommands (scheduler : Scheduler) (id : String) : List String :=
  match scheduler with
  | slurm =>
    [s!"squeue -h -j {Shell.quote id} -o %T", s!"sacct -n -X -P -j {Shell.quote id} -o State"]
  | pbs => [s!"qstat -f {Shell.quote id}"]
  | sge => ["qstat -u '*'"]

def cancelCommand (scheduler : Scheduler) (id : String) : String :=
  match scheduler with
  | slurm => s!"scancel {Shell.quote id}"
  | pbs | sge => s!"qdel {Shell.quote id}"

def startTimeCommand (scheduler : Scheduler) (id : String) : String :=
  match scheduler with
  | slurm => s!"sacct -n -X -P -j {Shell.quote id} -o Start"
  | pbs => s!"qstat -f {Shell.quote id}"
  | sge => "qstat -u '*'"

def queuesCommand : Scheduler → String
  | slurm => "sinfo -h -o '%P|%a|%D|%l'"
  | pbs => "qstat -Q"
  | sge => "qconf -sql"

/-- The names of a scheduler, and its commands for a job. -/
def summary (scheduler : Scheduler) (id : String) : Json :=
  .object [
    ("name", .string scheduler.title),
    ("display", .string scheduler.name),
    ("status", Json.ofList .string (scheduler.statusCommands id)),
    ("cancel", .string (scheduler.cancelCommand id)),
    ("start_time", .string (scheduler.startTimeCommand id)),
    ("queues", .string scheduler.queuesCommand)]

end Scheduler

end Dispatch.Batch
