import Dispatch.Batch.Scheduler
/-!
Job scripts: the portable variables they may use, and where they are put on the remote host.
-/
namespace Dispatch.Script

/-- The portable variables of a job script. -/
inductive Variable
  | jobId
  | jobName
  | nodeCount
  deriving DecidableEq, Repr

namespace Variable

def all : List Variable := [jobId, jobName, nodeCount]

def name : Variable → List Char
  | jobId => "GRID_JOB_ID".toList
  | jobName => "GRID_JOB_NAME".toList
  | nodeCount => "GRID_JOB_NUM_NODES".toList

end Variable

/-- What a backend puts in place of the portable variables. -/
structure Meaning where
  jobId : String
  jobName : String
  nodeCount : String
  deriving DecidableEq, Repr

namespace Meaning

def text (meaning : Meaning) : Variable → List Char
  | .jobId => meaning.jobId.toList
  | .jobName => meaning.jobName.toList
  | .nodeCount => meaning.nodeCount.toList

end Meaning

/-- Letters, digits and underscores continue the name of a variable. -/
def continuesName (c : Char) : Bool := c.isAlphanum || c = '_'

/-- Replaces a dollar sign with the name, unless the name goes on. The first `skip` characters belong to
a name that has been read. -/
def replaceBareFrom (name insert : List Char) : (skip : Nat) → List Char → List Char
  | _, [] => []
  | skip + 1, _ :: rest => replaceBareFrom name insert skip rest
  | 0, c :: rest =>
    if c = '$' then
      match Text.after? name rest with
      | some after =>
        if after.head?.any continuesName then '$' :: replaceBareFrom name insert 0 rest
        else insert ++ replaceBareFrom name insert name.length rest
      | none => '$' :: replaceBareFrom name insert 0 rest
    else c :: replaceBareFrom name insert 0 rest

def replaceBare (name insert text : List Char) : List Char := replaceBareFrom name insert 0 text

/-- The name in braces after a dollar sign. -/
def braced (name : List Char) : List Char := '$' :: '\x7b' :: name ++ ['\x7d']

/-- One variable: first in braces, then bare. -/
def replaceVariable (meaning : Meaning) (text : List Char) (portable : Variable) : List Char :=
  let insert := meaning.text portable
  replaceBare portable.name insert (Text.replace (braced portable.name) insert text)

/-- One variable after the other. -/
def rewriteChars (meaning : Meaning) (text : List Char) : List Char :=
  Variable.all.foldl (replaceVariable meaning) text

def rewrite (meaning : Meaning) (script : String) : String := onChars (rewriteChars meaning) script

/-- The directory without slashes at its end, or the present one. -/
def directory (workingDir : Option String) : String :=
  match (workingDir.map (onChars (Text.dropEndWhile (· = '/')))).filter fun dir => !dir.isEmpty with
  | some dir => dir
  | none => "."

/-- A number as 32 hexadecimal digits. -/
def hex32 (number : Nat) : String :=
  let digits := Nat.toDigits 16 (number % Nat.pow 2 128)
  String.ofList (List.replicate (32 - digits.length) '0' ++ digits)

/-- Where a script is uploaded to; the number makes the name unique. -/
def remotePath (workingDir : Option String) (number : Nat) : String :=
  s!"{directory workingDir}/gridplane-{hex32 number}.sh"

/-- Read, write and execute for the owner alone. -/
def mode : Int32 := 0o700

/-- The name of a job without one: the file name of its script, without the last extension. -/
def stem (path : String) : String :=
  let components := (Text.fields '/' path.toList).filter fun part => !part.isEmpty && part ≠ ['.']
  match components.getLast? with
  | none => "job"
  | some file =>
    if file = ['.', '.'] then "job"
    else
      match (Text.cut? '.' file.reverse) with
      | some (_, []) => String.ofList file
      | some (_, start) => String.ofList start.reverse
      | none => String.ofList file

end Dispatch.Script

namespace Dispatch.Batch.Scheduler

/-- The variables that a scheduler sets for its jobs. -/
def meaning : Scheduler → Script.Meaning
  | slurm =>
    { jobId := "$SLURM_JOB_ID", jobName := "$SLURM_JOB_NAME", nodeCount := "$SLURM_JOB_NUM_NODES" }
  | pbs =>
    { jobId := "$PBS_JOBID", jobName := "$PBS_JOBNAME", nodeCount := "$(sort -u $PBS_NODEFILE | wc -l)" }
  | sge => { jobId := "$JOB_ID", jobName := "$JOB_NAME", nodeCount := "$NHOSTS" }

end Dispatch.Batch.Scheduler

namespace Dispatch.Cloud

/-- In a virtual machine the shell itself knows: the job is its process. -/
def meaning : Script.Meaning :=
  { jobId := "$$"
    jobName := "$(ps -o comm= -p $$)"
    nodeCount := "$(wc -l $\x7bGRID_JOB_NODEFILE\x7d | cut -d' ' -f1)" }

end Dispatch.Cloud
