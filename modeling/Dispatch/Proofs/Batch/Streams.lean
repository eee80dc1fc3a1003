import Dispatch.Job.Submission
import Dispatch.Proofs.Backend.Delivery
/-!
Where a scheduler is told to write the output and the errors of a job. The submission command is read as its program
reads it: options with the word behind them come first, and a path is followed from where the command is run.
-/
namespace Dispatch

open Shell

namespace Job

/-- What a job writes. -/
inductive Stream
  | output
  | error
  deriving DecidableEq

namespace Stream

/-- The option of all schedulers that tells where to write it. -/
def flag : Stream → String
  | output => "-o"
  | error => "-e"

def suffix : Stream → String
  | output => ".out"
  | error => ".err"

/-- Where it is to be written. -/
def wanted (stream : Stream) (options : Options) : Option String :=
  match stream with
  | output => options.outputPath
  | error => options.errorPath

/-- Where it is said to be. -/
def stored (stream : Stream) (job : Job) : Option String :=
  match stream with
  | output => job.outputPath
  | error => job.errorPath

/-- What it is copied to. -/
def copied (stream : Stream) (copies : Output) : String :=
  match stream with
  | output => copies.outputPath
  | error => copies.errorPath

/-- Where it goes if nobody says otherwise. -/
def path (stream : Stream) (workingDir : Option String) (id : String) : String :=
  fileIn workingDir (id ++ stream.suffix)

theorem wanted_complete (stream : Stream) {options : Options} (id : String) (home : Option String)
    (unset : stream.wanted options = none) :
    stream.wanted (options.complete id home) = some (stream.path (options.complete id home).workingDir id) := by
  cases stream with
  | output | error =>
    simp only [wanted] at unset
    simp [wanted, Options.complete, path, suffix, unset, toString]

end Stream

end Job

namespace Batch.Scheduler

open Job

/-- The options that have a word of their own behind them. -/
def valued : Scheduler → List String
  | slurm => ["-J", "-p", "-N", "-c", "-t", "-o", "-e"]
  | pbs | sge => ["-N", "-q", "-l", "-o", "-e"]

/-- The value of an option, the last one if there are several. Options end at the first word that is none. -/
def given? (valued : List String) (wanted : String) : List Token → Option (List Char)
  | .word flag :: .word value :: rest =>
    if String.ofList flag ∈ valued then
      (given? valued wanted rest).or (if String.ofList flag = wanted then some value else none)
    else if flag.head? = some '-' then given? valued wanted (.word value :: rest)
    else none
  | _ => none

section Given

variable {known : List String} {wanted flag : String}

theorem given?_flagged (member : flag ∈ known) (value : Option String) (rest : List String) :
    given? known wanted (tokens (flagged flag value ++ rest)) =
      (given? known wanted (tokens rest)).or (if flag = wanted then value.map String.toList else none) := by
  cases value with
  | none => simp [flagged]
  | some text => simp [flagged, tokens, given?, member]

/-- An option without a value makes no difference. -/
theorem given?_single (other : flag ∉ known) (dashed : flag.toList.head? = some '-') (rest : List String) :
    given? known wanted (tokens (flag :: rest)) = given? known wanted (tokens rest) := by
  cases rest with
  | nil => rfl
  | cons word rest => simp [tokens, given?, other, dashed]

theorem given?_script (script : String) : given? known wanted (tokens [script]) = none := rfl

end Given

/-- What the program of a submission command is told to do with a stream. -/
def told? (scheduler : Scheduler) (stream : Stream) (tokens : List Token) : Option (List Char) :=
  given? scheduler.valued stream.flag tokens.tail

/-- Memory is asked for in one word. -/
theorem given?_memory (stream : Stream) (count : Int32) (rest : List String) :
    given? (valued slurm) stream.flag
        (tokens (((positive? count).map fun count => "--mem=" ++ count ++ "M").toList ++ rest)) =
      given? (valued slurm) stream.flag (tokens rest) := by
  cases positive? count with
  | none => rfl
  | some digits =>
    apply given?_single
    · simp [valued, String.ext_iff]
    · simp

/-- The program is told what the options say. -/
theorem told?_submitWords (scheduler : Scheduler) (stream : Stream) (options : Options) (script : String) :
    scheduler.told? stream (tokens (scheduler.submitWords options ++ [script])) =
      (stream.wanted options).map String.toList := by
  have tail (word : String) (words : List String) : (tokens (word :: words)).tail = tokens words := rfl
  have parsable : "--parsable" ∉ valued slurm := by decide
  have terse : "-terse" ∉ valued sge := by decide
  have cwd : "-cwd" ∉ valued sge := by decide
  cases scheduler with
  | slurm =>
    simp only [told?, submitWords, List.append_assoc, List.cons_append, List.nil_append, tail]
    rw [given?_single parsable rfl]
    simp (disch := decide) only [given?_flagged, given?_memory, given?_script]
    cases stream <;> simp [Stream.flag, Stream.wanted]
  | pbs =>
    simp only [told?, submitWords, List.append_assoc, List.cons_append, List.nil_append, tail]
    simp (disch := decide) only [given?_flagged, given?_script]
    cases stream <;> simp [Stream.flag, Stream.wanted]
  | sge =>
    simp only [told?, submitWords, List.append_assoc, List.cons_append, List.nil_append, tail]
    rw [given?_single terse rfl, given?_single cwd rfl]
    simp (disch := decide) only [given?_flagged, given?_script]
    cases stream <;> simp [Stream.flag, Stream.wanted]

variable {Dir : Type} (tree : FileTree Dir) (home : Dir)

/-- The file that a stream is written to, if commands are run from a home. -/
def writes? (scheduler : Scheduler) (stream : Stream) : Action → Option (File Dir)
  | .execute command workingDir background =>
    (split (commandLine command workingDir background)).bind fun tokens =>
      (tree.goes? home tokens).bind fun (place, rest) =>
        (scheduler.told? stream rest).bind fun path => tree.file? place path
  | _ => none

/-- A submission command has a stream written to the path of the options, followed from the working directory. -/
theorem writes?_submitCommand (scheduler : Scheduler) (stream : Stream) (script : String) (options : Options)
    (workingDir : Option String) :
    scheduler.writes? tree home stream (.execute (scheduler.submitCommand script options) workingDir false) =
      (tree.enters? home workingDir).bind fun place =>
        (stream.wanted options).bind fun path => tree.file? place path.toList := by
  rw [writes?, split_foreground workingDir (scheduler.spells_submitCommand script options), Option.bind_some,
    tree.goes?_enterTokens home workingDir (Backend.head?_submitWords scheduler options script)]
  cases tree.enters? home workingDir with
  | none => rfl
  | some place =>
    simp only [Option.map_some, Option.bind_some]
    rw [told?_submitWords, Option.bind_map]
    rfl

end Batch.Scheduler

end Dispatch
