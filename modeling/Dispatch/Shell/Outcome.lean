import Dispatch.Json.Record
import Dispatch.Shell.Fault
import Dispatch.Text.Numeral
/-!
What came of a remote command.
-/
namespace Dispatch.Shell

inductive Outcome
  | completed (exitCode : Int32) (stdout stderr : String)
  | detached (pid : UInt32)
  deriving DecidableEq, Repr, Inhabited

namespace Outcome

/-- The standard output of a command that succeeded; a detached one has none. -/
def stdout (outcome : Outcome) (command : String) : Except Fault String :=
  match outcome with
  | completed exitCode stdout stderr =>
    if exitCode = 0 then .ok stdout
    else .error (.commandFailed command exitCode (onChars Text.trim stderr))
  | detached _ => .ok ""

def pid? : Outcome → Option UInt32
  | completed .. => none
  | detached pid => some pid

/-- A detached command has nothing but its process id. -/
def toJson : Outcome → Json
  | completed exitCode stdout stderr =>
    .object [("exit_code", .int exitCode.toInt), ("stdout", .string stdout), ("stderr", .string stderr)]
  | detached pid => .object [("pid", .nat pid.toNat)]

/-- What is missing of a completed command is zero or empty. -/
def ofJson? (json : Json) : Option Outcome := do
  let row ← Json.Row.open? ["exit_code", "stdout", "stderr", "pid"] json
  match ← row.optional "pid" Json.asUInt32? with
  | some pid => return detached pid
  | none =>
    let exitCode ← row.optional "exit_code" Json.asInt32?
    let stdout ← row.optional "stdout" Json.asString?
    let stderr ← row.optional "stderr" Json.asString?
    return completed (exitCode.getD 0) (stdout.getD "") (stderr.getD "")

end Outcome

/-- The process id that a command in the background printed on its first line that is not blank. -/
def readPid (command stdout : String) : Except Fault UInt32 :=
  match (Text.firstFilledLine? stdout.toList).bind Text.readUInt32? with
  | some pid => .ok pid
  | none =>
    .error (.commandFailed command 0 s!"no process id in output '{onChars Text.trim stdout}'")

end Dispatch.Shell
