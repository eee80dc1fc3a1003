import Dispatch.Store.Fault
import Dispatch.Backend.Fault
/-!
What an operation of the control plane answers when it fails, whichever layer the cause lies in.
-/
namespace Dispatch

inductive Failure
  | invalidParameter (details : String)
  | permissionDenied (details : String)
  | unknownUser (user : String)
  | unknownSessionId (session : String)
  | sessionNotFound
  | sessionExpired
  | userLocked (user : String)
  | temporaryPassword (user : String)
  | commandRunning (session : String)
  | unknownJob (job : String)
  | unknownMachine (machine : String)
  | unknownAuthSystem (id : String)
  | authSystemExists (id : String)
  | authSystemLocked (id : String)
  | connection (host details : String)
  | refused (host details : String)
  | transfer (details : String)
  | backend (name details : String)
  | system (details : String)
  deriving DecidableEq, Repr, Inhabited

namespace Failure

def message : Failure → String
  | invalidParameter details => s!"Invalid parameter: {details}"
  | permissionDenied details => s!"Permission denied: {details}"
  | unknownUser user => s!"Unknown user: {user}"
  | unknownSessionId session => s!"Unknown session id: {session}"
  | sessionNotFound => "Session not found"
  | sessionExpired => "Session expired"
  | userLocked user => s!"User {user} is locked"
  | temporaryPassword user => s!"User {user} has a temporary password"
  | commandRunning session => s!"A command is still running in session {session}"
  | unknownJob job => s!"Unknown job id: {job}"
  | unknownMachine machine => s!"Unknown machine: {machine}"
  | unknownAuthSystem id => s!"Unknown authentication system: {id}"
  | authSystemExists id => s!"Authentication system already exists: {id}"
  | authSystemLocked id => s!"Authentication system already locked: {id}"
  | connection host details => s!"Connection to {host} failed: {details}"
  | refused host details => s!"Authentication on {host} failed: {details}"
  | transfer details => s!"Transfer failed: {details}"
  | backend name details => s!"Backend {name} failed: {details}"
  | system details => s!"System error: {details}"

/-- Whether the same call may succeed later. -/
def isTransient : Failure → Bool
  | connection .. => true
  | _ => false

/-- The table of sessions, whose missing rows are sessions not found. -/
def sessionTable : String := "vsession"

def ofStore : Store.Fault → Failure
  | .sessionClosed _ => sessionExpired
  | .missing table key =>
    if table = sessionTable then sessionNotFound else system (Store.Fault.missing table key).message
  | fault => system fault.message

def ofShell : Shell.Fault → Failure
  | .connection host details => connection host details
  | .refused host _ details => refused host details
  | .transfer path details => transfer (Shell.Fault.transfer path details).message
  | .commandFailed command exitCode stderr =>
    backend "RemoteShell" (Shell.Fault.commandFailed command exitCode stderr).message
  | .localFile path details => system (Shell.Fault.localFile path details).message

def ofBackend (fault : Backend.Fault) : Failure :=
  match fault with
  | .invalidParameter details => invalidParameter details
  | .remote cause => ofShell cause
  | .scheduler name _ => backend name fault.message
  | .invalidConfig name _ => backend name fault.message
  | .rpc .. => backend "Cloud" fault.message
  | .timeout .. => backend "Cloud" fault.message
  | .fileSystem _ => system fault.message
  | .internal _ => system fault.message

end Failure

end Dispatch
