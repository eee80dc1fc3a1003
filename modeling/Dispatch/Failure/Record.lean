import Dispatch.Failure
import Dispatch.Json.Record
/-!
Faults and failures in records: the kind, and what the kind tells. In a name the layer stands before the
kind.
-/
namespace Dispatch

namespace Json.Row

def text (row : Row) (name : String) : Option String := row.required name asString?

end Json.Row

/-- A kind, and the fields of all kinds. -/
def readKind? (json : Json) : Option (String × Json.Row) := do
  let row ← Json.Row.open? [] json
  return (← row.text "kind", row)

namespace Store.Fault

def kind : Fault → String
  | unknownTransaction _ => "UnknownTransaction"
  | duplicate .. => "Duplicate"
  | missing .. => "Missing"
  | sessionClosed _ => "SessionClosed"
  | unavailable _ => "Poisoned"

def name (fault : Fault) : String := "StoreError." ++ fault.kind

def ofJson? (json : Json) : Option Fault := do
  let (kind, row) ← readKind? json
  match kind with
  | "UnknownTransaction" => return unknownTransaction (← row.required "txn" Json.asNat?)
  | "Duplicate" => return duplicate (← row.text "table") (← row.text "key")
  | "Missing" => return missing (← row.text "table") (← row.text "key")
  | "SessionClosed" => return sessionClosed (← row.text "details")
  | "Poisoned" => return unavailable (← row.text "details")
  | _ => none

end Store.Fault

namespace Shell.Fault

def kind : Fault → String
  | connection .. => "Connection"
  | refused .. => "Auth"
  | transfer .. => "Transfer"
  | commandFailed .. => "CommandFailed"
  | localFile .. => "LocalIo"

def name (fault : Fault) : String := "RemoteError." ++ fault.kind

def ofJson? (json : Json) : Option Fault := do
  let (kind, row) ← readKind? json
  match kind with
  | "Connection" => return connection (← row.text "host") (← row.text "details")
  | "Auth" => return refused (← row.text "host") (← row.text "user") (← row.text "details")
  | "Transfer" => return transfer (← row.text "path") (← row.text "details")
  | "LocalIo" => return localFile (← row.text "path") (← row.text "details")
  | "CommandFailed" =>
    return commandFailed (← row.text "command") (← row.required "exit_code" Json.asInt32?)
      (← row.text "stderr")
  | _ => none

end Shell.Fault

namespace Backend.Fault

/-- A remote cause has the name that it has by itself. -/
def name : Fault → String
  | invalidConfig .. => "BackendError.InvalidConfig"
  | invalidParameter _ => "BackendError.InvalidParameter"
  | scheduler .. => "BackendError.Scheduler"
  | rpc .. => "BackendError.Rpc"
  | timeout .. => "BackendError.Timeout"
  | remote cause => cause.name
  | fileSystem _ => "BackendError.FileSystemFailed"
  | internal _ => "BackendError.Internal"

def ofJson? (json : Json) : Option Fault := do
  let (kind, row) ← readKind? json
  match kind with
  | "InvalidConfig" => return invalidConfig (← row.text "backend") (← row.text "details")
  | "InvalidParameter" => return invalidParameter (← row.text "details")
  | "Scheduler" => return scheduler (← row.text "backend") (← row.text "details")
  | "Rpc" => return rpc (← row.text "method") (← row.text "details")
  | "Timeout" => return timeout (← row.text "what") (← row.required "attempts" Json.asUInt32?)
  | "Remote" => return remote (← row.required "remote" Shell.Fault.ofJson?)
  | "FileSystemFailed" => return fileSystem (← row.text "details")
  | "Internal" => return internal (← row.text "details")
  | _ => none

end Backend.Fault

namespace Failure

def kind : Failure → String
  | invalidParameter _ => "InvalidParameter"
  | permissionDenied _ => "PermissionDenied"
  | unknownUser _ => "UnknownUser"
  | unknownSessionId _ => "UnknownSessionId"
  | sessionNotFound => "SessionNotFound"
  | sessionExpired => "SessionExpired"
  | userLocked _ => "UserLocked"
  | temporaryPassword _ => "TemporaryPassword"
  | commandRunning _ => "CommandRunning"
  | unknownJob _ => "UnknownJobId"
  | unknownMachine _ => "UnknownMachine"
  | unknownAuthSystem _ => "UnknownAuthSystem"
  | authSystemExists _ => "AuthSystemAlreadyExists"
  | authSystemLocked _ => "AuthSystemAlreadyLocked"
  | connection .. => "Connection"
  | refused .. => "Auth"
  | transfer _ => "Transfer"
  | backend .. => "Backend"
  | system _ => "System"

def name (failure : Failure) : String := "GridError." ++ failure.kind

/-- One failure of every kind, with the given texts. -/
def all (details host backendName : String) : List Failure := [
  invalidParameter details, permissionDenied details, unknownUser details, unknownSessionId details,
  sessionNotFound, sessionExpired, userLocked details, temporaryPassword details, commandRunning details,
  unknownJob details, unknownMachine details, unknownAuthSystem details, authSystemExists details,
  authSystemLocked details, connection host details, refused host details, transfer details,
  backend backendName details, system details]

/-- Texts that are missing are empty. -/
def ofJson? (json : Json) : Option Failure := do
  let (kind, row) ← readKind? json
  let textOf (name : String) : String := (row.text name).getD ""
  (all (textOf "details") (textOf "host") (textOf "backend")).find? fun failure => failure.kind == kind

end Failure

end Dispatch
