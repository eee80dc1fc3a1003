import Dispatch.Session.Policy
/-!
Sessions, and the history of what was done in them.
-/
namespace Dispatch

namespace Session

inductive State
  | active
  | closed
  deriving DecidableEq, Repr, Inhabited

namespace State

def all : List State := [active, closed]

def name : State → String
  | active => "Active"
  | closed => "Closed"

def ofJson? (json : Json) : Option State := Json.asOneOf? all name json

def toJson (state : State) : Json := .string state.name

end State

end Session

/-- An authenticated caller. The key is the secret shown with every call, the identifier a public name.
An admin may act as another user. -/
structure Session where
  key : String
  id : String
  user : String
  authenticatedAs : String
  clientHost : String
  policy : ClosePolicy
  timeout : Option UInt64
  state : Session.State
  createdAt : Instant
  lastActivityAt : Instant
  closedAt : Option Instant
  deriving DecidableEq, Repr, Inhabited

namespace Session

def isActive (session : Session) : Bool := session.state = .active

/-- The session as it is stored once it is closed. -/
def close (session : Session) (instant : Instant) : Session :=
  { session with state := .closed, closedAt := some instant }

/-- Whether the session follows a timeout that has run out. -/
def isExpired (session : Session) (defaults : SessionDefaults) (now : Instant) : Bool :=
  if defaults.effective session.policy = .onTimeout then
    let timeout := min (session.timeout.getD defaults.timeout).toNat (Nat.pow 2 63 - 1)
    decide ((timeout : Int) < now.secondsSince session.lastActivityAt)
  else false

def toJson (session : Session) : Json :=
  .object [
    ("session_key", .string session.key),
    ("session_id", .string session.id),
    ("user_id", .string session.user),
    ("authenticated_as", .string session.authenticatedAs),
    ("client_host", .string session.clientHost),
    ("close_policy", session.policy.toJson),
    ("timeout", Json.ofOption (fun timeout => .nat timeout.toNat) session.timeout),
    ("state", session.state.toJson),
    ("created_at", Json.ofInstant session.createdAt),
    ("last_activity_at", Json.ofInstant session.lastActivityAt),
    ("closed_at", Json.ofOption Json.ofInstant session.closedAt)]

def ofJson? (json : Json) : Option Session := do
  let row ← Json.Row.open?
    ["session_key", "session_id", "user_id", "authenticated_as", "client_host", "close_policy", "timeout",
      "state", "created_at", "last_activity_at", "closed_at"] json
  let key ← row.required "session_key" Json.asString?
  let id ← row.required "session_id" Json.asString?
  let user ← row.required "user_id" Json.asString?
  let authenticatedAs ← row.required "authenticated_as" Json.asString?
  let clientHost ← row.required "client_host" Json.asString?
  let policy ← row.required "close_policy" ClosePolicy.ofJson?
  let timeout ← row.optional "timeout" Json.asUInt64?
  let state ← row.required "state" State.ofJson?
  let createdAt ← row.required "created_at" Json.asInstant?
  let lastActivityAt ← row.required "last_activity_at" Json.asInstant?
  let closedAt ← row.optional "closed_at" Json.asInstant?
  return {
    key, id, user, authenticatedAs, clientHost, policy, timeout, state, createdAt, lastActivityAt,
    closedAt }

end Session

namespace History

/-- The family of services a command belongs to: users and sessions, tasks and jobs, or files. -/
inductive Category
  | users
  | tasks
  | files
  deriving DecidableEq, Repr, Inhabited

namespace Category

def all : List Category := [users, tasks, files]

def name : Category → String
  | users => "Ums"
  | tasks => "Tms"
  | files => "Fms"

def ofJson? (json : Json) : Option Category := Json.asOneOf? all name json

def toJson (category : Category) : Json := .string category.name

end Category

inductive Status
  | running
  | success
  | failed
  deriving DecidableEq, Repr, Inhabited

namespace Status

def all : List Status := [running, success, failed]

def name : Status → String
  | running => "Running"
  | success => "Success"
  | failed => "Failed"

def ofJson? (json : Json) : Option Status := Json.asOneOf? all name json

def toJson (status : Status) : Json := .string status.name

/-- How an operation with this result went. -/
def ofResult : Except ε α → Status
  | .ok _ => success
  | .error _ => failed

end Status

/-- A command of a session: RUNNING from its start until it ends. -/
structure Entry where
  number : Nat
  session : String
  description : String
  category : Category
  status : Status
  object : Option String
  startedAt : Instant
  endedAt : Option Instant
  deriving DecidableEq, Repr, Inhabited

namespace Entry

def isRunning (entry : Entry) : Bool := entry.status = .running

def toJson (entry : Entry) : Json :=
  .object [
    ("id", .nat entry.number),
    ("session_key", .string entry.session),
    ("description", .string entry.description),
    ("category", entry.category.toJson),
    ("status", entry.status.toJson),
    ("object_id", Json.ofOption .string entry.object),
    ("started_at", Json.ofInstant entry.startedAt),
    ("ended_at", Json.ofOption Json.ofInstant entry.endedAt)]

def ofJson? (json : Json) : Option Entry := do
  let row ← Json.Row.open?
    ["id", "session_key", "description", "category", "status", "object_id", "started_at", "ended_at"] json
  let number ← row.required "id" Json.asNat?
  let session ← row.required "session_key" Json.asString?
  let description ← row.required "description" Json.asString?
  let category ← row.required "category" Category.ofJson?
  let status ← row.required "status" Status.ofJson?
  let object ← row.optional "object_id" Json.asString?
  let startedAt ← row.required "started_at" Json.asInstant?
  let endedAt ← row.optional "ended_at" Json.asInstant?
  return { number, session, description, category, status, object, startedAt, endedAt }

end Entry

end History

end Dispatch
