import Dispatch.Plan
/-!
The gate that every operation of a session passes, and the history of what sessions do.
-/
namespace Dispatch

/-- A session that passed the gate, with the user it acts as. -/
structure Caller where
  session : Session
  user : User
  deriving DecidableEq, Repr, Inhabited

namespace Caller

def isAdmin (caller : Caller) : Bool := caller.user.isAdmin

def requireAdmin (caller : Caller) (operation : String) : Except Failure Unit :=
  if caller.isAdmin then .ok ()
  else .error (.permissionDenied s!"{operation} requires admin privilege")

end Caller

namespace User

/-- A user must be active and have a lasting password to do anything. -/
def validate (user : User) : Except Failure Unit :=
  if !user.isActive then .error (.userLocked user.id)
  else if user.passwordState = .temporary then .error (.temporaryPassword user.id)
  else .ok ()

end User

namespace Session

/-- The session with that key. -/
def load (key : String) : Service Session := do
  match ← Service.store (.findSession key) with
  | some session => return session
  | none => throw .sessionNotFound

/-- The session must be active and its user allowed to work; nothing is written. -/
def authorize (key : String) : Service Caller := do
  let session ← load key
  if !session.isActive then throw .sessionExpired
  match ← Service.store (.findUser session.user) with
  | none => throw (.unknownUser session.user)
  | some user =>
    Service.ofExcept user.validate
    return { session, user }

def check (key : String) : Service Unit := do
  let _ ← authorize key

/-- Notes that a command has started, and answers the number of its entry. -/
def startCommand (key description : String) (category : History.Category) : Service Nat := do
  check key
  let startedAt ← Service.ask .now
  Service.store (.insertEntry {
    number := 0, session := key, description, category, status := .running, object := none, startedAt,
    endedAt := none })

/-- The latest entry of a running command with that description. -/
def lastRunning? (entries : List History.Entry) (description : String) : Option History.Entry :=
  entries.reverse.find? fun entry => entry.isRunning && entry.description == description

/-- Refreshes the activity of the session and notes that a command has ended: the latest running entry
with the same description is completed, or a new entry is written. -/
def record (key description : String) (category : History.Category) (status : History.Status)
    (object : Option String) : Service Unit := do
  let now ← Service.ask .now
  let _ ← Service.store (.touchSession key now)
  let entries ← Service.store (.entriesOf key)
  match lastRunning? entries description with
  | some entry => Service.store (.updateEntry { entry with status, object, endedAt := some now })
  | none =>
    let _ ← Service.store (.insertEntry {
      number := 0, session := key, description, category, status, object, startedAt := now,
      endedAt := some now })

/-- As `record`, for a session that has to pass the gate first. -/
def finishCommand (key description : String) (category : History.Category) (status : History.Status)
    (object : Option String) : Service Unit := do
  check key
  record key description category status object

/-- Runs a command between its start and its end in the history. The object is what a success made. -/
def within (key description : String) (category : History.Category) (object : α → Option String)
    (command : Service α) : Service α := do
  let _ ← startCommand key description category
  let result ← Service.attempt command
  record key description category (History.Status.ofResult result) (result.toOption.bind object)
  Service.ofExcept result

def hasRunningCommand (key : String) : Service Bool := do
  return (← Service.store (.entriesOf key)).any History.Entry.isRunning

end Session

end Dispatch
