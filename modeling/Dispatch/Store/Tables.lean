import Dispatch.Directory.AuthSystem
import Dispatch.Identifier.Kind
import Dispatch.Job.Record
import Dispatch.Session.Record
import Dispatch.Store.Fault
/-!
The tables of the store. Counters run on even if a transaction is rolled back, rows reserved in a
transaction appear when it is committed, a closed session stays closed, and a job changes its status only
as the life of jobs allows.
-/
namespace Dispatch.Store

/-- A row that holds a counter value, and the identifier stamped on it if there is one. -/
structure Placeholder where
  kind : Identifier.Kind
  key : Nat
  id : Option String
  deriving DecidableEq, Repr, Inhabited

/-- An open transaction with the rows reserved in it. -/
structure Transaction where
  number : Nat
  reserved : List (Identifier.Kind × Nat)
  deriving DecidableEq, Repr, Inhabited

/-- Jobs and authentication systems are in the order of their identifiers, history entries in the order
of their numbers, all other rows in the order of insertion. -/
structure Tables where
  counters : Identifier.Kind → Nat := fun _ => 0
  placeholders : List Placeholder := []
  transactions : List Transaction := []
  lastTransaction : Nat := 0
  users : List User := []
  localAccounts : List LocalAccount := []
  authAccounts : List AuthAccount := []
  sessions : List Session := []
  entries : List History.Entry := []
  lastEntry : Nat := 0
  jobs : List Job := []
  authSystems : List AuthSystem := []

namespace Tables

def openTransaction (tables : Tables) : Nat × Tables :=
  let number := tables.lastTransaction + 1
  (number, { tables with
    lastTransaction := number
    transactions := tables.transactions ++ [{ number, reserved := [] }] })

def transaction? (tables : Tables) (number : Nat) : Option Transaction :=
  tables.transactions.find? fun transaction => transaction.number == number

def endTransaction (tables : Tables) (number : Nat) : Tables :=
  { tables with
    transactions := tables.transactions.filter fun transaction => transaction.number ≠ number }

/-- Adds a row without an identifier, or takes the identifier off the row that is there. -/
def addPlaceholder (rows : List Placeholder) (kind : Identifier.Kind) (key : Nat) : List Placeholder :=
  (rows.filter fun row => !(row.kind == kind && row.key == key)) ++ [{ kind, key, id := none }]

def commit (tables : Tables) (number : Nat) : Except Fault Unit × Tables :=
  match tables.transaction? number with
  | none => (.error (.unknownTransaction number), tables)
  | some transaction =>
    let placeholders := transaction.reserved.foldl
      (fun rows (kind, key) => addPlaceholder rows kind key) tables.placeholders
    (.ok (), { tables.endTransaction number with placeholders })

def rollback (tables : Tables) (number : Nat) : Except Fault Unit × Tables :=
  match tables.transaction? number with
  | none => (.error (.unknownTransaction number), tables)
  | some _ => (.ok (), tables.endTransaction number)

/-- Takes the next counter value of a kind for a row that appears with the transaction. -/
def reserve (tables : Tables) (number : Nat) (kind : Identifier.Kind) : Except Fault Nat × Tables :=
  match tables.transaction? number with
  | none => (.error (.unknownTransaction number), tables)
  | some _ =>
    let key := tables.counters kind + 1
    let counters := fun other => if other = kind then key else tables.counters other
    let transactions := tables.transactions.map fun transaction =>
      if transaction.number = number then
        { transaction with reserved := transaction.reserved ++ [(kind, key)] }
      else transaction
    (.ok key, { tables with counters, transactions })

/-- Whether an object of the kind has the identifier, by a stamp or by a row of its own. -/
def isTaken (tables : Tables) (kind : Identifier.Kind) (id : String) : Bool :=
  (tables.placeholders.any fun row => row.kind == kind && row.id == some id) ||
    match kind with
    | .user => tables.users.any fun user => user.id == id
    | .job => tables.jobs.any fun job => job.id == id
    | .authSystem => tables.authSystems.any fun system => system.id == id
    | .machine | .fileTransfer | .work => false

/-- Stamps an identifier on a row. Whether it is taken is for the caller to know. -/
def assign (tables : Tables) (kind : Identifier.Kind) (key : Nat) (id : String) :
    Except Fault Unit × Tables :=
  if tables.placeholders.any fun row => row.kind == kind && row.key == key then
    let placeholders := tables.placeholders.map fun row =>
      if row.kind = kind ∧ row.key = key then { row with id := some id } else row
    (.ok (), { tables with placeholders })
  else (.error (.missing kind.table (toString key)), tables)

def user? (tables : Tables) (id : String) : Option User := tables.users.find? fun user => user.id == id

def insertUser (tables : Tables) (user : User) : Except Fault Unit × Tables :=
  if (tables.user? user.id).isSome then (.error (.duplicate "users" user.id), tables)
  else (.ok (), { tables with users := tables.users ++ [user] })

/-- A user has one account on a machine, the last one given. -/
def insertLocalAccount (tables : Tables) (account : LocalAccount) : Tables :=
  let others := tables.localAccounts.filter fun other =>
    !(other.user == account.user && other.machine == account.machine)
  { tables with localAccounts := others ++ [account] }

def localAccount? (tables : Tables) (user machine : String) : Option LocalAccount :=
  tables.localAccounts.find? fun account => account.user == user && account.machine == machine

def insertAuthAccount (tables : Tables) (account : AuthAccount) : Tables :=
  { tables with authAccounts := tables.authAccounts ++ [account] }

def authAccountsOf (tables : Tables) (user : String) : List AuthAccount :=
  tables.authAccounts.filter fun account => account.user == user

/-- Changes all accounts of a system and tells how many there are. -/
def setAuthAccounts (tables : Tables) (system : String) (standing : Standing) : Nat × Tables :=
  let authAccounts := tables.authAccounts.map fun account =>
    if account.system = system then { account with standing } else account
  ((tables.authAccounts.filter fun account => account.system == system).length,
    { tables with authAccounts })

def session? (tables : Tables) (key : String) : Option Session :=
  tables.sessions.find? fun session => session.key == key

def sessionWithId? (tables : Tables) (id : String) : Option Session :=
  tables.sessions.find? fun session => session.id == id

def sessionTable : String := "vsession"

/-- Neither the key nor the identifier may be in use. -/
def insertSession (tables : Tables) (session : Session) : Except Fault Unit × Tables :=
  if (tables.session? session.key).isSome || (tables.sessionWithId? session.id).isSome then
    (.error (.duplicate sessionTable session.id), tables)
  else (.ok (), { tables with sessions := tables.sessions ++ [session] })

def replaceSession (tables : Tables) (session : Session) : Tables :=
  { tables with
    sessions := tables.sessions.map fun row => if row.key = session.key then session else row }

/-- A closed session is not made active again. -/
def updateSession (tables : Tables) (session : Session) : Except Fault Unit × Tables :=
  match tables.session? session.key with
  | none => (.error (.missing sessionTable session.id), tables)
  | some row =>
    if row.state = .closed ∧ session.state = .active then (.error (.sessionClosed session.id), tables)
    else (.ok (), tables.replaceSession session)

/-- Sets the last activity of an active session; false for a closed one. -/
def touchSession (tables : Tables) (key : String) (instant : Instant) : Except Fault Bool × Tables :=
  match tables.session? key with
  | none => (.error (.missing sessionTable key), tables)
  | some row =>
    if row.state = .active then
      (.ok true, tables.replaceSession { row with lastActivityAt := instant })
    else (.ok false, tables)

def activeSessions (tables : Tables) : List Session := tables.sessions.filter Session.isActive

/-- The entry gets the next number, whatever number it came with. -/
def insertEntry (tables : Tables) (entry : History.Entry) : Nat × Tables :=
  let number := tables.lastEntry + 1
  (number, { tables with lastEntry := number, entries := tables.entries ++ [{ entry with number }] })

def updateEntry (tables : Tables) (entry : History.Entry) : Except Fault Unit × Tables :=
  if tables.entries.any fun row => row.number == entry.number then
    let entries := tables.entries.map fun row => if row.number = entry.number then entry else row
    (.ok (), { tables with entries })
  else (.error (.missing "command" (toString entry.number)), tables)

def entriesOf (tables : Tables) (session : String) : List History.Entry :=
  tables.entries.filter fun entry => entry.session == session

/-- Puts a row in its place among rows that are in the order of their identifiers. -/
def insertInOrder (id : α → String) (row : α) : List α → List α
  | [] => [row]
  | other :: rest => if id row < id other then row :: other :: rest else other :: insertInOrder id row rest

def job? (tables : Tables) (id : String) : Option Job := tables.jobs.find? fun job => job.id == id

def insertJob (tables : Tables) (job : Job) : Except Fault Unit × Tables :=
  if (tables.job? job.id).isSome then (.error (.duplicate "job" job.id), tables)
  else (.ok (), { tables with jobs := insertInOrder Job.id job tables.jobs })

def replaceJob (tables : Tables) (job : Job) : Tables :=
  { tables with jobs := tables.jobs.map fun row => if row.id = job.id then job else row }

def updateJob (tables : Tables) (job : Job) : Except Fault Unit × Tables :=
  match tables.job? job.id with
  | none => (.error (.missing "job" job.id), tables)
  | some _ => (.ok (), tables.replaceJob job)

/-- Moves a job on if its status allows it, and tells the status it has then. -/
def transitionJob (tables : Tables) (id : String) (next : Job.Status) (instant : Instant) :
    Except Fault Job.Status × Tables :=
  match tables.job? id with
  | none => (.error (.missing "job" id), tables)
  | some job =>
    if job.status.canBecome next then (.ok next, tables.replaceJob (job.moveTo next instant))
    else (.ok job.status, tables)

def jobsOf (tables : Tables) (owner : String) : List Job :=
  tables.jobs.filter fun job => job.owner == owner

def unfinishedJobs (tables : Tables) : List Job :=
  tables.jobs.filter fun job => !job.status.isTerminal

def authSystem? (tables : Tables) (id : String) : Option AuthSystem :=
  tables.authSystems.find? fun system => system.id == id

def insertAuthSystem (tables : Tables) (system : AuthSystem) : Except Fault Unit × Tables :=
  if (tables.authSystem? system.id).isSome then (.error (.duplicate "authsystem" system.id), tables)
  else (.ok (), { tables with authSystems := insertInOrder AuthSystem.id system tables.authSystems })

def updateAuthSystem (tables : Tables) (system : AuthSystem) : Except Fault Unit × Tables :=
  match tables.authSystem? system.id with
  | none => (.error (.missing "authsystem" system.id), tables)
  | some _ =>
    let authSystems := tables.authSystems.map fun row => if row.id = system.id then system else row
    (.ok (), { tables with authSystems })

end Tables

end Dispatch.Store
