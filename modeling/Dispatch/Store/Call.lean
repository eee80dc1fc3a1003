import Dispatch.Store.Tables
/-!
The calls to the store, each of them one indivisible step, and what each answers.
-/
namespace Dispatch.Store

inductive Call
  | openTransaction
  | commit (transaction : Nat)
  | rollback (transaction : Nat)
  | reserve (transaction : Nat) (kind : Identifier.Kind)
  | isTaken (kind : Identifier.Kind) (id : String)
  | assign (kind : Identifier.Kind) (key : Nat) (id : String)
  | insertUser (user : User)
  | findUser (id : String)
  | insertLocalAccount (account : LocalAccount)
  | findLocalAccount (user machine : String)
  | insertAuthAccount (account : AuthAccount)
  | authAccountsOf (user : String)
  | setAuthAccounts (system : String) (standing : Standing)
  | insertSession (session : Session)
  | findSession (key : String)
  | findSessionWithId (id : String)
  | updateSession (session : Session)
  | touchSession (key : String) (instant : Instant)
  | activeSessions
  | insertEntry (entry : History.Entry)
  | updateEntry (entry : History.Entry)
  | entriesOf (session : String)
  | insertJob (job : Job)
  | findJob (id : String)
  | updateJob (job : Job)
  | transitionJob (id : String) (next : Job.Status) (instant : Instant)
  | jobsOf (owner : String)
  | unfinishedJobs
  | insertAuthSystem (system : AuthSystem)
  | findAuthSystem (id : String)
  | updateAuthSystem (system : AuthSystem)
  | authSystems
  deriving DecidableEq, Repr

namespace Call

/-- What a call that succeeds answers. -/
@[reducible] def Answer : Call → Type
  | openTransaction => Nat
  | commit _ => Unit
  | rollback _ => Unit
  | reserve .. => Nat
  | isTaken .. => Bool
  | assign .. => Unit
  | insertUser _ => Unit
  | findUser _ => Option User
  | insertLocalAccount _ => Unit
  | findLocalAccount .. => Option LocalAccount
  | insertAuthAccount _ => Unit
  | authAccountsOf _ => List AuthAccount
  | setAuthAccounts .. => Nat
  | insertSession _ => Unit
  | findSession _ => Option Session
  | findSessionWithId _ => Option Session
  | updateSession _ => Unit
  | touchSession .. => Bool
  | activeSessions => List Session
  | insertEntry _ => Nat
  | updateEntry _ => Unit
  | entriesOf _ => List History.Entry
  | insertJob _ => Unit
  | findJob _ => Option Job
  | updateJob _ => Unit
  | transitionJob .. => Job.Status
  | jobsOf _ => List Job
  | unfinishedJobs => List Job
  | insertAuthSystem _ => Unit
  | findAuthSystem _ => Option AuthSystem
  | updateAuthSystem _ => Unit
  | authSystems => List AuthSystem

end Call

/-- The answer of the store and the tables after the call. -/
def Tables.answer (tables : Tables) : (call : Call) → Except Fault call.Answer × Tables
  | .openTransaction => let (number, tables) := tables.openTransaction; (.ok number, tables)
  | .commit transaction => tables.commit transaction
  | .rollback transaction => tables.rollback transaction
  | .reserve transaction kind => tables.reserve transaction kind
  | .isTaken kind id => (.ok (tables.isTaken kind id), tables)
  | .assign kind key id => tables.assign kind key id
  | .insertUser user => tables.insertUser user
  | .findUser id => (.ok (tables.user? id), tables)
  | .insertLocalAccount account => (.ok (), tables.insertLocalAccount account)
  | .findLocalAccount user machine => (.ok (tables.localAccount? user machine), tables)
  | .insertAuthAccount account => (.ok (), tables.insertAuthAccount account)
  | .authAccountsOf user => (.ok (tables.authAccountsOf user), tables)
  | .setAuthAccounts system standing =>
    let (count, tables) := tables.setAuthAccounts system standing; (.ok count, tables)
  | .insertSession session => tables.insertSession session
  | .findSession key => (.ok (tables.session? key), tables)
  | .findSessionWithId id => (.ok (tables.sessionWithId? id), tables)
  | .updateSession session => tables.updateSession session
  | .touchSession key instant => tables.touchSession key instant
  | .activeSessions => (.ok tables.activeSessions, tables)
  | .insertEntry entry => let (number, tables) := tables.insertEntry entry; (.ok number, tables)
  | .updateEntry entry => tables.updateEntry entry
  | .entriesOf session => (.ok (tables.entriesOf session), tables)
  | .insertJob job => tables.insertJob job
  | .findJob id => (.ok (tables.job? id), tables)
  | .updateJob job => tables.updateJob job
  | .transitionJob id next instant => tables.transitionJob id next instant
  | .jobsOf owner => (.ok (tables.jobsOf owner), tables)
  | .unfinishedJobs => (.ok tables.unfinishedJobs, tables)
  | .insertAuthSystem system => tables.insertAuthSystem system
  | .findAuthSystem id => (.ok (tables.authSystem? id), tables)
  | .updateAuthSystem system => tables.updateAuthSystem system
  | .authSystems => (.ok tables.authSystems, tables)

end Dispatch.Store
