import Dispatch.Session.Gate
import Dispatch.Session.Secret
/-!
Logging in: who a caller is, new sessions, and the way back to a session that is still active.
-/
namespace Dispatch

structure Credentials where
  user : String
  password : String
  deriving DecidableEq, Repr, Inhabited

/-- What a caller may choose for a new session. -/
structure ConnectOptions where
  policy : ClosePolicy := .default
  timeout : Option UInt64 := none
  substitute : Option String := none
  deriving DecidableEq, Repr, Inhabited

namespace ConnectOptions

/-- What is missing is left open. -/
def ofJson? (json : Json) : Option ConnectOptions := do
  let row ← Json.Row.open? ["policy", "timeout", "substitute"] json
  let policy ← row.optional "policy" ClosePolicy.ofJson?
  let timeout ← row.optional "timeout" Json.asUInt64?
  let substitute ← row.optional "substitute" Json.asString?
  return { policy := policy.getD .default, timeout, substitute }

end ConnectOptions

namespace Session

/-- Whether an authentication system vouches for the password. One that fails does not, and neither does
one that is not active or gone. -/
def isVouchedBy (account : AuthAccount) (password : String) : Service Bool := do
  if account.standing ≠ .active then return false
  match ← Service.store (.findAuthSystem account.system) with
  | none => return false
  | some system =>
    if !system.isActive then return false
    let verdict ← Service.ask (.verify system account.login password)
    return verdict.toOption.getD false

/-- Asks the systems of the accounts in order, up to the first that vouches. -/
def isVouchedByAny : List AuthAccount → String → Service Bool
  | [], _ => return false
  | account :: rest, password => do
    if ← isVouchedBy account password then return true
    isVouchedByAny rest password

/-- The user whom the credentials prove: by the password of the user, or else by an account. -/
def authenticate (credentials : Credentials) : Service User := do
  match ← Service.store (.findUser credentials.user) with
  | none => throw (.unknownUser credentials.user)
  | some user =>
    if user.passwordMatches credentials.password then return user
    let accounts ← Service.store (.authAccountsOf user.id)
    if ← isVouchedByAny accounts credentials.password then return user
    throw (.unknownUser credentials.user)

/-- The user a session is to act as. Only an admin may act as someone else. -/
def actingUser (user : User) (substitute : Option String) : Service String := do
  match substitute with
  | none => return user.id
  | some other =>
    if other = user.id then return user.id
    if !user.isAdmin then
      throw (.permissionDenied s!"{user.id} may not connect as {other}")
    match ← Service.store (.findUser other) with
    | some acting => return acting.id
    | none => throw (.unknownUser other)

/-- How many identifiers are tried for a new session. -/
def idAttempts : Nat := 8

def unusedId (user : String) (instant : Instant) : (left : Nat) → Service String
  | 0 => throw (.system s!"Could not generate a free session id for {user}")
  | left + 1 => do
    let tail ← Service.ask (.number idTails)
    let candidate := newId user instant tail
    match ← Service.store (.findSessionWithId candidate) with
    | none => return candidate
    | some _ => unusedId user instant left

/-- Opens a session. -/
def connect (defaults : SessionDefaults) (credentials : Credentials) (clientHost : String)
    (options : ConnectOptions) : Service Session := do
  let user ← authenticate credentials
  if !user.isActive then throw (.userLocked user.id)
  let acting ← actingUser user options.substitute
  let (policy, timeout) := defaults.mode options.policy options.timeout
  let now ← Service.ask .now
  let nonce ← Service.ask .nonce
  let tail ← Service.ask (.number keyTails)
  let id ← unusedId acting now idAttempts
  let session : Session := {
    key := newKey user.id now nonce tail
    id
    user := acting
    authenticatedAs := user.id
    clientHost
    policy
    timeout
    state := .active
    createdAt := now
    lastActivityAt := now
    closedAt := none }
  Service.store (.insertSession session)
  return session

/-- Whether a session belongs to a user at a host. -/
def belongsTo (session : Session) (user : User) (clientHost : String) : Bool :=
  session.clientHost == clientHost && (session.user == user.id || session.authenticatedAs == user.id)

/-- Hands back an active session: to an admin any, to others their own from the host it was opened from.
Whoever may not have it learns no reason. -/
def reconnect (credentials : Credentials) (clientHost id : String) : Service Session := do
  match ← Service.store (.findUser credentials.user) with
  | none => throw (.unknownUser credentials.user)
  | some user =>
    match ← Service.store (.findSessionWithId id) with
    | none => throw (.unknownSessionId id)
    | some session =>
      if !session.isActive then throw .sessionExpired
      let authenticated ← Service.attempt (authenticate credentials)
      let isProven ←
        match authenticated with
        | .ok _ => pure true
        | .error (.unknownUser _) => pure false
        | .error failure => throw failure
      if !(isProven && (user.isAdmin || session.belongsTo user clientHost)) then
        throw .sessionNotFound
      let now ← Service.ask .now
      if ← Service.store (.touchSession session.key now) then
        return { session with lastActivityAt := now }
      throw .sessionExpired

end Session

end Dispatch
