import Dispatch.Proofs.Server.Footprint
import Dispatch.Proofs.Session.Authentication
/-!
The standing of those who get a session. A new session is opened for active users only. On the way back to a
session nobody asks for the standing of the user: whoever can prove to be a user that is locked or deleted, and
is an admin or the owner, gets the key of a session that is active.
-/
namespace Dispatch

open Plan

/-- Whether there is a user with that identifier, and the user is active. -/
def Store.Tables.hasActiveUser (tables : Store.Tables) (id : String) : Bool :=
  (tables.user? id).any User.isActive

namespace Session

variable {verifier : Verifier} {shared last : Shared}

/-- Nobody's standing changes while someone logs in. -/
theorem users_of_login {α : Type} {service : Service α} (asks : Asks Request.isOfLogin service)
    {result : Except Failure α} (ended : Finishes (Shared.AnswersWith verifier) service shared result last) :
    last.tables.users = shared.tables.users := by
  refine asks.invariant (fun state => state.tables.users = shared.tables.users) ended ?_ rfl
  intro state next request reply member answered same
  rw [← same]
  cases request with
  | store call =>
    obtain ⟨_, rfl⟩ := answered
    cases call with
    | findUser | authAccountsOf | findAuthSystem | findSessionWithId => rfl
    | insertSession session =>
      simp only [Store.Tables.answer, Store.Tables.insertSession]
      split <;> rfl
    | touchSession key instant =>
      simp only [Store.Tables.answer, Store.Tables.touchSession]
      split
      next => rfl
      next => split <;> rfl
    | _ => cases member
  | verify => rw [answered.2]
  | now | nonce | number => rw [show next = state from answered]
  | _ => cases member

/-- A new session is for a user who is active. -/
theorem active_of_connect {defaults : SessionDefaults} {credentials : Credentials} {clientHost : String}
    {options : ConnectOptions} {session : Session}
    (connected : Finishes (Shared.AnswersWith verifier) (connect defaults credentials clientHost options) shared
      (.ok session) last) : shared.tables.hasActiveUser credentials.user = true := by
  unfold connect at connected
  obtain ⟨user, authenticated, rest⟩ := ((reads_authenticate credentials).andThen session).mp connected
  obtain ⟨active, _⟩ := (finishes_guard_ok session).mp rest
  unfold Store.Tables.authenticated at authenticated
  split at authenticated
  next found =>
    cases authenticated
    rw [Store.Tables.hasActiveUser, (Option.filter_eq_some_iff.mp found).1]
    simpa using active
  next => cases authenticated

/-- What is asked of one who wants to come back to a session, beside the proof of being a user: the session is
active, also under its key, and belongs to the user unless the user is an admin. -/
def MayReturnTo (tables : Store.Tables) (user : User) (clientHost id : String) : Prop :=
  ∃ session, tables.sessionWithId? id = some session ∧ session.isActive = true ∧
    (tables.session? session.key).any isActive = true ∧
    (user.isAdmin || session.belongsTo user clientHost) = true

theorem mapError_eq_ok {α ε φ : Type} (result : Except ε α) (convert : ε → φ) (value : α) :
    result.mapError convert = .ok value ↔ result = .ok value := by
  cases result with
  | ok found =>
    constructor
    · intro same
      cases same
      rfl
    · intro same
      cases same
      rfl
  | error cause => exact ⟨nofun, nofun⟩

theorem touchSession_iff (tables : Store.Tables) (key : String) (now : Instant) :
    (tables.touchSession key now).1 = .ok true ↔ (tables.session? key).any isActive = true := by
  unfold Store.Tables.touchSession
  cases found : tables.session? key with
  | none => simp
  | some row => by_cases active : row.state = .active <;> simp [isActive, active]

theorem succeeds_returnTo (session : Session) (isAllowed : Bool) :
    Succeeds (Shared.AnswersWith verifier) (returnTo session isAllowed) shared ↔
      isAllowed = true ∧ (shared.tables.session? session.key).any isActive = true := by
  unfold returnTo
  rw [succeeds_guard]
  refine and_congr (by simp) ⟨?_, fun active => ?_⟩
  · rintro ⟨result, last, ended⟩
    obtain ⟨now, middle, asked, later⟩ := (finishes_bind_ok _ _ _).mp ended
    obtain ⟨_, unchanged, _⟩ := (Service.finishes_ask _ _).mp asked
    obtain rfl : shared = middle := unchanged.symm
    obtain ⟨touched, after, stored, last⟩ := (finishes_bind_ok _ _ _).mp later
    obtain ⟨reply, ⟨rfl, rfl⟩, same⟩ := (Service.finishes_store _ _).mp stored
    have told := (mapError_eq_ok _ _ _).mp same
    cases touched with
    | true => exact (touchSession_iff shared.tables session.key now).mp told
    | false => exact absurd ⟨result, _, last⟩ (not_succeeds_throw _)
  · let now := Instant.ofSeconds 0
    have told : (shared.tables.touchSession session.key now).1 = .ok true := (touchSession_iff _ _ now).mpr active
    have touches : Finishes (Shared.AnswersWith verifier) (Service.store (.touchSession session.key now)) shared
        (.ok true) { shared with tables := (shared.tables.touchSession session.key now).2 } :=
      (Service.finishes_store _ _).mpr ⟨_, ⟨rfl, rfl⟩, (mapError_eq_ok _ _ _).mpr told⟩
    have reads : Finishes (Shared.AnswersWith verifier) (Service.ask .now) shared (.ok now) shared :=
      (Service.finishes_ask _ _).mpr ⟨now, rfl, rfl⟩
    exact reads.succeeds_bind (touches.succeeds_bind (succeeds_pure _))

theorem provenBy_authenticated {credentials : Credentials} {tables : Store.Tables} {user : User}
    (found : tables.user? credentials.user = some user) :
    provenBy (tables.authenticated verifier credentials) =
      .ok (tables.proves verifier credentials.password user) := by
  unfold Store.Tables.authenticated
  rw [found, Option.filter_some]
  by_cases proven : tables.proves verifier credentials.password user = true
  · simp only [proven, if_true, provenBy]
  · simp only [proven, Bool.false_eq_true, if_false, provenBy]

/-- Who comes back to a session: those who prove to be a user and may return to it. -/
theorem succeeds_reconnect {credentials : Credentials} {clientHost id : String} :
    Succeeds (Shared.AnswersWith verifier) (reconnect credentials clientHost id) shared ↔
      ∃ user, shared.tables.user? credentials.user = some user ∧
        shared.tables.proves verifier credentials.password user = true ∧
        MayReturnTo shared.tables user clientHost id := by
  rw [reconnect_eq, (reads_store (.findUser credentials.user) rfl).succeeds_bind]
  simp only [Except.ok.injEq, exists_eq_left']
  cases found : shared.tables.user? credentials.user with
  | none => simp [not_succeeds_throw]
  | some user =>
    dsimp only
    rw [(reads_store _ rfl).succeeds_bind]
    simp only [Except.ok.injEq, exists_eq_left', Option.some.injEq]
    unfold MayReturnTo
    cases open? : shared.tables.sessionWithId? id with
    | none => simp [not_succeeds_throw]
    | some session =>
      dsimp only
      rw [succeeds_guard, (Service.reads_attempt (reads_authenticate credentials)).succeeds_bind]
      simp only [Except.ok.injEq, exists_eq_left', (Service.reads_ofExcept _).succeeds_bind, succeeds_returnTo]
      -- The password is looked at after the session, and what it proves depends on the user found first.
      rw [provenBy_authenticated found]
      simp only [Except.ok.injEq, exists_eq_left', Option.some.injEq, Bool.and_eq_true, Bool.not_eq_true',
        Bool.not_eq_false]
      constructor
      · rintro ⟨active, ⟨proven, allowed⟩, activeByKey⟩
        exact ⟨proven, active, activeByKey, allowed⟩
      · rintro ⟨proven, active, activeByKey, allowed⟩
        exact ⟨active, ⟨proven, allowed⟩, activeByKey⟩

/-- Where there is no session yet, an active user who acts as nobody else gets one. -/
theorem succeeds_connect_first {defaults : SessionDefaults} {credentials : Credentials} {clientHost : String}
    {options : ConnectOptions} {user : User} (free : shared.tables.sessions = [])
    (proven : shared.tables.authenticated verifier credentials = .ok user) (active : user.isActive = true)
    (own : options.substitute = none) :
    Succeeds (Shared.AnswersWith verifier) (connect defaults credentials clientHost options) shared := by
  have unused (id : String) : shared.tables.sessionWithId? id = none := by
    simp [Store.Tables.sessionWithId?, free]
  have unusedKey (key : String) : shared.tables.session? key = none := by
    simp [Store.Tables.session?, free]
  have asked (request : Request) (reply : request.Reply)
      (answered : shared.AnswersWith verifier request reply shared) :
      Finishes (Shared.AnswersWith verifier) (Service.ask request) shared (.ok reply) shared :=
    (Service.finishes_ask _ _).mpr ⟨reply, answered, rfl⟩
  have acts : Reads (Shared.AnswersWith verifier) (actingUser user options.substitute) shared (.ok user.id) := by
    rw [own]
    exact reads_pure user.id
  have found (now : Instant) : Finishes (Shared.AnswersWith verifier) (unusedId user.id now idAttempts) shared
      (.ok (newId user.id now 0)) shared := by
    refine (finishes_bind_ok _ _ _).mpr ⟨0, shared, asked (.number idTails) 0 rfl, ?_⟩
    refine ((reads_store _ rfl).andThen _).mpr ⟨none, ?_, rfl, rfl⟩
    simp only [unused]
  have stored (session : Session) : Finishes (Shared.AnswersWith verifier) (Service.store (.insertSession session))
      shared (.ok ()) { shared with tables := (shared.tables.insertSession session).2 } := by
    refine (Service.finishes_store _ _).mpr ⟨.ok (), ⟨?_, rfl⟩, rfl⟩
    simp [Store.Tables.answer, Store.Tables.insertSession, unused, unusedKey]
  unfold connect
  rw [(reads_authenticate credentials).succeeds_bind]
  refine ⟨user, proven, succeeds_guard.mpr ⟨by simp [active], acts.succeeds_bind.mpr ⟨user.id, rfl, ?_⟩⟩⟩
  have now := Instant.ofSeconds 0
  exact (asked .now now rfl).succeeds_bind <| (asked .nonce [] rfl).succeeds_bind <|
    (asked (.number keyTails) 0 rfl).succeeds_bind <| (found now).succeeds_bind <|
    (stored _).succeeds_bind (succeeds_pure _)

/-- A key is got by active users only, unless it is the key of a session that one comes back to; and the others
who get such a key are those who prove to be a user that is not active, and may return to the session but for
that. -/
theorem keys_by_standing (verifier : Verifier) (shared : Shared) (credentials : Credentials)
    (clientHost : String) :
    (∀ defaults options session last,
      Finishes (Shared.AnswersWith verifier) (connect defaults credentials clientHost options) shared
        (.ok session) last → last.tables.hasActiveUser credentials.user = true) ∧
    ∀ id,
      (∃ session last, Finishes (Shared.AnswersWith verifier) (reconnect credentials clientHost id) shared
        (.ok session) last ∧ last.tables.hasActiveUser credentials.user = false) ↔
      ∃ user, shared.tables.user? credentials.user = some user ∧ user.isActive = false ∧
        shared.tables.proves verifier credentials.password user = true ∧
        MayReturnTo shared.tables user clientHost id := by
  have standing {tables : Store.Tables} (same : tables.users = shared.tables.users) :
      tables.hasActiveUser credentials.user = shared.tables.hasActiveUser credentials.user := by
    unfold Store.Tables.hasActiveUser Store.Tables.user?
    rw [same]
  constructor
  · intro defaults options session last connected
    rw [standing (users_of_login (asks_connect _ _ _ _) connected)]
    exact active_of_connect connected
  · intro id
    constructor
    · rintro ⟨session, last, returned, idle⟩
      rw [standing (users_of_login (asks_reconnect _ _ _) returned)] at idle
      obtain ⟨user, found, proven, allowed⟩ := succeeds_reconnect.mp ⟨session, last, returned⟩
      rw [Store.Tables.hasActiveUser, found, Option.any_some] at idle
      exact ⟨user, found, idle, proven, allowed⟩
    · rintro ⟨user, found, idle, proven, allowed⟩
      obtain ⟨session, last, returned⟩ := succeeds_reconnect.mpr ⟨user, found, proven, allowed⟩
      refine ⟨session, last, returned, ?_⟩
      rw [standing (users_of_login (asks_reconnect _ _ _) returned), Store.Tables.hasActiveUser, found,
        Option.any_some]
      exact idle

/-- An admin that is locked, and a user with a session. -/
def lockedRoot : User := { User.withPassword "root" "root-pw" with privilege := .admin, standing := .locked }

def onlyUser : User := User.withPassword "alice" "alice-pw"

def openSession : Session :=
  { (default : Session) with key := "key", id := "s", user := "alice", authenticatedAs := "alice", state := .active }

def lockedStart : Shared := { tables := { users := [lockedRoot, onlyUser], sessions := [openSession] } }

/-- No authentication system vouches for anyone. -/
def voucherless : Verifier := fun _ _ _ => .ok false

theorem proves_own (tables : Store.Tables) {user : User} {password : String}
    (same : user.passwordHash = hashPassword user.id password) :
    tables.proves voucherless password user = true := by
  simp [Store.Tables.proves, User.passwordMatches, same]

theorem lockedRoot_proven : lockedStart.tables.proves voucherless "root-pw" lockedRoot = true := proves_own _ rfl

theorem root_mayReturnTo : MayReturnTo lockedStart.tables lockedRoot "elsewhere" "s" :=
  ⟨openSession, rfl, rfl, rfl, rfl⟩

theorem keys_of_alice_and_root :
    (∃ session last, Finishes (Shared.AnswersWith voucherless) (connect {} ⟨"alice", "alice-pw"⟩ "host" {})
      { tables := { users := [onlyUser] } } (.ok session) last ∧ last.tables.hasActiveUser "alice" = true) ∧
    ∃ session last, Finishes (Shared.AnswersWith voucherless) (reconnect ⟨"root", "root-pw"⟩ "elsewhere" "s")
      lockedStart (.ok session) last ∧ last.tables.hasActiveUser "root" = false := by
  constructor
  · have proven : Store.Tables.authenticated { users := [onlyUser] } voucherless ⟨"alice", "alice-pw"⟩ =
        .ok onlyUser := by
      have known : Store.Tables.user? { users := [onlyUser] } "alice" = some onlyUser := rfl
      unfold Store.Tables.authenticated
      rw [known, Option.filter_some, proves_own _ rfl, if_pos rfl]
    obtain ⟨session, last, connected⟩ : Succeeds (Shared.AnswersWith voucherless)
        (connect {} ⟨"alice", "alice-pw"⟩ "host" {}) { tables := { users := [onlyUser] } } :=
      succeeds_connect_first rfl proven rfl rfl
    exact ⟨session, last, connected, (keys_by_standing _ _ ⟨"alice", "alice-pw"⟩ _).1 _ _ _ _ connected⟩
  · exact ((keys_by_standing voucherless lockedStart ⟨"root", "root-pw"⟩ "elsewhere").2 "s").mpr
      ⟨lockedRoot, rfl, rfl, lockedRoot_proven, root_mayReturnTo⟩

/-- A locked admin gets the key of the session of another. -/
theorem locked_root_gets_key : ∃ session last,
    Finishes (Shared.AnswersWith voucherless) (reconnect ⟨"root", "root-pw"⟩ "elsewhere" "s") lockedStart
      (.ok session) last ∧ last.tables.hasActiveUser "root" = false := by
  obtain ⟨session, last, returned⟩ : Succeeds (Shared.AnswersWith voucherless)
      (reconnect ⟨"root", "root-pw"⟩ "elsewhere" "s") lockedStart :=
    succeeds_reconnect.mpr ⟨lockedRoot, rfl, lockedRoot_proven, root_mayReturnTo⟩
  refine ⟨session, last, returned, ?_⟩
  rw [Store.Tables.hasActiveUser, Store.Tables.user?, users_of_login (asks_reconnect _ _ _) returned]
  rfl

end Session

end Dispatch
