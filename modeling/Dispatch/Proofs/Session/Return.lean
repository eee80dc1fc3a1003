import Dispatch.Proofs.Session.Connection
import Dispatch.Proofs.Session.Ending
import Dispatch.Proofs.Session.Origin
import Dispatch.Proofs.Session.Standing
/-!
The way back to a session. What comes of it is settled by two rows of the tables and by what the credentials prove; a
session is handed back as it is stored then, with nothing changed but its activity, and whoever may not have it learns
from the failure only whether there is such a user and such an active session.
-/
namespace Dispatch

open Plan

namespace Store.Tables

/-- What is asked of one who wants to come back to the session of a row, by its identifier: the session is active, the
credentials prove a user, and the user is an admin, or is at the host that the session was opened from and is the one
that it acts as or the one that has logged in. -/
structure Returns (tables : Tables) (verifier : Verifier) (credentials : Credentials) (clientHost id : String)
    (row : Session) : Prop where
  stored : tables.sessionWithId? id = some row
  active : row.isActive = true
  allowed : ∃ user, tables.user? credentials.user = some user ∧
    tables.IsProven verifier credentials.password user ∧
    (user.isAdmin = true ∨ row.clientHost = clientHost ∧ (row.user = user.id ∨ row.authenticatedAs = user.id))

/-- The row of the session that one comes back to, or what is said instead. -/
def returning (tables : Tables) (verifier : Verifier) (credentials : Credentials) (clientHost id : String) :
    Except Failure Session :=
  match tables.user? credentials.user, tables.sessionWithId? id with
  | none, _ => .error (.unknownUser credentials.user)
  | some _, none => .error (.unknownSessionId id)
  | some user, some row =>
    if !row.isActive then .error .sessionExpired
    else if tables.proves verifier credentials.password user && (user.isAdmin || row.belongsTo user clientHost) then
      .ok row
    else .error .sessionNotFound

variable {tables : Tables} {verifier : Verifier} {credentials : Credentials} {clientHost id : String} {row : Session}

/-- What is asked of the user, as it is looked up. -/
theorem allows_iff {user : User} :
    (tables.proves verifier credentials.password user && (user.isAdmin || row.belongsTo user clientHost)) = true ↔
      tables.IsProven verifier credentials.password user ∧
        (user.isAdmin = true ∨ row.clientHost = clientHost ∧ (row.user = user.id ∨ row.authenticatedAs = user.id)) := by
  rw [Bool.and_eq_true, proves_iff, Bool.or_eq_true]
  simp [Session.belongsTo]

theorem returning_iff : tables.returning verifier credentials clientHost id = .ok row ↔
    tables.Returns verifier credentials clientHost id row := by
  constructor
  · intro given
    unfold returning at given
    split at given
    next => cases given
    next => cases given
    next user other known stored =>
      split at given
      next => cases given
      next active =>
        split at given
        next may =>
          obtain rfl := Except.ok.inj given
          exact ⟨stored, by simpa using active, user, known, allows_iff.mp may⟩
        next => cases given
  · rintro ⟨stored, active, user, known, allowed⟩
    unfold returning
    rw [known, stored]
    dsimp only
    rw [if_neg (by simp [active]), if_pos (allows_iff.mpr allowed)]

/-- To a user there is, everyone who may not have a session that is active looks the same. -/
theorem returning_of_active {user : User} {cause : Failure} (known : tables.user? credentials.user = some user)
    (stored : tables.sessionWithId? id = some row) (active : row.isActive = true)
    (refused : tables.returning verifier credentials clientHost id = .error cause) : cause = .sessionNotFound := by
  unfold returning at refused
  rw [known, stored] at refused
  dsimp only at refused
  rw [if_neg (by simp [active])] at refused
  split at refused
  next => cases refused
  next => exact (Except.error.inj refused).symm

end Store.Tables

namespace Session

variable {verifier : Verifier} {shared : Shared} {credentials : Credentials} {clientHost id : String} {row : Session}

theorem answers_of_answersWith {next : Shared} {request : Request} {reply : request.Reply}
    (answered : shared.AnswersWith verifier request reply next) : shared.Answers request reply next := by
  cases request with
  | verify => exact answered.2
  | _ => exact answered

/-- A session that one may come back to is used again. -/
theorem ensures_returnTo (found : shared.tables.session? row.key = some row) (active : row.isActive = true) :
    Ensures Shared.Answers
      (fun session last => ∃ now, session = { row with lastActivityAt := now } ∧
        last = { shared with tables := shared.tables.replaceSession session })
      (fun _ _ => False) (returnTo row true) shared := by
  unfold returnTo
  refine ensures_guard.mpr ⟨nofun, fun _ => ?_⟩
  rw [ensures_bind, Service.ensures_ask]
  rintro now state answered
  obtain rfl : state = shared := answered
  refine (Service.ensures_answered _ (touchSession_of_active found active now)).bind ?_
  rintro _ _ ⟨rfl, rfl⟩
  exact (ensures_pure _).mpr ⟨now, rfl, rfl⟩

/-- All that is looked up on the way back changes nothing; then the row is used again. -/
theorem ensures_reconnect (distinct : shared.tables.HasDistinctSessions) :
    Ensures (Shared.AnswersWith verifier)
      (fun session last => ∃ row now, shared.tables.returning verifier credentials clientHost id = .ok row ∧
        session = { row with lastActivityAt := now } ∧
        last = { shared with tables := shared.tables.replaceSession session })
      (fun cause last => shared.tables.returning verifier credentials clientHost id = .error cause ∧ last = shared)
      (reconnect credentials clientHost id) shared := by
  rw [reconnect_eq, (reads_store (.findUser credentials.user) rfl).ensures_bind]
  unfold Store.Tables.returning
  cases found : shared.tables.user? credentials.user with
  | none => exact (ensures_throw _).mpr ⟨rfl, rfl⟩
  | some user =>
    dsimp only
    rw [(reads_store (.findSessionWithId id) rfl).ensures_bind]
    cases stored : shared.tables.sessionWithId? id with
    | none => exact (ensures_throw _).mpr ⟨rfl, rfl⟩
    | some row =>
      dsimp only
      refine ensures_guard.mpr ⟨fun idle => ?_, fun active => ?_⟩
      · rw [if_pos idle]
        exact ⟨rfl, rfl⟩
      rw [if_neg active, (Service.reads_attempt (reads_authenticate credentials)).ensures_bind]
      rw [provenBy_authenticated found, (Service.reads_ofExcept _).ensures_bind]
      split
      next may =>
        rw [may]
        have own := Store.Tables.session?_of_mem distinct (List.mem_of_find?_eq_some stored)
        have returned : Ensures Shared.Answers _ _ (returnTo row true) shared :=
          ensures_returnTo own (by simpa using active)
        refine (returned.through (fun state => state) answers_of_answersWith).mono ?_ fun _ _ never => never.elim
        rintro session last ⟨now, same, changed⟩
        exact ⟨row, now, rfl, same, changed⟩
      next mayNot =>
        rw [Bool.eq_false_iff.mpr mayNot]
        unfold returnTo
        exact ensures_guard.mpr ⟨fun _ => ⟨rfl, rfl⟩, fun may => absurd rfl may⟩

theorem answersWith_total {request : Request} (member : request.isOfLogin = true) :
    ∃ reply next, shared.AnswersWith verifier request reply next := by
  cases request with
  | verify system login password => exact ⟨_, _, rfl, rfl⟩
  | enterMint => cases member
  | _ => exact Shared.answers_total nofun

/-- The way back always comes to an end. A session is handed back only to one who may return to it, as it is stored
then: but for its activity it is the row that was there, with the key that a connection has issued, and every other row
stays. Otherwise nothing changes, and a user there is learns of an active session no reason. -/
theorem sessions_are_returned (verifier : Verifier) (shared : Shared) (distinct : shared.tables.HasDistinctSessions)
    (credentials : Credentials) (clientHost id : String) :
    Concludes (Shared.AnswersWith verifier) (reconnect credentials clientHost id) shared ∧
    (∀ result last,
      Finishes (Shared.AnswersWith verifier) (reconnect credentials clientHost id) shared result last →
      (∀ session, result = .ok session →
        (∃ row now, shared.tables.Returns verifier credentials clientHost id row ∧
          session = { row with lastActivityAt := now }) ∧
        last = { shared with tables := shared.tables.replaceSession session } ∧
        last.tables.session? session.key = some session ∧
        (∀ key ≠ session.key, last.tables.session? key = shared.tables.session? key) ∧
        ∀ defaults pool turns reached, pool.state.tables.sessions = [] →
          (∀ plan ∈ pool.plans, IsService defaults plan) → Pool.Plays Shared.Serves pool turns reached →
          reached.state = shared → IsIssued defaults pool turns session) ∧
      ∀ cause, result = .error cause → last = shared ∧
        (∀ row, ¬shared.tables.Returns verifier credentials clientHost id row) ∧
        ∀ user row, shared.tables.user? credentials.user = some user → shared.tables.sessionWithId? id = some row →
          row.isActive = true → cause = .sessionNotFound) ∧
    ∀ {σ : Type} (setting : Setting σ) (state : σ) (defaults : SessionDefaults) (others : Credentials)
      (host : String) (options : ConnectOptions) result last,
      Finishes setting.recorded (connect defaults others host options) { state } result last →
        last.trace.filterMap opened? = result.toOption.toList := by
  refine ⟨(asks_reconnect _ _ _).concludes (fun _ _ => answersWith_total) shared, fun result last ended => ⟨?_, ?_⟩,
    fun _ _ _ _ _ _ _ _ => opened_of_connect⟩
  · rintro session rfl
    obtain ⟨row, now, returning, same, changed⟩ := ensures_reconnect distinct _ last ended
    have returns := Store.Tables.returning_iff.mp returning
    have stored : row ∈ shared.tables.sessions := List.mem_of_find?_eq_some returns.stored
    have found := Store.Tables.session?_of_mem distinct stored
    have sameKey : session.key = row.key := by rw [same]
    refine ⟨⟨row, now, returns, same⟩, changed, ?_, fun key other => ?_, ?_⟩
    · rw [changed, Store.Tables.session?_replaceSession, if_pos rfl, sameKey, found]
      rfl
    · rw [changed, Store.Tables.session?_replaceSession, if_neg other.symm]
    · rintro defaults pool turns reached empty services played rfl
      refine (isIssued_of_mem empty services played row stored).of_same ?_
      rw [same]
      exact ⟨rfl, rfl, rfl, rfl, rfl, rfl⟩
  · rintro cause rfl
    obtain ⟨refused, unchanged⟩ := ensures_reconnect distinct _ last ended
    refine ⟨unchanged, fun row returns => ?_, fun user row known stored active => ?_⟩
    · rw [Store.Tables.returning_iff.mpr returns] at refused
      cases refused
    · exact Store.Tables.returning_of_active known stored active refused

/-- A server on which nobody has a session, and alice connects. -/
def connectPool : Pool Shared Unit :=
  { state := { tables := { users := [onlyUser] } }
    plans := [(Call.connect ⟨"alice", "alice-pw"⟩ "host" {}).plan {}] }

def connectedSession : Session :=
  let now := Instant.ofSeconds 0
  opened {} {} "host" "alice" "alice" (newKey "alice" now [] 0) (newId "alice" now 0) now

/-- The server once she has. -/
def connectedServer : Shared := connectPool.state.withSession connectedSession

theorem plays_connectPool : ∃ turns, Pool.Plays Shared.Serves connectPool turns
    { state := connectedServer, plans := [.done ()] } := by
  let start : Drawing := { shared := connectPool.state, numbers := Stream'.const 0 }
  let now := Instant.ofSeconds 0
  let login := connect {} ⟨"alice", "alice-pw"⟩ "host" {}
  have may : start.shared.tables.MayConnect voucherless ⟨"alice", "alice-pw"⟩ none :=
    ⟨onlyUser, rfl, rfl, Store.Tables.proves_iff.mp (proves_own _ rfl), nofun⟩
  have given : start.shared.tables.connection voucherless {} ⟨"alice", "alice-pw"⟩ "host" {} now [] start.numbers =
      .ok connectedSession := Store.Tables.connection_iff.mpr ⟨may, newId "alice" now 0, rfl, rfl, rfl⟩
  obtain ⟨result, last, ended⟩ : Concludes (Drawing.Answers voucherless now []) login start :=
    (asks_connect _ _ _ _).concludes drawing_total start
  have known := ensures_connect {} ⟨"alice", "alice-pw"⟩ "host" {} result last ended
  cases result with
  | error cause => cases known.1.symm.trans given
  | ok session =>
    obtain rfl : session = connectedSession := Except.ok.inj (known.1.symm.trans given)
    have served : Finishes Shared.Serves login connectPool.state (.ok connectedSession) last.shared :=
      Ends.through Drawing.shared ended fun answered => .inl (answers_of_answersWith (answersWith_of_drawing answered))
    rw [known.2] at served
    exact Pool.plays_of_ends ((ends_bind _ _ _).mpr ⟨_, _, served, rfl, rfl⟩)

/-- Alice gets her session back where she has connected, and from another host it is not there. -/
theorem alice_returns_from_host :
    (∃ session last, Finishes (Shared.AnswersWith voucherless)
        (reconnect ⟨"alice", "alice-pw"⟩ "host" connectedSession.id) connectedServer (.ok session) last ∧
      last.tables.session? session.key = some session ∧ ∃ turns, IsIssued {} connectPool turns session) ∧
    Finishes (Shared.AnswersWith voucherless) (reconnect ⟨"alice", "alice-pw"⟩ "elsewhere" connectedSession.id)
      connectedServer (.error .sessionNotFound) connectedServer := by
  have distinct : connectedServer.tables.HasDistinctSessions :=
    ⟨List.nodup_singleton _, List.nodup_singleton _⟩
  have known : connectedServer.tables.user? "alice" = some onlyUser := rfl
  have stored : connectedServer.tables.sessionWithId? connectedSession.id =
      some connectedSession := Store.Tables.find?_key_of_mem Session.id distinct.ids List.mem_cons_self
  have proven : connectedServer.tables.IsProven voucherless "alice-pw" onlyUser :=
    Store.Tables.proves_iff.mp (proves_own _ rfl)
  have services : ∀ plan ∈ connectPool.plans, IsService {} plan := by
    intro plan member
    obtain rfl := List.mem_singleton.mp member
    exact .call _
  obtain ⟨turns, played⟩ := plays_connectPool
  constructor
  · obtain ⟨⟨result, last, ended⟩, comes, -⟩ :=
      sessions_are_returned voucherless _ distinct ⟨"alice", "alice-pw"⟩ "host" connectedSession.id
    obtain ⟨given, refused⟩ := comes result last ended
    cases result with
    | ok session =>
      obtain ⟨-, -, isStored, -, issued⟩ := given session rfl
      exact ⟨session, last, ended, isStored, turns, issued {} _ _ _ rfl services played rfl⟩
    | error cause =>
      exact absurd ⟨stored, rfl, onlyUser, known, proven, .inr ⟨rfl, .inl rfl⟩⟩
        ((refused cause rfl).2.1 connectedSession)
  · obtain ⟨⟨result, last, ended⟩, comes, -⟩ :=
      sessions_are_returned voucherless _ distinct ⟨"alice", "alice-pw"⟩ "elsewhere" connectedSession.id
    obtain ⟨given, refused⟩ := comes result last ended
    cases result with
    | ok session =>
      obtain ⟨⟨row, _, returns, -⟩, -⟩ := given session rfl
      obtain rfl := Option.some.inj (stored.symm.trans returns.stored)
      obtain ⟨user, isKnown, -, allowed⟩ := returns.allowed
      obtain rfl := Option.some.inj (known.symm.trans isKnown)
      rcases allowed with admin | ⟨host, -⟩
      · cases admin
      · exact absurd host (by decide)
    | error cause =>
      obtain ⟨unchanged, -, reason⟩ := refused cause rfl
      rw [unchanged, reason onlyUser connectedSession known stored rfl] at ended
      exact ended

end Session

end Dispatch
