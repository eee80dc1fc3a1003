import Dispatch.Proofs.Plan.Settings
import Dispatch.Proofs.Server.Footprint
import Dispatch.Proofs.Session.Authentication
import Dispatch.Proofs.Session.Table
import Mathlib.Data.Stream.Init
/-!
Who gets a new session. What a connection comes to is settled by the tables, the authentication systems, and what the
clock and the random numbers say; the accounts of a user matter as a set, and of a system all that matters is whether
it vouches.
-/
namespace Dispatch

open Plan

namespace Store.Tables

/-- Whether a password proves a user: it is the password of the user, or an active account of the user is bound to an
active system that vouches for it. -/
def IsProven (tables : Tables) (verifier : Verifier) (password : String) (user : User) : Prop :=
  user.passwordMatches password = true ∨
    ∃ account ∈ tables.authAccounts, account.user = user.id ∧ account.standing = .active ∧
      ∃ system, tables.authSystem? account.system = some system ∧ system.isActive = true ∧
        verifier system account.login password = .ok true

/-- Whether a user may have a session as another: as the user itself, or as any user there is if the user is an
admin. -/
def MayActAs (tables : Tables) (user : User) (other : String) : Prop :=
  other = user.id ∨ user.isAdmin = true ∧ (tables.user? other).isSome = true

/-- What is asked of one who wants a new session. -/
def MayConnect (tables : Tables) (verifier : Verifier) (credentials : Credentials) (substitute : Option String) :
    Prop :=
  ∃ user, tables.user? credentials.user = some user ∧ user.isActive = true ∧
    tables.IsProven verifier credentials.password user ∧ ∀ other, substitute = some other → tables.MayActAs user other

theorem toOption_getD_iff (verdict : Except Failure Bool) :
    verdict.toOption.getD false = true ↔ verdict = .ok true := by
  cases verdict with
  | ok said => simp [Except.toOption]
  | error cause => simp [Except.toOption]

theorem proves_iff {tables : Tables} {verifier : Verifier} {password : String} {user : User} :
    tables.proves verifier password user = true ↔ tables.IsProven verifier password user := by
  unfold proves IsProven vouches authAccountsOf
  rw [Bool.or_eq_true, List.any_filter, List.any_eq_true]
  simp [toOption_getD_iff, Option.any_eq_true]

/-- The user that a session is to act as, by the tables. -/
def acting (tables : Tables) (user : User) : (substitute : Option String) → Except Failure String
  | none => .ok user.id
  | some other =>
    if other = user.id then .ok user.id
    else if !user.isAdmin then .error (.permissionDenied s!"{user.id} may not connect as {other}")
    else
      match tables.user? other with
      | some found => .ok found.id
      | none => .error (.unknownUser other)

/-- The first of the identifiers for a user at an instant that is not in use. -/
def drawnId? (tables : Tables) (user : String) (now : Instant) (tails : List Nat) : Option String :=
  (tails.map (Session.newId user now)).find? fun id => (tables.sessionWithId? id).isNone

end Store.Tables

/-- A new session. -/
def Session.opened (defaults : SessionDefaults) (options : ConnectOptions) (clientHost user acting key id : String)
    (now : Instant) : Session :=
  { key
    id
    user := acting
    authenticatedAs := user
    clientHost
    policy := (defaults.mode options.policy options.timeout).1
    timeout := (defaults.mode options.policy options.timeout).2
    state := .active
    createdAt := now
    lastActivityAt := now
    closedAt := none }

namespace Store.Tables

/-- What comes of a session that is to be stored: its key and its identifier must not be in use. -/
def enroll (tables : Tables) (session : Session) : Except Failure Session :=
  if (tables.session? session.key).isSome || (tables.sessionWithId? session.id).isSome then
    .error (.ofStore (.duplicate sessionTable session.id))
  else .ok session

/-- What a connection comes to, by the tables, with random numbers for the key and then for the identifier. -/
def connection (tables : Tables) (verifier : Verifier) (defaults : SessionDefaults) (credentials : Credentials)
    (clientHost : String) (options : ConnectOptions) (now : Instant) (nonce : List UInt8) (numbers : Stream' Nat) :
    Except Failure Session :=
  (tables.authenticated verifier credentials).bind fun user =>
    if user.isActive then
      (tables.acting user options.substitute).bind fun acting =>
        match tables.drawnId? acting now (numbers.tail.take Session.idAttempts) with
        | none => .error (.system s!"Could not generate a free session id for {acting}")
        | some id =>
          tables.enroll (Session.opened defaults options clientHost user.id acting
            (Session.newKey user.id now nonce numbers.head) id now)
    else .error (.userLocked user.id)

theorem authenticated_iff {tables : Tables} {verifier : Verifier} {credentials : Credentials} {user : User} :
    tables.authenticated verifier credentials = .ok user ↔
      tables.user? credentials.user = some user ∧ tables.IsProven verifier credentials.password user := by
  rw [← proves_iff, ← Option.filter_eq_some_iff]
  unfold authenticated
  split
  next other found => simp [found]
  next absent => simp [absent]

theorem acting_iff {tables : Tables} {user : User} {substitute : Option String} {acting : String} :
    tables.acting user substitute = .ok acting ↔
      acting = substitute.getD user.id ∧ ∀ other, substitute = some other → tables.MayActAs user other := by
  unfold Tables.acting MayActAs
  cases substitute with
  | none =>
    rw [Except.ok.injEq, eq_comm]
    simp
  | some other =>
    simp only [Option.getD_some, Option.some.injEq, forall_eq']
    by_cases own : other = user.id
    · rw [if_pos own, own, Except.ok.injEq, eq_comm]
      simp
    · rw [if_neg own]
      by_cases admin : user.isAdmin = true
      · rw [if_neg (by simp [admin])]
        cases found : tables.user? other with
        | none => simp [own]
        | some row =>
          have same : row.id = other := (find?_key_some User.id found).2
          dsimp only
          rw [Except.ok.injEq, same, eq_comm]
          simp [own, admin]
      · rw [if_pos (by simp [admin])]
        simp [own, admin]

theorem drawnId?_some {tables : Tables} {user id : String} {now : Instant} {tails : List Nat}
    (found : tables.drawnId? user now tails = some id) : tables.sessionWithId? id = none := by
  simpa using List.find?_some found

theorem drawnId?_isSome {tables : Tables} {user : String} {now : Instant} {tails : List Nat}
    (fresh : ∃ tail ∈ tails, tables.sessionWithId? (Session.newId user now tail) = none) :
    ∃ id, tables.drawnId? user now tails = some id := by
  apply Option.isSome_iff_exists.mp
  obtain ⟨tail, member, unused⟩ := fresh
  exact List.find?_isSome.mpr ⟨_, List.mem_map_of_mem member, by simp [unused]⟩

theorem bind_eq_ok {α β ε : Type} {result : Except ε α} {rest : α → Except ε β} {value : β} :
    result.bind rest = .ok value ↔ ∃ given, result = .ok given ∧ rest given = .ok value := by
  cases result with
  | ok given => simp [Except.bind]
  | error cause => simp [Except.bind]

theorem enroll_iff {tables : Tables} {session other : Session} :
    tables.enroll session = .ok other ↔
      session = other ∧ tables.session? session.key = none ∧ tables.sessionWithId? session.id = none := by
  unfold enroll
  split
  next taken =>
    have used : ¬(tables.session? session.key = none ∧ tables.sessionWithId? session.id = none) := by
      rintro ⟨unusedKey, unusedId⟩
      simp [unusedKey, unusedId] at taken
    simp [used]
  next free =>
    have unused : tables.session? session.key = none ∧ tables.sessionWithId? session.id = none := by simpa using free
    simp [unused]

section Connection

variable {tables : Tables} {verifier : Verifier} {defaults : SessionDefaults} {credentials : Credentials}
  {clientHost : String} {options : ConnectOptions} {now : Instant} {nonce : List UInt8} {numbers : Stream' Nat}

/-- When a connection succeeds, and with which session. -/
theorem connection_iff {session : Session} :
    tables.connection verifier defaults credentials clientHost options now nonce numbers = .ok session ↔
      tables.MayConnect verifier credentials options.substitute ∧
      ∃ id, tables.drawnId? (options.substitute.getD credentials.user) now (numbers.tail.take Session.idAttempts) =
          some id ∧
        session = Session.opened defaults options clientHost credentials.user
          (options.substitute.getD credentials.user) (Session.newKey credentials.user now nonce numbers.head) id now ∧
        tables.session? session.key = none := by
  unfold connection
  rw [bind_eq_ok]
  constructor
  · rintro ⟨user, authenticated, rest⟩
    obtain ⟨found, proven⟩ := authenticated_iff.mp authenticated
    obtain same : user.id = credentials.user := (find?_key_some User.id found).2
    split at rest
    next active =>
      obtain ⟨acting, allowed, later⟩ := bind_eq_ok.mp rest
      obtain ⟨rfl, may⟩ := acting_iff.mp allowed
      rw [same] at later
      refine ⟨⟨user, found, active, proven, may⟩, ?_⟩
      cases drawn : tables.drawnId? (options.substitute.getD credentials.user) now
          (numbers.tail.take Session.idAttempts) with
      | none =>
        rw [drawn] at later
        cases later
      | some id =>
        rw [drawn] at later
        obtain ⟨rfl, unusedKey, _⟩ := enroll_iff.mp later
        exact ⟨id, rfl, rfl, unusedKey⟩
    next => cases rest
  · rintro ⟨⟨user, found, active, proven, may⟩, id, drawn, rfl, unusedKey⟩
    have same : user.id = credentials.user := (find?_key_some User.id found).2
    refine ⟨user, authenticated_iff.mpr ⟨found, proven⟩, ?_⟩
    rw [if_pos active]
    refine bind_eq_ok.mpr ⟨_, acting_iff.mpr ⟨rfl, may⟩, ?_⟩
    rw [same, drawn]
    exact enroll_iff.mpr ⟨rfl, unusedKey, drawnId?_some drawn⟩

/-- The accounts matter as a set, and of the systems it only matters whether they vouch. -/
theorem connection_congr {other : Verifier} {accounts : List AuthAccount} (same : accounts.Perm tables.authAccounts)
    (alike : ∀ system login password, other system login password = .ok true ↔
      verifier system login password = .ok true) :
    { tables with authAccounts := accounts }.connection other defaults credentials clientHost options now nonce numbers =
      tables.connection verifier defaults credentials clientHost options now nonce numbers := by
  have proven (user : User) : { tables with authAccounts := accounts }.proves other credentials.password user =
      tables.proves verifier credentials.password user := by
    rw [Bool.eq_iff_iff, proves_iff, proves_iff]
    unfold IsProven
    simp only [same.mem_iff, alike]
    rfl
  have authenticated : { tables with authAccounts := accounts }.authenticated other credentials =
      tables.authenticated verifier credentials := by
    unfold Tables.authenticated
    rw [funext proven]
    rfl
  unfold connection
  rw [authenticated]
  rfl

end Connection

end Store.Tables

namespace Shared

/-- With one more session. -/
def withSession (shared : Shared) (session : Session) : Shared :=
  { shared with tables := { shared.tables with sessions := shared.tables.sessions ++ [session] } }

/-- With other accounts. -/
def withAccounts (shared : Shared) (accounts : List AuthAccount) : Shared :=
  { shared with tables := { shared.tables with authAccounts := accounts } }

end Shared

/-- A server, and the random numbers that are still to be drawn. -/
@[ext]
structure Drawing where
  shared : Shared
  numbers : Stream' Nat

/-- A server with authentication systems that answer by a function, where the clock and the random bytes say this, and
random numbers come one after the other. -/
def Drawing.Answers (verifier : Verifier) (now : Instant) (nonce : List UInt8) : Setting Drawing
  | state, .now, instant, next => instant = now ∧ next = state
  | state, .nonce, bytes, next => bytes = nonce ∧ next = state
  | state, .number _, number, next => number = state.numbers.head ∧ next = { state with numbers := state.numbers.tail }
  | state, request, reply, next =>
    state.shared.AnswersWith verifier request reply next.shared ∧ next.numbers = state.numbers

/-- The random numbers make a key that is not in use, and among the identifiers that are tried one that is not. -/
structure Drawing.IsFresh (state : Drawing) (credentials : Credentials) (options : ConnectOptions) (now : Instant)
    (nonce : List UInt8) : Prop where
  key : state.shared.tables.session? (Session.newKey credentials.user now nonce state.numbers.head) = none
  id : ∃ tail ∈ state.numbers.tail.take Session.idAttempts, state.shared.tables.sessionWithId?
    (Session.newId (options.substitute.getD credentials.user) now tail) = none

namespace Session

variable {verifier : Verifier} {now : Instant} {nonce : List UInt8} {state : Drawing}

/-- Whatever is drawn, the server answers as it does. -/
theorem answersWith_of_drawing {next : Drawing} {request : Request} {reply : request.Reply}
    (answered : Drawing.Answers verifier now nonce state request reply next) :
    state.shared.AnswersWith verifier request reply next.shared := by
  cases request with
  | now | nonce | number =>
    rw [answered.2]
    rfl
  | _ => exact answered.1

theorem numbers_of_proof {next : Drawing} {request : Request} {reply : request.Reply}
    (member : request.isOfProof = true) (answered : Drawing.Answers verifier now nonce state request reply next) :
    next.numbers = state.numbers := by
  cases request with
  | store | verify => exact answered.2
  | _ => cases member

/-- What is read of the server without a number being drawn is read in the same way here. -/
theorem ensures_reading {α : Type} {service : Service α} {given : Except Failure α}
    (asks : Asks Request.isOfProof service) (reads : Reads (Shared.AnswersWith verifier) service state.shared given) :
    Ensures (Drawing.Answers verifier now nonce) (fun value last => given = .ok value ∧ last = state)
      (fun cause last => given = .error cause ∧ last = state) service state := by
  have seen : Ensures (Drawing.Answers verifier now nonce)
      (fun value last => given = .ok value ∧ last.shared = state.shared)
      (fun cause last => given = .error cause ∧ last.shared = state.shared) service state :=
    asks.ensures_through Drawing.shared (fun _ => answersWith_of_drawing) reads.ensures
  have drawn : Preserves (Drawing.Answers verifier now nonce) (fun last => last.numbers = state.numbers) service :=
    Yields.preserves asks fun member answered same => (numbers_of_proof member answered).trans same
  exact (seen.and (drawn state rfl)).mono (fun _ _ known => ⟨known.1.1, Drawing.ext known.1.2 known.2⟩)
    fun _ _ known => ⟨known.1.1, Drawing.ext known.1.2 known.2⟩

theorem reads_actingUser {shared : Shared} (user : User) (substitute : Option String) :
    Reads (Shared.AnswersWith verifier) (actingUser user substitute) shared (shared.tables.acting user substitute) := by
  unfold actingUser Store.Tables.acting
  cases substitute with
  | none => exact reads_pure user.id
  | some other =>
    by_cases own : other = user.id
    · simp only [own, if_true]
      exact reads_pure user.id
    · simp only [own, if_false]
      by_cases admin : user.isAdmin = true
      · simp only [admin, Bool.not_true, Bool.false_eq_true, if_false]
        refine (reads_store _ rfl).bind ?_
        cases shared.tables.user? other with
        | some found => exact reads_pure found.id
        | none => exact reads_throw _
      · simp only [admin, Bool.not_false, if_true]
        exact (reads_throw _).bind_error _

/-- Identifiers are drawn until one is not in use. -/
theorem ensures_unusedId (user : String) (left : Nat) :
    Ensures (Drawing.Answers verifier now nonce)
      (fun id last => state.shared.tables.drawnId? user now (state.numbers.take left) = some id ∧
        last.shared = state.shared)
      (fun cause last => state.shared.tables.drawnId? user now (state.numbers.take left) = none ∧
        cause = .system s!"Could not generate a free session id for {user}" ∧ last.shared = state.shared)
      (unusedId user now left) state := by
  induction left generalizing state with
  | zero => exact (ensures_throw _).mpr ⟨rfl, rfl, rfl⟩
  | succ left ih =>
    unfold unusedId
    rw [ensures_bind, Service.ensures_ask]
    rintro tail drawn ⟨rfl, rfl⟩
    rw [ensures_bind]
    apply (Service.ensures_store (.findSessionWithId _)).mpr
    constructor
    · rintro found next ⟨⟨told, shared⟩, numbers⟩
      obtain rfl : next = { state with numbers := state.numbers.tail } := Drawing.ext shared numbers
      rw [Stream'.take_succ]
      unfold Store.Tables.drawnId?
      rw [List.map_cons]
      obtain rfl := Except.ok.inj told
      cases known : state.shared.tables.sessionWithId? (newId user now state.numbers.head) with
      | none =>
        rw [List.find?_cons_of_pos (by simp [known])]
        exact (ensures_pure _).mpr ⟨rfl, rfl⟩
      | some session =>
        rw [List.find?_cons_of_neg (by simp [known])]
        exact ih
    · rintro fault next ⟨⟨told, _⟩, _⟩
      cases told

/-- A session is added, or refused with nothing changed. -/
theorem ensures_insertSession (session : Session) :
    Ensures (Drawing.Answers verifier now nonce)
      (fun _ last => state.shared.tables.enroll session = .ok session ∧
        last.shared = state.shared.withSession session)
      (fun cause last => state.shared.tables.enroll session = .error cause ∧ last.shared = state.shared)
      (Service.store (.insertSession session)) state := by
  apply (Service.ensures_store (.insertSession session)).mpr
  unfold Store.Tables.enroll
  constructor
  · rintro _ last ⟨⟨told, shared⟩, _⟩
    simp only [Store.Tables.answer, Store.Tables.insertSession] at told shared
    split at told
    next => cases told
    next free =>
      rw [if_neg free] at shared ⊢
      exact ⟨rfl, shared⟩
  · rintro fault last ⟨⟨told, shared⟩, _⟩
    simp only [Store.Tables.answer, Store.Tables.insertSession] at told shared
    split at told
    next taken =>
      rw [if_pos taken] at shared ⊢
      cases told
      exact ⟨rfl, shared⟩
    next => cases told

/-- A connection that succeeds adds its session, and one that fails changes nothing. -/
theorem ensures_connect (defaults : SessionDefaults) (credentials : Credentials) (clientHost : String)
    (options : ConnectOptions) :
    Ensures (Drawing.Answers verifier now nonce)
      (fun session last =>
        state.shared.tables.connection verifier defaults credentials clientHost options now nonce state.numbers =
          .ok session ∧ last.shared = state.shared.withSession session)
      (fun cause last =>
        state.shared.tables.connection verifier defaults credentials clientHost options now nonce state.numbers =
          .error cause ∧ last.shared = state.shared)
      (connect defaults credentials clientHost options) state := by
  unfold connect Store.Tables.connection
  rw [ensures_bind]
  apply (ensures_reading (proves_authenticate credentials) (reads_authenticate credentials)).mono
  · rintro user _ ⟨authenticated, rfl⟩
    simp only [authenticated, Except.bind]
    refine ensures_guard.mpr ⟨fun idle => ?_, fun active => ?_⟩
    · rw [if_neg (by simpa using idle)]
      exact ⟨rfl, rfl⟩
    rw [if_pos (by simpa using active), ensures_bind]
    apply (ensures_reading (finds_actingUser (fun _ => rfl) user _) (reads_actingUser user _)).mono
    · rintro acting state ⟨allowed, rfl⟩
      simp only [allowed]
      rw [ensures_bind, Service.ensures_ask]
      rintro now state ⟨rfl, rfl⟩
      rw [ensures_bind, Service.ensures_ask]
      rintro nonce state ⟨rfl, rfl⟩
      rw [ensures_bind, Service.ensures_ask]
      rintro tail drawn ⟨rfl, rfl⟩
      rw [ensures_bind]
      apply (ensures_unusedId acting idAttempts).mono
      · rintro id last ⟨found, shared⟩
        simp only [found]
        rw [ensures_bind]
        let session := opened defaults options clientHost user.id acting (newKey user.id now nonce state.numbers.head)
          id now
        apply (ensures_insertSession session).mono
        · rintro _ inserted ⟨told, added⟩
          rw [shared] at told added
          exact (ensures_pure session).mpr ⟨told, added⟩
        · rintro cause inserted ⟨told, unchanged⟩
          rw [shared] at told unchanged
          exact ⟨told, unchanged⟩
      · rintro cause last ⟨exhausted, rfl, shared⟩
        rw [exhausted]
        exact ⟨rfl, shared⟩
    · rintro cause _ ⟨refused, rfl⟩
      exact ⟨by rw [refused], rfl⟩
  · rintro cause _ ⟨refused, rfl⟩
    exact ⟨by rw [refused]; rfl, rfl⟩

theorem drawing_total (state : Drawing) (request : Request) (member : request.isOfLogin = true) :
    ∃ reply next, Drawing.Answers verifier now nonce state request reply next := by
  cases request with
  | store call => exact ⟨_, { state with shared := _ }, ⟨rfl, rfl⟩, rfl⟩
  | now | nonce | number => exact ⟨_, _, rfl, rfl⟩
  | verify system login password => exact ⟨_, state, ⟨rfl, rfl⟩, rfl⟩
  | _ => cases member

/-- A connection always comes to an end. With fresh random numbers it succeeds exactly for those who may connect; a
success adds one session and a failure nothing, and what comes of it depends neither on the order of the accounts nor
on which of the systems that do not vouch fail. -/
theorem connects_by_proof (verifier : Verifier) (state : Drawing) (defaults : SessionDefaults)
    (credentials : Credentials) (clientHost : String) (options : ConnectOptions) (now : Instant)
    (nonce : List UInt8) :
    Concludes (Drawing.Answers verifier now nonce) (connect defaults credentials clientHost options) state ∧
    ∀ result last,
      Finishes (Drawing.Answers verifier now nonce) (connect defaults credentials clientHost options) state result
        last →
      (state.IsFresh credentials options now nonce →
        ((∃ session, result = .ok session) ↔
          state.shared.tables.MayConnect verifier credentials options.substitute)) ∧
      (∀ session, result = .ok session → last.shared = state.shared.withSession session ∧
        state.shared.tables.session? session.key = none ∧ state.shared.tables.sessionWithId? session.id = none ∧
        ∃ key id, session = opened defaults options clientHost credentials.user
          (options.substitute.getD credentials.user) key id now) ∧
      (∀ cause, result = .error cause → last.shared = state.shared) ∧
      ∀ (other : Verifier) (accounts : List AuthAccount), accounts.Perm state.shared.tables.authAccounts →
        (∀ system login password, other system login password = .ok true ↔
          verifier system login password = .ok true) →
        ∀ outcome final, Finishes (Drawing.Answers other now nonce) (connect defaults credentials clientHost options)
          { state with shared := state.shared.withAccounts accounts } outcome final → outcome = result := by
  have settled {other : Verifier} {state last : Drawing} {result : Except Failure Session}
      (ended : Finishes (Drawing.Answers other now nonce) (connect defaults credentials clientHost options) state
        result last) :
      result = state.shared.tables.connection other defaults credentials clientHost options now nonce state.numbers := by
    have known := ensures_connect defaults credentials clientHost options result last ended
    cases result with
    | ok session => exact known.1.symm
    | error cause => exact known.1.symm
  refine ⟨(asks_connect defaults credentials clientHost options).concludes drawing_total state, ?_⟩
  intro result last ended
  have known := ensures_connect defaults credentials clientHost options result last ended
  refine ⟨fun fresh => ?_, ?_, ?_, ?_⟩
  · rw [settled ended]
    constructor
    · rintro ⟨session, succeeded⟩
      exact (Store.Tables.connection_iff.mp succeeded).1
    · intro may
      obtain ⟨id, drawn⟩ := Store.Tables.drawnId?_isSome fresh.id
      exact ⟨_, Store.Tables.connection_iff.mpr ⟨may, id, drawn, rfl, fresh.key⟩⟩
  · rintro session rfl
    obtain ⟨_, id, drawn, rfl, unusedKey⟩ := Store.Tables.connection_iff.mp known.1
    exact ⟨known.2, unusedKey, Store.Tables.drawnId?_some drawn, _, id, rfl⟩
  · rintro cause rfl
    exact known.2
  · intro other accounts same alike outcome final ends
    rw [settled ends, settled ended]
    exact Store.Tables.connection_congr same alike

/-- A user with an account on a system that cannot be reached and one on a system that can. -/
def directoryStart : Drawing :=
  let system (id : String) : AuthSystem := { (default : AuthSystem) with id, standing := .active }
  let account (system : String) : AuthAccount := { user := "alice", system, login := "al", standing := .active }
  { shared := { tables := {
      users := [{ id := "alice", passwordHash := "" }]
      authAccounts := [account "down", account "up"]
      authSystems := [system "down", system "up"] } }
    numbers := Stream'.const 0 }

/-- The second system vouches for one password. -/
def directoryVerifier : Verifier := fun system _ password =>
  if system.id = "up" then .ok (password == "ldap-pw") else .error (.system "unreachable")

theorem alice_connects_by_directory : ∃ session last,
    Finishes (Drawing.Answers directoryVerifier (.ofSeconds 0) [])
      (connect {} ⟨"alice", "ldap-pw"⟩ "host" {}) directoryStart (.ok session) last ∧
    last.shared = directoryStart.shared.withSession session := by
  obtain ⟨⟨result, last, ended⟩, comes⟩ :=
    connects_by_proof directoryVerifier directoryStart {} ⟨"alice", "ldap-pw"⟩ "host" {} (.ofSeconds 0) []
  obtain ⟨succeeds, opens, _⟩ := comes result last ended
  have fresh : directoryStart.IsFresh ⟨"alice", "ldap-pw"⟩ {} (.ofSeconds 0) [] := ⟨rfl, 0, by decide, rfl⟩
  have may : directoryStart.shared.tables.MayConnect directoryVerifier ⟨"alice", "ldap-pw"⟩ none := by
    refine ⟨_, rfl, rfl, .inr ⟨_, List.mem_cons_of_mem _ List.mem_cons_self, rfl, rfl, _, rfl, rfl, rfl⟩, nofun⟩
  obtain ⟨session, rfl⟩ := (succeeds fresh).mpr may
  exact ⟨session, last, ended, (opens session rfl).1⟩

end Session

end Dispatch
