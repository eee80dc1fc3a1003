import Dispatch.Proofs.Session.Company
import Dispatch.Proofs.Session.Isolation
/-!
Closing a session that works. As long as one of its commands is running it is not closed: a session that would close on
disconnect is left to its timeout, any other stays as it is, and the first close after the last command is the one that
closes it.
-/
namespace Dispatch

open Plan

/-- Whether a command of the session with that key is running. -/
def Store.Tables.isBusy (tables : Store.Tables) (key : String) : Bool :=
  (tables.entriesOf key).any History.Entry.isRunning

/-- The same with a session in its row. -/
def Shared.put (shared : Shared) (session : Session) : Shared :=
  { shared with tables := shared.tables.replaceSession session }

theorem Shared.session?_put {shared : Shared} {row : Session} {key : String}
    (found : shared.tables.session? key = some row) (session : Session) (own : session.key = key) :
    (shared.put session).tables.session? key = some session := by
  rw [put, Store.Tables.session?_replaceSession, if_pos own, found, Option.map_some]

theorem Shared.session?_put_other (shared : Shared) (session : Session) {key : String} (other : session.key ≠ key) :
    (shared.put session).tables.session? key = shared.tables.session? key := by
  rw [put, Store.Tables.session?_replaceSession, if_neg other]

namespace Session

/-- The session left to a timeout, whatever it would have waited for. -/
def leftTo (session : Session) (timeout : UInt64) : Session :=
  { session with policy := .onTimeout, timeout := some timeout }

/-- What a close comes to. -/
inductive Closes (defaults : SessionDefaults) (key : String) (shared : Shared) : Except Failure Unit → Shared → Prop
  | unknown (missing : shared.tables.session? key = none) :
      Closes defaults key shared (.error .sessionNotFound) shared
  | expired {session : Session} (found : shared.tables.session? key = some session)
      (inactive : session.isActive = false) : Closes defaults key shared (.error .sessionExpired) shared
  | deferred {session : Session} (found : shared.tables.session? key = some session)
      (active : session.isActive = true) (busy : shared.tables.isBusy key = true)
      (leaves : defaults.effective session.policy = .onDisconnect) :
      Closes defaults key shared (.ok ()) (shared.put (session.leftTo defaults.timeout))
  | refused {session : Session} (found : shared.tables.session? key = some session)
      (active : session.isActive = true) (busy : shared.tables.isBusy key = true)
      (stays : defaults.effective session.policy ≠ .onDisconnect) :
      Closes defaults key shared (.error (.commandRunning session.id)) shared
  | closed {session : Session} (found : shared.tables.session? key = some session)
      (active : session.isActive = true) (idle : shared.tables.isBusy key = false) (now : Instant) :
      Closes defaults key shared (.ok ()) (shared.put (session.close now))

section Close

variable {defaults : SessionDefaults} {key : String} {shared last : Shared} {session row : Session}
  {result : Except Failure Unit}

theorem state_of_isActive (active : session.isActive = true) : session.state = .active := of_decide_eq_true active

/-- A session may be written into its row as long as it is active there. -/
theorem does_put (found : shared.tables.session? key = some row) (active : row.isActive = true) (session : Session)
    (own : session.key = row.key) :
    Does Shared.Answers (Service.store (.updateSession session)) shared (.ok ()) (shared.put session) := by
  have stored : shared.tables.session? session.key = some row := by rwa [own, (Store.Tables.session?_some found).2]
  exact Service.does_store (.updateSession session) fun _ _ => Shared.answers_iff_of_answer
    (Store.Tables.updateSession_of_active stored (state_of_isActive active))

theorem reads_hasRunningCommand (key : String) :
    Reads Shared.Answers (hasRunningCommand key) shared (.ok (shared.tables.isBusy key)) :=
  (Service.reads_store (.entriesOf key) fun _ _ => Shared.answers_iff_of_told rfl).map fun entries =>
    entries.any History.Entry.isRunning

/-- Whoever gets as far as to look for commands has an active session. -/
theorem finishes_closeByKey_active (found : shared.tables.session? key = some session)
    (active : session.isActive = true) : Finishes Shared.Answers (closeByKey defaults key) shared result last ↔
      Finishes Shared.Answers
        (if shared.tables.isBusy key then
          if defaults.effective session.policy = .onDisconnect then
            Service.store (.updateSession (session.leftTo defaults.timeout))
          else throw (.commandRunning session.id)
        else do
          let now ← Service.ask .now
          markClosed session now) shared result last := by
  have loads : Reads Shared.Answers (load key) shared _ := reads_load key
  rw [found] at loads
  unfold closeByKey
  rw [loads.finishes_bind, if_neg (by simp [active])]
  exact (reads_hasRunningCommand key).finishes_bind result

theorem finishes_closeByKey : Finishes Shared.Answers (closeByKey defaults key) shared result last ↔
    Closes defaults key shared result last := by
  have loads : Reads Shared.Answers (load key) shared _ := reads_load key
  constructor
  · intro ended
    cases found : shared.tables.session? key with
    | none =>
      rw [found] at loads
      obtain ⟨rfl, rfl⟩ := (loads.bind_error _ result last).mp ended
      exact .unknown found
    | some session =>
      cases active : session.isActive with
      | false =>
        rw [found] at loads
        unfold closeByKey at ended
        rw [loads.finishes_bind, if_pos (by simp [active])] at ended
        obtain ⟨rfl, rfl⟩ := (reads_throw _ result last).mp ended
        exact .expired found active
      | true =>
        rw [finishes_closeByKey_active found active] at ended
        cases busy : shared.tables.isBusy key with
        | true =>
          rw [if_pos busy] at ended
          by_cases leaves : defaults.effective session.policy = .onDisconnect
          · rw [if_pos leaves] at ended
            obtain ⟨rfl, rfl⟩ := (does_put found active (session.leftTo _) rfl _ _).mp ended
            exact .deferred found active busy leaves
          · rw [if_neg leaves] at ended
            obtain ⟨rfl, rfl⟩ := (reads_throw _ _ _).mp ended
            exact .refused found active busy leaves
        | false =>
          rw [if_neg (by simp [busy]), Service.finishes_ask_bind] at ended
          obtain ⟨now, middle, rfl, ended⟩ := ended
          obtain ⟨rfl, rfl⟩ := (does_put found active (session.close now) rfl _ _).mp ended
          exact .closed found active busy now
  · intro closes
    cases closes with
    | unknown missing =>
      rw [missing] at loads
      exact (loads.bind_error _ _ _).mpr ⟨rfl, rfl⟩
    | expired found inactive =>
      rw [found] at loads
      unfold closeByKey
      rw [loads.finishes_bind, if_pos (by simp [inactive])]
      exact (reads_throw _ _ _).mpr ⟨rfl, rfl⟩
    | @deferred session found active busy leaves =>
      rw [finishes_closeByKey_active found active, if_pos busy, if_pos leaves]
      exact (does_put found active (session.leftTo _) rfl _ _).mpr ⟨rfl, rfl⟩
    | refused found active busy stays =>
      rw [finishes_closeByKey_active found active, if_pos busy, if_neg stays]
      exact (reads_throw _ _ _).mpr ⟨rfl, rfl⟩
    | @closed session found active idle now =>
      rw [finishes_closeByKey_active found active, if_neg (by simp [idle]), Service.finishes_ask_bind]
      exact ⟨now, shared, rfl, (does_put found active (session.close now) rfl _ _).mpr ⟨rfl, rfl⟩⟩

/-- A close always comes to something. -/
theorem Closes.total (defaults : SessionDefaults) (key : String) (shared : Shared) :
    ∃ result last, Closes defaults key shared result last := by
  cases found : shared.tables.session? key with
  | none => exact ⟨_, _, .unknown found⟩
  | some session =>
    cases active : session.isActive with
    | false => exact ⟨_, _, .expired found active⟩
    | true =>
      cases busy : shared.tables.isBusy key with
      | false => exact ⟨_, _, .closed found active busy default⟩
      | true =>
        by_cases leaves : defaults.effective session.policy = .onDisconnect
        · exact ⟨_, _, .deferred found active busy leaves⟩
        · exact ⟨_, _, .refused found active busy leaves⟩

theorem Closes.of_inactive (closes : Closes defaults key shared result last)
    (found : shared.tables.session? key = some row) (inactive : row.isActive = false) :
    result = .error .sessionExpired ∧ last = shared := by
  have same {session : Session} (stored : shared.tables.session? key = some session) : session = row :=
    Option.some.inj (stored.symm.trans found)
  cases closes with
  | unknown missing => cases missing.symm.trans found
  | expired => exact ⟨rfl, rfl⟩
  | deferred stored active | refused stored active | closed stored active =>
    cases (same stored ▸ active).symm.trans inactive

/-- A session that would not close on disconnect is closed or not, by its commands. -/
theorem Closes.of_staying (closes : Closes defaults key shared result last)
    (found : shared.tables.session? key = some row) (active : row.isActive = true)
    (stays : defaults.effective row.policy ≠ .onDisconnect) :
    shared.tables.isBusy key = true ∧ result = .error (.commandRunning row.id) ∧ last = shared ∨
      shared.tables.isBusy key = false ∧ result = .ok () ∧ ∃ now, last = shared.put (row.close now) := by
  have same {session : Session} (stored : shared.tables.session? key = some session) : session = row :=
    Option.some.inj (stored.symm.trans found)
  cases closes with
  | unknown missing => cases missing.symm.trans found
  | expired stored inactive => cases (same stored ▸ inactive).symm.trans active
  | deferred stored _ _ leaves => exact absurd (same stored ▸ leaves) stays
  | refused stored _ busy =>
    obtain rfl := same stored
    exact .inl ⟨busy, rfl, rfl⟩
  | closed stored _ idle now =>
    obtain rfl := same stored
    exact .inr ⟨idle, rfl, now, rfl⟩

theorem Closes.error_unchanged {cause : Failure} (closes : Closes defaults key shared (.error cause) last) :
    last = shared := by
  cases closes <;> rfl

/-- A success writes one row. -/
theorem Closes.ok_writes (closes : Closes defaults key shared (.ok ()) last) :
    ∃ session, session.key = key ∧ last = shared.put session := by
  cases closes with
  | @deferred row found => exact ⟨row.leftTo _, (Store.Tables.session?_some found).2, rfl⟩
  | @closed row found _ _ now => exact ⟨row.close now, (Store.Tables.session?_some found).2, rfl⟩

/-- Other sessions stand as they were. -/
theorem Closes.session?_other (closes : Closes defaults key shared result last) {other : String}
    (apart : key ≠ other) : last.tables.session? other = shared.tables.session? other := by
  cases result with
  | error cause => rw [closes.error_unchanged]
  | ok done =>
    obtain ⟨session, rfl, rfl⟩ := closes.ok_writes
    exact shared.session?_put_other session apart

/-- Nobody is closed who has a running command. -/
theorem Closes.active_of_busy (closes : Closes defaults key shared result last)
    (busy : shared.tables.isBusy key = true) (found : shared.tables.session? key = some row)
    (active : row.isActive = true) :
    ∃ later, last.tables.session? key = some later ∧ later.isActive = true := by
  cases closes with
  | @deferred session stored activeThere =>
    exact ⟨session.leftTo _, Shared.session?_put stored _ (Store.Tables.session?_some stored).2, activeThere⟩
  | closed _ _ idle => exact absurd (busy.symm.trans idle) nofun
  | _ => exact ⟨row, found, active⟩

/-- What a close comes to is a matter of the session and of its own commands. -/
theorem Closes.elsewhere {other : Shared} (closes : Closes defaults key shared result last)
    (sameRow : other.tables.session? key = shared.tables.session? key)
    (sameEntries : other.tables.entriesOf key = shared.tables.entriesOf key) :
    ∃ there, Closes defaults key other result there ∧ there.tables.session? key = last.tables.session? key := by
  have sameBusy : other.tables.isBusy key = shared.tables.isBusy key := by
    rw [Store.Tables.isBusy, sameEntries, Store.Tables.isBusy]
  have written {row : Session} (found : shared.tables.session? key = some row) (session : Session)
      (own : session.key = row.key) :
      (other.put session).tables.session? key = (shared.put session).tables.session? key := by
    have ownKey : session.key = key := own.trans (Store.Tables.session?_some found).2
    rw [Shared.session?_put found session ownKey, Shared.session?_put (sameRow.trans found) session ownKey]
  cases closes with
  | unknown missing => exact ⟨other, .unknown (sameRow.trans missing), sameRow⟩
  | expired found inactive => exact ⟨other, .expired (sameRow.trans found) inactive, sameRow⟩
  | deferred found active busy leaves =>
    exact ⟨_, .deferred (sameRow.trans found) active (sameBusy.trans busy) leaves, written found _ rfl⟩
  | refused found active busy stays =>
    exact ⟨other, .refused (sameRow.trans found) active (sameBusy.trans busy) stays, sameRow⟩
  | closed found active idle now =>
    exact ⟨_, .closed (sameRow.trans found) active (sameBusy.trans idle) now, written found _ rfl⟩

/-- Also where the store fails, a close that fails has changed nothing. -/
theorem ensures_closeByKey (defaults : SessionDefaults) (key : String) (shared : Shared) :
    Ensures Shared.Serves (fun _ _ => True) (fun _ last => last = shared) (closeByKey defaults key) shared := by
  have looked {call : Store.Call} {reply : Except Store.Fault call.Answer} {next : Shared}
      (reads : (shared.tables.answer call).2 = shared.tables) (served : shared.Serves (.store call) reply next) :
      next = shared := by
    rcases Shared.serves_store served with ⟨_, rfl⟩ | ⟨_, rfl⟩
    · rw [reads]
    · rfl
  have writes (session : Session) : Ensures Shared.Serves (fun _ _ => True) (fun _ last => last = shared)
      (Service.store (.updateSession session)) shared := by
    refine (Service.ensures_store (.updateSession session)).mpr ⟨fun _ _ _ => trivial, fun fault next served => ?_⟩
    rcases Shared.serves_store served with ⟨refused, rfl⟩ | ⟨_, rfl⟩
    · exact congrArg (fun tables => { shared with tables }) (Store.Tables.updateSession_refused refused.symm)
    · rfl
  unfold closeByKey load hasRunningCommand
  rw [ensures_bind, ensures_bind]
  refine (Service.ensures_store (.findSession key)).mpr
    ⟨fun found next served => ?_, fun fault next served => looked rfl served⟩
  obtain rfl := looked rfl served
  cases found with
  | none => exact (ensures_throw _).mpr rfl
  | some session =>
    rw [ensures_pure, ensures_guard]
    refine ⟨fun _ => rfl, fun _ => ?_⟩
    rw [ensures_bind, ensures_bind]
    refine (Service.ensures_store (.entriesOf key)).mpr
      ⟨fun entries again served => ?_, fun fault again served => looked rfl served⟩
    obtain rfl := looked rfl served
    rw [ensures_pure]
    split
    next =>
      split
      next => exact writes _
      next => exact (ensures_throw _).mpr rfl
    next =>
      rw [ensures_bind, Service.ensures_ask]
      intro now asked served
      obtain rfl := served.answers fun _ => nofun
      exact writes _

end Close

section Footprints

variable {key : String} {α : Type}

theorem sparesSessions_of_work {service : Service α} (works : Asks Request.isOfWork service) :
    Asks Request.sparesSessions service := works.mono fun _ => Request.sparesSessions_of_isOfWork

theorem sparesSessions_of_notes {service : Service α} (notes : Asks Request.isOfSession service) :
    Asks Request.sparesSessions service := notes.mono fun _ => Request.sparesSessions_of_isOfSession

theorem sparesSessions_of_isBystander {request : Request} (bystands : request.isBystander = true) :
    request.sparesSessions = true := by
  cases request with
  | store call =>
    cases call with
    | updateSession => cases bystands
    | _ => rfl
  | _ => rfl

theorem sparesSessions_within (description : String) (category : History.Category) (object : α → Option String)
    {command : Service α} (works : Asks Request.isOfWork command) :
    Asks Request.sparesSessions (within key description category object command) := by
  unfold within
  exact (sparesSessions_of_notes (asks_startCommand key description category)).bind fun _ =>
    (Service.asks_attempt (sparesSessions_of_work works)).bind fun result =>
    (sparesSessions_of_notes (asks_record key _ _ _ _)).bind fun _ => Service.asks_ofExcept result

theorem sparesSessions_asAdmin (purpose description : String) (object : α → String) {change : Service α}
    (works : Asks Request.isOfWork change) :
    Asks Request.sparesSessions (AuthSystem.asAdmin key purpose description object change) := by
  unfold AuthSystem.asAdmin
  exact (sparesSessions_of_work (works_authorize key)).bind fun caller => (Service.asks_ofExcept _).bind fun _ =>
    (Service.asks_attempt (sparesSessions_of_work works)).bind fun result =>
    (sparesSessions_of_notes (asks_record caller.session.key _ _ _ _)).bind fun _ => Service.asks_ofExcept result

/-- No operation puts a session back into its row. -/
theorem sparesSessions_service (operation : Operation) :
    Asks Request.sparesSessions (operation.service key) := by
  cases operation with
  | startCommand description category => exact sparesSessions_of_notes (asks_startCommand key description category)
  | finishCommand description category status object =>
    exact sparesSessions_of_notes ((asks_check key).bind fun _ => asks_record key description category status object)
  | submit mint machine script options =>
    exact (sparesSessions_of_work (works_authorize key)).bind fun caller =>
      sparesSessions_within _ _ _ (Job.works_submitFor mint caller machine script options)
  | cancel id =>
    rw [Operation.service, cancel_eq]
    refine (sparesSessions_of_work (works_asOwner key id "cancel")).bind fun job => ?_
    split
    next => exact yields_pure trivial
    next => exact sparesSessions_within _ _ _ job.works_cancelAtPlace
  | startTime id => exact sparesSessions_of_work (Job.works_startTime key id)
  | queues machine wanted => exact sparesSessions_of_work (Job.works_queues key machine wanted)
  | list => exact sparesSessions_of_work (Job.works_list key)
  | output id =>
    rw [Operation.service, output_eq]
    exact (sparesSessions_of_work (works_asOwner key id _)).bind fun job =>
      sparesSessions_within _ _ _ job.works_retrieve
  | outputs =>
    exact (sparesSessions_of_work (works_authorize key)).bind fun caller =>
      (sparesSessions_of_notes (asks_startCommand key _ _)).bind fun _ => (Service.asks_store rfl).bind fun jobs =>
      (sparesSessions_of_work (Job.works_retrieveAll _)).bind fun found =>
      (sparesSessions_of_notes (asks_record key _ _ _ _)).bind fun _ => yields_pure trivial
  | addAuthSystem mint entry => exact sparesSessions_asAdmin _ _ _ (AuthSystem.works_insert mint entry)
  | updateAuthSystem id changes => exact sparesSessions_asAdmin _ _ _ (AuthSystem.works_apply id changes)
  | deleteAuthSystem id => exact sparesSessions_asAdmin _ _ _ (AuthSystem.works_remove id)
  | listAuthSystems wanted includeDeleted =>
    exact (asks_listAuthSystems key wanted includeDeleted).mono fun _ => sparesSessions_of_isBystander

/-- Whether an activity closes sessions. -/
def Activity.isClosing : Activity → Bool
  | serve (.close _) | serve (.closeExpired _) => true
  | _ => false

/-- It is by closes and sweeps alone that a session is put back into its row. -/
theorem Activity.sparesSessions_plan (defaults : SessionDefaults) (activity : Activity)
    (other : activity.isClosing = false) :
    (activity.plan defaults α).Keeps (Protocol.within Request.sparesSessions) (fun _ _ => True) () := by
  cases activity with
  | operate key operation => exact Keeps.discards (sparesSessions_service operation) none
  | poll job => exact Keeps.discards (sparesSessions_of_work (Job.works_refresh job)) none
  | monitor => exact Keeps.discards (sparesSessions_of_work Job.works_monitor) none
  | serve call =>
    suffices kept : (call.plan defaults).Keeps (Protocol.within Request.sparesSessions) (fun _ _ => True) () from
      kept.discards none
    cases call with
    | connect credentials clientHost options =>
      exact (sparesSessions_of_work (works_connect defaults credentials clientHost options)).keeps
    | reconnect credentials clientHost id =>
      exact (sparesSessions_of_work (works_reconnect credentials clientHost id)).keeps
    | startCommand key description category =>
      exact (sparesSessions_of_notes (asks_startCommand key description category)).keeps
    | finishCommand key description category status object isChecked =>
      have records := asks_record key description category status object
      cases isChecked with
      | true => exact (sparesSessions_of_notes ((asks_check key).bind fun _ => records)).keeps
      | false => exact (sparesSessions_of_notes records).keeps
    | close | closeExpired => cases other

end Footprints

section Standing

variable {key : String} {row : Session}

/-- A call that does not put a session back into its row changes no more of it than its last activity. -/
theorem session?_answer_of_spares (tables : Store.Tables) {call : Store.Call}
    (spares : Request.sparesSessions (.store call) = true) (found : tables.session? key = some row) :
    ∃ instant, (tables.answer call).2.session? key = some { row with lastActivityAt := instant } := by
  cases concerns : Request.isOfSessions (.store call) with
  | false =>
    refine ⟨row.lastActivityAt, ?_⟩
    rw [Store.Tables.session?, tables.answer_sessions concerns]
    exact found
  | true =>
    cases call with
    | updateSession => cases spares
    | insertSession session =>
      refine ⟨row.lastActivityAt, ?_⟩
      rcases tables.insertSession_cases session with same | ⟨-, -, same⟩
      · rwa [Store.Tables.answer, same]
      · rw [Store.Tables.answer, same]
        exact Store.Tables.session?_append found
    | touchSession other instant =>
      rcases tables.touchSession_cases other instant with same | ⟨touched, stored, same⟩
      · rw [Store.Tables.answer, same]
        exact ⟨row.lastActivityAt, found⟩
      · rw [Store.Tables.answer, same, Store.Tables.session?_replaceSession]
        by_cases own : touched.key = key
        · obtain rfl : other = key := (Store.Tables.session?_some stored).2.symm.trans own
          obtain rfl : touched = row := Option.some.inj (stored.symm.trans found)
          exact ⟨instant, by rw [if_pos own, found, Option.map_some]⟩
        · exact ⟨row.lastActivityAt, by rw [if_neg own]; exact found⟩
    | findSession | findSessionWithId | activeSessions => exact ⟨row.lastActivityAt, found⟩
    | _ => cases concerns

theorem session?_of_spares {shared next : Shared} {request : Request} {reply : request.Reply}
    (served : shared.Serves request reply next) (spares : request.sparesSessions = true)
    (found : shared.tables.session? key = some row) :
    ∃ instant, next.tables.session? key = some { row with lastActivityAt := instant } := by
  have unchanged (same : next.tables = shared.tables) :
      ∃ instant, next.tables.session? key = some { row with lastActivityAt := instant } :=
    ⟨row.lastActivityAt, by rw [same]; exact found⟩
  cases request with
  | store call =>
    rcases Shared.serves_store served with ⟨-, rfl⟩ | ⟨-, rfl⟩
    · exact session?_answer_of_spares shared.tables spares found
    · exact unchanged rfl
  | _ => exact unchanged (served.tables_eq fun _ => nofun)

end Standing

/-- The session is open until its timeout has run out. -/
structure Waits (defaults : SessionDefaults) (id : String) (session : Session) : Prop where
  active : session.isActive = true
  policy : session.policy = .onTimeout
  timeout : session.timeout = some defaults.timeout
  id : session.id = id

structure HasEnded (session : Session) : Prop where
  closed : session.state = .closed
  stamped : session.closedAt.isSome = true

/-- The closes of a session, each with the state that it found, while operations of whatever sessions, logins and polls
are under way; and other sessions are closed, too. -/
inductive Passes (defaults : SessionDefaults) (key : String) {α : Type} (first : Pool Shared α) :
    List (Shared × Except Failure Unit) → Pool Shared α → Prop
  | start : Passes defaults key first [] first
  | turn {closes : List (Shared × Except Failure Unit)} {middle last : Pool Shared α} {turn : Dispatch.Turn Shared}
      (run : Passes defaults key first closes middle) (next : middle.Takes Shared.Serves turn last) :
      Passes defaults key first closes last
  | closes {closes : List (Shared × Except Failure Unit)} {middle : Pool Shared α} {result : Except Failure Unit}
      {state : Shared} (run : Passes defaults key first closes middle)
      (ended : Finishes Shared.Answers (closeByKey defaults key) middle.state result state) :
      Passes defaults key first (closes ++ [(middle.state, result)]) { middle with state }
  | closesOther {closes : List (Shared × Except Failure Unit)} {middle : Pool Shared α} {other : String}
      {result : Except Failure Unit} {state : Shared} (run : Passes defaults key first closes middle)
      (apart : other ≠ key) (ended : Finishes Shared.Answers (closeByKey defaults other) middle.state result state) :
      Passes defaults key first closes { middle with state }

/-- Whether one of these closes has succeeded. -/
def hasClosed (closes : List (Shared × Except Failure Unit)) : Bool := closes.any fun close => close.2.isOk

/-- What a close says of a session that has been left to its timeout, after other closes: it is refused as long as a
command is running, and there is one that is not. -/
def closeAnswer (id key : String) (before : List (Shared × Except Failure Unit)) (state : Shared) :
    Except Failure Unit :=
  if hasClosed before then .error .sessionExpired
  else if state.tables.isBusy key then .error (.commandRunning id)
  else .ok ()

/-- How a session stands that has been left to its timeout, after these closes. -/
def StandsAfter (defaults : SessionDefaults) (id key : String) (closes : List (Shared × Except Failure Unit))
    (shared : Shared) : Prop :=
  ∃ row, shared.tables.session? key = some row ∧
    (hasClosed closes = true → row.HasEnded) ∧ (hasClosed closes = false → row.Waits defaults id)

section Run

variable {defaults : SessionDefaults} {id key : String} {closes : List (Shared × Except Failure Unit)}
  {shared next : Shared}

theorem hasClosed_snoc (closes : List (Shared × Except Failure Unit)) (close : Shared × Except Failure Unit) :
    hasClosed (closes ++ [close]) = (hasClosed closes || close.2.isOk) := by
  simp [hasClosed]

theorem StandsAfter.spared (stands : StandsAfter defaults id key closes shared) {request : Request}
    {reply : request.Reply} (served : shared.Serves request reply next) (spares : request.sparesSessions = true) :
    StandsAfter defaults id key closes next := by
  obtain ⟨row, found, ended, waits⟩ := stands
  obtain ⟨instant, later⟩ := session?_of_spares served spares found
  refine ⟨_, later, fun done => ⟨(ended done).closed, (ended done).stamped⟩, fun open? => ?_⟩
  have known := waits open?
  exact ⟨known.active, known.policy, known.timeout, known.id⟩

theorem StandsAfter.closedOther (stands : StandsAfter defaults id key closes shared) {other : String}
    {result : Except Failure Unit} (apart : other ≠ key) (closed : Closes defaults other shared result next) :
    StandsAfter defaults id key closes next := by
  obtain ⟨row, found, known⟩ := stands
  exact ⟨row, (closed.session?_other apart).trans found, known⟩

/-- A close says what is to be expected of it, and only one that succeeds makes a difference. -/
theorem StandsAfter.close (stands : StandsAfter defaults id key closes shared) {result : Except Failure Unit}
    (closed : Closes defaults key shared result next) :
    result = closeAnswer id key closes shared ∧
      StandsAfter defaults id key (closes ++ [(shared, result)]) next := by
  obtain ⟨row, found, ended, waits⟩ := stands
  unfold closeAnswer StandsAfter
  rw [hasClosed_snoc]
  cases done : hasClosed closes with
  | true =>
    have inactive : row.isActive = false := by simp [isActive, (ended done).closed]
    obtain ⟨rfl, rfl⟩ := closed.of_inactive found inactive
    exact ⟨rfl, row, found, fun _ => ended done, nofun⟩
  | false =>
    have known := waits done
    have stays : defaults.effective row.policy ≠ .onDisconnect := by rw [known.policy]; nofun
    rcases closed.of_staying found known.active stays with ⟨busy, rfl, rfl⟩ | ⟨idle, rfl, now, rfl⟩
    · rw [if_neg nofun, if_pos busy, known.id]
      exact ⟨rfl, row, found, nofun, fun _ => known⟩
    · rw [if_neg nofun, if_neg (by simp [idle])]
      exact ⟨rfl, row.close now, Shared.session?_put found _ (Store.Tables.session?_some found).2,
        fun _ => ⟨rfl, rfl⟩, nofun⟩

variable {α : Type} {first last : Pool Shared α}

theorem Passes.spare (passes : Passes defaults key first closes last)
    (spare : ∀ plan ∈ first.plans, plan.Keeps (Protocol.within Request.sparesSessions) (fun _ _ => True) ()) :
    ∀ plan ∈ last.plans, plan.Keeps (Protocol.within Request.sparesSessions) (fun _ _ => True) () := by
  induction passes with
  | start => exact spare
  | turn run next ih => exact (next.within ih).2
  | closes run ended ih => exact ih
  | closesOther run apart ended ih => exact ih

theorem Passes.plays {middle : Pool Shared α} (run : Passes defaults key first closes middle)
    {turns : List (Dispatch.Turn Shared)} (played : middle.Plays Shared.Serves turns last) :
    Passes defaults key first closes last := by
  induction played with
  | start => exact run
  | step _ next ih => exact .turn ih next

/-- From where a session has been left to its timeout, each close says what is to be expected of it. -/
theorem Passes.settled (passes : Passes defaults key first closes last)
    (spare : ∀ plan ∈ first.plans, plan.Keeps (Protocol.within Request.sparesSessions) (fun _ _ => True) ())
    (begins : StandsAfter defaults id key [] first.state) :
    StandsAfter defaults id key closes last.state ∧
      ∀ before close after, closes = before ++ close :: after → close.2 = closeAnswer id key before close.1 := by
  induction passes with
  | start => exact ⟨begins, fun before close after same => by simp at same⟩
  | turn run next ih =>
    have member := (next.within (run.spare spare)).1
    rw [next.after_eq]
    exact ⟨(next.before_eq ▸ ih.1).spared next.answered member, ih.2⟩
  | closesOther run apart ended ih =>
    exact ⟨ih.1.closedOther apart (finishes_closeByKey.mp ended), ih.2⟩
  | closes run ended ih =>
    obtain ⟨said, stands⟩ := ih.1.close (finishes_closeByKey.mp ended)
    refine ⟨stands, fun before close after same => ?_⟩
    rcases snoc_split same with ⟨rfl, rfl, -⟩ | ⟨rest, rfl, -⟩
    · exact said
    · exact ih.2 before close rest rfl

end Run

section Deferral

variable {defaults : SessionDefaults} {key : String} {shared last : Shared} {row : Session}

/-- A close that succeeds while a command is running leaves the session to its timeout. -/
theorem Closes.waits_of_busy (closes : Closes defaults key shared (.ok ()) last)
    (busy : shared.tables.isBusy key = true) : ∃ id, StandsAfter defaults id key [] last := by
  cases closes with
  | @deferred session found active =>
    refine ⟨session.id, session.leftTo _, Shared.session?_put found _ (Store.Tables.session?_some found).2, nofun,
      fun _ => ⟨active, rfl, rfl, rfl⟩⟩
  | closed _ _ idle => exact absurd (busy.symm.trans idle) nofun

end Deferral

/-- A session that has a running command is not closed by a close: it is left to its timeout if it would close on
disconnect, and otherwise the close is refused. What a close comes to is settled by the row of the session and by its
own commands; a close that fails changes nothing, also where the store fails, and one that succeeds writes that row
alone. Once a close has left a session to its timeout, and as long as no sweep comes by, closes are refused while a
command of the session is running, whatever else is under way on the server, and the next one closes it. -/
theorem running_commands_hold_sessions_open (defaults : SessionDefaults) (key : String) :
    (∀ shared, ∃ result last, Finishes Shared.Answers (closeByKey defaults key) shared result last) ∧
    (∀ shared result last, Finishes Shared.Answers (closeByKey defaults key) shared result last →
      Closes defaults key shared result last ∧
      (shared.tables.isBusy key = true → ∀ row, shared.tables.session? key = some row → row.isActive = true →
        ∃ later, last.tables.session? key = some later ∧ later.isActive = true) ∧
      (result = .ok () → ∃ session, session.key = key ∧ last = shared.put session) ∧
      ∀ other : Shared, other.tables.session? key = shared.tables.session? key →
        other.tables.entriesOf key = shared.tables.entriesOf key →
        ∃ there, Finishes Shared.Answers (closeByKey defaults key) other result there ∧
          there.tables.session? key = last.tables.session? key) ∧
    (∀ shared cause last, Finishes Shared.Serves (closeByKey defaults key) shared (.error cause) last →
      last = shared) ∧
    ∀ (start : Shared) (activities : List Activity) closes middle left,
      (∀ activity ∈ activities, activity.isClosing = false) →
      Passes defaults key { state := start, plans := activities.map (Activity.plan defaults Unit) } closes middle →
      middle.state.tables.isBusy key = true →
      Finishes Shared.Answers (closeByKey defaults key) middle.state (.ok ()) left →
      ∃ id, StandsAfter defaults id key [] left ∧
        ∀ later last, Passes defaults key { middle with state := left } later last →
          StandsAfter defaults id key later last.state ∧
          ∀ before state result after, later = before ++ (state, result) :: after →
            result = closeAnswer id key before state := by
  refine ⟨fun shared => ?_, fun shared result last ended => ?_, fun shared cause last =>
    ensures_closeByKey defaults key shared (.error cause) last, ?_⟩
  · obtain ⟨result, last, closes⟩ := Closes.total defaults key shared
    exact ⟨result, last, finishes_closeByKey.mpr closes⟩
  · have closes := finishes_closeByKey.mp ended
    refine ⟨closes, fun busy row found active => closes.active_of_busy busy found active, ?_, ?_⟩
    · rintro rfl
      exact closes.ok_writes
    · intro other sameRow sameEntries
      obtain ⟨there, closesToo, same⟩ := closes.elsewhere sameRow sameEntries
      exact ⟨there, finishes_closeByKey.mpr closesToo, same⟩
  · intro start activities closes middle left apart run busy ended
    obtain ⟨id, stands⟩ := (finishes_closeByKey.mp ended).waits_of_busy busy
    refine ⟨id, stands, fun later last passes => ?_⟩
    have spare : ∀ plan ∈ middle.plans, plan.Keeps (Protocol.within Request.sparesSessions) (fun _ _ => True) () := by
      refine run.spare fun plan member => ?_
      obtain ⟨activity, present, rfl⟩ := List.mem_map.mp member
      exact activity.sparesSessions_plan defaults (apart activity present)
    obtain ⟨now, said⟩ := passes.settled spare stands
    exact ⟨now, fun before state result after same => said before (state, result) after same⟩

/-- A command of the session, and its end. -/
def sampleWork : List Activity :=
  [.serve (.startCommand "key" "work" .tasks), .serve (.finishCommand "key" "work" .tasks .success none false)]

def samplePool : Pool Shared (Option Unit) :=
  { state := sessionStart, plans := sampleWork.map (Activity.plan {} Unit) }

def sampleTurns (pool : Pool Shared (Option Unit)) (places : List Nat) : Pool Shared (Option Unit) :=
  (pool.playTurns (Shared.respond (Shared.outsideOf default "")) places).2

def sampleClose (shared : Shared) : Except Failure Unit × Shared :=
  ((closeByKey {} "key").run.follow (Shared.respond (Shared.outsideOf default "")) shared).getD (.ok (), shared)

/-- The command has been started, and the session has been left to its timeout. -/
def leftPool : Pool Shared (Option Unit) :=
  let working := sampleTurns samplePool [0, 0, 0, 0]
  { working with state := (sampleClose working.state).2 }

/-- Another close has been refused, and the command has come to its end. -/
def donePool : Pool Shared (Option Unit) :=
  sampleTurns { leftPool with state := (sampleClose leftPool.state).2 } [1, 1, 1, 1]

theorem leftPool_is_closed_at_last :
    let refused := sampleClose leftPool.state
    let closed := sampleClose donePool.state
    let again := sampleClose closed.2
    (refused.1 = .error (.commandRunning "s") ∧ closed.1 = .ok () ∧ again.1 = .error .sessionExpired) ∧
      ∃ id, StandsAfter {} id "key" [(leftPool.state, refused.1), (donePool.state, closed.1), (closed.2, again.1)]
        again.2 := by
  intro refused closed again
  have closes (shared : Shared) (runs : ((closeByKey {} "key").run.follow
      (Shared.respond (Shared.outsideOf default "")) shared).isSome = true) :
      Finishes Shared.Answers (closeByKey {} "key") shared (sampleClose shared).1 (sampleClose shared).2 := by
    obtain ⟨ended, ran⟩ := Option.isSome_iff_exists.mp runs
    have same : sampleClose shared = ended := by rw [sampleClose, ran, Option.getD_some]
    rw [same]
    exact ends_follow Shared.answers_respond ran
  have plays (pool : Pool Shared (Option Unit)) (places : List Nat) :
      ∃ turns, pool.Plays Shared.Serves turns (sampleTurns pool places) :=
    ⟨_, Pool.plays_playTurns Shared.serves_respond places pool⟩
  let working := sampleTurns samplePool [0, 0, 0, 0]
  obtain ⟨_, begun⟩ := plays samplePool [0, 0, 0, 0]
  obtain ⟨_, ended⟩ := plays { leftPool with state := refused.2 } [1, 1, 1, 1]
  have deferred := closes working.state (by decide +kernel)
  have succeeds : (sampleClose working.state).1 = .ok () := by decide +kernel
  obtain ⟨id, -, settled⟩ := (running_commands_hold_sessions_open {} "key").2.2.2 sessionStart sampleWork [] working
    (sampleClose working.state).2 (by decide) (Passes.start.plays begun) (by decide +kernel) (succeeds ▸ deferred)
  have passes : Passes {} "key" leftPool
      [(leftPool.state, refused.1), (donePool.state, closed.1), (closed.2, again.1)]
      { donePool with state := again.2 } :=
    .closes (.closes ((Passes.closes .start (closes leftPool.state (by decide +kernel))).plays ended)
      (closes donePool.state (by decide +kernel))) (closes closed.2 (by decide +kernel))
  exact ⟨⟨by decide +kernel, by decide +kernel, by decide +kernel⟩, id, (settled _ _ passes).1⟩

end Session

end Dispatch
