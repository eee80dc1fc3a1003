import Dispatch.Proofs.Server.Footprint
import Dispatch.Proofs.Server.Shared
import Dispatch.Proofs.Session.Life
import Dispatch.Session.Closing
/-!
The life of sessions under all services at once. Every service keeps one rule: it opens sound sessions only, and what
it writes back is a session that it has looked up, closed or left to its timeout. However the services interleave,
what a service has seen of a session stays true up to steps that its life allows, so no write of an old session undoes
a later one.
-/
namespace Dispatch

open Plan

namespace Session

/-- A call of one of the services that work on sessions. -/
inductive Call
  | connect (credentials : Credentials) (clientHost : String) (options : ConnectOptions)
  | reconnect (credentials : Credentials) (clientHost id : String)
  | startCommand (key description : String) (category : History.Category)
  | finishCommand (key description : String) (category : History.Category) (status : History.Status)
    (object : Option String) (isChecked : Bool)
  | close (key : String)
  | closeExpired (now : Instant)

/-- What a call does. What it answers is for its caller alone. -/
def Call.plan (defaults : SessionDefaults) : Call → Plan Unit
  | connect credentials clientHost options => do
    let _ ← (Session.connect defaults credentials clientHost options).run
  | reconnect credentials clientHost id => do
    let _ ← (Session.reconnect credentials clientHost id).run
  | startCommand key description category => do
    let _ ← (Session.startCommand key description category).run
  | finishCommand key description category status object isChecked => do
    let _ ← (if isChecked then Session.finishCommand key description category status object
      else record key description category status object).run
  | close key => do
    let _ ← (closeByKey defaults key).run
  | closeExpired now => do
    let _ ← (Session.closeExpired defaults now).run

variable {defaults : SessionDefaults} {α β : Type}

/-- What a service may do to sessions, given those that it has seen. -/
def lifecycle (defaults : SessionDefaults) : Protocol (List Session) where
  permits
    | _, .store (.insertSession session) => session.IsSound defaults
    | seen, .store (.updateSession session) => ∃ row ∈ seen, row.Turns defaults session
    | _, _ => True
  learn
    | seen, .store (.findSession _), .ok found => found.toList ++ seen
    | seen, .store .activeSessions, .ok rows => rows ++ seen
    | seen, _, _ => seen

/-- Keeping the rule, with nothing said about the result. -/
abbrev LivesOn (defaults : SessionDefaults) (service : Service α) (seen : List Session) : Prop :=
  Tries (lifecycle defaults) (fun _ _ => True) (fun _ _ => True) service seen

/-- What neither opens a session nor writes one back. -/
theorem lifecycle_permits {seen : List Session} {request : Request}
    (member : request.isOfSession = true ∨ request.isOfInquiry = true) :
    (lifecycle defaults).permits seen request := by
  cases request with
  | store call =>
    cases call with
    | insertSession | updateSession =>
      simp [Request.isOfSession, Request.isOfInquiry, Request.isOfLogin] at member
    | _ => trivial
  | _ => trivial

theorem livesOn_session {service : Service α} (asks : Asks Request.isOfSession service) (seen : List Session) :
    LivesOn defaults service seen := Yields.tries_of_free asks fun _ _ member => lifecycle_permits (.inl member)

theorem livesOn_inquiry {service : Service α} (asks : Asks Request.isOfInquiry service) (seen : List Session) :
    LivesOn defaults service seen := Yields.tries_of_free asks fun _ _ member => lifecycle_permits (.inr member)

theorem livesOn_finish (key description : String) (category : History.Category) (status : History.Status)
    (object : Option String) (isChecked : Bool) (seen : List Session) :
    LivesOn defaults (if isChecked then finishCommand key description category status object
      else record key description category status object) seen := by
  have recorded := asks_record key description category status object
  split
  next => exact livesOn_session ((asks_check key).bind fun _ => recorded) seen
  next => exact livesOn_session recorded seen

/-- One service, and then another, whatever has been seen by then. -/
theorem LivesOn.bind {task : Service α} {rest : α → Service β} {seen : List Session}
    (first : LivesOn defaults task seen) (second : ∀ value later, LivesOn defaults (rest value) later) :
    LivesOn defaults (task >>= rest) seen :=
  (tries_bind _ _).mpr (first.mono (fun value later _ => second value later) fun _ _ _ => trivial)

/-- A new session is active, and has a timeout if it follows one. -/
theorem livesOn_connect (credentials : Credentials) (clientHost : String) (options : ConnectOptions)
    (seen : List Session) : LivesOn defaults (connect defaults credentials clientHost options) seen := by
  unfold connect
  refine (livesOn_inquiry (asks_authenticate credentials) seen).bind fun user seen => ?_
  refine tries_guard.mpr ⟨fun _ => trivial, fun _ => ?_⟩
  refine (livesOn_inquiry (asks_actingUser user _) seen).bind fun acting seen => ?_
  refine (livesOn_inquiry (Service.asks_ask rfl) seen).bind fun now seen => ?_
  refine (livesOn_inquiry (Service.asks_ask rfl) seen).bind fun nonce seen => ?_
  refine (livesOn_inquiry (Service.asks_ask rfl) seen).bind fun tail seen => ?_
  refine (livesOn_inquiry (asks_unusedId acting now _) seen).bind fun id seen => ?_
  refine (tries_bind _ _).mpr ((Service.tries_store _).mpr ⟨⟨by simp, ?_⟩, fun _ _ => trivial, fun _ _ => trivial⟩)
  exact defaults.fits_mode options.policy options.timeout

theorem livesOn_load (key : String) (seen : List Session) :
    Tries (lifecycle defaults) (fun session later => session ∈ later) (fun _ _ => True) (load key) seen := by
  unfold load
  rw [tries_bind, Service.tries_store]
  refine ⟨trivial, fun found _ => ?_, fun _ _ => trivial⟩
  cases found with
  | some session => exact List.mem_cons_self
  | none => trivial

theorem tries_markClosed {session : Session} {seen : List Session} (member : session ∈ seen) (instant : Instant) :
    Tries (lifecycle defaults) (fun _ later => later = seen) (fun _ _ => True) (session.markClosed instant) seen :=
  (Service.tries_store (.updateSession (session.close instant))).mpr
    ⟨⟨session, member, .close instant⟩, fun _ _ => rfl, fun _ _ => trivial⟩

theorem livesOn_closeByKey (key : String) (seen : List Session) :
    LivesOn defaults (closeByKey defaults key) seen := by
  unfold closeByKey
  rw [LivesOn, tries_bind]
  refine (livesOn_load key seen).mono (fun session later member => ?_) fun _ _ _ => trivial
  refine tries_guard.mpr ⟨fun _ => trivial, fun _ => ?_⟩
  unfold hasRunningCommand
  rw [tries_bind, tries_bind, Service.tries_store]
  refine ⟨trivial, fun entries _ => ?_, fun _ _ => trivial⟩
  rw [tries_pure]
  split
  next =>
    split
    next => exact (Service.tries_store _).mpr ⟨⟨session, member, .wait⟩, fun _ _ => trivial, fun _ _ => trivial⟩
    next => trivial
  next =>
    rw [tries_bind, Service.tries_ask]
    exact ⟨trivial, fun now _ => (tries_markClosed member now).mono (fun _ _ _ => trivial) fun _ _ _ => trivial⟩

/-- The sweep writes back only sessions of the list that it has been told. -/
theorem livesOn_closeExpiredAmong {sessions seen : List Session} (members : ∀ session ∈ sessions, session ∈ seen)
    (now : Instant) : LivesOn defaults (closeExpiredAmong defaults now sessions) seen := by
  induction sessions with
  | nil => trivial
  | cons session rest ih =>
    have later := ih fun other member => members other (by simp [member])
    unfold closeExpiredAmong
    split
    next =>
      rw [LivesOn, tries_bind]
      refine (tries_markClosed (members session (by simp)) now).mono ?_ fun _ _ _ => trivial
      rintro _ _ rfl
      exact later.bind fun _ _ => trivial
    next => exact later

theorem livesOn_closeExpired (now : Instant) (seen : List Session) :
    LivesOn defaults (closeExpired defaults now) seen := by
  unfold closeExpired
  rw [LivesOn, tries_bind, Service.tries_store]
  refine ⟨trivial, fun sessions _ => ?_, fun _ _ => trivial⟩
  exact livesOn_closeExpiredAmong (fun session member => List.mem_append.mpr (.inl member)) now

theorem Call.keeps_plan (call : Call) : (call.plan defaults).Keeps (lifecycle defaults) (fun _ _ => True) [] := by
  cases call with
  | connect credentials clientHost options => exact (livesOn_connect credentials clientHost options []).keeps
  | reconnect credentials clientHost id =>
    exact (livesOn_inquiry (inquires_reconnect credentials clientHost id) []).keeps
  | startCommand key description category =>
    exact (livesOn_session (asks_startCommand key description category) []).keeps
  | finishCommand key description category status object isChecked =>
    exact (livesOn_finish key description category status object isChecked []).keeps
  | close key => exact (livesOn_closeByKey key []).keeps
  | closeExpired now => exact (livesOn_closeExpired now []).keeps

/-- What has been seen of a session is sound, and true of its row up to steps of its life. -/
structure IsRemembered (defaults : SessionDefaults) (tables : Store.Tables) (session : Session) : Prop where
  sound : session.IsSound defaults
  row : ∃ row, tables.session? session.key = some row ∧ session.Became row

theorem IsRemembered.later {tables next : Store.Tables} {session : Session}
    (remembered : IsRemembered defaults tables session) (became : tables.SessionsBecame next) :
    IsRemembered defaults next session := by
  obtain ⟨row, found, since⟩ := remembered.row
  obtain ⟨later, foundLater, after⟩ := became session.key row found
  exact ⟨remembered.sound, later, foundLater, since.trans after⟩

theorem isRemembered_of_mem {tables : Store.Tables} {session : Session} (sound : tables.HasSoundSessions defaults)
    (member : session ∈ tables.sessions) : IsRemembered defaults tables session :=
  ⟨sound.sound session member, session, Store.Tables.session?_of_mem sound.distinct member, .refl session⟩

/-- A permitted call keeps all sessions sound, and lets each of them go on. -/
theorem lifecycle_call {tables : Store.Tables} {seen : List Session} {call : Store.Call}
    (sound : tables.HasSoundSessions defaults)
    (remembered : ∀ session ∈ seen, IsRemembered defaults tables session)
    (permitted : (lifecycle defaults).permits seen (.store call)) :
    (tables.answer call).2.HasSoundSessions defaults ∧ tables.SessionsBecame (tables.answer call).2 := by
  have untouched (same : (tables.answer call).2.sessions = tables.sessions) :
      (tables.answer call).2.HasSoundSessions defaults ∧ tables.SessionsBecame (tables.answer call).2 :=
    ⟨sound.of_eq same, .of_eq same⟩
  cases call with
  | insertSession session => exact Store.Tables.insertSession_life sound permitted
  | updateSession session =>
    obtain ⟨row, member, turned⟩ := permitted
    exact Store.Tables.updateSession_life sound turned (remembered row member).sound (remembered row member).row
  | touchSession key instant => exact Store.Tables.touchSession_life sound key instant
  | findSession | findSessionWithId | activeSessions => exact untouched rfl
  | _ => exact untouched (tables.answer_sessions rfl)

/-- What a service learns are rows as they are stored. -/
theorem lifecycle_learnt {shared next : Shared} {seen : List Session} {request : Request} {reply : request.Reply}
    (served : shared.ServesInAnyOrder request reply next) {session : Session}
    (member : session ∈ (lifecycle defaults).learn seen request reply) :
    session ∈ seen ∨ session ∈ shared.tables.sessions := by
  cases request with
  | store call =>
    cases reply with
    | error fault => cases call <;> exact .inl member
    | ok answer =>
      cases call with
      | findSession key =>
        rcases List.mem_append.mp member with found | known
        · have told : answer = shared.tables.session? key := Except.ok.inj (served.resolve_right fun failed => failed).1
          exact .inr (Store.Tables.session?_some (told ▸ Option.mem_toList.mp found)).1
        · exact .inl known
      | activeSessions =>
        rcases List.mem_append.mp member with listed | known
        · exact .inr (List.mem_filter.mp (served.1.mem_iff.mp listed)).1
        · exact .inl known
      | _ => exact .inl member
  | _ => exact .inl member

theorem lifecycle_step {shared next : Shared} {seen : List Session} {request : Request} {reply : request.Reply}
    (sound : shared.tables.HasSoundSessions defaults)
    (remembered : ∀ session ∈ seen, IsRemembered defaults shared.tables session)
    (permitted : (lifecycle defaults).permits seen request)
    (served : shared.ServesInAnyOrder request reply next) :
    next.tables.HasSoundSessions defaults ∧ shared.tables.SessionsBecame next.tables := by
  rcases served.serves_or_eq with exactly | rfl
  · cases request with
    | store call =>
      rcases Shared.serves_store exactly with ⟨_, rfl⟩ | ⟨_, rfl⟩
      · exact lifecycle_call sound remembered permitted
      · exact ⟨sound, .of_eq rfl⟩
    | _ =>
      have same := congrArg Store.Tables.sessions (exactly.tables_eq fun call => nofun)
      exact ⟨sound.of_eq same, .of_eq same⟩
  · exact ⟨sound, .of_eq rfl⟩

/-- The rule that holds throughout every run: of the stored sessions, of what has happened to them, and of what each
service has seen of them. -/
structure InOrder (defaults : SessionDefaults) (shared : Shared) (trace : List (Moment Shared))
    (seen : List (List Session)) : Prop where
  sound : shared.tables.HasSoundSessions defaults
  since : ∀ moment ∈ trace, moment.before.tables.SessionsBecame shared.tables
  remembered : ∀ sessions ∈ seen, ∀ session ∈ sessions, IsRemembered defaults shared.tables session

theorem InOrder.step {shared next : Shared} {trace : List (Moment Shared)} {front back : List (List Session)}
    {seen : List Session} {request : Request} {reply : request.Reply}
    (order : InOrder defaults shared trace (front ++ seen :: back))
    (permitted : (lifecycle defaults).permits seen request)
    (served : shared.ServesInAnyOrder request reply next) :
    InOrder defaults next (trace ++ [{ before := shared, request, reply, after := next }])
      (front ++ (lifecycle defaults).learn seen request reply :: back) := by
  have remembered := order.remembered seen (by simp)
  obtain ⟨sound, became⟩ := lifecycle_step order.sound remembered permitted served
  refine ⟨sound, fun moment member => ?_, ?_⟩
  · rcases List.mem_append.mp member with earlier | last
    · exact (order.since moment earlier).trans became
    · rw [List.mem_singleton.mp last]
      exact became
  · refine Pool.remembered_step order.remembered (fun session known => known.later became) fun session inside => ?_
    exact (lifecycle_learnt served inside).imp_right fun stored =>
      (isRemembered_of_mem order.sound stored).later became

/-- The rule holds at the end of every run of plans that keep it, and so at every moment of one. -/
theorem inOrder_of_kept {pool last : Pool Shared Unit} {trace : List (Moment Shared)}
    (sound : pool.state.tables.HasSoundSessions defaults)
    (kept : ∀ plan ∈ pool.plans, plan.Keeps (lifecycle defaults) (fun _ _ => True) [])
    (run : Pool.Runs Shared.ServesInAnyOrder pool trace last) : ∃ seen, InOrder defaults last.state trace seen := by
  have begins : InOrder defaults pool.state [] (pool.plans.map fun _ => []) := by
    refine ⟨sound, by simp, fun sessions member session inside => ?_⟩
    obtain ⟨_, _, rfl⟩ := List.mem_map.mp member
    cases inside
  obtain ⟨knowers, _, _, order⟩ := run.holds kept (fun _ _ _ _ _ => trivial) (InOrder defaults) begins
    fun _ _ _ _ _ _ _ _ order permitted served => order.step permitted served
  exact ⟨_, order⟩

theorem inOrder_of_runs {start : Shared} {calls : List Call} {trace : List (Moment Shared)}
    {last : Pool Shared Unit} (sound : start.tables.HasSoundSessions defaults)
    (run : Pool.Runs Shared.ServesInAnyOrder { state := start, plans := calls.map (Call.plan defaults) } trace last) :
    ∃ seen, InOrder defaults last.state trace seen := by
  refine inOrder_of_kept sound (fun plan member => ?_) run
  obtain ⟨call, _, rfl⟩ := List.mem_map.mp member
  exact call.keeps_plan

/-- From a store whose sessions are as they should be, so from one without any: whatever is called, however the calls
interleave, whatever keys and numbers are drawn, in whatever order sessions are listed and wherever the store fails,
in the end, which may be any state on the way, all sessions are sound, and no two have the same key or the same
identifier; and each session that was stored at some moment is still stored under its key, by the same login, and
closed if it was closed then. -/
theorem sessions_live_on {start : Shared} {calls : List Call} {trace : List (Moment Shared)}
    {last : Pool Shared Unit} (sound : start.tables.HasSoundSessions defaults)
    (run : Pool.Runs Shared.ServesInAnyOrder { state := start, plans := calls.map (Call.plan defaults) } trace last) :
    last.state.tables.HasSoundSessions defaults ∧
      ∀ moment ∈ trace, moment.before.tables.SessionsBecame last.state.tables := by
  obtain ⟨_, order⟩ := inOrder_of_runs sound run
  exact ⟨order.sound, order.since⟩

/-- A session of a user, and nothing else. -/
def sessionStart : Shared :=
  { tables := {
      users := [{ id := "alice", passwordHash := "" }]
      sessions := [{ (default : Session) with key := "key", id := "s", user := "alice", policy := .onDisconnect }] } }

theorem sessionStart_isSound : sessionStart.tables.HasSoundSessions {} := by
  refine ⟨⟨by decide, by decide⟩, fun session member => ?_⟩
  rw [List.mem_singleton.mp member]
  exact ⟨by decide, by decide, by decide⟩

/-- Two callers close a session at once. One has read it before a command is started, and reads the commands after
that: it would leave the session to its timeout, which the other has closed by then. -/
def sampleClosing : List (Moment Shared) × Pool Shared Unit :=
  let calls := [.startCommand "key" "work" .tasks, .close "key", .close "key"]
  Pool.play (Shared.respond (Shared.outsideOf default "")) [1, 2, 2, 0, 0, 0, 0, 2, 2, 1, 1]
    { state := sessionStart, plans := List.map (Call.plan {}) calls }

theorem sampleClosing_stays_closed :
    (sampleClosing.2.state.tables.sessions.map fun session => (session.state, session.policy)) =
      [(.closed, .onDisconnect)] ∧ sampleClosing.1.length = 11 ∧
    sampleClosing.2.state.tables.HasSoundSessions {} ∧
    ∀ moment ∈ sampleClosing.1, moment.before.tables.SessionsBecame sampleClosing.2.state.tables :=
  ⟨by decide +kernel, by decide +kernel, sessions_live_on sessionStart_isSound
    (Pool.runs_play (fun replied => Shared.servesInAnyOrder_of_serves (Shared.serves_respond replied)) _ _)⟩

end Session

end Dispatch
