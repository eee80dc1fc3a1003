import Dispatch.Proofs.Plan.Turns
import Dispatch.Proofs.Session.Works
/-!
Where sessions come from. On a server that began without sessions, whatever goes on there, each session that is stored
was put there by a connection, which has answered with it; and it still is the same login, with the same key.
-/
namespace Dispatch

open Plan

namespace Request

/-- What writes a session as a whole: a new one, or one that is put back into its row. -/
def writesSessions : Request → Bool
  | store (.insertSession _) | store (.updateSession _) => true
  | _ => false

/-- What puts no new session into the store. -/
def opensNone : Request → Bool
  | store (.insertSession _) => false
  | _ => true

theorem opensNone_of {request : Request} (other : request.isOfSession = true ∨ request.isOfInquiry = true ∨
    request.isOfClosing = true ∨ request.writesSessions = false) : request.opensNone = true := by
  cases request with
  | store call =>
    cases call with
    | insertSession => simp [isOfSession, isOfInquiry, isOfClosing, writesSessions] at other
    | _ => rfl
  | _ => rfl

end Request

/-- The keys of sessions are the same after any call that opens none. -/
theorem Store.Tables.keys_answer (tables : Tables) {call : Call} (opensNone : Request.opensNone (.store call) = true) :
    (tables.answer call).2.sessions.map Session.key = tables.sessions.map Session.key := by
  have replaced (session : Session) :
      (tables.replaceSession session).sessions.map Session.key = tables.sessions.map Session.key :=
    map_replace Session.key Session.key fun _ _ same => same
  cases concerns : Request.isOfSessions (.store call) with
  | false => rw [tables.answer_sessions concerns]
  | true =>
    cases call with
    | insertSession => cases opensNone
    | updateSession session =>
      rcases tables.updateSession_cases session with same | ⟨_, -, -, same⟩
      · rw [answer, same]
      · rw [answer, same, replaced]
    | touchSession key instant =>
      rcases tables.touchSession_cases key instant with same | ⟨_, -, same⟩
      · rw [answer, same]
      · rw [answer, same, replaced]
    | findSession | findSessionWithId | activeSessions => rfl
    | _ => cases concerns

namespace Session

variable {defaults : SessionDefaults}

/-- What a server runs: calls of the services that work on sessions, and whatever else writes no session as a whole. -/
inductive IsService (defaults : SessionDefaults) : Plan Unit → Prop
  | call (call : Call) : IsService defaults (call.plan defaults)
  | other {plan : Plan Unit}
      (spares : plan.Keeps (Protocol.within fun request => !request.writesSessions) (fun _ _ => True) ()) :
      IsService defaults plan

/-- A connection, whoever asks for it. -/
def IsConnection (defaults : SessionDefaults) (plan : Plan Unit) : Prop :=
  ∃ credentials clientHost options, plan = (Call.connect credentials clientHost options).plan defaults

theorem IsService.keeps {plan : Plan Unit} (service : IsService defaults plan) :
    plan.Keeps (lifecycle defaults) (fun _ _ => True) [] := by
  cases service with
  | call call => exact call.keeps_plan
  | other spares =>
    refine Keeps.of_footprint spares (fun _ => True) (fun seen request _ member => ⟨?_, fun _ => trivial⟩)
      (fun _ _ _ _ => trivial) trivial
    cases request with
    | store call =>
      cases call with
      | insertSession | updateSession => cases member
      | _ => trivial
    | _ => trivial

/-- Only connections open sessions. -/
theorem IsService.connects_or_opensNone {plan : Plan Unit} (service : IsService defaults plan) :
    IsConnection defaults plan ∨ plan.Keeps (Protocol.within Request.opensNone) (fun _ _ => True) () := by
  have spares {α : Type} {service : Service α} {allowed : Request → Bool} (asks : Asks allowed service)
      (only : ∀ request, allowed request = true → request.opensNone = true) :
      (do let _ ← service.run : Plan Unit).Keeps (Protocol.within Request.opensNone) (fun _ _ => True) () :=
    Tries.keeps (asks.mono only)
  have ofSession (request : Request) (member : request.isOfSession = true) : request.opensNone = true :=
    Request.opensNone_of (.inl member)
  have ofClosing (request : Request) (member : request.isOfClosing = true) : request.opensNone = true :=
    Request.opensNone_of (.inr (.inr (.inl member)))
  cases service with
  | call call =>
    cases call with
    | connect credentials clientHost options => exact .inl ⟨credentials, clientHost, options, rfl⟩
    | reconnect credentials clientHost id =>
      exact .inr (spares (inquires_reconnect credentials clientHost id) fun _ member =>
        Request.opensNone_of (.inr (.inl member)))
    | startCommand key description category =>
      exact .inr (spares (asks_startCommand key description category) ofSession)
    | finishCommand key description category status object isChecked =>
      have recorded := asks_record key description category status object
      cases isChecked with
      | true => exact .inr (spares ((asks_check key).bind fun _ => recorded) ofSession)
      | false => exact .inr (spares recorded ofSession)
    | close key => exact .inr (spares (closes_closeByKey key) ofClosing)
    | closeExpired now => exact .inr (spares (closes_closeExpired now) ofClosing)
  | other free =>
    refine .inr (Keeps.of_footprint free (fun _ => True) (fun _ request _ member => ⟨?_, fun _ => trivial⟩)
      (fun _ _ _ _ => trivial) trivial)
    exact Request.opensNone_of (.inr (.inr (.inr (by simpa using member))))

/-- The session that a moment puts into the store. -/
def opened? {σ : Type} : Moment σ → Option Session
  | ⟨_, .store (.insertSession session), .ok _, _⟩ => some session
  | _ => none

theorem request_of_opened {σ : Type} {moment : Moment σ} {session : Session} (opens : opened? moment = some session) :
    moment.request = .store (.insertSession session) := by
  obtain ⟨_, request, reply, _⟩ := moment
  cases request with
  | store call =>
    cases call with
    | insertSession other =>
      cases reply with
      | ok => rw [Option.some.inj opens]
      | error fault => cases opens
    | _ => cases opens
  | _ => cases opens

theorem opened?_bare {σ : Type} (moment : Moment σ) : opened? moment.bare = opened? moment := by
  obtain ⟨_, request, reply, _⟩ := moment
  cases request with
  | store call =>
    cases call with
    | insertSession session =>
      cases reply with
      | ok => rfl
      | error fault => rfl
    | _ => rfl
  | _ => rfl

/-- A plan answers with the one session that it puts into the store, and puts none there if it fails. -/
def Opens (service : Service Session) : Prop :=
  Logs (fun session log => log.filterMap opened? = [session]) (fun _ log => log.filterMap opened? = []) service

/-- What only inquires before changes nothing of that. -/
theorem opens_after {α : Type} {task : Service α} {rest : α → Service Session}
    (inquires : Asks Request.isOfInquiry task) (opens : ∀ value, Opens (rest value)) : Opens (task >>= rest) := by
  have opensNone {log : List (Moment Unit)} (inquired : ∀ moment ∈ log, moment.request.isOfInquiry = true) :
      log.filterMap opened? = [] := by
    refine List.filterMap_eq_nil_iff.mpr fun moment member => ?_
    refine Option.eq_none_iff_forall_ne_some.mpr fun session opens => ?_
    have other := inquired moment member
    rw [request_of_opened opens] at other
    cases other
  refine inquires.logs.bind (fun cause log inquired => opensNone inquired) fun value log inquired => ?_
  refine (opens value).mono (fun session more opened => ?_) fun cause more opened => ?_
  · rw [List.filterMap_append, opensNone inquired.2, opened, List.nil_append]
  · rw [List.filterMap_append, opensNone inquired.2, opened, List.nil_append]

theorem opens_connect (defaults : SessionDefaults) (credentials : Credentials) (clientHost : String)
    (options : ConnectOptions) : Opens (connect defaults credentials clientHost options) := by
  unfold connect
  refine opens_after (asks_authenticate credentials) fun user => logs_guard (fun _ => rfl) fun _ => ?_
  refine opens_after (asks_actingUser user _) fun acting => opens_after (Service.asks_ask rfl) fun now => ?_
  refine opens_after (Service.asks_ask rfl) fun nonce => opens_after (Service.asks_ask rfl) fun tail => ?_
  refine opens_after (asks_unusedId acting now _) fun id => ?_
  unfold Opens Logs
  rw [ensures_bind]
  apply (Service.ensures_store (.insertSession _)).mpr
  refine ⟨fun _ last answered => (ensures_pure _).mpr ?_, fun fault last answered => ?_⟩
  · rw [answered.2]
    rfl
  · rw [answered.2]
    rfl

/-- Whatever goes on meanwhile, what a connection has put into the store is what it answers with. -/
theorem opened_of_connect {σ : Type} {setting : Setting σ} {state : σ} {credentials : Credentials}
    {clientHost : String} {options : ConnectOptions} {result : Except Failure Session} {last : Recorded σ}
    (ended : Finishes setting.recorded (connect defaults credentials clientHost options) { state } result last) :
    last.trace.filterMap opened? = result.toOption.toList := by
  have opened := (opens_connect defaults credentials clientHost options) result _ ended.bare
  have bare : (last.trace.map Moment.bare).filterMap opened? = last.trace.filterMap opened? := by
    rw [List.filterMap_map]
    exact List.filterMap_congr fun moment _ => opened?_bare moment
  cases result with
  | ok session => exact bare.symm.trans opened
  | error cause => exact bare.symm.trans opened

/-- A row that is stored after a step is the session that the step has opened, or stood there under its key before. -/
theorem opened_or_stored {shared next : Shared} {request : Request} {reply : request.Reply} {row : Session}
    (served : shared.Serves request reply next) (stored : row ∈ next.tables.sessions) :
    opened? { before := shared, request, reply, after := next } = some row ∨
      ∃ old ∈ shared.tables.sessions, old.key = row.key := by
  have kept (same : next.tables.sessions.map key = shared.tables.sessions.map key) :
      ∃ old ∈ shared.tables.sessions, old.key = row.key := List.mem_map.mp (same ▸ List.mem_map_of_mem stored)
  cases request with
  | store call =>
    rcases Shared.serves_store served with ⟨rfl, rfl⟩ | ⟨_, rfl⟩
    · cases opensNone : Request.opensNone (.store call) with
      | true => exact .inr (kept (shared.tables.keys_answer opensNone))
      | false =>
        cases call with
        | insertSession session =>
          simp only [Store.Tables.answer, Store.Tables.insertSession] at stored ⊢
          split at stored
          next => exact .inr ⟨row, stored, rfl⟩
          next free =>
            rcases List.mem_append.mp stored with old | new
            · exact .inr ⟨row, old, rfl⟩
            · obtain rfl := List.mem_singleton.mp new
              rw [if_neg free]
              exact .inl rfl
        | _ => cases opensNone
    · exact .inr ⟨row, stored, rfl⟩
  | _ =>
    have other := served.tables_eq fun _ same => by cases same
    exact .inr (kept (by rw [other]))

section Pools

variable {pool middle next last : Pool Shared Unit} {turns : List (Dispatch.Turn Shared)} {turn : Dispatch.Turn Shared}

/-- A turn of a run opens a session: the plan that moves is a connection. -/
structure IsOpening (defaults : SessionDefaults) (pool : Pool Shared Unit) (turn : Dispatch.Turn Shared)
    (session : Session) : Prop where
  connects : ∃ plan, pool.plans[turn.place]? = some plan ∧ IsConnection defaults plan
  opens : opened? turn.moment = some session

/-- The login of a session that a turn of a run has opened. -/
def IsIssued (defaults : SessionDefaults) (pool : Pool Shared Unit) (turns : List (Dispatch.Turn Shared))
    (row : Session) : Prop :=
  ∃ turn ∈ turns, ∃ session, IsOpening defaults pool turn session ∧ session.IsSameLogin row

theorem IsIssued.of_same {row later : Session} (issued : IsIssued defaults pool turns row)
    (same : row.IsSameLogin later) : IsIssued defaults pool turns later := by
  obtain ⟨turn, member, session, opening, since⟩ := issued
  exact ⟨turn, member, session, opening, since.trans same⟩

theorem isOpening_of_opened (services : ∀ plan ∈ pool.plans, IsService defaults plan)
    (played : Pool.Plays Shared.Serves pool turns middle) (moves : Pool.Takes Shared.Serves middle turn next)
    {session : Session} (opens : opened? turn.moment = some session) : IsOpening defaults pool turn session := by
  have bound : turn.place < pool.plans.length := played.length ▸ moves.place_lt
  have begins := List.getElem?_eq_getElem bound
  refine ⟨⟨_, begins, ?_⟩, opens⟩
  rcases (services _ (List.getElem_mem bound)).connects_or_opensNone with connects | spares
  · exact connects
  · have opensNone : turn.moment.request.opensNone = true := by
      refine played.allowed moves fun plan same => ?_
      rw [begins] at same
      exact Option.some.inj same ▸ spares
    rw [request_of_opened opens] at opensNone
    cases opensNone

/-- What is in order throughout a run of services that begins without sessions. -/
theorem inOrder_of_plays (empty : pool.state.tables.sessions = [])
    (services : ∀ plan ∈ pool.plans, IsService defaults plan) (played : Pool.Plays Shared.Serves pool turns last) :
    ∃ seen, InOrder defaults last.state (turns.map Turn.moment) seen := by
  have sound : pool.state.tables.HasSoundSessions defaults := by
    refine ⟨⟨?_, ?_⟩, ?_⟩
    · simp [empty]
    · simp [empty]
    · simp [empty]
  exact inOrder_of_kept sound (fun plan member => (services plan member).keeps)
    (played.mono fun served => Shared.servesInAnyOrder_of_serves served).runs

/-- Each session that is stored was opened by a connection, and is the same login still. -/
theorem isIssued_of_mem (empty : pool.state.tables.sessions = [])
    (services : ∀ plan ∈ pool.plans, IsService defaults plan) (played : Pool.Plays Shared.Serves pool turns last) :
    ∀ row ∈ last.state.tables.sessions, IsIssued defaults pool turns row := by
  induction played with
  | start =>
    intro row member
    rw [empty] at member
    cases member
  | step run moves ih =>
    rename_i middle last turns turn
    obtain ⟨_, orderBefore⟩ := inOrder_of_plays empty services run
    obtain ⟨_, order⟩ := inOrder_of_plays empty services (.step run moves)
    intro row member
    have stored : row ∈ turn.moment.after.tables.sessions := moves.after_eq ▸ member
    rcases opened_or_stored moves.answered stored with opens | ⟨old, present, sameKey⟩
    · exact ⟨turn, by simp, row, isOpening_of_opened services run moves opens, .refl row⟩
    · rw [← moves.before_eq] at present
      obtain ⟨earlier, inside, session, opening, since⟩ := ih old present
      refine ⟨earlier, List.mem_append_left _ inside, session, opening, since.trans ?_⟩
      -- The row is found under the key of the old one, and so is what has become of the old one.
      have became : middle.state.tables.SessionsBecame last.state.tables := by
        have later := order.since turn.moment (by simp)
        rwa [← moves.before_eq] at later
      have found := Store.Tables.session?_of_mem orderBefore.sound.distinct present
      obtain ⟨later, foundLater, after⟩ := became old.key old found
      rw [sameKey, Store.Tables.session?_of_mem order.sound.distinct member] at foundLater
      exact Option.some.inj foundLater ▸ after.same

end Pools

end Session

end Dispatch
