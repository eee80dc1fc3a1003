import Dispatch.Proofs.Instant.Order
import Dispatch.Proofs.Plan.Turns
import Dispatch.Proofs.Session.Lifecycle
/-!
Sessions and the clock. The activity of a session is an instant that somebody has read from the clock; and what is
written back of a session is what somebody has been told of it, the sweep writing back those that have expired.
-/
namespace Dispatch

open Plan

namespace Session

variable {defaults : SessionDefaults} {α σ : Type}

/-- The instant that a moment reads from the clock. -/
def clock? : Moment σ → Option Instant
  | ⟨_, .now, instant, _⟩ => some instant
  | _ => none

/-- The sessions that a moment tells of. -/
def sessionsTold (moment : Moment σ) : List Session :=
  (lifecycle {}).learn [] moment.request moment.reply

@[simp]
theorem clock?_bare (moment : Moment σ) : clock? moment.bare = clock? moment := by
  obtain ⟨_, request, _, _⟩ := moment
  cases request <;> rfl

/-- Sessions are opened and refreshed at instants that have been read from the clock. -/
def punctual (log : List (Moment Unit)) : Request → Prop
  | .store (.insertSession session) => ∃ moment ∈ log, clock? moment = some session.lastActivityAt
  | .store (.touchSession _ instant) => ∃ moment ∈ log, clock? moment = some instant
  | _ => True

/-- What is neither the opening of a session nor a refresh. -/
def isTimeless : Request → Bool
  | .store (.insertSession _) | .store (.touchSession ..) => false
  | _ => true

theorem punctual_of_timeless {log : List (Moment Unit)} {request : Request} (timeless : isTimeless request = true) :
    punctual log request := by
  cases request with
  | store call =>
    cases call with
    | insertSession | touchSession => cases timeless
    | _ => trivial
  | _ => trivial

theorem isTimeless_of_isOfIdentity {request : Request} (member : request.isOfIdentity = true) :
    isTimeless request = true := by
  cases request with
  | store call =>
    cases call with
    | insertSession | touchSession => cases member
    | _ => rfl
  | _ => rfl

theorem isTimeless_of_isLookUp {request : Request} (member : request.isLookUp = true) :
    isTimeless request = true := by
  cases request with
  | store call =>
    cases call with
    | insertSession | touchSession => cases member
    | _ => rfl
  | _ => rfl

variable {log : List (Moment Unit)}

/-- What is timeless, and then the rest. -/
theorem minds_after_timeless {β : Type} {service : Service α} {rest : α → Service β}
    (asks : Asks isTimeless service) (next : ∀ value longer, log ⊆ longer → Minds punctual (rest value) longer) :
    Minds punctual (service >>= rest) log :=
  Minds.after asks (fun _ _ _ member => punctual_of_timeless member) fun value longer _ adds =>
    next value longer adds.subset

theorem minds_timeless {service : Service α} (asks : Asks isTimeless service) : Minds punctual service log :=
  (Yields.minds asks fun _ _ _ member => punctual_of_timeless member).mono (fun _ _ _ => trivial)
    fun _ _ _ => trivial

/-- Reading the clock, and then the rest. -/
theorem minds_after_now {β : Type} {rest : Instant → Service β}
    (next : ∀ now longer, (∃ moment ∈ longer, clock? moment = some now) → Minds punctual (rest now) longer) :
    Minds punctual (Service.ask .now >>= rest) log := by
  rw [Minds, tries_bind, Service.tries_ask]
  exact ⟨trivial, fun now _ => next now _ ⟨_, List.mem_append_right _ (List.mem_singleton.mpr rfl), rfl⟩⟩

/-- A session that is opened or refreshed in time, and then the rest. -/
theorem minds_store {β : Type} {call : Store.Call} {rest : call.Answer → Service β}
    (punctually : punctual log (.store call)) (next : ∀ answer longer, Minds punctual (rest answer) longer) :
    Minds punctual (Service.store call >>= rest) log := by
  rw [Minds, tries_bind, Service.tries_store]
  exact ⟨punctually, fun answer _ => next answer _, fun _ _ => trivial⟩

theorem minds_connect (credentials : Credentials) (clientHost : String) (options : ConnectOptions) :
    Minds punctual (connect defaults credentials clientHost options) log := by
  have timeless {α : Type} {service : Service α} (asks : Asks Request.isOfIdentity service) :
      Asks isTimeless service := asks.mono fun _ => isTimeless_of_isOfIdentity
  unfold connect
  refine minds_after_timeless (timeless (identifies_authenticate credentials)) fun user log _ => ?_
  refine tries_guard.mpr ⟨fun _ => trivial, fun _ => ?_⟩
  refine minds_after_timeless (timeless (identifies_actingUser user _)) fun acting log _ => ?_
  refine minds_after_now fun now log ⟨moment, member, reads⟩ => ?_
  refine minds_after_timeless (Service.asks_ask rfl) fun nonce log first => ?_
  refine minds_after_timeless (Service.asks_ask rfl) fun tail log second => ?_
  refine minds_after_timeless (timeless (identifies_unusedId acting now _)) fun id log third => ?_
  exact minds_store ⟨moment, third (second (first member)), reads⟩ fun _ _ => trivial

theorem minds_returnTo (session : Session) (isAllowed : Bool) : Minds punctual (returnTo session isAllowed) log := by
  unfold returnTo
  refine tries_guard.mpr ⟨fun _ => trivial, fun _ => ?_⟩
  refine minds_after_now fun now log read => minds_store read fun touched log => ?_
  split
  next => trivial
  next => trivial

theorem minds_reconnect (credentials : Credentials) (clientHost id : String) :
    Minds punctual (reconnect credentials clientHost id) log := by
  rw [reconnect_eq]
  refine minds_after_timeless (Service.asks_store rfl) fun found log _ => ?_
  cases found with
  | none => trivial
  | some user =>
    refine minds_after_timeless (Service.asks_store rfl) fun found log _ => ?_
    cases found with
    | none => trivial
    | some session =>
      refine tries_guard.mpr ⟨fun _ => trivial, fun _ => ?_⟩
      have proof := (identifies_authenticate credentials).mono fun _ => isTimeless_of_isOfIdentity
      refine minds_after_timeless (Service.asks_attempt proof) fun authenticated log _ => ?_
      exact minds_after_timeless (Service.asks_ofExcept _) fun isProven log _ => minds_returnTo session _

theorem asks_check_timeless (key : String) : Asks isTimeless (check key) :=
  ((looksUp_authorize key).mono fun _ => isTimeless_of_isLookUp).bind fun _ _ => yields_pure trivial

theorem minds_startCommand (key description : String) (category : History.Category) :
    Minds punctual (startCommand key description category) log :=
  minds_timeless <| (asks_check_timeless key).bind fun _ => (Service.asks_ask rfl).bind fun _ =>
    Service.asks_store rfl

theorem minds_record (key description : String) (category : History.Category) (status : History.Status)
    (object : Option String) : Minds punctual (record key description category status object) log := by
  unfold record
  refine minds_after_now fun now log read => minds_store read fun touched log => ?_
  refine minds_after_timeless (Service.asks_store rfl) fun entries log _ => minds_timeless ?_
  split
  next => exact Service.asks_store rfl
  next => exact (Service.asks_store rfl).bind fun _ => yields_pure trivial

theorem minds_closeByKey (key : String) : Minds punctual (closeByKey defaults key) log := by
  have loads : Asks isTimeless (load key) := by
    unfold load
    refine (Service.asks_store rfl).bind fun found => ?_
    cases found with
    | some session => exact yields_pure trivial
    | none => exact yields_throw _
  have looks : Asks isTimeless (hasRunningCommand key) :=
    (Service.asks_store rfl).bind fun entries => yields_pure trivial
  unfold closeByKey
  refine minds_timeless <| loads.bind fun session => yields_guard fun _ => looks.bind fun isRunning => ?_
  split
  next =>
    split
    next => exact Service.asks_store rfl
    next => exact yields_throw _
  next => exact (Service.asks_ask rfl).bind fun now => Service.asks_store rfl

theorem asks_closeExpired (now : Instant) : Asks isTimeless (closeExpired defaults now) := by
  have closes (sessions : List Session) : Asks isTimeless (closeExpiredAmong defaults now sessions) := by
    induction sessions with
    | nil => exact yields_pure trivial
    | cons session rest ih =>
      unfold closeExpiredAmong
      split
      next => exact (Service.asks_store rfl).bind fun _ => ih.bind fun _ => yields_pure trivial
      next => exact ih
  exact (Service.asks_store rfl).bind closes

theorem Call.punctual_plan (call : Call) :
    (call.plan defaults).Keeps (mindful punctual) (fun _ _ => True) [] := by
  cases call with
  | connect credentials clientHost options => exact (minds_connect credentials clientHost options).keeps
  | reconnect credentials clientHost id => exact (minds_reconnect credentials clientHost id).keeps
  | startCommand key description category => exact (minds_startCommand key description category).keeps
  | finishCommand key description category status object isChecked =>
    have finishes : Minds punctual (if isChecked then Session.finishCommand key description category status object
        else record key description category status object) [] := by
      split
      next => exact minds_after_timeless (asks_check_timeless key) fun _ _ _ => minds_record _ _ _ _ _
      next => exact minds_record _ _ _ _ _
    exact finishes.keeps
  | close key => exact (minds_closeByKey key).keeps
  | closeExpired now => exact (minds_timeless (asks_closeExpired now)).keeps

/-- What the sweep writes back are sessions that it has been told of, as they are once closed; they have expired. -/
def sweeping (defaults : SessionDefaults) (now : Instant) (log : List (Moment Unit)) : Request → Prop
  | .store (.updateSession session) =>
    ∃ moment ∈ log, ∃ row ∈ sessionsTold moment, row.isExpired defaults now = true ∧ session = row.close now
  | _ => True

theorem sweeps_closeExpired (now : Instant) :
    Minds (sweeping defaults now) (closeExpired defaults now) log := by
  have closes (sessions : List Session) (log : List (Moment Unit))
      (told : ∃ moment ∈ log, ∀ session ∈ sessions, session ∈ sessionsTold moment) :
      Minds (sweeping defaults now) (closeExpiredAmong defaults now sessions) log := by
    induction sessions generalizing log with
    | nil => trivial
    | cons session rest ih =>
      obtain ⟨moment, member, tells⟩ := told
      unfold closeExpiredAmong
      split
      next expired =>
        refine (tries_bind _ _).mpr ((Service.tries_store (.updateSession (session.close now))).mpr ⟨?_, ?_, ?_⟩)
        · exact ⟨moment, member, session, tells session (by simp), expired, rfl⟩
        · refine fun _ _ => Minds.bind (ih _ ?_) fun _ _ _ => trivial
          exact ⟨moment, List.mem_append_left _ member, fun other inside => tells other (by simp [inside])⟩
        · exact fun _ _ => trivial
      next => exact ih log ⟨moment, member, fun other inside => tells other (by simp [inside])⟩
  unfold closeExpired
  rw [Minds, tries_bind, Service.tries_store]
  refine ⟨trivial, fun sessions _ => closes sessions _ ?_, fun _ _ => trivial⟩
  exact ⟨_, List.mem_append_right _ (List.mem_singleton.mpr rfl), fun session member =>
    List.mem_append_left _ member⟩

/-- What is written back is made of a session that has been told of. -/
def writingBack (defaults : SessionDefaults) (log : List (Moment Unit)) : Request → Prop
  | .store (.updateSession session) => ∃ moment ∈ log, ∃ row ∈ sessionsTold moment, row.Turns defaults session
  | _ => True

theorem sessionsTold_of_learn {seen : List Session} {request : Request} {reply : request.Reply} {session : Session}
    (member : session ∈ (lifecycle defaults).learn seen request reply) :
    session ∈ seen ∨ session ∈ sessionsTold { before := (), request, reply, after := () } := by
  cases request with
  | store call =>
    cases reply with
    | error fault => cases call <;> exact .inl member
    | ok answer =>
      cases call with
      | findSession | activeSessions =>
        rcases List.mem_append.mp member with new | known
        · exact .inr (List.mem_append_left _ new)
        · exact .inl known
      | _ => exact .inl member
  | _ => exact .inl member

/-- Who has seen a session by the rules of their life has been told of it. -/
theorem writesBack_of_lifecycle {plan : Plan α} {ends : α → List Session → Prop} {seen : List Session}
    (kept : plan.Keeps (lifecycle defaults) ends seen)
    (told : ∀ session ∈ seen, ∃ moment ∈ log, session ∈ sessionsTold moment) :
    plan.Keeps (mindful (writingBack defaults)) (fun _ _ => True) log := by
  induction plan generalizing seen log with
  | done value => trivial
  | ask request next ih =>
    obtain ⟨permitted, keeps⟩ := kept
    refine ⟨?_, fun reply _ => ih reply (keeps reply trivial) fun session member => ?_⟩
    · cases request with
      | store call =>
        cases call with
        | updateSession session =>
          obtain ⟨row, member, turned⟩ := permitted
          obtain ⟨moment, present, tells⟩ := told row member
          exact ⟨moment, present, row, tells, turned⟩
        | _ => trivial
      | _ => trivial
    · rcases sessionsTold_of_learn member with known | new
      · obtain ⟨moment, present, tells⟩ := told session known
        exact ⟨moment, List.mem_append_left _ present, tells⟩
      · exact ⟨_, List.mem_append_right _ (List.mem_singleton.mpr rfl), new⟩

theorem Call.writesBack_plan (call : Call) :
    (call.plan defaults).Keeps (mindful (writingBack defaults)) (fun _ _ => True) [] :=
  writesBack_of_lifecycle call.keeps_plan (by simp)

end Session

end Dispatch
