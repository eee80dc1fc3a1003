import Dispatch.Proofs.Directory.Registry
import Dispatch.Proofs.Job.Lifecycle
import Dispatch.Proofs.Job.Monitor
import Dispatch.Proofs.Session.Lifecycle
import Dispatch.Proofs.Session.Recording
/-!
The history is kept by the start and the end of operations, and by nothing else: whatever work is done between the two,
and whoever logs in, closes sessions or follows jobs, leaves it alone. And it is by closes and sweeps alone that a
session is put back into its row.
-/
namespace Dispatch

open Plan

namespace Request

/-- What does not put a session back into its row. -/
def sparesSessions : Request → Bool
  | store (.updateSession _) => false
  | _ => true

/-- What closes and sweeps ask for. -/
def isOfClosing : Request → Bool
  | now | store (.findSession _) | store .activeSessions | store (.entriesOf _) | store (.updateSession _) => true
  | _ => false

theorem sparesHistory_of_isOfClosing {request : Request} (member : request.isOfClosing = true) :
    request.sparesHistory = true := by
  cases request with
  | store call =>
    cases call with
    | insertEntry | updateEntry => cases member
    | _ => rfl
  | _ => rfl

/-- What may be asked for the work between the start and the end of an operation. -/
def isOfWork (request : Request) : Bool := request.sparesHistory && request.sparesSessions

theorem sparesHistory_of_isOfWork {request : Request} (member : request.isOfWork = true) :
    request.sparesHistory = true := (Bool.and_eq_true_iff.mp member).1

theorem sparesSessions_of_isOfWork {request : Request} (member : request.isOfWork = true) :
    request.sparesSessions = true := (Bool.and_eq_true_iff.mp member).2

theorem isOfWork_of {request : Request} (other : request.isOutward = true ∨ request.isOfPlace = true ∨
    request.isOfMint = true ∨ request.isOfLogin = true ∨ request.isLookUp = true) : request.isOfWork = true := by
  cases request with
  | store call =>
    cases call with
    | insertEntry | updateEntry | updateSession => simp [isOutward, isOfPlace, isOfMint, isOfLogin, isLookUp] at other
    | _ => rfl
  | _ => rfl

theorem isOfWork_of_isOutward {request : Request} (outward : request.isOutward = true) : request.isOfWork = true :=
  isOfWork_of (.inl outward)

theorem isOfWork_of_isOfPlace {request : Request} (member : request.isOfPlace = true) : request.isOfWork = true :=
  isOfWork_of (.inr (.inl member))

theorem isOfWork_of_isOfMint {request : Request} (member : request.isOfMint = true) : request.isOfWork = true :=
  isOfWork_of (.inr (.inr (.inl member)))

theorem isOfWork_of_isOfLogin {request : Request} (member : request.isOfLogin = true) : request.isOfWork = true :=
  isOfWork_of (.inr (.inr (.inr (.inl member))))

theorem isOfWork_of_isLookUp {request : Request} (member : request.isLookUp = true) : request.isOfWork = true :=
  isOfWork_of (.inr (.inr (.inr (.inr member))))

theorem isOfWork_of_isOfPass {request : Request} (member : request.isOfPass = true) : request.isOfWork = true := by
  cases request with
  | store call =>
    cases call with
    | insertEntry | updateEntry | updateSession => cases member
    | _ => rfl
  | _ => rfl

theorem isOfWork_of_isOfRegistry {request : Request} (member : request.isOfRegistry = true) :
    request.isOfWork = true := by
  cases request with
  | store call =>
    cases call with
    | insertEntry | updateEntry | updateSession => cases member
    | _ => rfl
  | _ => cases member

theorem sparesSessions_of_isOfSession {request : Request} (member : request.isOfSession = true) :
    request.sparesSessions = true := by
  cases request with
  | store call =>
    cases call with
    | updateSession => cases member
    | _ => rfl
  | _ => rfl

end Request

/-- Work leaves the history alone. -/
theorem Plan.Asks.spares {ε α : Type} {task : ExceptT ε Plan α} (works : Asks Request.isOfWork task) :
    Asks Request.sparesHistory task := works.mono fun _ => Request.sparesHistory_of_isOfWork

open Request

namespace Session

theorem works_authorize (key : String) : Asks isOfWork (authorize key) :=
  (looksUp_authorize key).mono fun _ => isOfWork_of_isLookUp

theorem works_connect (defaults : SessionDefaults) (credentials : Credentials) (clientHost : String)
    (options : ConnectOptions) : Asks isOfWork (connect defaults credentials clientHost options) :=
  (asks_connect defaults credentials clientHost options).mono fun _ => isOfWork_of_isOfLogin

theorem works_reconnect (credentials : Credentials) (clientHost id : String) :
    Asks isOfWork (reconnect credentials clientHost id) :=
  (asks_reconnect credentials clientHost id).mono fun _ => isOfWork_of_isOfLogin

end Session

namespace Job

theorem works_load (id : String) : Asks isOfWork (load id) := by
  unfold load
  refine (Service.asks_store rfl).bind fun found => ?_
  cases found with
  | some job => exact yields_pure trivial
  | none => exact yields_throw _

theorem works_placeFor (machine user params : String) : Asks isOfWork (placeFor machine user params) :=
  (asks_placeFor machine user params).mono fun _ => isOfWork_of_isOfPlace

theorem works_place (job : Job) : Asks isOfWork job.place := job.asks_place.mono fun _ => isOfWork_of_isOfPlace

theorem works_submitFor (mint : Identifier.Mint) (caller : Caller) (machine script : String) (options : Options) :
    Asks isOfWork (submitFor mint caller machine script options) := by
  unfold submitFor
  refine (works_placeFor _ _ _).bind ?_
  rintro ⟨found, place⟩
  refine ((mint.asks_next _ _ _).mono fun _ => isOfWork_of_isOfMint).bind fun id _ => ?_
  refine tries_choice.mpr (((asks_home options machine caller.user.id).mono fun _ =>
    isOfWork_of_isOfPlace).bind fun home _ => ?_)
  refine (Service.asks_ask rfl).bind fun submittedAt => ?_
  have submits (options : Options) : Asks isOfWork (place.submit script options) :=
    (place.yields_submit script options).tries (Protocol.ignores_within fun _ => isOfWork_of_isOutward)
      (fun _ _ => trivial) fun _ => trivial
  refine (Service.asks_attempt (Service.asks_backend (submits _))).bind fun result => ?_
  cases result with
  | ok submitted => exact (Service.asks_store rfl).bind fun _ => yields_pure trivial
  | error failure =>
    exact (Service.asks_ask rfl).bind fun now => (Service.asks_store rfl).bind fun _ => yields_throw failure

theorem works_cancelAtPlace (job : Job) : Asks isOfWork job.cancelAtPlace := by
  have moves : Asks isOfWork (do
      let now ← Service.ask .now
      let _ ← Service.store (.transitionJob job.id .cancelled now)) :=
    (Service.asks_ask rfl).bind fun now => (Service.asks_store rfl).bind fun _ => yields_pure trivial
  unfold cancelAtPlace
  split
  next => exact moves
  next handle _ =>
    refine job.works_place.bind fun place => ?_
    refine (Service.asks_backend (place.asks_cancel handle fun request cancels => ?_)).bind fun _ => moves
    exact isOfWork_of_isOutward (isOutward_of_isCancelledBy cancels)

theorem works_retrieve (job : Job) : Asks isOfWork job.retrieve := by
  unfold retrieve
  split
  next =>
    refine job.works_place.bind fun place => ?_
    refine (Service.asks_backend (Backend.Task.asks_ofExcept _)).bind fun target => ?_
    refine (asks_stagingFile _ _ rfl).bind fun localOutput => (asks_stagingFile _ _ rfl).bind fun localError => ?_
    refine (asks_fetchBoth _ _ _ _ fun _ _ => rfl).bind fun fetched => ?_
    split
    next => exact (Service.asks_ask rfl).bind fun _ => (Service.asks_ask rfl).bind fun _ => yields_throw _
    next =>
      split
      next => exact (Service.asks_ask rfl).bind fun now => (Service.asks_store rfl).bind fun _ => yields_pure trivial
      next => exact yields_pure trivial
  next => exact yields_throw _

theorem works_retrieveAll (jobs : List Job) : Asks isOfWork (retrieveAll jobs) := by
  induction jobs with
  | nil => exact yields_pure trivial
  | cons job rest ih =>
    exact (Service.asks_attempt job.works_retrieve).bind fun result => ih.bind fun found => yields_pure trivial

theorem works_refresh (id : String) : Asks isOfWork (refresh id) :=
  (asks_refresh id).mono fun _ => isOfWork_of_isOfPass

theorem works_monitor : Asks isOfWork monitor := asks_monitor.mono fun _ => isOfWork_of_isOfPass

theorem works_startTime (key id : String) : Asks isOfWork (startTime key id) := by
  unfold startTime
  refine (Session.works_authorize key).bind fun caller => (works_load id).bind fun job =>
    (Service.asks_ofExcept _).bind fun _ => ?_
  split
  next => exact yields_pure trivial
  next => exact yields_pure trivial
  next handle _ _ =>
    refine job.works_place.bind fun place => Service.asks_backend ?_
    exact (place.asks_startTime handle).mono fun _ member => isOfWork_of_isOutward (isOutward_of_isHarmless member)

theorem works_queues (key machine : String) (wanted : Option String) : Asks isOfWork (queues key machine wanted) := by
  unfold queues
  refine (Session.works_authorize key).bind fun caller => (works_placeFor _ _ _).bind fun found => ?_
  refine Service.asks_backend ((found.2.asks_queues wanted).mono fun _ member => ?_)
  exact isOfWork_of_isOutward (isOutward_of_isHarmless member)

theorem works_list (key : String) : Asks isOfWork (list key) :=
  (Session.works_authorize key).bind fun _ => (Service.asks_store rfl).bind fun _ => yields_pure trivial

end Job

namespace AuthSystem

theorem works_insert (mint : Identifier.Mint) (entry : Entry) : Asks isOfWork (insert mint entry) := by
  have stores (system : AuthSystem) := (asks_stores system).mono fun _ => isOfWork_of_isOfRegistry
  unfold insert
  refine yields_guard fun _ => (Service.asks_ofExcept _).bind fun _ => (Service.asks_store rfl).bind fun systems => ?_
  refine yields_guard fun _ => ?_
  cases entry.id with
  | none => exact ((mint.asks_next _ _ _).mono fun _ => isOfWork_of_isOfMint).bind fun id _ => stores _
  | some id => exact (Service.asks_store rfl).bind fun found => yields_guard fun _ => stores _

theorem works_apply (id : String) (changes : Changes) : Asks isOfWork (apply id changes) :=
  (asks_apply id changes).mono fun _ => isOfWork_of_isOfRegistry

theorem works_remove (id : String) : Asks isOfWork (remove id) :=
  (asks_remove id).mono fun _ => isOfWork_of_isOfRegistry

end AuthSystem

namespace Session

/-- The job that is worked on with a key, for that purpose. -/
def asOwner (key id purpose : String) : Service Job := do
  let caller ← authorize key
  let job ← Job.load id
  Service.ofExcept (Job.requireOwner caller job purpose)
  return job

theorem cancel_eq (key id : String) : Job.cancel key id = asOwner key id "cancel" >>= fun job =>
    if job.status.isTerminal then pure () else within key s!"cancel {id}" .tasks (fun _ => none) job.cancelAtPlace := by
  unfold Job.cancel asOwner
  simp only [LawfulMonad.bind_assoc, LawfulMonad.pure_bind]

theorem output_eq (key id : String) : Job.output key id = asOwner key id "retrieve the output of" >>= fun job =>
    within key s!"get output {id}" .files (fun _ => none) job.retrieve := by
  unfold Job.output asOwner
  simp only [LawfulMonad.bind_assoc, LawfulMonad.pure_bind]

theorem works_asOwner (key id purpose : String) : Asks isOfWork (asOwner key id purpose) :=
  (works_authorize key).bind fun _ => (Job.works_load id).bind fun _ => (Service.asks_ofExcept _).bind fun _ =>
    yields_pure trivial

variable {defaults : SessionDefaults}

theorem closes_closeByKey (key : String) : Asks isOfClosing (closeByKey defaults key) := by
  have loads : Asks isOfClosing (load key) := by
    unfold load
    refine (Service.asks_store rfl).bind fun found => ?_
    cases found with
    | some session => exact yields_pure trivial
    | none => exact yields_throw _
  have runs : Asks isOfClosing (hasRunningCommand key) := (Service.asks_store rfl).bind fun _ => yields_pure trivial
  unfold closeByKey
  refine loads.bind fun session => yields_guard fun _ => runs.bind fun running => ?_
  split
  next =>
    split
    next => exact Service.asks_store rfl
    next => exact yields_throw _
  next => exact (Service.asks_ask rfl).bind fun now => Service.asks_store rfl

theorem closes_closeExpired (now : Instant) : Asks isOfClosing (closeExpired defaults now) := by
  have closes (sessions : List Session) : Asks isOfClosing (closeExpiredAmong defaults now sessions) := by
    induction sessions with
    | nil => exact yields_pure trivial
    | cons session rest ih =>
      unfold closeExpiredAmong
      split
      next => exact (Service.asks_store rfl).bind fun _ => ih.bind fun _ => yields_pure trivial
      next => exact ih
  exact (Service.asks_store rfl).bind closes

theorem spares_closeByKey (key : String) : Asks sparesHistory (closeByKey defaults key) :=
  (closes_closeByKey key).mono fun _ => sparesHistory_of_isOfClosing

theorem spares_closeExpired (now : Instant) : Asks sparesHistory (closeExpired defaults now) :=
  (closes_closeExpired now).mono fun _ => sparesHistory_of_isOfClosing

end Session

end Dispatch
