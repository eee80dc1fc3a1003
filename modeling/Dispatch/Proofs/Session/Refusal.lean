import Dispatch.Directory.Registry
import Dispatch.Job.Retrieval
import Dispatch.Job.Submission
import Dispatch.Job.Tracking
import Dispatch.Proofs.Plan.Record
import Dispatch.Proofs.Server.Footprint
import Dispatch.Proofs.Server.Shared
/-!
Refusals at the gate. Whom the tables admit is settled by two rows of theirs, the session and its user; every
operation of a session asks for these before anything else, so that one who is refused has done nothing.
-/
namespace Dispatch

open Plan

/-- Who passes the gate with a key. -/
def Store.Tables.admitted (tables : Store.Tables) (key : String) : Except Failure Caller :=
  match tables.session? key with
  | none => .error .sessionNotFound
  | some session =>
    if !session.isActive then .error .sessionExpired
    else
      match tables.user? session.user with
      | none => .error (.unknownUser session.user)
      | some user => user.validate.map fun _ => { session, user }

namespace Session

variable {shared : Shared}

theorem reads_load (key : String) : Reads Shared.Answers (load key) shared
    (match shared.tables.session? key with
      | some session => .ok session
      | none => .error .sessionNotFound) := by
  unfold load
  refine (Service.reads_store (.findSession key) fun _ _ => Shared.answers_iff_of_told rfl).bind ?_
  cases shared.tables.session? key with
  | some session => exact reads_pure session
  | none => exact reads_throw _

/-- What the gate says is a matter of the tables, and they stay as they are. -/
theorem reads_authorize (key : String) :
    Reads Shared.Answers (authorize key) shared (shared.tables.admitted key) := by
  have loads : Reads Shared.Answers (load key) shared _ := reads_load key
  unfold authorize Store.Tables.admitted
  cases found : shared.tables.session? key with
  | none =>
    rw [found] at loads
    exact loads.bind_error _
  | some session =>
    rw [found] at loads
    refine loads.bind ?_
    by_cases active : session.isActive = true
    · simp only [active, Bool.not_true, Bool.false_eq_true, if_false]
      refine (Service.reads_store (.findUser _) fun _ _ => Shared.answers_iff_of_told rfl).bind ?_
      cases shared.tables.user? session.user with
      | none => exact reads_throw _
      | some user => exact (Service.reads_ofExcept user.validate).map _
    · simp only [active, Bool.not_false, if_true]
      exact (reads_throw _).bind_error _

theorem reads_check (key : String) :
    Reads Shared.Answers (check key) shared ((shared.tables.admitted key).map fun _ => ()) :=
  (reads_authorize key).map fun _ => ()

/-- What can be done with the key of a session, with all that it takes beside the key. -/
inductive Operation
  | startCommand (description : String) (category : History.Category)
  | finishCommand (description : String) (category : History.Category) (status : History.Status)
    (object : Option String)
  | submit (mint : Identifier.Mint) (machine script : String) (options : Job.Options)
  | cancel (job : String)
  | startTime (job : String)
  | queues (machine : String) (wanted : Option String)
  | list
  | output (job : String)
  | outputs
  | addAuthSystem (mint : Identifier.Mint) (entry : AuthSystem.Entry)
  | updateAuthSystem (system : String) (changes : AuthSystem.Changes)
  | deleteAuthSystem (system : String)
  | listAuthSystems (wanted : Option String) (includeDeleted : Bool)

namespace Operation

@[reducible] def Answer : Operation → Type
  | startCommand .. => Nat
  | finishCommand .. => Unit
  | submit .. => Job
  | cancel _ => Unit
  | startTime _ => Option Instant
  | queues .. => List Batch.Queue
  | list => List Job
  | output _ => Job.Output
  | outputs => List Job.Output
  | addAuthSystem .. => AuthSystem
  | updateAuthSystem .. => AuthSystem
  | deleteAuthSystem _ => Unit
  | listAuthSystems .. => List AuthSystem

def service (key : String) : (operation : Operation) → Service operation.Answer
  | startCommand description category => Session.startCommand key description category
  | finishCommand description category status object =>
    Session.finishCommand key description category status object
  | submit mint machine script options => Job.submit mint key machine script options
  | cancel job => Job.cancel key job
  | startTime job => Job.startTime key job
  | queues machine wanted => Job.queues key machine wanted
  | list => Job.list key
  | output job => Job.output key job
  | outputs => Job.outputs key
  | addAuthSystem mint entry => AuthSystem.add mint key entry
  | updateAuthSystem system changes => AuthSystem.update key system changes
  | deleteAuthSystem system => AuthSystem.delete key system
  | listAuthSystems wanted includeDeleted => AuthSystem.list key wanted includeDeleted

/-- The gate stands before all the rest. -/
theorem service_eq (operation : Operation) (key : String) :
    ∃ rest : Caller → Service operation.Answer, operation.service key = authorize key >>= rest := by
  cases operation with
  | startCommand | finishCommand => exact ⟨_, bind_assoc (authorize key) _ _⟩
  | submit | cancel | startTime | queues | list | output | outputs | addAuthSystem | updateAuthSystem |
    deleteAuthSystem | listAuthSystems => exact ⟨_, rfl⟩

end Operation

/-- The check is the gate without what comes of it. -/
theorem finishes_check {σ : Type} {setting : Setting σ} {state last : σ} {key : String}
    {result : Except Failure Caller} (ended : Finishes setting (authorize key) state result last) :
    Finishes setting (check key) state (result.map fun _ => ()) last := by
  cases result with
  | ok caller => exact (finishes_bind _ _ _).mpr (.inl ⟨caller, last, ended, (finishes_pure () _).mpr ⟨rfl, rfl⟩⟩)
  | error cause => exact (finishes_bind _ _ _).mpr (.inr ⟨cause, ended, rfl⟩)

/-- Looking up changes nothing, even where it fails. -/
theorem eq_of_check {key : String} {result : Except Failure Unit} {last : Shared}
    (checked : Finishes Shared.Serves (check key) shared result last) : last = shared := by
  have looksUp : Asks Request.isLookUp (check key) := (looksUp_authorize key).bind fun _ => yields_pure trivial
  refine looksUp.invariant (fun state => state = shared) checked ?_ rfl
  intro state next request reply member served same
  rw [← same]
  cases request with
  | store call =>
    rcases Shared.serves_store served with ⟨_, rfl⟩ | ⟨_, rfl⟩
    · cases call with
      | findSession | findUser => rfl
      | _ => cases member
    · rfl
  | _ => cases member

/-- The gate changes nothing, and whom it refuses every operation refuses for the same cause, with nothing changed
that is shared. On any server at all, one whose store fails included, that lets nobody pass with a key, an operation
with that key ends as the check does, and asks for nothing but the session and its user. -/
theorem refused_by_all (shared : Shared) (key : String) :
    (∀ result last, Finishes Shared.Serves (check key) shared result last → last = shared) ∧
    (∀ cause last, Finishes Shared.Answers (check key) shared (.error cause) last → ∀ operation : Operation,
      Reads Shared.Answers (operation.service key) shared (.error cause)) ∧
    ∀ setting : Setting Shared, (∀ last, ¬Finishes setting (check key) shared (.ok ()) last) →
      ∀ (operation : Operation) result last,
        Finishes setting.recorded (operation.service key) { state := shared } result last →
        (∃ cause, result = .error cause ∧ Finishes setting (check key) shared (.error cause) last.state) ∧
        ∀ moment ∈ last.trace, moment.request.isLookUp = true := by
  refine ⟨fun _ _ => eq_of_check, fun cause last checked operation => ?_, fun setting closed operation => ?_⟩
  · have refused : shared.tables.admitted key = .error cause := by
      have said := ((reads_check key _ _).mp checked).1
      cases told : shared.tables.admitted key with
      | ok caller =>
        rw [told] at said
        cases said
      | error other =>
        rw [told] at said
        cases said
        rfl
    have gate : Reads Shared.Answers (authorize key) shared _ := reads_authorize key
    rw [refused] at gate
    obtain ⟨rest, same⟩ := operation.service_eq key
    rw [same]
    exact gate.bind_error rest
  · obtain ⟨rest, same⟩ := operation.service_eq key
    rw [same]
    intro result last ended
    rcases (finishes_bind _ _ _).mp ended with ⟨caller, middle, passed, _⟩ | ⟨cause, failed, rfl⟩
    · exact absurd (finishes_check passed.forget) (closed middle.state)
    · exact ⟨⟨cause, rfl, finishes_check failed.forget⟩, (looksUp_authorize key).all_of_recorded failed⟩

/-- Nothing but a session that has been closed. -/
def afterClosing : Shared :=
  { tables := {
      sessions := [{ (default : Session) with key := "key", state := .closed, closedAt := some default }] } }

theorem submission_refused_after_closing :
    Finishes Shared.Answers (check "key") afterClosing (.error .sessionExpired) afterClosing ∧
    Reads Shared.Answers (Job.submit {} "key" "cluster" "run.sh" {}) afterClosing (.error .sessionExpired) ∧
    ∀ result last, Finishes Shared.Answers.recorded (Job.submit {} "key" "cluster" "run.sh" {})
        { state := afterClosing } result last → ∀ moment ∈ last.trace, moment.request.isLookUp = true := by
  have refused : Finishes Shared.Answers (check "key") afterClosing (.error .sessionExpired) afterClosing :=
    (reads_check "key" _ _).mpr ⟨rfl, rfl⟩
  have closed (last : Shared) : ¬Finishes Shared.Answers (check "key") afterClosing (.ok ()) last := fun passed =>
    nomatch ((reads_check "key" _ _).mp passed).1
  let submission : Operation := .submit {} "cluster" "run.sh" {}
  obtain ⟨_, stopped, nothing⟩ := refused_by_all afterClosing "key"
  exact ⟨refused, stopped _ _ refused submission, fun result last ended =>
    (nothing Shared.Answers closed submission result last ended).2⟩

end Session

end Dispatch
