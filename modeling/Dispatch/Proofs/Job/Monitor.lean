import Dispatch.Job.Tracking
import Dispatch.Proofs.Backend.Footprint
import Dispatch.Proofs.Job.Table
import Dispatch.Proofs.Plan.Courses
import Dispatch.Proofs.Plan.Settings
import Dispatch.Proofs.Server.Footprint
import Dispatch.Proofs.Server.Shared
/-!
Passes over the jobs that have not ended, with nothing else under way. A pass is one poll after the other, and each
poll is what asking for the status of that job alone can come to, whatever became of the polls before it: they have
changed no other row than their own.
-/
namespace Dispatch

open Plan

variable {shared last : Shared} {log : List (Moment Unit)}

namespace Request

/-- Whether it is this job that is claimed, as it is while its place is asked about it. -/
def isClaimOf (id : String) : Request → Bool
  | claim job => job == id
  | _ => false

/-- What a pass over the jobs asks for. -/
def isOfPass : Request → Bool
  | now | claim _ | release _ | store .unfinishedJobs | store (.findJob _) | store (.transitionJob ..) => true
  | request => request.isOfPlace || request.isOutward

end Request

/-- A look-up of jobs that the store has failed at. -/
def Moment.isFailedLookUp : Moment Unit → Bool
  | ⟨_, .store .unfinishedJobs, .error _, _⟩ | ⟨_, .store (.findJob _), .error _, _⟩ => true
  | _ => false

namespace Shared

theorem isFailedLookUp_said {next : Shared} {request : Request} {reply : request.Reply}
    (answered : shared.Answers request reply next) : (Moment.said request reply).isFailedLookUp = false := by
  unfold Moment.isFailedLookUp Moment.said
  split
  next same =>
    cases same
    exact nomatch answered.1
  next same =>
    cases same
    exact nomatch answered.1
  next => rfl

/-- A call that the tables carry out: it is answered like that, or it has failed and changed nothing. -/
theorem serves_ok_iff {call : Store.Call} {value answer : call.Answer} {tables : Store.Tables} {next : Shared}
    (told : shared.tables.answer call = (.ok value, tables)) :
    shared.Serves (.store call) (.ok answer) next ↔ answer = value ∧ next = { shared with tables } := by
  constructor
  · intro served
    obtain ⟨same, left⟩ := (answers_iff_of_answer told).mp (served.resolve_right fun failed => failed)
    exact ⟨Except.ok.inj same, left⟩
  · rintro ⟨rfl, rfl⟩
    exact .inl ((answers_iff_of_answer told).mpr ⟨rfl, rfl⟩)

theorem serves_error_iff {call : Store.Call} {value : call.Answer} {tables : Store.Tables} {fault : Store.Fault}
    {next : Shared} (told : shared.tables.answer call = (.ok value, tables)) :
    shared.Serves (.store call) (.error fault) next ↔ next = shared := by
  constructor
  · rintro (answered | failed)
    · exact nomatch ((answers_iff_of_answer told).mp answered).1
    · exact failed
  · exact fun same => .inr same

/-- The outside may say anything, and nothing that is shared changes by it. -/
theorem serves_outward_iff {request : Request} (outward : request.isOutward = true) (reply : request.Reply)
    (next : Shared) : shared.Serves request reply next ↔ next = shared := by
  refine ⟨fun served => served.eq_of_outward outward, ?_⟩
  rintro rfl
  cases request with
  | number | remote | provider | pause | readFile => exact .inl rfl
  | _ => cases outward

theorem serves_machine_iff {id : String} {reply : Option Machine} {next : Shared} :
    shared.Serves (.machine id) reply next ↔ next = shared :=
  ⟨fun served => served.answers fun _ => nofun, fun same => .inl same⟩

theorem serves_now_iff {instant : Instant} {next : Shared} : shared.Serves .now instant next ↔ next = shared :=
  ⟨fun served => served.answers fun _ => nofun, fun same => .inl same⟩

/-- The jobs that are stored are told apart, and nobody is asking about one of them. -/
structure IsQuiet (shared : Shared) : Prop where
  distinct : shared.tables.HasDistinctJobs
  unclaimed : shared.claimed = []

theorem IsQuiet.distinct_unfinished (quiet : shared.IsQuiet) : (shared.tables.unfinishedJobs.map Job.id).Nodup :=
  List.Sublist.nodup (List.filter_sublist.map Job.id) quiet.distinct

end Shared

namespace Job

theorem mem_unfinishedJobs {tables : Store.Tables} {job : Job} :
    job ∈ tables.unfinishedJobs ↔ job ∈ tables.jobs ∧ job.status.isTerminal = false := by
  simp [Store.Tables.unfinishedJobs]

/-- The place that a machine is for a job whose owner has that account there. -/
def placeOn (job : Job) (account : Option LocalAccount) (machine : Machine) : Backend :=
  machine.backend (account.map LocalAccount.login) job.backendParams

/-- What is said when a job is asked about whose owner has that account on its machine, and what comes of it: the status
that the place tells and the instant, or a failure. The place is asked once if there is a way to it. -/
inductive Observes (account : Option LocalAccount) (job : Job) :
    List (Moment Unit) → Except Failure (Status × Instant) → Prop
  | unsubmitted (absent : job.handle = none) :
      Observes account job [] (.error (.system s!"Job {job.id} has no backend handle"))
  | stranded {handle : String} (submitted : job.handle = some handle) :
      Observes account job [.said (.machine job.machine) none] (.error (.unknownMachine job.machine))
  | unaccounted {handle : String} (submitted : job.handle = some handle) (machine : Machine) (fault : Store.Fault) :
      Observes account job [.said (.machine job.machine) (some machine),
          .said (.store (.findLocalAccount job.owner job.machine)) (.error fault)] (.error (.ofStore fault))
  | refused {handle : String} {machine : Machine} {fault : Backend.Fault} {enquiry : List (Moment Unit)}
      (submitted : job.handle = some handle)
      (enquired : Goes Setting.anything ((job.placeOn account machine).status handle) () (.error fault) () enquiry) :
      Observes account job (.said (.machine job.machine) (some machine) ::
          .said (.store (.findLocalAccount job.owner job.machine)) (.ok account) :: enquiry)
        (.error (.ofBackend fault))
  | unmoved {handle : String} {machine : Machine} {status : Status} {enquiry : List (Moment Unit)}
      (submitted : job.handle = some handle)
      (enquired : Goes Setting.anything ((job.placeOn account machine).status handle) () (.ok status) () enquiry)
      (instant : Instant) (fault : Store.Fault) :
      Observes account job (.said (.machine job.machine) (some machine) ::
          .said (.store (.findLocalAccount job.owner job.machine)) (.ok account) :: (enquiry ++
            [.said .now instant, .said (.store (.transitionJob job.id status instant)) (.error fault)]))
        (.error (.ofStore fault))
  | moved {handle : String} {machine : Machine} {status : Status} {enquiry : List (Moment Unit)}
      (submitted : job.handle = some handle)
      (enquired : Goes Setting.anything ((job.placeOn account machine).status handle) () (.ok status) () enquiry)
      (instant : Instant) :
      Observes account job (.said (.machine job.machine) (some machine) ::
          .said (.store (.findLocalAccount job.owner job.machine)) (.ok account) :: (enquiry ++
            [.said .now instant, .said (.store (.transitionJob job.id status instant)) (.ok status)]))
        (.ok (status, instant))

/-- The row of a job that has been asked about. -/
def moved (job : Job) (outcome : Except Failure (Status × Instant)) : Job :=
  match outcome with
  | .ok (status, instant) => job.moveTo status instant
  | .error _ => job

@[simp]
theorem moved_id (job : Job) (outcome : Except Failure (Status × Instant)) : (job.moved outcome).id = job.id := by
  unfold moved
  split
  next => rfl
  next => rfl

/-- A job that has been asked about: all that was said, and what came of it. -/
structure Poll where
  job : Job
  log : List (Moment Unit)
  outcome : Except Failure (Status × Instant)

namespace Poll

/-- The row of the job after the poll. A poll that fails leaves the row as it is. -/
def row (poll : Poll) : Job := poll.job.moved poll.outcome

def told (poll : Poll) : Except Failure Status := poll.outcome.map Prod.fst

def hasEnded (poll : Poll) : Bool := poll.told.toOption.any Status.isTerminal

/-- How a poll can go on these tables, of which it looks at its own job and at one account. It may fail to find its
job; else it claims the job while it asks. -/
inductive HasGone (tables : Store.Tables) : Poll → Prop
  | unfound (job : Job) (fault : Store.Fault) : HasGone tables
      { job, log := [.said (.store (.findJob job.id)) (.error fault)], outcome := .error (.ofStore fault) }
  | asked {job : Job} {observed : List (Moment Unit)} {outcome : Except Failure (Status × Instant)}
      (observes : job.Observes (tables.localAccount? job.owner job.machine) observed outcome) : HasGone tables
        { job
          log := .said (.store (.findJob job.id)) (.ok (some job)) :: .said (.claim job.id) true ::
            (observed ++ [.said (.release job.id) ()])
          outcome }

@[simp]
theorem row_id (poll : Poll) : poll.row.id = poll.job.id := moved_id _ _

/-- A row has ended by a poll if and only if the poll says so. -/
theorem isTerminal_row {poll : Poll} (unfinished : poll.job.status.isTerminal = false) :
    poll.row.status.isTerminal = poll.hasEnded := by
  unfold row moved hasEnded told
  cases poll.outcome with
  | ok observed => rfl
  | error cause => exact unfinished

theorem row_of_error (poll : Poll) {cause : Failure} (failed : poll.told = .error cause) : poll.row = poll.job := by
  obtain ⟨job, log, outcome⟩ := poll
  cases outcome with
  | ok observed => cases failed
  | error cause => rfl

/-- The row after all these polls of the row before them. -/
def rowAfter (polls : List Poll) (row : Job) : Job :=
  ((polls.find? fun poll => poll.job.id == row.id).map Poll.row).getD row

end Poll

end Job

open Job

/-- Each job that has been asked about has the row that its poll leaves; all else is as it was. -/
def Shared.polled (shared : Shared) (polls : List Poll) : Shared :=
  { shared with tables.jobs := shared.tables.jobs.map (Poll.rowAfter polls) }

namespace Job

namespace Poll

@[simp]
theorem rowAfter_nil (row : Job) : rowAfter [] row = row := rfl

theorem rowAfter_cons (poll : Poll) (polls : List Poll) (row : Job) :
    rowAfter (poll :: polls) row = if poll.job.id = row.id then poll.row else rowAfter polls row := by
  unfold rowAfter
  rw [List.find?_cons]
  by_cases same : poll.job.id = row.id
  · simp [same]
  · have apart : (poll.job.id == row.id) = false := by simpa using same
    rw [apart, if_neg same]

/-- A row of which no poll is about stays. -/
theorem rowAfter_of_absent {polls : List Poll} {row : Job} (absent : row.id ∉ polls.map fun poll => poll.job.id) :
    rowAfter polls row = row := by
  have none : polls.find? (fun poll => poll.job.id == row.id) = none := by
    rw [List.find?_eq_none]
    intro poll member same
    exact absent (List.mem_map.mpr ⟨poll, member, by simpa using same⟩)
  rw [rowAfter, none]
  rfl

@[simp]
theorem rowAfter_id (polls : List Poll) (row : Job) : (rowAfter polls row).id = row.id := by
  induction polls with
  | nil => rfl
  | cons poll polls ih =>
    rw [rowAfter_cons]
    split
    next same => rw [row_id, same]
    next => exact ih

/-- Polls of other jobs come later and find what the first one has left. -/
theorem rowAfter_rowAfter {poll : Poll} {polls : List Poll}
    (absent : poll.job.id ∉ polls.map fun poll => poll.job.id) (row : Job) :
    rowAfter polls (rowAfter [poll] row) = rowAfter (poll :: polls) row := by
  rw [rowAfter_cons, rowAfter_cons, rowAfter_nil]
  split
  next => exact rowAfter_of_absent (by rwa [row_id])
  next => rfl

end Poll

end Job

namespace Shared

theorem polled_nil (shared : Shared) : shared.polled [] = shared := by
  have same : shared.tables.jobs.map (Poll.rowAfter []) = shared.tables.jobs := List.map_id' _
  rw [polled, same]

theorem polled_polled (shared : Shared) {poll : Poll} {polls : List Poll}
    (absent : poll.job.id ∉ polls.map fun poll => poll.job.id) :
    (shared.polled [poll]).polled polls = shared.polled (poll :: polls) := by
  have rows : (shared.tables.jobs.map (Poll.rowAfter [poll])).map (Poll.rowAfter polls) =
      shared.tables.jobs.map (Poll.rowAfter (poll :: polls)) := by
    rw [List.map_map]
    exact List.map_congr_left fun row _ => Poll.rowAfter_rowAfter absent row
  rw [polled, polled, polled, rows]

/-- A single poll puts one row in its place. -/
theorem polled_single (shared : Shared) (poll : Poll) :
    shared.polled [poll] = { shared with tables := shared.tables.replaceJob poll.row } := by
  have rows : shared.tables.jobs.map (Poll.rowAfter [poll]) =
      shared.tables.jobs.map fun row => if row.id = poll.row.id then poll.row else row := by
    refine List.map_congr_left fun row _ => ?_
    rw [Poll.rowAfter_cons, Poll.rowAfter_nil, Poll.row_id]
    exact if_congr eq_comm rfl rfl
  rw [polled, rows]
  rfl

/-- Each stored job has the row that its poll leaves. -/
theorem job?_polled (shared : Shared) (polls : List Poll) (id : String) :
    (shared.polled polls).tables.job? id = (shared.tables.job? id).map (Poll.rowAfter polls) := by
  change (shared.tables.jobs.map (Poll.rowAfter polls)).find? _ = _
  rw [List.find?_map]
  simp only [Function.comp_def, Poll.rowAfter_id]
  rfl

theorem IsQuiet.polled (quiet : shared.IsQuiet) (polls : List Poll) : (shared.polled polls).IsQuiet := by
  refine ⟨?_, quiet.unclaimed⟩
  have ids : (shared.polled polls).tables.jobs.map Job.id = shared.tables.jobs.map Job.id := by
    change (shared.tables.jobs.map (Poll.rowAfter polls)).map Job.id = _
    simp [Function.comp_def]
  rw [Store.Tables.HasDistinctJobs, ids]
  exact quiet.distinct

end Shared

namespace Job

theorem place_eq (job : Job) : job.place =
    Service.ask (.machine job.machine) >>= fun
      | some machine => do
        let account ← Service.store (.findLocalAccount job.owner job.machine)
        return job.placeOn account machine
      | none => throw (.unknownMachine job.machine) := by
  unfold place placeFor machineOf
  rw [LawfulMonad.bind_assoc, LawfulMonad.bind_assoc]
  congr 1
  funext found
  cases found with
  | some machine =>
    change pure machine >>= _ = _
    rw [pure_bind, LawfulMonad.bind_assoc]
    rfl
  | none => rfl

/-- The way to the place of a job, which fails if nobody knows the machine or the account cannot be looked up. -/
theorem goes_place (job : Job) (result : Except Failure Backend) :
    Goes Shared.Serves job.place shared result last log ↔ last = shared ∧
      ((result = .error (.unknownMachine job.machine) ∧ log = [.said (.machine job.machine) none]) ∨
        ∃ machine, (∃ fault, result = .error (.ofStore fault) ∧ log = [.said (.machine job.machine) (some machine),
            .said (.store (.findLocalAccount job.owner job.machine)) (.error fault)]) ∨
          (result = .ok (job.placeOn (shared.tables.localAccount? job.owner job.machine) machine) ∧
            log = [.said (.machine job.machine) (some machine),
              .said (.store (.findLocalAccount job.owner job.machine))
                (.ok (shared.tables.localAccount? job.owner job.machine))])) := by
  have told : shared.tables.answer (.findLocalAccount job.owner job.machine) =
      (.ok (shared.tables.localAccount? job.owner job.machine), shared.tables) := rfl
  rw [place_eq, Service.goes_ask_bind]
  constructor
  · rintro ⟨found, middle, back, answered, goes, rfl⟩
    obtain rfl := Shared.serves_machine_iff.mp answered
    cases found with
    | none =>
      obtain ⟨rfl, rfl, rfl⟩ := (goes_throw _ _).mp goes
      exact ⟨rfl, .inl ⟨rfl, rfl⟩⟩
    | some machine =>
      rcases (Service.goes_store_bind _ _ _).mp goes with ⟨account, next, rest, looked, goes, rfl⟩ |
        ⟨fault, failed, rfl, rfl⟩
      · obtain ⟨rfl, rfl⟩ := (Shared.serves_ok_iff told).mp looked
        obtain ⟨rfl, rfl, rfl⟩ := (goes_pure _ _).mp goes
        exact ⟨rfl, .inr ⟨machine, .inr ⟨rfl, rfl⟩⟩⟩
      · obtain rfl := (Shared.serves_error_iff told).mp failed
        exact ⟨rfl, .inr ⟨machine, .inl ⟨fault, rfl, rfl⟩⟩⟩
  · rintro ⟨rfl, ⟨rfl, rfl⟩ | ⟨machine, ⟨fault, rfl, rfl⟩ | ⟨rfl, rfl⟩⟩⟩
    · exact ⟨none, _, [], Shared.serves_machine_iff.mpr rfl, (goes_throw _ _).mpr ⟨rfl, rfl, rfl⟩, rfl⟩
    · exact ⟨some machine, _, _, Shared.serves_machine_iff.mpr rfl, (Service.goes_store_bind _ _ _).mpr
        (.inr ⟨fault, (Shared.serves_error_iff told).mpr rfl, rfl, rfl⟩), rfl⟩
    · exact ⟨some machine, _, _, Shared.serves_machine_iff.mpr rfl, (Service.goes_store_bind _ _ _).mpr
        (.inl ⟨_, _, [], (Shared.serves_ok_iff told).mpr ⟨rfl, rfl⟩, (goes_pure _ _).mpr ⟨rfl, rfl, rfl⟩, rfl⟩), rfl⟩

theorem asks_status (place : Backend) (handle : String) : Asks Request.isOutward (place.status handle) :=
  (place.yields_status handle fun _ => Request.isOutward_of_follows).tries
    (Protocol.ignores_within fun _ member => member) (fun _ _ => trivial) fun _ => trivial

/-- What a place is asked about a job is said outside. -/
theorem goes_status (place : Backend) (handle : String) (result : Except Failure Status) :
    Goes Shared.Serves (Service.backend (place.status handle)) shared result last log ↔
      last = shared ∧ ∃ answer, Goes Setting.anything (place.status handle) () answer () log ∧
        answer.mapError Failure.ofBackend = result := by
  have aside (answer : Except Backend.Fault Status) : Goes Shared.Serves (place.status handle) shared answer last log ↔
      last = shared ∧ Goes Setting.anything (place.status handle) () answer () log :=
    (asks_status place handle).goes_aside (fun _ _ _ reply outward => Shared.serves_outward_iff outward reply _) answer
  simp only [Service.goes_backend, aside, and_assoc, exists_and_left]

/-- A job that has not ended is moved to whatever status its place has told, unless the store fails. -/
theorem goes_move {job : Job} (stored : shared.tables.job? job.id = some job)
    (unfinished : job.status.isTerminal = false) (status : Status) (result : Except Failure Status) :
    Goes Shared.Serves (do
        let now ← Service.ask .now
        Service.store (.transitionJob job.id status now)) shared result last log ↔
      ∃ instant, (result = .ok status ∧
          last = { shared with tables := shared.tables.replaceJob (job.moveTo status instant) } ∧
          log = [.said .now instant, .said (.store (.transitionJob job.id status instant)) (.ok status)]) ∨
        ∃ fault, result = .error (.ofStore fault) ∧ last = shared ∧
          log = [.said .now instant, .said (.store (.transitionJob job.id status instant)) (.error fault)] := by
  have able : job.status.canBecome status = true := Status.canBecome_of_unfinished unfinished status
  have told (instant : Instant) : shared.tables.answer (.transitionJob job.id status instant) =
      (.ok status, shared.tables.replaceJob (job.moveTo status instant)) := by
    simp only [Store.Tables.answer, Store.Tables.transitionJob, stored, able, if_true]
  rw [Service.goes_ask_bind]
  constructor
  · rintro ⟨instant, middle, back, answered, goes, rfl⟩
    obtain rfl := Shared.serves_now_iff.mp answered
    obtain ⟨reply, moved, rfl, rfl⟩ := (Service.goes_store _ _).mp goes
    cases reply with
    | ok answer =>
      obtain ⟨same, left⟩ := (Shared.serves_ok_iff (told instant)).mp moved
      refine ⟨instant, .inl ⟨congrArg Except.ok same, left, ?_⟩⟩
      rw [same]
    | error fault =>
      obtain rfl := (Shared.serves_error_iff (told instant)).mp moved
      exact ⟨instant, .inr ⟨fault, rfl, rfl, rfl⟩⟩
  · rintro ⟨instant, ⟨rfl, rfl, rfl⟩ | ⟨fault, rfl, rfl, rfl⟩⟩
    · exact ⟨instant, _, _, Shared.serves_now_iff.mpr rfl, (Service.goes_store _ _).mpr
        ⟨.ok status, (Shared.serves_ok_iff (told instant)).mpr ⟨rfl, rfl⟩, rfl, rfl⟩, rfl⟩
    · exact ⟨instant, _, _, Shared.serves_now_iff.mpr rfl, (Service.goes_store _ _).mpr
        ⟨.error fault, (Shared.serves_error_iff (told instant)).mpr rfl, rfl, rfl⟩, rfl⟩

/-- A place is asked, and the job is moved to what it tells. -/
theorem goes_enquire {job : Job} (stored : shared.tables.job? job.id = some job)
    (unfinished : job.status.isTerminal = false) (place : Backend) (handle : String) (result : Except Failure Status) :
    Goes Shared.Serves (do
        let observed ← Service.backend (place.status handle)
        let now ← Service.ask .now
        Service.store (.transitionJob job.id observed now)) shared result last log ↔
      (∃ fault, Goes Setting.anything (place.status handle) () (.error fault) () log ∧
        result = .error (.ofBackend fault) ∧ last = shared) ∨
      ∃ status instant enquiry, Goes Setting.anything (place.status handle) () (.ok status) () enquiry ∧
        ((result = .ok status ∧
          last = { shared with tables := shared.tables.replaceJob (job.moveTo status instant) } ∧
          log = enquiry ++ [.said .now instant, .said (.store (.transitionJob job.id status instant)) (.ok status)]) ∨
        ∃ fault, result = .error (.ofStore fault) ∧ last = shared ∧
          log = enquiry ++
            [.said .now instant, .said (.store (.transitionJob job.id status instant)) (.error fault)]) := by
  rw [goes_bind]
  constructor
  · rintro (⟨status, middle, enquiry, back, asked, goes, rfl⟩ | ⟨cause, failed, rfl⟩)
    · obtain ⟨rfl, answer, enquired, same⟩ := (goes_status _ _ _).mp asked
      cases answer with
      | error fault => cases same
      | ok told =>
        cases same
        obtain ⟨instant, ⟨rfl, rfl, rfl⟩ | ⟨fault, rfl, rfl, rfl⟩⟩ := (goes_move stored unfinished _ _).mp goes
        · exact .inr ⟨status, instant, enquiry, enquired, .inl ⟨rfl, rfl, rfl⟩⟩
        · exact .inr ⟨status, instant, enquiry, enquired, .inr ⟨fault, rfl, rfl, rfl⟩⟩
    · obtain ⟨rfl, answer, enquired, same⟩ := (goes_status _ _ _).mp failed
      cases answer with
      | ok told => cases same
      | error fault =>
        cases same
        exact .inl ⟨fault, enquired, rfl, rfl⟩
  · rintro (⟨fault, enquired, rfl, rfl⟩ | ⟨status, instant, enquiry, enquired, moved⟩)
    · exact .inr ⟨_, (goes_status _ _ _).mpr ⟨rfl, _, enquired, rfl⟩, rfl⟩
    · have asked : Goes Shared.Serves (Service.backend (place.status handle)) shared (.ok status) shared enquiry :=
        (goes_status _ _ _).mpr ⟨rfl, _, enquired, rfl⟩
      rcases moved with ⟨rfl, rfl, rfl⟩ | ⟨fault, rfl, rfl, rfl⟩
      · exact .inl ⟨_, _, _, _, asked, (goes_move stored unfinished _ _).mpr ⟨instant, .inl ⟨rfl, rfl, rfl⟩⟩, rfl⟩
      · exact .inl ⟨_, _, _, _, asked,
          (goes_move stored unfinished _ _).mpr ⟨instant, .inr ⟨fault, rfl, rfl, rfl⟩⟩, rfl⟩

/-- Asking about a stored job that has not ended: what is said, what comes of it, and the row that is left. -/
theorem goes_observe (distinct : shared.tables.HasDistinctJobs) {job : Job} (member : job ∈ shared.tables.jobs)
    (unfinished : job.status.isTerminal = false) (result : Except Failure Status) :
    Goes Shared.Serves job.observe shared result last log ↔
      ∃ outcome, job.Observes (shared.tables.localAccount? job.owner job.machine) log outcome ∧
        result = outcome.map Prod.fst ∧
        last = { shared with tables := shared.tables.replaceJob (job.moved outcome) } := by
  have stored := Store.Tables.job?_of_mem distinct member
  have unmoved : { shared with tables := shared.tables.replaceJob job } = shared := by
    rw [Store.Tables.replaceJob_self distinct member]
  unfold observe
  split
  next absent =>
    have other {handle : String} : job.handle ≠ some handle := by
      rw [absent]
      exact nofun
    rw [goes_throw]
    constructor
    · rintro ⟨rfl, rfl, rfl⟩
      exact ⟨_, .unsubmitted absent, rfl, unmoved.symm⟩
    · rintro ⟨outcome, observes, rfl, rfl⟩
      cases observes with
      | unsubmitted => exact ⟨rfl, unmoved.symm, rfl⟩
      | stranded submitted | unaccounted submitted | refused submitted | unmoved submitted | moved submitted =>
        exact absurd submitted other
  next handle submitted =>
    rw [goes_bind]
    constructor
    · rintro (⟨place, middle, _, _, found, goes, rfl⟩ | ⟨cause, failed, rfl⟩)
      · obtain ⟨rfl, ⟨same, -⟩ | ⟨machine, ⟨_, same, -⟩ | ⟨same, rfl⟩⟩⟩ := (goes_place job _).mp found
        · cases same
        · cases same
        · cases same
          rcases (goes_enquire stored unfinished _ _ _).mp goes with ⟨fault, enquired, rfl, rfl⟩ |
            ⟨status, instant, enquiry, enquired, ⟨rfl, rfl, rfl⟩ | ⟨fault, rfl, rfl, rfl⟩⟩
          · exact ⟨_, .refused submitted enquired, rfl, unmoved.symm⟩
          · exact ⟨_, .moved submitted enquired instant, rfl, rfl⟩
          · exact ⟨_, .unmoved submitted enquired instant fault, rfl, unmoved.symm⟩
      · obtain ⟨rfl, ⟨same, rfl⟩ | ⟨machine, ⟨fault, same, rfl⟩ | ⟨same, -⟩⟩⟩ := (goes_place job _).mp failed
        · cases same
          exact ⟨_, .stranded submitted, rfl, unmoved.symm⟩
        · cases same
          exact ⟨_, .unaccounted submitted machine fault, rfl, unmoved.symm⟩
        · cases same
    · have handled {found : String} (given : job.handle = some found) : found = handle :=
        Option.some.inj (given.symm.trans submitted)
      have found (machine : Machine) : Goes Shared.Serves job.place shared
          (.ok (job.placeOn (shared.tables.localAccount? job.owner job.machine) machine)) shared _ :=
        (goes_place job _).mpr ⟨rfl, .inr ⟨machine, .inr ⟨rfl, rfl⟩⟩⟩
      rintro ⟨outcome, observes, rfl, rfl⟩
      cases observes with
      | unsubmitted absent =>
        rw [absent] at submitted
        cases submitted
      | stranded => exact .inr ⟨_, (goes_place job _).mpr ⟨unmoved, .inl ⟨rfl, rfl⟩⟩, rfl⟩
      | unaccounted _ machine fault =>
        exact .inr ⟨_, (goes_place job _).mpr ⟨unmoved, .inr ⟨machine, .inl ⟨fault, rfl, rfl⟩⟩⟩, rfl⟩
      | refused given enquired =>
        obtain rfl := handled given
        exact .inl ⟨_, _, _, _, found _,
          (goes_enquire stored unfinished _ _ _).mpr (.inl ⟨_, enquired, rfl, unmoved⟩), rfl⟩
      | unmoved given enquired instant fault =>
        obtain rfl := handled given
        exact .inl ⟨_, _, _, _, found _, (goes_enquire stored unfinished _ _ _).mpr
          (.inr ⟨_, instant, _, enquired, .inr ⟨fault, rfl, unmoved, rfl⟩⟩), rfl⟩
      | moved given enquired instant =>
        obtain rfl := handled given
        exact .inl ⟨_, _, _, _, found _, (goes_enquire stored unfinished _ _ _).mpr
          (.inr ⟨_, instant, _, enquired, .inl ⟨rfl, rfl, rfl⟩⟩), rfl⟩

/-- A job that is stored is found, unless the store fails. -/
theorem goes_load {id : String} {job : Job} (stored : shared.tables.job? id = some job) (result : Except Failure Job) :
    Goes Shared.Serves (load id) shared result last log ↔ last = shared ∧
      ((result = .ok job ∧ log = [.said (.store (.findJob id)) (.ok (some job))]) ∨
        ∃ fault, result = .error (.ofStore fault) ∧ log = [.said (.store (.findJob id)) (.error fault)]) := by
  have told : shared.tables.answer (.findJob id) = (.ok (some job), shared.tables) := by
    rw [Store.Tables.answer, stored]
  unfold load
  rw [Service.goes_store_bind]
  constructor
  · rintro (⟨found, middle, back, answered, goes, rfl⟩ | ⟨fault, failed, rfl, rfl⟩)
    · obtain ⟨rfl, rfl⟩ := (Shared.serves_ok_iff told).mp answered
      obtain ⟨rfl, rfl, rfl⟩ := (goes_pure _ _).mp goes
      exact ⟨rfl, .inl ⟨rfl, rfl⟩⟩
    · obtain rfl := (Shared.serves_error_iff told).mp failed
      exact ⟨rfl, .inr ⟨fault, rfl, rfl⟩⟩
  · rintro ⟨rfl, ⟨rfl, rfl⟩ | ⟨fault, rfl, rfl⟩⟩
    · exact .inl ⟨some job, _, [], (Shared.serves_ok_iff told).mpr ⟨rfl, rfl⟩, (goes_pure _ _).mpr ⟨rfl, rfl, rfl⟩, rfl⟩
    · exact .inr ⟨fault, (Shared.serves_error_iff told).mpr rfl, rfl, rfl⟩

/-- What is done while a job is claimed: it is asked about, and the claim is given up. -/
theorem goes_claimed (quiet : shared.IsQuiet) {job : Job} (member : job ∈ shared.tables.jobs)
    (unfinished : job.status.isTerminal = false) (result : Except Failure Status) :
    Goes Shared.Serves (do
        let result ← Service.attempt job.observe
        Service.ask (.release job.id)
        Service.ofExcept result) { shared with claimed := [job.id] } result last log ↔
      ∃ observed outcome, job.Observes (shared.tables.localAccount? job.owner job.machine) observed outcome ∧
        result = outcome.map Prod.fst ∧
        last = { shared with tables := shared.tables.replaceJob (job.moved outcome) } ∧
        log = observed ++ [.said (.release job.id) ()] := by
  let asking : Shared := { shared with claimed := [job.id] }
  have distinct : asking.tables.HasDistinctJobs := quiet.distinct
  have present : job ∈ asking.tables.jobs := member
  have givenUp : ([job.id].filter fun other => other ≠ job.id) = shared.claimed := by
    rw [quiet.unclaimed]
    simp
  rw [Service.goes_attempt_bind]
  constructor
  · rintro ⟨inner, middle, observed, back, asked, goes, rfl⟩
    obtain ⟨outcome, saying, rfl, rfl⟩ := (goes_observe distinct present unfinished inner).mp asked
    obtain ⟨_, next, rest, released, goes, rfl⟩ := (Service.goes_ask_bind _ _ _).mp goes
    obtain rfl := released.answers fun _ => nofun
    obtain ⟨rfl, rfl, rfl⟩ := (Service.goes_ofExcept _ _).mp goes
    exact ⟨observed, outcome, saying, rfl, by rw [givenUp], rfl⟩
  · rintro ⟨observed, outcome, saying, rfl, rfl, rfl⟩
    have asked := (goes_observe distinct present unfinished _).mpr ⟨outcome, saying, rfl, rfl⟩
    refine ⟨_, _, observed, _, asked, (Service.goes_ask_bind _ _ _).mpr
      ⟨(), _, [], .inl rfl, (Service.goes_ofExcept _ _).mpr ⟨rfl, ?_, rfl⟩, rfl⟩, rfl⟩
    rw [givenUp]

/-- A poll of a stored job that has not ended. -/
theorem goes_refresh (quiet : shared.IsQuiet) {job : Job} (member : job ∈ shared.tables.jobs)
    (unfinished : job.status.isTerminal = false) (result : Except Failure Status) :
    Goes Shared.Serves (refresh job.id) shared result last log ↔
      ∃ poll : Poll, poll.job = job ∧ poll.HasGone shared.tables ∧ result = poll.told ∧
        last = shared.polled [poll] ∧ log = poll.log := by
  have stored := Store.Tables.job?_of_mem quiet.distinct member
  have unmoved (fault : Store.Fault) :
      { shared with tables := shared.tables.replaceJob (job.moved (.error (.ofStore fault))) } = shared := by
    rw [show job.moved _ = job from rfl, Store.Tables.replaceJob_self quiet.distinct member]
  have claims (granted : Bool) (next : Shared) : shared.Serves (.claim job.id) granted next ↔
      granted = true ∧ next = { shared with claimed := [job.id] } := by
    have free : (!shared.claimed.contains job.id) = true := by simp [quiet.unclaimed]
    constructor
    · intro served
      obtain ⟨rfl, same⟩ := served.answers fun _ => nofun
      rw [free, if_pos rfl, quiet.unclaimed] at same
      exact ⟨free, same⟩
    · rintro ⟨rfl, rfl⟩
      exact .inl ⟨free.symm, by rw [if_pos rfl, quiet.unclaimed]⟩
  unfold refresh
  rw [goes_bind]
  constructor
  · rintro (⟨found, middle, _, back, loaded, goes, rfl⟩ | ⟨cause, failed, rfl⟩)
    · obtain ⟨rfl, ⟨same, rfl⟩ | ⟨_, same, -⟩⟩ := (goes_load stored _).mp loaded
      · cases same
        rw [unfinished] at goes
        obtain ⟨granted, next, rest, claimed, goes, rfl⟩ := (Service.goes_ask_bind _ _ _).mp goes
        obtain ⟨rfl, rfl⟩ := (claims granted next).mp claimed
        obtain ⟨observed, outcome, observes, rfl, rfl, rfl⟩ := (goes_claimed quiet member unfinished _).mp goes
        exact ⟨_, rfl, .asked observes, rfl, by rw [Shared.polled_single]; rfl, rfl⟩
      · cases same
    · obtain ⟨rfl, ⟨same, -⟩ | ⟨fault, same, rfl⟩⟩ := (goes_load stored _).mp failed
      · cases same
      · cases same
        refine ⟨_, rfl, .unfound job fault, rfl, ?_, rfl⟩
        rw [Shared.polled_single]
        exact (unmoved fault).symm
  · rintro ⟨poll, rfl, gone, rfl, rfl, rfl⟩
    rw [Shared.polled_single]
    cases gone with
    | unfound job fault =>
      exact .inr ⟨_, (goes_load stored _).mpr ⟨unmoved fault, .inr ⟨fault, rfl, rfl⟩⟩, rfl⟩
    | asked observes =>
      refine .inl ⟨_, _, _, _, (goes_load stored _).mpr ⟨rfl, .inl ⟨rfl, rfl⟩⟩, ?_, rfl⟩
      rw [if_neg (by simp [unfinished])]
      refine (Service.goes_ask_bind _ _ _).mpr ⟨true, _, _, (claims _ _).mpr ⟨rfl, rfl⟩, ?_, rfl⟩
      exact (goes_claimed quiet member unfinished _).mpr ⟨_, _, observes, rfl, rfl, rfl⟩

/-- A poll looks at nothing that other polls have changed. -/
theorem Poll.hasGone_polled {poll : Poll} (polls : List Poll) :
    poll.HasGone (shared.polled polls).tables ↔ poll.HasGone shared.tables := by
  constructor
  · rintro (⟨job, fault⟩ | observes)
    · exact .unfound job fault
    · exact .asked observes
  · rintro (⟨job, fault⟩ | observes)
    · exact .unfound job fault
    · exact .asked observes

theorem Poll.ids_eq {polls : List Poll} {jobs : List Job} (same : polls.map Poll.job = jobs) :
    (polls.map fun poll => poll.job.id) = jobs.map Job.id := by
  rw [← same, List.map_map]
  rfl

/-- Polls of stored jobs that have not ended, one after the other. By induction on the jobs: each poll finds the rows of
the jobs after it as they were. -/
theorem goes_refreshAll (quiet : shared.IsQuiet) {jobs : List Job} (distinct : (jobs.map Job.id).Nodup)
    (stored : ∀ job ∈ jobs, job ∈ shared.tables.jobs ∧ job.status.isTerminal = false) (result : Except Failure Nat) :
    Goes Shared.Serves (refreshAll jobs) shared result last log ↔
      ∃ polls : List Poll, polls.map Poll.job = jobs ∧ (∀ poll ∈ polls, poll.HasGone shared.tables) ∧
        result = .ok (polls.countP Poll.hasEnded) ∧ last = shared.polled polls ∧ log = polls.flatMap Poll.log := by
  induction jobs generalizing shared result last log with
  | nil =>
    rw [refreshAll, goes_pure]
    constructor
    · rintro ⟨rfl, rfl, rfl⟩
      exact ⟨[], rfl, fun _ absent => absurd absent List.not_mem_nil, rfl, (Shared.polled_nil _).symm, rfl⟩
    · rintro ⟨polls, none, -, rfl, rfl, rfl⟩
      rw [List.map_eq_nil_iff.mp none]
      exact ⟨rfl, (Shared.polled_nil _).symm, rfl⟩
  | cons job rest ih =>
    obtain ⟨apart, later⟩ := List.nodup_cons.mp distinct
    obtain ⟨member, unfinished⟩ := stored job List.mem_cons_self
    have stays (poll : Poll) (same : poll.job = job) : ∀ other ∈ rest,
        other ∈ (shared.polled [poll]).tables.jobs ∧ other.status.isTerminal = false := by
      intro other inside
      obtain ⟨present, running⟩ := stored other (List.mem_cons_of_mem job inside)
      have different : other.id ∉ [poll].map fun poll => poll.job.id := by
        rw [List.map_singleton, List.mem_singleton, same]
        exact fun equal => apart (equal ▸ List.mem_map_of_mem inside)
      exact ⟨List.mem_map.mpr ⟨other, present, Poll.rowAfter_of_absent different⟩, running⟩
    have absent {poll : Poll} {polls : List Poll} (same : poll.job = job) (others : polls.map Poll.job = rest) :
        poll.job.id ∉ polls.map fun poll => poll.job.id := by
      rwa [Poll.ids_eq others, same]
    rw [refreshAll, Service.goes_attempt_bind]
    constructor
    · rintro ⟨inner, middle, _, back, refreshed, goes, rfl⟩
      obtain ⟨poll, same, gone, rfl, rfl, rfl⟩ := (goes_refresh quiet member unfinished inner).mp refreshed
      have passes := @ih (shared.polled [poll])
      rcases (goes_bind _ _ _).mp goes with ⟨count, middle, _, rear, passed, goes, rfl⟩ | ⟨cause, failed, rfl⟩
      · obtain ⟨polls, others, gones, counted, rfl, rfl⟩ :=
          (passes (quiet.polled _) later (stays poll same) _).mp passed
        cases counted
        obtain ⟨rfl, rfl, rfl⟩ := (goes_pure _ _).mp goes
        refine ⟨poll :: polls, by rw [List.map_cons, same, others], ?_, ?_, ?_, by simp⟩
        · rintro other (_ | ⟨_, inside⟩)
          · exact gone
          · exact (Poll.hasGone_polled _).mp (gones other inside)
        · rw [List.countP_cons]
          rfl
        · exact Shared.polled_polled _ (absent same others)
      · obtain ⟨_, _, _, counted, _⟩ := (passes (quiet.polled _) later (stays poll same) _).mp failed
        cases counted
    · rintro ⟨polls, split, gone, rfl, rfl, rfl⟩
      obtain ⟨poll, polls, rfl, same, others⟩ := List.map_eq_cons_iff.mp split
      have refreshed := (goes_refresh quiet member unfinished _).mpr
        ⟨poll, same, gone poll List.mem_cons_self, rfl, rfl, rfl⟩
      have passed := (ih (quiet.polled [poll]) later (stays poll same) _).mpr ⟨polls, others,
        fun other inside => (Poll.hasGone_polled _).mpr (gone other (List.mem_cons_of_mem poll inside)), rfl, rfl, rfl⟩
      refine ⟨_, _, _, _, refreshed, (goes_bind _ _ _).mpr (.inl ⟨_, _, _, [], passed, ?_, rfl⟩), by simp⟩
      rw [goes_pure, List.countP_cons, Shared.polled_polled _ (absent same others)]
      exact ⟨rfl, rfl, rfl⟩

/-- What a pass leaves in the row of a job that it has asked about. -/
theorem Poll.rowAfter_job {polls : List Poll} (distinct : (polls.map fun poll => poll.job.id).Nodup) {poll : Poll}
    (member : poll ∈ polls) : rowAfter polls poll.job = poll.row := by
  have found : polls.find? (fun other => other.job.id == poll.job.id) = some poll :=
    Store.Tables.find?_key_of_mem (fun poll : Poll => poll.job.id) distinct member
  rw [rowAfter, found]
  rfl

section Passes

variable {polls : List Poll} (all : polls.map Poll.job = shared.tables.unfinishedJobs)
include all

theorem mem_of_polled {poll : Poll} (member : poll ∈ polls) :
    poll.job ∈ shared.tables.jobs ∧ poll.job.status.isTerminal = false :=
  mem_unfinishedJobs.mp (all ▸ List.mem_map_of_mem member)

variable (quiet : shared.IsQuiet)
include quiet

theorem distinct_polls : (polls.map fun poll => poll.job.id).Nodup := by
  rw [Poll.ids_eq all]
  exact quiet.distinct_unfinished

/-- The row of a job that had ended before the pass stays. -/
theorem rowAfter_of_isTerminal {row : Job} (present : row ∈ shared.tables.jobs)
    (settled : row.status.isTerminal = true) : Poll.rowAfter polls row = row := by
  refine Poll.rowAfter_of_absent fun listed => ?_
  obtain ⟨poll, member, same⟩ := List.mem_map.mp listed
  obtain ⟨stored, unfinished⟩ := mem_of_polled all member
  rw [List.inj_on_of_nodup_map quiet.distinct stored present same, settled] at unfinished
  cases unfinished

/-- As many jobs as polls have ended are no longer unfinished. -/
theorem unfinished_polled : shared.tables.unfinishedJobs.length =
    (shared.polled polls).tables.unfinishedJobs.length + polls.countP Poll.hasEnded := by
  let hasEnded (row : Job) : Bool := (Poll.rowAfter polls row).status.isTerminal
  have ended : polls.countP Poll.hasEnded = shared.tables.unfinishedJobs.countP hasEnded := by
    rw [← all, List.countP_map]
    refine List.countP_congr fun poll member => ?_
    change poll.hasEnded = true ↔ (Poll.rowAfter polls poll.job).status.isTerminal = true
    rw [Poll.rowAfter_job (distinct_polls all quiet) member, Poll.isTerminal_row (mem_of_polled all member).2]
  have going : (shared.polled polls).tables.unfinishedJobs.length =
      shared.tables.unfinishedJobs.countP fun row => !hasEnded row := by
    unfold Store.Tables.unfinishedJobs Shared.polled
    rw [← List.countP_eq_length_filter, List.countP_map, List.countP_filter]
    refine List.countP_congr fun row member => ?_
    change (!hasEnded row) = true ↔ (!hasEnded row && !row.status.isTerminal) = true
    by_cases settled : row.status.isTerminal = true
    · simp [hasEnded, rowAfter_of_isTerminal all quiet member settled, settled]
    · simp [settled]
  rw [ended, going, List.length_eq_countP_add_countP hasEnded]
  simp [Nat.add_comm]

end Passes

section Footprint

theorem isOfPass_of {request : Request} (member : request.isOfPlace = true ∨ request.isOutward = true) :
    request.isOfPass = true := by
  unfold Request.isOfPass
  split
  case h_7 => exact (Bool.or_eq_true _ _).mpr member
  all_goals rfl

theorem asks_refresh (id : String) : Asks Request.isOfPass (refresh id) := by
  have observes (job : Job) : Asks Request.isOfPass job.observe := by
    unfold observe
    split
    next => exact yields_throw _
    next handle _ =>
      have finds : Asks Request.isOfPass job.place := job.asks_place.mono fun _ member => isOfPass_of (.inl member)
      refine finds.bind fun place => ?_
      have looks : Asks Request.isOfPass (place.status handle) :=
        (asks_status place handle).mono fun _ outward => isOfPass_of (.inr outward)
      exact (Service.asks_backend looks).bind fun status => (Service.asks_ask rfl).bind fun now =>
        Service.asks_store rfl
  have loads : Asks Request.isOfPass (load id) := by
    refine (Service.asks_store rfl).bind fun found => ?_
    cases found with
    | some job => exact yields_pure trivial
    | none => exact yields_throw _
  refine loads.bind fun job => ?_
  split
  next => exact yields_pure trivial
  next =>
    refine (Service.asks_ask rfl).bind fun granted => ?_
    split
    next =>
      exact (Service.asks_attempt (observes job)).bind fun result => (Service.asks_ask rfl).bind fun _ =>
        Service.asks_ofExcept result
    next => exact yields_pure trivial

theorem asks_monitor : Asks Request.isOfPass monitor := by
  have all (jobs : List Job) : Asks Request.isOfPass (refreshAll jobs) := by
    induction jobs with
    | nil => exact yields_pure trivial
    | cons job rest ih =>
      exact (Service.asks_attempt (asks_refresh job.id)).bind fun status => ih.bind fun count => yields_pure trivial
  exact (Service.asks_store rfl).bind all

end Footprint

section Claims

variable {id : String}

/-- While a job is asked about no other job is claimed. -/
theorem Observes.claims {account : Option LocalAccount} {job : Job} {outcome : Except Failure (Status × Instant)}
    (observes : job.Observes account log outcome) : timesAsked (Request.isClaimOf id) log = 0 := by
  have outside {result : Except Backend.Fault Status} {place : Backend} {handle : String}
      {enquiry : List (Moment Unit)}
      (enquired : Goes Setting.anything (place.status handle) () result () enquiry) :
      timesAsked (Request.isClaimOf id) enquiry = 0 := by
    refine timesAsked_eq_zero.mpr fun moment member => ?_
    have outward := (asks_status place handle).all_of_goes enquired moment member
    cases request : moment.request with
    | claim job =>
      rw [request] at outward
      cases outward
    | _ => rfl
  cases observes with
  | unsubmitted | stranded | unaccounted => rfl
  | refused submitted enquired => simp [outside enquired, Moment.said, Request.isClaimOf]
  | unmoved submitted enquired | moved submitted enquired =>
    simp [outside enquired, Moment.said, Request.isClaimOf]

/-- A poll that has found its job claims it once. -/
theorem Poll.HasGone.claims {tables : Store.Tables} {poll : Poll} (gone : poll.HasGone tables)
    (found : ∀ fault, .said (.store (.findJob poll.job.id)) (.error fault) ∉ poll.log) :
    timesAsked (Request.isClaimOf id) poll.log = if poll.job.id = id then 1 else 0 := by
  cases gone with
  | unfound job fault => exact absurd List.mem_cons_self (found fault)
  | asked observes =>
    simp [observes.claims, Moment.said, Request.isClaimOf]

/-- Polls of different jobs claim each of them once. -/
theorem claims_flatMap {polls : List Poll} (distinct : (polls.map fun poll => poll.job.id).Nodup)
    (each : ∀ poll ∈ polls, timesAsked (Request.isClaimOf id) poll.log = if poll.job.id = id then 1 else 0) :
    timesAsked (Request.isClaimOf id) (polls.flatMap Poll.log) =
      if id ∈ polls.map fun poll => poll.job.id then 1 else 0 := by
  induction polls with
  | nil => rfl
  | cons poll polls ih =>
    obtain ⟨apart, later⟩ := List.nodup_cons.mp distinct
    rw [List.flatMap_cons, timesAsked_append, each poll List.mem_cons_self,
      ih later fun other member => each other (List.mem_cons_of_mem poll member), List.map_cons]
    by_cases same : poll.job.id = id
    · dsimp only at apart
      rw [same] at apart
      rw [if_pos same, if_neg apart, if_pos (by rw [same]; exact List.mem_cons_self)]
    · rw [if_neg same, Nat.zero_add]
      refine if_congr ?_ rfl rfl
      rw [List.mem_cons, or_iff_right fun equal => same equal.symm]

end Claims

/-- Alone on a quiet server, a pass over the jobs either fails to list them, or it is a poll of each job that had not
ended. -/
theorem goes_monitor (quiet : shared.IsQuiet) (result : Except Failure Nat) :
    Goes Shared.Serves monitor shared result last log ↔
      (∃ fault, result = .error (.ofStore fault) ∧ last = shared ∧
        log = [.said (.store .unfinishedJobs) (.error fault)]) ∨
      ∃ polls : List Poll, polls.map Poll.job = shared.tables.unfinishedJobs ∧
        (∀ poll ∈ polls, poll.HasGone shared.tables) ∧
        result = .ok (polls.countP Poll.hasEnded) ∧ last = shared.polled polls ∧
        log = .said (.store .unfinishedJobs) (.ok shared.tables.unfinishedJobs) :: polls.flatMap Poll.log := by
  have told : shared.tables.answer .unfinishedJobs = (.ok shared.tables.unfinishedJobs, shared.tables) := rfl
  have distinct := quiet.distinct_unfinished
  have stored (job : Job) (listed : job ∈ shared.tables.unfinishedJobs) := mem_unfinishedJobs.mp listed
  unfold monitor
  rw [Service.goes_store_bind]
  constructor
  · rintro (⟨jobs, middle, back, listed, goes, rfl⟩ | ⟨fault, failed, rfl, rfl⟩)
    · obtain ⟨rfl, rfl⟩ := (Shared.serves_ok_iff told).mp listed
      obtain ⟨polls, all, gone, rfl, rfl, rfl⟩ := (goes_refreshAll quiet distinct stored _).mp goes
      exact .inr ⟨polls, all, gone, rfl, rfl, rfl⟩
    · exact .inl ⟨fault, rfl, (Shared.serves_error_iff told).mp failed, rfl⟩
  · rintro (⟨fault, rfl, rfl, rfl⟩ | ⟨polls, all, gone, rfl, rfl, rfl⟩)
    · exact .inr ⟨fault, (Shared.serves_error_iff told).mpr rfl, rfl, rfl⟩
    · exact .inl ⟨_, shared, _, (Shared.serves_ok_iff told).mpr ⟨rfl, rfl⟩,
        (goes_refreshAll quiet distinct stored _).mpr ⟨polls, all, gone, rfl, rfl, rfl⟩, rfl⟩

/-- Alone on a quiet server, with whatever is stored and whatever its places say:
- a pass comes to an end;
- it fails only if the jobs cannot be listed, and else it is one poll of each job that had not ended, in their order,
and any polls that these jobs can have on the tables at the beginning make up a pass;
- each of them goes as a poll of this job alone can go;
- a poll that fails leaves the row of its job as it is, and the rows of jobs that had ended stay;
- the pass tells by how many jobs there are fewer that have not ended;
- if the store does not fail, each job that had not ended has been claimed, to be asked about, exactly once, and no
other job at all. -/
theorem monitor_polls_each_unfinished_job_once (quiet : shared.IsQuiet) :
    Concludes Shared.Answers monitor shared ∧
    (∀ result last log, Goes Shared.Serves monitor shared result last log ↔
      (∃ fault, result = .error (.ofStore fault) ∧ last = shared ∧
        log = [.said (.store .unfinishedJobs) (.error fault)]) ∨
      ∃ polls : List Poll, polls.map Poll.job = shared.tables.unfinishedJobs ∧
        (∀ poll ∈ polls, poll.HasGone shared.tables) ∧
        result = .ok (polls.countP Poll.hasEnded) ∧ last = shared.polled polls ∧
        log = .said (.store .unfinishedJobs) (.ok shared.tables.unfinishedJobs) :: polls.flatMap Poll.log) ∧
    (∀ job ∈ shared.tables.unfinishedJobs, ∀ result last log,
      Goes Shared.Serves (refresh job.id) shared result last log ↔
        ∃ poll : Poll, poll.job = job ∧ poll.HasGone shared.tables ∧ result = poll.told ∧
          last = shared.polled [poll] ∧ log = poll.log) ∧
    (∀ polls : List Poll, polls.map Poll.job = shared.tables.unfinishedJobs →
      (∀ poll ∈ polls, (shared.polled polls).tables.job? poll.job.id = some poll.row ∧
        ∀ cause, poll.told = .error cause → poll.row = poll.job) ∧
      ∀ job ∈ shared.tables.jobs, job.status.isTerminal = true →
        (shared.polled polls).tables.job? job.id = some job) ∧
    (∀ count last log, Goes Shared.Serves monitor shared (.ok count) last log →
      shared.tables.unfinishedJobs.length = last.tables.unfinishedJobs.length + count) ∧
    ∀ result last log, Goes Shared.Answers monitor shared result last log → result.isOk = true ∧
      ∀ id, timesAsked (Request.isClaimOf id) log =
        if id ∈ shared.tables.unfinishedJobs.map Job.id then 1 else 0 := by
  refine ⟨?_, fun result last log => goes_monitor quiet result, fun job listed result last log => ?_,
    fun polls all => ⟨fun poll member => ⟨?_, fun cause failed => ?_⟩, fun job present settled => ?_⟩,
    fun count last log goes => ?_, fun result last log goes => ?_⟩
  · have answered (shared : Shared) (request : Request) (member : request.isOfPass = true) :
        ∃ reply next, shared.Answers request reply next :=
      Shared.answers_total fun same => by rw [same] at member; cases member
    exact asks_monitor.concludes answered shared
  · obtain ⟨present, unfinished⟩ := mem_unfinishedJobs.mp listed
    exact goes_refresh quiet present unfinished result
  · have found := Store.Tables.job?_of_mem quiet.distinct (mem_of_polled all member).1
    rw [Shared.job?_polled, found, Option.map_some, Poll.rowAfter_job (distinct_polls all quiet) member]
  · exact poll.row_of_error failed
  · have found := Store.Tables.job?_of_mem quiet.distinct present
    rw [Shared.job?_polled, found, Option.map_some, rowAfter_of_isTerminal all quiet present settled]
  · rcases (goes_monitor quiet _).mp goes with ⟨_, failed, -⟩ | ⟨polls, all, -, counted, rfl, -⟩
    · cases failed
    · cases counted
      exact unfinished_polled all quiet
  · have sound : ∀ moment ∈ log, moment.isFailedLookUp = false := goes.said Shared.isFailedLookUp_said
    rcases (goes_monitor quiet _).mp (goes.mono Or.inl) with ⟨fault, -, -, rfl⟩ | ⟨polls, all, gone, rfl, -, rfl⟩
    · cases sound _ List.mem_cons_self
    · refine ⟨rfl, fun id => ?_⟩
      have each : ∀ poll ∈ polls, timesAsked (Request.isClaimOf id) poll.log = if poll.job.id = id then 1 else 0 := by
        intro poll member
        refine (gone poll member).claims fun fault failed => ?_
        cases sound _ (List.mem_cons_of_mem _ (List.mem_flatMap.mpr ⟨poll, member, failed⟩))
      rw [timesAsked_cons, claims_flatMap (distinct_polls all quiet) each, Poll.ids_eq all]
      rfl

/-- A job that is over at its place, one on a machine that nobody knows any more, and one that had ended before. -/
def roundStart : Shared :=
  { tables := {
      jobs := [
        { (default : Job) with id := "J", owner := "alice", machine := "cluster", handle := some "7" },
        { (default : Job) with id := "K", owner := "alice", machine := "lost", handle := some "8" },
        { (default : Job) with id := "L", owner := "alice", machine := "cluster", status := .failed }] } }

def roundResponder : Pool.Responder Shared := Shared.respond fun
  | .machine "cluster" => some
    { id := "cluster", name := "cluster"
      platform := .batch { host := "front", scheduler := .slurm, defaultUser := "grid" } }
  | .machine _ => none
  | request => Shared.outsideOf default "COMPLETED" request

theorem roundStart_is_polled_once : ∃ last log, Goes Shared.Answers monitor roundStart (.ok 1) last log ∧
    last.tables.jobs.map (fun job => (job.id, job.status)) = [("J", .completed), ("K", .submitted), ("L", .failed)] ∧
    roundStart.tables.unfinishedJobs.length = last.tables.unfinishedJobs.length + 1 ∧
    timesAsked (Request.isClaimOf "J") log = 1 ∧ timesAsked (Request.isClaimOf "K") log = 1 ∧
    timesAsked (Request.isClaimOf "L") log = 0 := by
  have ran : (monitor.run.follow roundResponder roundStart).map (fun (result, last) => (result.toOption,
      last.tables.jobs.map fun job => (job.id, job.status))) =
      some (some 1, [("J", .completed), ("K", .submitted), ("L", .failed)]) := by decide +kernel
  obtain ⟨⟨result, last⟩, followed, same⟩ := Option.map_eq_some_iff.mp ran
  obtain ⟨counted, rows⟩ := Prod.mk.inj same
  obtain rfl := eq_ok_of_toOption counted
  have ended : Finishes Shared.Answers monitor roundStart (.ok 1) last := ends_follow Shared.answers_respond followed
  obtain ⟨log, goes⟩ := ended.goes
  have ordered : roundStart.tables.HasOrderedJobs := by decide +kernel
  have quiet : roundStart.IsQuiet := ⟨ordered.distinct, rfl⟩
  obtain ⟨-, -, -, -, counts, once⟩ := monitor_polls_each_unfinished_job_once quiet
  obtain ⟨-, claims⟩ := once _ _ _ goes
  exact ⟨last, log, goes, rows, counts _ _ _ (goes.mono Or.inl), claims "J", claims "K", claims "L"⟩

end Job

end Dispatch
