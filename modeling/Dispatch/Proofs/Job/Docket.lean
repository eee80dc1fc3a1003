import Dispatch.Proofs.Cloud.Calls
import Dispatch.Proofs.Job.Table
import Dispatch.Proofs.Server.Footprint
import Dispatch.Proofs.Server.Shared
/-!
The docket of a server that does one thing after the other: for which job each action on a machine was requested.
Between two operations the machine of a job has undergone what the status of the job says, and every action was
requested while the job had not ended.
-/
namespace Dispatch

open Plan

/-- A server whose store does not fail, and whose machines are known for good. -/
def Shared.AnswersFor (machines : String → Option Machine) : Setting Shared
  | shared, .machine id, found, next => found = machines id ∧ next = shared
  | shared, request, reply, next => shared.Answers request reply next

namespace Job

/-- The job that is attended to, and the actions that were requested for jobs so far. -/
structure Docket where
  subject : Option String := none
  actions : List (String × Moment Shared) := []

/-- Whoever looks a job up attends to it; whoever enters the mint attends to a job that is not stored yet. -/
def nextSubject (subject : Option String) : Request → Option String
  | .store (.findJob id) => some id
  | .enterMint => none
  | _ => subject

/-- An action is for the job that is attended to. -/
def Docket.note (docket : Docket) (moment : Moment Shared) : Docket :=
  { subject := nextSubject docket.subject moment.request
    actions :=
      if Cloud.isCall Cloud.actionMethod moment.request then
        docket.actions ++ docket.subject.toList.map fun id => (id, moment)
      else docket.actions }

def docket (trace : List (Moment Shared)) : Docket := trace.foldl Docket.note {}

/-- The actions that were requested for a job. -/
def actionsFor (id : String) (trace : List (Moment Shared)) : List (Moment Shared) :=
  (docket trace).actions.filterMap fun (other, moment) => if other = id then some moment else none

/-- What the provider did to which machine. -/
def performed? : Moment Shared → Option (String × Int)
  | ⟨_, .provider endpoint method params, reply, _⟩ =>
    if (Cloud.outcome method reply).toOption.isSome then Cloud.action? (.provider endpoint method params) else none
  | _ => none

/-- What was done for a job, action after action. -/
def performedFor (id : String) (trace : List (Moment Shared)) : List String :=
  (actionsFor id trace).filterMap fun moment => (performed? moment).map Prod.fst

/-- What has been done to the machine of a job with that status. -/
def Status.releases : Status → List String
  | completed | downloaded => [Cloud.Config.VmAction.stop.name]
  | cancelled => [Cloud.Config.VmAction.delete.name]
  | submitted | queued | waiting | running | failed => []

/-- An action on the machine of a stored job that has not ended. -/
def IsDue (id : String) (moment : Moment Shared) : Prop :=
  ∃ job handle vm name, moment.before.tables.job? id = some job ∧ job.status.isTerminal = false ∧
    job.handle = some handle ∧ Cloud.vmIdOf handle = .ok vm ∧ Cloud.action? moment.request = some (name, vm)

/-- A job that was submitted to a cloud. -/
def IsInCloud (machines : String → Option Machine) (job : Job) : Prop :=
  job.handle.isSome = true ∧ ∃ machine config, machines job.machine = some machine ∧ machine.platform = .cloud config

/-- What is true of a job between two operations. -/
structure IsSettled (machines : String → Option Machine) (id : String) (now : Recorded Shared) : Prop where
  unknown : now.state.tables.job? id = none → actionsFor id now.trace = []
  released : ∀ job, now.state.tables.job? id = some job → job.IsInCloud machines →
    job.status ≠ .failed ∧ performedFor id now.trace = job.status.releases
  due : ∀ moment ∈ actionsFor id now.trace, IsDue id moment

/-- What is true between two operations. -/
structure Books (machines : String → Option Machine) (now : Recorded Shared) : Prop where
  distinct : now.state.tables.HasDistinctJobs
  settled : ∀ id, IsSettled machines id now

/-- Requests that are of no concern to jobs and the docket. -/
def isAside : Request → Bool
  | .enterMint => false
  | request => !request.isOfJobs && !Cloud.isCall Cloud.actionMethod request

theorem isAside_iff {request : Request} : isAside request = true ↔ request ≠ .enterMint ∧
    request.isOfJobs = false ∧ Cloud.isCall Cloud.actionMethod request = false := by
  cases request with
  | enterMint => simp [isAside]
  | _ => simp [isAside]

/-- Only a look at a job and the mint change who is attended to. -/
theorem nextSubject_eq {request : Request} (other : request.isOfJobs = false) (outside : request ≠ .enterMint)
    (subject : Option String) : nextSubject subject request = subject := by
  cases request with
  | enterMint => exact absurd rfl outside
  | store call =>
    cases call with
    | findJob => cases other
    | _ => rfl
  | _ => rfl

section Notes

variable {trace : List (Moment Shared)} {moment : Moment Shared}

theorem docket_snoc (trace : List (Moment Shared)) (moment : Moment Shared) :
    docket (trace ++ [moment]) = (docket trace).note moment := by
  rw [docket, List.foldl_append]
  rfl

theorem actionsFor_snoc (id : String) (trace : List (Moment Shared)) (moment : Moment Shared) :
    actionsFor id (trace ++ [moment]) = actionsFor id trace ++
      if Cloud.isCall Cloud.actionMethod moment.request = true ∧ (docket trace).subject = some id then [moment]
      else [] := by
  unfold actionsFor
  rw [docket_snoc]
  by_cases acts : Cloud.isCall Cloud.actionMethod moment.request = true
  · cases attended : (docket trace).subject with
    | none => simp [Docket.note, acts, attended]
    | some other => by_cases same : other = id <;> simp [Docket.note, acts, attended, same]
  · simp [Docket.note, acts]

/-- An action is for nobody if nobody is attended to, and for nobody else but the one who is. -/
theorem actionsFor_snoc_of_not {id : String}
    (other : Cloud.isCall Cloud.actionMethod moment.request = true → (docket trace).subject ≠ some id) :
    actionsFor id (trace ++ [moment]) = actionsFor id trace := by
  rw [actionsFor_snoc, if_neg fun both => other both.1 both.2, List.append_nil]

end Notes

section Steps

variable {machines : String → Option Machine} {now next : Recorded Shared} {request : Request}
  {reply : request.Reply}

theorem answers_of_answersFor {shared after : Shared} (answered : shared.AnswersFor machines request reply after) :
    shared.Answers request reply after := by
  cases request with
  | machine => exact answered.2
  | _ => exact answered

theorem answersFor_respond {outside : (request : Request) → request.Reply} {shared after : Shared}
    (known : ∀ id, outside (.machine id) = machines id)
    (replied : Shared.respond outside request shared = some (reply, after)) :
    shared.AnswersFor machines request reply after := by
  cases request with
  | machine id =>
    cases replied
    exact ⟨known id, rfl⟩
  | _ => exact Shared.answers_respond replied

/-- What does not concern jobs leaves their rows alone. -/
theorem jobs_eq {shared after : Shared} (answered : shared.AnswersFor machines request reply after)
    (other : request.isOfJobs = false) : after.tables.jobs = shared.tables.jobs := by
  have served : shared.Serves request reply after := .inl (answers_of_answersFor answered)
  cases request with
  | store call =>
    obtain ⟨_, rfl⟩ := answers_of_answersFor answered
    exact shared.tables.answer_jobs other
  | _ => exact congrArg Store.Tables.jobs (served.tables_eq fun _ => nofun)

/-- With the same rows, and no action for the job, it stays settled. -/
theorem IsSettled.of_same {id : String} (settled : IsSettled machines id now)
    (rows : next.state.tables.job? id = now.state.tables.job? id)
    (actions : actionsFor id next.trace = actionsFor id now.trace) : IsSettled machines id next := by
  refine ⟨?_, ?_, ?_⟩
  · rw [rows, actions]
    exact settled.unknown
  · rw [rows, performedFor, actions]
    exact settled.released
  · rw [actions]
    exact settled.due

/-- A stored job is settled if what was done for it goes with its status. -/
theorem IsSettled.of_row {id : String} {row : Job} (present : now.state.tables.job? id = some row)
    (released : row.IsInCloud machines → row.status ≠ .failed ∧ performedFor id now.trace = row.status.releases)
    (due : ∀ moment ∈ actionsFor id now.trace, IsDue id moment) : IsSettled machines id now := by
  refine ⟨fun gone => ?_, fun job found inCloud => ?_, due⟩
  · rw [present] at gone
    cases gone
  · obtain rfl : row = job := Option.some.inj (present.symm.trans found)
    exact released inCloud

/-- A request that leaves the jobs alone, and is for none of them if it is an action. -/
theorem Books.of_same (books : Books machines now)
    (answered : (Shared.AnswersFor machines).recorded now request reply next)
    (rows : next.state.tables.jobs = now.state.tables.jobs)
    (unattended : Cloud.isCall Cloud.actionMethod request = true → (docket now.trace).subject = none) :
    Books machines next := by
  refine ⟨?_, fun id => (books.settled id).of_same ?_ ?_⟩
  · rw [Store.Tables.HasDistinctJobs, rows]
    exact books.distinct
  · simp only [Store.Tables.job?, rows]
  · rw [answered.2]
    refine actionsFor_snoc_of_not fun acts attended => ?_
    rw [unattended acts] at attended
    cases attended

theorem Books.aside (books : Books machines now)
    (answered : (Shared.AnswersFor machines).recorded now request reply next) (aside : isAside request = true) :
    Books machines next := by
  obtain ⟨_, other, noAction⟩ := isAside_iff.mp aside
  refine books.of_same answered (jobs_eq answered.1 other) fun acts => ?_
  rw [noAction] at acts
  cases acts

/-- Nobody is attended to, and the books are in order. -/
structure Unattended (machines : String → Option Machine) (now : Recorded Shared) : Prop where
  books : Books machines now
  subject : (docket now.trace).subject = none

/-- As long as nobody is attended to anything may be done to machines. -/
theorem Unattended.pass (unattended : Unattended machines now)
    (answered : (Shared.AnswersFor machines).recorded now request reply next) (other : request.isOfJobs = false) :
    Unattended machines next := by
  refine ⟨unattended.books.of_same answered (jobs_eq answered.1 other) fun _ => unattended.subject, ?_⟩
  rw [answered.2, docket_snoc]
  change nextSubject (docket now.trace).subject request = none
  by_cases mint : request = .enterMint
  · rw [mint]
    rfl
  · rw [nextSubject_eq other mint]
    exact unattended.subject

theorem Unattended.enter (books : Books machines now) {reply : Unit}
    (answered : (Shared.AnswersFor machines).recorded now .enterMint reply next) : Unattended machines next := by
  refine ⟨books.of_same answered (jobs_eq answered.1 rfl) nofun, ?_⟩
  rw [answered.2, docket_snoc]
  rfl

/-- A new job is settled if it has just been submitted, or never will be in a cloud. -/
theorem Books.insert (books : Books machines now) {job : Job} {reply : Except Store.Fault Unit}
    (answered : (Shared.AnswersFor machines).recorded now (.store (.insertJob job)) reply next)
    (fresh : job.IsInCloud machines → job.status = .submitted) : Books machines next := by
  have actions (id : String) : actionsFor id next.trace = actionsFor id now.trace := by
    rw [answered.2]
    exact actionsFor_snoc_of_not nofun
  have stored : next.state.tables = (now.state.tables.insertJob job).2 := congrArg Shared.tables answered.1.2
  rcases now.state.tables.insertJob_cases job with ⟨row, _, same⟩ | ⟨absent, added⟩
  · rw [same] at stored
    refine ⟨?_, fun id => (books.settled id).of_same ?_ (actions id)⟩
    · rw [stored]
      exact books.distinct
    · rw [stored]
  · rw [added] at stored
    have found (id : String) : next.state.tables.job? id =
        if job.id = id then some job else now.state.tables.job? id := by
      rw [stored]
      exact Store.Tables.job?_insertInOrder absent id
    refine ⟨?_, fun id => ?_⟩
    · rw [stored]
      exact books.distinct.insertInOrder absent
    · by_cases same : job.id = id
      · have before := (books.settled id).unknown (same ▸ absent)
        have own : next.state.tables.job? id = some job := by rw [found id, if_pos same]
        refine .of_row own (fun inCloud => ?_) ?_
        · rw [performedFor, actions id, before, fresh inCloud]
          exact ⟨by decide, rfl⟩
        · intro moment member
          rw [actions id, before] at member
          cases member
      · exact (books.settled id).of_same (by rw [found id, if_neg same]) (actions id)

/-- One job is attended to, of which this has been done; all others are settled. -/
structure Attending (machines : String → Option Machine) (job : Job) (done : List String) (now : Recorded Shared) :
    Prop where
  distinct : now.state.tables.HasDistinctJobs
  others : ∀ id, id ≠ job.id → IsSettled machines id now
  row : now.state.tables.job? job.id = some job
  subject : (docket now.trace).subject = some job.id
  performed : job.IsInCloud machines → performedFor job.id now.trace = done
  due : ∀ moment ∈ actionsFor job.id now.trace, IsDue job.id moment

theorem releases_of_unfinished {status : Status} (unfinished : status.isTerminal = false) : status.releases = [] := by
  cases status with
  | submitted | queued | waiting | running => rfl
  | completed | cancelled | failed | downloaded => cases unfinished

/-- A job that has not ended is attended to with nothing done. -/
theorem Books.attend (books : Books machines now) {job : Job} (row : now.state.tables.job? job.id = some job)
    (subject : (docket now.trace).subject = some job.id) (unfinished : job.status.isTerminal = false) :
    Attending machines job [] now := by
  refine ⟨books.distinct, fun id _ => books.settled id, row, subject, fun inCloud => ?_, (books.settled job.id).due⟩
  rw [((books.settled job.id).released job row inCloud).2]
  exact releases_of_unfinished unfinished

/-- A job that has not ended may be left as it is if nothing was done. -/
theorem Attending.leave {job : Job} (attending : Attending machines job [] now)
    (unfinished : job.status.isTerminal = false) : Books machines now := by
  refine ⟨attending.distinct, fun id => ?_⟩
  by_cases same : id = job.id
  · rw [same]
    refine .of_row attending.row (fun inCloud => ?_) attending.due
    rw [attending.performed inCloud, releases_of_unfinished unfinished]
    refine ⟨fun failed => ?_, rfl⟩
    rw [failed] at unfinished
    cases unfinished
  · exact attending.others id same

theorem Attending.aside {job : Job} {done : List String} (attending : Attending machines job done now)
    (answered : (Shared.AnswersFor machines).recorded now request reply next) (aside : isAside request = true) :
    Attending machines job done next := by
  obtain ⟨outside, other, noAction⟩ := isAside_iff.mp aside
  have rows := jobs_eq answered.1 other
  have found (id : String) : next.state.tables.job? id = now.state.tables.job? id := by
    simp only [Store.Tables.job?, rows]
  have actions (id : String) : actionsFor id next.trace = actionsFor id now.trace := by
    rw [answered.2]
    refine actionsFor_snoc_of_not fun acts => ?_
    rw [noAction] at acts
    cases acts
  refine ⟨?_, fun id different => (attending.others id different).of_same (found id) (actions id), ?_, ?_, ?_, ?_⟩
  · rw [Store.Tables.HasDistinctJobs, rows]
    exact attending.distinct
  · rw [found]
    exact attending.row
  · rw [answered.2, docket_snoc]
    exact (nextSubject_eq other outside _).trans attending.subject
  · rw [performedFor, actions]
    exact attending.performed
  · rw [actions]
    exact attending.due

/-- An action on the machine of the job that is attended to. -/
theorem Attending.act {job : Job} {done : List String} (attending : Attending machines job done now)
    (unfinished : job.status.isTerminal = false) {handle name : String} {vm : Int} (handled : job.handle = some handle)
    (names : Cloud.vmIdOf handle = .ok vm) {endpoint session : String} {reply : Except Backend.Fault Json}
    (answered : (Shared.AnswersFor machines).recorded now
      (.provider endpoint Cloud.actionMethod [.string session, .string name, .int vm]) reply next) :
    Attending machines job
      (if (Cloud.outcome Cloud.actionMethod reply).toOption.isSome then done ++ [name] else done) next := by
  have rows := jobs_eq answered.1 rfl
  have found (id : String) : next.state.tables.job? id = now.state.tables.job? id := by
    simp only [Store.Tables.job?, rows]
  let moment : Moment Shared := {
    before := now.state
    request := .provider endpoint Cloud.actionMethod [.string session, .string name, .int vm]
    reply, after := next.state }
  have grown : next.trace = now.trace ++ [moment] := answered.2
  have wanted : Cloud.action? moment.request = some (name, vm) := by simp [moment, Cloud.action?, Json.int]
  have calls : Cloud.isCall Cloud.actionMethod moment.request = true := Cloud.isCall_of_action wanted
  have own : actionsFor job.id next.trace = actionsFor job.id now.trace ++ [moment] := by
    rw [grown, actionsFor_snoc, if_pos ⟨calls, attending.subject⟩]
  have elsewhere {id : String} (different : id ≠ job.id) : actionsFor id next.trace = actionsFor id now.trace := by
    rw [grown]
    refine actionsFor_snoc_of_not fun _ attended => different ?_
    rw [attending.subject] at attended
    exact (Option.some.inj attended).symm
  refine ⟨?_, fun id different => (attending.others id different).of_same (found id) (elsewhere different), ?_, ?_,
    fun inCloud => ?_, ?_⟩
  · rw [Store.Tables.HasDistinctJobs, rows]
    exact attending.distinct
  · rw [found]
    exact attending.row
  · rw [grown, docket_snoc]
    exact attending.subject
  · have before : performedFor job.id now.trace = done := attending.performed inCloud
    have here : performed? moment =
        if (Cloud.outcome Cloud.actionMethod reply).toOption.isSome then some (name, vm) else none := by
      rw [← wanted]
      rfl
    rw [performedFor, own, List.filterMap_append]
    rw [performedFor] at before
    rw [before]
    split
    next accepted => simp [here, accepted]
    next refused => simp [here, refused]
  · intro other member
    rw [own] at member
    rcases List.mem_append.mp member with earlier | last
    · exact attending.due other earlier
    · rw [List.mem_singleton.mp last]
      exact ⟨job, handle, vm, name, attending.row, unfinished, handled, names, wanted⟩

/-- Another row in the place of one, where all other jobs are settled, and this one is with the new row. -/
theorem Books.of_replaced (row : Job) {later : Job} (moved : next.state.tables = now.state.tables.replaceJob later)
    (sameId : later.id = row.id) (present : now.state.tables.job? row.id = some row)
    (distinct : now.state.tables.HasDistinctJobs) (others : ∀ id, id ≠ row.id → IsSettled machines id now)
    (actions : ∀ id, actionsFor id next.trace = actionsFor id now.trace)
    (released : later.IsInCloud machines →
      later.status ≠ .failed ∧ performedFor row.id now.trace = later.status.releases)
    (due : ∀ moment ∈ actionsFor row.id now.trace, IsDue row.id moment) : Books machines next := by
  have found (id : String) : next.state.tables.job? id =
      if row.id = id then (now.state.tables.job? id).map fun _ => later else now.state.tables.job? id := by
    rw [moved, Store.Tables.job?_replaceJob, sameId]
  refine ⟨?_, fun id => ?_⟩
  · rw [moved, Store.Tables.HasDistinctJobs, Store.Tables.replaceJob_ids]
    exact distinct
  · by_cases same : id = row.id
    · rw [same]
      have own : next.state.tables.job? row.id = some later := by rw [found, if_pos rfl, present, Option.map_some]
      refine .of_row own ?_ ?_
      · rw [performedFor, actions]
        exact released
      · rw [actions]
        exact due
    · refine (others id same).of_same ?_ (actions id)
      rw [found, if_neg fun other => same other.symm]

/-- A moved job is settled if what was done for it goes with its new status. -/
theorem Attending.move {job : Job} {status : Status} (attending : Attending machines job status.releases now)
    (unfinished : job.status.isTerminal = false) (sane : job.IsInCloud machines → status ≠ .failed)
    {instant : Instant} {reply : Except Store.Fault Status}
    (answered : (Shared.AnswersFor machines).recorded now (.store (.transitionJob job.id status instant)) reply next) :
    Books machines next := by
  have actions (id : String) : actionsFor id next.trace = actionsFor id now.trace := by
    rw [answered.2]
    exact actionsFor_snoc_of_not nofun
  have stored : next.state.tables = (now.state.tables.transitionJob job.id status instant).2 :=
    congrArg Shared.tables answered.1.2
  have moved : next.state.tables = now.state.tables.replaceJob (job.moveTo status instant) := by
    rw [stored, Store.Tables.transitionJob, attending.row]
    simp [Status.canBecome_of_unfinished unfinished]
  exact .of_replaced job moved rfl attending.row attending.distinct attending.others actions
    (fun inCloud => ⟨sane inCloud, attending.performed inCloud⟩) attending.due

/-- A job that was seen completed is completed still, or downloaded. -/
def IsFetchable (job : Job) (tables : Store.Tables) : Prop :=
  job.status = .completed → ∃ row, tables.job? job.id = some row ∧ (row.status = .completed ∨ row.status = .downloaded)

theorem IsFetchable.of_same {job : Job} {tables later : Store.Tables} (fetchable : job.IsFetchable tables)
    (rows : later.jobs = tables.jobs) : job.IsFetchable later := by
  intro completed
  obtain ⟨row, found, status⟩ := fetchable completed
  exact ⟨row, by simpa only [Store.Tables.job?, rows] using found, status⟩

/-- Downloading the output of a completed job changes nothing for its machine, and nothing for any other job. -/
theorem Books.download (books : Books machines now) {job : Job} (fetchable : job.IsFetchable now.state.tables)
    (completed : job.status = .completed) {instant : Instant} {reply : Except Store.Fault Status}
    (answered : (Shared.AnswersFor machines).recorded now (.store (.transitionJob job.id .downloaded instant)) reply
      next) :
    Books machines next ∧ ∀ other : Job, other.IsFetchable now.state.tables → other.IsFetchable next.state.tables := by
  have actions (id : String) : actionsFor id next.trace = actionsFor id now.trace := by
    rw [answered.2]
    exact actionsFor_snoc_of_not nofun
  have stored : next.state.tables = (now.state.tables.transitionJob job.id .downloaded instant).2 :=
    congrArg Shared.tables answered.1.2
  obtain ⟨row, present, status⟩ := fetchable completed
  have sameId := (Store.Tables.job?_some present).2
  by_cases already : row.status = .downloaded
  · have unmoved : next.state.tables = now.state.tables := by
      rw [stored, Store.Tables.transitionJob, present]
      simp [already, Status.canBecome, Status.isTerminal]
    refine ⟨⟨?_, fun id => (books.settled id).of_same (by rw [unmoved]) (actions id)⟩, fun other => ?_⟩
    · rw [unmoved]
      exact books.distinct
    · rw [unmoved]
      exact fun known => known
  · have unfetched : row.status = .completed := status.resolve_right already
    have moved : next.state.tables = now.state.tables.replaceJob (row.moveTo .downloaded instant) := by
      rw [stored, Store.Tables.transitionJob, present]
      simp [unfetched, Status.canBecome]
    have rowPresent : now.state.tables.job? row.id = some row := sameId ▸ present
    have released : row.IsInCloud machines → performedFor row.id now.trace = Status.downloaded.releases := by
      intro inCloud
      have before := ((books.settled row.id).released row rowPresent inCloud).2
      rwa [unfetched] at before
    refine ⟨.of_replaced row moved rfl rowPresent books.distinct (fun id _ => books.settled id) actions
      (fun inCloud => ⟨by simp [Job.moveTo], released inCloud⟩) (books.settled row.id).due, fun other known done => ?_⟩
    obtain ⟨later, there, ended⟩ := known done
    rw [moved, Store.Tables.job?_replaceJob]
    split
    next => exact ⟨row.moveTo .downloaded instant, by rw [there, Option.map_some], .inr rfl⟩
    next => exact ⟨later, there, ended⟩

end Steps

end Job

end Dispatch
