import Dispatch.Proofs.Job.Listing
import Dispatch.Proofs.Job.Ownership
import Dispatch.Proofs.Session.Refusal
/-!
Users stand apart. Whatever operations follow one another with keys that act as a user who is no admin, nothing of
others is changed or touched, and all that is told is about the user.
-/
namespace Dispatch

open Plan

namespace Store.Tables

/-- Whoever has the key acts as that user. -/
def ActsAs (tables : Tables) (key user : String) : Prop :=
  ∀ session, tables.session? key = some session → session.user = user

/-- The user is no admin. -/
def HasNoAdmin (tables : Tables) (user : String) : Prop := ∀ row, tables.user? user = some row → row.isAdmin = false

variable {user key : String} {before after : Tables}

theorem KeepsAccounts.actsAs (kept : before.KeepsAccounts after) (acts : before.ActsAs key user) :
    after.ActsAs key user := by
  intro session found
  have same := kept.acting key
  rw [found, Option.map_some] at same
  obtain ⟨old, stored, sameUser⟩ := Option.map_eq_some_iff.mp same.symm
  rw [← sameUser]
  exact acts old stored

theorem KeepsAccounts.hasNoAdmin (kept : before.KeepsAccounts after) (plain : before.HasNoAdmin user) :
    after.HasNoAdmin user := by
  intro row found
  rw [user?, kept.users] at found
  exact plain row found

theorem user?_some {tables : Tables} {row : User} (found : tables.user? user = some row) : row.id = user :=
  (find?_key_some User.id found).2

end Store.Tables

/-- As it is while nothing has been done yet: the jobs are those of the start. -/
structure Job.Scope.IsFresh (scope : Job.Scope) (now : Recorded Shared) : Prop extends scope.IsConfined now where
  jobs : now.state.tables.jobs = scope.start.jobs

namespace Session

variable {scope : Job.Scope} {now next : Recorded Shared} {key : String}

theorem fresh_aside {request : Request} {reply : request.Reply} (fresh : scope.IsFresh now)
    (answered : scope.Records now request reply next) (bystands : request.isBystander = true) : scope.IsFresh next :=
  ⟨fresh.toIsConfined.aside answered bystands, (answered.1.resembles bystands).jobs.trans fresh.jobs⟩

/-- What a call tells, if it tells anything. -/
theorem told_of_records {call : Store.Call} {answer : call.Answer}
    (answered : scope.Records now (.store call) (.ok answer) next) :
    (now.state.tables.answer call).1 = .ok answer := by
  rcases Shared.serves_store answered.1.serves with ⟨told, _⟩ | ⟨⟨fault, told⟩, _⟩
  · exact told.symm
  · cases told

/-- A command between its start and its end in the history. -/
theorem ensures_command {α : Type} (gives : α → Recorded Shared → Prop) {command : Service α}
    (kept : ∀ {value : α} {state next : Recorded Shared} {request : Request} {reply : request.Reply},
      request.isOfSession = true → scope.Records state request reply next → gives value state → gives value next)
    (confines : ∀ state, scope.IsConfined state → Ensures scope.Records
      (fun value last => gives value last ∧ scope.IsConfined last) (fun _ last => scope.IsConfined last) command state)
    (description : String) (category : History.Category) (object : α → Option String)
    (confined : scope.IsConfined now) :
    Ensures scope.Records (fun value last => gives value last ∧ scope.IsConfined last)
      (fun _ last => scope.IsConfined last) (within key description category object command) now := by
  have aside {state next : Recorded Shared} {request : Request} {reply : request.Reply}
      (member : request.isOfSession = true) (answered : scope.Records state request reply next)
      (confined : scope.IsConfined state) : scope.IsConfined next :=
    confined.aside answered (Request.isBystander_of (.inl member))
  exact ensures_within_giving scope.IsConfined scope.IsConfined aside aside
    (fun member answered before => ⟨kept member answered before.1, aside member answered before.2⟩)
    (fun _ before => before) (fun _ _ known => known.2) confines key description category object confined

section Gate

variable (acts : scope.start.ActsAs key scope.user) (plain : scope.start.HasNoAdmin scope.user)
include acts plain

/-- Whoever passes the gate is the user, and no admin. -/
theorem ensures_authorize (fresh : scope.IsFresh now) :
    Ensures scope.Records
      (fun caller last => (caller.user.id = scope.user ∧ caller.isAdmin = false) ∧ scope.IsFresh last)
      (fun _ last => scope.IsConfined last) (authorize key) now := by
  have loaded : Ensures scope.Records (fun session last => session.user = scope.user ∧ scope.IsFresh last)
      (fun _ last => scope.IsConfined last) (load key) now := by
    unfold load
    rw [ensures_bind, Service.ensures_store]
    refine ⟨fun found next answered => ?_, fun _ _ answered => (fresh_aside fresh answered rfl).toIsConfined⟩
    have still := fresh_aside fresh answered rfl
    cases found with
    | none => exact (ensures_throw _).mpr still.toIsConfined
    | some session =>
      have stored : now.state.tables.session? key = some session := Except.ok.inj (told_of_records answered)
      exact (ensures_pure session).mpr ⟨fresh.spares.actsAs acts session stored, still⟩
  unfold authorize
  apply loaded.bind
  intro session middle known
  refine ensures_guard.mpr ⟨fun _ => known.2.toIsConfined, fun _ => ?_⟩
  rw [ensures_bind, Service.ensures_store]
  refine ⟨fun found next answered => ?_, fun _ _ answered => (fresh_aside known.2 answered rfl).toIsConfined⟩
  have still := fresh_aside known.2 answered rfl
  cases found with
  | none => exact (ensures_throw _).mpr still.toIsConfined
  | some user =>
    have stored : middle.state.tables.user? scope.user = some user := by
      rw [← known.1]
      exact Except.ok.inj (told_of_records answered)
    have noAdmin := known.2.spares.hasNoAdmin plain user stored
    rw [ensures_bind, Service.ensures_ofExcept]
    exact ⟨fun _ _ => (ensures_pure _).mpr ⟨⟨Store.Tables.user?_some stored, noAdmin⟩, still⟩,
      fun _ _ => still.toIsConfined⟩

/-- What has to be done by an admin is not done. -/
theorem ensures_asAdmin {α : Type} (fresh : scope.IsFresh now) (purpose description : String) (object : α → String)
    (change : Service α) :
    Ensures scope.Records (fun _ _ => False) (fun _ last => scope.IsConfined last)
      (AuthSystem.asAdmin key purpose description object change) now := by
  unfold AuthSystem.asAdmin
  apply (ensures_authorize acts plain fresh).bind
  intro caller middle known
  rw [ensures_bind, Service.ensures_ofExcept, Caller.requireAdmin, known.1.2]
  exact ⟨nofun, fun _ _ => known.2.toIsConfined⟩

/-- What has to be done by the owner of a job is done by the owner, and to the job as it is stored. -/
theorem ensures_asOwner {α : Type} {rest : Caller → Job → Service α} {gives : α → Recorded Shared → Prop}
    (fresh : scope.IsFresh now) (id purpose : String)
    (served : ∀ caller job middle, job ∈ scope.start.jobsOf scope.user → job.id = id → scope.IsConfined middle →
      Ensures scope.Records gives (fun _ last => scope.IsConfined last) (rest caller job) middle) :
    Ensures scope.Records gives (fun _ last => scope.IsConfined last)
      (do
        let caller ← authorize key
        let job ← Job.load id
        Service.ofExcept (Job.requireOwner caller job purpose)
        rest caller job) now := by
  apply (ensures_authorize acts plain fresh).bind
  intro caller passed known
  have loaded : Ensures scope.Records
      (fun job last => (job ∈ scope.start.jobs ∧ job.id = id) ∧ scope.IsConfined last)
      (fun _ last => scope.IsConfined last) (Job.load id) passed := by
    unfold Job.load
    rw [ensures_bind, Service.ensures_store]
    refine ⟨fun found next answered => ?_, fun _ _ answered => (fresh_aside known.2 answered rfl).toIsConfined⟩
    have still := (fresh_aside known.2 answered rfl).toIsConfined
    cases found with
    | none => exact (ensures_throw _).mpr still
    | some job =>
      have stored : passed.state.tables.job? id = some job := Except.ok.inj (told_of_records answered)
      have row := Store.Tables.job?_some stored
      rw [known.2.jobs] at row
      exact (ensures_pure job).mpr ⟨row, still⟩
  apply loaded.bind
  intro job middle row
  rw [ensures_bind, Service.ensures_ofExcept]
  refine ⟨fun _ allowed => ?_, fun _ _ => row.2⟩
  have owner : job.owner = scope.user := by
    rw [Job.requireOwner, known.1.1, known.1.2] at allowed
    simpa using allowed
  exact served caller job middle (Store.Tables.mem_jobsOf.mpr ⟨row.1.1, owner⟩) row.1.2 row.2

theorem ensures_cancel (fresh : scope.IsFresh now) (id : String) :
    Ensures scope.Records
      (fun _ last => (∃ job ∈ scope.start.jobsOf scope.user, job.id = id) ∧ scope.IsConfined last)
      (fun _ last => scope.IsConfined last) (Job.cancel key id) now := by
  unfold Job.cancel
  apply ensures_asOwner acts plain fresh id "cancel"
  intro caller job middle own same confined
  split
  next => exact (ensures_pure ()).mpr ⟨⟨job, own, same⟩, confined⟩
  next =>
    refine ensures_command (fun _ _ => ∃ job ∈ scope.start.jobsOf scope.user, job.id = id) (fun _ _ known => known)
      (fun state before => ?_) _ _ _ confined
    exact (Job.preserves_cancelling own state before).mono (fun _ _ still => ⟨⟨job, own, same⟩, still⟩)
      fun _ _ still => still

theorem ensures_startTime (fresh : scope.IsFresh now) (id : String) :
    Ensures scope.Records
      (fun _ last => (∃ job ∈ scope.start.jobsOf scope.user, job.id = id) ∧ scope.IsConfined last)
      (fun _ last => scope.IsConfined last) (Job.startTime key id) now := by
  unfold Job.startTime
  apply ensures_asOwner acts plain fresh id "inspect"
  intro caller job middle own same confined
  split
  next => exact (ensures_pure _).mpr ⟨⟨job, own, same⟩, confined⟩
  next => exact (ensures_pure _).mpr ⟨⟨job, own, same⟩, confined⟩
  next handle _ _ =>
    apply (Job.ensures_placeOf job confined).bind
    intro place placed known
    rw [Service.ensures_backend]
    refine (known.2.ensures (place.asks_startTime handle) fun _ member =>
      Request.isBystander_of (.inr (.inr (.inr member)))).mono (fun _ _ later => ?_) fun _ _ still => still
    exact ⟨⟨job, own, same⟩, later.2⟩

theorem ensures_output (fresh : scope.IsFresh now) (id : String) :
    Ensures scope.Records
      (fun output last => (output.job = id ∧ ∃ job ∈ scope.start.jobsOf scope.user, job.id = id) ∧
        scope.IsConfined last)
      (fun _ last => scope.IsConfined last) (Job.output key id) now := by
  unfold Job.output
  apply ensures_asOwner acts plain fresh id _
  intro caller job middle own same confined
  refine ensures_command
    (fun (output : Job.Output) _ => output.job = id ∧ ∃ job ∈ scope.start.jobsOf scope.user, job.id = id)
    (fun _ _ known => known) (fun state before => ?_) _ _ _ confined
  exact (Job.ensures_retrieving own before).mono
    (fun output _ known => ⟨⟨known.1.trans same, job, own, same⟩, known.2⟩) fun _ _ still => still

theorem ensures_outputs (fresh : scope.IsFresh now) :
    Ensures scope.Records
      (fun outputs last => (∀ output ∈ outputs, ∃ job ∈ scope.start.jobsOf scope.user, job.id = output.job) ∧
        scope.IsConfined last)
      (fun _ last => scope.IsConfined last) (Job.outputs key) now := by
  unfold Job.outputs
  apply (ensures_authorize acts plain fresh).bind
  intro caller passed known
  have started : Ensures scope.Records (fun _ last => True ∧ scope.IsFresh last)
      (fun _ last => scope.IsConfined last) (startCommand key Job.outputsCommand .files) passed :=
    (Yields.ensures (asks_startCommand _ _ _) scope.IsFresh
      (fun member answered before => fresh_aside before answered (Request.isBystander_of (.inl member)))
      known.2).mono (fun _ _ noted => noted) fun _ _ still => still.toIsConfined
  apply started.bind
  intro _ noted later
  rw [ensures_bind, Service.ensures_store]
  refine ⟨fun jobs next answered => ?_, fun _ _ answered => (fresh_aside later.2 answered rfl).toIsConfined⟩
  have listed : jobs = scope.start.jobsOf scope.user := by
    have told : noted.state.tables.jobsOf caller.user.id = jobs := Except.ok.inj (told_of_records answered)
    rw [← told, known.1.1, Store.Tables.jobsOf, later.2.jobs]
    rfl
  have own : ∀ job ∈ jobs.filter Job.hasFiles, job ∈ scope.start.jobsOf scope.user := by
    rw [listed]
    exact fun job member => (List.mem_filter.mp member).1
  have still := (fresh_aside later.2 answered rfl).toIsConfined
  apply (Job.ensures_retrievingAll own still).bind
  intro outputs fetched found
  rw [ensures_bind]
  refine (found.2.ensures (asks_record _ _ _ _ _) fun _ member => Request.isBystander_of (.inl member)).mono
    (fun _ last still => (ensures_pure _).mpr ⟨fun output member => ?_, still.2⟩) fun _ _ still => still
  obtain ⟨job, chosen, same⟩ := found.1 output member
  exact ⟨job, own job chosen, same⟩

theorem ensures_list (fresh : scope.IsFresh now) :
    Ensures scope.Records
      (fun jobs last => Job.IsListing scope.start scope.user jobs ∧ scope.IsConfined last)
      (fun _ last => scope.IsConfined last) (Job.list key) now := by
  unfold Job.list
  apply (ensures_authorize acts plain fresh).bind
  intro caller passed known
  rw [ensures_bind, Service.ensures_store]
  refine ⟨fun jobs next answered => ?_, fun _ _ answered => (fresh_aside known.2 answered rfl).toIsConfined⟩
  have told : passed.state.tables.jobsOf caller.user.id = jobs := Except.ok.inj (told_of_records answered)
  have listed : jobs = scope.start.jobsOf scope.user := by
    rw [← told, known.1.1, Store.Tables.jobsOf, known.2.jobs]
    rfl
  have distinct : scope.start.HasDistinctJobs := by
    rw [Store.Tables.HasDistinctJobs, ← known.2.jobs]
    exact known.2.spares.distinct
  rw [listed]
  have still := (fresh_aside known.2 answered rfl).toIsConfined
  exact (ensures_pure _).mpr ⟨Job.isListing_mergeSort distinct scope.user, still⟩

theorem ensures_submit (fresh : scope.IsFresh now) (submitting : scope.isSubmitting = true) (mint : Identifier.Mint)
    (machine script : String) (options : Job.Options) :
    Ensures scope.Records
      (fun job last => job ∈ last.state.tables.jobsOf scope.user ∧ scope.IsConfined last)
      (fun _ last => scope.IsConfined last) (Job.submit mint key machine script options) now := by
  unfold Job.submit
  apply (ensures_authorize acts plain fresh).bind
  intro caller passed known
  refine ensures_command (fun job last => job ∈ last.state.tables.jobsOf scope.user)
    (fun member answered stored => ?_)
    (fun state before => Job.ensures_submitFor submitting mint known.1.1 machine script options before) _ _ _
    known.2.toIsConfined
  have same := (answered.1.resembles (Request.isBystander_of (.inl member))).jobs
  rw [Store.Tables.mem_jobsOf, same]
  exact Store.Tables.mem_jobsOf.mp stored

end Gate

/-- Listing authentication systems looks and notes. -/
theorem asks_listAuthSystems (key : String) (wanted : Option String) (includeDeleted : Bool) :
    Asks Request.isBystander (AuthSystem.list key wanted includeDeleted) := by
  have gate : Asks Request.isBystander (authorize key) :=
    (asks_authorize key).mono fun _ member => Request.isBystander_of (.inl member)
  have noted (session : String) :
      Asks Request.isBystander (record session "auth_system_list" .users .success none) :=
    (asks_record _ _ _ _ _).mono fun _ member => Request.isBystander_of (.inl member)
  unfold AuthSystem.list
  apply gate.bind
  intro caller
  extract_lets answers shows
  have answered (systems : List AuthSystem) : Asks Request.isBystander (answers systems) :=
    (noted _).bind fun _ => yields_pure trivial
  have shown : Asks Request.isBystander (shows ()) := by
    apply (Service.asks_store rfl).bind
    intro stored
    cases wanted with
    | none => exact answered _
    | some id => exact yields_guard fun _ => answered _
  cases includeDeleted with
  | true => exact (Service.asks_ofExcept _).bind fun _ => shown
  | false => exact shown

theorem asks_queues (key machine : String) (wanted : Option String) :
    Asks Request.isBystander (Job.queues key machine wanted) := by
  have gate : Asks Request.isBystander (authorize key) :=
    (asks_authorize key).mono fun _ member => Request.isBystander_of (.inl member)
  have found (user : String) : Asks Request.isBystander (Job.placeFor machine user "") :=
    (Job.asks_placeFor _ _ _).mono fun _ member => Request.isBystander_of (.inr (.inr (.inl member)))
  unfold Job.queues
  exact gate.bind fun caller => (found _).bind fun place => Service.asks_backend
    ((place.2.asks_queues wanted).mono fun _ member => Request.isBystander_of (.inr (.inr (.inr member))))

namespace Operation

def isSubmission : Operation → Bool
  | submit .. => true
  | _ => false

/-- Whose an answer is, by the tables before the operation and after it: a job that has been submitted is stored as the
user's, what is said of a stored job is said of one of the user's, and a list of jobs is complete. Only admins change
authentication systems. -/
def IsAnswerFor (user : String) (before after : Store.Tables) : (operation : Operation) → operation.Answer → Prop
  | submit .., job => job ∈ after.jobsOf user
  | cancel id, _ | startTime id, _ => ∃ job ∈ before.jobsOf user, job.id = id
  | list, jobs => Job.IsListing before user jobs
  | output id, copies => copies.job = id ∧ ∃ job ∈ before.jobsOf user, job.id = id
  | outputs, found => ∀ copies ∈ found, ∃ job ∈ before.jobsOf user, job.id = copies.job
  | addAuthSystem .., _ | updateAuthSystem .., _ | deleteAuthSystem _, _ => False
  | startCommand .., _ | finishCommand .., _ | queues .., _ | listAuthSystems .., _ => True

/-- Each operation is confined to the user that the key acts as. -/
theorem ensures_service (operation : Operation) (acts : scope.start.ActsAs key scope.user)
    (plain : scope.start.HasNoAdmin scope.user) (same : scope.isSubmitting = operation.isSubmission)
    (fresh : scope.IsFresh now) :
    Ensures scope.Records
      (fun answer last => operation.IsAnswerFor scope.user scope.start last.state.tables answer ∧
        scope.IsConfined last)
      (fun _ last => scope.IsConfined last) (operation.service key) now := by
  have aside {α : Type} {service : Service α} {allowed : Request → Bool} (asks : Asks allowed service)
      (included : ∀ request, allowed request = true → request.isBystander = true) :
      Ensures scope.Records (fun _ last => True ∧ scope.IsConfined last) (fun _ last => scope.IsConfined last)
        service now := fresh.toIsConfined.ensures asks included
  have refused {α : Type} {purpose description : String} {object : α → String} {change : Service α} :
      Ensures scope.Records (fun _ last => False ∧ scope.IsConfined last) (fun _ last => scope.IsConfined last)
        (AuthSystem.asAdmin key purpose description object change) now :=
    (ensures_asAdmin acts plain fresh _ _ _ _).mono (fun _ _ never => never.elim) fun _ _ still => still
  have ofSession (request : Request) (member : request.isOfSession = true) : request.isBystander = true :=
    Request.isBystander_of (.inl member)
  cases operation with
  | startCommand description category => exact aside (asks_startCommand key description category) ofSession
  | finishCommand description category status object =>
    exact aside ((asks_check key).bind fun _ => asks_record key description category status object) ofSession
  | submit mint machine script options => exact ensures_submit acts plain fresh same mint machine script options
  | cancel id => exact ensures_cancel acts plain fresh id
  | startTime id => exact ensures_startTime acts plain fresh id
  | queues machine wanted => exact aside (asks_queues key machine wanted) fun _ bystands => bystands
  | list => exact ensures_list acts plain fresh
  | output id => exact ensures_output acts plain fresh id
  | outputs => exact ensures_outputs acts plain fresh
  | addAuthSystem | updateAuthSystem | deleteAuthSystem => exact refused
  | listAuthSystems wanted includeDeleted =>
    exact aside (asks_listAuthSystems key wanted includeDeleted) fun _ bystands => bystands

end Operation

/-- One operation of a sequence: with which key it was done and on what, what came of it, and all that happened. -/
structure Turn where
  key : String
  operation : Operation
  before : Shared
  result : Except Failure operation.Answer
  after : Recorded Shared

/-- Operations one after the other, each from where the one before it ended. -/
inductive Takes (setting : Setting Shared) : Shared → List Turn → Shared → Prop
  | nil (shared : Shared) : Takes setting shared [] shared
  | cons {turn : Turn} {rest : List Turn} {last : Shared}
      (taken : Finishes setting.recorded (turn.operation.service turn.key) { state := turn.before } turn.result
        turn.after)
      (later : Takes setting turn.after.state rest last) : Takes setting turn.before (turn :: rest) last

/-- What is to be so of each operation that is done for a user: what was done to jobs at their places was done for the
user, and the answer is the user's. -/
structure Turn.IsConfined (turn : Turn) (machines : String → Option Machine) (user : String) : Prop where
  touches : ∀ moment ∈ turn.after.trace, moment.request.isIntervention = true →
    Job.Scope.IsDoneFor ⟨machines, user, turn.before.tables, turn.operation.isSubmission⟩ turn.after.trace
      moment.request
  answers : ∀ answer, turn.result = .ok answer →
    turn.operation.IsAnswerFor user turn.before.tables turn.after.state.tables answer

theorem Turn.confined {machines : String → Option Machine} {user : String} {turn : Turn}
    (distinct : turn.before.tables.HasDistinctJobs) (plain : turn.before.tables.HasNoAdmin user)
    (acts : turn.before.tables.ActsAs turn.key user)
    (taken : Finishes (Shared.ServesFor machines).recorded (turn.operation.service turn.key)
      { state := turn.before } turn.result turn.after) :
    turn.before.tables.Spares user turn.after.state.tables ∧ turn.IsConfined machines user := by
  let scope : Job.Scope := ⟨machines, user, turn.before.tables, turn.operation.isSubmission⟩
  have fresh : scope.IsFresh { state := turn.before } :=
    ⟨⟨Store.Tables.spares_refl distinct, fun _ member => nomatch member⟩, rfl⟩
  have known := turn.operation.ensures_service acts plain rfl fresh turn.result turn.after taken
  cases came : turn.result with
  | ok answer =>
    rw [came] at known
    refine ⟨known.2.spares, known.2.doneFor, fun other same => ?_⟩
    obtain rfl : answer = other := Except.ok.inj (came.symm.trans same)
    exact known.1
  | error cause =>
    rw [came] at known
    refine ⟨known.spares, known.doneFor, fun other same => ?_⟩
    cases came.symm.trans same

theorem Takes.spares {machines : String → Option Machine} {user : String} {start last : Shared} {turns : List Turn}
    (taken : Takes (Shared.ServesFor machines) start turns last) (distinct : start.tables.HasDistinctJobs)
    (plain : start.tables.HasNoAdmin user) (acts : ∀ turn ∈ turns, start.tables.ActsAs turn.key user) :
    start.tables.Spares user last.tables ∧ ∀ turn ∈ turns, turn.IsConfined machines user := by
  induction taken with
  | nil shared => exact ⟨Store.Tables.spares_refl distinct, fun _ member => nomatch member⟩
  | @cons turn rest last taken later ih =>
    obtain ⟨spares, confined⟩ := Turn.confined distinct plain (acts turn List.mem_cons_self) taken
    obtain ⟨still, others⟩ := ih spares.distinct (spares.hasNoAdmin plain) fun other member =>
      spares.actsAs (acts other (List.mem_cons_of_mem turn member))
    refine ⟨spares.trans still, fun other member => ?_⟩
    rcases List.mem_cons.mp member with rfl | present
    · exact confined
    · exact others other present

/-- Whoever passes the gate gets a list, unless the store fails. -/
theorem reads_list (shared : Shared) (key : String) :
    Reads Shared.Answers (Job.list key) shared ((shared.tables.admitted key).map fun caller =>
      (shared.tables.jobsOf caller.user.id).mergeSort Job.isListedBefore) := by
  have gate : Reads Shared.Answers (authorize key) shared _ := reads_authorize key
  unfold Job.list
  cases passed : shared.tables.admitted key with
  | error cause =>
    rw [passed] at gate
    exact gate.bind_error _
  | ok caller =>
    rw [passed] at gate
    exact gate.bind ((Service.reads_store (.jobsOf caller.user.id) fun _ _ =>
      Shared.answers_iff_of_told rfl).bind (reads_pure _))

/-- Whatever operations follow one another with keys that act as a user who is no admin, and whatever the outside
replies and the store fails at: the jobs of all others, the authentication systems and the authentication accounts are
the same at the end; all that is done to jobs at their places is done to jobs of the user, or to take a new one there;
all that is answered is the user's; and in the end too a list is to be had, of all jobs of the user and no others, each
of them once and in order. -/
theorem users_stand_apart {machines : String → Option Machine} {user : String} {start last : Shared}
    {turns : List Turn} (distinct : start.tables.HasDistinctJobs) (plain : start.tables.HasNoAdmin user)
    (acts : ∀ turn ∈ turns, start.tables.ActsAs turn.key user)
    (taken : Takes (Shared.ServesFor machines) start turns last) :
    last.tables.jobsOfOthers user = start.tables.jobsOfOthers user ∧
    last.tables.authSystems = start.tables.authSystems ∧ last.tables.authAccounts = start.tables.authAccounts ∧
    (∀ turn ∈ turns, turn.IsConfined machines user) ∧
    ∀ key caller, last.tables.admitted key = .ok caller → caller.user.id = user →
      ∃ jobs, Job.IsListing last.tables user jobs ∧ Reads Shared.Answers (Job.list key) last (.ok jobs) := by
  obtain ⟨spares, confined⟩ := taken.spares distinct plain acts
  refine ⟨spares.others, spares.authSystems, spares.authAccounts, confined, fun key caller passed same => ?_⟩
  have listed := reads_list last key
  rw [passed, Except.map, same] at listed
  exact ⟨_, Job.isListing_mergeSort spares.distinct user, listed⟩

/-- Operations one after the other on a server whose store does not fail, with an outside that always says the same. -/
def play (outside : (request : Request) → request.Reply) : List (String × Operation) → Shared →
    Option (List Turn × Shared)
  | [], shared => some ([], shared)
  | (key, operation) :: rest, shared => do
    let (result, after) ← (operation.service key).run.follow (Pool.Responder.recorded (Shared.respond outside))
      { state := shared }
    let (turns, last) ← play outside rest after.state
    return ({ key, operation, before := shared, result, after } :: turns, last)

theorem takes_play {outside : (request : Request) → request.Reply} {machines : String → Option Machine}
    (known : ∀ id, outside (.machine id) = machines id) {calls : List (String × Operation)} {start last : Shared}
    {turns : List Turn} (played : play outside calls start = some (turns, last)) :
    Takes (Shared.ServesFor machines) start turns last ∧ turns.map Turn.key = calls.map Prod.fst := by
  have serves {request : Request} {now next : Recorded Shared} {reply : request.Reply}
      (replied : Pool.Responder.recorded (Shared.respond outside) request now = some (reply, next)) :
      (Shared.ServesFor machines).recorded now request reply next :=
    Pool.Responder.answers_recorded (fun answered => .inl (Job.answersFor_respond known answered)) replied
  induction calls generalizing start turns last with
  | nil =>
    cases played
    exact ⟨.nil start, rfl⟩
  | cons call rest ih =>
    obtain ⟨⟨result, after⟩, ran, later⟩ := Option.bind_eq_some_iff.mp played
    obtain ⟨⟨others, final⟩, playedRest, same⟩ := Option.bind_eq_some_iff.mp later
    cases same
    obtain ⟨taken, keys⟩ := ih playedRest
    let turn : Turn := { key := call.1, operation := call.2, before := start, result, after }
    have finished : Finishes (Shared.ServesFor machines).recorded (turn.operation.service turn.key)
        { state := turn.before } turn.result turn.after := ends_follow serves ran
    exact ⟨.cons finished taken, congrArg (call.1 :: ·) keys⟩

/-- Two users with jobs on one cluster, and a session of one of them. -/
def sampleNeighbours : Shared :=
  { tables := {
      users := [{ id := "alice", passwordHash := "" }, { id := "bob", passwordHash := "" }]
      sessions := [{ (default : Session) with key := "key", id := "s", user := "alice" }]
      jobs := [
        { (default : Job) with
          id := "J_1", owner := "alice", machine := "cluster", handle := some "1", status := .completed,
          outputPath := some "1.out", errorPath := some "1.err" },
        { (default : Job) with
          id := "J_2", owner := "bob", machine := "cluster", handle := some "2", status := .running },
        { (default : Job) with
          id := "J_3", owner := "alice", machine := "cluster", handle := some "3", status := .running }] } }

/-- Alice cancels a job of Bob's in vain, and one of her own; she fetches one and submits another. -/
def samplePlay : Option (List Turn × Shared) :=
  play (Shared.outsideOf Job.sampleCluster "7.1")
    [("key", .cancel "J_2"), ("key", .cancel "J_3"), ("key", .output "J_1"), ("key", .submit {} "cluster" "job.sh" {}),
      ("key", .list)] sampleNeighbours

theorem sampleNeighbours_stand_apart : ∃ turns last, samplePlay = some (turns, last) ∧
    turns.map (fun turn => timesAsked Request.isIntervention turn.after.trace) = [0, 1, 2, 1, 0] ∧
    last.tables.jobs.map Job.status = [.downloaded, .submitted, .running, .cancelled] ∧
    last.tables.jobsOfOthers "alice" = sampleNeighbours.tables.jobsOfOthers "alice" ∧
    (∀ turn ∈ turns, turn.IsConfined (fun _ => some Job.sampleCluster) "alice") ∧
    ∃ jobs, Job.IsListing last.tables "alice" jobs ∧ Reads Shared.Answers (Job.list "key") last (.ok jobs) := by
  have facts : samplePlay.map (fun (turns, last) =>
      (turns.map fun (turn : Turn) => timesAsked Request.isIntervention turn.after.trace,
        last.tables.jobs.map Job.status,
        (last.tables.admitted "key").toOption.map fun caller => caller.user.id)) =
      some ([0, 1, 2, 1, 0], [.downloaded, .submitted, .running, .cancelled], some "alice") := by decide +kernel
  obtain ⟨⟨turns, last⟩, played, same⟩ := Option.map_eq_some_iff.mp facts
  obtain ⟨counted, rest⟩ := Prod.mk.inj same
  obtain ⟨statuses, passes⟩ := Prod.mk.inj rest
  have known (id : String) : Shared.outsideOf Job.sampleCluster "7.1" (.machine id) = some Job.sampleCluster := rfl
  obtain ⟨taken, keys⟩ := takes_play known played
  have distinct : sampleNeighbours.tables.HasDistinctJobs := by
    unfold Store.Tables.HasDistinctJobs
    decide
  have plain : sampleNeighbours.tables.HasNoAdmin "alice" := by
    intro row found
    cases found
    rfl
  have acts : ∀ turn ∈ turns, sampleNeighbours.tables.ActsAs turn.key "alice" := by
    intro turn member session found
    have key : turn.key ∈ turns.map Turn.key := List.mem_map_of_mem member
    rw [keys] at key
    have same : turn.key = "key" := by simpa using key
    rw [same] at found
    cases found
    rfl
  obtain ⟨others, _, _, confined, lists⟩ := users_stand_apart distinct plain acts taken
  refine ⟨turns, last, played, counted, statuses, others, confined, ?_⟩
  cases admitted : last.tables.admitted "key" with
  | error cause =>
    rw [admitted] at passes
    cases passes
  | ok caller =>
    rw [admitted] at passes
    exact lists "key" caller admitted (Option.some.inj passes)

end Session

end Dispatch
