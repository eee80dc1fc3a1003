import Dispatch.Job.Retrieval
import Dispatch.Job.Submission
import Dispatch.Job.Tracking
import Dispatch.Proofs.Backend.Footprint
import Dispatch.Proofs.Job.Life
import Dispatch.Proofs.Server.Footprint
import Dispatch.Proofs.Server.Shared
/-!
The life of jobs under all services at once. Every service keeps one rule: it inserts sound jobs only, and it
says that a job has been downloaded only after it has seen that job completed. However the services interleave,
what a service has seen of a job stays true up to moves that its life allows, so no stored job leaves its path.
-/
namespace Dispatch

open Plan

namespace Job

/-- A call of one of the services that work on jobs. -/
inductive Call
  | submit (mint : Identifier.Mint) (key machine script : String) (options : Options)
  | cancel (key id : String)
  | refresh (id : String)
  | monitor
  | output (key id : String)
  | outputs (key : String)

/-- What a call does. What it answers is for its caller alone. -/
def Call.plan : Call → Plan Unit
  | submit mint key machine script options => do
    let _ ← (Job.submit mint key machine script options).run
  | cancel key id => do
    let _ ← (Job.cancel key id).run
  | refresh id => do
    let _ ← (Job.refresh id).run
  | monitor => do
    let _ ← Job.monitor.run
  | output key id => do
    let _ ← (Job.output key id).run
  | outputs key => do
    let _ ← (Job.outputs key).run

/-- What a service may do to jobs, given those that it has seen. -/
def lifecycle : Protocol (List Job) where
  permits
    | _, .store (.updateJob _) => False
    | _, .store (.insertJob job) => job.IsSound ∧ job.status ≠ .downloaded
    | seen, .store (.transitionJob id next _) =>
      next = .downloaded → ∃ job ∈ seen, job.id = id ∧ job.status = .completed
    | _, _ => True
  learn
    | seen, .store (.findJob _), .ok found => found.toList ++ seen
    | seen, .store (.jobsOf _), .ok jobs => jobs ++ seen
    | seen, .store .unfinishedJobs, .ok jobs => jobs ++ seen
    | seen, _, _ => seen

theorem lifecycle_ignores {allowed : Request → Bool} (seen : List Job)
    (other : ∀ request, allowed request = true → request.isOfJobs = false) :
    lifecycle.Ignores seen allowed := by
  intro request member
  have apart := other request member
  cases request with
  | store call =>
    cases call with
    | insertJob | findJob | updateJob | transitionJob | jobsOf | unfinishedJobs => cases apart
    | _ => exact ⟨trivial, fun _ => rfl⟩
  | _ => exact ⟨trivial, fun _ => rfl⟩

theorem lifecycle_ignores_outward (seen : List Job) : lifecycle.Ignores seen Request.isOutward :=
  lifecycle_ignores seen fun _ member => Request.isOfJobs_eq_false (.inl member)

theorem lifecycle_ignores_place (seen : List Job) : lifecycle.Ignores seen Request.isOfPlace :=
  lifecycle_ignores seen fun _ member => Request.isOfJobs_eq_false (.inr (.inl member))

theorem lifecycle_ignores_session (seen : List Job) : lifecycle.Ignores seen Request.isOfSession :=
  lifecycle_ignores seen fun _ member => Request.isOfJobs_eq_false (.inr (.inr (.inl member)))

theorem lifecycle_ignores_mint (seen : List Job) : lifecycle.Ignores seen Request.isOfMint :=
  lifecycle_ignores seen fun _ member => Request.isOfJobs_eq_false (.inr (.inr (.inr (.inl member))))

theorem lifecycle_ignores_staging (seen : List Job) : lifecycle.Ignores seen Request.isOfStaging :=
  lifecycle_ignores seen fun _ member => Request.isOfJobs_eq_false (.inr (.inr (.inr (.inr member))))

/-- Keeping the rule, with nothing said about the result. -/
abbrev LivesOn (service : Service α) (seen : List Job) : Prop :=
  Tries lifecycle (fun _ _ => True) (fun _ _ => True) service seen

/-- What is of no concern to jobs, and then the rest. -/
theorem LivesOn.after {allowed : Request → Bool} {expected : α → Prop} {task : Service α} {rest : α → Service β}
    {seen : List Job} (yields : Yields allowed expected task) (ignored : lifecycle.Ignores seen allowed)
    (next : ∀ value, expected value → LivesOn (rest value) seen) : LivesOn (task >>= rest) seen :=
  yields.andThen ignored (fun _ => trivial) next

theorem livesOn_load (id : String) (seen : List Job) :
    Tries lifecycle (fun job later => later = job :: seen) (fun _ _ => True) (load id) seen := by
  unfold load
  rw [tries_bind, Service.tries_store]
  refine ⟨trivial, fun found _ => ?_, fun _ _ => trivial⟩
  cases found with
  | some job => rfl
  | none => trivial

theorem isSound_reject (job : Job) (failure : Failure) (instant : Instant) :
    (job.reject failure instant).IsSound :=
  ⟨rfl, fun unfinished => nomatch unfinished⟩

/-- A job that has not finished is sound as soon as its place has taken it. -/
theorem isSound_accept {job : Job} {submitted : Submitted} (unfinished : job.finishedAt = none)
    (expected : submitted.status = .submitted) : (job.accept submitted).IsSound := by
  refine ⟨?_, fun _ => rfl⟩
  simp [accept, unfinished, expected, Status.isTerminal]

theorem livesOn_recordSubmission {job : Job} (unfinished : job.finishedAt = none)
    {result : Except Failure Submitted} (expected : ∀ submitted, result = .ok submitted →
      submitted.status = .submitted) (seen : List Job) : LivesOn (recordSubmission job result) seen := by
  cases result with
  | ok submitted =>
    have status := expected submitted rfl
    refine (tries_bind _ _).mpr ((Service.tries_store _).mpr ⟨⟨isSound_accept unfinished status, ?_⟩, ?_, ?_⟩)
    · simp [accept, status]
    · exact fun _ _ => trivial
    · exact fun _ _ => trivial
  | error failure =>
    refine (tries_bind _ _).mpr ((Service.tries_ask _).mpr ⟨trivial, fun now _ => ?_⟩)
    refine (tries_bind _ _).mpr ((Service.tries_store _).mpr ⟨⟨isSound_reject job failure now, ?_⟩, ?_, ?_⟩)
    · simp [reject]
    · exact fun _ _ => trivial
    · exact fun _ _ => trivial

/-- The home is looked up only where the options leave the working directory open. -/
theorem asks_home (options : Options) (machine user : String) :
    Asks Request.isOfPlace (if options.workingDir.isNone = true then homeOn machine user else pure none) := by
  split
  next => exact (Service.asks_store rfl).bind fun _ => yields_pure trivial
  next => exact yields_pure trivial

theorem livesOn_submit (mint : Identifier.Mint) (key machine script : String) (options : Options)
    (seen : List Job) : LivesOn (submit mint key machine script options) seen := by
  unfold submit
  refine LivesOn.after (Session.asks_authorize key) (lifecycle_ignores_session seen) fun caller _ => ?_
  refine Session.tries_within lifecycle_ignores_session key _ _ _ ?_ fun _ _ => trivial
  unfold submitFor
  refine LivesOn.after (asks_placeFor _ _ _) (lifecycle_ignores_place seen) fun found _ => ?_
  refine LivesOn.after (mint.asks_next _ _ _) (lifecycle_ignores_mint seen) fun id _ => ?_
  have home := asks_home options machine caller.user.id
  refine tries_choice.mpr (LivesOn.after home (lifecycle_ignores_place seen) fun home _ => ?_)
  rw [LivesOn, tries_bind, Service.tries_ask]
  refine ⟨trivial, fun submittedAt _ => ?_⟩
  rw [tries_bind, Service.tries_attempt, Service.tries_backend]
  refine (found.2.yields_submit script _).tries (lifecycle_ignores_outward seen) (fun submitted expected => ?_)
    fun fault => ?_
  · exact livesOn_recordSubmission rfl (fun _ same => by cases same; exact expected) seen
  · exact livesOn_recordSubmission rfl (fun _ same => by cases same) seen

theorem asks_stagingFile {allowed : Request → Bool} (id suffix : String) (stages : allowed (.stage id suffix) = true) :
    Asks allowed (stagingFile id suffix) := by
  unfold stagingFile
  refine (Service.asks_ask stages).bind fun reply => ?_
  cases reply with
  | ok path => exact yields_pure trivial
  | error cause => exact yields_throw _

theorem asks_fetchBoth {allowed : Request → Bool} (target : Shell.Target) (outputPath errorPath : String)
    (copies : Output) (fetches : ∀ path copy, allowed (.remote target (.fetch path copy)) = true) :
    Asks allowed (fetchBoth target outputPath errorPath copies) := by
  unfold fetchBoth
  refine (Service.asks_ask (fetches _ _)).bind fun fetched => ?_
  cases fetched with
  | ok _ => exact Service.asks_ask (fetches _ _)
  | error fault => exact yields_pure trivial

/-- Only a job that has been seen completed is said to be downloaded. -/
theorem livesOn_retrieve {job : Job} {seen : List Job} (member : job ∈ seen) :
    Tries lifecycle (fun _ later => later = seen) (fun _ later => later = seen) job.retrieve seen := by
  unfold retrieve
  split
  next =>
    refine job.asks_place.andThen (lifecycle_ignores_place seen) (fun _ => rfl) fun place _ => ?_
    refine (Service.asks_backend (Backend.Task.asks_ofExcept _)).andThen (lifecycle_ignores_outward seen)
      (fun _ => rfl) fun target _ => ?_
    refine (asks_stagingFile _ _ rfl).andThen (lifecycle_ignores_staging seen) (fun _ => rfl) fun localOutput _ => ?_
    refine (asks_stagingFile _ _ rfl).andThen (lifecycle_ignores_staging seen) (fun _ => rfl) fun localError _ => ?_
    refine (asks_fetchBoth _ _ _ _ fun _ _ => rfl).andThen (lifecycle_ignores_staging seen) (fun _ => rfl)
      fun fetched _ => ?_
    split
    next => exact ⟨trivial, fun _ _ => ⟨trivial, fun _ _ => rfl⟩⟩
    next =>
      split
      next completed =>
        rw [tries_bind, Service.tries_ask]
        refine ⟨trivial, fun now _ => ?_⟩
        rw [tries_bind, Service.tries_store]
        exact ⟨fun _ => ⟨job, member, rfl, completed⟩, fun _ _ => rfl, fun _ _ => rfl⟩
      next => rfl
  next => rfl

theorem livesOn_retrieveAll {jobs seen : List Job} (members : ∀ job ∈ jobs, job ∈ seen) :
    LivesOn (retrieveAll jobs) seen := by
  induction jobs with
  | nil => trivial
  | cons job rest ih =>
    have later : LivesOn (retrieveAll rest) seen := ih fun other member => members other (by simp [member])
    unfold retrieveAll
    rw [LivesOn, tries_bind, Service.tries_attempt]
    refine (livesOn_retrieve (members job (by simp))).mono ?_ ?_
    · rintro value _ rfl
      rw [tries_bind]
      exact later
    · rintro cause _ rfl
      rw [tries_bind]
      exact later

theorem livesOn_output (key id : String) (seen : List Job) : LivesOn (output key id) seen := by
  unfold output
  refine LivesOn.after (Session.asks_authorize key) (lifecycle_ignores_session seen) fun caller _ => ?_
  rw [LivesOn, tries_bind]
  refine (livesOn_load id seen).mono (fun job later same => ?_) fun _ _ _ => trivial
  subst same
  rw [tries_bind, Service.tries_ofExcept]
  refine ⟨fun _ _ => ?_, fun _ _ => trivial⟩
  refine Session.tries_within lifecycle_ignores_session key _ _ _ ?_ fun _ _ => trivial
  exact (livesOn_retrieve (by simp)).mono (fun _ _ _ => trivial) fun _ _ _ => trivial

theorem livesOn_outputs (key : String) (seen : List Job) : LivesOn (outputs key) seen := by
  unfold outputs
  refine LivesOn.after (Session.asks_authorize key) (lifecycle_ignores_session seen) fun caller _ => ?_
  refine LivesOn.after (Session.asks_startCommand _ _ _) (lifecycle_ignores_session seen) fun _ _ => ?_
  rw [LivesOn, tries_bind, Service.tries_store]
  refine ⟨trivial, fun jobs _ => ?_, fun _ _ => trivial⟩
  have members : ∀ job ∈ jobs.filter hasFiles, job ∈ jobs ++ seen := fun job member =>
    List.mem_append.mpr (.inl (List.mem_filter.mp member).1)
  rw [tries_bind]
  refine (livesOn_retrieveAll members).mono (fun found later _ => ?_) fun _ _ _ => trivial
  exact LivesOn.after (Session.asks_record _ _ _ _ _) (lifecycle_ignores_session later) fun _ _ => trivial

theorem livesOn_cancelAtPlace (job : Job) (seen : List Job) : LivesOn job.cancelAtPlace seen := by
  have recorded : LivesOn (do
      let now ← Service.ask .now
      let _ ← Service.store (.transitionJob job.id .cancelled now)) seen := by
    rw [LivesOn, tries_bind, Service.tries_ask]
    refine ⟨trivial, fun now _ => ?_⟩
    rw [tries_bind, Service.tries_store]
    exact ⟨fun downloaded => (nomatch downloaded), fun _ _ => trivial, fun _ _ => trivial⟩
  unfold cancelAtPlace
  split
  next => exact recorded
  next handle _ =>
    refine LivesOn.after job.asks_place (lifecycle_ignores_place seen) fun place _ => ?_
    have outward := place.asks_cancel handle fun _ => Request.isOutward_of_isCancelledBy
    exact LivesOn.after (Service.asks_backend outward) (lifecycle_ignores_outward seen) fun _ _ => recorded

theorem livesOn_cancel (key id : String) (seen : List Job) : LivesOn (cancel key id) seen := by
  unfold cancel
  refine LivesOn.after (Session.asks_authorize key) (lifecycle_ignores_session seen) fun caller _ => ?_
  rw [LivesOn, tries_bind]
  refine (livesOn_load id seen).mono (fun job later _ => ?_) fun _ _ _ => trivial
  rw [tries_bind, Service.tries_ofExcept]
  refine ⟨fun _ _ => ?_, fun _ _ => trivial⟩
  split
  next => trivial
  next =>
    exact Session.tries_within lifecycle_ignores_session key _ _ _ (livesOn_cancelAtPlace job later)
      fun _ _ => trivial

/-- No place says of its own accord that a job has been downloaded. -/
theorem livesOn_observe (job : Job) (seen : List Job) : LivesOn job.observe seen := by
  unfold observe
  split
  next => trivial
  next handle _ =>
    refine LivesOn.after job.asks_place (lifecycle_ignores_place seen) fun place _ => ?_
    refine LivesOn.after (Service.yields_backend (place.yields_status handle fun _ => Request.isOutward_of_follows))
      (lifecycle_ignores_outward seen) fun observed known => ?_
    rw [LivesOn, tries_bind, Service.tries_ask]
    exact ⟨trivial, fun now _ => (Service.tries_store _).mpr
      ⟨fun downloaded => absurd downloaded known, fun _ _ => trivial, fun _ _ => trivial⟩⟩

theorem livesOn_refresh (id : String) (seen : List Job) : LivesOn (refresh id) seen := by
  have released (result : Except Failure Status) (later : List Job) : LivesOn (do
      Service.ask (.release id)
      Service.ofExcept result) later := by
    rw [LivesOn, tries_bind]
    exact (Service.tries_ask _).mpr ⟨trivial, fun _ _ => (Service.tries_ofExcept result).mpr
      ⟨fun _ _ => trivial, fun _ _ => trivial⟩⟩
  unfold refresh
  rw [LivesOn, tries_bind]
  refine (livesOn_load id seen).mono (fun job later _ => ?_) fun _ _ _ => trivial
  split
  next => trivial
  next =>
    rw [tries_bind, Service.tries_ask]
    refine ⟨trivial, fun granted _ => ?_⟩
    split
    next =>
      rw [tries_bind, Service.tries_attempt]
      exact (livesOn_observe job _).mono (fun status after _ => released (.ok status) after) fun cause after _ =>
        released (.error cause) after
    next => trivial

theorem livesOn_refreshAll (jobs seen : List Job) : LivesOn (refreshAll jobs) seen := by
  induction jobs generalizing seen with
  | nil => trivial
  | cons job rest ih =>
    have counted (later : List Job) (ended : Bool) :
        LivesOn (do return (← refreshAll rest) + (if ended then 1 else 0)) later := by
      rw [LivesOn, tries_bind]
      exact ih later
    unfold refreshAll
    rw [LivesOn, tries_bind, Service.tries_attempt]
    exact (livesOn_refresh job.id seen).mono (fun status later _ => counted later _) fun cause later _ =>
      counted later _

theorem livesOn_monitor (seen : List Job) : LivesOn monitor seen := by
  unfold monitor
  rw [LivesOn, tries_bind, Service.tries_store]
  exact ⟨trivial, fun jobs _ => livesOn_refreshAll jobs _, fun _ _ => trivial⟩

theorem Call.keeps_plan (call : Call) : call.plan.Keeps lifecycle (fun _ _ => True) [] := by
  cases call with
  | submit mint key machine script options =>
    exact (livesOn_submit mint key machine script options []).keeps
  | cancel key id => exact (livesOn_cancel key id []).keeps
  | refresh id => exact (livesOn_refresh id []).keeps
  | monitor => exact (livesOn_monitor []).keeps
  | output key id => exact (livesOn_output key id []).keeps
  | outputs key => exact (livesOn_outputs key []).keeps

/-- What has been seen of a job is true of its row, up to moves of its life. -/
def IsRemembered (tables : Store.Tables) (job : Job) : Prop :=
  ∃ row, tables.job? job.id = some row ∧ job.Became row

theorem IsRemembered.later {tables next : Store.Tables} {job : Job} (remembered : IsRemembered tables job)
    (became : tables.JobsBecame next) : IsRemembered next job := by
  obtain ⟨row, found, since⟩ := remembered
  obtain ⟨later, foundLater, after⟩ := became job.id row found
  exact ⟨later, foundLater, since.trans after⟩

/-- A permitted call moves jobs on as their life allows. -/
theorem lifecycle_call {tables : Store.Tables} {seen : List Job} {call : Store.Call} (sound : tables.HasSoundJobs)
    (remembered : ∀ job ∈ seen, IsRemembered tables job) (permitted : lifecycle.permits seen (.store call)) :
    (tables.answer call).2.HasSoundJobs ∧ tables.JobsMove (tables.answer call).2 := by
  have untouched (same : (tables.answer call).2.jobs = tables.jobs) :
      (tables.answer call).2.HasSoundJobs ∧ tables.JobsMove (tables.answer call).2 :=
    ⟨sound.of_eq same, .of_eq same⟩
  cases call with
  | insertJob job => exact Store.Tables.insertJob_life sound permitted.1 permitted.2
  | updateJob job => exact permitted.elim
  | transitionJob id next instant =>
    refine Store.Tables.transitionJob_life sound fun downloaded => ?_
    obtain ⟨job, member, same, completed⟩ := permitted downloaded
    obtain ⟨row, found, became⟩ := remembered job member
    rw [← same]
    refine ⟨row, found, ?_⟩
    -- The row may have moved since it was seen, but a completed job can only have been downloaded.
    rcases became.ended (by rw [completed]; rfl) with unchanged | later
    · exact .inl (unchanged.trans completed)
    · exact .inr later.2
  | findJob | jobsOf | unfinishedJobs => exact untouched rfl
  | _ => exact untouched (tables.answer_jobs rfl)

/-- What a service learns are rows as they are stored. -/
theorem lifecycle_learnt {tables : Store.Tables} {seen : List Job} {call : Store.Call}
    (distinct : tables.HasDistinctJobs) {job : Job}
    (member : job ∈ lifecycle.learn seen (.store call) (tables.answer call).1) :
    job ∈ seen ∨ tables.job? job.id = some job := by
  have listed {p : Job → Bool} (member : job ∈ tables.jobs.filter p ++ seen) :
      job ∈ seen ∨ tables.job? job.id = some job := by
    rcases List.mem_append.mp member with stored | known
    · exact .inr (Store.Tables.job?_of_mem distinct (List.mem_filter.mp stored).1)
    · exact .inl known
  cases call with
  | findJob id =>
    rcases List.mem_append.mp member with found | known
    · have same : tables.job? id = some job := Option.mem_toList.mp found
      exact .inr ((Store.Tables.job?_some same).2 ▸ same)
    · exact .inl known
  | jobsOf owner => exact listed member
  | unfinishedJobs => exact listed member
  | _ => exact .inl member

theorem lifecycle_step {shared next : Shared} {seen : List Job} {request : Request} {reply : request.Reply}
    (sound : shared.tables.HasSoundJobs) (remembered : ∀ job ∈ seen, IsRemembered shared.tables job)
    (permitted : lifecycle.permits seen request) (served : shared.Serves request reply next) :
    next.tables.HasSoundJobs ∧ shared.tables.JobsMove next.tables ∧
      ∀ job ∈ lifecycle.learn seen request reply, job ∈ seen ∨ shared.tables.job? job.id = some job := by
  cases request with
  | store call =>
    rcases Shared.serves_store served with ⟨rfl, rfl⟩ | ⟨⟨fault, rfl⟩, rfl⟩
    · have moved := lifecycle_call sound remembered permitted
      exact ⟨moved.1, moved.2, fun job member => lifecycle_learnt sound.distinct member⟩
    · have silent : lifecycle.learn seen (.store call) (.error fault) = seen := by cases call <;> rfl
      rw [silent]
      exact ⟨sound, .of_eq rfl, fun job member => .inl member⟩
  | _ =>
    have same := congrArg Store.Tables.jobs (served.tables_eq fun call => nofun)
    exact ⟨sound.of_eq same, .of_eq same, fun job member => .inl member⟩

/-- The rule that holds throughout every run: of the stored jobs, of what has happened to them, and of what each
service has seen of them. -/
structure InOrder (shared : Shared) (trace : List (Moment Shared)) (seen : List (List Job)) : Prop where
  sound : shared.tables.HasSoundJobs
  moved : ∀ moment ∈ trace, moment.before.tables.JobsMove moment.after.tables
  since : ∀ moment ∈ trace, moment.after.tables.JobsBecame shared.tables
  remembered : ∀ jobs ∈ seen, ∀ job ∈ jobs, IsRemembered shared.tables job

theorem InOrder.step {shared next : Shared} {trace : List (Moment Shared)} {front back : List (List Job)}
    {seen : List Job} {request : Request} {reply : request.Reply}
    (order : InOrder shared trace (front ++ seen :: back)) (permitted : lifecycle.permits seen request)
    (served : shared.Serves request reply next) :
    InOrder next (trace ++ [{ before := shared, request, reply, after := next }])
      (front ++ lifecycle.learn seen request reply :: back) := by
  have remembered := order.remembered seen (by simp)
  obtain ⟨sound, moves, learnt⟩ := lifecycle_step order.sound remembered permitted served
  have became := moves.became
  refine ⟨sound, ?_, ?_, ?_⟩
  · intro moment member
    rcases List.mem_append.mp member with earlier | last
    · exact order.moved moment earlier
    · rw [List.mem_singleton.mp last]
      exact moves
  · intro moment member
    rcases List.mem_append.mp member with earlier | last
    · exact (order.since moment earlier).trans became
    · rw [List.mem_singleton.mp last]
      exact .refl _
  · refine Pool.remembered_step order.remembered (fun job known => known.later became) fun job inside => ?_
    exact (learnt job inside).imp_right fun stored => IsRemembered.later ⟨job, stored, .refl job⟩ became

/-- From a store without jobs, whatever is called, however the calls interleave, whatever the places answer and
wherever the store fails: at every moment of the run each job moves at most one step of its life and none begins
as downloaded; whatever was stored at some moment is still there at the end with nothing settled undone; and in
the end, which may be any state on the way, all jobs are sound and no two have the same identifier. -/
theorem jobs_live_on {start : Shared} {calls : List Call} {trace : List (Moment Shared)} {last : Pool Shared Unit}
    (empty : start.tables.jobs = [])
    (run : Pool.Runs Shared.Serves { state := start, plans := calls.map Call.plan } trace last) :
    last.state.tables.HasSoundJobs ∧
      (∀ moment ∈ trace, moment.before.tables.JobsMove moment.after.tables) ∧
      ∀ moment ∈ trace, moment.after.tables.JobsBecame last.state.tables := by
  have kept : ∀ plan ∈ calls.map Call.plan, plan.Keeps lifecycle (fun _ _ => True) [] := by
    intro plan member
    obtain ⟨call, _, rfl⟩ := List.mem_map.mp member
    exact call.keeps_plan
  have begins : InOrder start [] ((calls.map Call.plan).map fun _ => []) := by
    refine ⟨⟨?_, ?_⟩, by simp, by simp, ?_⟩
    · simp [Store.Tables.HasDistinctJobs, empty]
    · simp [empty]
    · intro jobs member job inside
      obtain ⟨_, _, rfl⟩ := List.mem_map.mp member
      cases inside
  obtain ⟨knowers, _, _, order⟩ := run.holds kept (fun _ _ _ _ _ => trivial) InOrder begins
    fun _ _ _ _ _ _ _ _ order permitted served => order.step permitted served
  exact ⟨order.sound, order.moved, order.since⟩

/-- A cluster of one front-end. -/
def sampleCluster : Machine :=
  { id := "cluster", name := "cluster"
    platform := .batch { host := "front", scheduler := .sge, defaultUser := "grid" } }

/-- A user with a session, and no jobs. -/
def sampleStart : Shared :=
  { tables := {
      users := [{ id := "alice", passwordHash := "" }]
      sessions := [{ (default : Session) with key := "key", id := "s", user := "alice" }] } }

/-- A job that is submitted while a monitor looks for jobs, and whose output is asked for while it is refreshed. -/
def sampleLife : List (Moment Shared) × Pool Shared Unit :=
  let calls := [.submit {} "key" "cluster" "job.sh" {}, .refresh "J_1", .output "key" "J_1", .monitor]
  let turns := List.replicate 12 0 ++ [3, 3, 3] ++ List.replicate 30 0 ++ [1, 2, 2] ++ List.replicate 20 1 ++
    List.replicate 30 2
  Pool.play (Shared.respond (Shared.outsideOf sampleCluster "7.1")) turns
    { state := sampleStart, plans := List.map Call.plan calls }

theorem sampleLife_lives_on : ((sampleLife.2.state.tables.job? "J_1").map Job.status = some .downloaded) ∧
    sampleLife.2.state.tables.HasSoundJobs ∧
    (∀ moment ∈ sampleLife.1, moment.before.tables.JobsMove moment.after.tables) ∧
    ∀ moment ∈ sampleLife.1, moment.after.tables.JobsBecame sampleLife.2.state.tables :=
  ⟨by decide +kernel, jobs_live_on rfl (Pool.runs_play Shared.serves_respond _ _)⟩

end Job

end Dispatch
