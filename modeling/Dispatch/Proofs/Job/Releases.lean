import Dispatch.Proofs.Backend.Footprint
import Dispatch.Proofs.Job.Docket
import Dispatch.Proofs.Job.Lifecycle
import Dispatch.Proofs.Plan.Record
/-!
One action for every job in a cloud, and none after its end. Operations that follow one another keep the books: each
looks a job up, does to its machine what the new status asks for, and moves the job only if that was done.
-/
namespace Dispatch

open Plan

/-- A server whose store does not fail and whose machines are known, with all that happens written down. -/
abbrev Shared.RecordsFor (machines : String → Option Machine) : Setting (Recorded Shared) :=
  (Shared.AnswersFor machines).recorded

namespace Job

variable {machines : String → Option Machine} {now : Recorded Shared}

theorem isAside_of {request : Request} (member : request.isOfPlace = true ∨ request.isOfSession = true ∨
    request.isOfStaging = true ∨ request.isRemote = true) : isAside request = true := by
  cases request with
  | store call =>
    cases call with
    | insertJob | findJob | updateJob | transitionJob | jobsOf | unfinishedJobs =>
      simp [Request.isOfPlace, Request.isOfSession, Request.isOfStaging, Request.isRemote] at member
    | _ => rfl
  | enterMint | provider =>
    simp [Request.isOfPlace, Request.isOfSession, Request.isOfStaging, Request.isRemote] at member
  | _ => rfl

section Attended

variable {α ε : Type} {job : Job} {done : List String} {allowed : Request → Bool} {expected : α → Prop}

theorem Attending.ensures {task : ExceptT ε Plan α} (yields : Yields isAside expected task)
    (attending : Attending machines job done now) :
    Ensures (Shared.RecordsFor machines) (fun value last => expected value ∧ Attending machines job done last)
      (fun _ last => Attending machines job done last) task now :=
  yields.ensures (Attending machines job done) (fun member answered before => before.aside answered member) attending

/-- Of a job that is not in a cloud nothing is said. -/
theorem Attending.outside (attending : Attending machines job done now) (outside : ¬job.IsInCloud machines)
    (other : List String) : Attending machines job other now :=
  ⟨attending.distinct, attending.others, attending.row, attending.subject, fun inCloud => absurd inCloud outside,
    attending.due⟩

/-- The place of a job in a cloud is a cloud. -/
theorem Attending.ensures_place (attending : Attending machines job done now) :
    Ensures (Shared.RecordsFor machines)
      (fun place last => Attending machines job done last ∧
        ∀ frontend, place = .batch frontend → ¬job.IsInCloud machines)
      (fun _ last => Attending machines job done last) job.place now := by
  have found : Ensures (Shared.RecordsFor machines)
      (fun machine last => Attending machines job done last ∧ machines job.machine = some machine)
      (fun _ last => Attending machines job done last) (machineOf job.machine) now := by
    unfold machineOf
    refine (ensures_bind _ _).mpr ((Service.ensures_ask _).mpr fun known next answered => ?_)
    have still := attending.aside answered rfl
    have same : known = machines job.machine := answered.1.1
    cases known with
    | some machine => exact (ensures_pure machine).mpr ⟨still, same.symm⟩
    | none => exact (ensures_throw _).mpr still
  unfold place placeFor
  rw [ensures_bind, ensures_bind]
  refine found.mono (fun machine middle known => ?_) fun _ _ still => still
  refine (Attending.ensures (Service.asks_store rfl) known.1).bind fun account last still => ?_
  refine (ensures_pure _).mpr ((ensures_pure _).mpr ⟨still.2, fun frontend batch => ?_⟩)
  rintro ⟨_, other, config, sameMachine, platform⟩
  obtain rfl : machine = other := Option.some.inj (known.2.symm.trans sameMachine)
  simp [Machine.backend, platform] at batch

/-- What is asked of the provider for a job is done if the call succeeds, and not done if it fails. -/
theorem Attending.ensures_act (attending : Attending machines job [] now) (unfinished : job.status.isTerminal = false)
    {handle : String} {vm : Int} (handled : job.handle = some handle) (names : Cloud.vmIdOf handle = .ok vm)
    (config : Cloud.Config) (action : Cloud.Config.VmAction) :
    Ensures (Shared.RecordsFor machines) (fun _ last => Attending machines job [action.name] last)
      (fun _ last => Attending machines job [] last) (config.act action vm) now := by
  unfold Cloud.Config.act
  rw [ensures_bind, Cloud.Config.ensures_call]
  refine ⟨fun _ _ => attending, fun session _ reply next answered => ?_⟩
  have after := attending.act unfinished handled names answered
  refine ⟨fun value accepted => (ensures_pure ()).mpr ?_, fun fault refused => ?_⟩
  · simpa [accepted, Except.toOption] using after
  · simpa [refused, Except.toOption] using after

theorem Attending.ensures_cloudStatus (attending : Attending machines job [] now)
    (unfinished : job.status.isTerminal = false) {handle : String} (handled : job.handle = some handle)
    (fleet : Cloud.Fleet) :
    Ensures (Shared.RecordsFor machines)
      (fun status last => Attending machines job status.releases last ∧ status ≠ .failed)
      (fun _ last => Attending machines job [] last) (fleet.status handle) now := by
  unfold Cloud.Fleet.status
  rw [ensures_bind, Backend.Task.ensures_ofExcept]
  refine ⟨fun parts read => ?_, fun _ _ => attending⟩
  rw [ensures_bind, Backend.Task.ensures_ofExcept]
  refine ⟨fun vm numbered => ?_, fun _ _ => attending⟩
  have names : Cloud.vmIdOf handle = .ok vm := (Cloud.vmIdOf_of_read read).trans numbered
  refine (attending.ensures (Backend.Task.asks_ofExcept _)).bind fun config middle still => ?_
  refine (Attending.ensures (Backend.Task.asks_remote rfl) still.2).bind fun outcome after probed => ?_
  split
  next => exact (ensures_throw _).mpr probed.2
  next =>
    rw [ensures_bind, Backend.Task.ensures_ofExcept]
    refine ⟨fun alive _ => ?_, fun _ _ => probed.2⟩
    split
    next => exact (ensures_pure _).mpr ⟨probed.2, by decide⟩
    next =>
      refine (probed.2.ensures_act unfinished handled names config .stop).bind fun _ last stopped => ?_
      exact (ensures_pure _).mpr ⟨stopped, by decide⟩

/-- The status that a place tells goes with what was done to the machine. -/
theorem Attending.ensures_status (attending : Attending machines job [] now)
    (unfinished : job.status.isTerminal = false) {handle : String} (handled : job.handle = some handle)
    (place : Backend) (outside : ∀ frontend, place = .batch frontend → ¬job.IsInCloud machines) :
    Ensures (Shared.RecordsFor machines)
      (fun status last => Attending machines job status.releases last ∧ (job.IsInCloud machines → status ≠ .failed))
      (fun _ last => Attending machines job [] last) (place.status handle) now := by
  cases place with
  | cloud fleet =>
    exact (attending.ensures_cloudStatus unfinished handled fleet).mono (fun _ _ known => ⟨known.1, fun _ => known.2⟩)
      fun _ _ still => still
  | batch frontend =>
    have absent := outside frontend rfl
    have aside := frontend.yields_statusBy handle (frontend.scheduler.statusCommands handle) fun _ =>
      isAside_of (.inr (.inr (.inr rfl)))
    exact (attending.ensures aside).mono (fun status _ known => ⟨known.2.outside absent _, fun inCloud =>
      absurd inCloud absent⟩) fun _ _ still => still

/-- A cancelled job had its machine deleted. -/
theorem Attending.ensures_cancel (attending : Attending machines job [] now)
    (unfinished : job.status.isTerminal = false) {handle : String} (handled : job.handle = some handle)
    (place : Backend) (outside : ∀ frontend, place = .batch frontend → ¬job.IsInCloud machines) :
    Ensures (Shared.RecordsFor machines)
      (fun _ last => Attending machines job Status.cancelled.releases last)
      (fun _ last => Attending machines job [] last) (place.cancel handle) now := by
  cases place with
  | cloud fleet =>
    unfold Backend.cancel Cloud.Fleet.cancel
    rw [ensures_bind, Backend.Task.ensures_ofExcept]
    refine ⟨fun vm names => ?_, fun _ _ => attending⟩
    refine (attending.ensures (Backend.Task.asks_ofExcept _)).bind fun config middle still => ?_
    exact still.2.ensures_act unfinished handled names config .delete
  | batch frontend =>
    have remote (request : Request) (cancels : (Backend.batch frontend).IsCancelledBy handle request) :
        isAside request = true := by
      cases cancels with
      | command => rfl
    have aside := frontend.asks_cancel handle remote
    exact (attending.ensures aside).mono (fun _ _ known => known.2.outside (outside frontend rfl) _)
      fun _ _ still => still

/-- The job is moved to the status that goes with what was done. -/
theorem Attending.ensures_move {status : Status} (attending : Attending machines job status.releases now)
    (unfinished : job.status.isTerminal = false) (sane : job.IsInCloud machines → status ≠ .failed)
    (instant : Instant) :
    Ensures (Shared.RecordsFor machines) (fun _ last => Books machines last) (fun _ last => Books machines last)
      (Service.store (.transitionJob job.id status instant)) now :=
  (Service.ensures_store (.transitionJob job.id status instant)).mpr
    ⟨fun _ _ answered => attending.move unfinished sane answered,
      fun _ _ answered => attending.move unfinished sane answered⟩

end Attended

/-- What happens aside leaves the books in order. -/
theorem preserves_aside {α ε : Type} {allowed : Request → Bool} {expected : α → Prop} {task : ExceptT ε Plan α}
    (yields : Yields allowed expected task) (included : ∀ request, allowed request = true → isAside request = true) :
    Preserves (Shared.RecordsFor machines) (Books machines) task :=
  (yields.mono included).preserves fun member answered books => books.aside answered member

theorem preserves_session {α : Type} {service : Service α} (asks : Asks Request.isOfSession service) :
    Preserves (Shared.RecordsFor machines) (Books machines) service :=
  preserves_aside asks fun _ member => isAside_of (.inr (.inl member))

/-- Reading rows of jobs changes nothing. -/
theorem Books.read (books : Books machines now) {call : Store.Call} {reply : Except Store.Fault call.Answer}
    {next : Recorded Shared} (answered : (Shared.RecordsFor machines) now (.store call) reply next)
    (unchanged : (now.state.tables.answer call).2 = now.state.tables) : Books machines next := by
  have rows : next.state.tables.jobs = now.state.tables.jobs := by
    rw [show next.state = _ from answered.1.2, unchanged]
  exact books.of_same answered rows nofun

/-- A job that is looked up is attended to. -/
theorem ensures_load (books : Books machines now) (id : String) :
    Ensures (Shared.RecordsFor machines)
      (fun job last => Books machines last ∧ last.state.tables.job? job.id = some job ∧
        (docket last.trace).subject = some job.id)
      (fun _ last => Books machines last) (load id) now := by
  unfold load
  rw [ensures_bind, Service.ensures_store]
  refine ⟨fun found next answered => ?_, fun _ _ answered => books.read answered rfl⟩
  cases found with
  | none => exact (ensures_throw _).mpr (books.read answered rfl)
  | some job =>
    have told : now.state.tables.job? id = some job := (Except.ok.inj answered.1.1).symm
    have same : job.id = id := (Store.Tables.job?_some told).2
    have unchanged : next.state = now.state := answered.1.2
    refine (ensures_pure job).mpr ⟨books.read answered rfl, ?_, ?_⟩
    · rw [unchanged, same]
      exact told
    · rw [answered.2, docket_snoc, same]
      rfl

theorem Attending.ensures_observe {job : Job} (attending : Attending machines job [] now)
    (unfinished : job.status.isTerminal = false) :
    Ensures (Shared.RecordsFor machines) (fun _ last => Books machines last) (fun _ last => Books machines last)
      job.observe now := by
  unfold observe
  split
  next => exact (ensures_throw _).mpr (attending.leave unfinished)
  next handle handled =>
    rw [ensures_bind]
    refine attending.ensures_place.mono (fun place middle found => ?_) fun _ _ still => still.leave unfinished
    rw [ensures_bind, Service.ensures_backend]
    refine (found.1.ensures_status unfinished handled place found.2).mono (fun status after known => ?_)
      fun _ _ still => still.leave unfinished
    rw [ensures_bind]
    refine (Service.ensures_ask .now).mpr fun instant asked answered => ?_
    exact (known.1.aside answered rfl).ensures_move unfinished known.2 instant

theorem Attending.ensures_cancelAtPlace {job : Job} (attending : Attending machines job [] now)
    (unfinished : job.status.isTerminal = false) :
    Ensures (Shared.RecordsFor machines) (fun _ last => Books machines last) (fun _ last => Books machines last)
      job.cancelAtPlace now := by
  have recorded {middle : Recorded Shared} (done : Attending machines job Status.cancelled.releases middle) :
      Ensures (Shared.RecordsFor machines) (fun _ last => Books machines last) (fun _ last => Books machines last)
        (do
          let instant ← Service.ask .now
          let _ ← Service.store (.transitionJob job.id .cancelled instant)) middle := by
    rw [ensures_bind]
    refine (Service.ensures_ask .now).mpr fun instant asked answered => (ensures_bind _ _).mpr ?_
    exact ((done.aside answered rfl).ensures_move unfinished (fun _ => by decide) instant).mono
      (fun _ _ books => (ensures_pure ()).mpr books) fun _ _ books => books
  unfold cancelAtPlace
  split
  next missing =>
    have absent : ¬job.IsInCloud machines := by
      rintro ⟨handled, _⟩
      rw [missing] at handled
      cases handled
    exact recorded (attending.outside absent _)
  next handle handled =>
    rw [ensures_bind]
    refine attending.ensures_place.mono (fun place middle found => ?_) fun _ _ still => still.leave unfinished
    rw [ensures_bind, Service.ensures_backend]
    exact (found.1.ensures_cancel unfinished handled place found.2).mono (fun _ _ deleted => recorded deleted)
      fun _ _ still => still.leave unfinished

theorem preserves_refresh (id : String) : Preserves (Shared.RecordsFor machines) (Books machines) (refresh id) := by
  intro now books
  unfold refresh
  refine (ensures_load books id).bind fun job loaded known => ?_
  split
  next => exact (ensures_pure _).mpr known.1
  next unended =>
    have unfinished : job.status.isTerminal = false := by simpa using unended
    rw [ensures_bind, Service.ensures_ask]
    intro granted claimed answered
    split
    next =>
      have attending := (known.1.attend known.2.1 known.2.2 unfinished).aside answered rfl
      have released (result : Except Failure Status) (last : Recorded Shared) (still : Books machines last) :
          Ensures (Shared.RecordsFor machines) (fun _ last => Books machines last) (fun _ last => Books machines last)
            (do
              Service.ask (.release id)
              Service.ofExcept result) last := by
        refine (ensures_bind _ _).mpr ((Service.ensures_ask (.release id)).mpr fun _ next freed => ?_)
        have after := still.aside freed rfl
        exact (Service.ensures_ofExcept result).mpr ⟨fun _ _ => after, fun _ _ => after⟩
      rw [ensures_bind, Service.ensures_attempt]
      exact (attending.ensures_observe unfinished).mono (fun status => released (.ok status)) fun cause =>
        released (.error cause)
    next => exact (ensures_pure _).mpr (known.1.aside answered rfl)

theorem preserves_refreshAll (jobs : List Job) :
    Preserves (Shared.RecordsFor machines) (Books machines) (refreshAll jobs) := by
  induction jobs with
  | nil => exact preserves_pure 0
  | cons job rest ih =>
    unfold refreshAll
    exact (Service.preserves_attempt (preserves_refresh job.id)).bind fun status => ih.bind fun count =>
      preserves_pure _

theorem preserves_monitor : Preserves (Shared.RecordsFor machines) (Books machines) monitor := by
  intro now books
  unfold monitor
  rw [ensures_bind]
  exact (Service.ensures_store .unfinishedJobs).mpr
    ⟨fun jobs next answered => preserves_refreshAll jobs next (books.read answered rfl),
      fun _ _ answered => books.read answered rfl⟩

theorem preserves_cancel (key id : String) :
    Preserves (Shared.RecordsFor machines) (Books machines) (cancel key id) := by
  unfold cancel
  refine (preserves_session (Session.asks_authorize key)).bind fun caller => ?_
  intro now books
  refine (ensures_load books id).bind fun job loaded known => ?_
  rw [ensures_bind, Service.ensures_ofExcept]
  refine ⟨fun _ _ => ?_, fun _ _ => known.1⟩
  split
  next => exact (ensures_pure _).mpr known.1
  next unended =>
    have unfinished : job.status.isTerminal = false := by simpa using unended
    exact Session.ensures_within (Attending machines job []) (Books machines)
      (fun member answered attending => attending.aside answered (isAside_of (.inr (.inl member))))
      (fun member answered still => still.aside answered (isAside_of (.inr (.inl member))))
      (fun _ attending => attending.leave unfinished) (fun _ attending => attending.ensures_cancelAtPlace unfinished)
      key _ _ _ (known.1.attend known.2.1 known.2.2 unfinished)

/-- The books, and what is known of jobs whose output is to be fetched. -/
structure Retrieving (machines : String → Option Machine) (jobs : List Job) (now : Recorded Shared) : Prop where
  books : Books machines now
  fetchable : ∀ job ∈ jobs, job.IsFetchable now.state.tables

theorem Retrieving.aside {jobs : List Job} {next : Recorded Shared} {request : Request} {reply : request.Reply}
    (retrieving : Retrieving machines jobs now) (answered : (Shared.RecordsFor machines) now request reply next)
    (aside : isAside request = true) : Retrieving machines jobs next := by
  refine ⟨retrieving.books.aside answered aside, fun job present => ?_⟩
  exact (retrieving.fetchable job present).of_same (jobs_eq answered.1 (isAside_iff.mp aside).2.1)

theorem preserves_retrieving {α ε : Type} {jobs : List Job} {allowed : Request → Bool} {task : ExceptT ε Plan α}
    (asks : Asks allowed task) (included : ∀ request, allowed request = true → isAside request = true) :
    Preserves (Shared.RecordsFor machines) (Retrieving machines jobs) task :=
  (Yields.mono asks included).preserves fun member answered retrieving => retrieving.aside answered member

/-- A job in a list that is fetched from is downloaded only if it was completed. -/
theorem preserves_retrieve {job : Job} {jobs : List Job} (member : job ∈ jobs) :
    Preserves (Shared.RecordsFor machines) (Retrieving machines jobs) job.retrieve := by
  have staged {α : Type} {service : Service α} (asks : Asks Request.isOfStaging service) :
      Preserves (Shared.RecordsFor machines) (Retrieving machines jobs) service :=
    preserves_retrieving asks fun _ inside => isAside_of (.inr (.inr (.inl inside)))
  have timed : Preserves (Shared.RecordsFor machines) (Retrieving machines jobs) (Service.ask .now) :=
    preserves_retrieving (Service.asks_ask rfl) fun _ inside => isAside_of (.inr (.inl inside))
  unfold retrieve
  split
  next =>
    refine (preserves_retrieving job.asks_place fun _ inside => isAside_of (.inl inside)).bind fun place => ?_
    refine (staged (Service.asks_backend (Backend.Task.asks_ofExcept _))).bind fun target => ?_
    refine (staged (asks_stagingFile _ _ rfl)).bind fun localOutput => ?_
    refine (staged (asks_stagingFile _ _ rfl)).bind fun localError => ?_
    refine (staged (asks_fetchBoth _ _ _ _ fun _ _ => rfl)).bind fun fetched => ?_
    split
    next fault =>
      exact (staged (Service.asks_ask rfl)).bind fun _ => (staged (Service.asks_ask rfl)).bind fun _ =>
        preserves_throw _
    next =>
      split
      next completed =>
        refine timed.bind fun instant => ?_
        refine Preserves.bind (fun now retrieving => ?_) fun _ => preserves_pure _
        have moved {reply : Except Store.Fault Status} {next : Recorded Shared}
            (answered : (Shared.RecordsFor machines) now (.store (.transitionJob job.id .downloaded instant)) reply
              next) : Retrieving machines jobs next := by
          have after := retrieving.books.download (retrieving.fetchable job member) completed answered
          exact ⟨after.1, fun other present => after.2 other (retrieving.fetchable other present)⟩
        exact (Service.ensures_store (.transitionJob job.id .downloaded instant)).mpr
          ⟨fun _ _ answered => moved answered, fun _ _ answered => moved answered⟩
      next => exact preserves_pure _
  next => exact preserves_throw _

theorem preserves_retrieveAll {chosen jobs : List Job} (members : ∀ job ∈ chosen, job ∈ jobs) :
    Preserves (Shared.RecordsFor machines) (Retrieving machines jobs) (retrieveAll chosen) := by
  induction chosen with
  | nil => exact preserves_pure []
  | cons job rest ih =>
    have later := ih fun other member => members other (by simp [member])
    exact (Service.preserves_attempt (preserves_retrieve (members job (by simp)))).bind fun result =>
      later.bind fun outputs => preserves_pure _

theorem preserves_output (key id : String) :
    Preserves (Shared.RecordsFor machines) (Books machines) (output key id) := by
  unfold output
  refine (preserves_session (Session.asks_authorize key)).bind fun caller => ?_
  intro now books
  refine (ensures_load books id).bind fun job loaded known => ?_
  have retrieving : Retrieving machines [job] loaded := by
    refine ⟨known.1, fun other member completed => ?_⟩
    obtain rfl := List.mem_singleton.mp member
    exact ⟨other, known.2.1, .inl completed⟩
  rw [ensures_bind, Service.ensures_ofExcept]
  refine ⟨fun _ _ => ?_, fun _ _ => known.1⟩
  exact Session.ensures_within (Retrieving machines [job]) (Books machines)
    (fun member answered before => before.aside answered (isAside_of (.inr (.inl member))))
    (fun member answered still => still.aside answered (isAside_of (.inr (.inl member))))
    (fun _ before => before.books)
    (fun state before => (preserves_retrieve (by simp) state before).mono (fun _ _ after => after.books)
      fun _ _ after => after.books)
    key _ _ _ retrieving

theorem preserves_outputs (key : String) : Preserves (Shared.RecordsFor machines) (Books machines) (outputs key) := by
  unfold outputs
  refine (preserves_session (Session.asks_authorize key)).bind fun caller => ?_
  refine (preserves_session (Session.asks_startCommand key _ _)).bind fun _ => ?_
  intro now books
  refine (ensures_bind _ _).mpr ((Service.ensures_store (.jobsOf caller.user.id)).mpr
    ⟨fun jobs next answered => ?_, fun _ _ answered => books.read answered rfl⟩)
  have unchanged : next.state = now.state := answered.1.2
  have retrieving : Retrieving machines jobs next := by
    refine ⟨books.read answered rfl, fun job member completed => ?_⟩
    have listed : jobs = now.state.tables.jobsOf caller.user.id := Except.ok.inj answered.1.1
    rw [listed] at member
    have stored := Store.Tables.job?_of_mem books.distinct (List.mem_filter.mp member).1
    exact ⟨job, by rw [unchanged]; exact stored, .inl completed⟩
  have fetches : Preserves (Shared.RecordsFor machines) (Retrieving machines jobs)
      (retrieveAll (jobs.filter hasFiles)) := preserves_retrieveAll fun job member => (List.mem_filter.mp member).1
  rw [ensures_bind]
  refine (fetches next retrieving).mono (fun found last after => ?_) fun _ _ after => after.books
  exact ((preserves_session (Session.asks_record key _ _ _ _)).bind fun _ => preserves_pure found) last after.books

/-- Nobody is attended to while an identifier is minted, nor after it. -/
theorem Books.ensures_mint (books : Books machines now) (mint : Identifier.Mint) (kind : Identifier.Kind)
    (name site : Option String) :
    Ensures (Shared.RecordsFor machines) (fun _ last => Unattended machines last) (fun _ last => Books machines last)
      (mint.next kind name site) now := by
  have rest : Asks Request.isOfMint (do
      let result ← Service.attempt (mint.nextAlone kind name site)
      Service.ask .leaveMint
      Service.ofExcept result) :=
    (Service.asks_attempt (mint.asks_nextAlone kind name site)).bind fun result =>
      (Service.asks_ask rfl).bind fun _ => Service.asks_ofExcept result
  unfold Identifier.Mint.next
  refine (ensures_bind _ _).mpr ((Service.ensures_ask .enterMint).mpr fun _ next entered => ?_)
  refine (Yields.ensures rest (Unattended machines) (fun member answered before => ?_)
    (.enter books entered)).mono (fun _ _ known => known.2) fun _ _ known => known.books
  exact before.pass answered (Request.isOfJobs_eq_false (.inr (.inr (.inr (.inl member)))))

theorem Unattended.ensures {α ε : Type} {allowed : Request → Bool} {expected : α → Prop} {task : ExceptT ε Plan α}
    (unattended : Unattended machines now) (yields : Yields allowed expected task)
    (other : ∀ request, allowed request = true → request.isOfJobs = false) :
    Ensures (Shared.RecordsFor machines) (fun value last => expected value ∧ Unattended machines last)
      (fun _ last => Unattended machines last) task now :=
  yields.ensures (Unattended machines) (fun member answered before => before.pass answered (other _ member)) unattended

theorem preserves_recordSubmission {job : Job} {result : Except Failure Submitted}
    (unhandled : job.handle = none)
    (expected : ∀ submitted, result = .ok submitted → submitted.status = .submitted) :
    Preserves (Shared.RecordsFor machines) (Books machines) (recordSubmission job result) := by
  have stored (row : Job) (fresh : row.IsInCloud machines → row.status = .submitted) :
      Preserves (Shared.RecordsFor machines) (Books machines) (Service.store (.insertJob row)) := fun now books =>
    (Service.ensures_store (.insertJob row)).mpr
      ⟨fun _ _ answered => books.insert answered fresh, fun _ _ answered => books.insert answered fresh⟩
  cases result with
  | ok submitted =>
    exact (stored (job.accept submitted) fun _ => expected submitted rfl).bind fun _ => preserves_pure _
  | error failure =>
    have refused (instant : Instant) : ¬(job.reject failure instant).IsInCloud machines := by
      rintro ⟨handled, _⟩
      rw [reject, unhandled] at handled
      cases handled
    exact (preserves_session (Service.asks_ask rfl)).bind fun instant =>
      (stored (job.reject failure instant) fun inCloud => absurd inCloud (refused instant)).bind fun _ =>
      preserves_throw failure

theorem preserves_submitFor (mint : Identifier.Mint) (caller : Caller) (machine script : String) (options : Options) :
    Preserves (Shared.RecordsFor machines) (Books machines) (submitFor mint caller machine script options) := by
  unfold submitFor
  refine (preserves_aside (asks_placeFor machine caller.user.id "") fun _ inside => isAside_of (.inl inside)).bind ?_
  rintro ⟨found, place⟩ now books
  refine (books.ensures_mint mint .job options.name _).bind fun id minted unattended => ?_
  refine ensures_choice.mpr ((ensures_bind _ _).mpr ?_)
  refine (unattended.ensures (asks_home options machine caller.user.id) fun _ inside =>
    Request.isOfJobs_eq_false (.inr (.inl inside))).mono (fun home settled known => ?_) fun _ _ known => known.books
  refine (ensures_bind _ _).mpr ((Service.ensures_ask .now).mpr fun submittedAt next answered => ?_)
  -- Whatever the place does now, it does for nobody.
  have alone := known.2.pass answered rfl
  rw [ensures_bind, Service.ensures_attempt, Service.ensures_backend]
  refine (alone.ensures (place.yields_submit script _) fun _ inside => Request.isOfJobs_eq_false (.inl inside)).mono
    (fun submitted last known => ?_) fun fault last known => ?_
  · exact preserves_recordSubmission rfl (fun _ same => Except.ok.inj same ▸ known.1) last known.2.books
  · exact preserves_recordSubmission rfl (fun _ same => by cases same) last known.books

theorem preserves_submit (mint : Identifier.Mint) (key machine script : String) (options : Options) :
    Preserves (Shared.RecordsFor machines) (Books machines) (submit mint key machine script options) := by
  unfold submit
  refine (preserves_session (Session.asks_authorize key)).bind fun caller => fun now books => ?_
  exact Session.ensures_within (Books machines) (Books machines)
    (fun member answered before => before.aside answered (isAside_of (.inr (.inl member))))
    (fun member answered before => before.aside answered (isAside_of (.inr (.inl member)))) (fun _ before => before)
    (fun state before => preserves_submitFor mint caller machine script options state before) key _ _ _ books

/-- Calls one after the other. -/
def Call.inTurn : List Call → Plan Unit
  | [] => return
  | call :: rest => do
    call.plan
    Call.inTurn rest

theorem Call.keeps_books {call : Call} {last : Recorded Shared} (books : Books machines now)
    (ended : call.plan.Ends (Shared.RecordsFor machines) now () last) : Books machines last := by
  have kept {α : Type} {service : Service α} (preserves : Preserves (Shared.RecordsFor machines) (Books machines) service)
      (ended : (do let _ ← service.run : Plan Unit).Ends (Shared.RecordsFor machines) now () last) :
      Books machines last := by
    obtain ⟨result, middle, finished, _, rfl⟩ := (ends_bind _ _ _).mp ended
    have known := preserves now books result middle finished
    cases result with
    | ok value => exact known
    | error cause => exact known
  cases call with
  | submit mint key machine script options => exact kept (preserves_submit mint key machine script options) ended
  | cancel key id => exact kept (preserves_cancel key id) ended
  | refresh id => exact kept (preserves_refresh id) ended
  | monitor => exact kept preserves_monitor ended
  | output key id => exact kept (preserves_output key id) ended
  | outputs key => exact kept (preserves_outputs key) ended

theorem Call.inTurn_keeps_books {calls : List Call} {last : Recorded Shared} (books : Books machines now)
    (ended : (Call.inTurn calls).Ends (Shared.RecordsFor machines) now () last) : Books machines last := by
  induction calls generalizing now with
  | nil =>
    obtain ⟨_, rfl⟩ := ended
    exact books
  | cons call rest ih =>
    obtain ⟨_, middle, first, later⟩ := (ends_bind _ _ _).mp ended
    exact ih (Call.keeps_books books first) later

/-- From a store without jobs, whatever calls follow one another and whatever the provider, the shell and all else
outside reply, as long as the store works and no machine is configured anew: a job that a cloud has taken has had its
machine stopped once if it was completed, deleted once if it was cancelled, and nothing else done to it; it has not
failed; and whatever was asked to be done for a job was asked for the machine of its handle, while it was stored and
had not ended. An action is for the job that was looked up last; those of a submission are for no stored job. -/
theorem machines_are_released_once {machines : String → Option Machine} {start : Shared} {calls : List Call}
    {last : Recorded Shared} (empty : start.tables.jobs = [])
    (ended : (Call.inTurn calls).Ends (Shared.RecordsFor machines) { state := start } () last) :
    (∀ job ∈ last.state.tables.jobs, job.IsInCloud machines →
      job.status ≠ .failed ∧ performedFor job.id last.trace = job.status.releases) ∧
    ∀ id, ∀ moment ∈ actionsFor id last.trace, IsDue id moment := by
  have begins : Books machines { state := start } := by
    refine ⟨?_, fun id => ⟨fun _ => rfl, fun job found => ?_, fun moment member => ?_⟩⟩
    · simp [Store.Tables.HasDistinctJobs, empty]
    · simp [Store.Tables.job?, empty] at found
    · cases member
  have books := Call.inTurn_keeps_books begins ended
  refine ⟨fun job member inCloud => ?_, fun id => (books.settled id).due⟩
  exact (books.settled job.id).released job (Store.Tables.job?_of_mem books.distinct member) inCloud

/-- A cloud whose machines run as soon as they are asked about. -/
def sampleCloud : Machine :=
  { id := "cloud", name := "cloud"
    platform := .cloud {
      endpoint := "http://one", user := "one", password := "one", vmUser := "vm", image := "image",
      bootAttempts := 1 } }

def runningDocument : String := "<VM><STATE>3</STATE><LCM_STATE>3</LCM_STATE><IP>10.0.0.7</IP></VM>"

/-- All goes well, and the process of a job is gone when it is looked for. -/
def cloudOutside : (request : Request) → request.Reply
  | .provider _ method _ =>
    if method = Cloud.infoMethod then .ok (.array [.bool true, .string runningDocument])
    else .ok (.array [.bool true, .nat 93])
  | .remote _ (.execute _ _ true) => .ok (.detached 7)
  | request => Shared.outsideOf sampleCloud "0" request

/-- A job is submitted, asked about until it has ended, and fetched; then a monitor passes. -/
def sampleTurns : Option (Unit × Recorded Shared) :=
  let calls := [.submit {} "key" "cloud" "job.sh" {}, .refresh "J_1", .output "key" "J_1", .cancel "key" "J_1",
    .monitor]
  (Call.inTurn calls).follow (Pool.Responder.recorded (Shared.respond cloudOutside)) { state := sampleStart }

theorem sampleTurns_stop_once : ∃ last job, sampleTurns = some ((), last) ∧ job ∈ last.state.tables.jobs ∧
    job.status = .downloaded ∧ performedFor job.id last.trace = ["stop"] := by
  have facts : sampleTurns.map (fun (_, last) =>
      last.state.tables.jobs.map fun job => (job.machine, job.status, job.handle.isSome)) =
      some [("cloud", .downloaded, true)] := by decide +kernel
  obtain ⟨⟨_, last⟩, ran, rows⟩ := Option.map_eq_some_iff.mp facts
  obtain ⟨job, rest, stored, described, _⟩ := List.map_eq_cons_iff.mp rows
  obtain ⟨_, downloaded, handled⟩ : job.machine = "cloud" ∧ job.status = .downloaded ∧ job.handle.isSome = true := by
    simpa using described
  have answers {request : Request} {shared next : Shared} {reply : request.Reply}
      (replied : Shared.respond cloudOutside request shared = some (reply, next)) :
      shared.AnswersFor (fun _ => some sampleCloud) request reply next := answersFor_respond (fun _ => rfl) replied
  have ended := ends_follow (Pool.Responder.answers_recorded answers) ran
  have released := (machines_are_released_once rfl ended).1 job (by simp [stored]) ⟨handled, sampleCloud, _, rfl, rfl⟩
  refine ⟨last, job, ran, by simp [stored], downloaded, ?_⟩
  rw [released.2, downloaded]
  rfl

end Job

end Dispatch
