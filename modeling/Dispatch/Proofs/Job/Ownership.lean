import Dispatch.Proofs.Backend.Interventions
import Dispatch.Proofs.Job.Docket
import Dispatch.Proofs.Job.Lifecycle
import Dispatch.Proofs.Store.Ownership
/-!
Work on jobs for one user. Whatever is done for a user spares the rows of all others, and what is done to jobs at their
places is done to jobs of that user, or to bring a new one there.
-/
namespace Dispatch

open Plan

namespace Shared

/-- A server whose store may fail at any call, and whose machines are known for good. -/
def ServesFor (machines : String → Option Machine) : Setting Shared := fun shared request reply next =>
  shared.AnswersFor machines request reply next ∨ shared.Fails request reply next

variable {machines : String → Option Machine} {shared next : Shared} {request : Request} {reply : request.Reply}

theorem ServesFor.serves (served : shared.ServesFor machines request reply next) :
    shared.Serves request reply next := by
  rcases served with answered | failed
  · exact .inl (Job.answers_of_answersFor answered)
  · exact .inr failed

theorem servesFor_machine {id : String} {found : Option Machine}
    (served : shared.ServesFor machines (.machine id) found next) : found = machines id ∧ next = shared :=
  served.resolve_right fun failed => failed

theorem ServesFor.resembles (served : shared.ServesFor machines request reply next)
    (bystands : request.isBystander = true) : shared.tables.Resembles next.tables := by
  cases request with
  | store call =>
    rcases serves_store served.serves with ⟨_, rfl⟩ | ⟨_, rfl⟩
    · exact shared.tables.resembles_answer bystands
    · exact Store.Tables.resembles_refl _
  | _ =>
    rw [served.serves.tables_eq fun _ => nofun]
    exact Store.Tables.resembles_refl _

end Shared

namespace Job

/-- The place of a job, for its owner, by the machines and the tables. -/
def placeIn? (machines : String → Option Machine) (tables : Store.Tables) (job : Job) : Option Backend :=
  (machines job.machine).map fun machine =>
    machine.backend ((tables.localAccount? job.owner job.machine).map LocalAccount.login) job.backendParams

/-- What is done to a job at its place: it is ended there, or one of its files is copied. -/
inductive IsServedBy (job : Job) (place : Backend) : Request → Prop
  | cancelled {handle : String} {request : Request} (handled : job.handle = some handle)
      (cancels : place.IsCancelledBy handle request) : IsServedBy job place request
  | fetched {handle path : String} {target : Shell.Target} (handled : job.handle = some handle)
      (here : place.fileTarget handle = .ok target) (named : job.outputPath = some path ∨ job.errorPath = some path)
      (copy : String) : IsServedBy job place (.remote target (.fetch (withoutHost path) copy))

/-- For whom jobs are worked on, with which machines and from which tables on, and whether a job is being submitted. -/
structure Scope where
  machines : String → Option Machine
  user : String
  start : Store.Tables
  isSubmitting : Bool := false

/-- A server whose machines are known and whose store may fail, with all that happens written down. -/
abbrev Scope.Records (scope : Scope) : Setting (Recorded Shared) := (Shared.ServesFor scope.machines).recorded

/-- What is done for the user: something to a stored job of the user, at the place of that job; or, if a job is being
submitted, what it takes for that. -/
inductive Scope.IsDoneFor (scope : Scope) (log : List (Moment Shared)) (request : Request) : Prop
  | stored {job : Job} {place : Backend} (own : job ∈ scope.start.jobsOf scope.user)
      (here : job.placeIn? scope.machines scope.start = some place) (serves : job.IsServedBy place request)
  | submitted (submitting : scope.isSubmitting = true) (part : Backend.IsPartOfSubmission log request)

/-- What is so as long as the user is served: all others have been spared from the start, and all that was done to jobs
at their places was done for the user. -/
structure Scope.IsConfined (scope : Scope) (now : Recorded Shared) : Prop where
  spares : scope.start.Spares scope.user now.state.tables
  doneFor : ∀ moment ∈ now.trace, moment.request.isIntervention = true → scope.IsDoneFor now.trace moment.request

variable {scope : Scope} {now next : Recorded Shared}

theorem Scope.IsDoneFor.mono {log longer : List (Moment Shared)} {request : Request}
    (done : scope.IsDoneFor log request) (included : log ⊆ longer) : scope.IsDoneFor longer request := by
  cases done with
  | stored own here serves => exact .stored own here serves
  | submitted submitting part => exact .submitted submitting (part.mono included)

namespace Scope.IsConfined

/-- It stays so if others are spared, and more is done only for the user. -/
theorem extend (confined : scope.IsConfined now) {added : List (Moment Shared)}
    (grown : next.trace = now.trace ++ added) (spares : scope.start.Spares scope.user next.state.tables)
    (done : ∀ moment ∈ added, moment.request.isIntervention = true → scope.IsDoneFor next.trace moment.request) :
    scope.IsConfined next := by
  refine ⟨spares, fun moment member intervenes => ?_⟩
  have present := member
  rw [grown] at present
  rcases List.mem_append.mp present with before | here
  · refine (confined.doneFor moment before intervenes).mono ?_
    rw [grown]
    exact List.subset_append_left _ _
  · exact done moment here intervenes

section Steps

variable {request : Request} {reply : request.Reply}

/-- A step that does nothing to jobs at their places, and spares others. -/
theorem step (confined : scope.IsConfined now) (answered : scope.Records now request reply next)
    (quiet : request.isIntervention = false) (spares : scope.start.Spares scope.user next.state.tables) :
    scope.IsConfined next := by
  apply confined.extend answered.2 spares
  intro moment member intervenes
  obtain rfl := List.mem_singleton.mp member
  rw [quiet] at intervenes
  cases intervenes

theorem aside (confined : scope.IsConfined now) (answered : scope.Records now request reply next)
    (bystands : request.isBystander = true) : scope.IsConfined next :=
  confined.step answered (Request.isIntervention_of_isBystander bystands)
    (confined.spares.resembles (answered.1.resembles bystands))

/-- Something that is done for the user. -/
theorem serve (confined : scope.IsConfined now) (answered : scope.Records now request reply next)
    (outward : request.isOutward = true) (done : scope.IsDoneFor now.trace request) : scope.IsConfined next := by
  have unchanged : next.state = now.state := answered.1.serves.eq_of_outward outward
  apply confined.extend answered.2 (by rw [unchanged]; exact confined.spares)
  intro moment member _
  obtain rfl := List.mem_singleton.mp member
  refine done.mono ?_
  rw [answered.2]
  exact List.subset_append_left _ _

/-- A job of the user is moved on, unless the store fails. -/
theorem move (confined : scope.IsConfined now) {id : String} {status : Status} {instant : Instant}
    {reply : Except Store.Fault Status}
    (answered : scope.Records now (.store (.transitionJob id status instant)) reply next)
    (own : ∃ job ∈ scope.start.jobsOf scope.user, job.id = id) : scope.IsConfined next := by
  refine confined.step answered rfl ?_
  rcases Shared.serves_store answered.1.serves with ⟨_, same⟩ | ⟨_, same⟩
  · rw [same]
    exact confined.spares.transitionJob own status instant
  · rw [same]
    exact confined.spares

/-- A job of the user is stored, unless the store fails or there is one with its identifier. -/
theorem insert (confined : scope.IsConfined now) {job : Job} {reply : Except Store.Fault Unit}
    (answered : scope.Records now (.store (.insertJob job)) reply next) (own : job.owner = scope.user) :
    scope.IsConfined next := by
  refine confined.step answered rfl ?_
  rcases Shared.serves_store answered.1.serves with ⟨_, same⟩ | ⟨_, same⟩
  · rw [same]
    exact confined.spares.insertJob own
  · rw [same]
    exact confined.spares

end Steps

theorem ensures {α ε : Type} {allowed : Request → Bool} {expected : α → Prop} {task : ExceptT ε Plan α}
    (confined : scope.IsConfined now) (yields : Yields allowed expected task)
    (included : ∀ request, allowed request = true → request.isBystander = true) :
    Ensures scope.Records (fun value last => expected value ∧ scope.IsConfined last)
      (fun _ last => scope.IsConfined last) task now :=
  yields.ensures scope.IsConfined (fun member answered before => before.aside answered (included _ member)) confined

end Scope.IsConfined

theorem preserves_asking {α ε : Type} {allowed : Request → Bool} {expected : α → Prop} {task : ExceptT ε Plan α}
    (yields : Yields allowed expected task)
    (included : ∀ request, allowed request = true → request.isBystander = true) :
    Preserves scope.Records scope.IsConfined task := fun _ confined =>
  (confined.ensures yields included).mono (fun _ _ known => known.2) fun _ _ still => still

theorem preserves_asking_now : Preserves scope.Records scope.IsConfined (Service.ask .now) :=
  preserves_asking (Service.asks_ask rfl) fun _ member => Request.isBystander_of (.inl member)

/-- The machines and the accounts are those of the start, so the place is too. -/
theorem ensures_placeOf (job : Job) (confined : scope.IsConfined now) :
    Ensures scope.Records
      (fun place last => job.placeIn? scope.machines scope.start = some place ∧ scope.IsConfined last)
      (fun _ last => scope.IsConfined last) job.place now := by
  have found : Ensures scope.Records
      (fun machine last => scope.machines job.machine = some machine ∧ scope.IsConfined last)
      (fun _ last => scope.IsConfined last) (machineOf job.machine) now := by
    unfold machineOf
    refine (ensures_bind _ _).mpr ((Service.ensures_ask _).mpr fun known next answered => ?_)
    have still := confined.aside answered rfl
    have same : known = scope.machines job.machine := (Shared.servesFor_machine answered.1).1
    cases known with
    | some machine => exact (ensures_pure machine).mpr ⟨same.symm, still⟩
    | none => exact (ensures_throw _).mpr still
  unfold place placeFor
  rw [ensures_bind, ensures_bind]
  refine found.mono (fun machine middle known => ?_) fun _ _ still => still
  rw [ensures_bind, Service.ensures_store]
  refine ⟨fun account next answered => ?_, fun _ _ answered => known.2.aside answered rfl⟩
  refine (ensures_pure _).mpr ((ensures_pure _).mpr ⟨?_, known.2.aside answered rfl⟩)
  have told : account = middle.state.tables.localAccount? job.owner job.machine := by
    rcases Shared.serves_store answered.1.serves with ⟨same, _⟩ | ⟨⟨fault, same⟩, _⟩
    · exact Except.ok.inj same
    · cases same
  have same : middle.state.tables.localAccount? job.owner job.machine =
      scope.start.localAccount? job.owner job.machine := by
    rw [Store.Tables.localAccount?, known.2.spares.localAccounts]
    rfl
  rw [placeIn?, known.1, told, same]
  rfl

section Own

variable {job : Job} (own : job ∈ scope.start.jobsOf scope.user)
include own

theorem preserves_cancelling : Preserves scope.Records scope.IsConfined job.cancelAtPlace := by
  have moves : Preserves scope.Records scope.IsConfined (do
      let instant ← Service.ask .now
      let _ ← Service.store (.transitionJob job.id .cancelled instant)) := by
    refine preserves_asking_now.bind fun instant => Preserves.bind (fun now confined => ?_) fun _ => preserves_pure ()
    exact (Service.ensures_store _).mpr ⟨fun _ _ answered => confined.move answered ⟨job, own, rfl⟩,
      fun _ _ answered => confined.move answered ⟨job, own, rfl⟩⟩
  unfold cancelAtPlace
  cases handled : job.handle with
  | none => exact moves
  | some handle =>
    intro now confined
    apply (ensures_placeOf job confined).bind
    intro place middle found
    -- Nothing is asked of the place but what ends the job there.
    classical
    have cancels : Asks (fun request => decide (place.IsCancelledBy handle request)) (place.cancel handle) :=
      place.asks_cancel handle fun _ cancels => decide_eq_true cancels
    have served : Preserves scope.Records scope.IsConfined (place.cancel handle) := by
      refine cancels.preserves fun member answered before => ?_
      have ends := of_decide_eq_true member
      exact before.serve answered (Request.isOutward_of_isCancelledBy ends)
        (.stored own found.1 (.cancelled handled ends))
    rw [ensures_bind, Service.ensures_backend]
    exact (served middle found.2).mono (fun _ last still => moves last still) fun _ _ still => still

theorem preserves_fetching {place : Backend} (here : job.placeIn? scope.machines scope.start = some place)
    {handle outputPath errorPath : String} {target : Shell.Target} (handled : job.handle = some handle)
    (reached : place.fileTarget handle = .ok target) (output : job.outputPath = some outputPath)
    (error : job.errorPath = some errorPath) (copies : Output) :
    Preserves scope.Records scope.IsConfined
      (fetchBoth target (withoutHost outputPath) (withoutHost errorPath) copies) := by
  have fetches {path : String} (named : job.outputPath = some path ∨ job.errorPath = some path) (copy : String) :
      Preserves scope.Records scope.IsConfined (Service.ask (.remote target (.fetch (withoutHost path) copy))) :=
    fun _ confined => (Service.ensures_ask _).mpr fun _ _ answered =>
      confined.serve answered rfl (.stored own here (.fetched handled reached named copy))
  unfold fetchBoth
  apply (fetches (.inl output) copies.outputPath).bind
  intro fetched
  cases fetched with
  | ok _ => exact fetches (.inr error) copies.errorPath
  | error fault => exact preserves_pure _

/-- An output is of the job that it is retrieved for. -/
theorem ensures_retrieving (confined : scope.IsConfined now) :
    Ensures scope.Records (fun output last => output.job = job.id ∧ scope.IsConfined last)
      (fun _ last => scope.IsConfined last) job.retrieve now := by
  have staged (suffix : String) : Preserves scope.Records scope.IsConfined (stagingFile job.id suffix) :=
    preserves_asking (asks_stagingFile job.id suffix rfl) fun _ (bystands : Request.isBystander _ = true) => bystands
  unfold retrieve
  split
  next outputPath errorPath handle output error handled =>
    apply (ensures_placeOf job confined).bind
    intro place placed found
    rw [ensures_bind, Service.ensures_backend, Backend.Task.ensures_ofExcept]
    refine ⟨fun target reached => ?_, fun _ _ => found.2⟩
    apply (staged ".out" placed found.2).bind
    intro localOutput halfway still
    apply (staged ".err" halfway still).bind
    intro localError ready still
    apply (preserves_fetching own found.1 handled reached output error _ ready still).bind
    intro fetched done still
    split
    next fault =>
      refine (ensures_bind _ _).mpr ((Service.ensures_ask (.discard localOutput)).mpr fun _ first discarded => ?_)
      refine (ensures_bind _ _).mpr ((Service.ensures_ask (.discard localError)).mpr fun _ second discardedToo => ?_)
      exact (ensures_throw _).mpr ((still.aside discarded rfl).aside discardedToo rfl)
    next =>
      split
      next completed =>
        apply (preserves_asking_now done still).bind
        intro instant timed still
        rw [ensures_bind, Service.ensures_store]
        exact ⟨fun _ _ answered => (ensures_pure _).mpr ⟨rfl, still.move answered ⟨job, own, rfl⟩⟩,
          fun _ _ answered => still.move answered ⟨job, own, rfl⟩⟩
      next => exact (ensures_pure _).mpr ⟨rfl, still⟩
  next => exact (ensures_throw _).mpr confined

end Own

/-- Outputs are of jobs that they are retrieved for, one after the other. -/
theorem ensures_retrievingAll {jobs : List Job} (own : ∀ job ∈ jobs, job ∈ scope.start.jobsOf scope.user)
    (confined : scope.IsConfined now) :
    Ensures scope.Records
      (fun outputs last => (∀ output ∈ outputs, ∃ job ∈ jobs, job.id = output.job) ∧ scope.IsConfined last)
      (fun _ last => scope.IsConfined last) (retrieveAll jobs) now := by
  induction jobs generalizing now with
  | nil => exact (ensures_pure _).mpr ⟨by simp, confined⟩
  | cons job rest ih =>
    have others : ∀ other ∈ rest, other ∈ scope.start.jobsOf scope.user := fun other member =>
      own other (List.mem_cons_of_mem job member)
    unfold retrieveAll
    rw [ensures_bind, Service.ensures_attempt]
    have retrieved (result : Except Failure Output) (known : ∀ output, result = .ok output → output.job = job.id)
        {middle : Recorded Shared} (still : scope.IsConfined middle) :
        Ensures scope.Records
          (fun outputs last => (∀ output ∈ outputs, ∃ job' ∈ job :: rest, job'.id = output.job) ∧ scope.IsConfined last)
          (fun _ last => scope.IsConfined last)
          (do return result.toOption.toList ++ (← retrieveAll rest)) middle := by
      refine (ih others still).bind fun outputs last found => (ensures_pure _).mpr ⟨fun output member => ?_, found.2⟩
      rcases List.mem_append.mp member with first | later
      · cases result with
        | ok value =>
          obtain rfl : output = value := by simpa [Except.toOption] using first
          exact ⟨job, List.mem_cons_self, (known output rfl).symm⟩
        | error cause => cases first
      · obtain ⟨other, present, same⟩ := found.1 output later
        exact ⟨other, List.mem_cons_of_mem job present, same⟩
    refine (ensures_retrieving (own job List.mem_cons_self) confined).mono (fun output middle found => ?_)
      fun cause middle still => ?_
    · exact retrieved (.ok output) (fun _ same => Except.ok.inj same ▸ found.1) found.2
    · exact retrieved (.error cause) (by simp) still

/-- A job that a submission stores is the user's. -/
theorem ensures_recordSubmission {job : Job} (own : job.owner = scope.user) (result : Except Failure Submitted)
    (confined : scope.IsConfined now) :
    Ensures scope.Records
      (fun stored last => stored ∈ last.state.tables.jobsOf scope.user ∧ scope.IsConfined last)
      (fun _ last => scope.IsConfined last) (recordSubmission job result) now := by
  cases result with
  | ok submitted =>
    have accepted : (job.accept submitted).owner = scope.user := own
    unfold recordSubmission
    refine (ensures_bind _ _).mpr ((Service.ensures_store (.insertJob (job.accept submitted))).mpr
      ⟨fun _ next answered => (ensures_pure _).mpr ⟨?_, confined.insert answered accepted⟩,
        fun _ _ answered => confined.insert answered accepted⟩)
    rcases Shared.serves_store answered.1.serves with ⟨told, same⟩ | ⟨⟨fault, told⟩, _⟩
    · rw [same]
      exact Store.Tables.mem_jobsOf.mpr ⟨Store.Tables.mem_of_insertJob told.symm, accepted⟩
    · cases told
  | error failure =>
    unfold recordSubmission
    apply (preserves_asking_now now confined).bind
    intro instant timed still
    have rejected : (job.reject failure instant).owner = scope.user := own
    exact (ensures_bind _ _).mpr ((Service.ensures_store (.insertJob (job.reject failure instant))).mpr
      ⟨fun _ _ answered => (ensures_throw _).mpr (still.insert answered rejected),
        fun _ _ answered => still.insert answered rejected⟩)

/-- Whatever the place is told while it takes a job, nobody else is touched. -/
theorem preserves_submitting (submitting : scope.isSubmitting = true) (place : Backend) (script : String)
    (options : Options) : Preserves scope.Records scope.IsConfined (place.submit script options) := by
  intro now confined
  have unchanged : Preserves scope.Records (fun last => last.state = now.state) (place.submit script options) := by
    refine (place.yields_submit script options).preserves fun outward answered same => ?_
    rw [answered.1.serves.eq_of_outward outward, same]
  have extended {last : Recorded Shared} (same : last.state = now.state)
      (logged : ∃ added, last.trace = now.trace ++ added ∧ Backend.OnlySubmits (added.map Moment.bare)) :
      scope.IsConfined last := by
    obtain ⟨added, grown, only⟩ := logged
    apply confined.extend grown (by rw [same]; exact confined.spares)
    intro moment member intervenes
    have part := (only moment.bare (List.mem_map_of_mem member) intervenes).of_bare
    refine .submitted submitting (part.mono ?_)
    rw [grown]
    exact List.subset_append_right _ _
  exact ((unchanged now rfl).and ((place.logs_submit script options).ensures now)).mono
    (fun _ _ known => extended known.1 known.2) fun _ _ known => extended known.1 known.2

theorem ensures_submitFor (submitting : scope.isSubmitting = true) (mint : Identifier.Mint) {caller : Caller}
    (own : caller.user.id = scope.user) (machine script : String) (options : Options)
    (confined : scope.IsConfined now) :
    Ensures scope.Records
      (fun stored last => stored ∈ last.state.tables.jobsOf scope.user ∧ scope.IsConfined last)
      (fun _ last => scope.IsConfined last) (submitFor mint caller machine script options) now := by
  have placed : Preserves scope.Records scope.IsConfined (placeFor machine caller.user.id "") :=
    preserves_asking (asks_placeFor _ _ _) fun _ member => Request.isBystander_of (.inr (.inr (.inl member)))
  have minted (site : Option String) : Preserves scope.Records scope.IsConfined (mint.next .job options.name site) :=
    preserves_asking (mint.asks_next _ _ _) fun _ member => Request.isBystander_of (.inr (.inl member))
  have housed : Preserves scope.Records scope.IsConfined
      (if options.workingDir.isNone = true then homeOn machine caller.user.id else pure none) :=
    preserves_asking (asks_home _ _ _) fun _ member => Request.isBystander_of (.inr (.inr (.inl member)))
  unfold submitFor
  rw [ensures_bind]
  refine (placed now confined).mono ?_ fun _ _ still => still
  rintro ⟨found, place⟩ settled still
  apply (minted _ settled still).bind
  intro id named still
  refine ensures_choice.mpr ((ensures_bind _ _).mpr ?_)
  refine (housed named still).mono (fun home ready still => ?_) fun _ _ still => still
  apply (preserves_asking_now ready still).bind
  intro submittedAt timed still
  rw [ensures_bind, Service.ensures_attempt, Service.ensures_backend]
  exact (preserves_submitting submitting place script _ timed still).mono
    (fun submitted last still => ensures_recordSubmission own (.ok submitted) still)
    fun fault last still => ensures_recordSubmission own (.error _) still

end Job

end Dispatch
