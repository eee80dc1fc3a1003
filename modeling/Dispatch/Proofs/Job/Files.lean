import Dispatch.Proofs.Job.Paths
import Dispatch.Proofs.Job.Reach
/-!
Whether the files that are fetched for a job are those that the job was told to write. A submission to a cluster starts
the job once and stores the paths that the scheduler was given; a retrieval fetches, as the same account, what the
stored paths lead to.
-/
namespace Dispatch

open Plan Shell Backend

variable {α : Type} {log longer : List (Moment Unit)} {allowed : Request → Bool}

/-- What a service gives, with all that it has asked and been told by then. -/
abbrev Recalls (gives : α → List (Moment Unit) → Prop) (service : Service α) (log : List (Moment Unit)) : Prop :=
  Tries (mindful fun _ _ => True) gives (fun _ _ => True) service log

/-- What is of a footprint, and then the rest. -/
theorem Recalls.after {β : Type} {expected : α → Prop} {gives : β → List (Moment Unit) → Prop} {service : Service α}
    {rest : α → Service β} (yields : Yields allowed expected service)
    (next : ∀ value longer, Adds allowed log longer → Recalls gives (rest value) longer) :
    Recalls gives (service >>= rest) log :=
  (tries_bind _ _).mpr ((yields.minds fun _ _ _ _ => trivial).mono (fun value longer known =>
    next value longer known.2) fun _ _ _ => trivial)

/-- What is to be done on a host. -/
def Request.action? : Request → Option Action
  | remote _ action => some action
  | _ => none

/-- What leaves hosts and providers alone. -/
def Request.isQuiet (request : Request) : Bool := !request.isCall

theorem Request.isQuiet_of {request : Request} (member : request.isOfPlace = true ∨ request.isOfSession = true ∨
    request.isOfMint = true) : request.isQuiet = true := by
  rw [isQuiet, isCall_eq_false member]
  rfl

theorem Plan.Adds.mono {wider : Request → Bool} (adds : Adds allowed log longer)
    (included : ∀ request, allowed request = true → wider request = true) : Adds wider log longer := by
  obtain ⟨added, rfl, within⟩ := adds
  exact ⟨added, rfl, fun moment member => included _ (within moment member)⟩

theorem callsOf_adds (adds : Adds Request.isQuiet log longer) : callsOf longer = callsOf log := by
  obtain ⟨added, rfl, quiet⟩ := adds
  have none : callsOf added = [] := List.filter_eq_nil_iff.mpr fun moment member calls => by
    have silent := quiet moment member
    rw [Request.isQuiet, calls] at silent
    cases silent
  rw [callsOf_append, none, List.append_nil]

namespace Backend

/-- All that is done for a script is a call. -/
theorem isCall_of_isStep {backend : Backend} {request : Request} (step : backend.isStep request = true) :
    request.isCall = true := by
  cases request with
  | remote | provider => rfl
  | _ => cases step

theorem stepsOf_callsOf (backend : Backend) (log : List (Moment Unit)) :
    backend.stepsOf (callsOf log) = backend.stepsOf log := by
  simp only [stepsOf, callsOf, List.filter_map, List.filter_filter]
  congr 2
  funext moment
  cases step : backend.isStep moment.request with
  | false => simp [step]
  | true => simp [step, isCall_of_isStep step]

/-- A front-end tells the paths that it was given, and all was done at its one account. -/
structure HasServed (frontend : Batch.Frontend) (options : Job.Options) (submitted : Job.Submitted)
    (log : List (Moment Unit)) : Prop where
  output : submitted.outputPath = options.outputPath
  error : submitted.errorPath = options.errorPath
  account : ∀ moment ∈ callsOf log, ∀ target, moment.request.account? = some target → target = frontend.target

theorem logs_submit_served (backend : Backend) (script : String) (options : Job.Options) :
    Logs (fun submitted log => ∀ frontend, backend = .batch frontend → HasServed frontend options submitted log)
      (fun _ _ => True) (backend.submit script options) := by
  cases backend with
  | batch frontend =>
    let here (request : Request) : Bool := request.account?.all (· = frontend.target)
    have uploads (content path : String) (mode : Int32) :
        here (.remote frontend.target (.upload content path mode)) = true := by simp [here, Request.account?]
    have submits (path : String) : here (.remote frontend.target
        (.execute (frontend.scheduler.submitCommand path options) options.workingDir false)) = true := by
      simp [here, Request.account?]
    have kept : Yields here (fun submitted => submitted.outputPath = options.outputPath ∧
        submitted.errorPath = options.errorPath) (frontend.submit script options) :=
      (Script.asks_stage _ _ rfl).bind fun text => (Script.asks_upload _ _ _ (fun _ => rfl) uploads).bind
        fun path => (Batch.Frontend.asks_outputOf frontend _ _ (submits path)).bind fun stdout =>
        (Task.asks_ofExcept _).bind fun handle => yields_pure ⟨rfl, rfl⟩
    refine (Yields.logs kept).mono (fun submitted log known other same => ?_) fun _ _ _ => trivial
    obtain rfl := Backend.batch.inj same
    obtain ⟨⟨output, error⟩, within⟩ := known
    refine ⟨output, error, fun moment member target shows => ?_⟩
    have own := within moment (List.mem_of_mem_filter member)
    simpa [here, shows] using own
  | cloud fleet =>
    refine (Yields.logs (fleet.yields_submit script options)).mono (fun submitted log _ frontend same => ?_)
      fun _ _ _ => trivial
    cases same

end Backend

namespace Job

/-- The home of that user on that machine, as it is told; a user without an account has none. -/
def homeTold? (user machine : String) : Moment Unit → Option (Option String)
  | ⟨_, .store (.findLocalAccount owner place), .ok account, _⟩ =>
    if owner = user ∧ place = machine then some (account.map LocalAccount.home) else none
  | _ => none

/-- What a log tells of a job that its place has taken: where that is, the home for a working directory that was left
open, what was done for the script, and at a front-end the account of all that and the paths that the job keeps. -/
structure IsTaken (options : Options) (found : Machine) (login home : Option String) (job : Job)
    (log : List (Moment Unit)) : Prop where
  told : IsTold job.machine job.owner found login log
  housed : options.workingDir = none → ∃ moment ∈ log, homeTold? job.owner job.machine moment = some home
  brought : (found.backend login "").IsBrought (options.complete job.id home) ((found.backend login "").stepsOf log)
  served : ∀ frontend, found.backend login "" = .batch frontend →
    (∀ stream : Stream, stream.stored job = stream.wanted (options.complete job.id home)) ∧
    ∀ moment ∈ callsOf log, ∀ target, moment.request.account? = some target → target = frontend.target
  stored : ∃ moment ∈ log, inserted? moment = some job

theorem IsTaken.adds {options : Options} {found : Machine} {login home : Option String} {job : Job}
    (taken : IsTaken options found login home job log) (adds : Adds Request.isQuiet log longer) :
    IsTaken options found login home job longer := by
  have included := adds.subset
  refine ⟨taken.told.mono included, fun unset => ?_, ?_, ?_, ?_⟩
  · obtain ⟨moment, member, told⟩ := taken.housed unset
    exact ⟨moment, included member, told⟩
  · rw [← stepsOf_callsOf, callsOf_adds adds, stepsOf_callsOf]
    exact taken.brought
  · rw [callsOf_adds adds]
    exact taken.served
  · obtain ⟨moment, member, stored⟩ := taken.stored
    exact ⟨moment, included member, stored⟩

/-- The home is asked for where the working directory is left open. -/
theorem recalls_home (options : Options) (machine user : String) :
    Recalls (fun home longer => Adds Request.isQuiet log longer ∧
        (options.workingDir = none → ∃ moment ∈ longer, homeTold? user machine moment = some home))
      (if options.workingDir.isNone = true then homeOn machine user else pure none) log := by
  split
  next =>
    unfold homeOn
    refine (tries_bind _ _).mpr ((Service.tries_store _).mpr ⟨trivial, fun account _ => ?_, fun _ _ => trivial⟩)
    refine ⟨(adds_nil _ log).snoc rfl, fun _ => ⟨_, List.mem_append_right _ (List.mem_singleton.mpr rfl), ?_⟩⟩
    simp [homeTold?]
  next given =>
    refine (tries_pure _).mpr ⟨adds_nil _ log, fun unset => ?_⟩
    exact absurd (by rw [unset]; rfl) given

/-- What the place has taken is stored with its paths. -/
theorem recalls_recordSubmission {options : Options} {found : Machine} {login home : Option String} {job : Job}
    {result : Except Failure Submitted} (told : IsTold job.machine job.owner found login log)
    (housed : options.workingDir = none → ∃ moment ∈ log, homeTold? job.owner job.machine moment = some home)
    (paths : ∀ stream : Stream, stream.stored job = stream.wanted (options.complete job.id home))
    (taken : ∀ submitted, result = .ok submitted →
      (found.backend login "").IsBrought (options.complete job.id home) ((found.backend login "").stepsOf log) ∧
      ∀ frontend, found.backend login "" = .batch frontend →
        HasServed frontend (options.complete job.id home) submitted log) :
    Recalls (fun job longer => IsTaken options found login home job longer) (recordSubmission job result) log := by
  cases result with
  | ok submitted =>
    obtain ⟨brought, served⟩ := taken submitted rfl
    refine (tries_bind _ _).mpr ((Service.tries_store _).mpr ⟨trivial, fun _ _ => ?_, fun _ _ => trivial⟩)
    have adds : Adds Request.isQuiet log ((mindful fun _ _ => True).learn log
        (.store (.insertJob (job.accept submitted))) (.ok ())) := (adds_nil _ log).snoc rfl
    refine (tries_pure _).mpr ⟨told.mono adds.subset, fun unset => ?_, ?_, fun frontend same => ⟨fun stream => ?_, ?_⟩,
      ?_⟩
    · obtain ⟨moment, member, known⟩ := housed unset
      exact ⟨moment, adds.subset member, known⟩
    · rw [← stepsOf_callsOf, callsOf_adds adds, stepsOf_callsOf]
      exact brought
    · have before := paths stream
      cases stream with
      | output => exact (congrArg₂ Option.or (served frontend same).output before).trans Option.or_self
      | error => exact (congrArg₂ Option.or (served frontend same).error before).trans Option.or_self
    · rw [callsOf_adds adds]
      exact (served frontend same).account
    · exact ⟨_, List.mem_append_right _ (List.mem_singleton.mpr rfl), rfl⟩
  | error failure =>
    refine (tries_bind _ _).mpr ((Service.tries_ask _).mpr ⟨trivial, fun now _ => ?_⟩)
    exact (tries_bind _ _).mpr ((Service.tries_store _).mpr ⟨trivial, fun _ _ => trivial, fun _ _ => trivial⟩)

/-- The place is called for a job, and then its row is stored. -/
theorem recalls_handover {options : Options} {found : Machine} {login home : Option String} {job : Job}
    (quiet : callsOf log = []) (told : IsTold job.machine job.owner found login log)
    (housed : options.workingDir = none → ∃ moment ∈ log, homeTold? job.owner job.machine moment = some home)
    (paths : ∀ stream : Stream, stream.stored job = stream.wanted (options.complete job.id home)) (script : String) :
    Recalls (fun job longer => IsTaken options found login home job longer) (do
      let result ← Service.attempt (Service.backend
        ((found.backend login "").submit script (options.complete job.id home)))
      recordSubmission job result) log := by
  have recorded (added : List (Moment Unit)) (result : Except Failure Submitted)
      (taken : ∀ submitted, result = .ok submitted →
        (found.backend login "").IsBrought (options.complete job.id home) ((found.backend login "").stepsOf added) ∧
        ∀ frontend, found.backend login "" = .batch frontend →
          HasServed frontend (options.complete job.id home) submitted added) :
      Recalls (fun job longer => IsTaken options found login home job longer) (recordSubmission job result)
        (log ++ added) := by
    refine recalls_recordSubmission (told.mono (List.subset_append_left _ _)) (fun unset => ?_) paths
      fun submitted same => ?_
    · obtain ⟨moment, member, known⟩ := housed unset
      exact ⟨moment, List.mem_append_left _ member, known⟩
    · obtain ⟨brought, served⟩ := taken submitted same
      have calls : callsOf (log ++ added) = callsOf added := by rw [callsOf_append, quiet, List.nil_append]
      refine ⟨?_, fun frontend batch => ?_⟩
      · rw [← stepsOf_callsOf, calls, stepsOf_callsOf]
        exact brought
      · obtain ⟨output, error, account⟩ := served frontend batch
        exact ⟨output, error, calls ▸ account⟩
  refine (tries_bind _ _).mpr ((Service.tries_attempt _).mpr ((Service.tries_backend _).mpr ?_))
  have started := (found.backend login "").steps_submit script (options.complete job.id home)
  have served := (found.backend login "").logs_submit_served script (options.complete job.id home)
  refine ((Logs.and started served).minds ((found.backend login "").yields_submit script (options.complete job.id home))
    fun _ _ _ _ => trivial).mono ?_ ?_
  · rintro submitted _ ⟨added, rfl, known, -⟩
    exact recorded added (.ok submitted) fun other same => Except.ok.inj same ▸ known
  · rintro fault _ ⟨added, rfl, -⟩
    exact recorded added (.error (Failure.ofBackend fault)) nofun

/-- A submission that succeeds says what its job was started with. -/
theorem recalls_submitFor (quiet : callsOf log = []) (mint : Identifier.Mint) (caller : Caller)
    (machine script : String) (options : Options) :
    Recalls (fun job longer => ∃ found login home, IsTaken options found login home job longer)
      (submitFor mint caller machine script options) log := by
  unfold submitFor
  refine (tries_bind _ _).mpr ((minds_placeFor (fun _ _ _ => trivial) machine caller.user.id "").mono ?_
    fun _ _ _ => trivial)
  rintro ⟨found, place⟩ placed ⟨adds, login, told, same⟩
  obtain rfl : place = found.backend login "" := same
  have first := adds.mono fun _ member => Request.isQuiet_of (.inl member)
  refine Recalls.after (mint.asks_next .job options.name _) fun id minted adds => ?_
  have second := adds.mono fun _ member => Request.isQuiet_of (.inr (.inr member))
  have toldThen := told.mono adds.subset
  refine tries_choice.mpr ((tries_bind _ _).mpr ((recalls_home options machine caller.user.id).mono ?_
    fun _ _ _ => trivial))
  rintro home settled ⟨third, housed⟩
  refine (tries_bind _ _).mpr ((Service.tries_ask _).mpr ⟨trivial, fun submittedAt _ => ?_⟩)
  -- Up to here no host has been called, and what follows are the calls of the place.
  have fourth : Adds Request.isQuiet settled ((mindful fun _ _ => True).learn settled .now submittedAt) :=
    (adds_nil _ settled).snoc rfl
  have silent : callsOf ((mindful fun _ _ => True).learn settled .now submittedAt) = [] := by
    rw [callsOf_adds fourth, callsOf_adds third, callsOf_adds second, callsOf_adds first, quiet]
  extract_lets job
  have toldNow : IsTold job.machine job.owner found login
      ((mindful fun _ _ => True).learn settled .now submittedAt) := (toldThen.mono third.subset).mono fourth.subset
  have housedNow : options.workingDir = none → ∃ moment ∈ (mindful fun _ _ => True).learn settled .now submittedAt,
      homeTold? job.owner job.machine moment = some home := fun unset => by
    obtain ⟨moment, member, known⟩ := housed unset
    exact ⟨moment, fourth.subset member, known⟩
  have paths : ∀ stream : Stream, stream.stored job = stream.wanted (options.complete job.id home) := fun stream => by
    cases stream with
    | output | error => rfl
  exact (recalls_handover silent toldNow housedNow paths script).mono (fun job longer taken =>
    ⟨found, login, home, taken⟩) fun _ _ _ => trivial

theorem recalls_submit (mint : Identifier.Mint) (key machine script : String) (options : Options) :
    Recalls (fun job longer => ∃ found login home, IsTaken options found login home job longer)
      (submit mint key machine script options) [] := by
  have ofSession (request : Request) (member : request.isOfSession = true) : request.isQuiet = true :=
    Request.isQuiet_of (.inr (.inl member))
  unfold submit
  refine Recalls.after (Session.asks_authorize key) fun caller looked adds => ?_
  have first := callsOf_adds (adds.mono ofSession)
  refine gives_within (fun _ _ _ => trivial) key _ _ _ (fun started adds => ?_) ?_
  · exact recalls_submitFor ((callsOf_adds (adds.mono ofSession)).trans first) mint caller machine script options
  · rintro job longer last ⟨found, login, home, taken⟩ adds
    exact ⟨found, login, home, taken.adds (adds.mono ofSession)⟩

/-- The row that is found for an identifier. -/
def loaded? (id : String) : Moment Unit → Option Job
  | ⟨_, .store (.findJob other), .ok found, _⟩ => if other = id then found else none
  | _ => none

/-- What a log tells of the copies of a job: the row of the job, where its place is, and that nothing was called there
but to fetch what the paths of the row lead to. -/
structure IsCopied (id : String) (found : Machine) (login : Option String) (row : Job) (copies : Output)
    (log : List (Moment Unit)) : Prop where
  loaded : ∃ moment ∈ log, loaded? id moment = some row
  told : IsTold row.machine row.owner found login log
  fetched : ∃ handle target, ∃ path : Stream → String, row.handle = some handle ∧
    (found.backend login row.backendParams).fileTarget handle = .ok target ∧
    (∀ stream : Stream, stream.stored row = some (path stream)) ∧
    (callsOf log).map Moment.request = [Stream.output, Stream.error].map fun stream =>
      .remote target (.fetch (withoutHost (path stream)) (stream.copied copies))

theorem IsCopied.adds {id : String} {found : Machine} {login : Option String} {row : Job} {copies : Output}
    (copied : IsCopied id found login row copies log) (adds : Adds Request.isQuiet log longer) :
    IsCopied id found login row copies longer := by
  obtain ⟨moment, member, known⟩ := copied.loaded
  exact ⟨⟨moment, adds.subset member, known⟩, copied.told.mono adds.subset, by
    rw [callsOf_adds adds]
    exact copied.fetched⟩

/-- Both files are fetched, or it fails. -/
theorem recalls_fetchBoth (target : Shell.Target) (outputPath errorPath : String) (copies : Output) :
    Recalls (fun result longer => log ⊆ longer ∧ ∀ fetched, result = .ok fetched →
        (callsOf longer).map Moment.request = (callsOf log).map Moment.request ++
          [.remote target (.fetch outputPath copies.outputPath), .remote target (.fetch errorPath copies.errorPath)])
      (fetchBoth target outputPath errorPath copies) log := by
  unfold fetchBoth
  refine (tries_bind _ _).mpr ((Service.tries_ask _).mpr ⟨trivial, fun first _ => ?_⟩)
  cases first with
  | ok _ =>
    refine (Service.tries_ask _).mpr ⟨trivial, fun second _ => ⟨?_, fun _ _ => ?_⟩⟩
    · exact List.Subset.trans (List.subset_append_left _ _) (List.subset_append_left _ _)
    · simp [mindful, callsOf, Request.isCall]
  | error fault =>
    refine (tries_pure _).mpr ⟨List.subset_append_left _ _, fun fetched same => ?_⟩
    cases same

theorem recalls_retrieve {id : String} {row : Job} (quiet : callsOf log = [])
    (loaded : ∃ moment ∈ log, loaded? id moment = some row) :
    Recalls (fun copies longer => ∃ found login, IsCopied id found login row copies longer) row.retrieve log := by
  unfold retrieve
  split
  next outputPath errorPath handle output error handled =>
    unfold place
    refine (tries_bind _ _).mpr ((tries_bind _ _).mpr ((minds_placeFor (fun _ _ _ => trivial) row.machine row.owner
      row.backendParams).mono ?_ fun _ _ _ => trivial))
    rintro ⟨found, place⟩ placed ⟨adds, login, told, same⟩
    obtain rfl : place = found.backend login row.backendParams := same
    have first := adds.mono fun _ member => Request.isQuiet_of (.inl member)
    refine (tries_bind _ _).mpr ((Service.tries_backend _).mpr ((Task.tries_ofExcept _).mpr
      ⟨fun target reached => ?_, fun _ _ => trivial⟩))
    have stages (suffix : String) : Asks Request.isQuiet (stagingFile row.id suffix) := asks_stagingFile _ _ rfl
    refine Recalls.after (stages ".out") fun localOutput halfway second => ?_
    refine Recalls.after (stages ".err") fun localError ready third => ?_
    have silent : callsOf ready = [] := by
      rw [callsOf_adds third, callsOf_adds second, callsOf_adds first, quiet]
    have included : placed ⊆ ready := List.Subset.trans second.subset third.subset
    refine (tries_bind _ _).mpr ((recalls_fetchBoth target _ _ _).mono (fun fetched last known => ?_)
      fun _ _ _ => trivial)
    obtain ⟨grown, calls⟩ := known
    cases fetched with
    | error fault =>
      refine Recalls.after (Service.asks_ask rfl : Asks Request.isQuiet _) fun _ _ _ => ?_
      exact Recalls.after (Service.asks_ask rfl : Asks Request.isQuiet _) fun _ _ _ => trivial
    | ok fetched =>
      let path (stream : Stream) : String := (stream.stored row).getD ""
      have outputLeads : path .output = outputPath := congrArg (Option.getD · "") output
      have errorLeads : path .error = errorPath := congrArg (Option.getD · "") error
      have copied : IsCopied id found login row
          { job := row.id, outputPath := localOutput, errorPath := localError } last := by
        refine ⟨?_, (told.mono included).mono grown, handle, target, path, handled, reached, ?_, ?_⟩
        · obtain ⟨moment, member, known⟩ := loaded
          exact ⟨moment, grown (included (adds.subset member)), known⟩
        · intro stream
          cases stream with
          | output => exact outputLeads ▸ output
          | error => exact errorLeads ▸ error
        · rw [calls fetched rfl, silent, ← outputLeads, ← errorLeads]
          rfl
      dsimp only
      split
      next =>
        refine Recalls.after (Service.asks_ask rfl : Asks Request.isQuiet _) fun now timed fourth => ?_
        refine Recalls.after (Service.asks_store rfl : Asks Request.isQuiet _) fun moved ended fifth => ?_
        exact ⟨found, login, (copied.adds fourth).adds fifth⟩
      next => exact ⟨found, login, copied⟩
  next => trivial

theorem recalls_output (key id : String) :
    Recalls (fun copies longer => ∃ row found login, IsCopied id found login row copies longer) (output key id) [] := by
  have ofSession (request : Request) (member : request.isOfSession = true) : request.isQuiet = true :=
    Request.isQuiet_of (.inr (.inl member))
  unfold output load
  refine Recalls.after (Session.asks_authorize key) fun caller looked adds => ?_
  have first := callsOf_adds (adds.mono ofSession)
  refine (tries_bind _ _).mpr ((tries_bind _ _).mpr ((Service.tries_store _).mpr ⟨trivial, fun row _ => ?_,
    fun _ _ => trivial⟩))
  cases row with
  | none => trivial
  | some row =>
    refine (tries_pure _).mpr ((tries_bind _ _).mpr
      ((Service.tries_ofExcept _).mpr ⟨fun _ _ => ?_, fun _ _ => trivial⟩))
    have second : Adds Request.isQuiet looked ((mindful fun _ _ => True).learn looked (.store (.findJob id))
        (.ok (some row))) := (adds_nil _ looked).snoc rfl
    refine gives_within (fun _ _ _ => trivial) key _ _ _ (fun started third => ?_) ?_
    · have silent : callsOf started = [] := by
        rw [callsOf_adds (third.mono ofSession), callsOf_adds second, first]
        rfl
      have loaded : ∃ moment ∈ started, loaded? id moment = some row :=
        ⟨_, third.subset (List.mem_append_right _ (List.mem_singleton.mpr rfl)), by simp [loaded?]⟩
      exact (recalls_retrieve silent loaded).mono (fun copies longer known => ⟨row, known⟩) fun _ _ _ => trivial
    · rintro copies longer last ⟨row, found, login, copied⟩ adds
      exact ⟨row, found, login, copied.adds (adds.mono ofSession)⟩

/-- The row that is found has the identifier that it was looked up by. -/
theorem id_of_loaded {shared next : Shared} {request : Request} {reply : request.Reply} {id : String} {row : Job}
    (served : shared.Serves request reply next)
    (loaded : loaded? id { before := (), request, reply, after := () } = some row) : row.id = id := by
  cases request with
  | store call =>
    cases call with
    | findJob other =>
      cases reply with
      | ok found =>
        obtain ⟨rfl, rfl⟩ := Option.ite_none_right_eq_some.mp loaded
        rcases Shared.serves_store served with ⟨told, -⟩ | ⟨⟨fault, never⟩, -⟩
        · have found : shared.tables.job? other = some row := (Except.ok.inj told).symm
          simpa using List.find?_some found
        · cases never
      | error fault => cases loaded
    | _ => cases loaded
  | _ => cases loaded

theorem rowsTold_of_loaded {id : String} {moment : Moment Unit} {row : Job} (loaded : loaded? id moment = some row) :
    row ∈ rowsTold moment := by
  obtain ⟨_, request, reply, _⟩ := moment
  cases request with
  | store call =>
    cases call with
    | findJob other =>
      cases reply with
      | ok found =>
        obtain ⟨-, rfl⟩ := Option.ite_none_right_eq_some.mp loaded
        simp [rowsTold, lifecycle]
      | error fault => cases loaded
    | _ => cases loaded
  | _ => cases loaded

/-- However services interleave, the row that is looked up for a job and the job that was stored are one submission. -/
theorem same_submission_of_loaded {start : Shared} {plans : List (Plan Unit)} {turns : List (Turn Shared)}
    {last : Pool Shared Unit} {reader writer : Nat} {row job : Job} (sound : start.tables.HasSoundJobs)
    (services : ∀ plan ∈ plans, IsService plan)
    (played : Pool.Plays Shared.Serves { state := start, plans } turns last)
    (loaded : ∃ moment ∈ logOf reader turns, loaded? job.id moment = some row)
    (stored : ∃ moment ∈ logOf writer turns, inserted? moment = some job) :
    ∃ known, row.IsSameSubmission known ∧ job.IsSameSubmission known := by
  obtain ⟨loading, loadingMember, loaded⟩ := loaded
  obtain ⟨inserting, insertingMember, inserted⟩ := stored
  have sameId : row.id = job.id := by
    obtain ⟨front, turn, back, rfl, rfl, rfl⟩ := mem_logOf loadingMember
    obtain ⟨_, _, -, moves⟩ := played.split
    exact id_of_loaded moves.answered loaded
  obtain ⟨loadingTurn, loadingPresent, rfl⟩ := List.mem_map.mp loadingMember
  obtain ⟨insertingTurn, insertingPresent, rfl⟩ := List.mem_map.mp insertingMember
  exact same_submission sound services played.runs (mem_of_mem_turnsOf loadingPresent)
    (mem_of_mem_turnsOf insertingPresent) (List.mem_append_left _ (rowsTold_of_loaded loaded))
    (List.mem_append_right _ (Option.mem_toList.mpr (inserted?_bare insertingTurn ▸ inserted))) sameId

/-- The same submission has the same paths. -/
theorem IsSameSubmission.stored_eq {row next : Job} (same : row.IsSameSubmission next) (stream : Stream) :
    stream.stored next = stream.stored row := by
  unfold IsSameSubmission at same
  rw [← same]
  cases stream with
  | output | error => rfl

/-- The file that is fetched, if files are fetched from a home. -/
def fetches? {Dir : Type} (tree : FileTree Dir) (home : Dir) : Action → Option (File Dir)
  | .fetch path _ => tree.file? home path.toList
  | _ => none

/-- What was brought to a front-end was started there once, at its account. -/
theorem isStart_of_brought {frontend : Batch.Frontend} {options : Options}
    (brought : (Backend.batch frontend).IsBrought options ((Backend.batch frontend).stepsOf log))
    (account : ∀ moment ∈ callsOf log, ∀ target, moment.request.account? = some target → target = frontend.target) :
    ∃ script, (log.map Moment.request).filter (Backend.batch frontend).isStart =
      [.remote frontend.target
        (.execute (frontend.scheduler.submitCommand script options) options.workingDir false)] := by
  obtain ⟨target, content, number, run, starts, steps⟩ := brought
  cases starts with
  | submission =>
    refine ⟨Script.remotePath options.workingDir number, ?_⟩
    have member : .remote target (.execute (frontend.scheduler.submitCommand
        (Script.remotePath options.workingDir number) options) options.workingDir false) ∈
        (Backend.batch frontend).stepsOf log := by
      rw [steps]
      exact List.mem_cons_of_mem _ List.mem_cons_self
    obtain ⟨present, step⟩ := List.mem_filter.mp member
    obtain ⟨moment, inside, asked⟩ := List.mem_map.mp present
    have called : moment ∈ callsOf log := List.mem_filter.mpr ⟨inside, by rw [asked]; rfl⟩
    obtain rfl := account moment called target (by rw [asked]; rfl)
    have starts (request : Request) :
        ((Backend.batch frontend).isStart request && (Backend.batch frontend).isStep request) =
          (Backend.batch frontend).isStart request := by
      cases started : (Backend.batch frontend).isStart request <;> simp [isStep, started]
    have narrowed : (log.map Moment.request).filter (Backend.batch frontend).isStart =
        ((Backend.batch frontend).stepsOf log).filter (Backend.batch frontend).isStart := by
      rw [stepsOf, List.filter_filter]
      simp only [starts]
    rw [narrowed, steps]
    rfl

/-- However services interleave, wherever the store fails and whatever the outside replies: a submission to a cluster
that comes to a job, with both paths left open, starts the job once, and a retrieval that comes to copies of that job
fetches two files, both by the same account, as long as both are told the same machine for the job and the same login
of its owner there. The files that are fetched from the login directory are those that the scheduler is told to write
by the command that starts the job, on every host and from every login directory, just for the working directories for
which they come back: none, if the identifier does not look like a path with a host; an absolute one; and one that
leads nowhere. -/
theorem outputs_come_back {start : Shared} {plans : List (Plan Unit)} {turns : List (Turn Shared)}
    {last : Pool Shared Unit} {submission retrieval : Nat} {mint : Identifier.Mint} {key reader machine script : String}
    {options : Options} {job : Job} {copies : Output} {found : Machine} {login : Option String} {config : Batch.Config}
    (sound : start.tables.HasSoundJobs) (services : ∀ plan ∈ plans, IsService plan)
    (played : Pool.Plays Shared.Serves { state := start, plans } turns last)
    (unset : ∀ stream : Stream, stream.wanted options = none)
    (submitted : (submit mint key machine script options).run.Leads (turnsOf submission turns) (.done (.ok job)))
    (retrieved : (output reader job.id).run.Leads (turnsOf retrieval turns) (.done (.ok copies)))
    (stays : ∀ place ∈ [submission, retrieval], StaysAt job found login (logOf place turns))
    (cluster : found.platform = .batch config) :
    ∃ (home : Option String) (start : Action) (fetch : Stream → Action),
      (options.workingDir = none →
        ∃ moment ∈ logOf submission turns, homeTold? job.owner job.machine moment = some home) ∧
      ((logOf submission turns).map Moment.request).filter (Backend.batch (config.frontend login)).isStart =
        [.remote (config.frontend login).target start] ∧
      ((logOf retrieval turns).map Moment.request).filter Request.isCall =
        [Stream.output, Stream.error].map (fun stream => .remote (config.frontend login).target (fetch stream)) ∧
      (∀ stream, ∃ path, fetch stream = .fetch path (stream.copied copies)) ∧
      (ComesBack job.id (options.complete job.id home).workingDir ↔
        ∀ (Dir : Type) (tree : FileTree Dir) (here place : Dir),
          tree.enters? here (options.complete job.id home).workingDir = some place →
          ∀ stream, fetches? tree here (fetch stream) = config.scheduler.writes? tree here stream start) := by
  obtain ⟨first, account, home, taken⟩ := (recalls_submit mint key machine script options).of_leads submitted
  obtain ⟨row, second, accountThen, copied⟩ := (recalls_output reader job.id).of_leads retrieved
  have batch (params : String) : found.backend login params = .batch (config.frontend login) := by
    rw [Machine.backend, cluster]
  obtain ⟨known, rowSame, jobSame⟩ := same_submission_of_loaded sound services played copied.loaded taken.stored
  obtain ⟨rowMachine, rowOwner, -, -⟩ := rowSame.place_eq
  obtain ⟨jobMachine, jobOwner, -, -⟩ := jobSame.place_eq
  have told := copied.told
  rw [← rowMachine, jobMachine, ← rowOwner, jobOwner] at told
  obtain ⟨sameFirst, sameAccount⟩ := (taken.told).eq_of_stays (stays submission (by simp)) (List.Subset.refl _)
  obtain ⟨sameSecond, sameThen⟩ := told.eq_of_stays (stays retrieval (by simp)) (List.Subset.refl _)
  subst first account second accountThen
  -- What was done for the script, and what was fetched.
  have brought := taken.brought
  obtain ⟨kept, account⟩ := taken.served _ (batch "")
  rw [batch] at brought
  obtain ⟨path, starts⟩ := isStart_of_brought brought account
  obtain ⟨handle, target, fetched, -, reached, stored, calls⟩ := copied.fetched
  rw [batch] at reached
  obtain rfl : (config.frontend login).target = target := Except.ok.inj reached
  have wanted (stream : Stream) := stream.wanted_complete job.id home (unset stream)
  have same (stream : Stream) : fetched stream = stream.path (options.complete job.id home).workingDir job.id := by
    have told := stored stream
    rw [← rowSame.stored_eq stream, jobSame.stored_eq stream, kept stream, wanted stream] at told
    exact (Option.some.inj told).symm
  refine ⟨home, _, fun stream => .fetch (withoutHost (fetched stream)) (stream.copied copies), taken.housed, starts,
    ?_, fun stream => ⟨_, rfl⟩, ?_⟩
  · rw [← calls, callsOf, List.filter_map]
    rfl
  · have writes {Dir : Type} (tree : FileTree Dir) (here : Dir) (stream : Stream) :=
      (config.frontend login).scheduler.writes?_submitCommand tree here stream path (options.complete job.id home)
        (options.complete job.id home).workingDir
    rw [comesBack_iff]
    refine forall₄_congr fun Dir tree here place => forall_congr' fun entered => forall_congr' fun stream => ?_
    have written := writes tree here stream
    rw [entered, wanted stream] at written
    change _ ↔ _ = (config.frontend login).scheduler.writes? tree here stream _
    rw [written, fetches?, same stream]
    rfl

/-- A submission to a cluster and then a retrieval, with what they come to. -/
def sampleFiles (mint : Identifier.Mint) (workingDir : Option String) (id : String) :
    Pool Shared (Except Failure Job ⊕ Except Failure Output) where
  state := sampleStart
  plans := [
    (submit mint "key" "cluster" "job.sh" { workingDir }).run.bind fun result => .done (.inl result),
    (output "key" id).run.bind fun result => .done (.inr result)]

def sampleRetrieval (mint : Identifier.Mint) (workingDir : Option String) (id : String) :
    List (Turn Shared) × Pool Shared (Except Failure Job ⊕ Except Failure Output) :=
  (sampleFiles mint workingDir id).playTurns (Shared.respond (Shared.outsideOf sampleCluster "7.1"))
    (List.replicate 30 0 ++ List.replicate 20 1)

/-- What is to be known of the ends of a sample. -/
def sampleEnds : Except Failure Job ⊕ Except Failure Output → List String
  | .inl (.ok job) => ["job", job.id, job.machine, job.owner]
  | .inr (.ok copies) => ["copies", copies.job]
  | _ => []

section Sample

variable {mint : Identifier.Mint} {workingDir : Option String} {id : String}

theorem sampleRetrieval_ends
    (ends : (sampleRetrieval mint workingDir id).2.plans.map (fun plan => plan.ended?.map sampleEnds) =
      [some ["job", id, "cluster", "alice"], some ["copies", id]]) :
    ∃ job copies, job.id = id ∧ job.machine = "cluster" ∧ job.owner = "alice" ∧
      (submit mint "key" "cluster" "job.sh" { workingDir }).run.Leads
        (turnsOf 0 (sampleRetrieval mint workingDir id).1) (.done (.ok job)) ∧
      (Job.output "key" id).run.Leads (turnsOf 1 (sampleRetrieval mint workingDir id).1) (.done (.ok copies)) := by
  have played : Pool.Plays Shared.Serves (sampleFiles mint workingDir id) (sampleRetrieval mint workingDir id).1
      (sampleRetrieval mint workingDir id).2 := Pool.plays_playTurns Shared.serves_respond _ _
  obtain ⟨first, firstStands, firstLed⟩ := played.leads (rfl : (sampleFiles mint workingDir id).plans[0]? = some _)
  obtain ⟨second, secondStands, secondLed⟩ := played.leads (rfl : (sampleFiles mint workingDir id).plans[1]? = some _)
  have ended (place : Nat) (now : Plan (Except Failure Job ⊕ Except Failure Output)) (known : Option (List String))
      (stands : (sampleRetrieval mint workingDir id).2.plans[place]? = some now)
      (told : [some ["job", id, "cluster", "alice"], some ["copies", id]][place]? = some known) :
      now.ended?.map sampleEnds = known := by
    rw [← ends, List.getElem?_map, stands] at told
    exact Option.some.inj told
  obtain ⟨firstEnd, firstOver, firstKnown⟩ := Option.map_eq_some_iff.mp (ended 0 first _ firstStands rfl)
  obtain ⟨secondEnd, secondOver, secondKnown⟩ := Option.map_eq_some_iff.mp (ended 1 second _ secondStands rfl)
  rw [eq_done_of_ended firstOver] at firstLed
  rw [eq_done_of_ended secondOver] at secondLed
  obtain ⟨submitted, submittedLed, rfl⟩ := firstLed.of_bind_done
  obtain ⟨retrieved, retrievedLed, rfl⟩ := secondLed.of_bind_done
  cases submitted with
  | error failure => cases firstKnown
  | ok job =>
    cases retrieved with
    | error failure => cases secondKnown
    | ok copies =>
      obtain ⟨rfl, there, own⟩ : job.id = id ∧ job.machine = "cluster" ∧ job.owner = "alice" := by
        simpa [sampleEnds] using firstKnown
      exact ⟨job, copies, rfl, there, own, submittedLed, retrievedLed⟩

/-- Nobody has to know what services come to. -/
theorem plays_sampleRetrieval (mint : Identifier.Mint) (workingDir : Option String) (id : String) :
    ∃ plans last, (∀ plan ∈ plans, IsService plan) ∧
      Pool.Plays Shared.Serves { state := sampleStart, plans } (sampleRetrieval mint workingDir id).1 last := by
  refine ⟨(sampleFiles mint workingDir id).plain.plans, (sampleRetrieval mint workingDir id).2.plain, ?_, ?_⟩
  · intro plan member
    have services : (sampleFiles mint workingDir id).plain.plans =
        [Call.submit mint "key" "cluster" "job.sh" { workingDir }, .output "key" id].map Call.plan := by
      simp only [Pool.plain, sampleFiles, List.map_cons, List.map_nil, Plan.bind_assoc, Plan.bind]
      rfl
    rw [services] at member
    obtain ⟨call, -, rfl⟩ := List.mem_map.mp member
    exact .call call
  · unfold sampleRetrieval
    generalize List.replicate 30 0 ++ List.replicate 20 1 = places
    have played : Pool.Plays Shared.Serves (sampleFiles mint workingDir id).plain
        ((sampleFiles mint workingDir id).plain.playTurns (Shared.respond (Shared.outsideOf sampleCluster "7.1"))
          places).1 _ := Pool.plays_playTurns Shared.serves_respond _ _
    rw [Pool.playTurns_plain] at played
    exact played

end Sample

/-- The slashes at the end of an absolute directory make no difference. -/
theorem outputs_come_back_from_work : ∃ (job : Job) (copies : Output) (start : Action) (fetch : Stream → Action),
    job.id = "J_1" ∧
    (submit {} "key" "cluster" "job.sh" { workingDir := "/work/grid//" }).run.Leads
      (turnsOf 0 (sampleRetrieval {} "/work/grid//" "J_1").1) (.done (.ok job)) ∧
    (Job.output "key" "J_1").run.Leads (turnsOf 1 (sampleRetrieval {} "/work/grid//" "J_1").1) (.done (.ok copies)) ∧
    (∀ stream, ∃ path, fetch stream = .fetch path (stream.copied copies)) ∧
    ∀ stream : Stream, fetches? namedTree sampleHome (fetch stream) =
      Batch.Scheduler.sge.writes? namedTree sampleHome stream start := by
  obtain ⟨job, copies, named, there, own, submitted, retrieved⟩ := sampleRetrieval_ends
    (by decide +kernel : (sampleRetrieval {} "/work/grid//" "J_1").2.plans.map (fun plan =>
      plan.ended?.map sampleEnds) = [some ["job", "J_1", "cluster", "alice"], some ["copies", "J_1"]])
  obtain ⟨plans, last, services, played⟩ := plays_sampleRetrieval {} "/work/grid//" "J_1"
  have stays : ∀ place ∈ [0, 1],
      StaysAt job sampleCluster none (logOf place (sampleRetrieval {} "/work/grid//" "J_1").1) := by
    have machines : ∀ place ∈ [0, 1], ∀ moment ∈ logOf place (sampleRetrieval {} "/work/grid//" "J_1").1,
        ∀ told ∈ machineTold? "cluster" moment, told = sampleCluster := by decide +kernel
    have logins : ∀ place ∈ [0, 1], ∀ moment ∈ logOf place (sampleRetrieval {} "/work/grid//" "J_1").1,
        ∀ told ∈ loginTold? "alice" "cluster" moment, told = none := by decide +kernel
    exact fun place known => ⟨there ▸ machines place known, there ▸ own ▸ logins place known⟩
  have sound : sampleStart.tables.HasSoundJobs := ⟨List.nodup_nil, by simp [sampleStart]⟩
  have retrievedJob : (Job.output "key" job.id).run.Leads (turnsOf 1 (sampleRetrieval {} "/work/grid//" "J_1").1)
      (.done (.ok copies)) := by
    rw [named]
    exact retrieved
  obtain ⟨home, start, fetch, -, -, -, aimed, comes⟩ := outputs_come_back sound services played
    (fun stream => by cases stream <;> rfl) submitted retrievedJob stays rfl
  refine ⟨job, copies, start, fetch, named, submitted, retrieved, aimed, fun stream => ?_⟩
  have absolute : ComesBack job.id (some "/work/grid//") := .absolute (by decide +kernel)
  have entered : namedTree.enters? sampleHome (some "/work/grid//") = some ["work", "grid"] := by decide +kernel
  exact comes.mp absolute _ namedTree sampleHome ["work", "grid"] entered stream

/-- A submission to a cluster and a retrieval of its job succeed, and of both streams other files are fetched than the
scheduler was told to write. -/
def FetchesOthers (mint : Identifier.Mint) (workingDir : Option String) (id : String)
    (written fetched : Stream → File (List String)) : Prop :=
  ∃ job copies, job.id = id ∧
    (submit mint "key" "cluster" "job.sh" { workingDir }).run.Leads (turnsOf 0 (sampleRetrieval mint workingDir id).1)
      (.done (.ok job)) ∧
    (Job.output "key" id).run.Leads (turnsOf 1 (sampleRetrieval mint workingDir id).1) (.done (.ok copies)) ∧
    (∀ stream, written stream ≠ fetched stream ∧
      (logOf 0 (sampleRetrieval mint workingDir id).1).filterMap (fun moment =>
        moment.request.action?.bind (Batch.Scheduler.sge.writes? namedTree sampleHome stream)) = [written stream]) ∧
    (logOf 1 (sampleRetrieval mint workingDir id).1).filterMap (fun moment =>
      moment.request.action?.bind (fetches? namedTree sampleHome)) = [fetched .output, fetched .error]

/-- A relative directory is entered before its name is followed once more, and an identifier with a colon loses what
stands before it. -/
theorem other_files_are_fetched :
    FetchesOthers {} "run" "J_1" (fun stream => ⟨["home", "alice", "run", "run"], ("J_1" ++ stream.suffix).toList⟩)
      (fun stream => ⟨["home", "alice", "run"], ("J_1" ++ stream.suffix).toList⟩) ∧
    FetchesOthers { formats := Identifier.Formats.set {} .job "a:b" } none "a:b"
      (fun stream => ⟨["home", "alice"], ("a:b" ++ stream.suffix).toList⟩)
      (fun stream => ⟨["home", "alice"], ("b" ++ stream.suffix).toList⟩) := by
  constructor
  · obtain ⟨job, copies, named, -, -, submitted, retrieved⟩ := sampleRetrieval_ends
      (by decide +kernel : (sampleRetrieval {} "run" "J_1").2.plans.map (fun plan =>
        plan.ended?.map sampleEnds) = [some ["job", "J_1", "cluster", "alice"], some ["copies", "J_1"]])
    refine ⟨job, copies, named, submitted, retrieved, fun stream => ⟨?_, ?_⟩, by decide +kernel⟩
    · cases stream with
      | output | error => decide
    · cases stream with
      | output | error => decide +kernel
  · obtain ⟨job, copies, named, -, -, submitted, retrieved⟩ := sampleRetrieval_ends
      (by decide +kernel : (sampleRetrieval { formats := Identifier.Formats.set {} .job "a:b" } none "a:b").2.plans.map
        (fun plan => plan.ended?.map sampleEnds) = [some ["job", "a:b", "cluster", "alice"], some ["copies", "a:b"]])
    refine ⟨job, copies, named, submitted, retrieved, fun stream => ⟨?_, ?_⟩, by decide +kernel⟩
    · cases stream with
      | output | error => decide
    · cases stream with
      | output | error => decide +kernel

end Job

end Dispatch
