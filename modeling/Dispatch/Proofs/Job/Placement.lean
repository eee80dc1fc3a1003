import Dispatch.Proofs.Cloud.Handover
import Dispatch.Proofs.Job.Pursuit
/-!
Where a job is submitted. A submission works at one account, and in a cloud calls the provider at one endpoint with one
session text; all that is over when the job is stored, and what the place of the job may then be asked about its handle
leads there again.
-/
namespace Dispatch

open Plan

namespace Request

/-- The account that something is done by. -/
def account? : Request → Option Shell.Target
  | remote target _ => some target
  | _ => none

/-- The endpoint that is called, with what stands for the session. -/
def endpoint? : Request → Option (String × Option Json)
  | provider endpoint _ params => some (endpoint, params.head?)
  | _ => none

def isInsertion : Request → Bool
  | store (.insertJob _) => true
  | _ => false

/-- What comes before the work of a place. -/
def isPreparation (request : Request) : Bool := !request.isCall && !request.isInsertion

theorem isPreparation_of {request : Request} (member : request.isOfPlace = true ∨ request.isOfSession = true ∨
    request.isOfMint = true) : request.isPreparation = true := by
  rw [isPreparation, isCall_eq_false member]
  cases request with
  | store call =>
    cases call with
    | insertJob => simp [isOfPlace, isOfSession, isOfMint] at member
    | _ => rfl
  | _ => rfl

end Request

variable {α : Type} {read : Request → Option α} {value : α} {log : List (Moment Unit)}

/-- What is read from the requests of a log is one and the same. -/
structure IsOnly (read : Request → Option α) (value : α) (log : List (Moment Unit)) : Prop where
  once : ∃ moment ∈ log, read moment.request = some value
  same : ∀ moment ∈ log, ∀ other, read moment.request = some other → other = value

/-- What a log has of calls of hosts and of the provider. -/
def callsOf (log : List (Moment Unit)) : List (Moment Unit) := log.filter fun moment => moment.request.isCall

theorem callsOf_append (log more : List (Moment Unit)) : callsOf (log ++ more) = callsOf log ++ callsOf more :=
  List.filter_append _ _

theorem isOnly_callsOf (calls : ∀ request value, read request = some value → request.isCall = true) :
    IsOnly read value (callsOf log) ↔ IsOnly read value log := by
  have mem {moment : Moment Unit} {other : α} (shows : read moment.request = some other) :
      moment ∈ callsOf log ↔ moment ∈ log := by simp [callsOf, calls _ _ shows]
  constructor
  · rintro ⟨⟨moment, member, shows⟩, same⟩
    exact ⟨⟨moment, (mem shows).mp member, shows⟩, fun moment member other shown =>
      same moment ((mem shown).mpr member) other shown⟩
  · rintro ⟨⟨moment, member, shows⟩, same⟩
    exact ⟨⟨moment, (mem shows).mpr member, shows⟩, fun moment member other shown =>
      same moment ((mem shown).mp member) other shown⟩

theorem findSome?_allocated_callsOf (log : List (Moment Unit)) :
    (callsOf log).findSome? Cloud.allocated? = log.findSome? Cloud.allocated? := by
  have called (moment : Moment Unit) :
      (if moment.request.isCall = true then Cloud.allocated? moment else none) = Cloud.allocated? moment := by
    obtain ⟨_, request, _, _⟩ := moment
    cases request <;> rfl
  rw [← List.head?_filterMap, ← List.head?_filterMap, callsOf, List.filterMap_filter]
  simp only [called]

/-- A request leads to where a log went: to its one account, or to its one endpoint, with its session text and about
the machine that was allocated. -/
inductive LeadsTo (log : List (Moment Unit)) : Request → Prop
  | account {target : Shell.Target} {action : Shell.Action} (only : IsOnly Request.account? target log) :
      LeadsTo log (.remote target action)
  | machine {endpoint method session : String} {vm : Int} {words : List Json}
      (only : IsOnly Request.endpoint? (endpoint, some (.string session)) log)
      (allocated : log.findSome? Cloud.allocated? = some vm) :
      LeadsTo log (.provider endpoint method (.string session :: (words ++ [.int vm])))

theorem leadsTo_callsOf {request : Request} : LeadsTo (callsOf log) request ↔ LeadsTo log request := by
  have accounts (request : Request) (target : Shell.Target) (shows : request.account? = some target) :
      request.isCall = true := by
    cases request with
    | remote => rfl
    | _ => cases shows
  have endpoints (request : Request) (called : String × Option Json) (shows : request.endpoint? = some called) :
      request.isCall = true := by
    cases request with
    | provider => rfl
    | _ => cases shows
  constructor
  · rintro (only | ⟨only, allocated⟩)
    · exact .account ((isOnly_callsOf accounts).mp only)
    · exact .machine ((isOnly_callsOf endpoints).mp only) (findSome?_allocated_callsOf log ▸ allocated)
  · rintro (only | ⟨only, allocated⟩)
    · exact .account ((isOnly_callsOf accounts).mpr only)
    · exact .machine ((isOnly_callsOf endpoints).mpr only) (findSome?_allocated_callsOf log ▸ allocated)

namespace Cloud.Config.HandsOver

variable {config : Config} {job : Handle} {vm : Int} {submitted : Job.Submitted}

/-- In a cloud a job is started by work at the account that its handle names. -/
theorem isOnly_account (handed : config.HandsOver job vm submitted log) :
    IsOnly Request.account? (config.vmTarget job.vmUser job.vmAddress) log := by
  constructor
  · obtain ⟨moment, last, launched⟩ := Option.bind_eq_some_iff.mp handed.launched.started
    refine ⟨moment, List.mem_of_getLast? last, ?_⟩
    unfold launched? at launched
    split at launched
    next => exact congrArg some (Prod.mk.inj (Option.some.inj launched)).1
    next => cases launched
  · intro moment member target shows
    have aimed := handed.launched.aimed moment member
    cases asked : moment.request with
    | remote other action =>
      rw [asked] at aimed shows
      rw [handed.launched.vmUser, ← Option.some.inj shows]
      simpa [aims] using aimed
    | _ =>
      rw [asked] at shows
      cases shows

/-- And by calls of one endpoint with one session text. -/
theorem isOnly_endpoint (handed : config.HandsOver job vm submitted log) {session : String}
    (secret : config.sessionText = .ok session) :
    IsOnly Request.endpoint? (config.endpoint, some (.string session)) log := by
  have called {moment : Moment Unit} (member : moment ∈ log) {endpoint method : String} {params : List Json}
      (asked : moment.request = .provider endpoint method params) :
      moment.request.endpoint? = some (config.endpoint, some (.string session)) := by
    have aimed := handed.launched.aimed moment member
    rw [asked] at aimed ⊢
    change config.calls (.provider endpoint method params) = true at aimed
    unfold calls at aimed
    split at aimed
    next same =>
      obtain ⟨rfl, rfl, rfl⟩ := Request.provider.inj same
      obtain ⟨rfl, known⟩ : endpoint = config.endpoint ∧ session = _ := by
        simpa [secret, Except.toOption] using aimed
      rw [known]
      rfl
    next => cases aimed
    next => cases aimed
    next other _ => exact absurd rfl (other endpoint method params)
  constructor
  · obtain ⟨moment, member, told⟩ := List.exists_of_findSome?_eq_some handed.allocated
    have calls := isCall_of_allocated told
    cases asked : moment.request with
    | provider endpoint method params => exact ⟨moment, member, called member asked⟩
    | _ =>
      rw [asked] at calls
      cases calls
  · intro moment member other shows
    cases asked : moment.request with
    | provider endpoint method params => exact Option.some.inj (shows.symm.trans (called member asked))
    | _ =>
      rw [asked] at shows
      cases shows

end Cloud.Config.HandsOver

namespace Backend

/-- A log is that of a place that started the job which it knows by that handle, with those parameters. -/
inductive HasStarted (params handle : String) : Backend → List (Moment Unit) → Prop
  | batch {frontend : Batch.Frontend} {log : List (Moment Unit)}
      (only : IsOnly Request.account? frontend.target log) : HasStarted params handle (.batch frontend) log
  | cloud {base config : Cloud.Config} {job : Cloud.Handle} {vm : Int} {submitted : Job.Submitted}
      {log : List (Moment Unit)} (settled : base.withParams params = .ok config)
      (handed : config.HandsOver job vm submitted log) (same : submitted.handle = handle) :
      HasStarted params handle (.cloud { base }) log

/-- Whatever is printed, the command was run at the front-end. -/
theorem logs_outputOf (frontend : Batch.Frontend) (command : String) (workingDir : Option String) :
    Logs (fun _ log => ∃ moment ∈ log, moment.request.account? = some frontend.target) (fun _ _ => True)
      (frontend.outputOf command workingDir) := by
  have executed : Logs (fun (_ : Shell.Outcome) log =>
      ∃ moment ∈ log, moment.request.account? = some frontend.target) (fun _ _ => True)
      (frontend.execute command workingDir) :=
    Task.logs_remote frontend.target (.execute command workingDir false)
      (fun _ => ⟨_, List.mem_singleton.mpr rfl, rfl⟩) fun _ => trivial
  unfold Batch.Frontend.outputOf
  refine executed.bind (fun _ _ _ => trivial) fun outcome log known => ?_
  split
  next => exact (logs_pure _).mpr (by rwa [List.append_nil])
  next => exact (logs_throw _).mpr trivial

/-- A front-end takes a job by work at its one account. -/
theorem logs_submit_batch (frontend : Batch.Frontend) (script : String) (options : Job.Options) :
    Logs (fun _ log => IsOnly Request.account? frontend.target log) (fun _ _ => True)
      (frontend.submit script options) := by
  let here (request : Request) : Bool := request.account?.all (· = frontend.target)
  have uploads (content path : String) (mode : Int32) :
      here (.remote frontend.target (.upload content path mode)) = true := by simp [here, Request.account?]
  have submits (path : String) : here (.remote frontend.target
      (.execute (frontend.scheduler.submitCommand path options) options.workingDir false)) = true := by
    simp [here, Request.account?]
  have reaches : Logs (fun _ log => ∃ moment ∈ log, moment.request.account? = some frontend.target)
      (fun _ _ => True) (frontend.submit script options) := by
    have grows (submitted : Job.Submitted) (front log : List (Moment Unit))
        (_ : ∀ moment ∈ front, here moment.request = true)
        (known : ∃ moment ∈ log, moment.request.account? = some frontend.target) :
        ∃ moment ∈ front ++ log, moment.request.account? = some frontend.target := by
      obtain ⟨moment, member, shows⟩ := known
      exact ⟨moment, List.mem_append_right front member, shows⟩
    unfold Batch.Frontend.submit
    refine Logs.later (Script.asks_stage _ _ rfl) grows fun text =>
      Logs.later (Script.asks_upload _ _ _ (fun _ => rfl) uploads) grows fun path => ?_
    refine (logs_outputOf frontend _ _).bind (fun _ _ _ => trivial) fun stdout log known => ?_
    have rest : Asks here (do
        let handle ← Task.ofExcept (frontend.scheduler.readSubmission stdout)
        return {
          handle
          vmId := none
          name := options.name.getD (Script.stem script)
          outputPath := options.outputPath
          errorPath := options.errorPath
          status := .submitted : Job.Submitted }) :=
      (Task.asks_ofExcept _).bind fun _ => yields_pure trivial
    refine (Yields.logs rest).mono (fun _ more _ => ?_) fun _ _ _ => trivial
    obtain ⟨moment, member, shows⟩ := known
    exact ⟨moment, List.mem_append_left more member, shows⟩
  have stays := Yields.logs (frontend.yields_submit script options (fun _ => rfl) (fun _ => rfl) uploads submits)
  refine (reaches.and stays).mono (fun _ log known => ⟨known.1, fun moment member other shows => ?_⟩)
    fun _ _ _ => trivial
  have within := known.2.2 moment member
  simpa [here, shows] using within

/-- A cloud takes a job by what a launch does, with the settings of the job. -/
theorem logs_submit_started (machine : Machine) (login : Option String) (script : String) (options : Job.Options) :
    Logs (fun submitted log => (machine.backend login "").HasStarted options.specificParams submitted.handle log)
      (fun _ _ => True) ((machine.backend login "").submit script options) := by
  unfold Machine.backend
  cases machine.platform with
  | batch config =>
    exact (logs_submit_batch (config.frontend login) script options).mono (fun _ _ only => .batch only) fun _ _ _ =>
      trivial
  | cloud base =>
    have plain : base.withParams "" = .ok base := rfl
    change Logs _ _ (Cloud.Fleet.submit { base } script options)
    rw [Cloud.Fleet.submit_eq]
    have settings : Cloud.Fleet.settings { base } options = base.withParams options.specificParams := by
      rw [Cloud.Fleet.settings, plain]
      rfl
    rw [settings]
    cases settled : base.withParams options.specificParams with
    | error fault => exact (logs_throw fault).mpr trivial
    | ok config =>
      exact (config.logs_submit_handle script options).mono
        (fun submitted log known => known.elim fun job handed => handed.elim fun vm handed => .cloud settled handed rfl)
        fun _ _ _ => trivial

/-- Wherever the place of a job is led to by the handle, the job was started there. -/
theorem HasStarted.leadsTo {machine : Machine} {login : Option String} {params handle : String} {request : Request}
    (started : (machine.backend login "").HasStarted params handle log)
    (follows : (machine.backend login params).Follows handle request) : LeadsTo log request := by
  unfold Machine.backend at started follows
  cases platform : machine.platform with
  | batch config =>
    rw [platform] at started follows
    cases started with
    | batch only =>
      cases follows with
      | command => exact .account only
  | cloud base =>
    rw [platform] at started follows
    cases started with
    | cloud settled handed same =>
      rename_i config job vm submitted
      obtain rfl : job.text = handle := handed.handle.symm.trans same
      cases follows with
      | account settledToo read action =>
        obtain rfl : config = _ := Except.ok.inj (settled.symm.trans settledToo)
        rw [handed.isOf.eq_of_read read]
        exact .account handed.isOnly_account
      | machine settledToo secret named method action =>
        obtain rfl : config = _ := Except.ok.inj (settled.symm.trans settledToo)
        rename_i session number
        have allocated : log.findSome? Cloud.allocated? = some number := by
          obtain ⟨moment, -, told⟩ := List.exists_of_findSome?_eq_some handed.allocated
          have bounds := Cloud.bounds_of_allocated told
          rw [Cloud.Handle.vmIdOf_text] at named
          cases read : Cloud.Handle.read job.text with
          | error fault =>
            rw [read] at named
            cases named
          | ok other =>
            rw [read, handed.isOf.eq_of_read read] at named
            have numbered := handed.isOf.readVmId bounds.1 bounds.2
            rw [handed.allocated, Except.ok.inj (numbered.symm.trans named)]
        exact .machine (handed.isOnly_endpoint secret) allocated

end Backend

namespace Job

/-- A job is at the place that a log tells of, and all calls of the log are those by which the place started it. -/
structure IsStartedIn (job : Job) (handle : String) (log : List (Moment Unit)) (found : Machine)
    (login : Option String) : Prop where
  told : IsTold job.machine job.owner found login log
  started : ∃ added, callsOf log = callsOf added ∧
    (found.backend login "").HasStarted job.backendParams handle added

/-- Nobody is called once a job is stored, and what is stored is where it was started. -/
def placement (log : List (Moment Unit)) : Request → Prop
  | .store (.insertJob job) =>
    ∀ handle, job.handle = some handle → ∃ found login, job.IsStartedIn handle log found login
  | request => request.isCall = true → ∀ moment ∈ log, moment.request.isInsertion = false

/-- Nothing has been done yet. -/
def IsPrepared (log : List (Moment Unit)) : Prop := ∀ moment ∈ log, moment.request.isPreparation = true

variable {longer : List (Moment Unit)} {request : Request} {allowed : Request → Bool}

theorem placement_of_preparation (prepares : request.isPreparation = true) : placement log request := by
  cases request with
  | remote | provider => cases prepares
  | store call =>
    cases call with
    | insertJob => cases prepares
    | _ => exact nofun
  | _ => exact nofun

theorem IsPrepared.adds (prepared : IsPrepared log) (adds : Adds allowed log longer)
    (included : ∀ request, allowed request = true → request.isPreparation = true) : IsPrepared longer := by
  obtain ⟨added, rfl, within⟩ := adds
  intro moment member
  exact (List.mem_append.mp member).elim (prepared moment) fun new => included _ (within moment new)

theorem IsPrepared.callsOf_append (prepared : IsPrepared log) (added : List (Moment Unit)) :
    callsOf (log ++ added) = callsOf added := by
  have none : callsOf log = [] := List.filter_eq_nil_iff.mpr fun moment member calls => by
    have prepares := prepared moment member
    rw [Request.isPreparation, calls] at prepares
    cases prepares
  rw [Dispatch.callsOf_append, none, List.nil_append]

/-- Before anything is stored, a place may be called. -/
theorem IsPrepared.outward (prepared : IsPrepared log) (adds : Adds Request.isOutward log longer)
    (member : request.isOutward = true) : placement longer request := by
  have uninserted : ∀ moment ∈ longer, moment.request.isInsertion = false := by
    obtain ⟨added, rfl, within⟩ := adds
    intro moment present
    rcases List.mem_append.mp present with earlier | new
    · have prepares := prepared moment earlier
      rw [Request.isPreparation, Bool.and_eq_true] at prepares
      simpa using prepares.2
    · have outward := within moment new
      cases asked : moment.request with
      | store => rw [asked] at outward; cases outward
      | _ => rfl
  cases request with
  | store => cases member
  | _ => exact fun _ => uninserted

theorem IsPrepared.minds_recordSubmission {job : Job} (prepared : IsPrepared log) {found : Machine}
    {login : Option String} (told : IsTold job.machine job.owner found login log) (unhandled : job.handle = none)
    {added : List (Moment Unit)} {result : Except Failure Submitted}
    (started : ∀ submitted, result = .ok submitted →
      (found.backend login "").HasStarted job.backendParams submitted.handle added) :
    Minds placement (recordSubmission job result) (log ++ added) := by
  have toldStill := told.mono (List.subset_append_left log added)
  cases result with
  | ok submitted =>
    refine (tries_bind _ _).mpr ((Service.tries_store _).mpr ⟨?_, fun _ _ => trivial, fun _ _ => trivial⟩)
    refine fun handle handled => ⟨found, login, toldStill, added, prepared.callsOf_append added, ?_⟩
    obtain rfl : submitted.handle = handle := Option.some.inj handled
    exact started submitted rfl
  | error failure =>
    have timed (longer : List (Moment Unit)) : placement longer .now := placement_of_preparation rfl
    refine (tries_bind _ _).mpr ((Service.tries_ask _).mpr ⟨timed _, fun now _ => ?_⟩)
    refine (tries_bind _ _).mpr ((Service.tries_store _).mpr ⟨fun handle handled => ?_, fun _ _ => trivial,
      fun _ _ => trivial⟩)
    rw [reject, unhandled] at handled
    cases handled

theorem IsPrepared.minds_submitFor (prepared : IsPrepared log) (mint : Identifier.Mint) (caller : Caller)
    (machine script : String) (options : Options) :
    Minds placement (submitFor mint caller machine script options) log := by
  have free (allowed : Request → Bool) (included : ∀ request, allowed request = true → request.isPreparation = true)
      (front longer : List (Moment Unit)) (request : Request) (_ : Adds allowed front longer)
      (member : allowed request = true) : placement longer request :=
    placement_of_preparation (included request member)
  have ofPlace (request : Request) (member : request.isOfPlace = true) := Request.isPreparation_of (.inl member)
  have ofMint (request : Request) (member : request.isOfMint = true) :=
    Request.isPreparation_of (.inr (.inr member))
  unfold submitFor
  rw [Minds, tries_bind]
  refine (minds_placeFor (fun _ _ member => placement_of_preparation (ofPlace _ member)) machine caller.user.id
    "").mono ?_ fun _ _ _ => trivial
  rintro ⟨found, place⟩ placed ⟨adds, login, told, same⟩
  obtain rfl : place = found.backend login "" := same
  have first := prepared.adds adds ofPlace
  refine Minds.after (mint.asks_next .job options.name _) (free _ ofMint placed) fun id minted _ adds => ?_
  have second := first.adds adds ofMint
  have toldThen := told.mono adds.subset
  refine tries_choice.mpr (Minds.after (asks_home options machine caller.user.id) (free _ ofPlace minted)
    fun home settled _ adds => ?_)
  have third := second.adds adds ofPlace
  have toldNow := toldThen.mono adds.subset
  rw [Minds, tries_bind, Service.tries_ask]
  refine ⟨placement_of_preparation (rfl : Request.isPreparation .now = true), fun submittedAt _ => ?_⟩
  -- Everything up to here was preparation, and what follows are the calls of the place.
  have timed : Adds Request.isPreparation settled ((mindful placement).learn settled .now submittedAt) :=
    (adds_nil _ settled).snoc rfl
  have ready := third.adds timed fun _ member => member
  have toldLast := toldNow.mono timed.subset
  rw [tries_bind, Service.tries_attempt, Service.tries_backend]
  refine ((Backend.logs_submit_started found login script (options.complete id home)).minds
    ((found.backend login "").yields_submit script (options.complete id home))
    fun longer request adds member => ready.outward adds member).mono ?_ ?_
  · rintro submitted _ ⟨added, rfl, started, -⟩
    exact ready.minds_recordSubmission toldLast rfl fun _ same => Except.ok.inj same ▸ started
  · rintro fault _ ⟨added, rfl, -⟩
    exact ready.minds_recordSubmission toldLast rfl (by simp)

theorem minds_submit (mint : Identifier.Mint) (key machine script : String) (options : Options) :
    (Call.submit mint key machine script options).plan.Keeps (mindful placement) (fun _ _ => True) [] := by
  have ofSession (request : Request) (member : request.isOfSession = true) :=
    Request.isPreparation_of (.inr (.inl member))
  have submits : Minds placement (submit mint key machine script options) [] := by
    unfold submit
    refine Minds.after (Session.asks_authorize key) (fun _ _ _ member => placement_of_preparation (ofSession _ member))
      fun caller looked _ adds => ?_
    have first : IsPrepared looked := IsPrepared.adds (by simp [IsPrepared]) adds ofSession
    exact minds_within (fun _ _ member => placement_of_preparation (ofSession _ member)) key _ _ _ fun started adds =>
      (first.adds adds ofSession).minds_submitFor mint caller machine script options
  exact submits.keeps

end Job

end Dispatch
