import Dispatch.Proofs.Job.Lifecycle
import Dispatch.Proofs.Plan.Turns
/-!
Work on jobs after their submission. Whoever then calls a host or the provider has looked a job up, has been told of
its machine and of the account of its owner there, and calls nothing but what these make of the handle of the job.
-/
namespace Dispatch

open Plan

/-- What goes to a host or to the provider. -/
def Request.isCall : Request → Bool
  | remote .. | provider .. => true
  | _ => false

/-- What tells which job is worked on: one is looked up, or gets a local file. -/
def Request.isNaming : Request → Bool
  | store (.findJob _) | stage .. => true
  | _ => false

theorem Request.isNaming_eq_false {request : Request}
    (other : request.isOutward = true ∨ request.isOfPlace = true ∨ request.isOfSession = true) :
    request.isNaming = false := by
  cases request with
  | store call =>
    cases call with
    | findJob => simp [isOutward, isOfPlace, isOfSession] at other
    | _ => rfl
  | stage => simp [isOutward, isOfPlace, isOfSession] at other
  | _ => rfl

theorem Request.isCall_eq_false {request : Request}
    (other : request.isOfPlace = true ∨ request.isOfSession = true ∨ request.isOfMint = true) :
    request.isCall = false := by
  cases request with
  | remote | provider => simp [isOfPlace, isOfSession, isOfMint] at other
  | _ => rfl

/-- What can be done with the files of a job is done where its place says. -/
theorem Backend.follows_of_fileTarget {place : Backend} {handle : String} {target : Shell.Target}
    (here : place.fileTarget handle = .ok target) (action : Shell.Action) :
    place.Follows handle (.remote target action) := by
  cases place with
  | batch frontend =>
    obtain rfl := Except.ok.inj here
    exact .command frontend action
  | cloud fleet =>
    change (Cloud.Handle.read handle >>= fun job => fleet.base.withParams fleet.params >>= fun config =>
      pure (config.vmTarget job.vmUser job.vmAddress)) = .ok target at here
    cases read : Cloud.Handle.read handle with
    | error fault =>
      rw [read] at here
      cases here
    | ok job =>
      rw [read] at here
      change (fleet.base.withParams fleet.params >>= fun config =>
        pure (config.vmTarget job.vmUser job.vmAddress)) = .ok target at here
      cases settled : fleet.base.withParams fleet.params with
      | error fault =>
        rw [settled] at here
        cases here
      | ok config =>
        rw [settled] at here
        obtain rfl := Except.ok.inj here
        exact .account settled read action

namespace Job

/-- The machine of that name, as it is told to be. -/
def machineTold? (id : String) : Moment Unit → Option Machine
  | ⟨_, .machine other, found, _⟩ => if other = id then found else none
  | _ => none

/-- The login of that user on that machine, as it is told; a user without an account has none. -/
def loginTold? (user machine : String) : Moment Unit → Option (Option String)
  | ⟨_, .store (.findLocalAccount owner place), .ok account, _⟩ =>
    if owner = user ∧ place = machine then some (account.map LocalAccount.login) else none
  | _ => none

/-- The jobs that a service gets to know. -/
def rowsTold {σ : Type} (moment : Moment σ) : List Job := lifecycle.learn [] moment.request moment.reply

/-- The job that is worked on from a moment on. -/
def named? : Moment Unit → Option String
  | ⟨_, .store (.findJob _), .ok found, _⟩ => found.map Job.id
  | ⟨_, .stage id _, _, _⟩ => some id
  | _ => none

/-- The job that is worked on after a log. -/
def subjectOf (log : List (Moment Unit)) : Option String := (log.filterMap named?).getLast?

/-- A place is made of what a log tells of a machine and of an account there. -/
structure IsTold (machine user : String) (found : Machine) (login : Option String) (log : List (Moment Unit)) :
    Prop where
  configured : ∃ moment ∈ log, machineTold? machine moment = some found
  account : ∃ moment ∈ log, loginTold? user machine moment = some login

/-- The job has been told of, and is the one that is worked on. -/
structure IsAttended (job : Job) (log : List (Moment Unit)) : Prop where
  told : ∃ moment ∈ log, job ∈ rowsTold moment
  subject : subjectOf log = some job.id

/-- A request pursues a job: it is what the place of the job, as a log tells of it, may be asked about its handle. -/
structure IsPursued (job : Job) (log : List (Moment Unit)) (request : Request) : Prop extends
    job.IsAttended log where
  here : ∃ found login handle, IsTold job.machine job.owner found login log ∧ job.handle = some handle ∧
    (found.backend login job.backendParams).Follows handle request

/-- Nobody is called but in pursuit of a job. -/
def pursuit (log : List (Moment Unit)) (request : Request) : Prop :=
  request.isCall = true → ∃ job, IsPursued job log request

variable {job : Job} {log longer : List (Moment Unit)} {request : Request} {allowed : Request → Bool}

theorem pursuit_of_quiet (quiet : request.isCall = false) : pursuit log request := fun calls => by
  rw [quiet] at calls
  cases calls

theorem pursuit_of_session (member : request.isOfSession = true) : pursuit log request :=
  pursuit_of_quiet (Request.isCall_eq_false (.inr (.inl member)))

theorem IsTold.mono {machine user : String} {found : Machine} {login : Option String}
    (told : IsTold machine user found login log) (included : log ⊆ longer) :
    IsTold machine user found login longer := by
  obtain ⟨⟨asked, member, known⟩, moment, present, read⟩ := told
  exact ⟨⟨asked, included member, known⟩, moment, included present, read⟩

/-- What is told of a place is remembered. -/
theorem minds_placeFor {rule : List (Moment Unit) → Request → Prop}
    (free : ∀ longer request, request.isOfPlace = true → rule longer request) (machine user params : String) :
    Tries (mindful rule)
      (fun placed longer => Adds Request.isOfPlace log longer ∧ ∃ login, IsTold machine user placed.1 login longer ∧
        placed.2 = placed.1.backend login params)
      (fun _ _ => True) (placeFor machine user params) log := by
  unfold placeFor machineOf
  rw [tries_bind, tries_bind, Service.tries_ask]
  refine ⟨free _ _ rfl, fun found _ => ?_⟩
  cases found with
  | none => trivial
  | some found =>
    rw [tries_pure, tries_bind, Service.tries_store]
    refine ⟨free _ _ rfl, fun account _ => ?_, fun _ _ => trivial⟩
    refine ⟨((adds_nil _ log).snoc rfl).snoc rfl, account.map LocalAccount.login, ⟨?_, ?_⟩, rfl⟩
    · exact ⟨_, List.mem_append_left _ (List.mem_append_right _ (List.mem_singleton.mpr rfl)), by simp [machineTold?]⟩
    · exact ⟨_, List.mem_append_right _ (List.mem_singleton.mpr rfl), by simp [loginTold?]⟩

/-- The history of a session stands around a command: what the command gives is given in the end, if the history does
no harm to it. -/
theorem gives_within {α : Type} {rule : List (Moment Unit) → Request → Prop}
    (free : ∀ longer request, request.isOfSession = true → rule longer request)
    {gives : α → List (Moment Unit) → Prop} {command : Service α} (key description : String)
    (category : History.Category) (object : α → Option String)
    (tried : ∀ longer, Adds Request.isOfSession log longer →
      Tries (mindful rule) gives (fun _ _ => True) command longer)
    (kept : ∀ value longer last, gives value longer → Adds Request.isOfSession longer last → gives value last) :
    Tries (mindful rule) gives (fun _ _ => True) (Session.within key description category object command) log := by
  have recorded (result : Except Failure α) (longer : List (Moment Unit))
      (given : ∀ value, result = .ok value → gives value longer) :
      Tries (mindful rule) gives (fun _ _ => True) (do
        Session.record key description category (History.Status.ofResult result) (result.toOption.bind object)
        Service.ofExcept result) longer := by
    refine (tries_bind _ _).mpr (((Session.asks_record _ _ _ _ _).minds fun _ _ _ member => free _ _ member).mono
      (fun _ last known => (Service.tries_ofExcept result).mpr ⟨fun value same => ?_, fun _ _ => trivial⟩)
      fun _ _ _ => trivial)
    exact kept value longer last (given value same) known.2
  unfold Session.within
  refine (tries_bind _ _).mpr (((Session.asks_startCommand key description category).minds
    fun _ _ _ member => free _ _ member).mono (fun _ started known => ?_) fun _ _ _ => trivial)
  refine (tries_bind _ _).mpr ((Service.tries_attempt command).mpr ((tried started known.2).mono ?_ ?_))
  · exact fun value longer given => recorded (.ok value) longer fun other same => Except.ok.inj same ▸ given
  · exact fun cause longer _ => recorded (.error cause) longer nofun

/-- The gate and the history of a session mind what does not concern sessions. -/
theorem minds_within {α : Type} {rule : List (Moment Unit) → Request → Prop}
    (free : ∀ longer request, request.isOfSession = true → rule longer request) {command : Service α}
    (key description : String) (category : History.Category) (object : α → Option String)
    (minds : ∀ longer, Adds Request.isOfSession log longer → Minds rule command longer) :
    Minds rule (Session.within key description category object command) log :=
  gives_within free key description category object minds fun _ _ _ _ _ => trivial

theorem subjectOf_snoc (moment : Moment Unit) :
    subjectOf (log ++ [moment]) = (named? moment).or (subjectOf log) := by
  cases names : named? moment <;> simp [subjectOf, List.filterMap_append, names]

theorem named?_eq_none {moment : Moment Unit} (other : moment.request.isNaming = false) : named? moment = none := by
  obtain ⟨_, request, _, _⟩ := moment
  cases request with
  | store call =>
    cases call with
    | findJob => cases other
    | _ => rfl
  | stage => cases other
  | _ => rfl

/-- Whoever works on a job goes on to do so until another one is named. -/
theorem IsAttended.adds (attended : IsAttended job log) (adds : Adds allowed log longer)
    (silent : ∀ request, allowed request = true → request.isNaming = false) : IsAttended job longer := by
  obtain ⟨moment, member, told⟩ := attended.told
  refine ⟨⟨moment, adds.subset member, told⟩, ?_⟩
  obtain ⟨added, rfl, within⟩ := adds
  have unnamed : added.filterMap named? = [] := List.filterMap_eq_nil_iff.mpr fun moment member =>
    named?_eq_none (silent moment.request (within moment member))
  rw [subjectOf, List.filterMap_append, unnamed, List.append_nil]
  exact attended.subject

/-- Work at the place of a job, and then the rest. -/
theorem IsAttended.minds {α β : Type} (attended : IsAttended job log) {found : Machine} {login : Option String}
    {handle : String} (told : IsTold job.machine job.owner found login log) (handled : job.handle = some handle)
    {expected : α → Prop} {service : Service α} {rest : α → Service β}
    (yields : ∀ allowed : Request → Bool,
      (∀ request, (found.backend login job.backendParams).Follows handle request → allowed request = true) →
      Yields allowed expected service)
    (next : ∀ value longer, IsAttended job longer → Minds pursuit (rest value) longer) :
    Minds pursuit (service >>= rest) log := by
  classical
  let follows (request : Request) : Bool := decide ((found.backend login job.backendParams).Follows handle request)
  have silent (request : Request) (member : follows request = true) : request.isNaming = false :=
    Request.isNaming_eq_false (.inl (Request.isOutward_of_follows (of_decide_eq_true member)))
  refine Minds.after (yields follows fun _ => decide_eq_true) (fun longer request adds member _ => ?_)
    fun value longer _ adds => next value longer (attended.adds adds silent)
  exact ⟨job, attended.adds adds silent, found, login, handle, told.mono adds.subset, handled,
    of_decide_eq_true member⟩

/-- What is told of its place names no other job. -/
theorem IsAttended.placed (attended : IsAttended job log) (adds : Adds Request.isOfPlace log longer) :
    IsAttended job longer :=
  attended.adds adds fun _ member => Request.isNaming_eq_false (.inr (.inl member))

/-- The place of a job, and then the rest. -/
theorem minds_place {α : Type} (job : Job) {rest : Backend → Service α}
    (next : ∀ found login longer, Adds Request.isOfPlace log longer → IsTold job.machine job.owner found login longer →
      Minds pursuit (rest (found.backend login job.backendParams)) longer) :
    Minds pursuit (job.place >>= rest) log := by
  unfold place
  rw [Minds, tries_bind, tries_bind]
  have free (longer : List (Moment Unit)) (request : Request) (member : request.isOfPlace = true) :
      pursuit longer request := pursuit_of_quiet (Request.isCall_eq_false (.inl member))
  refine (minds_placeFor free job.machine job.owner job.backendParams).mono (fun placed longer known => ?_)
    fun _ _ _ => trivial
  obtain ⟨adds, login, told, same⟩ := known
  rw [same]
  exact next placed.1 login longer adds told

theorem minds_load {α : Type} (id : String) {rest : Job → Service α}
    (next : ∀ job longer, IsAttended job longer → Minds pursuit (rest job) longer) :
    Minds pursuit (load id >>= rest) log := by
  unfold load
  rw [Minds, tries_bind, tries_bind, Service.tries_store]
  refine ⟨pursuit_of_quiet rfl, fun found _ => ?_, fun _ _ => trivial⟩
  cases found with
  | none => trivial
  | some job =>
    refine next job _ ⟨⟨_, List.mem_append_right _ (List.mem_singleton.mpr rfl), ?_⟩, ?_⟩
    · simp [rowsTold, lifecycle]
    · exact subjectOf_snoc _

/-- A job is moved on after all that was done at its place. -/
theorem minds_transition {α : Type} (id : String) (status : Status) (result : α) :
    Minds pursuit (do
      let now ← Service.ask .now
      let _ ← Service.store (.transitionJob id status now)
      return result) log := by
  rw [Minds, tries_bind, Service.tries_ask]
  refine ⟨pursuit_of_quiet rfl, fun now _ => ?_⟩
  rw [tries_bind, Service.tries_store]
  exact ⟨pursuit_of_quiet rfl, fun _ _ => trivial, fun _ _ => trivial⟩

theorem IsAttended.minds_observe (attended : IsAttended job log) : Minds pursuit job.observe log := by
  unfold observe
  split
  next => trivial
  next handle handled =>
    refine minds_place job fun found login longer adds told => ?_
    refine (attended.placed adds).minds told handled (fun allowed follows => Service.yields_backend
      ((found.backend login job.backendParams).yields_status handle follows)) fun observed last _ => ?_
    rw [Minds, tries_bind, Service.tries_ask]
    exact ⟨pursuit_of_quiet rfl, fun now _ => (Service.tries_store _).mpr
      ⟨pursuit_of_quiet rfl, fun _ _ => trivial, fun _ _ => trivial⟩⟩

theorem IsAttended.minds_cancelAtPlace (attended : IsAttended job log) : Minds pursuit job.cancelAtPlace log := by
  unfold cancelAtPlace
  split
  next => exact minds_transition job.id .cancelled ()
  next handle handled =>
    refine minds_place job fun found login placed adds told => ?_
    have ends (allowed : Request → Bool) (follows : ∀ request,
        (found.backend login job.backendParams).Follows handle request → allowed request = true) :
        Asks allowed (Service.backend ((found.backend login job.backendParams).cancel handle)) :=
      Service.asks_backend (Backend.asks_cancel _ handle fun request cancels => follows request cancels.follows)
    exact (attended.placed adds).minds told handled ends fun _ last _ =>
      minds_transition job.id .cancelled ()

theorem minds_refresh (id : String) : Minds pursuit (refresh id) log := by
  unfold refresh
  refine minds_load id fun job longer attended => ?_
  split
  next => trivial
  next =>
    rw [Minds, tries_bind, Service.tries_ask]
    refine ⟨pursuit_of_quiet rfl, fun granted _ => ?_⟩
    split
    next =>
      have silent (request : Request) (member : (!request.isNaming) = true) : request.isNaming = false := by
        simpa using member
      refine (attended.adds (.snoc (adds_nil _ longer) rfl) silent).minds_observe.attempt fun result last _ => ?_
      rw [Minds, tries_bind]
      exact (Service.tries_ask _).mpr ⟨pursuit_of_quiet rfl, fun _ _ => (Service.tries_ofExcept result).mpr
        ⟨fun _ _ => trivial, fun _ _ => trivial⟩⟩
    next => trivial

theorem minds_refreshAll (jobs : List Job) : Minds pursuit (refreshAll jobs) log := by
  induction jobs generalizing log with
  | nil => trivial
  | cons job rest ih =>
    unfold refreshAll
    exact (minds_refresh job.id).attempt fun _ _ _ => ih.bind fun _ _ _ => trivial

theorem minds_monitor : Minds pursuit monitor log := by
  unfold monitor
  rw [Minds, tries_bind, Service.tries_store]
  exact ⟨pursuit_of_quiet rfl, fun jobs _ => minds_refreshAll jobs, fun _ _ => trivial⟩

/-- A session is looked at, and then a job. -/
theorem minds_authorize {α : Type} (key : String) {rest : Caller → Service α}
    (next : ∀ caller longer, Minds pursuit (rest caller) longer) :
    Minds pursuit (Session.authorize key >>= rest) log :=
  Minds.after (Session.asks_authorize key) (fun _ _ _ => pursuit_of_session) fun caller longer _ _ =>
    next caller longer

theorem minds_cancel (key id : String) : Minds pursuit (cancel key id) log := by
  unfold cancel
  refine minds_authorize key fun caller _ => minds_load id fun job longer attended => ?_
  rw [Minds, tries_bind, Service.tries_ofExcept]
  refine ⟨fun _ _ => ?_, fun _ _ => trivial⟩
  split
  next => trivial
  next =>
    exact minds_within (fun _ _ => pursuit_of_session) key _ _ _ fun started adds =>
      (attended.adds adds fun _ member => Request.isNaming_eq_false (.inr (.inr member))).minds_cancelAtPlace

theorem minds_startTime (key id : String) : Minds pursuit (startTime key id) log := by
  unfold startTime
  refine minds_authorize key fun caller _ => minds_load id fun job longer attended => ?_
  rw [Minds, tries_bind, Service.tries_ofExcept]
  refine ⟨fun _ _ => ?_, fun _ _ => trivial⟩
  split
  next => trivial
  next => trivial
  next handle _ handled =>
    refine minds_place job fun found login placed adds told => ?_
    have minds := (attended.placed adds).minds told handled (fun allowed follows => Service.asks_backend
      ((found.backend login job.backendParams).asks_startTime_follows handle follows))
      fun value last _ => (tries_pure value).mpr trivial
    rwa [bind_pure] at minds

/-- A local file for a job names the job. -/
theorem minds_stagingFile {α : Type} (told : ∃ moment ∈ log, job ∈ rowsTold moment) (suffix : String)
    {rest : String → Service α}
    (next : ∀ path longer, log <+: longer → IsAttended job longer → Minds pursuit (rest path) longer) :
    Minds pursuit (stagingFile job.id suffix >>= rest) log := by
  unfold stagingFile
  rw [Minds, tries_bind, tries_bind, Service.tries_ask]
  refine ⟨pursuit_of_quiet rfl, fun reply _ => ?_⟩
  cases reply with
  | error cause => trivial
  | ok path =>
    obtain ⟨moment, member, known⟩ := told
    exact next path _ (List.prefix_append _ _) ⟨⟨moment, List.mem_append_left _ member, known⟩, subjectOf_snoc _⟩

theorem minds_retrieve (told : ∃ moment ∈ log, job ∈ rowsTold moment) : Minds pursuit job.retrieve log := by
  unfold retrieve
  split
  next outputPath errorPath handle _ _ handled =>
    refine minds_place job fun found login placed adds here => ?_
    rw [Minds, tries_bind, Service.tries_backend, Backend.Task.tries_ofExcept]
    refine ⟨fun target reached => ?_, fun _ _ => trivial⟩
    obtain ⟨moment, member, known⟩ := told
    refine minds_stagingFile ⟨moment, adds.subset member, known⟩ ".out" fun localOutput halfway grown attended => ?_
    refine minds_stagingFile attended.told ".err" fun localError ready grownMore staged => ?_
    have there := (here.mono grown.subset).mono grownMore.subset
    refine staged.minds there handled (fun allowed follows => asks_fetchBoth target _ _ _ fun path copy =>
      follows _ (Backend.follows_of_fileTarget reached _)) fun fetched last _ => ?_
    split
    next fault => exact ⟨pursuit_of_quiet rfl, fun _ _ => ⟨pursuit_of_quiet rfl, fun _ _ => trivial⟩⟩
    next =>
      split
      next => exact minds_transition job.id .downloaded _
      next => trivial
  next => trivial

theorem minds_retrieveAll {jobs : List Job} (told : ∀ job ∈ jobs, ∃ moment ∈ log, job ∈ rowsTold moment) :
    Minds pursuit (retrieveAll jobs) log := by
  induction jobs generalizing log with
  | nil => trivial
  | cons job rest ih =>
    unfold retrieveAll
    refine (minds_retrieve (told job List.mem_cons_self)).attempt fun result longer grown => ?_
    have later : Minds pursuit (retrieveAll rest) longer := ih fun other member => by
      obtain ⟨moment, present, known⟩ := told other (List.mem_cons_of_mem job member)
      exact ⟨moment, grown.subset present, known⟩
    exact later.bind fun _ _ _ => trivial

theorem minds_output (key id : String) : Minds pursuit (output key id) log := by
  unfold output
  refine minds_authorize key fun caller _ => minds_load id fun job longer attended => ?_
  rw [Minds, tries_bind, Service.tries_ofExcept]
  refine ⟨fun _ _ => ?_, fun _ _ => trivial⟩
  exact minds_within (fun _ _ => pursuit_of_session) key _ _ _ fun started adds =>
    minds_retrieve (attended.adds adds fun _ member => Request.isNaming_eq_false (.inr (.inr member))).told

theorem minds_outputs (key : String) : Minds pursuit (outputs key) log := by
  unfold outputs
  refine minds_authorize key fun caller _ => ?_
  refine Minds.after (Session.asks_startCommand key _ _) (fun _ _ _ => pursuit_of_session) fun _ started _ _ => ?_
  rw [Minds, tries_bind, Service.tries_store]
  refine ⟨pursuit_of_quiet rfl, fun jobs _ => ?_, fun _ _ => trivial⟩
  have told : ∀ job ∈ jobs.filter hasFiles, ∃ moment ∈ (mindful pursuit).learn started
      (.store (.jobsOf caller.user.id)) (.ok jobs), job ∈ rowsTold moment := by
    intro job member
    refine ⟨_, List.mem_append_right _ (List.mem_singleton.mpr rfl), ?_⟩
    simpa [rowsTold, lifecycle] using (List.mem_filter.mp member).1
  refine (minds_retrieveAll told).bind fun found last _ => ?_
  exact Minds.after (Session.asks_record _ _ _ _ _) (fun _ _ _ => pursuit_of_session) fun _ _ _ _ => trivial

/-- What is called for a job after its submission, by whom ever, with anything that is answered left aside. -/
inductive IsFollowUp : Plan Unit → Prop
  | refresh (id : String) : IsFollowUp (Call.refresh id).plan
  | monitor : IsFollowUp Call.monitor.plan
  | cancel (key id : String) : IsFollowUp (Call.cancel key id).plan
  | startTime (key id : String) : IsFollowUp (do let _ ← (Job.startTime key id).run)
  | output (key id : String) : IsFollowUp (Call.output key id).plan
  | outputs (key : String) : IsFollowUp (Call.outputs key).plan

theorem IsFollowUp.minds {plan : Plan Unit} (follows : IsFollowUp plan) :
    plan.Keeps (mindful pursuit) (fun _ _ => True) [] := by
  cases follows with
  | refresh id => exact (minds_refresh id).keeps
  | monitor => exact minds_monitor.keeps
  | cancel key id => exact (minds_cancel key id).keeps
  | startTime key id => exact (minds_startTime key id).keeps
  | output key id => exact (minds_output key id).keeps
  | outputs key => exact (minds_outputs key).keeps

end Job

end Dispatch
