import Dispatch.Backend.Place
import Dispatch.Proofs.Cloud.Handle
import Dispatch.Proofs.Plan.Footprint
/-!
What the places where jobs run ask for: nothing but remote work, calls of the provider, pauses, files and
numbers. Beside that, a submission never answers anything but a submitted job, and no place ever says that a
job has been downloaded. Little of what is asked for ends a job or copies a file, and each part of the work is told
apart by that.
-/
namespace Dispatch

open Plan

/-- Whether a command is to end a job, which the commands of schedulers tell by their first word. -/
def Batch.Scheduler.isCancellation (command : String) : Bool :=
  ["scancel ", "qdel "].any fun word => word.toList.isPrefixOf command.toList

/-- How a place ends the job that it knows by that handle. -/
inductive Backend.IsCancelledBy (handle : String) : Backend → Request → Prop
  | command (frontend : Batch.Frontend) : IsCancelledBy handle (.batch frontend)
      (.remote frontend.target (.execute (frontend.scheduler.cancelCommand handle) none false))
  | deletion {fleet : Cloud.Fleet} {config : Cloud.Config} {session : String} {vm : Int}
      (settled : fleet.base.withParams fleet.params = .ok config) (secret : config.sessionText = .ok session)
      (named : Cloud.vmIdOf handle = .ok vm) : IsCancelledBy handle (.cloud fleet)
        (.provider config.endpoint Cloud.actionMethod
          [.string session, .string Cloud.Config.VmAction.delete.name, .int vm])

/-- What a place may be asked about the job that it knows by that handle, or to do with it: anything at the front-end
of a cluster; in a cloud anything as the account of the job on its machine, and calls of the provider about this
machine. -/
inductive Backend.Follows (handle : String) : Backend → Request → Prop
  | command (frontend : Batch.Frontend) (action : Shell.Action) :
      Follows handle (.batch frontend) (.remote frontend.target action)
  | account {fleet : Cloud.Fleet} {config : Cloud.Config} {job : Cloud.Handle}
      (settled : fleet.base.withParams fleet.params = .ok config) (read : Cloud.Handle.read handle = .ok job)
      (action : Shell.Action) :
      Follows handle (.cloud fleet) (.remote (config.vmTarget job.vmUser job.vmAddress) action)
  | machine {fleet : Cloud.Fleet} {config : Cloud.Config} {session : String} {vm : Int}
      (settled : fleet.base.withParams fleet.params = .ok config) (secret : config.sessionText = .ok session)
      (named : Cloud.vmIdOf handle = .ok vm) (method : String) (action : Option String) :
      Follows handle (.cloud fleet)
        (.provider config.endpoint method (.string session :: ((action.map Json.string).toList ++ [.int vm])))

theorem Backend.IsCancelledBy.follows {place : Backend} {handle : String} {request : Request}
    (cancels : place.IsCancelledBy handle request) : place.Follows handle request := by
  cases cancels with
  | command frontend => exact .command frontend _
  | deletion settled secret named => exact .machine settled secret named _ (some _)

namespace Request

/-- A file that is put on a host. -/
def isUpload : Request → Bool
  | remote _ (.upload ..) => true
  | _ => false

/-- What is done to jobs at their places: a command that ends one, an action on a machine, a file that is copied to
a host or from it. -/
def isIntervention : Request → Bool
  | remote _ (.execute command _ _) => Batch.Scheduler.isCancellation command
  | remote _ (.fetch ..) | remote _ (.upload ..) => true
  | provider _ method _ => method == Cloud.actionMethod
  | _ => false

/-- What a place is asked for without anything being done to a job there. -/
def isHarmless (request : Request) : Bool := request.isOutward && !request.isIntervention

/-- What it takes to bring a job to a place. -/
def isErrand (request : Request) : Bool := request.isHarmless || request.isUpload

theorem isOutward_of_isHarmless {request : Request} (member : request.isHarmless = true) :
    request.isOutward = true := by
  rw [isHarmless, Bool.and_eq_true] at member
  exact member.1

theorem isErrand_of_isHarmless {request : Request} (member : request.isHarmless = true) :
    request.isErrand = true := by
  rw [isErrand, member, Bool.true_or]

theorem isOutward_of_isErrand {request : Request} (member : request.isErrand = true) :
    request.isOutward = true := by
  rw [isErrand, Bool.or_eq_true] at member
  rcases member with harmless | uploads
  · exact isOutward_of_isHarmless harmless
  · cases request with
    | remote => rfl
    | _ => cases uploads

theorem isOutward_of_isCancelledBy {place : Backend} {handle : String} {request : Request}
    (cancels : place.IsCancelledBy handle request) : request.isOutward = true := by
  cases cancels with
  | command => rfl
  | deletion => rfl

theorem isOutward_of_follows {place : Backend} {handle : String} {request : Request}
    (follows : place.Follows handle request) : request.isOutward = true := by
  cases follows with
  | command | account | machine => rfl

theorem isHarmless_execute {target : Shell.Target} {command : String} {workingDir : Option String} {background : Bool}
    (other : Batch.Scheduler.isCancellation command = false) :
    isHarmless (.remote target (.execute command workingDir background)) = true := by
  simp [isHarmless, isOutward, isIntervention, other]

theorem isHarmless_provider {endpoint method : String} {params : List Json} (other : method ≠ Cloud.actionMethod) :
    isHarmless (.provider endpoint method params) = true := by
  simp [isHarmless, isOutward, isIntervention, other]

end Request

variable {allowed : Request → Bool}

namespace Script

theorem asks_stage (path : String) (meaning : Meaning) (reads : allowed (.readFile path) = true) :
    Asks allowed (stage path meaning) := by
  unfold stage
  refine (Backend.Task.asks_ask reads).bind fun reply => ?_
  cases reply with
  | ok script => exact yields_pure trivial
  | error cause => exact yields_throw _

theorem delivers_stage (path : String) (meaning : Meaning) : Asks Request.isDelivery (stage path meaning) :=
  asks_stage path meaning rfl

theorem asks_upload (target : Shell.Target) (workingDir : Option String) (script : String)
    (numbers : ∀ limit, allowed (.number limit) = true)
    (uploads : ∀ content path mode, allowed (.remote target (.upload content path mode)) = true) :
    Asks allowed (upload target workingDir script) :=
  (Backend.Task.asks_ask (numbers _)).bind fun _ => (Backend.Task.asks_remote (uploads _ _ _)).bind fun _ =>
    yields_pure trivial

theorem delivers_upload (target : Shell.Target) (workingDir : Option String) (script : String) :
    Asks Request.isDelivery (upload target workingDir script) :=
  asks_upload target workingDir script (fun _ => rfl) fun _ _ _ => rfl

end Script

namespace Cloud.Config

theorem asks_call (config : Config) (method : String) (params : List Json)
    (calls : ∀ session, config.sessionText = .ok session →
      allowed (.provider config.endpoint method (.string session :: params)) = true) :
    Asks allowed (config.call method params) := by
  refine (Backend.Task.yields_ofExcept fun _ => id).bind fun session known => ?_
  refine (Backend.Task.asks_ask (calls session known)).bind fun reply => ?_
  cases reply with
  | ok answer => exact Backend.Task.asks_ofExcept _
  | error fault => exact yields_throw fault

theorem asks_allocate (config : Config) (template : String)
    (calls : ∀ session, config.sessionText = .ok session → allowed (.provider config.endpoint allocateMethod
      [.string session, .string template, .bool false]) = true) :
    Asks allowed (config.allocate template) := by
  refine (asks_call config allocateMethod _ calls).bind fun allocated => ?_
  cases vmNumber? allocated with
  | some vm => exact yields_pure trivial
  | none => exact yields_throw _

theorem asks_progress (config : Config) (vm : Int)
    (calls : ∀ session, config.sessionText = .ok session →
      allowed (.provider config.endpoint infoMethod [.string session, .int vm]) = true) :
    Asks allowed (config.progress vm) := by
  unfold progress
  refine (asks_call config infoMethod _ calls).bind fun answer => ?_
  split
  next => exact yields_pure trivial
  next => exact yields_throw _

theorem asks_act (config : Config) (action : VmAction) (vm : Int)
    (acts : ∀ session, config.sessionText = .ok session → allowed (.provider config.endpoint actionMethod
      [.string session, .string action.name, .int vm]) = true) :
    Asks allowed (config.act action vm) :=
  (asks_call config actionMethod _ acts).bind fun _ => yields_pure trivial

theorem asks_awaitAddress (config : Config) (vm : Int) (left : Nat)
    (calls : ∀ session, config.sessionText = .ok session →
      allowed (.provider config.endpoint infoMethod [.string session, .int vm]) = true)
    (pauses : allowed (.pause config.pollMillis) = true) :
    Asks allowed (config.awaitAddress vm left) := by
  induction left with
  | zero => exact yields_throw _
  | succ left ih =>
    unfold awaitAddress
    refine (asks_progress config vm calls).bind fun progress => ?_
    refine yields_guard fun _ => ?_
    split
    next => exact yields_pure trivial
    next => exact (Backend.Task.asks_ask pauses).bind fun _ => ih

theorem asks_isReachable (target : Shell.Target)
    (probes : allowed (.remote target (.execute "true" none false)) = true) :
    Asks allowed (isReachable target) := by
  unfold isReachable
  refine (Backend.Task.asks_ask probes).bind fun reply => ?_
  split
  next => exact yields_pure trivial
  next => exact yields_pure trivial
  next => exact yields_pure trivial

theorem asks_awaitShell (config : Config) (target : Shell.Target) (left : Nat)
    (probes : allowed (.remote target (.execute "true" none false)) = true)
    (pauses : allowed (.pause config.pollMillis) = true) :
    Asks allowed (config.awaitShell target left) := by
  induction left with
  | zero => exact yields_throw _
  | succ left ih =>
    unfold awaitShell
    refine (asks_isReachable target probes).bind fun reachable => ?_
    split
    next => exact yields_pure trivial
    next => exact (Backend.Task.asks_ask pauses).bind fun _ => ih

/-- Mounting a directory is not taken for a probe. -/
theorem mountCommand_ne_true (config : Config) : config.mountCommand ≠ "true" := by
  intro same
  have first := congrArg (fun text => text.toList.head?) same
  simp [mountCommand, String.toList_append, toString] at first

theorem asks_mount (config : Config) (target : Shell.Target)
    (mounts : allowed (.remote target (.execute config.mountCommand none false)) = true) :
    Asks allowed (config.mount target) := by
  unfold mount
  split
  next =>
    refine (Backend.Task.asks_remote mounts).bind fun outcome => ?_
    split
    next => exact yields_pure trivial
    next => exact yields_throw _
  next => exact yields_pure trivial

theorem delivers_mount (config : Config) (target : Shell.Target) :
    Asks Request.isDelivery (config.mount target) :=
  asks_mount config target
    (by simp [Request.isDelivery, Request.isRemote, Request.isShellProbe, mountCommand_ne_true config])

theorem isCancellation_mountCommand (config : Config) :
    Batch.Scheduler.isCancellation config.mountCommand = false := by
  simp [Batch.Scheduler.isCancellation, mountCommand, toString, List.isPrefixOf]

theorem isCancellation_launchCommand (script outputPath errorPath : String) :
    Batch.Scheduler.isCancellation (launchCommand script outputPath errorPath) = false := by
  simp [Batch.Scheduler.isCancellation, launchCommand, Shell.quote, onChars, Shell.quoteChars, toString,
    List.isPrefixOf]

theorem yields_launch (config : Config) (vm : Int) (script : String) (options : Job.Options) :
    Yields Request.isErrand (fun submitted => submitted.status = .submitted)
      (config.launch vm script options) := by
  have mounts (target : Shell.Target) :
      Request.isErrand (.remote target (.execute config.mountCommand none false)) = true :=
    Request.isErrand_of_isHarmless (Request.isHarmless_execute (isCancellation_mountCommand config))
  have launches (target : Shell.Target) (path outputPath errorPath : String) :
      Request.isErrand (.remote target
        (.execute (launchCommand path outputPath errorPath) options.workingDir true)) = true :=
    Request.isErrand_of_isHarmless (Request.isHarmless_execute (isCancellation_launchCommand _ _ _))
  have informs (session : String) (_ : config.sessionText = .ok session) :
      Request.isErrand (.provider config.endpoint infoMethod [.string session, .int vm]) = true :=
    Request.isErrand_of_isHarmless (Request.isHarmless_provider (by decide))
  have probes (target : Shell.Target) : Request.isErrand (.remote target (.execute "true" none false)) = true :=
    Request.isErrand_of_isHarmless (Request.isHarmless_execute (by decide +kernel))
  unfold launch
  refine (asks_awaitAddress config vm _ informs rfl).bind fun address =>
    (asks_awaitShell config _ _ (probes _) rfl).bind fun _ => (asks_mount config _ (mounts _)).bind fun _ =>
    (Script.asks_upload _ _ _ (fun _ => rfl) fun _ _ _ => rfl).bind fun path =>
    (Backend.Task.asks_remote (launches _ _ _ _)).bind fun outcome => ?_
  split
  next => exact yields_throw _
  next => exact yields_pure rfl

/-- Whether the launch succeeds or the machine is deleted after it. -/
theorem yields_submit (config : Config) (script : String) (options : Job.Options) :
    Yields Request.isOutward (fun submitted => submitted.status = .submitted)
      (config.submit script options) := by
  have launches (vm : Int) (text : String) :
      Yields Request.isOutward (fun submitted => submitted.status = .submitted) (config.launch vm text options) :=
    (yields_launch config vm text options).mono fun _ => Request.isOutward_of_isErrand
  unfold submit
  refine yields_guard fun _ => (Backend.Task.asks_ofExcept _).bind fun description =>
    (Script.asks_stage _ _ rfl).bind fun text => (asks_allocate config _ fun _ _ => rfl).bind fun vm =>
    (Backend.Task.yields_attempt (launches vm text)).bind fun launched expected => ?_
  cases launched with
  | ok submitted => exact yields_pure (expected submitted rfl)
  | error fault =>
    exact (Backend.Task.asks_attempt (asks_act config .delete vm fun _ _ => rfl)).bind fun _ => yields_throw fault

end Cloud.Config

namespace Cloud.Fleet

theorem asks_config (fleet : Fleet) : Asks allowed fleet.config := Backend.Task.asks_ofExcept _

theorem yields_submit (fleet : Fleet) (script : String) (options : Job.Options) :
    Yields Request.isOutward (fun submitted => submitted.status = .submitted) (fleet.submit script options) :=
  (asks_config fleet).bind fun _ => (Backend.Task.asks_ofExcept _).bind fun config =>
    Config.yields_submit config script options

theorem yields_status (fleet : Fleet) (handle : String)
    (follows : ∀ request, (Backend.cloud fleet).Follows handle request → allowed request = true) :
    Yields allowed (fun status => status = .running ∨ status = .completed) (fleet.status handle) := by
  unfold status
  refine (Backend.Task.yields_ofExcept fun _ => id).bind fun job read => ?_
  refine (Backend.Task.yields_ofExcept fun _ => id).bind fun vm number => ?_
  refine (Backend.Task.yields_ofExcept fun _ => id).bind fun config settled => ?_
  refine (Backend.Task.asks_remote (follows _ (.account settled read _))).bind fun outcome => ?_
  have named : vmIdOf handle = .ok vm := (vmIdOf_of_read read).trans number
  split
  next => exact yields_throw _
  next =>
    refine (Backend.Task.asks_ofExcept _).bind fun alive => ?_
    split
    next => exact yields_pure (.inl rfl)
    next =>
      exact (Config.asks_act config .stop vm fun session secret =>
        follows _ (.machine settled secret named _ (some _))).bind fun _ => yields_pure (.inr rfl)

theorem asks_cancel (fleet : Fleet) (handle : String)
    (cancels : ∀ request, (Backend.cloud fleet).IsCancelledBy handle request → allowed request = true) :
    Asks allowed (fleet.cancel handle) := by
  refine (Backend.Task.yields_ofExcept fun _ => id).bind fun vm named => ?_
  refine (Backend.Task.yields_ofExcept fun _ => id).bind fun config settled => ?_
  exact Config.asks_act config .delete vm fun session secret => cancels _ (.deletion settled secret named)

theorem asks_startTime (fleet : Fleet) (handle : String)
    (calls : ∀ config session vm, fleet.base.withParams fleet.params = .ok config → config.sessionText = .ok session →
      vmIdOf handle = .ok vm → allowed (.provider config.endpoint infoMethod [.string session, .int vm]) = true) :
    Asks allowed (fleet.startTime handle) := by
  refine (Backend.Task.yields_ofExcept fun _ => id).bind fun vm named => ?_
  refine (Backend.Task.yields_ofExcept fun _ => id).bind fun config settled => ?_
  refine (Config.asks_progress config vm fun session secret => ?_).bind fun _ => yields_pure trivial
  exact calls config session vm settled secret named

end Cloud.Fleet

namespace Batch.Scheduler

/-- Every command that a scheduler ends a job with counts. -/
theorem isCancellation_cancelCommand (scheduler : Scheduler) (id : String) :
    isCancellation (scheduler.cancelCommand id) = true := by
  unfold isCancellation cancelCommand
  cases scheduler with
  | slurm | pbs | sge => simp [toString, List.isPrefixOf]

theorem isCancellation_submitCommand (scheduler : Scheduler) (script : String) (options : Job.Options) :
    isCancellation (scheduler.submitCommand script options) = false := by
  unfold isCancellation submitCommand submitPieces
  cases scheduler with
  | slurm | pbs | sge => simp [toString, List.isPrefixOf]

theorem isCancellation_startTimeCommand (scheduler : Scheduler) (id : String) :
    isCancellation (scheduler.startTimeCommand id) = false := by
  unfold isCancellation startTimeCommand
  cases scheduler with
  | slurm | pbs | sge => simp [toString, List.isPrefixOf]

theorem isCancellation_queuesCommand (scheduler : Scheduler) : isCancellation scheduler.queuesCommand = false := by
  cases scheduler with
  | slurm | pbs | sge => decide +kernel

theorem readSgeCode_ne_downloaded (code : List Char) : readSgeCode? code ≠ some .downloaded := by
  unfold readSgeCode?
  grind

/-- No code of a scheduler stands for a downloaded job. -/
theorem readCode_ne_downloaded {scheduler : Scheduler} {code : String} {status : Job.Status}
    (read : scheduler.readCode code = .ok status) : status ≠ .downloaded := by
  rintro rfl
  cases scheduler with
  | slurm =>
    simp only [readCode] at read
    split at read <;> cases read
  | pbs =>
    simp only [readCode] at read
    split at read <;> cases read
  | sge =>
    simp only [readCode] at read
    split at read
    next found =>
      cases read
      exact readSgeCode_ne_downloaded code.toList found
    next => cases read

theorem map_readCode_ne_downloaded {scheduler : Scheduler} {code : String} {status : Job.Status}
    (read : (scheduler.readCode code).map some = .ok (some status)) : status ≠ .downloaded := by
  cases found : scheduler.readCode code with
  | ok known =>
    rw [found] at read
    cases read
    exact readCode_ne_downloaded found
  | error fault =>
    rw [found] at read
    cases read

theorem readStatusOutput_ne_downloaded {scheduler : Scheduler} {id stdout : String} {status : Job.Status}
    (read : scheduler.readStatusOutput id stdout = .ok (some status)) : status ≠ .downloaded := by
  cases scheduler with
  | slurm =>
    simp only [readStatusOutput] at read
    split at read
    next => exact map_readCode_ne_downloaded read
    next => cases read
  | pbs =>
    simp only [readStatusOutput] at read
    split at read
    next => exact map_readCode_ne_downloaded read
    next => cases read
  | sge =>
    simp only [readStatusOutput] at read
    split at read
    next => cases read
    next =>
      split at read
      next => exact map_readCode_ne_downloaded read
      next => cases read

theorem readStatus_ne_downloaded {scheduler : Scheduler} {id : String} {outcome : Shell.Outcome}
    {status : Job.Status} (read : scheduler.readStatus id outcome = .ok (some status)) :
    status ≠ .downloaded := by
  cases outcome with
  | detached pid => cases read
  | completed exitCode stdout stderr =>
    simp only [readStatus] at read
    split at read
    next => exact readStatusOutput_ne_downloaded read
    next => split at read <;> cases read

end Batch.Scheduler

namespace Batch.Frontend

theorem asks_outputOf (frontend : Frontend) (command : String) (workingDir : Option String)
    (executes : allowed (.remote frontend.target (.execute command workingDir false)) = true) :
    Asks allowed (frontend.outputOf command workingDir) := by
  unfold outputOf
  refine (Backend.Task.asks_remote executes).bind fun outcome => ?_
  split
  next => exact yields_pure trivial
  next => exact yields_throw _

theorem yields_submit (frontend : Frontend) (script : String) (options : Job.Options)
    (reads : ∀ path, allowed (.readFile path) = true) (numbers : ∀ limit, allowed (.number limit) = true)
    (uploads : ∀ content path mode, allowed (.remote frontend.target (.upload content path mode)) = true)
    (submits : ∀ path, allowed (.remote frontend.target
      (.execute (frontend.scheduler.submitCommand path options) options.workingDir false)) = true) :
    Yields allowed (fun submitted => submitted.status = .submitted) (frontend.submit script options) := by
  unfold submit
  exact (Script.asks_stage _ _ (reads _)).bind fun text => (Script.asks_upload _ _ _ numbers uploads).bind fun path =>
    (asks_outputOf frontend _ _ (submits path)).bind fun stdout =>
    (Backend.Task.asks_ofExcept _).bind fun handle => yields_pure rfl

theorem yields_errands_of_submit (frontend : Frontend) (script : String) (options : Job.Options) :
    Yields Request.isErrand (fun submitted => submitted.status = .submitted) (frontend.submit script options) :=
  frontend.yields_submit script options (fun _ => rfl) (fun _ => rfl) (fun _ _ _ => rfl) fun _ =>
    Request.isErrand_of_isHarmless (Request.isHarmless_execute (Scheduler.isCancellation_submitCommand _ _ _))

theorem asks_cancel (frontend : Frontend) (handle : String)
    (cancels : ∀ request, (Backend.batch frontend).IsCancelledBy handle request → allowed request = true) :
    Asks allowed (frontend.cancel handle) :=
  (asks_outputOf frontend _ _ (cancels _ (.command frontend))).bind fun _ => yields_pure trivial

theorem asks_startTime (frontend : Frontend) (handle : String)
    (executes : allowed (.remote frontend.target
      (.execute (frontend.scheduler.startTimeCommand handle) none false)) = true) :
    Asks allowed (frontend.startTime handle) := by
  unfold startTime
  refine (Backend.Task.asks_remote executes).bind fun outcome => ?_
  cases outcome with
  | completed => exact yields_pure trivial
  | detached => exact yields_pure trivial

theorem asks_queues (frontend : Frontend) (wanted : Option String) :
    Asks Request.isHarmless (frontend.queues wanted) := by
  unfold queues
  refine (asks_outputOf frontend _ _ (Request.isHarmless_execute
    (Scheduler.isCancellation_queuesCommand _))).bind fun stdout => ?_
  cases wanted with
  | none => exact yields_pure trivial
  | some name => exact yields_pure trivial

theorem yields_statusBy (frontend : Frontend) (handle : String) (commands : List String)
    (executes : ∀ command, allowed (.remote frontend.target (.execute command none false)) = true) :
    Yields allowed (· ≠ .downloaded) (frontend.statusBy handle commands) := by
  induction commands with
  | nil => exact yields_pure (by decide)
  | cons command rest ih =>
    unfold statusBy
    refine (Backend.Task.asks_remote (executes command)).bind fun outcome => ?_
    have observed : Yields allowed
        (fun found => frontend.scheduler.readStatus handle outcome = .ok found)
        (Backend.Task.ofExcept (frontend.scheduler.readStatus handle outcome)) :=
      Backend.Task.yields_ofExcept fun _ read => read
    refine observed.bind fun found read => ?_
    cases found with
    | some status => exact yields_pure (Scheduler.readStatus_ne_downloaded read)
    | none => exact ih

end Batch.Frontend

namespace Backend

theorem yields_submit (backend : Backend) (script : String) (options : Job.Options) :
    Yields Request.isOutward (fun submitted => submitted.status = .submitted)
      (backend.submit script options) := by
  cases backend with
  | batch frontend =>
    exact frontend.yields_submit script options (fun _ => rfl) (fun _ => rfl) (fun _ _ _ => rfl) fun _ => rfl
  | cloud fleet => exact fleet.yields_submit script options

theorem asks_cancel (backend : Backend) (handle : String)
    (cancels : ∀ request, backend.IsCancelledBy handle request → allowed request = true) :
    Asks allowed (backend.cancel handle) := by
  cases backend with
  | batch frontend => exact frontend.asks_cancel handle cancels
  | cloud fleet => exact fleet.asks_cancel handle cancels

theorem asks_startTime (backend : Backend) (handle : String) :
    Asks Request.isHarmless (backend.startTime handle) := by
  cases backend with
  | batch frontend =>
    exact frontend.asks_startTime handle (Request.isHarmless_execute
      (Batch.Scheduler.isCancellation_startTimeCommand _ _))
  | cloud fleet => exact fleet.asks_startTime handle fun _ _ _ _ _ _ => Request.isHarmless_provider (by decide)

theorem asks_startTime_follows (backend : Backend) (handle : String)
    (follows : ∀ request, backend.Follows handle request → allowed request = true) :
    Asks allowed (backend.startTime handle) := by
  cases backend with
  | batch frontend => exact frontend.asks_startTime handle (follows _ (.command frontend _))
  | cloud fleet =>
    exact fleet.asks_startTime handle fun _ _ _ settled secret named => follows _ (.machine settled secret named _ none)

theorem asks_queues (backend : Backend) (wanted : Option String) :
    Asks Request.isHarmless (backend.queues wanted) := by
  cases backend with
  | batch frontend => exact frontend.asks_queues wanted
  | cloud _ => exact yields_pure trivial

/-- Whatever is replied, a job that is asked about is never said to have been downloaded. -/
theorem yields_status (backend : Backend) (handle : String)
    (follows : ∀ request, backend.Follows handle request → allowed request = true) :
    Yields allowed (· ≠ .downloaded) (backend.status handle) := by
  cases backend with
  | batch frontend => exact frontend.yields_statusBy handle _ fun _ => follows _ (.command frontend _)
  | cloud fleet =>
    refine (fleet.yields_status handle follows).tries (Protocol.ignores_within fun _ => id) ?_ fun _ => trivial
    rintro status (rfl | rfl)
    · decide
    · decide

end Backend

end Dispatch
