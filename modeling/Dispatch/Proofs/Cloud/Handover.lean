import Dispatch.Proofs.Cloud.Handle
import Dispatch.Proofs.Cloud.Submission
/-!
What a submission to a cloud hands over. The handle names the process, the account, the address and the machine of
the launch. It can be read back exactly if neither the account nor the address holds the separator; a job whose
handle cannot be read is refused by every operation that is to deal with it later.
-/
namespace Dispatch

namespace Plan

variable {α β ε : Type} {gives : β → List (Moment Unit) → Prop} {task : ExceptT ε Plan α}
  {rest : α → ExceptT ε Plan β} {allowed : Request → Bool}

/-- What is certain of the last part of a plan, and stays so with what has been asked before it. -/
theorem Logs.later (asks : Asks allowed task)
    (grows : ∀ value front log, (∀ moment ∈ front, allowed moment.request = true) → gives value log →
      gives value (front ++ log))
    (later : ∀ value, Logs gives (fun _ _ => True) (rest value)) :
    Logs gives (fun _ _ => True) (task >>= rest) := by
  refine (Yields.logs asks).bind (fun _ _ _ => trivial) fun value front known => ?_
  exact (later value).mono (fun result log given => grows result front log known.2 given) fun _ _ _ => trivial

end Plan

namespace Cloud

open Plan

/-- The account and the process of a command in the background that has been started. -/
def launched? {σ : Type} : Moment σ → Option (Shell.Target × UInt32)
  | ⟨_, .remote target (.execute _ _ true), .ok (.detached pid), _⟩ => some (target, pid)
  | _ => none

/-- What has been started last of all that was asked for. -/
def lastLaunch {σ : Type} (log : List (Moment σ)) : Option (Shell.Target × UInt32) := log.getLast?.bind launched?

theorem lastLaunch_append {σ : Type} {log : List (Moment σ)} {launch : Shell.Target × UInt32}
    (started : lastLaunch log = some launch) (front : List (Moment σ)) : lastLaunch (front ++ log) = some launch := by
  cases last : log.getLast? with
  | none =>
    rw [lastLaunch, last] at started
    cases started
  | some moment =>
    rw [lastLaunch, last] at started
    rwa [lastLaunch, List.getLast?_append, last]

theorem Reports.append {vm : Int} {address : String} {log : List (Moment Unit)} (reports : Reports vm address log)
    (front : List (Moment Unit)) : Reports vm address (front ++ log) := by
  obtain ⟨moment, member, told⟩ := reports
  exact ⟨moment, List.mem_append_right front member, told⟩

/-- An address that is reported is not empty. -/
theorem Reports.filled {vm : Int} {address : String} {log : List (Moment Unit)} (reports : Reports vm address log) :
    address ≠ "" := by
  obtain ⟨moment, -, progress, told, -, -, known⟩ := reports
  obtain ⟨document, rfl⟩ : ∃ document, progress = Progress.read document := by
    unfold reported? at told
    split at told
    next =>
      split at told
      next =>
        split at told
        next document _ => exact ⟨document, (Option.some.inj told).symm⟩
        next => cases told
      next => cases told
    next => cases told
  obtain ⟨text, found, rfl⟩ := Option.map_eq_some_iff.mp known
  have filled := (Option.filter_eq_some_iff.mp found).2
  rintro empty
  have none : text = [] := by simpa using congrArg String.toList empty
  simp [none] at filled

/-- A machine that has been allocated has a number of 64 bits. -/
theorem bounds_of_allocated {moment : Moment Unit} {vm : Int} (told : allocated? moment = some vm) :
    -Int.pow 2 63 ≤ vm ∧ vm ≤ Int.pow 2 63 - 1 := by
  obtain ⟨_, request, reply, _⟩ := moment
  cases request with
  | provider endpoint method params =>
    rw [allocated?] at told
    split at told
    next =>
      obtain ⟨value, -, number⟩ := Option.bind_eq_some_iff.mp told
      unfold Config.vmNumber? Json.asInt? at number
      split at number
      next =>
        obtain ⟨between, same⟩ := Option.ite_none_right_eq_some.mp number
        simpa [Option.some.inj same] using between
      next => cases number
    next => cases told
  | _ => cases told

namespace Config

/-- Calls of the provider at the endpoint and with the session text of these settings, and nothing on any host. -/
def calls (config : Config) : Request → Bool
  | .provider endpoint _ (.string session :: _) =>
    endpoint = config.endpoint && config.sessionText.toOption = some session
  | .provider .. | .remote .. => false
  | _ => true

/-- These calls, and work on the machine at that address. -/
def aims (config : Config) (address : String) : Request → Bool
  | .remote target _ => target = config.vmTarget config.vmUser address
  | request => config.calls request

theorem calls_provider {config : Config} {session : String} (secret : config.sessionText = .ok session)
    (method : String) (params : List Json) :
    config.calls (.provider config.endpoint method (.string session :: params)) = true := by
  simp [calls, secret, Except.toOption]

theorem aims_of_calls {config : Config} {request : Request} (member : config.calls request = true)
    (address : String) : config.aims address request = true := by
  cases request with
  | remote => cases member
  | _ => exact member

theorem calls_awaitAddress (config : Config) (vm : Int) (left : Nat) :
    Asks config.calls (config.awaitAddress vm left) :=
  asks_awaitAddress config vm left (fun _ secret => calls_provider secret _ _) rfl

/-- A launch that has succeeded: the process, the account, the address and the machine of the handle are those of the
last command that was started, and nothing was done anywhere else. -/
structure IsLaunched (config : Config) (job : Handle) (vm : Int) (log : List (Moment Unit)) : Prop where
  vmUser : job.vmUser = config.vmUser
  vmId : job.vmId = toString vm
  reported : Reports vm job.vmAddress log
  started : lastLaunch log = some (config.vmTarget job.vmUser job.vmAddress, job.pid)
  aimed : ∀ moment ∈ log, config.aims job.vmAddress moment.request = true

theorem IsLaunched.append {config : Config} {job : Handle} {vm : Int} {log front : List (Moment Unit)}
    (launched : config.IsLaunched job vm log)
    (aimed : ∀ moment ∈ front, config.aims job.vmAddress moment.request = true) :
    config.IsLaunched job vm (front ++ log) := by
  refine ⟨launched.vmUser, launched.vmId, launched.reported.append front, lastLaunch_append launched.started front, ?_⟩
  intro moment member
  rcases List.mem_append.mp member with before | after
  · exact aimed moment before
  · exact launched.aimed moment after

/-- The start of a command in the background, with the process id that was replied. -/
theorem logs_start (target : Shell.Target) (command : String) (workingDir : Option String) :
    Logs (fun outcome log => ∀ pid, outcome.pid? = some pid → lastLaunch log = some (target, pid))
      (fun _ _ => True) (Backend.Task.remote target (.execute command workingDir true)) := by
  refine Backend.Task.logs_remote target _ (fun outcome pid found => ?_) fun _ => trivial
  cases outcome with
  | completed => cases found
  | detached other =>
    obtain rfl := Option.some.inj found
    rfl

theorem logs_launch_handle (config : Config) (vm : Int) (script : String) (options : Job.Options) :
    Logs (fun submitted log => ∃ job, config.IsLaunched job vm log ∧ submitted.handle = job.text) (fun _ _ => True)
      (config.launch vm script options) := by
  unfold launch
  have booted := Logs.and (logs_awaitAddress config vm config.bootAttempts.toNat)
    (Yields.logs (calls_awaitAddress config vm config.bootAttempts.toNat))
  refine Logs.bind booted (fun _ _ _ => trivial) ?_
  rintro address booting ⟨⟨-, reports⟩, -, called⟩
  -- From here on the address is settled; what remains to be seen is the process.
  let job (pid : UInt32) : Handle := { pid, vmUser := config.vmUser, vmAddress := address, vmId := toString vm }
  let account := config.vmTarget config.vmUser address
  let handed (submitted : Job.Submitted) (log : List (Moment Unit)) : Prop :=
    ∃ pid, lastLaunch log = some (account, pid) ∧ submitted.handle = (job pid).text ∧
      ∀ moment ∈ log, config.aims address moment.request = true
  have started {rest : Backend.Task Job.Submitted} (logs : Logs handed (fun _ _ => True) rest) :
      Logs (fun submitted log => ∃ job, config.IsLaunched job vm (booting ++ log) ∧ submitted.handle = job.text)
        (fun _ _ => True) rest := by
    refine logs.mono (fun submitted log known => ?_) fun _ _ _ => trivial
    obtain ⟨pid, last, same, aimed⟩ := known
    obtain ⟨moment, member, told⟩ := reports
    refine ⟨job pid, ⟨rfl, rfl, ⟨moment, List.mem_append_left log member, told⟩, lastLaunch_append last booting, ?_⟩,
      same⟩
    intro other present
    rcases List.mem_append.mp present with before | after
    · exact aims_of_calls (called other before) address
    · exact aimed other after
  refine started ?_
  have grows (submitted : Job.Submitted) (front log : List (Moment Unit))
      (before : ∀ moment ∈ front, config.aims address moment.request = true) (known : handed submitted log) :
      handed submitted (front ++ log) := by
    obtain ⟨pid, last, same, aimed⟩ := known
    refine ⟨pid, lastLaunch_append last front, same, fun moment member => ?_⟩
    exact (List.mem_append.mp member).elim (before moment) (aimed moment)
  have works (action : Shell.Action) : config.aims address (.remote account action) = true := by simp [aims, account]
  refine Logs.later (asks_awaitShell config account _ (works _) rfl) grows fun _ =>
    Logs.later (asks_mount config account (works _)) grows fun _ =>
    Logs.later (Script.asks_upload account _ _ (fun _ => rfl) fun _ _ _ => works _) grows fun path => ?_
  have executes (command : String) := Logs.and (logs_start account command options.workingDir)
    (Yields.logs (Backend.Task.asks_remote (works (.execute command options.workingDir true))))
  refine Logs.bind (executes _) (fun _ _ _ => trivial) fun outcome log known => ?_
  split
  next => exact (logs_throw _).mpr trivial
  next pid found =>
    refine (logs_pure _).mpr ⟨pid, ?_, rfl, ?_⟩
    · rw [List.append_nil]
      exact known.1 pid found
    · rw [List.append_nil]
      exact known.2.2

/-- A submission that has succeeded: with the machine that was allocated, the launch whose parts the handle names. -/
structure HandsOver (config : Config) (job : Handle) (vm : Int) (submitted : Job.Submitted)
    (log : List (Moment Unit)) : Prop where
  user : config.vmUser ≠ ""
  allocated : log.findSome? allocated? = some vm
  launched : config.IsLaunched job vm log
  handle : submitted.handle = job.text

/-- Reading a file is all that goes before an allocation. -/
def isReading : Request → Bool
  | .readFile _ => true
  | _ => false

theorem calls_of_isReading {config : Config} {request : Request} (member : isReading request = true) :
    config.calls request = true := by
  cases request with
  | readFile => rfl
  | _ => cases member

theorem HandsOver.append {config : Config} {job : Handle} {vm : Int} {submitted : Job.Submitted}
    {log front : List (Moment Unit)} (handed : config.HandsOver job vm submitted log)
    (reads : ∀ moment ∈ front, isReading moment.request = true) :
    config.HandsOver job vm submitted (front ++ log) := by
  have none : front.findSome? allocated? = Option.none := by
    refine findSome?_allocated_eq_none (timesAsked_eq_zero.mpr fun moment member => ?_)
    have reading := reads moment member
    cases asked : moment.request with
    | readFile => rfl
    | _ =>
      rw [asked] at reading
      cases reading
  refine ⟨handed.user, ?_, ?_, handed.handle⟩
  · rw [List.findSome?_append, none, handed.allocated]
    rfl
  · exact handed.launched.append fun moment member => aims_of_calls (calls_of_isReading (reads moment member)) _

theorem logs_submit_handle (config : Config) (script : String) (options : Job.Options) :
    Logs (fun submitted log => ∃ job vm, config.HandsOver job vm submitted log) (fun _ _ => True)
      (config.submit script options) := by
  have grows (submitted : Job.Submitted) (front log : List (Moment Unit))
      (reads : ∀ moment ∈ front, isReading moment.request = true)
      (known : ∃ job vm, config.HandsOver job vm submitted log) :
      ∃ job vm, config.HandsOver job vm submitted (front ++ log) := by
    obtain ⟨job, vm, handed⟩ := known
    exact ⟨job, vm, handed.append reads⟩
  unfold submit
  refine logs_guard (fun _ => trivial) fun filled => ?_
  have user : config.vmUser ≠ "" := by simpa using filled
  refine Logs.later (Backend.Task.asks_ofExcept _) grows fun description =>
    Logs.later (Script.asks_stage _ _ rfl) grows fun text => ?_
  have allocates := Logs.and (logs_allocate config description)
    (Yields.logs (asks_allocate config description fun _ secret => calls_provider secret _ _))
  refine Logs.bind allocates (fun _ _ _ => trivial) ?_
  rintro vm _ ⟨⟨_, allocation, -, rfl, -, tells⟩, -, called⟩
  refine Backend.Task.logs_attempt (logs_launch_handle config vm text options) ?_ ?_
  · rintro submitted log ⟨job, launched, same⟩
    refine (logs_pure submitted).mpr ⟨job, vm, user, ?_, ?_, same⟩
    · simp [tells]
    · rw [List.append_nil]
      exact launched.append fun moment member => aims_of_calls (called moment member) _
  · rintro fault log -
    have never : Logs (fun (_ : Job.Submitted) _ => False) (fun _ _ => True)
        (Backend.Task.attempt (config.act .delete vm) >>= fun _ => throw fault) := by
      have deletes := asks_act config .delete vm fun _ secret => calls_provider secret actionMethod _
      exact Logs.later (Backend.Task.asks_attempt deletes) (fun _ _ _ _ given => given) fun _ =>
        (logs_throw fault).mpr trivial
    exact never.mono (fun _ _ given => given.elim) fun _ _ _ => trivial

theorem HandsOver.isOf {config : Config} {job : Handle} {vm : Int} {submitted : Job.Submitted}
    {log : List (Moment Unit)} (handed : config.HandsOver job vm submitted log) : job.IsOf vm :=
  ⟨handed.launched.vmId, handed.launched.vmUser ▸ handed.user, handed.launched.reported.filled⟩

end Config

namespace Fleet

/-- What polling a job does once it knows the process and the machine. -/
def statusOf (fleet : Fleet) (job : Handle) (vm : Int) : Backend.Task Job.Status := do
  let config ← fleet.config
  let command := probeCommand job.pid
  let outcome ← Backend.Task.remote (config.vmTarget job.vmUser job.vmAddress) (.execute command none false)
  match outcome.stdout command with
  | .error fault => throw (.remote fault)
  | .ok stdout =>
    let alive ← Backend.Task.ofExcept (readProbe stdout)
    if 0 < alive then return .running
    config.act .stop vm
    return .completed

/-- Every later operation deals with the process, the account, the address and the machine of the job. -/
structure IsServed (text : String) (job : Handle) (vm : Int) : Prop where
  read : Handle.read text = .ok job
  number : readVmId job.vmId = .ok vm
  status : ∀ fleet : Fleet, fleet.status text = fleet.statusOf job vm
  cancel : ∀ fleet : Fleet, fleet.cancel text = (do
    let config ← fleet.config
    config.act .delete vm)
  startTime : ∀ fleet : Fleet, fleet.startTime text = (do
    let config ← fleet.config
    return (← config.progress vm).startTime)
  fileTarget : ∀ fleet : Fleet, fleet.fileTarget text =
    (fleet.base.withParams fleet.params).map fun config => config.vmTarget job.vmUser job.vmAddress

/-- Every later operation refuses the handle and does nothing. -/
structure IsRefused (text : String) : Prop where
  status : ∀ fleet : Fleet, fleet.status text = throw (Handle.malformed text)
  cancel : ∀ fleet : Fleet, fleet.cancel text = throw (Handle.malformed text)
  startTime : ∀ fleet : Fleet, fleet.startTime text = throw (Handle.malformed text)
  fileTarget : ∀ fleet : Fleet, fleet.fileTarget text = .error (Handle.malformed text)

theorem isServed_text {job : Handle} {vm : Int} (read : Handle.read job.text = .ok job)
    (number : readVmId job.vmId = .ok vm) : IsServed job.text job vm := by
  have machine : vmIdOf job.text = .ok vm := by
    rw [Handle.vmIdOf_text, read]
    exact number
  refine ⟨read, number, fun fleet => ?_, fun fleet => ?_, fun fleet => ?_, fun fleet => ?_⟩
  · rw [Fleet.status, read]
    change (Backend.Task.ofExcept (readVmId job.vmId) >>= fun vm => fleet.statusOf job vm) = _
    rw [number]
    rfl
  · rw [Fleet.cancel, machine]
    rfl
  · rw [Fleet.startTime, machine]
    rfl
  · rw [Fleet.fileTarget, read]
    cases fleet.base.withParams fleet.params <;> rfl

theorem isRefused_text {job : Handle} (unread : Handle.read job.text = .error (Handle.malformed job.text)) :
    IsRefused job.text := by
  have machine : vmIdOf job.text = .error (Handle.malformed job.text) := by
    rw [Handle.vmIdOf_text, unread]
    rfl
  refine ⟨fun fleet => ?_, fun fleet => ?_, fun fleet => ?_, fun fleet => ?_⟩
  · rw [Fleet.status, unread]
    rfl
  · rw [Fleet.cancel, machine]
    rfl
  · rw [Fleet.startTime, machine]
    rfl
  · rw [Fleet.fileTarget, unread]
    rfl

/-- Whatever the endpoint, the script and the options are, and whatever is replied to each request: the handle of a
submission that succeeds is made of the process id, the account, the address and the machine of its launch. Later
operations can deal with the job exactly if neither the account nor the address holds an at sign, and otherwise all
of them refuse it. -/
theorem submit_hands_over (fleet : Fleet) (script : String) (options : Job.Options) {submitted : Job.Submitted}
    {last : Recorded Unit}
    (ended : Finishes Setting.anything.recorded (fleet.submit script options) { state := () } (.ok submitted) last) :
    ∃ config job vm, fleet.settings options = .ok config ∧ timesAsked (isCall allocateMethod) last.trace = 1 ∧
      config.HandsOver job vm submitted last.trace ∧
      (job.IsPlain → IsServed submitted.handle job vm) ∧ (¬ job.IsPlain → IsRefused submitted.handle) := by
  rw [submit_eq] at ended
  cases settled : fleet.settings options with
  | error fault =>
    rw [settled] at ended
    cases ((finishes_throw fault _).mp ended).1
  | ok config =>
    rw [settled] at ended
    obtain ⟨job, vm, handed⟩ := Config.logs_submit_handle config script options _ last ended
    have once := (Config.logs_submit config script options _ last ended).2.allocations
    obtain ⟨moment, -, told⟩ := List.exists_of_findSome?_eq_some handed.allocated
    have bounds := bounds_of_allocated told
    refine ⟨config, job, vm, rfl, once, handed, fun plain => ?_, fun others => ?_⟩
    · rw [handed.handle]
      exact isServed_text (Handle.read_of_some (handed.isOf.read?_text plain)) (handed.isOf.readVmId bounds.1 bounds.2)
    · rw [handed.handle]
      exact isRefused_text (Handle.read_of_none (Handle.read?_text_of_not_isPlain others))

def sampleFleet : Fleet :=
  { base := {
      endpoint := "http://one", user := "one", password := "one", vmUser := "vm", image := "image",
      bootAttempts := 1 } }

def bootedDocument : String := "<VM><STATE>3</STATE><LCM_STATE>3</LCM_STATE><IP>10.0.0.7</IP></VM>"

/-- A machine is allocated and runs as soon as it is asked about. -/
def bootedOutside : (request : Request) → request.Reply
  | .provider _ method _ =>
    if method = infoMethod then .ok (.array [.bool true, .string bootedDocument])
    else .ok (.array [.bool true, .nat 93])
  | .remote _ (.execute _ _ true) => .ok (.detached 7)
  | request => Shared.outsideOf default "" request

/-- A submission with parameters of the caller. -/
def sampleHandover (params : String) : Option (Except Backend.Fault Job.Submitted × Recorded Unit) :=
  let respond : Pool.Responder Unit := fun request _ => some (bootedOutside request, ())
  Plan.follow respond.recorded (sampleFleet.submit "job.sh" { specificParams := params }).run { state := () }

theorem finishes_sampleHandover (params text : String)
    (submits : (sampleHandover params).map (fun (result, _) => result.toOption.map Job.Submitted.handle) =
      some (some text)) :
    ∃ submitted last, Finishes Setting.anything.recorded
      (sampleFleet.submit "job.sh" { specificParams := params }) { state := () } (.ok submitted) last ∧
        submitted.handle = text := by
  obtain ⟨⟨result, last⟩, ran, given⟩ := Option.map_eq_some_iff.mp submits
  cases result with
  | error fault => cases given
  | ok submitted =>
    exact ⟨submitted, last, ends_follow (Pool.Responder.answers_recorded fun _ => trivial) ran, Option.some.inj given⟩

/-- The account of the endpoint goes into the handle as it is, and the job can be dealt with. -/
theorem submit_hands_over_plain :
    ∃ submitted last, Finishes Setting.anything.recorded (sampleFleet.submit "job.sh" { specificParams := "" })
        { state := () } (.ok submitted) last ∧ submitted.handle = "7@vm@10.0.0.7@93" ∧
      IsServed submitted.handle { pid := 7, vmUser := "vm", vmAddress := "10.0.0.7", vmId := "93" } 93 := by
  obtain ⟨submitted, last, ended, same⟩ := finishes_sampleHandover "" "7@vm@10.0.0.7@93" (by decide +kernel)
  obtain ⟨config, job, vm, -, -, -, served, refused⟩ := submit_hands_over sampleFleet "job.sh" _ ended
  have read : Handle.read "7@vm@10.0.0.7@93" =
      .ok { pid := 7, vmUser := "vm", vmAddress := "10.0.0.7", vmId := "93" } :=
    Handle.read_of_some (by decide +kernel)
  have plain : job.IsPlain := by
    by_cases plain : job.IsPlain
    · exact plain
    · have target := (refused plain).fileTarget sampleFleet
      rw [same, Fleet.fileTarget, read] at target
      cases target
  have known := served plain
  obtain rfl : _ = job := Except.ok.inj (read.symm.trans (same ▸ known.read))
  have number : readVmId "93" = .ok 93 := by
    rw [readVmId, (by decide +kernel : Text.readInt64? "93".toList = some 93)]
  obtain rfl : 93 = vm := Except.ok.inj (number.symm.trans known.number)
  exact ⟨submitted, last, ended, same, known⟩

/-- A caller whose account holds the separator gets a handle that no operation accepts. -/
theorem submit_hands_over_unreadable :
    ∃ submitted last, Finishes Setting.anything.recorded
        (sampleFleet.submit "job.sh" { specificParams := "vm-user=ops@lab" }) { state := () } (.ok submitted) last ∧
      submitted.handle = "7@ops@lab@10.0.0.7@93" ∧ IsRefused submitted.handle := by
  obtain ⟨submitted, last, ended, same⟩ := finishes_sampleHandover "vm-user=ops@lab" "7@ops@lab@10.0.0.7@93"
    (by decide +kernel)
  have text : Handle.text { pid := 7, vmUser := "ops@lab", vmAddress := "10.0.0.7", vmId := "93" } =
      "7@ops@lab@10.0.0.7@93" := by decide +kernel
  refine ⟨submitted, last, ended, same, ?_⟩
  rw [same, ← text]
  exact isRefused_text (Handle.read_of_none (Handle.read?_text_of_not_isPlain (by decide +kernel)))

end Fleet

end Cloud

end Dispatch
