import Dispatch.Cloud.Fleet
import Dispatch.Proofs.Backend.Footprint
import Dispatch.Proofs.Cloud.Calls
import Dispatch.Proofs.Cloud.Parameters
import Dispatch.Proofs.Server.Shared
/-!
Submissions to a cloud leak no machine. Whatever the provider and the machine reply: a submission that succeeds has
one machine, on which nothing was done, and one that fails after a machine was allocated deletes it as the last
thing it does.
-/
namespace Dispatch.Cloud

open Plan

/-- The provider reports that a machine runs, and at which address. -/
def Reports (vm : Int) (address : String) (log : List (Moment Unit)) : Prop :=
  ∃ moment ∈ log, ∃ progress, reported? vm moment = some progress ∧ progress.state = some 3 ∧
    progress.lifecycle = some 3 ∧ progress.address = some address

/-- A part of a submission that neither allocates a machine nor does anything to one, with bounds on how often it
asks how far a machine has come, and whether commands can be run on it. -/
structure Spends (infos probes : Nat) (log : List (Moment Unit)) : Prop where
  infos : timesAsked (isCall infoMethod) log ≤ infos
  probes : timesAsked Request.isShellProbe log ≤ probes
  allocations : timesAsked (isCall allocateMethod) log = 0
  actions : timesAsked (isCall actionMethod) log = 0

theorem spends_nil (infos probes : Nat) : Spends infos probes [] :=
  ⟨Nat.zero_le _, Nat.zero_le _, rfl, rfl⟩

theorem Spends.append {infos probes moreInfos moreProbes : Nat} {log more : List (Moment Unit)}
    (first : Spends infos probes log) (second : Spends moreInfos moreProbes more) :
    Spends (infos + moreInfos) (probes + moreProbes) (log ++ more) := by
  refine ⟨?_, ?_, ?_, ?_⟩
  · rw [timesAsked_append]
    exact Nat.add_le_add first.infos second.infos
  · rw [timesAsked_append]
    exact Nat.add_le_add first.probes second.probes
  · rw [timesAsked_append, first.allocations, second.allocations]
  · rw [timesAsked_append, first.actions, second.actions]

theorem Spends.mono {infos probes moreInfos moreProbes : Nat} {log : List (Moment Unit)}
    (spends : Spends infos probes log) (more : infos ≤ moreInfos) (others : probes ≤ moreProbes) :
    Spends moreInfos moreProbes log :=
  ⟨Nat.le_trans spends.infos more, Nat.le_trans spends.probes others, spends.allocations, spends.actions⟩

theorem isCall_of_isDelivery {request : Request} (member : request.isDelivery = true) (method : String) :
    isCall method request = false := by
  cases request with
  | number | readFile | remote => rfl
  | _ => cases member

theorem isShellProbe_of_isDelivery {request : Request} (member : request.isDelivery = true) :
    request.isShellProbe = false := by
  cases request with
  | number | readFile => rfl
  | remote => simpa [Request.isDelivery, Request.isRemote] using member
  | _ => cases member

theorem spends_of_isDelivery {log : List (Moment Unit)}
    (delivers : ∀ moment ∈ log, moment.request.isDelivery = true) : Spends 0 0 log := by
  have noCall (method : String) : timesAsked (isCall method) log = 0 :=
    timesAsked_eq_zero.mpr fun moment member => isCall_of_isDelivery (delivers moment member) method
  have noProbe : timesAsked Request.isShellProbe log = 0 :=
    timesAsked_eq_zero.mpr fun moment member => isShellProbe_of_isDelivery (delivers moment member)
  exact ⟨Nat.le_of_eq (noCall _), Nat.le_of_eq noProbe, noCall _, noCall _⟩

/-- What brings a job to a machine spends nothing. -/
theorem logs_of_delivers {α : Type} {task : Backend.Task α} (delivers : Asks Request.isDelivery task) :
    Logs (fun _ log => Spends 0 0 log) (fun _ log => Spends 0 0 log) task :=
  (Yields.logs delivers).mono (fun _ _ known => spends_of_isDelivery known.2) fun _ _ known =>
    spends_of_isDelivery known

namespace Config

theorem logs_pause (millis : UInt64) :
    Logs (fun _ log => Spends 0 0 log) (fun _ log => Spends 0 0 log) (Backend.Task.ask (.pause millis)) :=
  Backend.Task.logs_ask fun _ => ⟨Nat.le_refl 0, Nat.le_refl 0, rfl, rfl⟩

/-- One report, whether it can be read or not. -/
theorem logs_progress (config : Config) (vm : Int) :
    Logs (fun progress log => Spends 1 0 log ∧ ∃ moment ∈ log, reported? vm moment = some progress)
      (fun _ log => Spends 1 0 log) (config.progress vm) := by
  have called : Logs
      (fun value log => Spends 1 0 log ∧ ∀ document, value = .string document →
        ∃ moment ∈ log, reported? vm moment = some (Progress.read document))
      (fun _ log => Spends 1 0 log) (config.call infoMethod [.int vm]) := by
    refine logs_call config infoMethod _ (fun _ _ => spends_nil 1 0) fun session _ reply => ?_
    dsimp only
    have spends : Spends 1 0 [(⟨(), .provider config.endpoint infoMethod [.string session, .int vm], reply, ()⟩ :
        Moment Unit)] := by
      refine ⟨?_, ?_, ?_, ?_⟩
      · simp [isCall]
      · simp [Request.isShellProbe]
      · simp [isCall, infoMethod, allocateMethod]
      · simp [isCall, infoMethod, actionMethod]
    refine ⟨fun value given => ⟨spends, fun document same => ⟨_, List.mem_singleton.mpr rfl, ?_⟩⟩, fun _ _ => spends⟩
    rw [same] at given
    simp [reported?, Json.int, given]
  unfold progress
  refine called.bind (fun _ _ spends => spends) fun value log known => ?_
  split
  next document => exact (logs_pure _).mpr (by simpa using ⟨known.1, known.2 document rfl⟩)
  next => exact (logs_throw _).mpr (by simpa using known.1)

/-- No more reports than attempts; the address is one of them. -/
theorem logs_awaitAddress (config : Config) (vm : Int) (left : Nat) :
    Logs (fun address log => Spends left 0 log ∧ Reports vm address log) (fun _ log => Spends left 0 log)
      (config.awaitAddress vm left) := by
  induction left with
  | zero => exact (logs_throw _).mpr (spends_nil 0 0)
  | succ left ih =>
    unfold awaitAddress
    refine (logs_progress config vm).bind (fun _ _ spends => spends.mono (by omega) (Nat.le_refl 0)) ?_
    rintro progress log ⟨spends, moment, member, told⟩
    have once : Spends (left + 1) 0 log := spends.mono (by omega) (Nat.le_refl 0)
    refine logs_guard (fun _ => by simpa using once) fun _ => ?_
    split
    next address found =>
      obtain ⟨known, running⟩ := Option.filter_eq_some_iff.mp found
      simp only [Progress.isRunning, Bool.and_eq_true, decide_eq_true_eq] at running
      have reports : Reports vm address log :=
        ⟨moment, member, progress, told, running.1.1, running.1.2, known⟩
      exact (logs_pure _).mpr (by simpa using ⟨once, reports⟩)
    next =>
      have together {first rest : List (Moment Unit)} (paused : Spends 0 0 first) (later : Spends left 0 rest) :
          Spends (left + 1) 0 (log ++ (first ++ rest)) :=
        (spends.append (paused.append later)).mono (by omega) (Nat.le_refl 0)
      refine (logs_pause config.pollMillis).bind (fun _ first paused => ?_) fun _ first paused => ?_
      · have ended := together paused (spends_nil left 0)
        rwa [List.append_nil] at ended
      · refine ih.mono (fun address last known => ⟨together paused known.1, ?_⟩) fun _ last known =>
          together paused known
        obtain ⟨reporting, present, rest⟩ := known.2
        exact ⟨reporting, List.mem_append_right _ (List.mem_append_right _ present), rest⟩

theorem logs_isReachable (target : Shell.Target) :
    Logs (fun _ log => Spends 0 1 log) (fun _ log => Spends 0 1 log) (isReachable target) := by
  have probed : Logs (fun _ log => Spends 0 1 log) (fun _ log => Spends 0 1 log)
      (Backend.Task.ask (.remote target (.execute "true" none false))) := by
    refine Backend.Task.logs_ask fun reply => ⟨?_, ?_, ?_, ?_⟩
    · simp [isCall]
    · simp [Request.isShellProbe]
    · simp [isCall]
    · simp [isCall]
  unfold isReachable
  refine probed.bind (fun _ _ spends => spends) fun reply log spends => ?_
  have alone : Spends 0 1 (log ++ []) := by rwa [List.append_nil]
  split
  next => exact (logs_pure _).mpr alone
  next => exact (logs_pure _).mpr alone
  next => exact (logs_pure _).mpr alone

/-- No more probes than attempts. -/
theorem logs_awaitShell (config : Config) (target : Shell.Target) (left : Nat) :
    Logs (fun _ log => Spends 0 left log) (fun _ log => Spends 0 left log) (config.awaitShell target left) := by
  induction left with
  | zero => exact (logs_throw _).mpr (spends_nil 0 0)
  | succ left ih =>
    unfold awaitShell
    refine (logs_isReachable target).bind (fun _ _ spends => spends.mono (Nat.le_refl 0) (by omega)) ?_
    intro reachable log spends
    have together {first rest : List (Moment Unit)} (paused : Spends 0 0 first) (later : Spends 0 left rest) :
        Spends 0 (left + 1) (log ++ (first ++ rest)) :=
      (spends.append (paused.append later)).mono (Nat.le_refl 0) (by omega)
    split
    next => exact (logs_pure _).mpr (together (spends_nil 0 0) (spends_nil 0 left))
    next =>
      refine (logs_pause config.pollMillis).bind (fun _ first paused => ?_) fun _ first paused => ?_
      · have ended := together paused (spends_nil 0 left)
        rwa [List.append_nil] at ended
      · exact ih.mono (fun _ _ known => together paused known) fun _ _ known => together paused known

/-- A job as it is known once it has been started in a machine. -/
def IsStartedIn (config : Config) (vm : Int) (address : String) (submitted : Job.Submitted) : Prop :=
  submitted.vmId = some (toString vm) ∧ ∃ pid, submitted.handle =
    Handle.text { pid, vmUser := config.vmUser, vmAddress := address, vmId := toString vm }

/-- A launch stays within its attempts, and its job is at an address that the provider reported. -/
theorem logs_launch (config : Config) (vm : Int) (script : String) (options : Job.Options) :
    Logs
      (fun submitted log => Spends config.bootAttempts.toNat config.bootAttempts.toNat log ∧
        ∃ address, Reports vm address log ∧ config.IsStartedIn vm address submitted)
      (fun _ log => Spends config.bootAttempts.toNat config.bootAttempts.toNat log)
      (config.launch vm script options) := by
  let n := config.bootAttempts.toNat
  unfold launch
  refine (logs_awaitAddress config vm n).bind (fun _ _ spends => spends.mono (by omega) (by omega)) ?_
  rintro address booting ⟨booted, reports⟩
  refine (logs_awaitShell config _ n).bind (fun _ _ spends => (booted.append spends).mono (by omega) (by omega)) ?_
  intro _ probing reached
  -- The machine can be reached; the rest brings the job there and asks the provider for nothing.
  have delivered {rest : Backend.Task Job.Submitted}
      (yields : Yields Request.isDelivery (config.IsStartedIn vm address) rest) :
      Logs
        (fun submitted log => Spends n n (booting ++ (probing ++ log)) ∧
          ∃ address, Reports vm address (booting ++ (probing ++ log)) ∧ config.IsStartedIn vm address submitted)
        (fun _ log => Spends n n (booting ++ (probing ++ log))) rest := by
    have within {log : List (Moment Unit)} (delivers : ∀ moment ∈ log, moment.request.isDelivery = true) :
        Spends n n (booting ++ (probing ++ log)) :=
      (booted.append (reached.append (spends_of_isDelivery delivers))).mono (by omega) (by omega)
    refine yields.logs.mono (fun submitted log known => ⟨within known.2, address, ?_, known.1⟩) fun _ log known =>
      within known
    obtain ⟨moment, member, told⟩ := reports
    exact ⟨moment, List.mem_append_left _ member, told⟩
  refine delivered ?_
  refine (delivers_mount config _).bind fun _ => (Script.delivers_upload _ _ _).bind fun path =>
    (Backend.Task.asks_remote (by simp [Request.isDelivery, Request.isRemote, Request.isShellProbe])).bind
    fun outcome => ?_
  split
  next => exact yields_throw _
  next pid _ => exact yields_pure ⟨rfl, pid, rfl⟩

/-- An allocation asks once, and needs credentials for it. -/
theorem logs_allocate (config : Config) (template : String) :
    Logs
      (fun vm log => ∃ session moment, config.sessionText = .ok session ∧ log = [moment] ∧
        isCall allocateMethod moment.request = true ∧ allocated? moment = some vm)
      (fun _ log => log = [] ∨ ∃ moment, log = [moment] ∧ isCall allocateMethod moment.request = true ∧
        allocated? moment = none)
      (config.allocate template) := by
  have called : Logs
      (fun value log => ∃ session moment, config.sessionText = .ok session ∧ log = [moment] ∧
        isCall allocateMethod moment.request = true ∧ allocated? moment = vmNumber? value)
      (fun _ log => log = [] ∨ ∃ moment, log = [moment] ∧ isCall allocateMethod moment.request = true ∧
        allocated? moment = none)
      (config.call allocateMethod [.string template, .bool false]) := by
    refine logs_call config allocateMethod _ (fun _ _ => .inl rfl) fun session same reply => ⟨?_, ?_⟩
    · intro value given
      exact ⟨session, _, same, rfl, by simp [isCall], by simp [allocated?, given, Except.toOption]⟩
    · intro fault failed
      exact .inr ⟨_, rfl, by simp [isCall], by simp [allocated?, failed, Except.toOption]⟩
  unfold allocate
  refine called.bind (fun _ _ refused => refused) ?_
  rintro value log ⟨session, moment, same, rfl, asks, tells⟩
  split
  next vm found => exact (logs_pure vm).mpr ⟨session, moment, same, rfl, asks, tells.trans found⟩
  next missing => exact (logs_throw _).mpr (.inr ⟨moment, rfl, asks, tells.trans missing⟩)

/-- What is done to a machine is asked for once, whether or not it succeeds. -/
theorem logs_act (config : Config) {session : String} (hasSession : config.sessionText = .ok session)
    (action : VmAction) (vm : Int) :
    Logs (fun _ log => ∃ moment, log = [moment] ∧ action? moment.request = some (action.name, vm))
      (fun _ log => ∃ moment, log = [moment] ∧ action? moment.request = some (action.name, vm))
      (config.act action vm) := by
  have called : Logs (fun _ log => ∃ moment, log = [moment] ∧ action? moment.request = some (action.name, vm))
      (fun _ log => ∃ moment, log = [moment] ∧ action? moment.request = some (action.name, vm))
      (config.call actionMethod [.string action.name, .int vm]) := by
    refine logs_call config actionMethod _ (fun fault refused => ?_) fun other _ reply => ⟨?_, ?_⟩
    · rw [hasSession] at refused
      cases refused
    · exact fun _ _ => ⟨_, rfl, by simp [action?, Json.int]⟩
    · exact fun _ _ => ⟨_, rfl, by simp [action?, Json.int]⟩
  unfold act
  refine called.bind (fun _ _ acted => acted) fun _ log acted => (logs_pure ()).mpr ?_
  rwa [List.append_nil]

/-- The bounds on a whole submission. -/
structure IsBounded (config : Config) (log : List (Moment Unit)) : Prop where
  infos : timesAsked (isCall infoMethod) log ≤ config.bootAttempts.toNat
  probes : timesAsked Request.isShellProbe log ≤ config.bootAttempts.toNat

/-- A submission that succeeded: one machine was allocated and nothing was done to it, and the job is in this machine
at an address that the provider reported. -/
structure IsDelivered (config : Config) (submitted : Job.Submitted) (log : List (Moment Unit)) : Prop where
  allocations : timesAsked (isCall allocateMethod) log = 1
  actions : timesAsked (isCall actionMethod) log = 0
  started : ∃ vm address, log.findSome? allocated? = some vm ∧ Reports vm address log ∧
    config.IsStartedIn vm address submitted

/-- A submission that failed: nothing was done to any machine if none was allocated; or else the launch on the
machine failed with this very fault, and then, and before that never, the provider was asked for a deletion, and for
nothing after it. -/
def IsWithdrawn (config : Config) (options : Job.Options) (fault : Backend.Fault) (log : List (Moment Unit)) : Prop :=
  match log.findSome? allocated? with
  | none => timesAsked (isCall actionMethod) log = 0
  | some vm => ∃ text ahead launch deletion, log = ahead ++ launch ++ [deletion] ∧
      timesAsked (isCall actionMethod) (ahead ++ launch) = 0 ∧
      action? deletion.request = some (VmAction.delete.name, vm) ∧
      Finishes Setting.anything.recorded (config.launch vm text options) { state := () } (.error fault)
        { state := (), trace := launch }

section Account

variable {config : Config} {ahead launch rest : List (Moment Unit)} {allocation : Moment Unit}

/-- A launch after an allocation, between parts that neither ask how far a machine has come nor probe it. -/
theorem isBounded_around (prepared : Spends 0 0 ahead) (allocates : isCall allocateMethod allocation.request = true)
    (launched : Spends config.bootAttempts.toNat config.bootAttempts.toNat launch)
    (noInfos : timesAsked (isCall infoMethod) rest = 0) (noProbes : timesAsked Request.isShellProbe rest = 0) :
    config.IsBounded (ahead ++ ([allocation] ++ (launch ++ rest))) := by
  have noInfo : isCall infoMethod allocation.request = false :=
    isCall_eq_false allocates (by simp [allocateMethod, infoMethod])
  have noProbe := isShellProbe_of_isCall allocates
  refine ⟨?_, ?_⟩
  · have before := prepared.infos
    have launching := launched.infos
    simp [noInfo, noInfos]
    omega
  · have before := prepared.probes
    have launching := launched.probes
    simp [noProbe, noProbes]
    omega

/-- The machine that a submission allocates is the one of its allocation. -/
theorem findSome?_allocated_around (prepared : Spends 0 0 ahead) {vm : Int}
    (tells : allocated? allocation = some vm) :
    (ahead ++ ([allocation] ++ rest)).findSome? allocated? = some vm := by
  rw [List.findSome?_append, findSome?_allocated_eq_none prepared.allocations]
  simp [tells]

theorem actions_around (prepared : Spends 0 0 ahead) (allocates : isCall allocateMethod allocation.request = true)
    (quiet : timesAsked (isCall actionMethod) rest = 0) :
    timesAsked (isCall actionMethod) (ahead ++ ([allocation] ++ rest)) = 0 := by
  have noAction : isCall actionMethod allocation.request = false :=
    isCall_eq_false allocates (by simp [allocateMethod, actionMethod])
  simp [prepared.actions, noAction, quiet]

theorem isDelivered_around (prepared : Spends 0 0 ahead)
    (allocates : isCall allocateMethod allocation.request = true) {vm : Int}
    (tells : allocated? allocation = some vm) {infos probes : Nat} (launched : Spends infos probes launch)
    {address : String} (reports : Reports vm address launch) {submitted : Job.Submitted}
    (started : config.IsStartedIn vm address submitted) :
    config.IsDelivered submitted (ahead ++ ([allocation] ++ launch)) := by
  refine ⟨?_, actions_around prepared allocates launched.actions, vm, address,
    findSome?_allocated_around prepared tells, ?_, started⟩
  · simp [prepared.allocations, launched.allocations, allocates]
  · obtain ⟨moment, member, told⟩ := reports
    exact ⟨moment, by simp [member], told⟩

theorem isWithdrawn_around (prepared : Spends 0 0 ahead)
    (allocates : isCall allocateMethod allocation.request = true) {vm : Int}
    (tells : allocated? allocation = some vm) {infos probes : Nat} (launched : Spends infos probes launch)
    {text : String} {options : Job.Options} {fault : Backend.Fault}
    (failed : Finishes Setting.anything.recorded (config.launch vm text options) { state := () } (.error fault)
      { state := (), trace := launch })
    {deletion : Moment Unit} (deletes : action? deletion.request = some (VmAction.delete.name, vm)) :
    config.IsWithdrawn options fault (ahead ++ ([allocation] ++ (launch ++ [deletion]))) := by
  have quiet : timesAsked (isCall actionMethod) ((ahead ++ [allocation]) ++ launch) = 0 := by
    rw [List.append_assoc]
    exact actions_around prepared allocates launched.actions
  rw [IsWithdrawn, findSome?_allocated_around prepared tells]
  exact ⟨text, ahead ++ [allocation], launch, deletion, by simp, quiet, deletes, failed⟩

end Account

theorem logs_submit (config : Config) (script : String) (options : Job.Options) :
    Logs (fun submitted log => config.IsBounded log ∧ config.IsDelivered submitted log)
      (fun fault log => config.IsBounded log ∧ config.IsWithdrawn options fault log)
      (config.submit script options) := by
  have quiet {fault : Backend.Fault} {log : List (Moment Unit)} (spends : Spends 0 0 log) :
      config.IsBounded log ∧ config.IsWithdrawn options fault log := by
    refine ⟨⟨Nat.le_trans spends.infos (Nat.zero_le _), Nat.le_trans spends.probes (Nat.zero_le _)⟩, ?_⟩
    rw [IsWithdrawn, findSome?_allocated_eq_none spends.allocations]
    exact spends.actions
  unfold submit
  refine logs_guard (fun _ => quiet (spends_nil 0 0)) fun _ => ?_
  refine (logs_of_delivers (Backend.Task.asks_ofExcept _)).bind (fun _ _ => quiet) fun description first described => ?_
  refine (logs_of_delivers (Script.delivers_stage _ _)).bind (fun _ _ staged => quiet (described.append staged)) ?_
  intro text second staged
  have prepared : Spends 0 0 (first ++ second) := described.append staged
  simp only [← List.append_assoc first second]
  refine (logs_allocate config description).bind ?_ ?_
  · rintro fault log (rfl | ⟨moment, rfl, allocates, none⟩)
    · rw [List.append_nil]
      exact quiet prepared
    · have bounded : config.IsBounded ((first ++ second) ++ ([moment] ++ ([] ++ []))) :=
        isBounded_around prepared allocates (spends_nil _ _) rfl rfl
      refine ⟨by simpa using bounded, ?_⟩
      have missing : ((first ++ second) ++ [moment]).findSome? allocated? = Option.none := by
        rw [List.findSome?_append, findSome?_allocated_eq_none prepared.allocations]
        simp [none]
      rw [IsWithdrawn, missing]
      have nothing : timesAsked (isCall actionMethod) ([] : List (Moment Unit)) = 0 := rfl
      exact actions_around prepared allocates nothing
  · rintro vm _ ⟨session, allocation, hasSession, rfl, allocates, tells⟩
    refine Backend.Task.logs_attempt (logs_launch config vm text options).ran ?_ ?_
    · rintro submitted launch ⟨⟨spends, address, reports, started⟩, _⟩
      refine (logs_pure submitted).mpr ?_
      have bounded : config.IsBounded ((first ++ second) ++ ([allocation] ++ (launch ++ []))) :=
        isBounded_around prepared allocates spends rfl rfl
      rw [List.append_nil] at bounded ⊢
      exact ⟨bounded, isDelivered_around prepared allocates tells spends reports started⟩
    · rintro fault launch ⟨spends, failed⟩
      -- Whether the machine could be deleted makes no difference: it was asked for, and the fault is the first one.
      have withdrawn {log : List (Moment Unit)}
          (asked : ∃ deletion, log = [deletion] ∧ action? deletion.request = some (VmAction.delete.name, vm)) :
          config.IsBounded ((first ++ second) ++ ([allocation] ++ (launch ++ (log ++ [])))) ∧
            config.IsWithdrawn options fault ((first ++ second) ++ ([allocation] ++ (launch ++ (log ++ [])))) := by
        obtain ⟨deletion, rfl, deletes⟩ := asked
        rw [List.append_nil]
        have noInfo : isCall infoMethod deletion.request = false :=
          isCall_eq_false (isCall_of_action deletes) (by simp [actionMethod, infoMethod])
        have noProbe := isShellProbe_of_isCall (isCall_of_action deletes)
        exact ⟨isBounded_around prepared allocates spends (by simp [noInfo]) (by simp [noProbe]),
          isWithdrawn_around prepared allocates tells spends failed deletes⟩
      exact Backend.Task.logs_attempt (logs_act config hasSession .delete vm)
        (fun _ _ asked => (logs_throw fault).mpr (withdrawn asked))
        fun _ _ asked => (logs_throw fault).mpr (withdrawn asked)

end Config

namespace Fleet

/-- The settings that a submission with these options goes by. -/
def settings (fleet : Fleet) (options : Job.Options) : Except Backend.Fault Config := do
  let config ← fleet.base.withParams fleet.params
  config.withParams options.specificParams

theorem submit_eq (fleet : Fleet) (script : String) (options : Job.Options) :
    fleet.submit script options = (do
      let config ← Backend.Task.ofExcept (fleet.settings options)
      config.submit script options) := by
  unfold Fleet.submit Fleet.config settings
  cases fleet.base.withParams fleet.params with
  | error fault => rfl
  | ok config => rfl

/-- The parameters of the endpoint and of the options are applied as one text. -/
theorem settings_eq_withParams (fleet : Fleet) (options : Job.Options) :
    fleet.settings options = fleet.base.withParams (fleet.params ++ " " ++ options.specificParams) :=
  (fleet.base.withParams_append fleet.params options.specificParams).symm

/-- Whatever the parameters change, the bound stays. -/
theorem settings_bootAttempts {fleet : Fleet} {options : Job.Options} {config : Config}
    (settled : fleet.settings options = .ok config) : config.bootAttempts = fleet.base.bootAttempts := by
  rw [settings_eq_withParams] at settled
  exact (Config.sameBackground_of_withParams settled).bootAttempts

/-- Whatever the endpoint, the script and the options are, and whatever is replied to each request: a submission asks
how far its machine has come, and probes it, no more often than the attempts allow; if it succeeds it has one machine,
on which nothing was done, and if it fails it has none. -/
theorem submit_leaks_nothing (fleet : Fleet) (script : String) (options : Job.Options)
    {result : Except Backend.Fault Job.Submitted} {last : Recorded Unit}
    (ended : Finishes Setting.anything.recorded (fleet.submit script options) { state := () } result last) :
    timesAsked (isCall infoMethod) last.trace ≤ fleet.base.bootAttempts.toNat ∧
    timesAsked Request.isShellProbe last.trace ≤ fleet.base.bootAttempts.toNat ∧
    match fleet.settings options, result with
    | .error fault, result => result = .error fault ∧ last.trace = []
    | .ok config, .ok submitted => config.IsDelivered submitted last.trace
    | .ok config, .error fault => config.IsWithdrawn options fault last.trace := by
  rw [submit_eq] at ended
  cases settled : fleet.settings options with
  | error fault =>
    rw [settled] at ended
    obtain ⟨rfl, rfl⟩ := (finishes_throw fault result).mp ended
    exact ⟨Nat.zero_le _, Nat.zero_le _, rfl, rfl⟩
  | ok config =>
    rw [settled] at ended
    rw [← settings_bootAttempts settled]
    have known := Config.logs_submit config script options result last ended
    cases result with
    | ok submitted => exact ⟨known.1.infos, known.1.probes, known.2⟩
    | error fault => exact ⟨known.1.infos, known.1.probes, known.2⟩

/-- An endpoint with two attempts, whose machines have failed by the time they are asked about. -/
def deadFleet : Fleet :=
  { base := {
      endpoint := "http://one", user := "one", password := "one", vmUser := "vm", image := "image",
      bootAttempts := 2 } }

def failedDocument : String := "<VM><STATE>7</STATE></VM>"

/-- Machines are allocated, and none of them can be deleted. -/
def deadOutside : (request : Request) → request.Reply
  | .provider _ method _ =>
    if method = allocateMethod then .ok (.array [.bool true, .nat 93])
    else if method = infoMethod then .ok (.array [.bool true, .string failedDocument])
    else .error (.rpc method "refused")
  | request => Shared.outsideOf default "" request

def deadRun : Option (Except Backend.Fault Job.Submitted × Recorded Unit) :=
  let respond : Pool.Responder Unit := fun request _ => some (deadOutside request, ())
  Plan.follow respond.recorded (deadFleet.submit "job.sh" {}).run { state := () }

theorem dead_machine_is_deleted : ∃ fault last, deadRun = some (.error fault, last) ∧
    last.trace.findSome? allocated? = some 93 ∧ timesAsked (isCall infoMethod) last.trace ≤ 2 ∧
    timesAsked Request.isShellProbe last.trace ≤ 2 ∧ deadFleet.base.IsWithdrawn {} fault last.trace := by
  have facts : deadRun.map (fun (result, last) => (result.toOption.isNone, last.trace.findSome? allocated?)) =
      some (true, some 93) := by decide +kernel
  obtain ⟨⟨result, last⟩, ran, same⟩ := Option.map_eq_some_iff.mp facts
  have ended : Finishes Setting.anything.recorded (deadFleet.submit "job.sh" {}) { state := () } result last :=
    ends_follow (Pool.Responder.answers_recorded fun _ => trivial) ran
  have known := submit_leaks_nothing deadFleet "job.sh" {} ended
  have settled : deadFleet.settings {} = .ok deadFleet.base := rfl
  rw [settled] at known
  cases result with
  | ok submitted => cases (Prod.mk.inj same).1
  | error fault => exact ⟨fault, last, ran, (Prod.mk.inj same).2, known⟩

end Fleet

end Dispatch.Cloud
