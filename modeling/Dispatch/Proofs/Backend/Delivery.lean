import Dispatch.Proofs.Cloud.Submission
import Dispatch.Proofs.Script.Location
/-!
Whether a submission runs the script that it uploads. Whatever the hosts and the provider reply, a submission uploads
the script before it starts it, and starts it as the same account; the file that it starts is the one that it has
uploaded just for the working directories from which the script is found again.
-/
namespace Dispatch

open Plan Shell

namespace Backend

/-- The command that a shell is to run which reads this line. -/
def commandOf? (line : List Char) : Option (List Char) :=
  match split (String.ofList line) with
  | some (.word path :: _) => some path
  | _ => none

/-- The script that a line names, once its directory has been entered: to a scheduler as the last word, to a shell of
its own as the command that it is to run. -/
def named? : Backend → List Token → Option (List Char)
  | batch _, tokens =>
    match tokens.getLast? with
    | some (.word path) => some path
    | _ => none
  | cloud _, .word ['n', 'o', 'h', 'u', 'p'] :: .word ['s', 'h'] :: .word ['-', 'c'] :: .word line :: _ =>
    commandOf? line
  | cloud _, _ => none

variable {Dir : Type} (tree : FileTree Dir) (home : Dir)

/-- The file that is run, if commands are run from a home. -/
def runs? (backend : Backend) : Action → Option (File Dir)
  | .execute command workingDir background =>
    (split (commandLine command workingDir background)).bind fun tokens =>
      (tree.goes? home tokens).bind fun (place, rest) => (backend.named? rest).bind fun path => tree.file? place path
  | _ => none

/-- The file that is put on the host, if files are put on it from a home. -/
def puts? : Action → Option (File Dir)
  | .upload _ path _ => tree.file? home path.toList
  | _ => none

/-- What starts a job whose script is at a path. -/
inductive Starts (options : Job.Options) (path : String) : Backend → Action → Prop
  | submission (frontend : Batch.Frontend) : Starts options path (.batch frontend)
      (.execute (frontend.scheduler.submitCommand path options) options.workingDir false)
  | launch (fleet : Cloud.Fleet) (outputPath errorPath : String) : Starts options path (.cloud fleet)
      (.execute (Cloud.Config.launchCommand path outputPath errorPath) options.workingDir true)

theorem named?_tokens (frontend : Batch.Frontend) (words : List String) (path : String) :
    (batch frontend).named? (Batch.Scheduler.tokens (words ++ [path])) = some path.toList := by
  have last : (Batch.Scheduler.tokens (words ++ [path])).getLast? = some (.word path.toList) := by
    simp [Batch.Scheduler.tokens]
  rw [named?, last]

theorem named?_detachedTokens (fleet : Cloud.Fleet) (path outputPath errorPath : String) :
    (cloud fleet).named? (detachedTokens (Cloud.Config.launchCommand path outputPath errorPath)) =
      some path.toList := by
  have hands (command : String) : (cloud fleet).named? (detachedTokens command) = commandOf? command.toList := rfl
  rw [hands, commandOf?, String.ofList_toList, split_launchCommand]
  rfl

theorem head?_submitWords (scheduler : Batch.Scheduler) (options : Job.Options) (script : String) :
    (Batch.Scheduler.tokens (scheduler.submitWords options ++ [script])).head? ≠ some (.word "cd".toList) := by
  cases scheduler with
  | slurm | pbs | sge => simp [Batch.Scheduler.tokens, Batch.Scheduler.submitWords]

variable {tree home}

/-- A line that names a script once its directory has been entered runs it from there. -/
theorem runs?_of_named {backend : Backend} {workingDir : Option String} {command : String} {background : Bool}
    {path : List Char} {rest : List Token}
    (read : split (commandLine command workingDir background) = some (enterTokens workingDir ++ rest))
    (other : rest.head? ≠ some (.word "cd".toList)) (named : backend.named? rest = some path) :
    backend.runs? tree home (.execute command workingDir background) =
      (tree.enters? home workingDir).bind fun place => tree.file? place path := by
  rw [runs?, read, Option.bind_some, tree.goes?_enterTokens home workingDir other]
  cases tree.enters? home workingDir with
  | none => rfl
  | some place => exact congrArg (Option.bind · fun path => tree.file? place path) named

/-- A job is started from its working directory, by the path that its script has. -/
theorem Starts.runs? {backend : Backend} {options : Job.Options} {path : String} {action : Action}
    (starts : backend.Starts options path action) :
    backend.runs? tree home action =
      (tree.enters? home options.workingDir).bind fun place => tree.file? place path.toList := by
  cases starts with
  | submission frontend =>
    apply runs?_of_named
    · exact split_foreground options.workingDir (frontend.scheduler.spells_submitCommand path options)
    · exact head?_submitWords frontend.scheduler options path
    · exact named?_tokens frontend _ path
  | launch fleet outputPath errorPath =>
    apply runs?_of_named
    · exact split_background _ options.workingDir
    · simp [detachedTokens]
    · exact named?_detachedTokens fleet path outputPath errorPath

/-- What starts a job: any command at a scheduler, and one in the background in a machine. -/
def isStart (backend : Backend) : Request → Bool
  | .remote _ (.execute _ _ background) =>
    match backend with
    | batch _ => true
    | cloud _ => background
  | _ => false

/-- What is done for a script: it is uploaded, and started. -/
def isStep (backend : Backend) (request : Request) : Bool := request.isUpload || backend.isStart request

/-- All that has been done for a script, in order. -/
def stepsOf (backend : Backend) (log : List (Moment Unit)) : List Request :=
  (log.map Moment.request).filter backend.isStep

/-- The script has been uploaded under a path below its working directory, and then started by that path. -/
def IsBrought (backend : Backend) (options : Job.Options) (steps : List Request) : Prop :=
  ∃ target content number run, backend.Starts options (Script.remotePath options.workingDir number) run ∧
    steps = [.remote target (.upload content (Script.remotePath options.workingDir number) Script.mode),
      .remote target run]

/-- How far a script can have come. -/
inductive Brings (backend : Backend) (options : Job.Options) : List Request → Prop
  | nothing : Brings backend options []
  | uploaded (target : Target) (content : String) (number : Nat) : Brings backend options
      [.remote target (.upload content (Script.remotePath options.workingDir number) Script.mode)]
  | started {steps : List Request} (brought : backend.IsBrought options steps) : Brings backend options steps

/-- What a part of a submission comes to, and what it has done for the script by then. -/
def Steps {α : Type} (backend : Backend) (gives : α → List Request → Prop) (fails : Fault → List Request → Prop)
    (task : Task α) : Prop :=
  Logs (fun value log => gives value (backend.stepsOf log)) (fun cause log => fails cause (backend.stepsOf log)) task

section Steps

variable {α β : Type} {backend : Backend} {options : Job.Options} {gives : β → List Request → Prop}
  {fails : Fault → List Request → Prop}

theorem stepsOf_append (log more : List (Moment Unit)) :
    backend.stepsOf (log ++ more) = backend.stepsOf log ++ backend.stepsOf more := by
  simp [stepsOf]

@[simp]
theorem steps_pure (value : β) : backend.Steps gives fails (pure value) ↔ gives value [] := logs_pure value

@[simp]
theorem steps_throw (cause : Fault) : backend.Steps gives fails (throw cause) ↔ fails cause [] := logs_throw cause

theorem Steps.mono {wider : β → List Request → Prop} {looser : Fault → List Request → Prop} {task : Task β}
    (steps : backend.Steps gives fails task) (value : ∀ value steps, gives value steps → wider value steps)
    (cause : ∀ cause steps, fails cause steps → looser cause steps) : backend.Steps wider looser task :=
  Logs.mono steps (fun given log => value given (backend.stepsOf log)) fun failed log =>
    cause failed (backend.stepsOf log)

/-- Steps come behind those of what was logged before. -/
theorem Steps.behind {log : List (Moment Unit)} {task : Task β}
    (steps : backend.Steps (fun value more => gives value (backend.stepsOf log ++ more))
      (fun cause more => fails cause (backend.stepsOf log ++ more)) task) :
    Logs (fun value more => gives value (backend.stepsOf (log ++ more)))
      (fun cause more => fails cause (backend.stepsOf (log ++ more))) task := by
  simp only [stepsOf_append]
  exact steps

theorem Steps.bind {first : α → List Request → Prop} {refused : Fault → List Request → Prop} {task : Task α}
    {rest : α → Task β} (begun : backend.Steps first refused task)
    (failed : ∀ cause steps, refused cause steps → fails cause steps)
    (later : ∀ value steps, first value steps → backend.Steps (fun result more => gives result (steps ++ more))
      (fun cause more => fails cause (steps ++ more)) (rest value)) : backend.Steps gives fails (task >>= rest) := by
  apply Logs.bind begun
  · exact fun cause log => failed cause (backend.stepsOf log)
  · exact fun value log known => (later value (backend.stepsOf log) known).behind

/-- What does nothing for the script. -/
theorem steps_aside {task : Task α} (asks : Asks (fun request => !backend.isStep request) task) :
    backend.Steps (fun _ steps => steps = []) (fun _ steps => steps = []) task := by
  have nothing {log : List (Moment Unit)} (aside : ∀ moment ∈ log, (!backend.isStep moment.request) = true) :
      backend.stepsOf log = [] := by
    simpa [stepsOf] using aside
  exact (Yields.logs asks).mono (fun _ _ known => nothing known.2) fun _ _ aside => nothing aside

/-- What does nothing for the script, and then the rest. -/
theorem Steps.after {task : Task α} {rest : α → Task β}
    (asks : Asks (fun request => !backend.isStep request) task) (failed : ∀ cause, fails cause [])
    (later : ∀ value, backend.Steps gives fails (rest value)) : backend.Steps gives fails (task >>= rest) := by
  apply (steps_aside asks).bind
  · rintro cause _ rfl
    exact failed cause
  · rintro value _ rfl
    exact later value

theorem Starts.isStart {path : String} {action : Action} (starts : backend.Starts options path action)
    (target : Target) : backend.isStart (.remote target action) = true := by
  cases starts with
  | submission | launch => rfl

theorem Starts.isStep {path : String} {action : Action} (starts : backend.Starts options path action)
    (target : Target) : backend.isStep (.remote target action) = true := by
  rw [Backend.isStep, starts.isStart target, Bool.or_true]

theorem steps_remote {target : Target} {action : Action} (step : backend.isStep (.remote target action) = true) :
    backend.Steps (fun _ steps => steps = [.remote target action]) (fun _ steps => steps = [.remote target action])
      (Task.remote target action) :=
  Task.logs_remote target action (fun _ => by simp [stepsOf, step]) fun _ => by simp [stepsOf, step]

/-- However a part ends, something else is done then. -/
theorem Steps.attempt {first : α → List Request → Prop} {refused : Fault → List Request → Prop} {task : Task α}
    {rest : Except Fault α → Task β} (begun : backend.Steps first refused task)
    (given : ∀ value steps, first value steps → backend.Steps (fun result more => gives result (steps ++ more))
      (fun cause more => fails cause (steps ++ more)) (rest (.ok value)))
    (failed : ∀ cause steps, refused cause steps → backend.Steps (fun result more => gives result (steps ++ more))
      (fun cause more => fails cause (steps ++ more)) (rest (.error cause))) :
    backend.Steps gives fails (Task.attempt task >>= rest) := by
  apply Task.logs_attempt begun
  · exact fun value log known => (given value (backend.stepsOf log) known).behind
  · exact fun cause log known => (failed cause (backend.stepsOf log) known).behind

/-- What has been done, with nothing done after it. -/
theorem Steps.before {done : List Request → Prop} {task : Task α} {rest : α → Task β}
    (begun : backend.Steps (fun _ => done) (fun _ => done) task)
    (asks : ∀ value, Asks (fun request => !backend.isStep request) (rest value)) :
    backend.Steps (fun _ => done) (fun _ => done) (task >>= rest) := by
  apply begun.bind fun _ _ known => known
  intro value steps known
  have kept {more : List Request} (aside : more = []) : done (steps ++ more) := by
    rw [aside, List.append_nil]
    exact known
  exact (steps_aside (asks value)).mono (fun _ _ => kept) fun _ _ => kept

theorem steps_upload (target : Target) (text : String) :
    backend.Steps
      (fun path steps => ∃ number, path = Script.remotePath options.workingDir number ∧
        steps = [.remote target (.upload text path Script.mode)])
      (fun _ => backend.Brings options) (Script.upload target options.workingDir text) := by
  unfold Script.upload
  apply Steps.after (Task.asks_ask rfl) fun _ => .nothing
  intro number
  have step : backend.isStep
      (.remote target (.upload text (Script.remotePath options.workingDir number) Script.mode)) = true := rfl
  refine (steps_remote step).bind (fun _ steps uploaded => ?_) fun _ steps uploaded => ?_
  · rw [uploaded]
    exact .uploaded target text number
  · exact (steps_pure _).mpr ⟨number, rfl, by rw [uploaded, List.append_nil]⟩

/-- After the upload comes the start. -/
theorem steps_start {target : Target} {text path : String} {number : Nat} {run : Action}
    (named : path = Script.remotePath options.workingDir number) (starts : backend.Starts options path run) :
    backend.Steps
      (fun _ steps => backend.IsBrought options (.remote target (.upload text path Script.mode) :: steps))
      (fun _ steps => backend.IsBrought options (.remote target (.upload text path Script.mode) :: steps))
      (Task.remote target run) := by
  subst named
  have brought {steps : List Request} (started : steps = [.remote target run]) : backend.IsBrought options
      (.remote target (.upload text (Script.remotePath options.workingDir number) Script.mode) :: steps) :=
    ⟨target, text, number, run, starts, by rw [started]⟩
  exact (steps_remote (starts.isStep target)).mono (fun _ _ => brought) fun _ _ => brought

end Steps

end Backend

open Backend

theorem Batch.Frontend.steps_submit (frontend : Batch.Frontend) (script : String) (options : Job.Options) :
    (Backend.batch frontend).Steps (fun _ => (Backend.batch frontend).IsBrought options)
      (fun _ => (Backend.batch frontend).Brings options) (frontend.submit script options) := by
  unfold submit
  apply Steps.after (Script.asks_stage _ _ rfl) fun _ => .nothing
  intro text
  apply (steps_upload _ text).bind fun _ _ known => known
  rintro path _ ⟨number, named, rfl⟩
  have printed : (Backend.batch frontend).Steps
      (fun _ steps => (Backend.batch frontend).IsBrought options
        (.remote frontend.target (.upload text path Script.mode) :: steps))
      (fun _ steps => (Backend.batch frontend).IsBrought options
        (.remote frontend.target (.upload text path Script.mode) :: steps))
      (frontend.outputOf (frontend.scheduler.submitCommand path options) options.workingDir) := by
    unfold outputOf
    apply (steps_start named (.submission frontend)).before
    intro outcome
    split
    next => exact yields_pure trivial
    next => exact yields_throw _
  refine (Steps.before printed fun stdout => ?_).mono (fun _ _ brought => brought) fun _ _ brought => .started brought
  exact (Task.asks_ofExcept _).bind fun _ => yields_pure trivial

namespace Cloud

theorem Config.steps_launch (fleet : Fleet) (config : Config) (vm : Int) (text : String) (options : Job.Options) :
    (Backend.cloud fleet).Steps (fun _ => (Backend.cloud fleet).IsBrought options)
      (fun _ => (Backend.cloud fleet).Brings options) (config.launch vm text options) := by
  unfold launch
  apply Steps.after (asks_awaitAddress config vm _ (fun _ _ => rfl) rfl) fun _ => .nothing
  intro address
  apply Steps.after (asks_awaitShell config _ _ rfl rfl) fun _ => .nothing
  intro _
  apply Steps.after (asks_mount config _ rfl) fun _ => .nothing
  intro _
  apply (steps_upload _ text).bind fun _ _ known => known
  rintro path _ ⟨number, named, rfl⟩
  refine (Steps.before (steps_start named (.launch fleet _ _)) fun outcome => ?_).mono (fun _ _ brought => brought)
    fun _ _ brought => .started brought
  split
  next => exact yields_throw _
  next => exact yields_pure trivial

theorem Config.steps_submit (fleet : Fleet) (config : Config) (script : String) (options : Job.Options) :
    (Backend.cloud fleet).Steps (fun _ => (Backend.cloud fleet).IsBrought options)
      (fun _ => (Backend.cloud fleet).Brings options) (config.submit script options) := by
  unfold submit
  refine logs_guard (fun _ => .nothing) fun _ => ?_
  apply Steps.after (Task.asks_ofExcept _) fun _ => .nothing
  intro description
  apply Steps.after (Script.asks_stage _ _ rfl) fun _ => .nothing
  intro text
  apply Steps.after (asks_allocate config _ fun _ _ => rfl) fun _ => .nothing
  intro vm
  refine (steps_launch fleet config vm text options).attempt (fun submitted steps brought => ?_)
    fun fault steps brought => ?_
  · exact (steps_pure _).mpr (by rwa [List.append_nil])
  · refine Steps.after (Task.asks_attempt (asks_act config .delete vm fun _ _ => rfl)) (fun _ => ?_) fun _ => ?_
    · rwa [List.append_nil]
    · exact (steps_throw _).mpr (by rwa [List.append_nil])

theorem Fleet.steps_submit (fleet : Fleet) (script : String) (options : Job.Options) :
    (Backend.cloud fleet).Steps (fun _ => (Backend.cloud fleet).IsBrought options)
      (fun _ => (Backend.cloud fleet).Brings options) (fleet.submit script options) := by
  unfold submit
  apply Steps.after (asks_config fleet) fun _ => .nothing
  intro _
  apply Steps.after (Task.asks_ofExcept _) fun _ => .nothing
  intro config
  exact Config.steps_submit fleet config script options

end Cloud

namespace Backend

/-- However far a submission comes, it has done nothing for the script, or uploaded it, or uploaded it and then started
it; a submission that succeeds has started it. -/
theorem steps_submit (backend : Backend) (script : String) (options : Job.Options) :
    backend.Steps (fun _ => backend.IsBrought options) (fun _ => backend.Brings options)
      (backend.submit script options) := by
  cases backend with
  | batch frontend => exact frontend.steps_submit script options
  | cloud fleet => exact fleet.steps_submit script options

theorem Brings.isBrought {backend : Backend} {options : Job.Options} {steps : List Request}
    (brings : backend.Brings options steps) {start : Request} (member : start ∈ steps)
    (starts : backend.isStart start = true) : backend.IsBrought options steps := by
  cases brings with
  | nothing => exact absurd member List.not_mem_nil
  | uploaded target content number =>
    obtain rfl := List.mem_singleton.mp member
    exact absurd starts Bool.false_ne_true
  | started brought => exact brought

/-- Whatever is replied to a submission: one that succeeds has started the script, and whenever a script is started it
has been uploaded before, once and as the same account. The file that was uploaded from the home of the account is the
one that is run from the working directory just for the directories from which it is found again: no directory, an
absolute one, the root if that is the home, and a relative one that leads from itself to itself. -/
theorem runs_what_it_uploads {backend : Backend} {script : String} {options : Job.Options}
    {result : Except Fault Job.Submitted} {last : Recorded Unit}
    (ended : Finishes Setting.anything.recorded (backend.submit script options) { state := () } result last) :
    (∀ submitted, result = .ok submitted →
      ∃ start ∈ backend.stepsOf last.trace, backend.isStart start = true) ∧
    ∀ start ∈ backend.stepsOf last.trace, backend.isStart start = true →
      ∃ target put run, backend.stepsOf last.trace = [.remote target put, .remote target run] ∧
        start = .remote target run ∧
        ∀ (Dir : Type) (tree : FileTree Dir) (home place : Dir), tree.enters? home options.workingDir = some place →
          ∃ file, puts? tree home put = some file ∧
            (backend.runs? tree home run = some file ↔ tree.Finds home options.workingDir) := by
  have known := backend.steps_submit script options result last ended
  constructor
  · rintro submitted rfl
    obtain ⟨target, content, number, run, starts, same⟩ := known
    refine ⟨.remote target run, ?_, starts.isStart target⟩
    rw [same]
    exact List.mem_cons_of_mem _ List.mem_cons_self
  · intro start member isStart
    have brings : backend.Brings options (backend.stepsOf last.trace) := by
      cases result with
      | ok submitted => exact .started known
      | error fault => exact known
    obtain ⟨target, content, number, run, starts, same⟩ := brings.isBrought member isStart
    refine ⟨target, _, run, same, ?_, fun Dir tree home place entered => ?_⟩
    · rw [same] at member
      rcases List.mem_cons.mp member with rfl | later
      · exact absurd isStart Bool.false_ne_true
      · exact List.mem_singleton.mp later
    · obtain ⟨file, put, found⟩ := Script.found_iff entered number
      refine ⟨file, put, ?_⟩
      rw [starts.runs?, entered]
      exact found

/-- Directories by their names from the root on. -/
def namedTree : FileTree (List String) where
  root := []
  enter? place name := some (if name = ['.', '.'] then place.dropLast else place ++ [String.ofList name])

def sampleHome : List String := ["home", "alice"]

def samplePlace : Backend := .batch { scheduler := .slurm, target := { host := "login", user := "alice" } }

/-- A host on which all succeeds that is asked for, and where a script is named by the number seven. -/
def sampleOutside : (request : Request) → request.Reply
  | .number _ => 7
  | .readFile _ => .ok "true"
  | .remote _ (.execute ..) => .ok (.completed 0 "42" "")
  | .remote _ (.upload ..) => .ok ()
  | request => Shared.outsideOf default "" request

/-- A submission for a working directory. -/
def sampleDelivery (workingDir : String) : Option (Except Fault Job.Submitted × Recorded Unit) :=
  let respond : Pool.Responder Unit := fun request _ => some (sampleOutside request, ())
  Plan.follow respond.recorded (samplePlace.submit "job.sh" { workingDir }).run { state := () }

theorem finishes_sampleDelivery {workingDir : String}
    (succeeds : (sampleDelivery workingDir).bind (fun (result, _) => result.toOption.map Job.Submitted.handle) =
      some "42") :
    ∃ submitted last, Finishes Setting.anything.recorded (samplePlace.submit "job.sh" { workingDir })
      { state := () } (.ok submitted) last := by
  obtain ⟨⟨result, last⟩, ran, given⟩ := Option.bind_eq_some_iff.mp succeeds
  obtain ⟨submitted, known, -⟩ := Option.map_eq_some_iff.mp given
  obtain rfl := eq_ok_of_toOption known
  exact ⟨submitted, last, ends_follow (Pool.Responder.answers_recorded fun _ => trivial) ran⟩

/-- The slashes at the end of an absolute directory make no difference. -/
theorem script_lands_below_work : ∃ submitted last target put run file,
    Finishes Setting.anything.recorded (samplePlace.submit "job.sh" { workingDir := "/work/grid//" }) { state := () }
      (.ok submitted) last ∧
    samplePlace.stepsOf last.trace = [.remote target put, .remote target run] ∧
    namedTree.enters? sampleHome (some "/work/grid//") = some ["work", "grid"] ∧
    puts? namedTree sampleHome put = some file ∧ samplePlace.runs? namedTree sampleHome run = some file := by
  have succeeds : (sampleDelivery "/work/grid//").bind (fun (result, _) =>
      result.toOption.map Job.Submitted.handle) = some "42" := by decide +kernel
  obtain ⟨submitted, last, ended⟩ := finishes_sampleDelivery succeeds
  obtain ⟨started, follows⟩ := runs_what_it_uploads ended
  obtain ⟨start, member, isStart⟩ := started submitted rfl
  obtain ⟨target, put, run, steps, -, judged⟩ := follows start member isStart
  have entered : namedTree.enters? sampleHome (some "/work/grid//") = some ["work", "grid"] := by decide +kernel
  have finds : namedTree.Finds sampleHome (some "/work/grid//") :=
    .absolute (by decide +kernel) ⟨'w', by decide +kernel, by decide⟩
  obtain ⟨file, uploaded, agrees⟩ := judged _ namedTree sampleHome ["work", "grid"] entered
  exact ⟨submitted, last, target, put, run, file, ended, steps, entered, uploaded, agrees.mpr finds⟩

/-- The submission succeeds, and its script is put in one directory and looked for in another. -/
def LandsApart (workingDir : String) (putIn runIn : List String) : Prop :=
  putIn ≠ runIn ∧ ∃ submitted last target put run name,
    Finishes Setting.anything.recorded (samplePlace.submit "job.sh" { workingDir }) { state := () } (.ok submitted)
      last ∧
    samplePlace.stepsOf last.trace = [.remote target put, .remote target run] ∧
    puts? namedTree sampleHome put = some { directory := putIn, name } ∧
    samplePlace.runs? namedTree sampleHome run = some { directory := runIn, name }

theorem landsApart_of_directories {workingDir : String} {place putIn runIn : List String} (apart : putIn ≠ runIn)
    (succeeds : (sampleDelivery workingDir).bind (fun (result, _) => result.toOption.map Job.Submitted.handle) =
      some "42")
    (puts : namedTree.directory? sampleHome (Script.directory (some workingDir)).toList = some putIn)
    (entered : namedTree.enters? sampleHome (some workingDir) = some place)
    (runs : namedTree.directory? place (Script.directory (some workingDir)).toList = some runIn) :
    LandsApart workingDir putIn runIn := by
  obtain ⟨submitted, last, ended⟩ := finishes_sampleDelivery succeeds
  obtain ⟨target, content, number, run, starts, steps⟩ := samplePlace.steps_submit _ _ _ _ ended
  refine ⟨apart, submitted, last, target, _, run, Script.fileName number, ended, steps, ?_, ?_⟩
  · rw [puts?, Script.file?_remotePath, puts]
    rfl
  · rw [starts.runs?, entered, Option.bind_some, Script.file?_remotePath, runs]
    rfl

/-- A relative directory is entered before its name is followed once more, and of the root nothing is left in the path
of the script. -/
theorem script_lands_elsewhere :
    namedTree.enters? sampleHome (some "run") = some ["home", "alice", "run"] ∧
    LandsApart "run" ["home", "alice", "run"] ["home", "alice", "run", "run"] ∧
    namedTree.enters? sampleHome (some "/") = some [] ∧ LandsApart "/" ["home", "alice"] [] := by
  have run : namedTree.enters? sampleHome (some "run") = some ["home", "alice", "run"] := by decide +kernel
  have root : namedTree.enters? sampleHome (some "/") = some [] := by decide +kernel
  refine ⟨run, ?_, root, ?_⟩
  · exact landsApart_of_directories (by decide) (by decide +kernel) (by decide +kernel) run (by decide +kernel)
  · exact landsApart_of_directories (by decide) (by decide +kernel) (by decide +kernel) root (by decide +kernel)

end Backend

end Dispatch
