import Dispatch.Proofs.Plan.Ensures
/-!
Records: all that was asked and replied while a plan ran alone. A record only grows, and it grows by requests of the
footprint of the plan.
-/
namespace Dispatch

variable {σ α β ε : Type} {setting : Setting σ}

/-- A state, and all that has happened before it. -/
structure Recorded (σ : Type) where
  state : σ
  trace : List (Moment σ) := []

/-- The same replies, all of them written down. -/
def Setting.recorded (setting : Setting σ) : Setting (Recorded σ) := fun now request reply next =>
  setting now.state request reply next.state ∧
    next.trace = now.trace ++ [{ before := now.state, request, reply, after := next.state }]

/-- An outside of which nothing is known: any reply may come to any request. -/
def Setting.anything : Setting Unit := fun _ _ _ _ => True

/-- The same responses, all of them written down. -/
def Pool.Responder.recorded (respond : Pool.Responder σ) : Pool.Responder (Recorded σ) := fun request now =>
  (respond request now.state).map fun (reply, next) =>
    (reply, { state := next, trace := now.trace ++ [{ before := now.state, request, reply, after := next }] })

theorem Pool.Responder.answers_recorded {respond : Pool.Responder σ}
    (answered : ∀ {request state reply next}, respond request state = some (reply, next) →
      setting state request reply next)
    {request : Request} {now next : Recorded σ} {reply : request.Reply}
    (replied : respond.recorded request now = some (reply, next)) : setting.recorded now request reply next := by
  obtain ⟨⟨given, after⟩, found, same⟩ := Option.map_eq_some_iff.mp replied
  cases same
  exact ⟨answered found, rfl⟩

/-- A moment without the state that it was in. -/
def Moment.bare (moment : Moment σ) : Moment Unit :=
  { before := (), request := moment.request, reply := moment.reply, after := () }

/-- How often something has been asked for. -/
def timesAsked (wanted : Request → Bool) (log : List (Moment σ)) : Nat :=
  log.countP fun moment => wanted moment.request

section Counting

variable {wanted : Request → Bool} {log : List (Moment σ)}

@[simp]
theorem timesAsked_nil : timesAsked wanted ([] : List (Moment σ)) = 0 := rfl

@[simp]
theorem timesAsked_append (more : List (Moment σ)) :
    timesAsked wanted (log ++ more) = timesAsked wanted log + timesAsked wanted more := List.countP_append

@[simp]
theorem timesAsked_cons (moment : Moment σ) :
    timesAsked wanted (moment :: log) = timesAsked wanted log + if wanted moment.request = true then 1 else 0 :=
  List.countP_cons

theorem timesAsked_eq_zero : timesAsked wanted log = 0 ↔ ∀ moment ∈ log, wanted moment.request = false := by
  simp [timesAsked, List.countP_eq_zero]

end Counting

namespace Plan

variable {allowed : Request → Bool} {expected : α → Prop}

/-- Runs a plan to its end, unless it has to wait. -/
def follow (respond : Pool.Responder σ) : Plan α → σ → Option (α × σ)
  | done value, state => some (value, state)
  | ask request next, state =>
    match respond request state with
    | some (reply, middle) => (next reply).follow respond middle
    | none => none

theorem ends_follow {respond : Pool.Responder σ}
    (answered : ∀ {request state reply next}, respond request state = some (reply, next) →
      setting state request reply next)
    {plan : Plan α} {state last : σ} {result : α} (ran : plan.follow respond state = some (result, last)) :
    plan.Ends setting state result last := by
  induction plan generalizing state with
  | done value =>
    cases ran
    exact ⟨rfl, rfl⟩
  | ask request next ih =>
    rw [follow] at ran
    split at ran
    next reply middle replied => exact ⟨reply, middle, answered replied, ih reply ran⟩
    next => cases ran

/-- What is written down changes nothing. -/
theorem Finishes.forget {task : ExceptT ε Plan α} {now last : Recorded σ} {result : Except ε α}
    (ended : Finishes setting.recorded task now result last) :
    Finishes setting task now.state result last.state := Ends.through Recorded.state ended fun answered => answered.1

/-- A record begins with what was there before, and what is added to it does not depend on that. -/
theorem Finishes.added {task : ExceptT ε Plan α} {now last : Recorded σ} {result : Except ε α}
    (ended : Finishes setting.recorded task now result last) :
    ∃ added, last.trace = now.trace ++ added ∧ ∀ before, Finishes setting.recorded task
      { state := now.state, trace := before } result { state := last.state, trace := before ++ added } := by
  have walk {plan : Plan (Except ε α)} {now : Recorded σ} (ended : plan.Ends setting.recorded now result last) :
      ∃ added, last.trace = now.trace ++ added ∧ ∀ before, plan.Ends setting.recorded
        { state := now.state, trace := before } result { state := last.state, trace := before ++ added } := by
    induction plan generalizing now with
    | done value =>
      obtain ⟨rfl, rfl⟩ := ended
      exact ⟨[], by simp, fun before => ⟨rfl, by simp⟩⟩
    | ask request next ih =>
      obtain ⟨reply, middle, ⟨answered, grown⟩, later⟩ := ended
      obtain ⟨added, same, replay⟩ := ih reply later
      let moment : Moment σ := { before := now.state, request, reply, after := middle.state }
      refine ⟨moment :: added, by rw [same, grown, List.append_assoc]; rfl, fun before => ?_⟩
      have shifted := replay (before ++ [moment])
      rw [List.append_assoc] at shifted
      exact ⟨reply, { state := middle.state, trace := before ++ [moment] }, ⟨answered, rfl⟩, shifted⟩
  exact walk ended

/-- Without the states, a record is a log. -/
theorem Finishes.bare {task : ExceptT ε Plan α} {now last : Recorded σ} {result : Except ε α}
    (ended : Finishes setting.recorded task now result last) :
    Finishes Setting.anything.recorded task { state := (), trace := now.trace.map Moment.bare } result
      { state := (), trace := last.trace.map Moment.bare } := by
  let view (now : Recorded σ) : Recorded Unit := { state := (), trace := now.trace.map Moment.bare }
  refine Ends.through view ended fun {now next request reply} answered => ⟨trivial, ?_⟩
  change next.trace.map Moment.bare = now.trace.map Moment.bare ++ _
  rw [answered.2, List.map_append]
  rfl

theorem all_snoc {log longer : List (Moment σ)} {moment : Moment σ} (grown : longer = log ++ [moment])
    (earlier : ∀ moment ∈ log, allowed moment.request = true) (member : allowed moment.request = true) :
    ∀ moment ∈ longer, allowed moment.request = true := by
  intro other present
  rw [grown] at present
  rcases List.mem_append.mp present with before | here
  · exact earlier other before
  · rw [List.mem_singleton.mp here]
    exact member

/-- All that is written down is of the footprint. -/
theorem Asks.all_of_recorded {task : ExceptT ε Plan α} (asks : Asks allowed task) {state : σ} {last : Recorded σ}
    {result : Except ε α} (ended : Finishes setting.recorded task { state } result last) :
    ∀ moment ∈ last.trace, allowed moment.request = true := by
  refine asks.invariant (fun now => ∀ moment ∈ now.trace, allowed moment.request = true) ended ?_ (by simp)
  intro now next request reply member answered earlier
  exact all_snoc answered.2 earlier member

/-- A plan that may be told anything: what it comes to, and what has been asked by then. -/
def Logs (gives : α → List (Moment Unit) → Prop) (fails : ε → List (Moment Unit) → Prop)
    (task : ExceptT ε Plan α) : Prop :=
  Ensures Setting.anything.recorded (fun value last => gives value last.trace)
    (fun cause last => fails cause last.trace) task { state := () }

section Logs

theorem Logs.mono {gives wider : α → List (Moment Unit) → Prop} {fails looser : ε → List (Moment Unit) → Prop}
    {task : ExceptT ε Plan α} (logs : Logs gives fails task)
    (value : ∀ value log, gives value log → wider value log) (cause : ∀ cause log, fails cause log → looser cause log) :
    Logs wider looser task :=
  Ensures.mono logs (fun given last => value given last.trace) fun failed last => cause failed last.trace

theorem Logs.and {first second : α → List (Moment Unit) → Prop} {refused failed : ε → List (Moment Unit) → Prop}
    {task : ExceptT ε Plan α} (one : Logs first refused task) (other : Logs second failed task) :
    Logs (fun value log => first value log ∧ second value log) (fun cause log => refused cause log ∧ failed cause log)
      task :=
  Ensures.and one other

variable {gives : β → List (Moment Unit) → Prop} {fails : ε → List (Moment Unit) → Prop}

@[simp]
theorem logs_pure (value : β) : Logs gives fails (pure value) ↔ gives value [] := ensures_pure value

@[simp]
theorem logs_throw (cause : ε) : Logs gives fails (throw cause) ↔ fails cause [] := ensures_throw cause

theorem logs_guard {condition : Prop} [Decidable condition] {cause : ε} {rest : PUnit → ExceptT ε Plan β}
    (failed : condition → fails cause []) (passed : ¬condition → Logs gives fails (rest ())) :
    Logs gives fails (if condition then throw cause >>= rest else rest ()) := ensures_guard.mpr ⟨failed, passed⟩

/-- The log that goes with an end belongs to a run of the plan. -/
theorem Logs.ran {task : ExceptT ε Plan β} (logs : Logs gives fails task) :
    Logs
      (fun value log => gives value log ∧
        Finishes Setting.anything.recorded task { state := () } (.ok value) { state := (), trace := log })
      (fun cause log => fails cause log ∧
        Finishes Setting.anything.recorded task { state := () } (.error cause) { state := (), trace := log })
      task := by
  intro result last ended
  have known := logs result last ended
  cases result with
  | ok value => exact ⟨known, ended⟩
  | error cause => exact ⟨known, ended⟩

/-- What is certain whatever is told is certain of the record on any server. -/
theorem Logs.ensures {task : ExceptT ε Plan β} (logs : Logs gives fails task) (now : Recorded σ) :
    Ensures setting.recorded
      (fun value last => ∃ added, last.trace = now.trace ++ added ∧ gives value (added.map Moment.bare))
      (fun cause last => ∃ added, last.trace = now.trace ++ added ∧ fails cause (added.map Moment.bare)) task now := by
  intro result last ended
  obtain ⟨added, grown, replay⟩ := ended.added
  have known := logs result _ (replay []).bare
  cases result with
  | ok value => exact ⟨added, grown, known⟩
  | error cause => exact ⟨added, grown, known⟩

/-- The log of a plan in two parts is that of the first, and then that of the second. -/
theorem Logs.bind {first : α → List (Moment Unit) → Prop} {refused : ε → List (Moment Unit) → Prop}
    {task : ExceptT ε Plan α} {rest : α → ExceptT ε Plan β} (begun : Logs first refused task)
    (failed : ∀ cause log, refused cause log → fails cause log)
    (later : ∀ value log, first value log →
      Logs (fun result more => gives result (log ++ more)) (fun cause more => fails cause (log ++ more))
        (rest value)) : Logs gives fails (task >>= rest) := by
  refine (ensures_bind _ _).mpr (Ensures.mono begun (fun value middle given => ?_) fun cause last =>
    failed cause last.trace)
  intro result last ended
  obtain ⟨added, same, replay⟩ := ended.added
  have known := later value middle.trace given result _ (replay [])
  cases result with
  | ok final =>
    change gives final last.trace
    rw [same]
    exact known
  | error cause =>
    change fails cause last.trace
    rw [same]
    exact known

/-- What is of the footprint of a plan is all that is in its log. -/
theorem Yields.logs {task : ExceptT ε Plan α} (yields : Yields allowed expected task) :
    Logs (fun value log => expected value ∧ ∀ moment ∈ log, allowed moment.request = true)
      (fun _ log => ∀ moment ∈ log, allowed moment.request = true) task := by
  refine yields.ensures (fun now : Recorded Unit => ∀ moment ∈ now.trace, allowed moment.request = true) ?_ (by simp)
  intro now next request reply member answered earlier
  exact all_snoc answered.2 earlier member

end Logs

end Plan

open Plan

namespace Backend.Task

variable {fails : Fault → List (Moment Unit) → Prop}

theorem logs_ask {request : Request} {gives : request.Reply → List (Moment Unit) → Prop}
    (given : ∀ reply, gives reply [{ before := (), request, reply, after := () }]) :
    Logs gives fails (Task.ask request) := by
  refine (ensures_ask request).mpr fun reply next answered => ?_
  rw [answered.2]
  exact given reply

theorem logs_remote (target : Shell.Target) (action : Shell.Action)
    {gives : action.Result → List (Moment Unit) → Prop}
    (given : ∀ result, gives result
      [{ before := (), request := .remote target action, reply := .ok result, after := () }])
    (failed : ∀ fault, fails (.remote fault)
      [{ before := (), request := .remote target action, reply := .error fault, after := () }]) :
    Logs gives fails (Task.remote target action) := by
  refine (ensures_remote target action).mpr ⟨fun result next answered => ?_, fun fault next answered => ?_⟩
  · rw [answered.2]
    exact given result
  · rw [answered.2]
    exact failed fault

/-- However a task ends, something else is done then. -/
theorem logs_attempt {task : Task α} {rest : Except Fault α → Task β} {first : α → List (Moment Unit) → Prop}
    {refused : Fault → List (Moment Unit) → Prop} {gives : β → List (Moment Unit) → Prop}
    (logs : Logs first refused task)
    (given : ∀ value log, first value log →
      Logs (fun result more => gives result (log ++ more)) (fun cause more => fails cause (log ++ more))
        (rest (.ok value)))
    (failed : ∀ cause log, refused cause log →
      Logs (fun result more => gives result (log ++ more)) (fun cause more => fails cause (log ++ more))
        (rest (.error cause))) : Logs gives fails (Task.attempt task >>= rest) := by
  have attempted : Logs (fun result log => (∀ value, result = .ok value → first value log) ∧
      ∀ cause, result = .error cause → refused cause log) (fun _ _ => False) (Task.attempt task) := by
    refine (ensures_attempt task).mpr (Ensures.mono logs (fun value last known => ?_) fun cause last known => ?_)
    · exact ⟨fun other same => Except.ok.inj same ▸ known, nofun⟩
    · exact ⟨nofun, fun other same => Except.error.inj same ▸ known⟩
  refine attempted.bind (fun _ _ never => never.elim) fun result log known => ?_
  cases result with
  | ok value => exact given value log (known.1 value rfl)
  | error cause => exact failed cause log (known.2 cause rfl)

end Backend.Task

end Dispatch
