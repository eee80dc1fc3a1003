import Dispatch.Plan
/-!
Protocols: what a plan may ask, given what it has learnt from the replies so far. A plan keeps its protocol
whatever the replies are, as far as they can be trusted, so nothing has to be said here about who answers, or
about other plans.
-/
namespace Dispatch

/-- What may be asked by one who knows something, what is known after a reply, and which replies can come at
all. -/
structure Protocol (κ : Type) where
  permits : κ → Request → Prop
  learn : κ → (request : Request) → request.Reply → κ
  trusts : (request : Request) → request.Reply → Prop := fun _ _ => True

namespace Plan

variable {κ ε φ α β : Type} {protocol : Protocol κ} {known : κ}

/-- A plan asks only what is permitted and ends as expected, whatever the replies are. -/
def Keeps (protocol : Protocol κ) (ends : α → κ → Prop) : Plan α → κ → Prop
  | done value, known => ends value known
  | ask request next, known =>
    protocol.permits known request ∧
      ∀ reply, protocol.trusts request reply →
        (next reply).Keeps protocol ends (protocol.learn known request reply)

theorem Keeps.mono {ends others : α → κ → Prop} {plan : Plan α} (kept : plan.Keeps protocol ends known)
    (weaker : ∀ value known, ends value known → others value known) : plan.Keeps protocol others known := by
  induction plan generalizing known with
  | done value => exact weaker value known kept
  | ask request next ih => exact ⟨kept.1, fun reply trusted => ih reply (kept.2 reply trusted)⟩

theorem keeps_bind {ends : β → κ → Prop} (plan : Plan α) (rest : α → Plan β) :
    (plan.bind rest).Keeps protocol ends known ↔
      plan.Keeps protocol (fun value known => (rest value).Keeps protocol ends known) known := by
  induction plan generalizing known with
  | done value => rfl
  | ask request next ih => simp only [bind, Keeps, ih]

/-- A plan that keeps a protocol keeps it whatever is made of its value. -/
theorem Keeps.discards {ends : α → κ → Prop} {plan : Plan α} (kept : plan.Keeps protocol ends known) (value : β) :
    (plan.bind fun _ => done value).Keeps protocol (fun _ _ => True) known :=
  (keeps_bind _ _).mpr (kept.mono fun _ _ _ => trivial)

/-- A plan that may fail keeps a protocol, with what is expected of its value and of its failure. -/
def Tries (protocol : Protocol κ) (gives : α → κ → Prop) (fails : ε → κ → Prop) (task : ExceptT ε Plan α)
    (known : κ) : Prop :=
  task.run.Keeps protocol (fun result known =>
    match result with
    | .ok value => gives value known
    | .error cause => fails cause known) known

section Tries

variable {gives : α → κ → Prop} {fails : ε → κ → Prop}

theorem Tries.mono {wider : α → κ → Prop} {looser : ε → κ → Prop} {task : ExceptT ε Plan α}
    (tried : Tries protocol gives fails task known) (value : ∀ value known, gives value known → wider value known)
    (cause : ∀ cause known, fails cause known → looser cause known) :
    Tries protocol wider looser task known := by
  refine Keeps.mono tried fun result known expected => ?_
  cases result with
  | ok given => exact value given known expected
  | error failed => exact cause failed known expected

@[simp]
theorem tries_pure (value : α) :
    Tries protocol gives fails (pure value : ExceptT ε Plan α) known ↔ gives value known := Iff.rfl

@[simp]
theorem tries_throw (cause : ε) :
    Tries protocol gives fails (throw cause : ExceptT ε Plan α) known ↔ fails cause known := Iff.rfl

@[simp]
theorem tries_bind {gives : β → κ → Prop} (task : ExceptT ε Plan α) (rest : α → ExceptT ε Plan β) :
    Tries protocol gives fails (task >>= rest) known ↔
      Tries protocol (fun value known => Tries protocol gives fails (rest value) known) fails task known := by
  unfold Tries
  rw [ExceptT.run_bind]
  refine (keeps_bind _ _).trans (iff_of_eq ?_)
  congr 1
  funext result known
  cases result with
  | ok value => rfl
  | error cause => rfl

/-- A plan that keeps a protocol keeps it where nobody asks for its result. -/
theorem Tries.keeps {task : ExceptT ε Plan α} (tried : Tries protocol gives fails task known) :
    (do let _ ← task.run : Plan Unit).Keeps protocol (fun _ _ => True) known := Keeps.discards tried ()

/-- A failure under a condition, and otherwise the rest. -/
theorem tries_guard {condition : Prop} [Decidable condition] {cause : ε} {rest : PUnit → ExceptT ε Plan α} :
    Tries protocol gives fails (if condition then throw cause >>= rest else rest ()) known ↔
      (condition → fails cause known) ∧ (¬condition → Tries protocol gives fails (rest ()) known) := by
  split
  next holds => simp [holds]
  next absent => simp [absent]

/-- Either of two plans, and then the same rest. -/
theorem tries_choice {gives : β → κ → Prop} {condition : Prop} [Decidable condition]
    {first second : ExceptT ε Plan α} {rest : α → ExceptT ε Plan β} :
    Tries protocol gives fails (if condition then first >>= rest else second >>= rest) known ↔
      Tries protocol gives fails ((if condition then first else second) >>= rest) known := by
  split
  next => rfl
  next => rfl

/-- The result of a plan that may fail, as a value. -/
theorem tries_liftRun {gives : Except φ α → κ → Prop} (task : ExceptT φ Plan α) :
    Tries protocol gives fails (ExceptT.lift task.run : ExceptT ε Plan (Except φ α)) known ↔
      Tries protocol (fun value => gives (.ok value)) (fun cause => gives (.error cause)) task known := by
  unfold Tries
  refine (keeps_bind _ _).trans (iff_of_eq ?_)
  congr 1
  funext result known
  cases result with
  | ok value => rfl
  | error cause => rfl

/-- The same plan with failures of another kind. -/
theorem tries_mapError (task : ExceptT φ Plan α) (convert : φ → ε) :
    Tries protocol gives fails (ExceptT.mk do return (← task.run).mapError convert) known ↔
      Tries protocol gives (fun cause => fails (convert cause)) task known := by
  unfold Tries
  refine (keeps_bind _ _).trans (iff_of_eq ?_)
  congr 1
  funext result known
  cases result with
  | ok value => rfl
  | error cause => rfl

end Tries

end Plan

open Plan

section Steps

variable {κ α : Type} {protocol : Protocol κ} {known : κ}

@[simp]
theorem Service.tries_ask (request : Request) {gives : request.Reply → κ → Prop}
    {fails : Failure → κ → Prop} :
    Tries protocol gives fails (Service.ask request) known ↔
      protocol.permits known request ∧ ∀ reply, protocol.trusts request reply →
        gives reply (protocol.learn known request reply) := Iff.rfl

@[simp]
theorem Service.tries_store (call : Store.Call) {gives : call.Answer → κ → Prop}
    {fails : Failure → κ → Prop} :
    Tries protocol gives fails (Service.store call) known ↔
      protocol.permits known (.store call) ∧
        (∀ answer, protocol.trusts (.store call) (.ok answer) →
          gives answer (protocol.learn known (.store call) (.ok answer))) ∧
        ∀ fault, protocol.trusts (.store call) (.error fault) →
          fails (Failure.ofStore fault) (protocol.learn known (.store call) (.error fault)) := by
  refine and_congr_right fun _ => ⟨fun replied => ⟨fun answer => replied (.ok answer), fun fault =>
    replied (.error fault)⟩, fun replied reply => ?_⟩
  cases reply with
  | ok answer => exact replied.1 answer
  | error fault => exact replied.2 fault

@[simp]
theorem Service.tries_attempt (service : Service α) {gives : Except Failure α → κ → Prop}
    {fails : Failure → κ → Prop} :
    Tries protocol gives fails (Service.attempt service) known ↔
      Tries protocol (fun value => gives (.ok value)) (fun cause => gives (.error cause)) service known :=
  tries_liftRun service

@[simp]
theorem Service.tries_ofExcept (result : Except Failure α) {gives : α → κ → Prop}
    {fails : Failure → κ → Prop} :
    Tries protocol gives fails (Service.ofExcept result) known ↔
      (∀ value, result = .ok value → gives value known) ∧ ∀ cause, result = .error cause → fails cause known := by
  cases result with
  | ok value => simp [Service.ofExcept]
  | error cause => simp [Service.ofExcept]

@[simp]
theorem Service.tries_backend (task : Backend.Task α) {gives : α → κ → Prop} {fails : Failure → κ → Prop} :
    Tries protocol gives fails (Service.backend task) known ↔
      Tries protocol gives (fun fault => fails (Failure.ofBackend fault)) task known :=
  tries_mapError task Failure.ofBackend

namespace Backend.Task

@[simp]
theorem tries_ask (request : Request) {gives : request.Reply → κ → Prop} {fails : Fault → κ → Prop} :
    Tries protocol gives fails (Task.ask request) known ↔
      protocol.permits known request ∧ ∀ reply, protocol.trusts request reply →
        gives reply (protocol.learn known request reply) := Iff.rfl

@[simp]
theorem tries_attempt (task : Task α) {gives : Except Fault α → κ → Prop} {fails : Fault → κ → Prop} :
    Tries protocol gives fails (Task.attempt task) known ↔
      Tries protocol (fun value => gives (.ok value)) (fun cause => gives (.error cause)) task known :=
  tries_liftRun task

@[simp]
theorem tries_ofExcept (result : Except Fault α) {gives : α → κ → Prop} {fails : Fault → κ → Prop} :
    Tries protocol gives fails (Task.ofExcept result) known ↔
      (∀ value, result = .ok value → gives value known) ∧ ∀ cause, result = .error cause → fails cause known := by
  cases result with
  | ok value => simp [Task.ofExcept]
  | error cause => simp [Task.ofExcept]

@[simp]
theorem tries_remote (target : Shell.Target) (action : Shell.Action) {gives : action.Result → κ → Prop}
    {fails : Fault → κ → Prop} :
    Tries protocol gives fails (Task.remote target action) known ↔
      protocol.permits known (.remote target action) ∧
        (∀ result, protocol.trusts (.remote target action) (.ok result) →
          gives result (protocol.learn known (.remote target action) (.ok result))) ∧
        ∀ fault, protocol.trusts (.remote target action) (.error fault) →
          fails (.remote fault) (protocol.learn known (.remote target action) (.error fault)) := by
  refine and_congr_right fun _ => ⟨fun replied => ⟨fun result => replied (.ok result), fun fault =>
    replied (.error fault)⟩, fun replied reply => ?_⟩
  cases reply with
  | ok result => exact replied.1 result
  | error fault => exact replied.2 fault

end Backend.Task

end Steps

end Dispatch
