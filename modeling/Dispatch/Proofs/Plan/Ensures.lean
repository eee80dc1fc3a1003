import Dispatch.Proofs.Plan.Ends
/-!
What is certain of plans that run alone. A plan ensures something if it ends like that whatever the replies are, as
far as they can come at all; so it is ensured step by step, and what no request of a footprint breaks is ensured
by every plan of that footprint.
-/
namespace Dispatch

namespace Plan

variable {σ α β ε φ : Type} {setting : Setting σ} {state : σ}

/-- However a plan that may fail ends, with its value or with a failure, it ends like this. -/
def Ensures (setting : Setting σ) (gives : α → σ → Prop) (fails : ε → σ → Prop) (task : ExceptT ε Plan α)
    (state : σ) : Prop :=
  ∀ result last, Finishes setting task state result last →
    match result with
    | .ok value => gives value last
    | .error cause => fails cause last

variable {gives : α → σ → Prop} {fails : ε → σ → Prop}

theorem Ensures.mono {wider : α → σ → Prop} {looser : ε → σ → Prop} {task : ExceptT ε Plan α}
    (ensured : Ensures setting gives fails task state) (value : ∀ value last, gives value last → wider value last)
    (cause : ∀ cause last, fails cause last → looser cause last) : Ensures setting wider looser task state := by
  intro result last ended
  have known := ensured result last ended
  cases result with
  | ok given => exact value given last known
  | error failed => exact cause failed last known

/-- What is certain of an end, whichever it is. -/
theorem Ensures.holds {ends : Except ε α → σ → Prop} {task : ExceptT ε Plan α} {result : Except ε α} {last : σ}
    (ensured : Ensures setting (fun value => ends (.ok value)) (fun cause => ends (.error cause)) task state)
    (ended : Finishes setting task state result last) : ends result last := by
  have known := ensured result last ended
  cases result with
  | ok value => exact known
  | error cause => exact known

theorem Ensures.and {wider : α → σ → Prop} {looser : ε → σ → Prop} {task : ExceptT ε Plan α}
    (first : Ensures setting gives fails task state) (second : Ensures setting wider looser task state) :
    Ensures setting (fun value last => gives value last ∧ wider value last)
      (fun cause last => fails cause last ∧ looser cause last) task state := by
  intro result last ended
  have known := first result last ended
  have more := second result last ended
  cases result with
  | ok given => exact ⟨known, more⟩
  | error failed => exact ⟨known, more⟩

/-- What is certain of an end goes with a run that ends so. -/
theorem Ensures.ran {task : ExceptT ε Plan α} (ensured : Ensures setting gives fails task state) :
    Ensures setting (fun value last => gives value last ∧ Finishes setting task state (.ok value) last)
      (fun cause last => fails cause last ∧ Finishes setting task state (.error cause) last) task state := by
  intro result last ended
  have known := ensured result last ended
  cases result with
  | ok value => exact ⟨known, ended⟩
  | error cause => exact ⟨known, ended⟩

@[simp]
theorem ensures_pure (value : α) :
    Ensures setting gives fails (pure value : ExceptT ε Plan α) state ↔ gives value state := by
  constructor
  · intro ensured
    exact ensured _ _ ((finishes_pure value _).mpr ⟨rfl, rfl⟩)
  · intro given result last ended
    obtain ⟨rfl, rfl⟩ := (finishes_pure value _).mp ended
    exact given

@[simp]
theorem ensures_throw (cause : ε) :
    Ensures setting gives fails (throw cause : ExceptT ε Plan α) state ↔ fails cause state := by
  constructor
  · intro ensured
    exact ensured _ _ ((finishes_throw cause _).mpr ⟨rfl, rfl⟩)
  · intro failed result last ended
    obtain ⟨rfl, rfl⟩ := (finishes_throw cause _).mp ended
    exact failed

theorem ensures_bind {gives : β → σ → Prop} (task : ExceptT ε Plan α) (rest : α → ExceptT ε Plan β) :
    Ensures setting gives fails (task >>= rest) state ↔
      Ensures setting (fun value middle => Ensures setting gives fails (rest value) middle) fails task state := by
  constructor
  · intro ensured result middle first
    cases result with
    | ok value =>
      intro result last second
      exact ensured result last ((finishes_bind _ _ _).mpr (.inl ⟨value, middle, first, second⟩))
    | error cause => exact ensured (.error cause) middle ((finishes_bind _ _ _).mpr (.inr ⟨cause, first, rfl⟩))
  · intro ensured result last ended
    rcases (finishes_bind _ _ _).mp ended with ⟨value, middle, first, second⟩ | ⟨cause, first, rfl⟩
    · exact ensured _ _ first result last second
    · exact ensured _ _ first

/-- What is certain of the first part is where the second begins. -/
theorem Ensures.bind {first : α → σ → Prop} {gives : β → σ → Prop} {task : ExceptT ε Plan α}
    {rest : α → ExceptT ε Plan β} (begun : Ensures setting first fails task state)
    (later : ∀ value middle, first value middle → Ensures setting gives fails (rest value) middle) :
    Ensures setting gives fails (task >>= rest) state :=
  (ensures_bind task rest).mpr (begun.mono later fun _ _ failed => failed)

/-- What is certain in a setting that sees less of the state, and answers what it sees in the same way, is certain. -/
theorem Ensures.through {τ : Type} {inner : Setting τ} {gives : α → τ → Prop} {fails : ε → τ → Prop}
    {task : ExceptT ε Plan α} (view : σ → τ) (ensured : Ensures inner gives fails task (view state))
    (seen : ∀ {state next : σ} {request : Request} {reply : request.Reply}, setting state request reply next →
      inner (view state) request reply (view next)) :
    Ensures setting (fun value last => gives value (view last)) (fun cause last => fails cause (view last)) task
      state :=
  fun result last ended => ensured result (view last) (Ends.through view ended seen)

/-- A failure under a condition, and otherwise the rest. -/
theorem ensures_guard {condition : Prop} [Decidable condition] {cause : ε} {rest : PUnit → ExceptT ε Plan α} :
    Ensures setting gives fails (if condition then throw cause >>= rest else rest ()) state ↔
      (condition → fails cause state) ∧ (¬condition → Ensures setting gives fails (rest ()) state) := by
  split
  next holds => simp [holds]
  next absent => simp [absent]

/-- Either of two plans, and then the same rest. -/
theorem ensures_choice {gives : β → σ → Prop} {condition : Prop} [Decidable condition]
    {first second : ExceptT ε Plan α} {rest : α → ExceptT ε Plan β} :
    Ensures setting gives fails (if condition then first >>= rest else second >>= rest) state ↔
      Ensures setting gives fails ((if condition then first else second) >>= rest) state := by
  split
  next => rfl
  next => rfl

variable {allowed : Request → Bool} {expected : α → Prop}

/-- What no request of a footprint breaks, every plan of that footprint keeps, with its value as expected. -/
theorem Yields.ensures {task : ExceptT ε Plan α} (yields : Yields allowed expected task) (rule : σ → Prop)
    (kept : ∀ {state next : σ} {request : Request} {reply : request.Reply}, allowed request = true →
      setting state request reply next → rule state → rule next) (begins : rule state) :
    Ensures setting (fun value last => expected value ∧ rule last) (fun _ last => rule last) task state := by
  intro result last ended
  have expects : task.run.Keeps (Protocol.within allowed) (fun result _ =>
      match result with
      | .ok value => expected value
      | .error _ => True) () := Keeps.mono yields fun result _ given => by cases result <;> exact given
  obtain ⟨known, holds⟩ := expects.ended rule ended kept begins
  cases result with
  | ok value => exact ⟨known, holds⟩
  | error cause => exact holds

/-- A rule that holds before a plan holds after it, whether it fails or not. -/
abbrev Preserves (setting : Setting σ) (rule : σ → Prop) (task : ExceptT ε Plan α) : Prop :=
  ∀ state, rule state → Ensures setting (fun _ last => rule last) (fun _ last => rule last) task state

theorem Yields.preserves {rule : σ → Prop} {task : ExceptT ε Plan α} (yields : Yields allowed expected task)
    (kept : ∀ {state next : σ} {request : Request} {reply : request.Reply}, allowed request = true →
      setting state request reply next → rule state → rule next) : Preserves setting rule task :=
  fun _ begins => (yields.ensures rule kept begins).mono (fun _ _ known => known.2) fun _ _ holds => holds

theorem Preserves.bind {rule : σ → Prop} {task : ExceptT ε Plan α} {rest : α → ExceptT ε Plan β}
    (first : Preserves setting rule task) (second : ∀ value, Preserves setting rule (rest value)) :
    Preserves setting rule (task >>= rest) := fun state begins =>
  (first state begins).bind second

theorem preserves_pure {rule : σ → Prop} (value : α) :
    Preserves setting rule (pure value : ExceptT ε Plan α) := fun _ begins => (ensures_pure value).mpr begins

theorem preserves_throw {rule : σ → Prop} (cause : ε) :
    Preserves setting rule (throw cause : ExceptT ε Plan α) := fun _ begins => (ensures_throw cause).mpr begins

end Plan

open Plan

section Steps

variable {σ α : Type} {setting : Setting σ} {state : σ}

theorem Plan.finishes_mapError {ε φ : Type} {last : σ} (task : ExceptT φ Plan α) (convert : φ → ε)
    (result : Except ε α) :
    Finishes setting (ExceptT.mk do return (← task.run).mapError convert) state result last ↔
      ∃ inner, Finishes setting task state inner last ∧ inner.mapError convert = result := by
  refine (ends_bind _ _ _).trans ⟨?_, ?_⟩
  · rintro ⟨inner, middle, ended, same, rfl⟩
    exact ⟨inner, ended, same⟩
  · rintro ⟨inner, ended, same⟩
    exact ⟨inner, last, ended, same, rfl⟩

namespace Service

variable {fails : Failure → σ → Prop}

@[simp]
theorem ensures_ask (request : Request) {gives : request.Reply → σ → Prop} :
    Ensures setting gives fails (Service.ask request) state ↔
      ∀ reply next, setting state request reply next → gives reply next := by
  constructor
  · intro ensured reply next answered
    exact ensured _ _ ((finishes_ask _ _).mpr ⟨reply, answered, rfl⟩)
  · intro given result last ended
    obtain ⟨reply, answered, rfl⟩ := (finishes_ask _ _).mp ended
    exact given reply last answered

@[simp]
theorem ensures_store (call : Store.Call) {gives : call.Answer → σ → Prop} :
    Ensures setting gives fails (Service.store call) state ↔
      (∀ answer next, setting state (.store call) (.ok answer) next → gives answer next) ∧
        ∀ fault next, setting state (.store call) (.error fault) next → fails (Failure.ofStore fault) next := by
  constructor
  · intro ensured
    refine ⟨fun answer next answered => ?_, fun fault next answered => ?_⟩
    · exact ensured (.ok answer) _ ((finishes_store _ _).mpr ⟨_, answered, rfl⟩)
    · exact ensured (.error _) _ ((finishes_store _ _).mpr ⟨_, answered, rfl⟩)
  · rintro ⟨given, failed⟩ result last ended
    obtain ⟨reply, answered, rfl⟩ := (finishes_store _ _).mp ended
    cases reply with
    | ok answer => exact given answer last answered
    | error fault => exact failed fault last answered

@[simp]
theorem ensures_attempt (service : Service α) {gives : Except Failure α → σ → Prop} :
    Ensures setting gives fails (Service.attempt service) state ↔
      Ensures setting (fun value => gives (.ok value)) (fun cause => gives (.error cause)) service state := by
  constructor
  · intro ensured result last ended
    have known := ensured (.ok result) last ((finishes_attempt _ _).mpr ⟨result, ended, rfl⟩)
    cases result with
    | ok value => exact known
    | error cause => exact known
  · intro ensured result last ended
    obtain ⟨inner, inside, rfl⟩ := (finishes_attempt _ _).mp ended
    have known := ensured inner last inside
    cases inner with
    | ok value => exact known
    | error cause => exact known

@[simp]
theorem ensures_ofExcept (result : Except Failure α) {gives : α → σ → Prop} :
    Ensures setting gives fails (Service.ofExcept result) state ↔
      (∀ value, result = .ok value → gives value state) ∧ ∀ cause, result = .error cause → fails cause state := by
  cases result with
  | ok value => simp [Service.ofExcept]
  | error cause => simp [Service.ofExcept]

@[simp]
theorem ensures_backend (task : Backend.Task α) {gives : α → σ → Prop} :
    Ensures setting gives fails (Service.backend task) state ↔
      Ensures setting gives (fun fault => fails (Failure.ofBackend fault)) task state := by
  constructor
  · intro ensured result last ended
    have known := ensured _ last ((finishes_mapError task Failure.ofBackend _).mpr ⟨result, ended, rfl⟩)
    cases result with
    | ok value => exact known
    | error fault => exact known
  · intro ensured result last ended
    obtain ⟨inner, inside, rfl⟩ := (finishes_mapError task Failure.ofBackend _).mp ended
    have known := ensured inner last inside
    cases inner with
    | ok value => exact known
    | error fault => exact known

theorem preserves_attempt {rule : σ → Prop} {service : Service α} (preserves : Preserves setting rule service) :
    Preserves setting rule (Service.attempt service) := fun state begins =>
  (ensures_attempt service).mpr (preserves state begins)

end Service

namespace Backend.Task

variable {fails : Fault → σ → Prop}

@[simp]
theorem ensures_ask (request : Request) {gives : request.Reply → σ → Prop} :
    Ensures setting gives fails (Task.ask request) state ↔
      ∀ reply next, setting state request reply next → gives reply next := by
  constructor
  · intro ensured reply next answered
    exact ensured (.ok reply) next ⟨reply, next, answered, rfl, rfl⟩
  · rintro given result last ⟨reply, next, answered, rfl, rfl⟩
    exact given reply next answered

@[simp]
theorem ensures_ofExcept (result : Except Fault α) {gives : α → σ → Prop} :
    Ensures setting gives fails (Task.ofExcept result) state ↔
      (∀ value, result = .ok value → gives value state) ∧ ∀ cause, result = .error cause → fails cause state := by
  cases result with
  | ok value => simp [Task.ofExcept]
  | error cause => simp [Task.ofExcept]

@[simp]
theorem ensures_attempt (task : Task α) {gives : Except Fault α → σ → Prop} :
    Ensures setting gives fails (Task.attempt task) state ↔
      Ensures setting (fun value => gives (.ok value)) (fun cause => gives (.error cause)) task state := by
  constructor
  · intro ensured result last ended
    have known := ensured (.ok result) last ((ends_bind _ _ _).mpr ⟨result, last, ended, rfl, rfl⟩)
    cases result with
    | ok value => exact known
    | error cause => exact known
  · intro ensured result last ended
    obtain ⟨inner, middle, inside, rfl, rfl⟩ := (ends_bind _ _ _).mp ended
    have known := ensured inner middle inside
    cases inner with
    | ok value => exact known
    | error cause => exact known

@[simp]
theorem ensures_remote (target : Shell.Target) (action : Shell.Action) {gives : action.Result → σ → Prop} :
    Ensures setting gives fails (Task.remote target action) state ↔
      (∀ result next, setting state (.remote target action) (.ok result) next → gives result next) ∧
        ∀ fault next, setting state (.remote target action) (.error fault) next → fails (.remote fault) next := by
  constructor
  · intro ensured
    refine ⟨fun result next answered => ?_, fun fault next answered => ?_⟩
    · exact ensured (.ok result) next ⟨.ok result, next, answered, rfl, rfl⟩
    · exact ensured (.error (.remote fault)) next ⟨.error fault, next, answered, rfl, rfl⟩
  · rintro ⟨given, failed⟩ result last ⟨reply, next, answered, rfl, rfl⟩
    cases reply with
    | ok value => exact given value next answered
    | error fault => exact failed fault next answered

end Backend.Task

end Steps

end Dispatch
