import Dispatch.Proofs.Plan.Footprint
import Dispatch.Proofs.Plan.Pool
/-!
Plans that run alone from their first request to their end.
-/
namespace Dispatch

theorem eq_ok_of_toOption {ε α : Type} {result : Except ε α} {given : α} (same : result.toOption = some given) :
    result = .ok given := by
  cases result with
  | ok value => exact congrArg Except.ok (Option.some.inj same)
  | error cause => cases same

namespace Plan

variable {σ α β ε φ : Type} {setting : Setting σ} {state last : σ}

/-- The plan, run alone, can end with this value and leave the state like this. -/
def Ends (setting : Setting σ) : Plan α → σ → α → σ → Prop
  | done value, state, result, last => value = result ∧ state = last
  | ask request next, state, result, last =>
    ∃ reply middle, setting state request reply middle ∧ (next reply).Ends setting middle result last

theorem ends_bind (plan : Plan α) (rest : α → Plan β) (result : β) :
    (plan.bind rest).Ends setting state result last ↔
      ∃ value middle, plan.Ends setting state value middle ∧ (rest value).Ends setting middle result last := by
  induction plan generalizing state with
  | done value =>
    constructor
    · exact fun ended => ⟨value, state, ⟨rfl, rfl⟩, ended⟩
    · rintro ⟨_, _, ⟨rfl, rfl⟩, ended⟩
      exact ended
  | ask request next ih =>
    constructor
    · rintro ⟨reply, between, answered, ended⟩
      obtain ⟨value, middle, first, second⟩ := (ih reply).mp ended
      exact ⟨value, middle, ⟨reply, between, answered, first⟩, second⟩
    · rintro ⟨value, middle, ⟨reply, between, answered, first⟩, second⟩
      exact ⟨reply, between, answered, (ih reply).mpr ⟨value, middle, first, second⟩⟩

/-- In a setting that answers what it sees of the state in the same way, a plan ends in the same way. -/
theorem Ends.through {τ : Type} {outer : Setting σ} {inner : Setting τ} {plan : Plan α} {result : α} (view : σ → τ)
    (ended : plan.Ends outer state result last)
    (seen : ∀ {state next : σ} {request : Request} {reply : request.Reply}, outer state request reply next →
      inner (view state) request reply (view next)) : plan.Ends inner (view state) result (view last) := by
  induction plan generalizing state with
  | done value =>
    obtain ⟨rfl, rfl⟩ := ended
    exact ⟨rfl, rfl⟩
  | ask request next ih =>
    obtain ⟨reply, middle, answered, later⟩ := ended
    exact ⟨reply, view middle, seen answered, ih reply later⟩

/-- A plan that may fail, run alone. -/
def Finishes (setting : Setting σ) (task : ExceptT ε Plan α) (state : σ) (result : Except ε α) (last : σ) :
    Prop :=
  task.run.Ends setting state result last

@[simp]
theorem finishes_pure (value : α) (result : Except ε α) :
    Finishes setting (pure value) state result last ↔ .ok value = result ∧ state = last := Iff.rfl

@[simp]
theorem finishes_throw (cause : ε) (result : Except ε α) :
    Finishes setting (throw cause) state result last ↔ .error cause = result ∧ state = last := Iff.rfl

/-- A plan in two parts ends with a failure of the first, or as the second does. -/
theorem finishes_bind (task : ExceptT ε Plan α) (rest : α → ExceptT ε Plan β) (result : Except ε β) :
    Finishes setting (task >>= rest) state result last ↔
      (∃ value middle, Finishes setting task state (.ok value) middle ∧
        Finishes setting (rest value) middle result last) ∨
      ∃ cause, Finishes setting task state (.error cause) last ∧ .error cause = result := by
  unfold Finishes
  rw [ExceptT.run_bind]
  refine (ends_bind _ _ _).trans ⟨?_, ?_⟩
  · rintro ⟨value | cause, middle, first, second⟩
    · obtain ⟨rfl, rfl⟩ := second
      exact .inr ⟨_, first, rfl⟩
    · exact .inl ⟨_, middle, first, second⟩
  · rintro (⟨value, middle, first, second⟩ | ⟨cause, first, rfl⟩)
    · exact ⟨.ok value, middle, first, second⟩
    · exact ⟨.error cause, last, first, rfl, rfl⟩

/-- Success is success of both parts. -/
theorem finishes_bind_ok (task : ExceptT ε Plan α) (rest : α → ExceptT ε Plan β) (result : β) :
    Finishes setting (task >>= rest) state (.ok result) last ↔
      ∃ value middle, Finishes setting task state (.ok value) middle ∧
        Finishes setting (rest value) middle (.ok result) last := by
  rw [finishes_bind]
  simp

/-- Past a condition under which the plan fails. -/
theorem finishes_guard_ok {condition : Prop} [Decidable condition] {cause : ε} {rest : PUnit → ExceptT ε Plan α}
    (result : α) :
    Finishes setting (if condition then throw cause >>= rest else rest ()) state (.ok result) last ↔
      ¬condition ∧ Finishes setting (rest ()) state (.ok result) last := by
  split
  next holds => simp [holds]
  next fails => simp [fails]

/-- The one thing that a plan can come to, and the one state that it can leave. -/
def Does (setting : Setting σ) (task : ExceptT ε Plan α) (state : σ) (given : Except ε α) (next : σ) : Prop :=
  ∀ result last, Finishes setting task state result last ↔ result = given ∧ last = next

/-- What follows such a plan begins where it ends. -/
theorem Does.finishes_bind {task : ExceptT ε Plan α} {rest : α → ExceptT ε Plan β} {value : α} {middle : σ}
    (first : Does setting task state (.ok value) middle) (result : Except ε β) :
    Finishes setting (task >>= rest) state result last ↔ Finishes setting (rest value) middle result last := by
  rw [Plan.finishes_bind]
  constructor
  · rintro (⟨found, between, begun, ended⟩ | ⟨cause, failed, _⟩)
    · obtain ⟨same, rfl⟩ := (first _ _).mp begun
      cases same
      exact ended
    · cases ((first _ _).mp failed).1
  · intro ended
    exact .inl ⟨value, middle, (first _ _).mpr ⟨rfl, rfl⟩, ended⟩

theorem Does.bind {task : ExceptT ε Plan α} {rest : α → ExceptT ε Plan β} {value : α} {middle next : σ}
    {given : Except ε β} (first : Does setting task state (.ok value) middle)
    (second : Does setting (rest value) middle given next) : Does setting (task >>= rest) state given next := by
  intro result last
  rw [first.finishes_bind]
  exact second result last

/-- After a plan that fails nothing follows. -/
theorem Does.bind_error {task : ExceptT ε Plan α} {cause : ε} {next : σ}
    (first : Does setting task state (.error cause) next) (rest : α → ExceptT ε Plan β) :
    Does setting (task >>= rest) state (.error cause) next := by
  intro result last
  rw [Plan.finishes_bind]
  constructor
  · rintro (⟨value, middle, begun, _⟩ | ⟨other, failed, rfl⟩)
    · cases ((first _ _).mp begun).1
    · obtain ⟨same, rfl⟩ := (first _ _).mp failed
      cases same
      exact ⟨rfl, rfl⟩
  · rintro ⟨rfl, rfl⟩
    exact .inr ⟨cause, (first _ _).mpr ⟨rfl, rfl⟩, rfl⟩

theorem does_pure (value : α) : Does setting (pure value : ExceptT ε Plan α) state (.ok value) state :=
  fun result last => by rw [finishes_pure, eq_comm, eq_comm (a := state)]

theorem does_throw (cause : ε) : Does setting (throw cause : ExceptT ε Plan α) state (.error cause) state :=
  fun result last => by rw [finishes_throw, eq_comm, eq_comm (a := state)]

/-- The one thing that a plan can come to, with nothing changed. -/
def Reads (setting : Setting σ) (task : ExceptT ε Plan α) (state : σ) (given : Except ε α) : Prop :=
  Does setting task state given state

theorem reads_pure (value : α) : Reads setting (pure value : ExceptT ε Plan α) state (.ok value) :=
  does_pure value

theorem reads_throw (cause : ε) : Reads setting (throw cause : ExceptT ε Plan α) state (.error cause) :=
  does_throw cause

theorem Reads.bind {task : ExceptT ε Plan α} {rest : α → ExceptT ε Plan β} {value : α} {given : Except ε β}
    (first : Reads setting task state (.ok value)) (second : Reads setting (rest value) state given) :
    Reads setting (task >>= rest) state given :=
  Does.bind first second

/-- After a reading that fails nothing follows. -/
theorem Reads.bind_error {task : ExceptT ε Plan α} {cause : ε} (first : Reads setting task state (.error cause))
    (rest : α → ExceptT ε Plan β) : Reads setting (task >>= rest) state (.error cause) :=
  Does.bind_error first rest

theorem Reads.map {task : ExceptT ε Plan α} {given : Except ε α} (first : Reads setting task state given)
    (convert : α → β) :
    Reads setting (task >>= fun value => pure (convert value)) state (given.map convert) := by
  cases given with
  | ok value => exact first.bind (reads_pure (convert value))
  | error cause => exact first.bind_error _

/-- A plan that goes on after a reading. -/
theorem Reads.andThen {task : ExceptT ε Plan α} {rest : α → ExceptT ε Plan β} {given : Except ε α}
    (first : Reads setting task state given) (result : β) :
    Finishes setting (task >>= rest) state (.ok result) last ↔
      ∃ value, given = .ok value ∧ Finishes setting (rest value) state (.ok result) last := by
  rw [finishes_bind_ok]
  constructor
  · rintro ⟨value, middle, begun, ended⟩
    obtain ⟨same, rfl⟩ := (first _ _).mp begun
    exact ⟨value, same.symm, ended⟩
  · rintro ⟨value, rfl, ended⟩
    exact ⟨value, state, (first _ _).mpr ⟨rfl, rfl⟩, ended⟩

/-- A plan can come to a value. -/
def Succeeds (setting : Setting σ) (task : ExceptT ε Plan α) (state : σ) : Prop :=
  ∃ result last, Finishes setting task state (.ok result) last

theorem Finishes.succeeds_bind {task : ExceptT ε Plan α} {rest : α → ExceptT ε Plan β} {value : α} {middle : σ}
    (first : Finishes setting task state (.ok value) middle) (second : Succeeds setting (rest value) middle) :
    Succeeds setting (task >>= rest) state := by
  obtain ⟨result, last, ended⟩ := second
  exact ⟨result, last, (finishes_bind_ok _ _ _).mpr ⟨value, middle, first, ended⟩⟩

theorem succeeds_pure (value : α) : Succeeds setting (pure value : ExceptT ε Plan α) state :=
  ⟨value, state, (finishes_pure _ _).mpr ⟨rfl, rfl⟩⟩

theorem not_succeeds_throw (cause : ε) : ¬Succeeds setting (throw cause : ExceptT ε Plan α) state := by
  rintro ⟨result, last, ended⟩
  cases ((finishes_throw cause _).mp ended).1

theorem succeeds_guard {condition : Prop} [Decidable condition] {cause : ε} {rest : PUnit → ExceptT ε Plan α} :
    Succeeds setting (if condition then throw cause >>= rest else rest ()) state ↔
      ¬condition ∧ Succeeds setting (rest ()) state := by
  simp only [Succeeds, finishes_guard_ok, exists_and_left]

theorem Reads.succeeds_bind {task : ExceptT ε Plan α} {rest : α → ExceptT ε Plan β} {given : Except ε α}
    (first : Reads setting task state given) :
    Succeeds setting (task >>= rest) state ↔
      ∃ value, given = .ok value ∧ Succeeds setting (rest value) state := by
  constructor
  · rintro ⟨result, last, ended⟩
    obtain ⟨value, same, later⟩ := (first.andThen result).mp ended
    exact ⟨value, same, result, last, later⟩
  · rintro ⟨value, same, result, last, later⟩
    exact ⟨result, last, (first.andThen result).mpr ⟨value, same, later⟩⟩

/-- What no request of a footprint breaks holds in the end, and the end is as expected. -/
theorem Keeps.ended (rule : σ → Prop) {allowed : Request → Bool} {ends : α → Unit → Prop} {plan : Plan α}
    (keeps : plan.Keeps (Protocol.within allowed) ends ()) {result : α}
    (ended : plan.Ends setting state result last)
    (kept : ∀ {state next request reply}, allowed request = true → setting state request reply next → rule state →
      rule next) (begins : rule state) : ends result () ∧ rule last := by
  induction plan generalizing state with
  | done value =>
    obtain ⟨rfl, rfl⟩ := ended
    exact ⟨keeps, begins⟩
  | ask request next ih =>
    obtain ⟨reply, middle, answered, later⟩ := ended
    exact ih reply (keeps.2 reply trivial) later (kept keeps.1 answered begins)

theorem Asks.invariant (rule : σ → Prop) {allowed : Request → Bool} {task : ExceptT ε Plan α}
    (asks : Asks allowed task) {result : Except ε α} (ended : Finishes setting task state result last)
    (kept : ∀ {state next request reply}, allowed request = true → setting state request reply next → rule state →
      rule next) (begins : rule state) : rule last :=
  (Keeps.ended rule asks ended kept begins).2

end Plan

open Plan

section Steps

variable {σ α : Type} {setting : Setting σ} {state last : σ}

namespace Service

@[simp]
theorem finishes_ask (request : Request) (result : Except Failure request.Reply) :
    Finishes setting (Service.ask request) state result last ↔
      ∃ reply, setting state request reply last ∧ .ok reply = result := by
  constructor
  · rintro ⟨reply, middle, answered, rfl, rfl⟩
    exact ⟨reply, answered, rfl⟩
  · rintro ⟨reply, answered, rfl⟩
    exact ⟨reply, last, answered, rfl, rfl⟩

@[simp]
theorem finishes_store (call : Store.Call) (result : Except Failure call.Answer) :
    Finishes setting (Service.store call) state result last ↔
      ∃ reply, setting state (.store call) reply last ∧ reply.mapError Failure.ofStore = result := by
  constructor
  · rintro ⟨reply, middle, answered, rfl, rfl⟩
    exact ⟨reply, answered, rfl⟩
  · rintro ⟨reply, answered, rfl⟩
    exact ⟨reply, last, answered, rfl, rfl⟩

@[simp]
theorem finishes_attempt (service : Service α) (result : Except Failure (Except Failure α)) :
    Finishes setting (Service.attempt service) state result last ↔
      ∃ inner, Finishes setting service state inner last ∧ .ok inner = result := by
  refine (ends_bind _ _ _).trans ⟨?_, ?_⟩
  · rintro ⟨inner, middle, ended, rfl, rfl⟩
    exact ⟨inner, ended, rfl⟩
  · rintro ⟨inner, ended, rfl⟩
    exact ⟨inner, last, ended, rfl, rfl⟩

/-- A request, and then the rest. -/
theorem finishes_ask_bind (request : Request) (rest : request.Reply → Service α) (result : Except Failure α) :
    Finishes setting (Service.ask request >>= rest) state result last ↔
      ∃ reply middle, setting state request reply middle ∧ Finishes setting (rest reply) middle result last := by
  rw [finishes_bind]
  constructor
  · rintro (⟨reply, middle, asked, ended⟩ | ⟨cause, failed, _⟩)
    · obtain ⟨_, answered, same⟩ := (finishes_ask _ _).mp asked
      cases same
      exact ⟨reply, middle, answered, ended⟩
    · obtain ⟨_, _, same⟩ := (finishes_ask _ _).mp failed
      cases same
  · rintro ⟨reply, middle, answered, ended⟩
    exact .inl ⟨reply, middle, (finishes_ask _ _).mpr ⟨reply, answered, rfl⟩, ended⟩

/-- However a service ends, something else is done then. -/
theorem finishes_attempt_bind {β : Type} (service : Service α) (rest : Except Failure α → Service β)
    (result : Except Failure β) :
    Finishes setting (Service.attempt service >>= rest) state result last ↔
      ∃ inner middle, Finishes setting service state inner middle ∧ Finishes setting (rest inner) middle result last := by
  rw [finishes_bind]
  constructor
  · rintro (⟨inner, middle, attempted, ended⟩ | ⟨cause, failed, _⟩)
    · obtain ⟨_, worked, same⟩ := (finishes_attempt _ _).mp attempted
      cases same
      exact ⟨inner, middle, worked, ended⟩
    · obtain ⟨_, _, same⟩ := (finishes_attempt _ _).mp failed
      cases same
  · rintro ⟨inner, middle, worked, ended⟩
    exact .inl ⟨inner, middle, (finishes_attempt _ _).mpr ⟨inner, worked, rfl⟩, ended⟩

/-- A call that is answered in one way only. -/
theorem does_store (call : Store.Call) {value : call.Answer} {next : σ}
    (told : ∀ reply after, setting state (.store call) reply after ↔ reply = .ok value ∧ after = next) :
    Does setting (Service.store call) state (.ok value) next := by
  intro result last
  rw [finishes_store]
  constructor
  · rintro ⟨reply, answered, rfl⟩
    obtain ⟨rfl, rfl⟩ := (told reply last).mp answered
    exact ⟨rfl, rfl⟩
  · rintro ⟨rfl, rfl⟩
    exact ⟨.ok value, (told _ _).mpr ⟨rfl, rfl⟩, rfl⟩

/-- A call that tells something and changes nothing. -/
theorem reads_store (call : Store.Call) {value : call.Answer}
    (told : ∀ reply next, setting state (.store call) reply next ↔ reply = .ok value ∧ next = state) :
    Reads setting (Service.store call) state (.ok value) := does_store call told

theorem reads_attempt {service : Service α} {given : Except Failure α}
    (reads : Reads setting service state given) :
    Reads setting (Service.attempt service) state (.ok given) := by
  intro result last
  rw [finishes_attempt]
  constructor
  · rintro ⟨inner, ended, rfl⟩
    obtain ⟨rfl, rfl⟩ := (reads _ _).mp ended
    exact ⟨rfl, rfl⟩
  · rintro ⟨rfl, rfl⟩
    exact ⟨given, (reads _ _).mpr ⟨rfl, rfl⟩, rfl⟩

theorem reads_ofExcept (given : Except Failure α) : Reads setting (Service.ofExcept given) state given := by
  cases given with
  | ok value => exact reads_pure value
  | error cause => exact reads_throw cause

end Service

end Steps

end Dispatch
