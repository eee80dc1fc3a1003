import Dispatch.Proofs.Plan.Ensures
/-!
One plan in two settings. What a plan comes to where the replies are those of another setting, it comes to there as
well; and where every request gets a reply, a plan comes to an end.
-/
namespace Dispatch.Plan

variable {σ τ α ε : Type} {outer : Setting σ} {inner : Setting τ} {allowed : Request → Bool}

/-- The second setting may know less of the state; it sees what it knows through a view. -/
theorem Keeps.ends_through {ends : α → Unit → Prop} {plan : Plan α} (view : σ → τ)
    (keeps : plan.Keeps (Protocol.within allowed) ends ())
    (seen : ∀ {state next : σ} {request : Request} {reply : request.Reply}, allowed request = true →
      outer state request reply next → inner (view state) request reply (view next))
    {state last : σ} {result : α} (ended : plan.Ends outer state result last) :
    plan.Ends inner (view state) result (view last) := by
  induction plan generalizing state with
  | done value =>
    obtain ⟨rfl, rfl⟩ := ended
    exact ⟨rfl, rfl⟩
  | ask request next ih =>
    obtain ⟨reply, middle, answered, later⟩ := ended
    exact ⟨reply, view middle, seen keeps.1 answered, ih reply (keeps.2 reply trivial) later⟩

theorem Reads.ensures {task : ExceptT ε Plan α} {state : σ} {given : Except ε α}
    (reads : Reads outer task state given) :
    Ensures outer (fun value last => given = .ok value ∧ last = state)
      (fun cause last => given = .error cause ∧ last = state) task state := by
  intro result last ended
  obtain ⟨rfl, rfl⟩ := (reads result last).mp ended
  cases result with
  | ok value => exact ⟨rfl, rfl⟩
  | error cause => exact ⟨rfl, rfl⟩

/-- After a reading all that matters is what follows. -/
theorem Reads.ensures_bind {β : Type} {task : ExceptT ε Plan α} {rest : α → ExceptT ε Plan β} {state : σ} {value : α}
    (reads : Reads outer task state (.ok value)) {gives : β → σ → Prop} {fails : ε → σ → Prop} :
    Ensures outer gives fails (task >>= rest) state ↔ Ensures outer gives fails (rest value) state :=
  forall_congr' fun result => forall_congr' fun _ => by rw [reads.finishes_bind result]

/-- What is certain in the second setting of what it knows is certain in the first. -/
theorem Asks.ensures_through {task : ExceptT ε Plan α} (asks : Asks allowed task) (view : σ → τ)
    (seen : ∀ {state next : σ} {request : Request} {reply : request.Reply}, allowed request = true →
      outer state request reply next → inner (view state) request reply (view next))
    {gives : α → τ → Prop} {fails : ε → τ → Prop} {state : σ} (ensured : Ensures inner gives fails task (view state)) :
    Ensures outer (fun value last => gives value (view last)) (fun cause last => fails cause (view last)) task state :=
  fun result last ended => ensured result (view last) (Keeps.ends_through view asks seen ended)

/-- As before, where both settings know the same. -/
theorem Asks.ensures_as {like : Setting σ} {task : ExceptT ε Plan α} (asks : Asks allowed task)
    (same : ∀ {state next : σ} {request : Request} {reply : request.Reply}, allowed request = true →
      outer state request reply next → like state request reply next)
    {gives : α → σ → Prop} {fails : ε → σ → Prop} {state : σ} (ensured : Ensures like gives fails task state) :
    Ensures outer gives fails task state := asks.ensures_through (fun state => state) same ensured

/-- A plan comes to an end in some way. -/
def Concludes (setting : Setting σ) (task : ExceptT ε Plan α) (state : σ) : Prop :=
  ∃ result last, Finishes setting task state result last

theorem Keeps.exists_ends {ends : α → Unit → Prop} {plan : Plan α}
    (keeps : plan.Keeps (Protocol.within allowed) ends ())
    (answered : ∀ (state : σ) (request : Request), allowed request = true →
      ∃ reply next, outer state request reply next) (state : σ) :
    ∃ result last, plan.Ends outer state result last := by
  induction plan generalizing state with
  | done value => exact ⟨value, state, rfl, rfl⟩
  | ask request next ih =>
    obtain ⟨reply, middle, replied⟩ := answered state request keeps.1
    obtain ⟨result, last, ended⟩ := ih reply (keeps.2 reply trivial) middle
    exact ⟨result, last, reply, middle, replied, ended⟩

/-- A footprint that is always replied to. -/
theorem Asks.concludes {task : ExceptT ε Plan α} (asks : Asks allowed task)
    (answered : ∀ (state : σ) (request : Request), allowed request = true →
      ∃ reply next, outer state request reply next) (state : σ) : Concludes outer task state :=
  Keeps.exists_ends asks answered state

theorem Concludes.bind {β : Type} {task : ExceptT ε Plan α} {rest : α → ExceptT ε Plan β} {state : σ}
    (first : Concludes outer task state)
    (later : ∀ value middle, Finishes outer task state (.ok value) middle → Concludes outer (rest value) middle) :
    Concludes outer (task >>= rest) state := by
  obtain ⟨result, middle, begun⟩ := first
  cases result with
  | ok value =>
    obtain ⟨final, last, ended⟩ := later value middle begun
    exact ⟨final, last, (finishes_bind _ _ _).mpr (.inl ⟨value, middle, begun, ended⟩)⟩
  | error cause => exact ⟨.error cause, middle, (finishes_bind _ _ _).mpr (.inr ⟨cause, begun, rfl⟩)⟩

/-- A failure under a condition, and otherwise the rest. -/
theorem concludes_guard {condition : Prop} [Decidable condition] {cause : ε} {rest : PUnit → ExceptT ε Plan α}
    {state : σ} (concludes : ¬condition → Concludes outer (rest ()) state) :
    Concludes outer (if condition then throw cause >>= rest else rest ()) state := by
  split
  next =>
    have fails : Finishes outer (throw cause : ExceptT ε Plan PUnit) state (.error cause) state :=
      (finishes_throw _ _).mpr ⟨rfl, rfl⟩
    exact ⟨.error cause, state, (finishes_bind _ _ _).mpr (.inr ⟨cause, fails, rfl⟩)⟩
  next absent => exact concludes absent

theorem Concludes.attempt {service : Service α} {state : σ} (concludes : Concludes outer service state) :
    Concludes outer (Service.attempt service) state := by
  obtain ⟨result, last, ended⟩ := concludes
  exact ⟨.ok result, last, (Service.finishes_attempt _ _).mpr ⟨result, ended, rfl⟩⟩

end Dispatch.Plan
