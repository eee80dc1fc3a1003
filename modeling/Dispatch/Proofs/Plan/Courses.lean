import Dispatch.Proofs.Plan.Record
/-!
Courses of plans: how a plan, run alone, can end, together with all that is said on the way. A course of a plan in two
parts is one of the first and then one of the second, so what a plan can do in all is found step by step.
-/
namespace Dispatch

variable {σ α β ε : Type} {setting : Setting σ} {state last : σ} {log : List (Moment Unit)}

/-- A request and its reply, whatever the state was. -/
def Moment.said (request : Request) (reply : request.Reply) : Moment Unit :=
  { before := (), request, reply, after := () }

namespace Plan

/-- The plan, run alone, can end like this after all this has been said. -/
def Goes (setting : Setting σ) (task : ExceptT ε Plan α) (state : σ) (result : Except ε α) (last : σ)
    (log : List (Moment Unit)) : Prop :=
  ∃ trace, Finishes setting.recorded task { state } result { state := last, trace } ∧ trace.map Moment.bare = log

/-- Whatever a plan ends with, it has taken some course. -/
theorem Finishes.goes {task : ExceptT ε Plan α} {result : Except ε α}
    (ended : Finishes setting task state result last) : ∃ log, Goes setting task state result last log := by
  have walk {plan : Plan (Except ε α)} {now : Recorded σ} (ended : plan.Ends setting now.state result last) :
      ∃ trace, plan.Ends setting.recorded now result { state := last, trace } := by
    induction plan generalizing now with
    | done value =>
      obtain ⟨rfl, rfl⟩ := ended
      exact ⟨now.trace, rfl, rfl⟩
    | ask request next ih =>
      obtain ⟨reply, middle, answered, later⟩ := ended
      let moment : Moment σ := { before := now.state, request, reply, after := middle }
      obtain ⟨trace, replay⟩ := @ih reply { state := middle, trace := now.trace ++ [moment] } later
      exact ⟨trace, reply, _, ⟨answered, rfl⟩, replay⟩
  obtain ⟨trace, ran⟩ := @walk task.run { state } ended
  exact ⟨_, trace, ran, rfl⟩

theorem Goes.finishes {task : ExceptT ε Plan α} {result : Except ε α} (goes : Goes setting task state result last log) :
    Finishes setting task state result last := by
  obtain ⟨trace, ran, -⟩ := goes
  exact ran.forget

/-- In a setting with more replies a plan can take more courses. -/
theorem Goes.mono {wider : Setting σ} {task : ExceptT ε Plan α} {result : Except ε α}
    (goes : Goes setting task state result last log)
    (more : ∀ {state next : σ} {request : Request} {reply : request.Reply}, setting state request reply next →
      wider state request reply next) : Goes wider task state result last log := by
  obtain ⟨trace, ran, same⟩ := goes
  have wider : Finishes wider.recorded task { state } result { state := last, trace } :=
    Ends.through (fun now : Recorded σ => now) ran fun answered => ⟨more answered.1, answered.2⟩
  exact ⟨trace, wider, same⟩

/-- All that is said can be said in the setting. -/
theorem Goes.said {task : ExceptT ε Plan α} {result : Except ε α} (goes : Goes setting task state result last log)
    {rule : Moment Unit → Prop} (rules : ∀ {state next : σ} {request : Request} {reply : request.Reply},
      setting state request reply next → rule (.said request reply)) : ∀ moment ∈ log, rule moment := by
  obtain ⟨trace, ran, rfl⟩ := goes
  have walk {plan : Plan (Except ε α)} {now ending : Recorded σ} (ended : plan.Ends setting.recorded now result ending)
      (earlier : ∀ moment ∈ now.trace, rule moment.bare) : ∀ moment ∈ ending.trace, rule moment.bare := by
    induction plan generalizing now with
    | done value =>
      obtain ⟨-, rfl⟩ := ended
      exact earlier
    | ask request next ih =>
      obtain ⟨reply, middle, ⟨answered, grown⟩, later⟩ := ended
      refine ih reply later fun moment member => ?_
      rw [grown] at member
      rcases List.mem_append.mp member with before | here
      · exact earlier moment before
      · rw [List.mem_singleton.mp here]
        exact @rules now.state middle.state request reply answered
  intro moment member
  obtain ⟨full, present, rfl⟩ := List.mem_map.mp member
  exact @walk _ { state } _ ran (fun _ absent => absurd absent List.not_mem_nil) full present

@[simp]
theorem goes_pure (value : α) (result : Except ε α) :
    Goes setting (pure value) state result last log ↔ .ok value = result ∧ state = last ∧ log = [] := by
  constructor
  · rintro ⟨trace, ran, rfl⟩
    obtain ⟨same, unchanged⟩ := (finishes_pure value _).mp ran
    cases unchanged
    exact ⟨same, rfl, rfl⟩
  · rintro ⟨rfl, rfl, rfl⟩
    exact ⟨[], (finishes_pure value _).mpr ⟨rfl, rfl⟩, rfl⟩

@[simp]
theorem goes_throw (cause : ε) (result : Except ε α) :
    Goes setting (throw cause) state result last log ↔ .error cause = result ∧ state = last ∧ log = [] := by
  constructor
  · rintro ⟨trace, ran, rfl⟩
    obtain ⟨same, unchanged⟩ := (finishes_throw cause _).mp ran
    cases unchanged
    exact ⟨same, rfl, rfl⟩
  · rintro ⟨rfl, rfl, rfl⟩
    exact ⟨[], (finishes_throw cause _).mpr ⟨rfl, rfl⟩, rfl⟩

/-- A course is a failing one of the first part, or one of the first part and then one of the second. -/
theorem goes_bind (task : ExceptT ε Plan α) (rest : α → ExceptT ε Plan β) (result : Except ε β) :
    Goes setting (task >>= rest) state result last log ↔
      (∃ value middle front back, Goes setting task state (.ok value) middle front ∧
        Goes setting (rest value) middle result last back ∧ log = front ++ back) ∨
      ∃ cause, Goes setting task state (.error cause) last log ∧ .error cause = result := by
  constructor
  · rintro ⟨trace, ran, rfl⟩
    rcases (finishes_bind _ _ _).mp ran with ⟨value, ⟨middle, front⟩, first, second⟩ | ⟨cause, first, same⟩
    · obtain ⟨added, rfl, replay⟩ := second.added
      exact .inl ⟨value, middle, _, _, ⟨front, first, rfl⟩, ⟨added, replay [], rfl⟩, List.map_append⟩
    · exact .inr ⟨cause, ⟨trace, first, rfl⟩, same⟩
  · rintro (⟨value, middle, _, _, ⟨front, first, rfl⟩, ⟨back, second, rfl⟩, rfl⟩ | ⟨cause, ⟨trace, first, rfl⟩, same⟩)
    · obtain ⟨added, grown, replay⟩ := second.added
      obtain rfl : back = added := grown
      exact ⟨front ++ back, (finishes_bind _ _ _).mpr (.inl ⟨value, _, first, replay front⟩), List.map_append⟩
    · exact ⟨trace, (finishes_bind _ _ _).mpr (.inr ⟨cause, first, same⟩), rfl⟩

variable {allowed : Request → Bool}

/-- All that is said is of the footprint. -/
theorem Asks.all_of_goes {task : ExceptT ε Plan α} (asks : Asks allowed task) {result : Except ε α}
    (goes : Goes setting task state result last log) : ∀ moment ∈ log, allowed moment.request = true := by
  obtain ⟨trace, ran, rfl⟩ := goes
  intro moment member
  obtain ⟨full, present, rfl⟩ := List.mem_map.mp member
  exact asks.all_of_recorded ran full present

/-- A plan whose footprint is of no concern to the state takes the courses that it takes where nothing is known. -/
theorem Asks.goes_aside {task : ExceptT ε Plan α} (asks : Asks allowed task)
    (aside : ∀ (state next : σ) (request : Request) (reply : request.Reply), allowed request = true →
      (setting state request reply next ↔ next = state)) (result : Except ε α) :
    Goes setting task state result last log ↔ last = state ∧ Goes Setting.anything task () result () log := by
  have outwards {plan : Plan (Except ε α)} {now ending : Recorded Unit} {ends : Except ε α → Unit → Prop}
      (keeps : plan.Keeps (Protocol.within allowed) ends ())
      (ended : plan.Ends Setting.anything.recorded now result ending)
      (front : List (Moment σ)) (same : front.map Moment.bare = now.trace) :
      ∃ trace, plan.Ends setting.recorded { state, trace := front } result { state, trace } ∧
        trace.map Moment.bare = ending.trace := by
    induction plan generalizing now front with
    | done value =>
      obtain ⟨rfl, rfl⟩ := ended
      exact ⟨front, ⟨rfl, rfl⟩, same⟩
    | ask request next ih =>
      obtain ⟨reply, middle, ⟨-, grown⟩, later⟩ := ended
      let moment : Moment σ := { before := state, request, reply, after := state }
      have longer : (front ++ [moment]).map Moment.bare = middle.trace := by
        rw [List.map_append, same, grown]
        rfl
      obtain ⟨trace, ran, told⟩ := ih reply (keeps.2 reply trivial) later (front ++ [moment]) longer
      have answered := (aside state state request reply keeps.1).mpr rfl
      exact ⟨trace, ⟨reply, { state, trace := front ++ [moment] }, ⟨answered, rfl⟩, ran⟩, told⟩
  constructor
  · rintro ⟨trace, ran, rfl⟩
    refine ⟨?_, trace.map Moment.bare, ran.bare, List.map_id' _⟩
    exact asks.invariant (fun now => now = state) ran.forget
      (fun member answered same => ((aside _ _ _ _ member).mp answered).trans same) rfl
  · rintro ⟨rfl, trace, ran, rfl⟩
    obtain ⟨full, replay, told⟩ := outwards asks ran [] rfl
    exact ⟨full, replay, told.trans (List.map_id' _).symm⟩

end Plan

open Plan

namespace Service

@[simp]
theorem goes_ask (request : Request) (result : Except Failure request.Reply) :
    Goes setting (Service.ask request) state result last log ↔
      ∃ reply, setting state request reply last ∧ .ok reply = result ∧ log = [.said request reply] := by
  constructor
  · rintro ⟨trace, ran, rfl⟩
    obtain ⟨reply, ⟨answered, grown⟩, rfl⟩ := (finishes_ask _ _).mp ran
    dsimp only at grown
    exact ⟨reply, answered, rfl, by rw [grown]; rfl⟩
  · rintro ⟨reply, answered, rfl, rfl⟩
    exact ⟨[{ before := state, request, reply, after := last }],
      (finishes_ask _ _).mpr ⟨reply, ⟨answered, rfl⟩, rfl⟩, rfl⟩

@[simp]
theorem goes_store (call : Store.Call) (result : Except Failure call.Answer) :
    Goes setting (Service.store call) state result last log ↔
      ∃ reply, setting state (.store call) reply last ∧ reply.mapError Failure.ofStore = result ∧
        log = [.said (.store call) reply] := by
  constructor
  · rintro ⟨trace, ran, rfl⟩
    obtain ⟨reply, ⟨answered, grown⟩, rfl⟩ := (finishes_store _ _).mp ran
    dsimp only at grown
    exact ⟨reply, answered, rfl, by rw [grown]; rfl⟩
  · rintro ⟨reply, answered, rfl, rfl⟩
    exact ⟨[{ before := state, request := .store call, reply, after := last }],
      (finishes_store _ _).mpr ⟨reply, ⟨answered, rfl⟩, rfl⟩, rfl⟩

@[simp]
theorem goes_attempt (service : Service α) (result : Except Failure (Except Failure α)) :
    Goes setting (Service.attempt service) state result last log ↔
      ∃ inner, Goes setting service state inner last log ∧ .ok inner = result := by
  constructor
  · rintro ⟨trace, ran, same⟩
    obtain ⟨inner, inside, rfl⟩ := (finishes_attempt _ _).mp ran
    exact ⟨inner, ⟨trace, inside, same⟩, rfl⟩
  · rintro ⟨inner, ⟨trace, inside, same⟩, rfl⟩
    exact ⟨trace, (finishes_attempt _ _).mpr ⟨inner, inside, rfl⟩, same⟩

@[simp]
theorem goes_ofExcept (given result : Except Failure α) :
    Goes setting (Service.ofExcept given) state result last log ↔ given = result ∧ state = last ∧ log = [] := by
  cases given with
  | ok value => exact goes_pure value result
  | error cause => exact goes_throw cause result

@[simp]
theorem goes_backend (task : Backend.Task α) (result : Except Failure α) :
    Goes setting (Service.backend task) state result last log ↔
      ∃ inner, Goes setting task state inner last log ∧ inner.mapError Failure.ofBackend = result := by
  constructor
  · rintro ⟨trace, ran, same⟩
    obtain ⟨inner, inside, rfl⟩ := (finishes_mapError task Failure.ofBackend _).mp ran
    exact ⟨inner, ⟨trace, inside, same⟩, rfl⟩
  · rintro ⟨inner, ⟨trace, inside, same⟩, rfl⟩
    exact ⟨trace, (finishes_mapError task Failure.ofBackend _).mpr ⟨inner, inside, rfl⟩, same⟩

/-- A request, and then the rest. -/
theorem goes_ask_bind (request : Request) (rest : request.Reply → Service α) (result : Except Failure α) :
    Goes setting (Service.ask request >>= rest) state result last log ↔
      ∃ reply middle back, setting state request reply middle ∧ Goes setting (rest reply) middle result last back ∧
        log = .said request reply :: back := by
  rw [goes_bind]
  constructor
  · rintro (⟨reply, middle, _, back, asked, ended, rfl⟩ | ⟨cause, failed, -⟩)
    · obtain ⟨_, answered, same, rfl⟩ := (goes_ask _ _).mp asked
      cases same
      exact ⟨reply, middle, back, answered, ended, rfl⟩
    · obtain ⟨_, _, same, _⟩ := (goes_ask _ _).mp failed
      cases same
  · rintro ⟨reply, middle, back, answered, ended, rfl⟩
    exact .inl ⟨reply, middle, _, back, (goes_ask _ _).mpr ⟨reply, answered, rfl, rfl⟩, ended, rfl⟩

/-- A call to the store, and then the rest unless it has failed. -/
theorem goes_store_bind (call : Store.Call) (rest : call.Answer → Service α) (result : Except Failure α) :
    Goes setting (Service.store call >>= rest) state result last log ↔
      (∃ answer middle back, setting state (.store call) (.ok answer) middle ∧
        Goes setting (rest answer) middle result last back ∧ log = .said (.store call) (.ok answer) :: back) ∨
      ∃ fault, setting state (.store call) (.error fault) last ∧ .error (Failure.ofStore fault) = result ∧
        log = [.said (.store call) (.error fault)] := by
  rw [goes_bind]
  constructor
  · rintro (⟨answer, middle, _, back, called, ended, rfl⟩ | ⟨cause, failed, rfl⟩)
    · obtain ⟨reply, answered, same, rfl⟩ := (goes_store _ _).mp called
      cases reply with
      | ok given =>
        cases same
        exact .inl ⟨answer, middle, back, answered, ended, rfl⟩
      | error fault => cases same
    · obtain ⟨reply, answered, same, rfl⟩ := (goes_store _ _).mp failed
      cases reply with
      | ok given => cases same
      | error fault =>
        cases same
        exact .inr ⟨fault, answered, rfl, rfl⟩
  · rintro (⟨answer, middle, back, answered, ended, rfl⟩ | ⟨fault, answered, rfl, rfl⟩)
    · exact .inl ⟨answer, middle, _, back, (goes_store _ _).mpr ⟨_, answered, rfl, rfl⟩, ended, rfl⟩
    · exact .inr ⟨_, (goes_store _ _).mpr ⟨_, answered, rfl, rfl⟩, rfl⟩

/-- However a service ends, something else is done then. -/
theorem goes_attempt_bind (service : Service α) (rest : Except Failure α → Service β) (result : Except Failure β) :
    Goes setting (Service.attempt service >>= rest) state result last log ↔
      ∃ inner middle front back, Goes setting service state inner middle front ∧
        Goes setting (rest inner) middle result last back ∧ log = front ++ back := by
  rw [goes_bind]
  constructor
  · rintro (⟨inner, middle, front, back, attempted, ended, rfl⟩ | ⟨cause, failed, -⟩)
    · obtain ⟨_, worked, same⟩ := (goes_attempt _ _).mp attempted
      cases same
      exact ⟨inner, middle, front, back, worked, ended, rfl⟩
    · obtain ⟨_, _, same⟩ := (goes_attempt _ _).mp failed
      cases same
  · rintro ⟨inner, middle, front, back, worked, ended, rfl⟩
    exact .inl ⟨inner, middle, front, back, (goes_attempt _ _).mpr ⟨inner, worked, rfl⟩, ended, rfl⟩

end Service

end Dispatch
