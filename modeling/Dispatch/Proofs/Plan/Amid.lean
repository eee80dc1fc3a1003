import Dispatch.Proofs.Plan.Turns
/-!
One plan among others. Between the replies to a plan the others move the state on, and that is all that it can notice
of them. So a run of many plans is, for each of them, a run by itself in a setting that moves by itself.
-/
namespace Dispatch

variable {σ : Type}

/-- The replies of a setting whose state may move before each of them. -/
def Setting.amid (moves : σ → σ → Prop) (setting : Setting σ) : Setting σ := fun state request reply next =>
  ∃ middle, moves state middle ∧ setting middle request reply next

/-- The state moves, and nothing is written down. -/
def Recorded.Moves (moves : σ → σ → Prop) (now next : Recorded σ) : Prop :=
  moves now.state next.state ∧ next.trace = now.trace

namespace Plan

variable {α : Type} {setting : Setting σ} {moves : σ → σ → Prop}

/-- The plan can end with this value in a setting that moves, and some moves after that leave the state like this. -/
def EndsAmid (moves : σ → σ → Prop) (setting : Setting σ) (plan : Plan α) (state : σ) (result : α) (last : σ) :
    Prop :=
  ∃ middle, plan.Ends (setting.amid moves) state result middle ∧ moves middle last

theorem EndsAmid.behind (follows : ∀ first second third, moves first second → moves second third →
      moves first third) {plan : Plan α} {state next last : σ} {result : α} (moved : moves state next)
    (ended : plan.EndsAmid moves setting next result last) : plan.EndsAmid moves setting state result last := by
  obtain ⟨middle, ran, left⟩ := ended
  cases plan with
  | done value =>
    obtain ⟨rfl, rfl⟩ := ran
    exact ⟨state, ⟨rfl, rfl⟩, follows _ _ _ moved left⟩
  | ask request rest =>
    obtain ⟨reply, after, ⟨before, begun, answered⟩, later⟩ := ran
    exact ⟨middle, ⟨reply, after, ⟨before, follows _ _ _ moved begun, answered⟩, later⟩, left⟩

theorem EndsAmid.ask {request : Request} {rest : request.Reply → Plan α} {reply : request.Reply} {state next last : σ}
    {result : α} (stays : moves state state) (answered : setting state request reply next)
    (ended : (rest reply).EndsAmid moves setting next result last) :
    (Plan.ask request rest).EndsAmid moves setting state result last := by
  obtain ⟨middle, ran, left⟩ := ended
  exact ⟨middle, ⟨reply, next, ⟨state, stays, answered⟩, ran⟩, left⟩

/-- Where nothing is written down, it can end so too. -/
theorem EndsAmid.forget {plan : Plan α} {now last : Recorded σ} {result : α}
    (ended : plan.EndsAmid (Recorded.Moves moves) setting.recorded now result last) :
    plan.EndsAmid moves setting now.state result last.state := by
  obtain ⟨middle, ran, left, -⟩ := ended
  refine ⟨middle.state, Ends.through Recorded.state ran ?_, left⟩
  rintro before after request reply ⟨between, ⟨moved, -⟩, answered, -⟩
  exact ⟨between.state, moved, answered⟩

end Plan

open Plan

namespace Pool

variable {α : Type} {setting : Setting σ} {moves : σ → σ → Prop} {pool last : Pool σ α} {turns : List (Turn σ)}

/-- What a plan has come to in a run it can come to by itself, where the state moves as the others have moved it; and
what it has been told then is its own part of the run. -/
theorem Plays.endsAmid (stays : ∀ state, moves state state)
    (follows : ∀ first second third, moves first second → moves second third → moves first third)
    (played : Plays setting pool turns last) {place : Nat} {plan : Plan α} (begins : pool.plans[place]? = some plan)
    (others : ∀ turn ∈ turns, turn.place ≠ place → moves turn.moment.before turn.moment.after)
    {value : α} (ended : last.plans[place]? = some (.done value)) :
    plan.EndsAmid (Recorded.Moves moves) setting.recorded { state := pool.state } value
      { state := last.state, trace := turnsOf place turns } := by
  have moved (first second third : Recorded σ) (one : first.Moves moves second) (other : second.Moves moves third) :
      first.Moves moves third := ⟨follows _ _ _ one.1 other.1, other.2.trans one.2⟩
  -- From wherever the run has come to, the plan has its rest before it.
  have walk {now : Plan α} {final : Recorded σ} (stands : last.plans[place]? = some now)
      (rest : now.EndsAmid (Recorded.Moves moves) setting.recorded
        { state := last.state, trace := turnsOf place turns } value final) :
      plan.EndsAmid (Recorded.Moves moves) setting.recorded { state := pool.state } value final := by
    clear ended
    induction played generalizing now with
    | start =>
      obtain rfl := Option.some.inj (begins.symm.trans stands)
      exact rest
    | step run next ih =>
      rename_i turns turn
      have early : ∀ turn ∈ turns, turn.place ≠ place → moves turn.moment.before turn.moment.after :=
        fun turn member => others turn (List.mem_append_left _ member)
      rw [turnsOf_snoc] at rest
      by_cases own : turn.place = place
      · subst own
        rw [if_pos rfl] at rest
        cases next with
        | reply front back next answered =>
          obtain rfl : next _ = now := by simpa using stands
          exact ih early (by simp) (.ask ⟨stays _, rfl⟩ ⟨answered, rfl⟩ rest)
      · rw [if_neg own, List.append_nil] at rest
        have here := others turn (List.mem_append_right _ (List.mem_singleton_self turn)) own
        rw [← next.before_eq, ← next.after_eq] at here
        refine ih early ((next.stands own).symm.trans stands) (EndsAmid.behind moved ?_ rest)
        exact ⟨here, rfl⟩
  exact walk ended ⟨_, ⟨rfl, rfl⟩, stays _, rfl⟩

end Pool

end Dispatch
