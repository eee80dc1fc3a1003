import Dispatch.Proofs.Plan.Protocol
/-!
Plans that are under way together. At every step one plan, whichever it is, gets the reply to its next request;
all that they share is the state that the replies come from.
-/
namespace Dispatch

/-- Which replies a request may get in a state, and what the state is then. -/
abbrev Setting (σ : Type) : Type := σ → (request : Request) → request.Reply → σ → Prop

/-- One request with its reply, between two states. -/
structure Moment (σ : Type) where
  before : σ
  request : Request
  reply : request.Reply
  after : σ

/-- Every moment of a trace is as it may be after those before it. -/
def Throughout {σ : Type} (rule : List (Moment σ) → Moment σ → Prop) (trace : List (Moment σ)) : Prop :=
  ∀ front moment back, trace = front ++ moment :: back → rule front moment

section Throughout

variable {σ : Type} {rule : List (Moment σ) → Moment σ → Prop} {trace : List (Moment σ)} {moment : Moment σ}

theorem throughout_nil : Throughout rule [] := by
  intro front moment back same
  simp at same

/-- A list with one more at its end, split at one of its elements: at the new one, or before it. -/
theorem snoc_split {α : Type} {list front back : List α} {last element : α}
    (same : list ++ [last] = front ++ element :: back) :
    (list = front ∧ last = element ∧ back = []) ∨ ∃ rest, list = front ++ element :: rest ∧ back = rest ++ [last] := by
  rcases List.eq_nil_or_concat back with rfl | ⟨rest, ending, rfl⟩
  · obtain ⟨rfl, rfl⟩ := List.append_singleton_inj.mp same
    exact .inl ⟨rfl, rfl, rfl⟩
  · rw [List.concat_eq_append, ← List.cons_append, ← List.append_assoc] at same
    obtain ⟨rfl, rfl⟩ := List.append_singleton_inj.mp same
    exact .inr ⟨rest, rfl, List.concat_eq_append⟩

theorem Throughout.snoc (earlier : Throughout rule trace) (last : rule trace moment) :
    Throughout rule (trace ++ [moment]) := by
  intro front other back same
  rcases snoc_split same with ⟨rfl, rfl, -⟩ | ⟨rest, rfl, -⟩
  · exact last
  · exact earlier front other rest rfl

end Throughout

structure Pool (σ α : Type) where
  state : σ
  plans : List (Plan α)

namespace Pool

variable {σ α κ : Type} {setting : Setting σ}

/-- One of the plans gets a reply. -/
inductive Step (setting : Setting σ) : Pool σ α → Moment σ → Pool σ α → Prop
  | reply {state : σ} {request : Request} {reply : request.Reply} {next : σ} (front back : List (Plan α))
      (rest : request.Reply → Plan α) (answered : setting state request reply next) :
      Step setting { state, plans := front ++ .ask request rest :: back }
        { before := state, request, reply, after := next } { state := next, plans := front ++ rest reply :: back }

/-- What happens from one pool to another, moment after moment. -/
inductive Runs (setting : Setting σ) (pool : Pool σ α) : List (Moment σ) → Pool σ α → Prop
  | start : Runs setting pool [] pool
  | step {middle last : Pool σ α} {trace : List (Moment σ)} {moment : Moment σ}
      (run : Runs setting pool trace middle) (next : Step setting middle moment last) :
      Runs setting pool (trace ++ [moment]) last

/-- What begins with a moment. -/
theorem Runs.cons {pool middle last : Pool σ α} {moment : Moment σ} {trace : List (Moment σ)}
    (first : Step setting pool moment middle) (run : Runs setting middle trace last) :
    Runs setting pool (moment :: trace) last := by
  induction run with
  | start => exact .step .start first
  | step run next ih => exact .step ih next

/-- Something that answers requests from a state, or lets them wait. -/
abbrev Responder (σ : Type) : Type := (request : Request) → σ → Option (request.Reply × σ)

/-- Lets the plans move in the given order, each turn being the place of a plan. A plan that has ended or has to
wait lets its turn pass. -/
def play (respond : Responder σ) : List Nat → Pool σ α → List (Moment σ) × Pool σ α
  | [], pool => ([], pool)
  | turn :: turns, pool =>
    match pool.plans[turn]? with
    | some (.ask request rest) =>
      match respond request pool.state with
      | some (reply, next) =>
        let (trace, last) := play respond turns { state := next, plans := pool.plans.set turn (rest reply) }
        ({ before := pool.state, request, reply, after := next } :: trace, last)
      | none => play respond turns pool
    | some (.done _) | none => play respond turns pool

theorem runs_play {respond : Responder σ} (answered : ∀ {request state reply next},
      respond request state = some (reply, next) → setting state request reply next)
    (turns : List Nat) (pool : Pool σ α) :
    Runs setting pool (pool.play respond turns).1 (pool.play respond turns).2 := by
  induction turns generalizing pool with
  | nil => exact .start
  | cons turn turns ih =>
    rw [play]
    split
    next request rest found =>
      split
      next reply next replied =>
        obtain ⟨bound, same⟩ := List.getElem?_eq_some_iff.mp found
        have moved := Step.reply (pool.plans.take turn) (pool.plans.drop (turn + 1)) rest (answered replied)
        have before : pool.plans.take turn ++ .ask request rest :: pool.plans.drop (turn + 1) = pool.plans := by
          rw [← same, List.getElem_cons_drop, List.take_append_drop]
        have after := List.set_eq_take_append_cons_drop (l := pool.plans) (i := turn) (a := rest reply)
        rw [if_pos bound] at after
        rw [before, ← after] at moved
        exact Runs.cons moved (ih _)
      next => exact ih pool
    next => exact ih pool
    next => exact ih pool

/-- If each plan of a pool keeps a protocol with what it knows, a rule about the state, the trace, and the plans with
what they know holds throughout as soon as no permitted request breaks it. -/
theorem Runs.holds_each {protocol : Protocol κ} {ends : α → κ → Prop} {pool last : Pool σ α}
    {trace : List (Moment σ)} {knowers : List (Plan α × κ)} (run : Runs setting pool trace last)
    (same : knowers.map Prod.fst = pool.plans)
    (kept : ∀ knower ∈ knowers, knower.1.Keeps protocol ends knower.2)
    (honest : ∀ (state next : σ) (request : Request) (reply : request.Reply),
      setting state request reply next → protocol.trusts request reply)
    (rule : σ → List (Moment σ) → List (Plan α × κ) → Prop) (start : rule pool.state [] knowers)
    (preserved : ∀ (state next : σ) (trace : List (Moment σ)) (front back : List (Plan α × κ)) (known : κ)
      (request : Request) (reply : request.Reply) (rest : request.Reply → Plan α),
      (∀ knower ∈ front ++ (.ask request rest, known) :: back, knower.1.Keeps protocol ends knower.2) →
      rule state trace (front ++ (.ask request rest, known) :: back) → setting state request reply next →
      rule next (trace ++ [{ before := state, request, reply, after := next }])
        (front ++ (rest reply, protocol.learn known request reply) :: back)) :
    ∃ later : List (Plan α × κ), later.map Prod.fst = last.plans ∧
      (∀ knower ∈ later, knower.1.Keeps protocol ends knower.2) ∧ rule last.state trace later := by
  induction run with
  | start => exact ⟨knowers, same, kept, start⟩
  | step run next ih =>
    obtain ⟨knowers, same, keeping, held⟩ := ih
    cases next with
    | reply front back rest answered =>
      -- The plan that moves stands between the others, and so does what it knows.
      obtain ⟨front, others, rfl, rfl, sameOthers⟩ := List.map_eq_append_iff.mp same
      obtain ⟨⟨_, known⟩, back, rfl, rfl, rfl⟩ := List.map_eq_cons_iff.mp sameOthers
      rename_i state request reply next
      have permitted := keeping (.ask request rest, known) (by simp)
      refine ⟨front ++ (rest reply, protocol.learn known request reply) :: back, by simp, ?_, ?_⟩
      · intro knower member
        rcases List.mem_append.mp member with before | other
        · exact keeping knower (by simp [before])
        · rcases List.mem_cons.mp other with rfl | behind
          · exact permitted.2 reply (honest _ _ _ _ answered)
          · exact keeping knower (by simp [behind])
      · exact preserved _ _ _ _ _ _ _ _ _ keeping held answered

/-- As before, where all plans know the same at first and the rule is about what they know. -/
theorem Runs.holds {protocol : Protocol κ} {ends : α → κ → Prop} {pool last : Pool σ α}
    {trace : List (Moment σ)} {initial : κ} (run : Runs setting pool trace last)
    (kept : ∀ plan ∈ pool.plans, plan.Keeps protocol ends initial)
    (honest : ∀ (state next : σ) (request : Request) (reply : request.Reply),
      setting state request reply next → protocol.trusts request reply)
    (rule : σ → List (Moment σ) → List κ → Prop) (start : rule pool.state [] (pool.plans.map fun _ => initial))
    (preserved : ∀ (state next : σ) (trace : List (Moment σ)) (front back : List κ) (known : κ)
      (request : Request) (reply : request.Reply), rule state trace (front ++ known :: back) →
      protocol.permits known request → setting state request reply next →
      rule next (trace ++ [{ before := state, request, reply, after := next }])
        (front ++ protocol.learn known request reply :: back)) :
    ∃ knowers : List (Plan α × κ), knowers.map Prod.fst = last.plans ∧
      (∀ knower ∈ knowers, knower.1.Keeps protocol ends knower.2) ∧
      rule last.state trace (knowers.map Prod.snd) := by
  have same : (pool.plans.map fun plan => (plan, initial)).map Prod.fst = pool.plans := by
    rw [List.map_map]
    exact List.map_id _
  have keeping : ∀ knower ∈ pool.plans.map fun plan => (plan, initial), knower.1.Keeps protocol ends knower.2 := by
    intro knower member
    obtain ⟨plan, present, rfl⟩ := List.mem_map.mp member
    exact kept plan present
  apply run.holds_each same keeping honest fun state trace knowers => rule state trace (knowers.map Prod.snd)
  · rw [List.map_map]
    exact start
  · intro state next trace front back known request reply rest keeping held answered
    rw [List.map_append, List.map_cons] at held ⊢
    exact preserved _ _ _ _ _ _ _ _ held (keeping (.ask request rest, known) (by simp)).1 answered

/-- What all plans have seen stays true when one of them learns more, if a step keeps it true and what is new is true. -/
theorem remembered_step {ρ : Type} {before after : ρ → Prop} {front back : List (List ρ)} {seen more : List ρ}
    (remembered : ∀ rows ∈ front ++ seen :: back, ∀ row ∈ rows, before row)
    (kept : ∀ row, before row → after row) (learnt : ∀ row ∈ more, row ∈ seen ∨ after row) :
    ∀ rows ∈ front ++ more :: back, ∀ row ∈ rows, after row := by
  intro rows member row inside
  have others (known : rows ∈ front ++ seen :: back) : after row := kept row (remembered rows known row inside)
  rcases List.mem_append.mp member with earlier | other
  · exact others (by simp [earlier])
  · rcases List.mem_cons.mp other with rfl | later
    · rcases learnt row inside with known | new
      · exact kept row (remembered seen (by simp) row known)
      · exact new
    · exact others (by simp [later])

end Pool

end Dispatch
