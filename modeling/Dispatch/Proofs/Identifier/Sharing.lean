import Dispatch.Proofs.Identifier.Minting
/-!
Mints of several processes at one store. Each process is alone in its own mint, and nothing but the store stands
between the processes: whether an identifier is taken is asked in one call, and the identifier is stamped in another.
So two calls come to the same identifier only if both have asked before either stamps.
-/
namespace Dispatch.Identifier

open Plan

/-- A call of one process for an identifier. -/
structure Order where
  mint : Mint
  kind : Kind
  name : Option String := none
  site : Option String := none

/-- What a call does where its process is alone in the mint. -/
def Order.plan (order : Order) : Plan (Except Failure String) :=
  (order.mint.nextAlone order.kind order.name order.site).run

/-- How far a call has come. -/
inductive Stage
  | fresh
  | drawn (key : Nat)
  | checked (key : Nat) (id : String)
  | stamped (key : Nat) (id : String)
  deriving DecidableEq

structure Progress where
  kind : Kind
  stage : Stage := .fresh

namespace Progress

/-- The value that a call has taken. -/
def slot? (progress : Progress) : Option Store.Slot :=
  match progress.stage with
  | .fresh => none
  | .drawn key | .checked key _ | .stamped key _ => some (progress.kind, key)

/-- The identifier that a call has found free. -/
def id? (progress : Progress) : Option String :=
  match progress.stage with
  | .fresh | .drawn _ => none
  | .checked _ id | .stamped _ id => some id

theorem id?_some {progress : Progress} {id : String} (named : progress.id? = some id) :
    (∃ key, progress.stage = .checked key id) ∨ ∃ key, progress.stage = .stamped key id := by
  obtain ⟨kind, stage⟩ := progress
  cases stage with
  | fresh | drawn => cases named
  | checked key other =>
    cases named
    exact .inl ⟨key, rfl⟩
  | stamped key other =>
    cases named
    exact .inr ⟨key, rfl⟩

end Progress

/-- A call takes one value, asks about identifiers of its kind, and stamps one that it has just found free, on the row
of its value. -/
def minting : Protocol Progress where
  permits
    | ⟨kind, .fresh⟩, .store (.reserve _ other) => other = kind
    | ⟨kind, .drawn _⟩, .store (.isTaken other _) => other = kind
    | ⟨kind, .checked key id⟩, request => request = .store (.assign kind key id)
    | _, .store (.reserve ..) | _, .store (.assign ..) => False
    | _, _ => True
  learn
    | ⟨kind, .fresh⟩, .store (.reserve ..), .ok key => ⟨kind, .drawn key⟩
    | ⟨kind, .drawn key⟩, .store (.isTaken _ id), .ok false => ⟨kind, .checked key id⟩
    | ⟨kind, .checked key id⟩, .store (.assign ..), .ok _ => ⟨kind, .stamped key id⟩
    | ⟨kind, .checked key _⟩, .store (.assign ..), .error _ => ⟨kind, .drawn key⟩
    | known, _, _ => known

/-- A call that ends has stamped what it gives, and does not leave an identifier that it has found free. -/
def EndsMinting : Except Failure String → Progress → Prop
  | .ok id, known => ∃ key, known.stage = .stamped key id
  | .error _, known => known.stage = .fresh ∨ ∃ key, known.stage = .drawn key

theorem tries_takeCounter (kind : Kind) :
    Tries minting (fun counter known => known = ⟨kind, .drawn counter⟩)
      (fun cause known => EndsMinting (.error cause) known) (takeCounter kind) ⟨kind, .fresh⟩ := by
  unfold takeCounter
  rw [tries_bind, Service.tries_store]
  refine ⟨trivial, fun transaction _ => ?_, fun _ _ => .inl rfl⟩
  rw [tries_bind, Service.tries_ask]
  refine ⟨rfl, fun reserved _ => ?_⟩
  cases reserved with
  | ok counter =>
    refine (tries_bind _ _).mpr ((Service.tries_store _).mpr ⟨trivial, fun _ _ => rfl, fun _ _ => .inr ⟨counter, rfl⟩⟩)
  | error fault => exact (tries_bind _ _).mpr ((Service.tries_ask _).mpr ⟨trivial, fun _ _ => .inl rfl⟩)

theorem tries_reserveFrom (kind : Kind) (counter left : Nat) (candidate : String) :
    Tries minting (fun id known => EndsMinting (.ok id) known) (fun cause known => EndsMinting (.error cause) known)
      (reserveFrom kind counter left candidate) ⟨kind, .drawn counter⟩ := by
  induction left generalizing candidate with
  | zero => exact .inr ⟨counter, rfl⟩
  | succ left ih =>
    unfold reserveFrom
    rw [tries_bind, Service.tries_store]
    refine ⟨rfl, fun taken _ => ?_, fun _ _ => .inr ⟨counter, rfl⟩⟩
    cases taken with
    | true => exact ih _
    | false =>
      rw [if_neg (by simp), tries_bind, Service.tries_ask]
      refine ⟨rfl, fun assigned _ => ?_⟩
      cases assigned with
      | ok _ => exact ⟨counter, rfl⟩
      | error fault => exact .inr ⟨counter, rfl⟩

theorem Order.keeps_plan (order : Order) : order.plan.Keeps minting EndsMinting ⟨order.kind, .fresh⟩ := by
  have tried : Tries minting (fun id known => EndsMinting (.ok id) known)
      (fun cause known => EndsMinting (.error cause) known)
      (order.mint.nextAlone order.kind order.name order.site) ⟨order.kind, .fresh⟩ := by
    unfold Mint.nextAlone
    rw [tries_bind]
    refine (tries_takeCounter order.kind).mono ?_ fun _ _ failed => failed
    rintro counter _ rfl
    rw [tries_bind, Service.tries_ask]
    refine ⟨trivial, fun now _ => ?_⟩
    rw [tries_bind, Service.tries_ofExcept]
    refine ⟨fun candidate _ => ?_, fun _ _ => .inr ⟨counter, rfl⟩⟩
    refine tries_guard.mpr ⟨fun _ => .inr ⟨counter, rfl⟩, fun _ => ?_⟩
    exact tries_reserveFrom order.kind counter _ candidate
  refine Keeps.mono tried fun result known ended => ?_
  cases result with
  | ok id => exact ended
  | error cause => exact ended

/-- What one step does to the call that takes it, and to the rows of all. -/
inductive Advances (tables next : Store.Tables) : Progress → Progress → Prop
  | rests {progress : Progress} (rows : tables.placeholders ⊆ next.placeholders) : Advances tables next progress progress
  | draws {kind : Kind} (rows : tables.placeholders ⊆ next.placeholders)
      (counted : tables.counters kind + 1 ≤ next.counters kind) :
      Advances tables next ⟨kind, .fresh⟩ ⟨kind, .drawn (tables.counters kind + 1)⟩
  | checks {kind : Kind} {key : Nat} {id : String} (rows : tables.placeholders ⊆ next.placeholders)
      (free : tables.isTaken kind id = false) :
      Advances tables next ⟨kind, .drawn key⟩ ⟨kind, .checked key id⟩
  | stamps {kind : Kind} {key : Nat} {id : String}
      (others : ∀ row ∈ tables.placeholders, row.slot ≠ (kind, key) → row ∈ next.placeholders)
      (own : { kind, key, id := some id } ∈ next.placeholders) :
      Advances tables next ⟨kind, .checked key id⟩ ⟨kind, .stamped key id⟩
  | misses {kind : Kind} {key : Nat} {id : String} (rows : tables.placeholders ⊆ next.placeholders) :
      Advances tables next ⟨kind, .checked key id⟩ ⟨kind, .drawn key⟩

section Step

variable {shared next : Shared} {known : Progress} {request : Request} {reply : request.Reply}

theorem advances_answer {tables : Store.Tables} (sound : tables.HasSoundCounters) {call : Store.Call}
    (permitted : minting.permits known (.store call)) :
    Advances tables (tables.answer call).2 known (minting.learn known (.store call) (tables.answer call).1) := by
  have rows (other : ∀ kind key id, call ≠ .assign kind key id) :
      tables.placeholders ⊆ (tables.answer call).2.placeholders := fun row member =>
    Store.Tables.mem_placeholders_answer sound member fun id => other row.kind row.key id
  obtain ⟨kind, stage⟩ := known
  cases stage with
  | fresh =>
    cases call with
    | reserve number other =>
      cases permitted
      have rows := rows (by simp)
      cases found : tables.transaction? number with
      | some transaction =>
        simp only [Store.Tables.answer, Store.Tables.reserve_eq found] at rows ⊢
        exact .draws rows (by simp [Store.Tables.afterReserve])
      | none =>
        simp only [Store.Tables.answer, Store.Tables.reserve, found] at rows ⊢
        exact .rests rows
    | assign => exact permitted.elim
    | _ => exact .rests (rows (by simp))
  | drawn key =>
    cases call with
    | isTaken other id =>
      cases permitted
      cases taken : tables.isTaken kind id with
      | true =>
        simp only [Store.Tables.answer, taken]
        exact .rests (List.Subset.refl _)
      | false =>
        simp only [Store.Tables.answer, taken]
        exact .checks (List.Subset.refl _) taken
    | reserve | assign => exact permitted.elim
    | _ => exact .rests (rows (by simp))
  | checked key id =>
    cases permitted
    by_cases visible : (kind, key) ∈ tables.slots
    · obtain ⟨row, member, same⟩ := List.mem_map.mp visible
      simp only [Store.Tables.answer, Store.Tables.assign_eq visible]
      apply Advances.stamps
      · intro other present different
        exact List.mem_map.mpr ⟨other, present, if_neg fun same => different (Store.Placeholder.slot_eq.mpr same)⟩
      · obtain ⟨rfl, rfl⟩ := Store.Placeholder.slot_eq.mp same
        exact List.mem_map.mpr ⟨row, member, by simp [Store.Tables.stamp]⟩
    · simp only [Store.Tables.answer, Store.Tables.assign_of_absent visible]
      exact .misses (List.Subset.refl _)
  | stamped key id =>
    cases call with
    | reserve | assign => exact permitted.elim
    | _ => exact .rests (rows (by simp))

theorem advances (sound : shared.tables.HasSoundCounters) (permitted : minting.permits known request)
    (served : shared.Serves request reply next) :
    Advances shared.tables next.tables known (minting.learn known request reply) := by
  cases request with
  | store call =>
    rcases Shared.serves_store served with ⟨rfl, rfl⟩ | ⟨⟨fault, rfl⟩, rfl⟩
    · exact advances_answer sound permitted
    · obtain ⟨kind, stage⟩ := known
      cases stage with
      | checked key id =>
        cases permitted
        exact .misses (List.Subset.refl _)
      | fresh | drawn | stamped => cases call <;> exact .rests (List.Subset.refl _)
  | _ =>
    have same := served.tables_eq fun call => nofun
    obtain ⟨kind, stage⟩ := known
    rw [same]
    cases stage with
    | checked => cases permitted
    | fresh | drawn | stamped => exact .rests (List.Subset.refl _)

theorem sound_of_serves (sound : shared.tables.HasSoundCounters) (served : shared.Serves request reply next) :
    next.tables.HasSoundCounters := by
  cases request with
  | store call =>
    rcases Shared.serves_store served with ⟨_, rfl⟩ | ⟨_, rfl⟩
    · exact sound.answer call
    · exact sound
  | _ =>
    rw [served.tables_eq fun call => nofun]
    exact sound

theorem counters_le_of_serves (served : shared.Serves request reply next) (kind : Kind) :
    shared.tables.counters kind ≤ next.tables.counters kind := by
  cases request with
  | store call =>
    rcases Shared.serves_store served with ⟨_, rfl⟩ | ⟨_, rfl⟩
    · exact Store.Tables.counters_le_answer shared.tables call kind
    · exact Nat.le_refl _
  | _ =>
    rw [served.tables_eq fun call => nofun]

end Step

namespace Advances

variable {tables next : Store.Tables} {known moved : Progress}

theorem kind_eq (advance : Advances tables next known moved) : moved.kind = known.kind := by
  cases advance <;> rfl

/-- A value is kept, and a new one is above all of its kind. -/
theorem slot?_cases (advance : Advances tables next known moved) : moved.slot? = known.slot? ∨
    known.slot? = none ∧ moved.slot? = some (known.kind, tables.counters known.kind + 1) ∧
      tables.counters known.kind + 1 ≤ next.counters known.kind := by
  cases advance with
  | draws rows counted => exact .inr ⟨rfl, rfl, counted⟩
  | _ => exact .inl rfl

/-- Rows stay, except that of the value of the call. -/
theorem mem_placeholders (advance : Advances tables next known moved) {row : Store.Placeholder}
    (member : row ∈ tables.placeholders) (apart : known.slot? ≠ some row.slot) : row ∈ next.placeholders := by
  cases advance with
  | rests rows | draws rows | checks rows | misses rows => exact rows member
  | stamps others => exact others row member fun same => apart (congrArg some same.symm)

/-- What a call has stamped is on its row. -/
theorem stamped (advance : Advances tables next known moved) {key : Nat} {id : String}
    (before : known.stage = .stamped key id → { kind := known.kind, key, id := some id } ∈ tables.placeholders)
    (same : moved.stage = .stamped key id) : { kind := moved.kind, key, id := some id } ∈ next.placeholders := by
  cases advance with
  | rests rows => exact rows (before same)
  | stamps others own =>
    cases same
    exact own
  | draws | checks | misses => cases same

/-- An identifier is the one from before, or has just been found free. -/
theorem id?_cases (advance : Advances tables next known moved) {id : String} (named : moved.id? = some id) :
    known.id? = some id ∨ (∃ key, moved.stage = .checked key id) ∧ tables.isTaken known.kind id = false := by
  cases advance with
  | rests | stamps => exact .inl named
  | checks rows free =>
    cases named
    exact .inr ⟨⟨_, rfl⟩, free⟩
  | draws | misses => cases named

end Advances

/-- The next thing that a plan does is to stamp the identifier. -/
def IsToStamp (kind : Kind) (id : String) (plan : Plan (Except Failure String)) : Prop :=
  ∃ key rest, plan = .ask (.store (.assign kind key id)) rest

theorem isToStamp_of_keeps {plan : Plan (Except Failure String)} {known : Progress} {key : Nat} {id : String}
    (kept : plan.Keeps minting EndsMinting known) (checked : known.stage = .checked key id) :
    IsToStamp known.kind id plan := by
  obtain ⟨kind, stage⟩ := known
  cases checked
  cases plan with
  | done result =>
    cases result with
    | ok given =>
      obtain ⟨_, same⟩ := kept
      cases same
    | error cause =>
      rcases kept with same | ⟨_, same⟩
      · cases same
      · cases same
  | ask request rest =>
    obtain rfl : request = .store (.assign kind key id) := kept.1
    exact ⟨key, rest, rfl⟩

abbrev Callers : Type := Pool Shared (Except Failure String)

/-- Somewhere on the way both plans are about to stamp the identifier. -/
def StoodTogether (start last : Callers) (trace : List (Moment Shared)) (i j : Nat) (kind : Kind) (id : String) :
    Prop :=
  ∃ front middle back, trace = front ++ back ∧ Pool.Runs Shared.Serves start front middle ∧
    Pool.Runs Shared.Serves middle back last ∧ (∃ plan, middle.plans[i]? = some plan ∧ IsToStamp kind id plan) ∧
    ∃ plan, middle.plans[j]? = some plan ∧ IsToStamp kind id plan

namespace StoodTogether

variable {start last next : Callers} {trace : List (Moment Shared)} {moment : Moment Shared} {i j : Nat} {kind : Kind}
  {id : String}

theorem symm (stood : StoodTogether start last trace i j kind id) : StoodTogether start last trace j i kind id := by
  obtain ⟨front, middle, back, split, before, after, one, other⟩ := stood
  exact ⟨front, middle, back, split, before, after, other, one⟩

theorem step (stood : StoodTogether start last trace i j kind id) (step : Pool.Step Shared.Serves last moment next) :
    StoodTogether start next (trace ++ [moment]) i j kind id := by
  obtain ⟨front, middle, back, rfl, before, after, both⟩ := stood
  exact ⟨front, middle, back ++ [moment], List.append_assoc _ _ _, before, after.step step, both⟩

end StoodTogether

/-- What one place of a list holds when another has been put there. -/
theorem getElem?_middle {α : Type} (front back : List α) (old new : α) (n : Nat) :
    (front ++ new :: back)[n]? = if n = front.length then some new else (front ++ old :: back)[n]? := by
  have same : front ++ new :: back = (front ++ old :: back).set front.length new := by simp
  rw [same, List.getElem?_set]
  by_cases here : n = front.length
  · simp [here]
  · simp [here, Ne.symm here]

/-- The values that calls have taken. -/
def slotsOf (knowers : List (Plan (Except Failure String) × Progress)) : List Store.Slot :=
  knowers.filterMap fun knower => knower.2.slot?

theorem slotsOf_perm (front back : List (Plan (Except Failure String) × Progress))
    (knower : Plan (Except Failure String) × Progress) :
    (slotsOf (front ++ knower :: back)).Perm (knower.2.slot?.toList ++ slotsOf (front ++ back)) := by
  have moved : (front ++ knower :: back).Perm (knower :: (front ++ back)) := List.perm_middle
  apply (moved.filterMap fun knower => knower.2.slot?).trans
  cases taken : knower.2.slot? <;> simp [slotsOf, taken]

/-- The rule that holds throughout every run: of the values that calls have taken, of what they have stamped, and of
calls that have found the same identifier free. -/
structure IsShared (start : Callers) (kinds : List Kind) (shared : Shared) (trace : List (Moment Shared))
    (knowers : List (Plan (Except Failure String) × Progress)) : Prop where
  run : Pool.Runs Shared.Serves start trace { state := shared, plans := knowers.map Prod.fst }
  kinds : (knowers.map fun knower => knower.2.kind) = kinds
  sound : shared.tables.HasSoundCounters
  distinct : (slotsOf knowers).Nodup
  drawn : ∀ slot ∈ slotsOf knowers, slot.2 ≤ shared.tables.counters slot.1
  stamped : ∀ knower ∈ knowers, ∀ key id, knower.2.stage = .stamped key id →
    { kind := knower.2.kind, key, id := some id } ∈ shared.tables.placeholders
  met : ∀ i j first second id, i ≠ j → knowers[i]? = some first → knowers[j]? = some second →
    first.2.kind = second.2.kind → first.2.id? = some id → second.2.id? = some id →
    StoodTogether start { state := shared, plans := knowers.map Prod.fst } trace i j first.2.kind id

section Rule

variable {start : Callers} {kinds : List Kind} {shared next : Shared} {trace : List (Moment Shared)}
  {front back : List (Plan (Except Failure String) × Progress)} {known : Progress} {request : Request}
  {reply : request.Reply} {rest : request.Reply → Plan (Except Failure String)}

/-- Others have other values. -/
theorem IsShared.slot?_ne (held : IsShared start kinds shared trace (front ++ (.ask request rest, known) :: back))
    {other : Plan (Except Failure String) × Progress} (member : other ∈ front ++ back) {slot : Store.Slot}
    (has : other.2.slot? = some slot) : known.slot? ≠ some slot := by
  intro same
  have distinct := (slotsOf_perm front back (.ask request rest, known)).nodup_iff.mp held.distinct
  rw [same] at distinct
  exact (List.nodup_cons.mp distinct).1 (List.mem_filterMap.mpr ⟨other, member, has⟩)

section Moved

variable {moved : Progress} {plan : Plan (Except Failure String)}
  (held : IsShared start kinds shared trace (front ++ (.ask request rest, known) :: back))
  (advance : Advances shared.tables next.tables known moved)
include held advance

/-- A value that has just been taken is above all that were taken before. -/
theorem IsShared.distinct_moved : (slotsOf (front ++ (plan, moved) :: back)).Nodup := by
  apply (slotsOf_perm front back (plan, moved)).nodup_iff.mpr
  have slots := slotsOf_perm front back (.ask request rest, known)
  have distinct := slots.nodup_iff.mp held.distinct
  rcases advance.slot?_cases with same | ⟨unset, taken, _⟩
  · rwa [same]
  · rw [unset] at distinct
    rw [taken]
    refine List.nodup_cons.mpr ⟨fun member => ?_, distinct⟩
    have bound := held.drawn _ (slots.mem_iff.mpr (List.mem_append_right _ member))
    exact absurd bound (Nat.not_succ_le_self _)

theorem IsShared.drawn_moved (served : shared.Serves request reply next) :
    ∀ slot ∈ slotsOf (front ++ (plan, moved) :: back), slot.2 ≤ next.tables.counters slot.1 := by
  intro slot member
  have slots := slotsOf_perm front back (.ask request rest, known)
  have later (old : slot ∈ slotsOf (front ++ (.ask request rest, known) :: back)) :
      slot.2 ≤ next.tables.counters slot.1 :=
    Nat.le_trans (held.drawn slot old) (counters_le_of_serves served slot.1)
  rcases List.mem_append.mp ((slotsOf_perm front back (plan, moved)).mem_iff.mp member) with own | other
  · rcases advance.slot?_cases with same | ⟨_, taken, counted⟩
    · rw [same] at own
      exact later (slots.mem_iff.mpr (List.mem_append_left _ own))
    · rw [taken] at own
      rw [List.mem_singleton.mp own]
      exact counted
  · exact later (slots.mem_iff.mpr (List.mem_append_right _ other))

/-- No call stamps the row of another. -/
theorem IsShared.stamped_moved : ∀ knower ∈ front ++ (plan, moved) :: back, ∀ key id,
    knower.2.stage = .stamped key id →
      { kind := knower.2.kind, key, id := some id } ∈ next.tables.placeholders := by
  intro knower member key id same
  rw [List.mem_append, List.mem_cons] at member
  have stays (present : knower ∈ front ++ back) :
      { kind := knower.2.kind, key, id := some id } ∈ next.tables.placeholders := by
    have old : knower ∈ front ++ (.ask request rest, known) :: back :=
      List.perm_middle.mem_iff.mpr (List.mem_cons_of_mem _ present)
    have before := held.stamped knower old key id same
    apply advance.mem_placeholders before
    apply held.slot?_ne present
    simp [Progress.slot?, same, Store.Placeholder.slot]
  rcases member with before | rfl | behind
  · exact stays (List.mem_append_left _ before)
  · exact advance.stamped (held.stamped (.ask request rest, known) (by simp) key id) same
  · exact stays (List.mem_append_right _ behind)

/-- The call that has moved has its identifier from before, or has just found it free. Another that has the same one has
not stamped it then, so it stands there too. -/
theorem IsShared.meets (keeping : ∀ knower ∈ front ++ (.ask request rest, known) :: back,
      knower.1.Keeps minting EndsMinting knower.2)
    (keeps : plan.Keeps minting EndsMinting moved)
    (moves : Pool.Step Shared.Serves
      { state := shared, plans := (front ++ (.ask request rest, known) :: back).map Prod.fst }
      { before := shared, request, reply, after := next }
      { state := next, plans := (front ++ (plan, moved) :: back).map Prod.fst })
    {j : Nat} {second : Plan (Except Failure String) × Progress} {id : String} (apart : j ≠ front.length)
    (found : (front ++ (.ask request rest, known) :: back)[j]? = some second)
    (sameKind : moved.kind = second.2.kind) (named : moved.id? = some id) (alsoNamed : second.2.id? = some id) :
    StoodTogether start { state := next, plans := (front ++ (plan, moved) :: back).map Prod.fst }
      (trace ++ [{ before := shared, request, reply, after := next }]) front.length j moved.kind id := by
  rcases advance.id?_cases named with before | ⟨⟨key, checked⟩, free⟩
  · rw [advance.kind_eq] at sameKind ⊢
    have stood := held.met front.length j (.ask request rest, known) second id apart.symm (by simp) found sameKind
      before alsoNamed
    exact stood.step moves
  · have member := List.mem_of_getElem? found
    rcases Progress.id?_some alsoNamed with ⟨other, alsoChecked⟩ | ⟨other, stamped⟩
    · have place := getElem?_middle front back (.ask request rest, known) (plan, moved) j
      rw [if_neg apart, found] at place
      have alsoKeeps := keeping second member
      refine ⟨_, _, [], (List.append_nil _).symm, held.run.step moves, .start, ⟨plan, by simp, ?_⟩, second.1, ?_, ?_⟩
      · exact isToStamp_of_keeps keeps checked
      · rw [List.getElem?_map, place, Option.map_some]
      · rw [sameKind]
        exact isToStamp_of_keeps alsoKeeps alsoChecked
    · have taken := Store.Tables.isTaken_of_stamped (held.stamped second member other id stamped)
      rw [← sameKind, advance.kind_eq, free] at taken
      cases taken

end Moved

/-- One step, whichever call takes it. -/
theorem IsShared.step (held : IsShared start kinds shared trace (front ++ (.ask request rest, known) :: back))
    (keeping : ∀ knower ∈ front ++ (.ask request rest, known) :: back, knower.1.Keeps minting EndsMinting knower.2)
    (served : shared.Serves request reply next) :
    IsShared start kinds next (trace ++ [{ before := shared, request, reply, after := next }])
      (front ++ (rest reply, minting.learn known request reply) :: back) := by
  have permitted := keeping (.ask request rest, known) (by simp)
  have advance := advances held.sound permitted.1 served
  have moves : Pool.Step Shared.Serves
      { state := shared, plans := (front ++ (.ask request rest, known) :: back).map Prod.fst }
      { before := shared, request, reply, after := next }
      { state := next, plans := (front ++ (rest reply, minting.learn known request reply) :: back).map Prod.fst } := by
    rw [List.map_append, List.map_cons, List.map_append, List.map_cons]
    exact .reply _ _ _ served
  have keeps := permitted.2 reply trivial
  generalize minting.learn known request reply = moved at advance moves keeps ⊢
  constructor
  case run => exact held.run.step moves
  case kinds =>
    rw [← held.kinds]
    simp [advance.kind_eq]
  case sound => exact sound_of_serves held.sound served
  case distinct => exact held.distinct_moved advance
  case drawn => exact held.drawn_moved advance served
  case stamped => exact held.stamped_moved advance
  case met =>
    have place := getElem?_middle front back (.ask request rest, known) (rest reply, moved)
    intro i j first second id apart foundFirst foundSecond sameKind named alsoNamed
    rw [place] at foundFirst foundSecond
    by_cases isFirst : i = front.length
    · rw [if_pos isFirst] at foundFirst
      cases foundFirst
      have different : j ≠ front.length := fun isSecond => apart (isFirst.trans isSecond.symm)
      rw [if_neg different] at foundSecond
      rw [isFirst]
      exact held.meets advance keeping keeps moves different foundSecond sameKind named alsoNamed
    · rw [if_neg isFirst] at foundFirst
      by_cases isSecond : j = front.length
      · rw [if_pos isSecond] at foundSecond
        cases foundSecond
        rw [isSecond, sameKind]
        exact (held.meets advance keeping keeps moves isFirst foundFirst sameKind.symm alsoNamed named).symm
      · rw [if_neg isSecond] at foundSecond
        exact (held.met i j first second id apart foundFirst foundSecond sameKind named alsoNamed).step moves

/-- While nothing has been asked yet, no call has taken a value. -/
theorem isShared_start (sound : shared.tables.HasSoundCounters) (orders : List Order) :
    IsShared { state := shared, plans := orders.map Order.plan } (orders.map Order.kind) shared []
      (orders.map fun order => (order.plan, { kind := order.kind })) := by
  have unset : slotsOf (orders.map fun order => (order.plan, { kind := order.kind })) = [] := by
    simp [slotsOf, Progress.slot?]
  constructor
  case run =>
    rw [List.map_map]
    exact .start
  case kinds =>
    rw [List.map_map]
    rfl
  case sound => exact sound
  case distinct => simp [unset]
  case drawn => simp [unset]
  case stamped =>
    intro knower member key id stamped
    obtain ⟨order, _, rfl⟩ := List.mem_map.mp member
    cases stamped
  case met =>
    intro i j first second id _ found _ _ named
    obtain ⟨order, _, rfl⟩ := List.mem_map.mp (List.mem_of_getElem? found)
    cases named

/-- Whoever has come to an identifier has it noted, with the kind that was asked for. -/
theorem IsShared.given {knowers : List (Plan (Except Failure String) × Progress)}
    (held : IsShared start kinds shared trace knowers)
    (kept : ∀ knower ∈ knowers, knower.1.Keeps minting EndsMinting knower.2) {n : Nat} {kind : Kind} {id : String}
    (ordered : kinds[n]? = some kind) (given : (knowers.map Prod.fst)[n]? = some (.done (.ok id))) :
    ∃ knower, knowers[n]? = some knower ∧ knower.2.kind = kind ∧ knower.2.id? = some id := by
  rw [List.getElem?_map] at given
  obtain ⟨knower, found, done⟩ := Option.map_eq_some_iff.mp given
  have sameKind : some knower.2.kind = some kind := by
    rw [← ordered, ← held.kinds, List.getElem?_map, found, Option.map_some]
  have ended := kept knower (List.mem_of_getElem? found)
  rw [done] at ended
  obtain ⟨key, stamped⟩ : ∃ key, knower.2.stage = .stamped key id := ended
  exact ⟨knower, found, Option.some.inj sameKind, by rw [Progress.id?, stamped]⟩

end Rule

/-- Any number of calls in processes of their own, with any mints, in any order of their steps, and with a store that may
fail. If two calls come to the same identifier of a kind, then somewhere on the way both have found it free and neither
has stamped it. So as long as no two calls stand there together, all identifiers of a kind are different. -/
theorem equal_ids_stood_together {start : Shared} {orders : List Order} {trace : List (Moment Shared)} {last : Callers}
    (sound : start.tables.HasSoundCounters)
    (run : Pool.Runs Shared.Serves { state := start, plans := orders.map Order.plan } trace last) {i j : Nat}
    (apart : i ≠ j) {first second : Order} (isFirst : orders[i]? = some first) (isSecond : orders[j]? = some second)
    (sameKind : first.kind = second.kind) {id : String} (given : last.plans[i]? = some (.done (.ok id)))
    (alsoGiven : last.plans[j]? = some (.done (.ok id))) :
    StoodTogether { state := start, plans := orders.map Order.plan } last trace i j first.kind id := by
  let knowers := orders.map fun order => (order.plan, ({ kind := order.kind } : Progress))
  have same : knowers.map Prod.fst = orders.map Order.plan := by
    rw [List.map_map]
    rfl
  have keeping : ∀ knower ∈ knowers, knower.1.Keeps minting EndsMinting knower.2 := by
    intro knower member
    obtain ⟨order, _, rfl⟩ := List.mem_map.mp member
    exact order.keeps_plan
  obtain ⟨later, plans, kept, held⟩ := run.holds_each same keeping (fun _ _ _ _ _ => trivial)
    (IsShared { state := start, plans := orders.map Order.plan } (orders.map Order.kind)) (isShared_start sound orders)
    fun _ _ _ _ _ _ _ _ _ keeping held served => held.step keeping served
  rw [← plans] at given alsoGiven
  have kindFirst : (orders.map Order.kind)[i]? = some first.kind := by
    rw [List.getElem?_map, isFirst, Option.map_some]
  have kindSecond : (orders.map Order.kind)[j]? = some second.kind := by
    rw [List.getElem?_map, isSecond, Option.map_some]
  obtain ⟨one, foundOne, kindOne, namedOne⟩ := held.given kept kindFirst given
  obtain ⟨other, foundOther, kindOther, namedOther⟩ := held.given kept kindSecond alsoGiven
  have stood := held.met i j one other id apart foundOne foundOther (kindOne.trans (sameKind.trans kindOther.symm))
    namedOne namedOther
  rw [plans, kindOne] at stood
  exact stood

/-- What a call has come to, if it has come to an identifier. -/
def idGiven : Plan (Except Failure String) → Option String
  | .done result => result.toOption
  | .ask .. => none

theorem eq_done_of_idGiven {plan : Plan (Except Failure String)} {id : String} (given : idGiven plan = some id) :
    plan = .done (.ok id) := by
  cases plan with
  | done result => exact congrArg Plan.done (eq_ok_of_toOption given)
  | ask => cases given

/-- A job named by each of two mints that name all jobs alike. -/
def sampleOrders : List Order := [{ mint := sampleMint, kind := .job }, { mint := sampleMint, kind := .job }]

/-- Each takes a value of its own. Then each asks if the name is free, and only then does each stamp it. -/
def sampleClash : List (Moment Shared) × Callers :=
  Pool.play (Shared.respond (Shared.outsideOf default "")) [0, 0, 0, 0, 1, 1, 1, 1, 0, 1, 0, 1]
    { state := {}, plans := sampleOrders.map Order.plan }

theorem sampleClash_stood_together :
    StoodTogether { state := {}, plans := sampleOrders.map Order.plan } sampleClash.2 sampleClash.1 0 1 .job "J" := by
  have facts : sampleClash.2.plans.map idGiven = [some "J", some "J"] := by decide +kernel
  obtain ⟨one, more, plans, givenOne, rest⟩ := List.map_eq_cons_iff.mp facts
  obtain ⟨other, none, rfl, givenOther, _⟩ := List.map_eq_cons_iff.mp rest
  have first : sampleClash.2.plans[0]? = some (.done (.ok "J")) := by
    rw [plans, eq_done_of_idGiven givenOne]
    rfl
  have second : sampleClash.2.plans[1]? = some (.done (.ok "J")) := by
    rw [plans, eq_done_of_idGiven givenOther]
    rfl
  exact equal_ids_stood_together (Store.Tables.hasSoundCounters_of_empty rfl rfl)
    (Pool.runs_play Shared.serves_respond _ _) (by decide) rfl rfl rfl first second

/-- With a store that never fails, two mints hand out the same identifier. -/
theorem two_mints_name_alike : ∃ trace last,
    Pool.Runs Shared.Answers { state := {}, plans := sampleOrders.map Order.plan } trace last ∧
      last.plans.map idGiven = [some "J", some "J"] :=
  ⟨sampleClash.1, sampleClash.2, Pool.runs_play Shared.answers_respond _ _, by decide +kernel⟩

end Dispatch.Identifier
