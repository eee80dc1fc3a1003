import Dispatch.Proofs.Plan.Record
import Dispatch.Proofs.Plan.Settings
import Dispatch.Proofs.Server.Shared
import Dispatch.Proofs.Store.Counters
import Dispatch.Identifier.Mint
import Mathlib.Data.Finset.Card
import Mathlib.Data.Finset.Image
import Mathlib.Data.Nat.Find
/-!
One mint at work. What a call comes to, and what it leaves in the store, follows from the tables before it and from
the clock; so the identifiers that a mint hands out, one call after the other, are new each time.
-/
namespace Dispatch

open Plan

namespace Store.Tables

variable {tables : Tables} {kind : Identifier.Kind} {id : String}

/-- All identifiers of a kind, on rows of counters and on rows of their own. -/
def idsOf (tables : Tables) (kind : Identifier.Kind) : List String :=
  (tables.placeholders.filter fun row => row.kind = kind).filterMap Placeholder.id ++
    match kind with
    | .user => tables.users.map User.id
    | .job => tables.jobs.map Job.id
    | .authSystem => tables.authSystems.map AuthSystem.id
    | .machine | .fileTransfer | .work => []

theorem isTaken_iff : tables.isTaken kind id = true ↔ id ∈ tables.idsOf kind := by
  have stamped : (tables.placeholders.any fun row => row.kind == kind && row.id == some id) = true ↔
      id ∈ (tables.placeholders.filter fun row => row.kind = kind).filterMap Placeholder.id := by
    simp [and_assoc]
  unfold isTaken idsOf
  rw [Bool.or_eq_true, List.mem_append, stamped]
  cases kind <;> simp

/-- An identifier that is stamped on a row is taken. -/
theorem isTaken_of_stamped {key : Nat} (stamped : { kind, key, id := some id } ∈ tables.placeholders) :
    tables.isTaken kind id = true := by
  apply isTaken_iff.mpr
  apply List.mem_append_left
  simp only [List.mem_filterMap, List.mem_filter, decide_eq_true_eq]
  exact ⟨_, ⟨stamped, rfl⟩, rfl⟩

/-- The tables after a counter value has been used up, with an identifier stamped on its row or without. -/
def issued (tables : Tables) (kind : Identifier.Kind) (id : Option String) : Tables :=
  let key := tables.counters kind + 1
  { tables with
    counters := fun other => if other = kind then key else tables.counters other
    placeholders := tables.placeholders ++ [{ kind, key, id }]
    lastTransaction := tables.lastTransaction + 1 }

theorem isTaken_issued (tables : Tables) (kind other : Identifier.Kind) (id : String) :
    (tables.issued kind none).isTaken other id = tables.isTaken other id := by
  simp [isTaken, issued]

/-- The value that comes next is on no row yet. -/
theorem next_not_mem_slots (sound : tables.HasSoundCounters) (kind : Identifier.Kind) :
    (kind, tables.counters kind + 1) ∉ tables.slots := by
  intro member
  have bound := sound.drawn _ (List.mem_append_left _ member)
  dsimp only at bound
  omega

theorem assign_issued (sound : tables.HasSoundCounters) (kind : Identifier.Kind) (id : String) :
    (tables.issued kind none).assign kind (tables.counters kind + 1) id = (.ok (), tables.issued kind (some id)) := by
  have visible : (kind, tables.counters kind + 1) ∈ (tables.issued kind none).slots := by
    simp [issued, slots, Placeholder.slot]
  have others : tables.placeholders.map (stamp kind (tables.counters kind + 1) id) = tables.placeholders := by
    calc tables.placeholders.map (stamp kind (tables.counters kind + 1) id)
      _ = tables.placeholders.map fun row => row := by
        apply List.map_congr_left
        intro row member
        apply if_neg
        intro same
        exact next_not_mem_slots sound kind (Placeholder.slot_eq.mpr same ▸ List.mem_map_of_mem member)
      _ = tables.placeholders := List.map_id' _
  rw [assign_eq visible]
  simp [issued, others, stamp]

/-- What a transaction with a single reservation comes to. -/
theorem commit_single (sound : tables.HasSoundCounters) (kind : Identifier.Kind) :
    (tables.openTransaction.2.afterReserve (tables.lastTransaction + 1) kind).commit (tables.lastTransaction + 1) =
      (.ok (), tables.issued kind none) := by
  have found := transaction?_openTransaction sound (tables.lastTransaction + 1)
  rw [if_pos rfl] at found
  have reserved := transaction?_afterReserve tables.openTransaction.2 (tables.lastTransaction + 1) kind
    (tables.lastTransaction + 1)
  rw [if_pos rfl, found] at reserved
  have remaining : ((tables.openTransaction.2.afterReserve (tables.lastTransaction + 1) kind).endTransaction
      (tables.lastTransaction + 1)).transactions = tables.transactions := by
    have apart : ∀ transaction ∈ tables.transactions, transaction.number ≠ tables.lastTransaction + 1 := by
      intro transaction member
      have bound := sound.opened transaction member
      omega
    have unmoved : tables.transactions.map (fun transaction =>
        if transaction.number = tables.lastTransaction + 1 then
          transaction.reserving (kind, tables.counters kind + 1) else transaction) = tables.transactions := by
      apply (List.map_congr_left fun transaction member => if_neg (apart transaction member)).trans
      exact List.map_id' _
    have kept : tables.transactions.filter (fun transaction => transaction.number ≠ tables.lastTransaction + 1) =
        tables.transactions :=
      List.filter_eq_self.mpr fun transaction member => by simpa using apart transaction member
    simp only [endTransaction, afterReserve, openTransaction, List.map_append, List.filter_append, unmoved, kept]
    simp [Transaction.reserving]
  rw [commit_eq (sound.openTransaction.afterReserve found kind) reserved]
  unfold endTransaction at remaining ⊢
  dsimp only at remaining ⊢
  rw [remaining]
  rfl

theorem HasSoundCounters.issued (sound : tables.HasSoundCounters) (kind : Identifier.Kind) (id : Option String) :
    (tables.issued kind id).HasSoundCounters := by
  have found := transaction?_openTransaction sound (tables.lastTransaction + 1)
  rw [if_pos rfl] at found
  have blank := (sound.openTransaction.afterReserve found kind).answer (.commit (tables.lastTransaction + 1))
  simp only [Tables.answer, commit_single sound kind] at blank
  cases id with
  | none => exact blank
  | some id =>
    have stamped := blank.assign kind (tables.counters kind + 1) id
    rwa [assign_issued sound] at stamped

end Store.Tables

namespace Shared

/-- What one call to the store comes to. -/
theorem does_ask {shared : Shared} {call : Store.Call} {reply : Except Store.Fault call.Answer} {next : Store.Tables}
    (told : shared.tables.answer call = (reply, next)) :
    Does Shared.Answers (Service.ask (.store call)) shared (.ok reply) { shared with tables := next } := by
  intro result last
  rw [Service.finishes_ask]
  simp only [Answers, told]
  constructor
  · rintro ⟨_, ⟨rfl, rfl⟩, rfl⟩
    exact ⟨rfl, rfl⟩
  · rintro ⟨rfl, rfl⟩
    exact ⟨reply, ⟨rfl, rfl⟩, rfl⟩

theorem does_store {shared : Shared} {call : Store.Call} {answer : call.Answer} {next : Store.Tables}
    (told : shared.tables.answer call = (.ok answer, next)) :
    Does Shared.Answers (Service.store call) shared (.ok answer) { shared with tables := next } := by
  intro result last
  rw [Service.finishes_store]
  simp only [Answers, told]
  constructor
  · rintro ⟨_, ⟨rfl, rfl⟩, rfl⟩
    exact ⟨rfl, rfl⟩
  · rintro ⟨rfl, rfl⟩
    exact ⟨.ok answer, ⟨rfl, rfl⟩, rfl⟩

end Shared

namespace Identifier

variable {shared last : Shared} {kind : Kind}

/-- A counter value is taken, and its row is there. -/
theorem does_takeCounter (sound : shared.tables.HasSoundCounters) (kind : Kind) :
    Does Shared.Answers (takeCounter kind) shared (.ok (shared.tables.counters kind + 1))
      { shared with tables := shared.tables.issued kind none } := by
  have found := Store.Tables.transaction?_openTransaction sound (shared.tables.lastTransaction + 1)
  rw [if_pos rfl] at found
  have opened : shared.tables.answer .openTransaction =
      (.ok (shared.tables.lastTransaction + 1), shared.tables.openTransaction.2) := rfl
  have reserved : shared.tables.openTransaction.2.answer (.reserve (shared.tables.lastTransaction + 1) kind) =
      (.ok (shared.tables.counters kind + 1),
        shared.tables.openTransaction.2.afterReserve (shared.tables.lastTransaction + 1) kind) :=
    Store.Tables.reserve_eq found kind
  have committed : (shared.tables.openTransaction.2.afterReserve (shared.tables.lastTransaction + 1) kind).answer
      (.commit (shared.tables.lastTransaction + 1)) = (.ok (), shared.tables.issued kind none) :=
    Store.Tables.commit_single sound kind
  unfold takeCounter
  apply (Shared.does_store opened).bind
  apply (Shared.does_ask reserved).bind
  apply (Shared.does_store committed).bind
  exact does_pure _

/-- A candidate with the counter value put after it a number of times. -/
def lengthened (candidate : String) (counter count : Nat) : String :=
  candidate ++ String.join (List.replicate count (toString counter))

theorem lengthened_zero (candidate : String) (counter : Nat) : lengthened candidate counter 0 = candidate := by
  simp [lengthened]

theorem lengthened_succ (candidate : String) (counter count : Nat) :
    lengthened (candidate ++ toString counter) counter count = lengthened candidate counter (count + 1) := by
  simp [lengthened, List.replicate_succ, String.append_assoc]

/-- Each time the text gets longer. -/
theorem lengthened_injective (candidate : String) (counter : Nat) :
    Function.Injective (lengthened candidate counter) := by
  intro first second same
  have lengths := congrArg String.length same
  have positive : 0 < (toString counter).length := Nat.length_repr_pos
  simp only [lengthened, String.length_append, String.length_join, List.map_replicate,
    List.sum_replicate_nat, Nat.add_left_cancel_iff] at lengths
  exact Nat.eq_of_mul_eq_mul_right positive lengths

/-- The failure of one who has tried all candidates. -/
def exhaustion (kind : Kind) : Failure :=
  .system s!"Could not find a free {kind.name} id after {attempts} attempts"

/-- The candidate with the counter value put after it so often, and no more, is free. -/
structure IsFirstFree (tables : Store.Tables) (kind : Kind) (counter : Nat) (candidate : String) (count : Nat) :
    Prop where
  free : tables.isTaken kind (lengthened candidate counter count) = false
  least : ∀ fewer < count, tables.isTaken kind (lengthened candidate counter fewer) = true

theorem IsFirstFree.unique {tables : Store.Tables} {counter : Nat} {candidate : String} {count other : Nat}
    (first : IsFirstFree tables kind counter candidate count)
    (also : IsFirstFree tables kind counter candidate other) : count = other := by
  have notBelow {one two : Nat} (found : IsFirstFree tables kind counter candidate one)
      (found' : IsFirstFree tables kind counter candidate two) : ¬one < two := by
    intro below
    have free := found.free
    rw [found'.least one below] at free
    cases free
  have upper := notBelow first also
  have lower := notBelow also first
  omega

section Search

variable {tables : Store.Tables} {counter : Nat} {candidate : String}

theorem isFirstFree_zero : IsFirstFree tables kind counter candidate 0 ↔ tables.isTaken kind candidate = false := by
  constructor
  · intro first
    simpa only [lengthened_zero] using first.free
  · intro free
    exact ⟨by rwa [lengthened_zero], nofun⟩

theorem isFirstFree_succ (taken : tables.isTaken kind candidate = true) (count : Nat) :
    IsFirstFree tables kind counter candidate (count + 1) ↔
      IsFirstFree tables kind counter (candidate ++ toString counter) count := by
  constructor
  · intro first
    exact ⟨by rw [lengthened_succ]; exact first.free, fun fewer bound => by
      rw [lengthened_succ]
      exact first.least (fewer + 1) (Nat.succ_lt_succ bound)⟩
  · intro first
    refine ⟨by rw [← lengthened_succ]; exact first.free, fun fewer bound => ?_⟩
    cases fewer with
    | zero => rwa [lengthened_zero]
    | succ fewer =>
      rw [← lengthened_succ]
      exact first.least fewer (Nat.lt_of_succ_lt_succ bound)

theorem isFirstFree_issued (count : Nat) :
    IsFirstFree (tables.issued kind none) kind counter candidate count ↔
      IsFirstFree tables kind counter candidate count := by
  constructor
  · intro first
    exact ⟨by simpa only [Store.Tables.isTaken_issued] using first.free,
      by simpa only [Store.Tables.isTaken_issued] using first.least⟩
  · intro first
    exact ⟨by simpa only [Store.Tables.isTaken_issued] using first.free,
      by simpa only [Store.Tables.isTaken_issued] using first.least⟩

/-- All candidates are taken if the first is and all that begin with the next are. -/
theorem allTaken_succ (left : Nat) :
    (∀ count < left + 1, tables.isTaken kind (lengthened candidate counter count) = true) ↔
      tables.isTaken kind candidate = true ∧
        ∀ count < left, tables.isTaken kind (lengthened (candidate ++ toString counter) counter count) = true := by
  rw [Nat.forall_lt_succ_left, lengthened_zero]
  simp only [lengthened_succ]

/-- The search ends with the first candidate that is free, or with none. -/
theorem finishes_reserveFrom (visible : (kind, counter) ∈ shared.tables.slots) (left : Nat)
    (candidate : String) (result : Except Failure String) :
    Finishes Shared.Answers (reserveFrom kind counter left candidate) shared result last ↔
      (∃ count < left, IsFirstFree shared.tables kind counter candidate count ∧
        result = .ok (lengthened candidate counter count) ∧ last = { shared with
          tables := (shared.tables.assign kind counter (lengthened candidate counter count)).2 }) ∨
      (∀ count < left, shared.tables.isTaken kind (lengthened candidate counter count) = true) ∧
        result = .error (exhaustion kind) ∧ last = shared := by
  induction left generalizing candidate with
  | zero =>
    rw [reserveFrom, finishes_throw]
    constructor
    · rintro ⟨rfl, rfl⟩
      exact .inr ⟨nofun, rfl, rfl⟩
    · rintro (⟨count, bound, _⟩ | ⟨_, rfl, rfl⟩)
      · exact absurd bound (Nat.not_lt_zero count)
      · exact ⟨rfl, rfl⟩
  | succ left ih =>
    have told : shared.tables.answer (.isTaken kind candidate) =
        (.ok (shared.tables.isTaken kind candidate), shared.tables) := rfl
    unfold reserveFrom
    rw [(Shared.does_store told).finishes_bind, Nat.exists_lt_succ_left, isFirstFree_zero, lengthened_zero,
      allTaken_succ]
    cases taken : shared.tables.isTaken kind candidate with
    | false =>
      have assigned : shared.tables.answer (.assign kind counter candidate) =
          (.ok (), (shared.tables.assign kind counter candidate).2) := by
        simp only [Store.Tables.answer, Store.Tables.assign_eq visible]
      have never : ∀ count, ¬IsFirstFree shared.tables kind counter candidate (count + 1) := by
        intro count first
        have before := first.least 0 (Nat.succ_pos count)
        rw [lengthened_zero, taken] at before
        cases before
      rw [if_neg (by simp), (Shared.does_ask assigned).finishes_bind, finishes_pure]
      constructor
      · rintro ⟨rfl, rfl⟩
        exact .inl (.inl ⟨rfl, rfl, rfl⟩)
      · rintro ((⟨_, rfl, rfl⟩ | ⟨count, _, first, _⟩) | ⟨⟨absurd, _⟩, _⟩)
        · exact ⟨rfl, rfl⟩
        · exact (never count first).elim
        · cases absurd
    | true =>
      rw [if_pos rfl, ih]
      simp only [isFirstFree_succ taken, lengthened_succ]
      simp

end Search

namespace Mint

variable {mint : Mint} {name site : Option String} {now : Instant}

/-- The first candidate of a call. -/
def rendering (mint : Mint) (kind : Kind) (name site : Option String) (counter : Nat) (now : Instant) :
    Except Failure String :=
  render (mint.formats.format kind) { counter, kind, name := name.getD "", site := site.getD mint.site, now }

/-- The failure of a call whose first candidate is empty. -/
def emptiness (kind : Kind) : Failure := .system s!"Failed to generate ID for object type {kind.name}"

/-- A format that cannot be rendered is told apart from candidates that are all taken. -/
theorem rendering_ne_exhaustion (mint : Mint) (kind other : Kind) (name site : Option String) (counter : Nat)
    (now : Instant) : mint.rendering kind name site counter now ≠ .error (exhaustion other) := by
  intro same
  unfold rendering render at same
  split at same
  next => cases same
  next =>
    have texts := Failure.system.inj (Except.error.inj same)
    have heads := congrArg (fun text => text.toList.head?) texts
    simp [toString, String.toList_append] at heads

theorem emptiness_ne_exhaustion (kind other : Kind) : emptiness kind ≠ exhaustion other := by
  intro same
  have heads := congrArg (fun text => text.toList.head?) (Failure.system.inj same)
  simp [toString, String.toList_append] at heads

/-- What a call comes to, given the tables before it and what the clock says. -/
inductive Gives (mint : Mint) (tables : Store.Tables) (kind : Kind) (name site : Option String) (now : Instant) :
    Except Failure String → Prop
  | unrendered {failure : Failure}
      (failed : mint.rendering kind name site (tables.counters kind + 1) now = .error failure) :
      Gives mint tables kind name site now (.error failure)
  | empty (rendered : mint.rendering kind name site (tables.counters kind + 1) now = .ok "") :
      Gives mint tables kind name site now (.error (emptiness kind))
  | found {candidate : String} {count : Nat}
      (rendered : mint.rendering kind name site (tables.counters kind + 1) now = .ok candidate)
      (nonempty : candidate ≠ "") (bound : count < attempts)
      (first : IsFirstFree tables kind (tables.counters kind + 1) candidate count) :
      Gives mint tables kind name site now (.ok (lengthened candidate (tables.counters kind + 1) count))
  | exhausted {candidate : String}
      (rendered : mint.rendering kind name site (tables.counters kind + 1) now = .ok candidate)
      (nonempty : candidate ≠ "") (taken : ∀ count < attempts,
        tables.isTaken kind (lengthened candidate (tables.counters kind + 1) count) = true) :
      Gives mint tables kind name site now (.error (exhaustion kind))

section Gives

variable {tables : Store.Tables} {result : Except Failure String} {candidate : String}

theorem gives_of_failed {failure : Failure}
    (failed : mint.rendering kind name site (tables.counters kind + 1) now = .error failure) :
    mint.Gives tables kind name site now result ↔ result = .error failure := by
  constructor
  · intro gives
    cases gives with
    | unrendered other =>
      rw [failed] at other
      rw [Except.error.inj other]
    | empty rendered | found rendered | exhausted rendered =>
      rw [failed] at rendered
      cases rendered
  · rintro rfl
    exact .unrendered failed

theorem gives_of_empty (rendered : mint.rendering kind name site (tables.counters kind + 1) now = .ok "") :
    mint.Gives tables kind name site now result ↔ result = .error (emptiness kind) := by
  constructor
  · intro gives
    cases gives with
    | unrendered failed =>
      rw [rendered] at failed
      cases failed
    | empty => rfl
    | found other nonempty | exhausted other nonempty =>
      rw [rendered] at other
      exact absurd (Except.ok.inj other).symm nonempty
  · rintro rfl
    exact .empty rendered

theorem gives_of_rendered
    (rendered : mint.rendering kind name site (tables.counters kind + 1) now = .ok candidate)
    (nonempty : candidate ≠ "") :
    mint.Gives tables kind name site now result ↔
      (∃ count < attempts, IsFirstFree tables kind (tables.counters kind + 1) candidate count ∧
        result = .ok (lengthened candidate (tables.counters kind + 1) count)) ∨
      (∀ count < attempts,
          tables.isTaken kind (lengthened candidate (tables.counters kind + 1) count) = true) ∧
        result = .error (exhaustion kind) := by
  constructor
  · intro gives
    cases gives with
    | unrendered failed =>
      rw [rendered] at failed
      cases failed
    | empty other =>
      rw [rendered] at other
      exact absurd (Except.ok.inj other) nonempty
    | found other _ bound first =>
      rw [rendered] at other
      cases other
      exact .inl ⟨_, bound, first, rfl⟩
    | exhausted other _ taken =>
      rw [rendered] at other
      cases other
      exact .inr ⟨taken, rfl⟩
  · rintro (⟨count, bound, first, rfl⟩ | ⟨taken, rfl⟩)
    · exact .found rendered nonempty bound first
    · exact .exhausted rendered nonempty taken

/-- An identifier is the first candidate that is free. -/
theorem Gives.eq_ok_iff (gives : mint.Gives tables kind name site now result) (id : String) :
    result = .ok id ↔ ∃ candidate count,
      mint.rendering kind name site (tables.counters kind + 1) now = .ok candidate ∧ candidate ≠ "" ∧
      count < attempts ∧ IsFirstFree tables kind (tables.counters kind + 1) candidate count ∧
      id = lengthened candidate (tables.counters kind + 1) count := by
  constructor
  · rintro rfl
    cases gives with
    | found rendered nonempty bound first => exact ⟨_, _, rendered, nonempty, bound, first, rfl⟩
  · rintro ⟨candidate, count, rendered, nonempty, bound, first, rfl⟩
    rcases (gives_of_rendered rendered nonempty).mp gives with ⟨other, _, also, same⟩ | ⟨taken, _⟩
    · rw [same, first.unique also]
    · have free := first.free
      rw [taken count bound] at free
      cases free

/-- A call gives up exactly when all candidates are taken. -/
theorem Gives.eq_exhaustion_iff (gives : mint.Gives tables kind name site now result) :
    result = .error (exhaustion kind) ↔ ∃ candidate,
      mint.rendering kind name site (tables.counters kind + 1) now = .ok candidate ∧ candidate ≠ "" ∧
      ∀ count < attempts, tables.isTaken kind (lengthened candidate (tables.counters kind + 1) count) = true := by
  constructor
  · intro same
    cases gives with
    | unrendered failed =>
      rw [same] at failed
      exact absurd failed (mint.rendering_ne_exhaustion _ _ _ _ _ _)
    | empty => exact absurd (Except.error.inj same) (emptiness_ne_exhaustion _ _)
    | found => cases same
    | exhausted rendered nonempty taken => exact ⟨_, rendered, nonempty, taken⟩
  · rintro ⟨candidate, rendered, nonempty, taken⟩
    rcases (gives_of_rendered rendered nonempty).mp gives with ⟨count, bound, first, _⟩ | ⟨_, same⟩
    · have free := first.free
      rw [taken count bound] at free
      cases free
    · exact same

/-- An identifier that is given is not in use. -/
theorem Gives.not_mem {id : String} (gives : mint.Gives tables kind name site now (.ok id)) :
    id ∉ tables.idsOf kind := by
  intro member
  cases gives with
  | found _ _ _ first =>
    have free := first.free
    rw [Store.Tables.isTaken_iff.mpr member] at free
    cases free

end Gives

/-- Every call comes to something. -/
theorem exists_gives (mint : Mint) (tables : Store.Tables) (kind : Kind) (name site : Option String) (now : Instant) :
    ∃ result, mint.Gives tables kind name site now result := by
  cases rendered : mint.rendering kind name site (tables.counters kind + 1) now with
  | error failure => exact ⟨_, .unrendered rendered⟩
  | ok candidate =>
    by_cases empty : candidate = ""
    · subst empty
      exact ⟨_, .empty rendered⟩
    · by_cases taken : ∀ count < attempts,
          tables.isTaken kind (lengthened candidate (tables.counters kind + 1) count) = true
      · exact ⟨_, .exhausted rendered empty taken⟩
      · have some : ∃ count, count < attempts ∧
            tables.isTaken kind (lengthened candidate (tables.counters kind + 1) count) = false := by
          simpa using taken
        have least (fewer : Nat) (below : fewer < Nat.find some) :
            tables.isTaken kind (lengthened candidate (tables.counters kind + 1) fewer) = true := by
          have early := Nat.find_min some below
          have bound := (Nat.find_spec some).1
          simpa [Nat.lt_trans below bound] using early
        exact ⟨_, .found rendered empty (Nat.find_spec some).1 ⟨(Nat.find_spec some).2, least⟩⟩

theorem finishes_nextAlone (sound : shared.tables.HasSoundCounters) (mint : Mint) (kind : Kind)
    (name site : Option String) (result : Except Failure String) :
    Finishes Shared.Answers (mint.nextAlone kind name site) shared result last ↔
      ∃ now, mint.Gives shared.tables kind name site now result ∧
        last = { shared with tables := shared.tables.issued kind result.toOption } := by
  have visible : (kind, shared.tables.counters kind + 1) ∈ (shared.tables.issued kind none).slots := by
    simp [Store.Tables.issued, Store.Tables.slots, Store.Placeholder.slot]
  unfold nextAlone
  rw [(does_takeCounter sound kind).finishes_bind, Service.finishes_ask_bind]
  apply exists_congr
  intro now
  have read (middle : Shared) : Shared.Answers { shared with tables := shared.tables.issued kind none } .now now middle ↔
      middle = { shared with tables := shared.tables.issued kind none } := Iff.rfl
  simp only [read, exists_eq_left]
  cases rendered : mint.rendering kind name site (shared.tables.counters kind + 1) now with
  | error failure =>
    rw [gives_of_failed rendered]
    unfold rendering at rendered
    rw [rendered, ((Service.reads_ofExcept (.error failure)).bind_error _) result last]
    apply and_congr_right
    rintro rfl
    rfl
  | ok candidate =>
    have given : Does Shared.Answers (Service.ofExcept (.ok candidate))
        { shared with tables := shared.tables.issued kind none } (.ok candidate)
        { shared with tables := shared.tables.issued kind none } := Service.reads_ofExcept (.ok candidate)
    by_cases empty : candidate = ""
    · subst empty
      rw [gives_of_empty rendered]
      unfold rendering at rendered
      rw [rendered, given.finishes_bind, if_pos (by decide), ((reads_throw _).bind_error _) result last]
      apply and_congr_right
      rintro rfl
      rfl
    · rw [gives_of_rendered rendered empty]
      unfold rendering at rendered
      rw [rendered, given.finishes_bind, if_neg (by simpa using empty), reserve, finishes_reserveFrom visible]
      simp only [isFirstFree_issued, Store.Tables.isTaken_issued, Store.Tables.assign_issued sound]
      constructor
      · rintro (⟨count, bound, first, rfl, rfl⟩ | ⟨taken, rfl, rfl⟩)
        · exact ⟨.inl ⟨count, bound, first, rfl⟩, rfl⟩
        · exact ⟨.inr ⟨taken, rfl⟩, rfl⟩
      · rintro ⟨⟨count, bound, first, rfl⟩ | ⟨taken, rfl⟩, rfl⟩
        · exact .inl ⟨count, bound, first, rfl, rfl⟩
        · exact .inr ⟨taken, rfl, rfl⟩

/-- One caller at a time is in the mint, and it is free again in the end. -/
theorem finishes_next (sound : shared.tables.HasSoundCounters) (free : shared.isMinting = false) (mint : Mint)
    (kind : Kind) (name site : Option String) (result : Except Failure String) :
    Finishes Shared.Answers (mint.next kind name site) shared result last ↔
      ∃ now, mint.Gives shared.tables kind name site now result ∧
        last = { shared with tables := shared.tables.issued kind result.toOption } := by
  have inside : { shared with isMinting := true }.tables.HasSoundCounters := sound
  unfold next
  rw [Service.finishes_ask_bind]
  constructor
  · rintro ⟨_, entered, ⟨_, rfl⟩, ended⟩
    obtain ⟨inner, middle, worked, later⟩ := (Service.finishes_attempt_bind _ _ _).mp ended
    obtain ⟨now, gives, rfl⟩ := (finishes_nextAlone inside mint kind name site inner).mp worked
    obtain ⟨_, outside, rfl, given⟩ := (Service.finishes_ask_bind _ _ _).mp later
    obtain ⟨rfl, rfl⟩ := (Service.reads_ofExcept inner _ _).mp given
    exact ⟨now, gives, by rw [← free]⟩
  · rintro ⟨now, gives, rfl⟩
    refine ⟨(), { shared with isMinting := true }, ⟨free, rfl⟩, ?_⟩
    apply (Service.finishes_attempt_bind _ _ _).mpr
    refine ⟨result, _, (finishes_nextAlone inside mint kind name site result).mpr ⟨now, gives, rfl⟩, ?_⟩
    apply (Service.finishes_ask_bind _ _ _).mpr
    refine ⟨(), _, rfl, (Service.reads_ofExcept result _ _).mpr ⟨rfl, ?_⟩⟩
    rw [← free]

/-- What is certain of a call that is let into the mint. -/
theorem ensures_next (sound : shared.tables.HasSoundCounters) (mint : Mint) (kind : Kind) (name site : Option String) :
    Ensures Shared.Answers
      (fun id last => (∃ now, mint.Gives shared.tables kind name site now (.ok id)) ∧
        last = { shared with tables := shared.tables.issued kind (some id) })
      (fun cause last => (∃ now, mint.Gives shared.tables kind name site now (.error cause)) ∧
        last = { shared with tables := shared.tables.issued kind none })
      (mint.next kind name site) shared := by
  intro result last ended
  have free : shared.isMinting = false := by
    unfold next at ended
    obtain ⟨_, _, entered, _⟩ := (Service.finishes_ask_bind _ _ _).mp ended
    exact entered.1
  obtain ⟨now, gives, rfl⟩ := (finishes_next sound free mint kind name site result).mp ended
  cases result with
  | ok id => exact ⟨⟨now, gives⟩, rfl⟩
  | error cause => exact ⟨⟨now, gives⟩, rfl⟩

/-- A mint that is free ends each call. -/
theorem concludes_next (sound : shared.tables.HasSoundCounters) (free : shared.isMinting = false) (mint : Mint)
    (kind : Kind) (name site : Option String) : Concludes Shared.Answers (mint.next kind name site) shared := by
  obtain ⟨result, gives⟩ := mint.exists_gives shared.tables kind name site (.ofSeconds 0)
  exact ⟨result, _, (finishes_next sound free mint kind name site result).mpr ⟨_, gives, rfl⟩⟩

end Mint

/-- A call to a mint: what was asked for and what came of it, with the tables before and after. -/
structure Issue where
  before : Store.Tables
  kind : Kind
  name : Option String
  site : Option String
  result : Except Failure String
  after : Store.Tables

/-- The counter value that a call uses up. -/
def Issue.counter (issue : Issue) : Nat := issue.before.counters issue.kind + 1

def Issue.rendering (issue : Issue) (mint : Mint) (now : Instant) : Except Failure String :=
  mint.rendering issue.kind issue.name issue.site issue.counter now

/-- What a call does when the clock says this. It gives the first candidate that is free, new among all identifiers of
its kind; it gives up exactly when all candidates are taken, and then there are at least as many identifiers of the
kind; and whatever it comes to, one counter value is used up, and no row but that of this value is stamped. -/
structure Issue.IsFair (issue : Issue) (mint : Mint) (now : Instant) : Prop where
  given : ∀ id, issue.result = .ok id ↔ ∃ candidate count, issue.rendering mint now = .ok candidate ∧
    candidate ≠ "" ∧ count < attempts ∧ IsFirstFree issue.before issue.kind issue.counter candidate count ∧
    id = lengthened candidate issue.counter count
  isNew : ∀ id, issue.result = .ok id → id ∉ issue.before.idsOf issue.kind
  exhausted : issue.result = .error (exhaustion issue.kind) ↔
    ∃ candidate, issue.rendering mint now = .ok candidate ∧ candidate ≠ "" ∧ ∀ count < attempts,
      issue.before.isTaken issue.kind (lengthened candidate issue.counter count) = true
  isCrowded : issue.result = .error (exhaustion issue.kind) →
    attempts ≤ (issue.before.idsOf issue.kind).toFinset.card
  spent : issue.after = issue.before.issued issue.kind issue.result.toOption

/-- Candidates that are all taken are identifiers of the kind, and no two are the same. -/
theorem attempts_le_card {tables : Store.Tables} {counter : Nat} {candidate : String}
    (taken : ∀ count < attempts, tables.isTaken kind (lengthened candidate counter count) = true) :
    attempts ≤ (tables.idsOf kind).toFinset.card := by
  have inside : (Finset.range attempts).image (lengthened candidate counter) ⊆ (tables.idsOf kind).toFinset := by
    intro id member
    obtain ⟨count, bound, rfl⟩ := Finset.mem_image.mp member
    exact List.mem_toFinset.mpr (Store.Tables.isTaken_iff.mp (taken count (Finset.mem_range.mp bound)))
  calc attempts
    _ = (Finset.range attempts).card := (Finset.card_range attempts).symm
    _ = ((Finset.range attempts).image (lengthened candidate counter)).card :=
      (Finset.card_image_of_injective _ (lengthened_injective candidate counter)).symm
    _ ≤ (tables.idsOf kind).toFinset.card := Finset.card_le_card inside

theorem Issue.isFair_of_gives {issue : Issue} {mint : Mint} {now : Instant}
    (gives : mint.Gives issue.before issue.kind issue.name issue.site now issue.result)
    (spent : issue.after = issue.before.issued issue.kind issue.result.toOption) : issue.IsFair mint now := by
  constructor
  case given => exact gives.eq_ok_iff
  case exhausted => exact gives.eq_exhaustion_iff
  case spent => exact spent
  case isNew =>
    intro id same
    rw [same] at gives
    exact gives.not_mem
  case isCrowded =>
    intro same
    obtain ⟨_, _, _, taken⟩ := gives.eq_exhaustion_iff.mp same
    exact attempts_le_card taken

/-- A mint at work: its calls one after the other, and between them whatever else the store is called for, except that
nobody else stamps rows. -/
inductive Mint.Works (mint : Mint) (start : Shared) : List Issue → Shared → Prop
  | start : Works mint start [] start
  | issue {issues : List Issue} {middle last : Shared} {kind : Kind} {name site : Option String}
      {result : Except Failure String} (works : Works mint start issues middle)
      (ended : Finishes Shared.Answers (mint.next kind name site) middle result last) :
      Works mint start
        (issues ++ [{ before := middle.tables, kind, name, site, result, after := last.tables }]) last
  | call {issues : List Issue} {middle : Shared} (works : Works mint start issues middle) (call : Store.Call)
      (other : ∀ kind key id, call ≠ .assign kind key id) :
      Works mint start issues { middle with tables := (middle.tables.answer call).2 }

/-- The identifiers of a kind that have been handed out. -/
def handedOut (kind : Kind) (issues : List Issue) : List String :=
  issues.filterMap fun issue => if issue.kind = kind then issue.result.toOption else none

/-- What holds while a mint is at work: the store is in order, the mint is free, and whatever has been handed out is
stamped on a row. -/
structure IsAtWork (mint : Mint) (issues : List Issue) (shared : Shared) : Prop where
  sound : shared.tables.HasSoundCounters
  free : shared.isMinting = false
  stamped : ∀ kind, ∀ id ∈ handedOut kind issues, ∃ key, { kind, key, id := some id } ∈ shared.tables.placeholders
  distinct : ∀ kind, (handedOut kind issues).Nodup
  fair : ∀ issue ∈ issues, ∃ now, issue.IsFair mint now

theorem handedOut_snoc (kind : Kind) (issues : List Issue) (issue : Issue) :
    handedOut kind (issues ++ [issue]) =
      handedOut kind issues ++ (if issue.kind = kind then issue.result.toOption else none).toList := by
  cases found : if issue.kind = kind then issue.result.toOption else none <;> simp [handedOut, found]

/-- One more call of the mint. -/
theorem IsAtWork.issue {mint : Mint} {issues : List Issue} (working : IsAtWork mint issues shared)
    {name site : Option String} {result : Except Failure String}
    (ended : Finishes Shared.Answers (mint.next kind name site) shared result last) :
    IsAtWork mint (issues ++ [{ before := shared.tables, kind, name, site, result, after := last.tables }]) last := by
  obtain ⟨now, gives, rfl⟩ := (Mint.finishes_next working.sound working.free mint kind name site result).mp ended
  let after := shared.tables.issued kind result.toOption
  let issue : Issue := { before := shared.tables, kind, name, site, result, after }
  have fair : issue.IsFair mint now := Issue.isFair_of_gives gives rfl
  have old : ∀ other, ∀ id ∈ handedOut other issues, shared.tables.isTaken other id = true := by
    intro other id member
    obtain ⟨key, stamped⟩ := working.stamped other id member
    exact Store.Tables.isTaken_of_stamped stamped
  constructor
  case sound => exact working.sound.issued kind result.toOption
  case free => exact working.free
  case stamped =>
    intro other id member
    rw [handedOut_snoc] at member
    rcases List.mem_append.mp member with earlier | now
    · obtain ⟨key, stamped⟩ := working.stamped other id earlier
      exact ⟨key, List.mem_append_left _ stamped⟩
    · split at now
      next same =>
        subst same
        refine ⟨issue.counter, List.mem_append_right _ (List.mem_singleton.mpr ?_)⟩
        rw [Option.mem_toList.mp now]
        rfl
      next => cases now
  case distinct =>
    intro other
    rw [handedOut_snoc]
    apply (working.distinct other).append
    · cases if kind = other then result.toOption else none <;> simp
    · intro id earlier now
      split at now
      next same =>
        subst same
        exact fair.isNew id (eq_ok_of_toOption (Option.mem_toList.mp now)) (Store.Tables.isTaken_iff.mp (old _ id earlier))
      next => cases now
  case fair =>
    intro other member
    rcases List.mem_append.mp member with earlier | now
    · exact working.fair other earlier
    · rw [List.mem_singleton.mp now]
      exact ⟨_, fair⟩

/-- Whatever else the store is called for, what has been stamped stays. -/
theorem IsAtWork.call {mint : Mint} {issues : List Issue} (working : IsAtWork mint issues shared) {call : Store.Call}
    (other : ∀ kind key id, call ≠ .assign kind key id) :
    IsAtWork mint issues { shared with tables := (shared.tables.answer call).2 } := by
  constructor
  case sound => exact working.sound.answer call
  case free => exact working.free
  case distinct => exact working.distinct
  case fair => exact working.fair
  case stamped =>
    intro kind id member
    obtain ⟨key, stamped⟩ := working.stamped kind id member
    exact ⟨key, Store.Tables.mem_placeholders_answer working.sound stamped fun id => other kind key id⟩

theorem isAtWork {mint : Mint} {start : Shared} {issues : List Issue} (sound : start.tables.HasSoundCounters)
    (free : start.isMinting = false) (works : mint.Works start issues last) : IsAtWork mint issues last := by
  induction works with
  | start => exact ⟨sound, free, by simp [handedOut], by simp [handedOut], by simp⟩
  | issue works ended ih => exact ih.issue ended
  | call works call other ih => exact ih.call other

/-- From a store in order, with any formats, and with anything but stamps done to the store between the calls: no
identifier of a kind is handed out twice, every call is fair, and a further call of any kind ends, whatever the clock
says. -/
theorem ids_are_new {mint : Mint} {start : Shared} {issues : List Issue} (sound : start.tables.HasSoundCounters)
    (free : start.isMinting = false) (works : mint.Works start issues last) :
    (∀ kind, (handedOut kind issues).Nodup) ∧ (∀ issue ∈ issues, ∃ now, issue.IsFair mint now) ∧
      ∀ kind name site, ∃ result next, Finishes Shared.Answers (mint.next kind name site) last result next := by
  have working := isAtWork sound free works
  refine ⟨working.distinct, working.fair, fun kind name site => ?_⟩
  obtain ⟨result, gives⟩ := mint.exists_gives last.tables kind name site (.ofSeconds 0)
  exact ⟨result, _, (Mint.finishes_next working.sound working.free mint kind name site result).mpr ⟨_, gives, rfl⟩⟩

/-- A mint whose jobs are all named alike. -/
def sampleMint : Mint := { formats := Formats.set {} .job "J" }

/-- A job that somebody has named as the mint would name the second. -/
def sampleJob : Job := { (default : Job) with id := "J2" }

/-- The state once the job is there. -/
def withSampleJob (shared : Shared) : Shared :=
  { shared with tables := (shared.tables.answer (.insertJob sampleJob)).2 }

def sampleNext (shared : Shared) : Option (Except Failure String × Shared) :=
  (sampleMint.next .job none none).run.follow (Shared.respond (Shared.outsideOf default "")) shared

theorem sampleMint_names_anew : ∃ issues last, sampleMint.Works {} issues last ∧
    handedOut .job issues = ["J", "J22"] ∧ (∀ kind, (handedOut kind issues).Nodup) ∧
    (∀ issue ∈ issues, ∃ now, issue.IsFair sampleMint now) ∧
    ∀ kind name site, ∃ result next, Finishes Shared.Answers (sampleMint.next kind name site) last result next := by
  have facts : ((sampleNext {}).bind fun (first, middle) =>
      (sampleNext (withSampleJob middle)).map fun (second, _) => (first.toOption, second.toOption)) =
      some (some "J", some "J22") := by decide +kernel
  obtain ⟨⟨first, middle⟩, begun, later⟩ := Option.bind_eq_some_iff.mp facts
  obtain ⟨⟨second, last⟩, ended, same⟩ := Option.map_eq_some_iff.mp later
  obtain ⟨firstId, secondId⟩ := Prod.mk.inj same
  have one : Finishes Shared.Answers (sampleMint.next .job none none) {} first middle :=
    ends_follow Shared.answers_respond begun
  have two : Finishes Shared.Answers (sampleMint.next .job none none) (withSampleJob middle) second last :=
    ends_follow Shared.answers_respond ended
  have works := ((Mint.Works.start.issue one).call (.insertJob sampleJob) nofun).issue two
  refine ⟨_, last, works, ?_, ids_are_new (Store.Tables.hasSoundCounters_of_empty rfl rfl) rfl works⟩
  simp [handedOut, firstId, secondId]

end Identifier

end Dispatch
