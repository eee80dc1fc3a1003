import Dispatch.Proofs.Session.Recording
import Mathlib.Data.List.Induction
import Mathlib.Logic.Function.Basic
/-!
Whether what becomes of an operation gets into its own entry of the history. Operations of one session under one
description are told apart by nothing but the order of their entries: an end takes the last entry that is still running.
So all goes well exactly as long as operations that overlap end in the reverse order of their starts.
-/
namespace Dispatch

open Plan

namespace Session

variable {σ : Type}

/-- What has been written into the history at that place, in order. -/
def entriesBy (turns : List (Turn σ)) (place : Nat) : List History.Entry := entriesWritten (turnsOf place turns)

/-- The turns before the last one at which that place was told the entries of the session. -/
def beforeLook (place : Nat) (key : String) (turns : List (Turn σ)) : List (Turn σ) :=
  (turns.reverse.dropWhile fun turn => !(turn.place = place && (turn.moment.listed? key).isSome)).tail.reverse

/-- Whether someone who has written these entries has come after the operation with that entry, has the same
description in the same session, and is still under way. -/
def isOvertakenBy (opened : History.Entry) (entries : List History.Entry) : Bool :=
  entries.getLast?.any fun entry => entry.isRunning && entry.session = opened.session &&
    entry.description = opened.description && opened.number < entry.number

/-- Whether a turn ends an operation that was overtaken when it looked for its entry. -/
def isOutOfTurn (turn : Turn σ) (turns : List (Turn σ)) : Bool :=
  match entriesBy turns turn.place, turn.moment.written? with
  | [opened], some _ =>
    let front := beforeLook turn.place opened.session turns
    front.any fun other => isOvertakenBy opened (entriesBy front other.place)
  | _, _ => false

/-- No operation ends out of turn. -/
def IsInTurn (turns : List (Turn σ)) : Prop :=
  ∀ index (bound : index < turns.length), isOutOfTurn turns[index] (turns.take index) = false

instance (turns : List (Turn σ)) : Decidable (IsInTurn turns) :=
  inferInstanceAs (Decidable (∀ index (bound : index < turns.length),
    isOutOfTurn turns[index] (turns.take index) = false))

/-- All that is written at one place is one entry. -/
def HasOwnEntries (turns : List (Turn σ)) : Prop :=
  ∀ place, ∀ first ∈ entriesBy turns place, ∀ second ∈ entriesBy turns place, first.number = second.number

section Turns

variable {turns front : List (Turn σ)} {turn : Turn σ} {place : Nat} {opened entry : History.Entry}
  {entries rows : List History.Entry}

theorem entriesBy_snoc (turns : List (Turn σ)) (turn : Turn σ) : entriesBy (turns ++ [turn]) =
    Function.update (entriesBy turns) turn.place (entriesBy turns turn.place ++ turn.moment.written?.toList) := by
  funext place
  unfold entriesBy
  rw [turnsOf_snoc]
  by_cases own : turn.place = place
  · subst own
    rw [if_pos rfl, entriesWritten_snoc, Function.update_self]
  · rw [if_neg own, List.append_nil, Function.update_of_ne (Ne.symm own)]

theorem entriesBy_append (front back : List (Turn σ)) (place : Nat) :
    entriesBy (front ++ back) place = entriesBy front place ++ entriesBy back place := by
  unfold entriesBy turnsOf
  rw [List.filterMap_append, entriesWritten_append]

theorem HasOwnEntries.before {back : List (Turn σ)} (own : HasOwnEntries (front ++ back)) : HasOwnEntries front :=
  fun place first member second present => own place
    first (entriesBy_append front back place ▸ List.mem_append_left _ member)
    second (entriesBy_append front back place ▸ List.mem_append_left _ present)

theorem entriesWritten_logOf (place : Nat) (turns : List (Turn σ)) :
    entriesWritten (logOf place turns) = entriesBy turns place := by
  rw [entriesWritten, logOf, List.filterMap_map]
  exact congrArg (List.filterMap · _) (funext Moment.written?_bare)

theorem exists_of_mem_entriesBy (member : entry ∈ entriesBy turns place) : ∃ turn ∈ turns, turn.place = place := by
  obtain ⟨moment, present, -⟩ := List.mem_filterMap.mp member
  obtain ⟨turn, inside, own⟩ := List.mem_filterMap.mp present
  exact ⟨turn, inside, (Option.ite_none_right_eq_some.mp own).1⟩

/-- Where a place has written two entries, the second was written at one of the turns. -/
theorem exists_end (written : entriesBy turns place = [opened, entry]) : ∃ front turn back,
    turns = front ++ turn :: back ∧ turn.place = place ∧ entriesBy front place = [opened] ∧
      turn.moment.written? = some entry := by
  induction turns using List.reverseRecOn with
  | nil => cases written
  | append_singleton turns turn ih =>
    by_cases ends : turn.place = place ∧ turn.moment.written?.isSome = true
    · obtain ⟨rfl, writes⟩ := ends
      obtain ⟨last, writes⟩ := Option.isSome_iff_exists.mp writes
      rw [entriesBy_snoc, Function.update_self, writes] at written
      have both : entriesBy turns turn.place ++ [last] = [opened] ++ [entry] := written
      obtain ⟨begun, rfl⟩ := List.append_singleton_inj.mp both
      exact ⟨turns, turn, [], rfl, rfl, begun, writes⟩
    · have still : entriesBy (turns ++ [turn]) place = entriesBy turns place := by
        rw [entriesBy_snoc]
        by_cases here : place = turn.place
        · subst here
          have silent : turn.moment.written? = none := by simpa using ends
          rw [Function.update_self, silent, Option.toList_none, List.append_nil]
        · rw [Function.update_of_ne here]
      obtain ⟨front, other, back, rfl, here, begun, writes⟩ := ih (still ▸ written)
      exact ⟨front, other, back ++ [turn], by simp, here, begun, writes⟩

theorem isOvertakenBy_iff : isOvertakenBy opened entries = true ↔
    ∃ entry, entries.getLast? = some entry ∧ entry.isRunning = true ∧ entry.session = opened.session ∧
      entry.description = opened.description ∧ opened.number < entry.number := by
  simp [isOvertakenBy, Option.any_eq_true, and_assoc]

theorem isOutOfTurn_iff (begun : entriesBy turns turn.place = [opened]) (written : turn.moment.written? = some entry) :
    isOutOfTurn turn turns = true ↔
      ∃ place, isOvertakenBy opened (entriesBy (beforeLook turn.place opened.session turns) place) = true := by
  unfold isOutOfTurn
  rw [begun, written, List.any_eq_true]
  constructor
  · rintro ⟨other, -, overtaken⟩
    exact ⟨other.place, overtaken⟩
  · rintro ⟨place, overtaken⟩
    obtain ⟨last, ends, -⟩ := isOvertakenBy_iff.mp overtaken
    obtain ⟨other, present, rfl⟩ := exists_of_mem_entriesBy (List.mem_of_getLast? ends)
    exact ⟨other, present, overtaken⟩

theorem written_of_isOutOfTurn (late : isOutOfTurn turn turns = true) :
    ∃ opened closed, entriesBy turns turn.place = [opened] ∧ turn.moment.written? = some closed := by
  unfold isOutOfTurn at late
  split at late
  next opened closed begun written => exact ⟨opened, closed, begun, written⟩
  next => cases late

theorem isInTurn_snoc : IsInTurn (turns ++ [turn]) ↔ IsInTurn turns ∧ isOutOfTurn turn turns = false :=
  forall_take_snoc fun turn turns => isOutOfTurn turn turns = false

theorem hasOwnEntries_snoc : HasOwnEntries (turns ++ [turn]) ↔ HasOwnEntries turns ∧
    ∀ entry, turn.moment.written? = some entry → ∀ first ∈ entriesBy turns turn.place, first.number = entry.number := by
  unfold HasOwnEntries
  rw [entriesBy_snoc]
  constructor
  · refine fun own => ⟨fun place first member second present => ?_, fun entry written first member => ?_⟩
    · have kept : entriesBy turns place ⊆ Function.update (entriesBy turns) turn.place
          (entriesBy turns turn.place ++ turn.moment.written?.toList) place := by
        by_cases here : place = turn.place
        · subst here
          rw [Function.update_self]
          exact List.subset_append_left _ _
        · rw [Function.update_of_ne here]
          exact List.Subset.refl _
      exact own place first (kept member) second (kept present)
    · have both := own turn.place first
      rw [Function.update_self, written] at both
      exact both (List.mem_append_left _ member) entry (by simp)
  · rintro ⟨own, same⟩ place first member second present
    by_cases here : place = turn.place
    · subst here
      rw [Function.update_self, List.mem_append, Option.mem_toList] at member present
      rcases member with old | new
      · rcases present with oldToo | newToo
        · exact own _ first old second oldToo
        · exact same second newToo first old
      · rcases present with oldToo | newToo
        · exact (same first new second oldToo).symm
        · rw [Option.some.inj (new.symm.trans newToo)]
    · rw [Function.update_of_ne here] at member present
      exact own place first member second present

/-- The turns before the last look, where it is known. -/
theorem beforeLook_eq {look : Turn σ} {after : List (Turn σ)} {key : String} (here : look.place = place)
    (told : look.moment.listed? key = some rows)
    (silent : ∀ turn ∈ after, turn.place = place → turn.moment.listed? key = none) :
    beforeLook place key (front ++ look :: after) = front := by
  have passed : ∀ turn ∈ after.reverse, (!(turn.place = place && (turn.moment.listed? key).isSome)) = true := by
    intro turn member
    by_cases own : turn.place = place
    · simp [silent turn (List.mem_reverse.mp member) own]
    · simp [own]
  unfold beforeLook
  rw [List.reverse_append, List.reverse_cons, List.append_assoc, List.dropWhile_append_of_pos passed]
  simp [here, told]

/-- A look at its turn. -/
theorem HasLooked.atTurn (looked : HasLooked (logOf place turns) opened rows) :
    ∃ front look after, turns = front ++ look :: after ∧ look.place = place ∧
      look.moment.listed? opened.session = some rows ∧ entriesBy front place = [opened] ∧
      beforeLook place opened.session turns = front := by
  obtain ⟨before, bare, late, split, begun, told, silent⟩ := looked
  obtain ⟨front, look, after, rfl, here, rfl, rfl, rfl⟩ := exists_of_logOf_split split
  rw [Moment.listed?_bare] at told
  refine ⟨front, look, after, rfl, here, told, (entriesWritten_logOf place front).symm.trans begun, ?_⟩
  refine beforeLook_eq here told fun turn member own => ?_
  have inside : turn.moment.bare ∈ logOf place after :=
    List.mem_map.mpr ⟨turn.moment, List.mem_filterMap.mpr ⟨turn, member, if_pos own⟩, rfl⟩
  exact (Moment.listed?_bare _ _).symm.trans (silent _ inside).2

end Turns

/-- The last running entry with a description is the one with the highest number. -/
theorem exists_lastRunning {rows : List History.Entry} {entry : History.Entry}
    (ordered : rows.Pairwise fun earlier later => earlier.number < later.number) (member : entry ∈ rows)
    (running : entry.isRunning = true) :
    ∃ found, lastRunning? rows entry.description = some found ∧ found ∈ rows ∧ found.isRunning = true ∧
      found.description = entry.description ∧ entry.number ≤ found.number := by
  have present : (lastRunning? rows entry.description).isSome = true :=
    List.find?_isSome.mpr ⟨entry, List.mem_reverse.mpr member, by simp [running]⟩
  obtain ⟨found, same⟩ := Option.isSome_iff_exists.mp present
  obtain ⟨wanted, later, earlier, split, unwanted⟩ := List.find?_eq_some_iff_append.mp same
  rw [Bool.and_eq_true, beq_iff_eq] at wanted
  have foundMember : found ∈ rows := List.mem_reverse.mp (split ▸ List.mem_append_right _ List.mem_cons_self)
  refine ⟨found, same, foundMember, wanted.1, wanted.2, ?_⟩
  have inside : entry ∈ later ++ found :: earlier := split ▸ List.mem_reverse.mpr member
  rw [List.mem_append, List.mem_cons] at inside
  rcases inside with passed | rfl | before
  · have skipped := unwanted entry passed
    simp [running] at skipped
  · exact Nat.le_refl _
  · have descending : (later ++ found :: earlier).Pairwise fun one other => other.number < one.number :=
      split ▸ List.pairwise_reverse.mpr ordered
    exact Nat.le_of_lt ((List.pairwise_cons.mp (List.pairwise_append.mp descending).2.1).1 entry before)

/-- The book of what has been written at each place, next to the history as it is stored: everyone has one entry, no two
have the same, and the last that was written of it is stored. -/
structure IsBooked (start : Store.Tables) (book : Nat → List History.Entry) (tables : Store.Tables) : Prop where
  sound : tables.HasSoundEntries
  counted : start.lastEntry ≤ tables.lastEntry
  own : ∀ place, ∀ first ∈ book place, ∀ second ∈ book place, first.number = second.number
  apart : ∀ place other, place ≠ other → ∀ entry ∈ book place, ∀ another ∈ book other, entry.number ≠ another.number
  fresh : ∀ place, ∀ entry ∈ book place, start.lastEntry < entry.number
  running : ∀ place entry, book place = [entry] → entry.isRunning = true
  stands : ∀ place entry, (book place).getLast? = some entry → entry ∈ tables.entries
  known : ∀ entry ∈ tables.entries, entry.number ≤ start.lastEntry ∨ ∃ place, (book place).getLast? = some entry

namespace IsBooked

variable {start tables next : Store.Tables} {book : Nat → List History.Entry} {place : Nat}
  {entry old written : History.Entry}

theorem nothing (sound : start.HasSoundEntries) : IsBooked start (fun _ => []) start where
  sound := sound
  counted := Nat.le_refl _
  own := by simp
  apart := by simp
  fresh := by simp
  running := by simp
  stands := by simp
  known := fun entry member => .inl (sound.bounded entry member)

theorem of_same (booked : IsBooked start book tables) (same : next.entries = tables.entries)
    (counted : next.lastEntry = tables.lastEntry) : IsBooked start book next :=
  { booked with
    sound := booked.sound.notes (Store.Tables.Notes.nothing same counted : tables.Notes next .now none)
    counted := counted ▸ booked.counted
    stands := same ▸ booked.stands
    known := same ▸ booked.known }

/-- One more entry is written at a place, in the place of those of its number: of a new number, or the own one. -/
theorem writes (booked : IsBooked start book tables) (sound : next.HasSoundEntries)
    (counted : tables.lastEntry ≤ next.lastEntry) (same : ∀ first ∈ book place, first.number = written.number)
    (apart : ∀ other, other ≠ place → ∀ entry ∈ book other, entry.number ≠ written.number)
    (fresh : start.lastEntry < written.number) (runs : book place = [] → written.isRunning = true)
    (rows : ∀ row, row ∈ next.entries ↔ row = written ∨ row ∈ tables.entries ∧ row.number ≠ written.number) :
    IsBooked start (Function.update book place (book place ++ [written])) next := by
  have cases {other : Nat} {entry : History.Entry}
      (member : entry ∈ Function.update book place (book place ++ [written]) other) :
      other = place ∧ entry.number = written.number ∨ other ≠ place ∧ entry ∈ book other := by
    by_cases here : other = place
    · subst here
      rw [Function.update_self, List.mem_append, List.mem_singleton] at member
      exact .inl ⟨rfl, member.elim (same entry) (congrArg History.Entry.number)⟩
    · rw [Function.update_of_ne here] at member
      exact .inr ⟨here, member⟩
  constructor
  case sound => exact sound
  case counted => exact Nat.le_trans booked.counted counted
  case own =>
    intro other first member second present
    rcases cases member with ⟨rfl, one⟩ | ⟨elsewhere, one⟩
    · rcases cases present with ⟨-, two⟩ | ⟨elsewhere, -⟩
      · exact one.trans two.symm
      · exact absurd rfl elsewhere
    · rcases cases present with ⟨here, -⟩ | ⟨-, two⟩
      · exact absurd here elsewhere
      · exact booked.own other first one second two
  case apart =>
    intro one other different entry member another present
    rcases cases member with ⟨rfl, number⟩ | ⟨elsewhere, first⟩
    · rcases cases present with ⟨here, -⟩ | ⟨away, second⟩
      · exact absurd here.symm different
      · rw [number]
        exact (apart other away another second).symm
    · rcases cases present with ⟨rfl, number⟩ | ⟨away, second⟩
      · rw [number]
        exact apart one elsewhere entry first
      · exact booked.apart one other different entry first another second
  case fresh =>
    intro other entry member
    rcases cases member with ⟨-, number⟩ | ⟨-, first⟩
    · exact number ▸ fresh
    · exact booked.fresh other entry first
  case running =>
    intro other entry alone
    by_cases here : other = place
    · subst here
      rw [Function.update_self] at alone
      obtain ⟨free, rest⟩ | ⟨-, rest⟩ := List.append_eq_singleton_iff.mp alone
      · obtain rfl := List.singleton_inj.mp rest
        exact runs free
      · cases rest
    · rw [Function.update_of_ne here] at alone
      exact booked.running other entry alone
  case stands =>
    intro other entry last
    refine (rows entry).mpr ?_
    by_cases here : other = place
    · subst here
      rw [Function.update_self, List.getLast?_concat] at last
      exact .inl (Option.some.inj last).symm
    · rw [Function.update_of_ne here] at last
      exact .inr ⟨booked.stands other entry last, apart other here entry (List.mem_of_getLast? last)⟩
  case known =>
    intro entry member
    rcases (rows entry).mp member with rfl | ⟨stored, different⟩
    · exact .inr ⟨place, by rw [Function.update_self, List.getLast?_concat]⟩
    · refine (booked.known entry stored).imp_right fun ⟨other, last⟩ => ⟨other, ?_⟩
      have away : other ≠ place := fun here =>
        different (same entry (here ▸ List.mem_of_getLast? last))
      rwa [Function.update_of_ne away]

/-- Someone who has written nothing yet starts with a new entry. -/
theorem opens (booked : IsBooked start book tables) (free : book place = [])
    (noted : tables.Notes next (.store (.insertEntry entry)) (some written)) (runs : written.isRunning = true) :
    IsBooked start (Function.update book place (book place ++ [written])) next := by
  have sound := booked.sound.notes noted
  cases noted with
  | opens _ rows counted =>
    have above (row : History.Entry) (member : row ∈ tables.entries) : row.number ≠ tables.lastEntry + 1 :=
      Nat.ne_of_lt (Nat.lt_succ_of_le (booked.sound.bounded row member))
    refine booked.writes sound (counted ▸ Nat.le_succ _) (by simp [free]) (fun other _ old member => ?_)
      (Nat.lt_succ_of_le booked.counted) (fun _ => runs) fun row => ?_
    · obtain ⟨last, ends⟩ := Option.isSome_iff_exists.mp
        (List.getLast?_isSome.mpr (List.ne_nil_of_mem member))
      rw [booked.own other old member last (List.mem_of_getLast? ends)]
      exact above last (booked.stands other last ends)
    · rw [rows, List.mem_append, List.mem_singleton, or_comm]
      exact or_congr_right (iff_self_and.mpr (above row))

/-- Someone writes the own entry once more. -/
theorem changes (booked : IsBooked start book tables) (own : old ∈ book place) (same : old.number = written.number)
    (noted : tables.Notes next (.store (.updateEntry entry)) (some written)) :
    IsBooked start (Function.update book place (book place ++ [written])) next := by
  have sound := booked.sound.notes noted
  obtain ⟨last, ends⟩ := Option.isSome_iff_exists.mp (List.getLast?_isSome.mpr (List.ne_nil_of_mem own))
  have lastSame : last.number = written.number :=
    (booked.own place last (List.mem_of_getLast? ends) old own).trans same
  cases noted with
  | changes _ rows counted =>
    refine booked.writes sound (Nat.le_of_eq counted.symm) (fun first member => ?_) (fun other away entry member => ?_)
      (same ▸ booked.fresh place old own) (fun free => absurd (free ▸ own) List.not_mem_nil) fun row => ?_
    · exact (booked.own place first member old own).trans same
    · exact same ▸ booked.apart other place away entry member old own
    · rw [rows, List.mem_map]
      constructor
      · rintro ⟨stored, member, rfl⟩
        split
        next => exact .inl rfl
        next different => exact .inr ⟨member, different⟩
      · rintro (rfl | ⟨member, different⟩)
        · exact ⟨last, booked.stands place last ends, if_pos lastSame⟩
        · exact ⟨row, member, if_neg different⟩

/-- Who looks for the own entry while it is running finds it, or that of someone who has come later. -/
theorem finds (booked : IsBooked start book tables) (begun : book place = [entry]) :
    ∃ found, lastRunning? (tables.entriesOf entry.session) entry.description = some found ∧
      (found = entry ↔ ¬∃ other, isOvertakenBy entry (book other) = true) ∧
      (found.number = entry.number → found = entry) := by
  have stored := booked.stands place entry (by rw [begun]; rfl)
  have ordered := booked.sound.ordered.filter fun row => row.session == entry.session
  have listed {row : History.Entry} : row ∈ tables.entriesOf entry.session ↔
      row ∈ tables.entries ∧ row.session = entry.session := by simp [Store.Tables.entriesOf]
  obtain ⟨found, present, member, running, described, le⟩ :=
    exists_lastRunning ordered (listed.mpr ⟨stored, rfl⟩) (booked.running place entry begun)
  have foundStored := (listed.mp member).1
  have unique (same : found.number = entry.number) : found = entry := booked.sound.eq_of_number foundStored stored same
  refine ⟨found, present, ⟨?_, fun alone => ?_⟩, unique⟩
  · rintro rfl ⟨other, overtaken⟩
    obtain ⟨later, ends, laterRuns, sameSession, sameDescription, above⟩ := isOvertakenBy_iff.mp overtaken
    obtain ⟨latest, again, -, -, -, leLatest⟩ :=
      exists_lastRunning ordered (listed.mpr ⟨booked.stands other later ends, sameSession⟩) laterRuns
    rw [sameDescription] at again
    obtain rfl := Option.some.inj (present.symm.trans again)
    exact absurd above (Nat.not_lt_of_le leLatest)
  · refine unique (Nat.le_antisymm (Nat.not_lt.mp fun above => alone ?_) le)
    rcases booked.known found foundStored with old | ⟨other, ends⟩
    · have fresh := booked.fresh place entry (by rw [begun]; exact List.mem_singleton_self _)
      exact absurd (Nat.lt_of_lt_of_le above old) (Nat.lt_asymm fresh)
    · exact ⟨other, isOvertakenBy_iff.mpr ⟨found, ends, running, (listed.mp member).2, described, above⟩⟩

end IsBooked

section Run

variable {α : Type} {start : Shared} {plans : List (Plan α)} {turns : List (Turn Shared)} {turn : Turn Shared}
  {middle next last : Pool Shared α} {opened closed : History.Entry}
  (sound : start.tables.HasSoundEntries)
  (minded : ∀ plan ∈ plans, plan.Keeps (mindful bookkeeping) (fun _ _ => True) [])
include sound minded

/-- As long as everyone has kept to the own entry, the book agrees with what is stored. -/
theorem isBooked_of_plays (played : Pool.Plays Shared.Serves { state := start, plans } turns last)
    (own : HasOwnEntries turns) :
    IsBooked start.tables (entriesBy turns) last.state.tables := by
  induction played with
  | start => exact .nothing sound
  | step run moves ih =>
    rename_i middle last turns turn
    obtain ⟨owned, same⟩ := hasOwnEntries_snoc.mp own
    have booked := ih owned
    have rule := run.minded moves fun plan member => minded plan (List.mem_of_getElem? member)
    have noted := Store.Tables.notes_of_serves moves.answered
    rw [entriesBy_snoc]
    rw [moves.before_eq] at booked
    rw [moves.after_eq]
    obtain ⟨place, before, request, reply, after⟩ := turn
    dsimp only at *
    generalize Moment.written? { before, request, reply, after : Moment Shared } = written at noted same ⊢
    cases noted with
    | nothing stays counted =>
      rw [Option.toList_none, List.append_nil, Function.update_eq_self]
      exact booked.of_same stays counted
    | opens entry rows counted =>
      have noted : before.tables.Notes after.tables _ _ := .opens entry rows counted
      rcases rule with ⟨nothing, runs⟩ | ⟨opened, told, looked, -⟩
      · rw [entriesWritten_logOf] at nothing
        exact booked.opens nothing noted runs
      · -- The number is new, so this is not the own entry.
        have begun := (entriesWritten_logOf place turns).symm.trans looked.begun
        have stored := booked.stands place opened (by rw [begun]; rfl)
        have number := same _ rfl opened (by rw [begun]; exact List.mem_singleton_self _)
        exact absurd (number ▸ booked.sound.bounded opened stored) (Nat.not_succ_le_self _)
    | changes entry rows counted =>
      obtain ⟨opened, told, found, looked, -, -⟩ := rule
      have begun := (entriesWritten_logOf place turns).symm.trans looked.begun
      have own : opened ∈ entriesBy turns place := by rw [begun]; exact List.mem_singleton_self _
      exact booked.changes own (same entry rfl opened own) (.changes entry rows counted)

section Turn

variable (run : Pool.Plays Shared.Serves { state := start, plans } turns middle)
  (moves : Pool.Takes Shared.Serves middle turn next) (own : HasOwnEntries turns)
include run moves own

/-- What an end writes is the entry that it has found, and that is its own exactly if it ends in turn. -/
theorem closing (begun : entriesBy turns turn.place = [opened]) (writes : turn.moment.written? = some closed) :
    ∃ found, closed = { found with status := closed.status, object := closed.object, endedAt := closed.endedAt } ∧
      (found = opened ↔ isOutOfTurn turn turns = false) ∧ (found.number = opened.number → found = opened) := by
  have rule := run.minded moves fun plan member => minded plan (List.mem_of_getElem? member)
  rcases bookkeeping_cases rule writes with nothing | ⟨known, rows, looked, writesFound⟩
  · rw [entriesWritten_logOf, begun] at nothing
    cases nothing
  · have same := (entriesWritten_logOf turn.place turns).symm.trans looked.begun
    obtain rfl := List.singleton_inj.mp (begun.symm.trans same)
    obtain ⟨front, look, after, rfl, here, told, begunThen, isFront⟩ := looked.atTurn
    obtain ⟨_, _, runFront, movesFront⟩ := run.split
    have booked := isBooked_of_plays sound minded runFront own.before
    rw [movesFront.before_eq] at booked
    obtain rfl := Store.Tables.listed?_of_serves movesFront.answered told
    obtain ⟨found, present, alone, unique⟩ := booked.finds begunThen
    refine ⟨found, writesFound found present, ?_, unique⟩
    rw [alone, ← Bool.not_eq_true, isOutOfTurn_iff begun writes, isFront]

/-- A turn writes the own entry exactly if it is not out of turn. -/
theorem writes_own_iff :
    (∀ entry, turn.moment.written? = some entry → ∀ first ∈ entriesBy turns turn.place, first.number = entry.number) ↔
      isOutOfTurn turn turns = false := by
  cases writes : turn.moment.written? with
  | none => simp [isOutOfTurn, writes]
  | some closed =>
    have rule := run.minded moves fun plan member => minded plan (List.mem_of_getElem? member)
    have begun : entriesBy turns turn.place = [] ∨ ∃ opened, entriesBy turns turn.place = [opened] := by
      rw [← entriesWritten_logOf]
      exact (bookkeeping_cases rule writes).imp_right fun ⟨opened, _, looked, _⟩ => ⟨opened, looked.begun⟩
    rcases begun with nothing | ⟨opened, begun⟩
    · simp [isOutOfTurn, nothing]
    · obtain ⟨found, same, inTurn, unique⟩ := closing sound minded run moves own begun writes
      rw [← inTurn, begun]
      have number : closed.number = found.number := (congrArg History.Entry.number same).trans rfl
      simp only [Option.some.injEq, List.mem_singleton, forall_eq', forall_eq, number]
      exact ⟨fun equal => unique equal.symm, fun equal => congrArg History.Entry.number equal.symm⟩

end Turn

/-- Nobody ends out of turn exactly if everyone keeps to the own entry. -/
theorem isInTurn_iff (played : Pool.Plays Shared.Serves { state := start, plans } turns last) :
    IsInTurn turns ↔ HasOwnEntries turns := by
  induction played with
  | start => exact ⟨fun _ _ _ member => (nomatch member), fun _ index bound => (nomatch bound)⟩
  | step run moves ih =>
    rw [isInTurn_snoc, hasOwnEntries_snoc, ih]
    exact and_congr_right fun own => (writes_own_iff sound minded run moves own).symm

end Run

section Undertakings

variable {start : Shared} {undertakings : List Undertaking} {others : List (Plan (Except Failure Outcome))}
  {turns : List (Turn Shared)} {last : Pool Shared (Except Failure Outcome)}

/-- Undertakings, and whoever leaves the history alone, keep books. -/
theorem keeps_bookkeeping (undertakings : List Undertaking)
    (spared : ∀ plan ∈ others, plan.Keeps (Protocol.within Request.sparesHistory) (fun _ _ => True) ()) :
    ∀ plan ∈ undertakings.map Undertaking.plan ++ others,
      plan.Keeps (mindful bookkeeping) (fun _ _ => True) [] := by
  intro plan member
  rcases List.mem_append.mp member with own | other
  · obtain ⟨undertaking, -, rfl⟩ := List.mem_map.mp own
    exact Keeps.mono undertaking.books_service fun _ _ _ => trivial
  · exact Keeps.of_footprint (spared plan other) (fun _ => True)
      (fun _ _ _ spares => ⟨bookkeeping_of_spares spares, fun _ => trivial⟩) (fun _ _ _ _ => trivial) trivial

/-- What an undertaking that is over has written. -/
theorem written_of_done {pool : Pool Shared (Except Failure Outcome)} {place : Nat} {undertaking : Undertaking}
    {outcome : Outcome} (played : Pool.Plays Shared.Serves pool turns last)
    (begins : pool.plans[place]? = some undertaking.plan) (done : last.plans[place]? = some (.done (.ok outcome))) :
    ∃ opened closed, entriesBy turns place = [opened, closed] ∧ undertaking.HasEnded outcome opened closed := by
  obtain ⟨now, stands, led⟩ := played.leads begins
  obtain rfl := Option.some.inj (stands.symm.trans done)
  obtain ⟨opened, closed, written, ended⟩ := undertaking.books_service.of_leads led
  exact ⟨opened, closed, (entriesWritten_logOf place turns).symm.trans written, ended⟩

/-- However operations interleave, under whatever descriptions, wherever the store fails and whatever goes on that
writes nothing into the history: no operation ends out of turn exactly if each writes only one entry, that of its start.
And as long as none does, what has become of an operation that is over is in the entry whose number its start has
answered, and nobody else has ever written that entry. -/
theorem outcomes_are_booked (sound : start.tables.HasSoundEntries)
    (spared : ∀ plan ∈ others, plan.Keeps (Protocol.within Request.sparesHistory) (fun _ _ => True) ())
    (played : Pool.Plays Shared.Serves { state := start, plans := undertakings.map Undertaking.plan ++ others } turns
      last) :
    (IsInTurn turns ↔ HasOwnEntries turns) ∧
    (IsInTurn turns → ∀ (place : Nat) (undertaking : Undertaking) (outcome : Outcome),
      undertakings[place]? = some undertaking → last.plans[place]? = some (.done (.ok outcome)) →
        (∃ entry, last.state.tables.entry? outcome.number = some entry ∧
          IsEntryOf undertaking.key undertaking.description undertaking.category outcome.number entry ∧
          entry.status = outcome.status ∧ entry.object = outcome.object) ∧
        ∀ other, other ≠ place → ∀ entry ∈ entriesBy turns other, entry.number ≠ outcome.number) := by
  have minded := keeps_bookkeeping undertakings spared
  have inTurnIff := isInTurn_iff sound minded played
  refine ⟨inTurnIff, fun inTurn place undertaking outcome taken done => ?_⟩
  have own := inTurnIff.mp inTurn
  have booked := isBooked_of_plays sound minded played own
  have begins : (undertakings.map Undertaking.plan ++ others)[place]? = some undertaking.plan := by
    have bound := (List.getElem?_eq_some_iff.mp taken).1
    rw [List.getElem?_append_left (by rwa [List.length_map]), List.getElem?_map, taken, Option.map_some]
  obtain ⟨opened, closed, written, ended⟩ := written_of_done played begins done
  have openedIn : opened ∈ entriesBy turns place := by simp [written]
  have closedIn : closed ∈ entriesBy turns place := by simp [written]
  have stored := booked.stands place closed (by rw [written]; rfl)
  have sameNumber : opened.number = closed.number := own place opened openedIn closed closedIn
  -- The entry that the end has found is that of the start.
  have isOwn : IsEntryOf undertaking.key undertaking.description undertaking.category outcome.number closed := by
    obtain ⟨front, turn, back, rfl, rfl, begun, writes⟩ := exists_end written
    obtain ⟨_, _, run, moves⟩ := played.split
    obtain ⟨found, same, -, unique⟩ := closing sound minded run moves own.before begun writes
    have number : closed.number = found.number := (congrArg History.Entry.number same).trans rfl
    obtain rfl := unique (number.symm.trans sameNumber.symm)
    rw [same]
    exact ⟨ended.own.number, ended.own.session, ended.own.description, ended.own.category⟩
  refine ⟨⟨closed, ?_, isOwn, ended.status, ended.object⟩, fun other away entry member => ?_⟩
  · rw [← isOwn.number]
    exact booked.sound.entry?_of_mem stored
  · rw [← isOwn.number]
    exact booked.apart other place away entry member closed closedIn

end Undertakings

section Apart

variable {start : Shared} {undertakings : List Undertaking} {others : List (Plan (Except Failure Outcome))}
  {turns : List (Turn Shared)} {last : Pool Shared (Except Failure Outcome)}
  (spared : ∀ plan ∈ others, plan.Keeps (Protocol.within Request.sparesHistory) (fun _ _ => True) ())
include spared

/-- Whoever writes into the history is an undertaking, and opens entries of its own only. -/
theorem author_of_turn {middle next : Pool Shared (Except Failure Outcome)} {turn : Turn Shared} {entry : History.Entry}
    (run : Pool.Plays Shared.Serves { state := start, plans := undertakings.map Undertaking.plan ++ others } turns
      middle) (moves : Pool.Takes Shared.Serves middle turn next) (writes : turn.moment.written? = some entry) :
    ∃ undertaking, undertakings[turn.place]? = some undertaking ∧
      turn.moment.request.opensFor undertaking.key undertaking.description = true := by
  cases taken : undertakings[turn.place]? with
  | some undertaking =>
    have bound := (List.getElem?_eq_some_iff.mp taken).1
    refine ⟨undertaking, rfl, run.allowed moves fun plan begins => ?_⟩
    rw [List.getElem?_append_left (by rwa [List.length_map]), List.getElem?_map, taken] at begins
    obtain rfl := Option.some.inj begins
    exact Keeps.mono undertaking.opens_own fun _ _ _ => trivial
  | none =>
    have beyond := List.getElem?_eq_none_iff.mp taken
    have spares : turn.moment.request.sparesHistory = true := run.allowed moves fun plan begins => by
      rw [List.getElem?_append_right (by rwa [List.length_map])] at begins
      exact spared plan (List.mem_of_getElem? begins)
    cases (Moment.written?_of_spares spares).symm.trans writes

variable (sound : start.tables.HasSoundEntries)
include sound

/-- As long as everyone has kept to the own entry, all that is written at a place is of the session and under the
description of the undertaking at that place. -/
theorem author_of_written
    (played : Pool.Plays Shared.Serves { state := start, plans := undertakings.map Undertaking.plan ++ others } turns
      last) (own : HasOwnEntries turns) {place : Nat} {entry : History.Entry} (member : entry ∈ entriesBy turns place) :
    ∃ undertaking, undertakings[place]? = some undertaking ∧ entry.session = undertaking.key ∧
      entry.description = undertaking.description := by
  induction played generalizing entry with
  | start => cases member
  | step run moves ih =>
    rename_i turns turn
    obtain ⟨owned, same⟩ := hasOwnEntries_snoc.mp own
    rw [entriesBy_snoc] at member
    by_cases here : place = turn.place
    · subst here
      rw [Function.update_self, List.mem_append, Option.mem_toList] at member
      rcases member with earlier | writes
      · exact ih owned earlier
      · have minded := keeps_bookkeeping undertakings spared
        have rule := run.minded moves fun plan member => minded plan (List.mem_of_getElem? member)
        rcases bookkeeping_cases rule writes with nothing | ⟨opened, rows, looked, -⟩
        · obtain ⟨undertaking, taken, opens⟩ := author_of_turn spared run moves writes
          exact ⟨undertaking, taken, opened_of_first rule nothing opens writes⟩
        · -- An end writes the entry of the start once more.
          have begun := (entriesWritten_logOf turn.place turns).symm.trans looked.begun
          have openedIn : opened ∈ entriesBy turns turn.place := by simp [begun]
          obtain ⟨found, written, -, unique⟩ := closing sound minded run moves owned begun writes
          have number : entry.number = found.number := (congrArg History.Entry.number written).trans rfl
          obtain rfl := unique (number.symm.trans (same entry writes opened openedIn).symm)
          obtain ⟨undertaking, taken, session, described⟩ := ih owned openedIn
          exact ⟨undertaking, taken, (congrArg History.Entry.session written).trans session,
            (congrArg History.Entry.description written).trans described⟩
    · rw [Function.update_of_ne here] at member
      exact ih owned member

variable (apart : (undertakings.map fun undertaking => (undertaking.key, undertaking.description)).Nodup)
include apart

/-- Entries of one session and one description are from one place, where undertakings differ in one of the two. -/
theorem place_of_same (run : Pool.Plays Shared.Serves
      { state := start, plans := undertakings.map Undertaking.plan ++ others } turns last) (own : HasOwnEntries turns)
    {place other : Nat} {first second : History.Entry} (member : first ∈ entriesBy turns place)
    (present : second ∈ entriesBy turns other) (session : second.session = first.session)
    (described : second.description = first.description) : place = other := by
  obtain ⟨one, taken, ownKey, ownDescription⟩ := author_of_written spared sound run own member
  obtain ⟨two, takenToo, otherKey, otherDescription⟩ := author_of_written spared sound run own present
  refine (List.getElem?_inj ?_ apart).mp ?_
  · rw [List.length_map]
    exact (List.getElem?_eq_some_iff.mp taken).1
  · rw [List.getElem?_map, List.getElem?_map, taken, takenToo, Option.map_some, Option.map_some, ← ownKey,
      ← ownDescription, ← otherKey, ← otherDescription, session, described]

/-- Operations that differ in their session or their description never end out of turn. -/
theorem isInTurn_of_apart
    (played : Pool.Plays Shared.Serves { state := start, plans := undertakings.map Undertaking.plan ++ others } turns
      last) : IsInTurn turns := by
  have minded := keeps_bookkeeping undertakings spared
  induction played with
  | start => exact fun index bound => nomatch bound
  | step run moves ih =>
    rename_i turns turn
    refine isInTurn_snoc.mpr ⟨ih, Bool.eq_false_iff.mpr fun late => ?_⟩
    have own := (isInTurn_iff sound minded run).mp ih
    obtain ⟨opened, closed, same, writes⟩ := written_of_isOutOfTurn late
    have rule := run.minded moves fun plan member => minded plan (List.mem_of_getElem? member)
    rcases bookkeeping_cases rule writes with nothing | ⟨known, rows, looked, -⟩
    · rw [entriesWritten_logOf, same] at nothing
      cases nothing
    · obtain rfl := List.singleton_inj.mp
        (same.symm.trans ((entriesWritten_logOf turn.place turns).symm.trans looked.begun))
      obtain ⟨front, look, after, rfl, here, -, begun, isFront⟩ := looked.atTurn
      obtain ⟨other, overtaken⟩ := (isOutOfTurn_iff same writes).mp late
      rw [isFront] at overtaken
      obtain ⟨entry, ends, -, session, described, above⟩ := isOvertakenBy_iff.mp overtaken
      have openedIn : opened ∈ entriesBy (front ++ look :: after) turn.place := by
        rw [same]
        exact List.mem_singleton_self _
      have entryIn : entry ∈ entriesBy (front ++ look :: after) other := by
        rw [entriesBy_append]
        exact List.mem_append_left _ (List.mem_of_getLast? ends)
      -- It would have been overtaken by itself.
      obtain rfl := place_of_same spared sound apart run own openedIn entryIn session described
      exact absurd (own _ opened openedIn entry entryIn) (Nat.ne_of_lt above)

end Apart

/-- An active session of a user. -/
def oneSession : Shared :=
  { tables := {
      users := [{ id := "alice", passwordHash := "" }]
      sessions := [{ (default : Session) with key := "key", id := "s", user := "alice" }] } }

/-- The submission of a script that comes to this. -/
def sameSubmission (status : History.Status) (object : Option String) : Undertaking where
  key := "key"
  description := "submit job.sh on cluster"
  category := .tasks
  isChecked := true
  work := .done (status, object)
  spares := trivial

/-- A submission that fails, and one that does not, of the same script to the same machine. -/
def twoSubmissions : List Undertaking := [sameSubmission .failed none, sameSubmission .success (some "J_2")]

/-- Someone who reads the history of the session. -/
def reader : Plan (Except Failure Outcome) := .ask (.store (.entriesOf "key")) fun _ => .done (.error .sessionNotFound)

/-- The submissions and the reader, before any of them has begun. -/
def submissionPool : Pool Shared (Except Failure Outcome) where
  state := oneSession
  plans := twoSubmissions.map Undertaking.plan ++ [reader]

/-- What comes of them in that order, in a store that does not fail. -/
def submissionTurns (order : List Nat) : List (Turn Shared) × Pool Shared (Except Failure Outcome) :=
  submissionPool.playTurns (Shared.respond (Shared.outsideOf default "")) order

theorem plays_submissions (order : List Nat) :
    Pool.Plays Shared.Serves submissionPool (submissionTurns order).1 (submissionTurns order).2 :=
  Pool.plays_playTurns Shared.serves_respond order submissionPool

/-- The second submission starts and ends while the first is under way. -/
def nestedTurns : List (Turn Shared) × Pool Shared (Except Failure Outcome) :=
  submissionTurns (List.replicate 4 0 ++ List.replicate 10 1 ++ [2] ++ List.replicate 6 0)

/-- The submission that was the first to start is over. -/
theorem nestedTurns_ended :
    nestedTurns.2.plans[0]? = some (.done (.ok { number := 1, status := .failed, object := none })) := by
  have finished : nestedTurns.2.plans[0]?.map Plan.ended? =
      some (some (.ok { number := 1, status := .failed, object := none })) := by decide +kernel
  obtain ⟨plan, stands, ended⟩ := Option.map_eq_some_iff.mp finished
  rw [stands, eq_done_of_ended ended]

theorem nestedTurns_are_booked : IsInTurn nestedTurns.1 ∧ HasOwnEntries nestedTurns.1 ∧
    (∃ entry, nestedTurns.2.state.tables.entry? 1 = some entry ∧
      IsEntryOf "key" "submit job.sh on cluster" .tasks 1 entry ∧ entry.status = .failed ∧ entry.object = none) ∧
    ∀ other, other ≠ 0 → ∀ entry ∈ entriesBy nestedTurns.1 other, entry.number ≠ 1 := by
  have sound : oneSession.tables.HasSoundEntries := ⟨by decide, by decide⟩
  have spared : ∀ plan ∈ [reader], plan.Keeps (Protocol.within Request.sparesHistory) (fun _ _ => True) () := by
    intro plan member
    rw [List.mem_singleton.mp member]
    exact ⟨rfl, fun _ _ => trivial⟩
  have inTurn : IsInTurn nestedTurns.1 := by decide +kernel
  have played := plays_submissions (List.replicate 4 0 ++ List.replicate 10 1 ++ [2] ++ List.replicate 6 0)
  obtain ⟨exact, booked⟩ := outcomes_are_booked sound spared played
  exact ⟨inTurn, exact.mp inTurn, booked inTurn 0 (sameSubmission .failed none) _ rfl nestedTurns_ended⟩

/-- The first submission ends while the second is under way, and the second after that. -/
def crossedTurns : List (Turn Shared) × Pool Shared (Except Failure Outcome) :=
  submissionTurns (List.replicate 4 0 ++ List.replicate 4 1 ++ List.replicate 6 0 ++ List.replicate 6 1)

/-- The first submission looks for its entry, the second ends, and then the first writes what it has found. -/
def racingTurns : List (Turn Shared) × Pool Shared (Except Failure Outcome) :=
  submissionTurns (List.replicate 4 0 ++ List.replicate 4 1 ++ List.replicate 5 0 ++ List.replicate 6 1 ++ [0])

/-- Both submissions are over, with the numbers that their starts have answered. -/
def IsOver (pool : Pool Shared (Except Failure Outcome)) : Prop :=
  (pool.plans.take 2).map Plan.ended? = [
    some (.ok { number := 1, status := .failed, object := none }),
    some (.ok { number := 2, status := .success, object := some "J_2" })]

/-- Where they overlap, each may write its outcome into the entry of the other; or one writes over the outcome of the
other, and its own entry is running for ever. -/
theorem overlapping_outcomes_go_astray :
    (Pool.Plays Shared.Serves submissionPool crossedTurns.1 crossedTurns.2 ∧ IsOver crossedTurns.2 ∧
      (crossedTurns.2.state.tables.entries.map fun entry => (entry.number, entry.status, entry.object)) = [
        (1, .success, some "J_2"), (2, .failed, none)]) ∧
    (Pool.Plays Shared.Serves submissionPool racingTurns.1 racingTurns.2 ∧ IsOver racingTurns.2 ∧
      (racingTurns.2.state.tables.entries.map fun entry => (entry.number, entry.status, entry.object)) = [
        (1, .running, none), (2, .failed, none)]) := by
  unfold IsOver
  exact ⟨⟨plays_submissions _, by decide +kernel, by decide +kernel⟩,
    plays_submissions _, by decide +kernel, by decide +kernel⟩

end Session

end Dispatch
