import Dispatch.Proofs.Session.History
/-!
How the end of a command is noted, row by row, with nobody else at work. The session is touched; and of the history
either the last entry of such a command that is under way is completed, or one entry is put after all the others.
-/
namespace Dispatch

open Plan

namespace History

/-- A command of a session, with that description, has begun and not ended. -/
def Entry.isUnderWay (entry : Entry) (key description : String) : Bool :=
  entry.session == key && (entry.isRunning && entry.description == description)

/-- The history before and after the end of a command has been noted. -/
inductive Closes (key description : String) (category : Category) (status : Status) (object : Option String)
    (now : Instant) : List Entry → List Entry → Prop
  | completes {front back : List Entry} {opened : Entry} (begun : opened.isUnderWay key description = true)
      (last : ∀ entry ∈ back, entry.isUnderWay key description = false) :
      Closes key description category status object now (front ++ opened :: back)
        (front ++ { opened with status, object, endedAt := some now } :: back)
  | adds {entries : List Entry} (number : Nat)
      (absent : ∀ entry ∈ entries, entry.isUnderWay key description = false) :
      Closes key description category status object now entries (entries ++ [
        { number, session := key, description, category, status, object, startedAt := now, endedAt := some now }])

end History

/-- A call that the tables carry out. -/
theorem Service.ensures_answered {shared : Shared} {tables : Store.Tables} (call : Store.Call) {value : call.Answer}
    (told : shared.tables.answer call = (.ok value, tables)) :
    Ensures Shared.Answers (fun answer last => answer = value ∧ last = { shared with tables }) (fun _ _ => False)
      (Service.store call) shared := by
  apply (Service.ensures_store call).mpr
  refine ⟨fun answer last answered => ?_, fun fault last answered => ?_⟩
  · obtain ⟨same, rfl⟩ := (Shared.answers_iff_of_answer told).mp answered
    exact ⟨Except.ok.inj same, rfl⟩
  · cases ((Shared.answers_iff_of_answer told).mp answered).1

namespace Session

variable {tables : Store.Tables} {shared : Shared} {session : Session} {key description : String}
  {opened : History.Entry}

theorem lastRunning?_entriesOf (tables : Store.Tables) (key description : String) :
    lastRunning? (tables.entriesOf key) description =
      tables.entries.reverse.find? fun entry => entry.isUnderWay key description := by
  unfold lastRunning? Store.Tables.entriesOf
  rw [← List.filter_reverse, List.find?_filter]
  simp only [Bool.decide_and, Bool.decide_eq_true, History.Entry.isUnderWay]

theorem absent_of_lastRunning? (found : lastRunning? (tables.entriesOf key) description = none) :
    ∀ entry ∈ tables.entries, entry.isUnderWay key description = false := by
  rw [lastRunning?_entriesOf, List.find?_eq_none] at found
  intro entry member
  exact Bool.eq_false_iff.mpr (found entry (List.mem_reverse.mpr member))

/-- What is found is under way, and nothing after it is. -/
theorem eq_append_of_lastRunning? (found : lastRunning? (tables.entriesOf key) description = some opened) :
    ∃ front back, tables.entries = front ++ opened :: back ∧ opened.isUnderWay key description = true ∧
      ∀ entry ∈ back, entry.isUnderWay key description = false := by
  rw [lastRunning?_entriesOf, List.find?_eq_some_iff_append] at found
  obtain ⟨begun, later, earlier, same, others⟩ := found
  refine ⟨earlier.reverse, later.reverse, ?_, begun, fun entry member => ?_⟩
  · calc tables.entries
        = (later ++ opened :: earlier).reverse := by rw [← same, List.reverse_reverse]
      _ = earlier.reverse ++ opened :: later.reverse := by simp
  · have none := others entry (List.mem_reverse.mp member)
    simpa using none

/-- Completing what is found completes that entry and no other. -/
theorem closes_updateEntry (sound : tables.HasSoundEntries)
    (found : lastRunning? (tables.entriesOf key) description = some opened) (category : History.Category)
    (status : History.Status) (object : Option String) (now : Instant) :
    ∃ entries, History.Closes key description category status object now tables.entries entries ∧
      tables.answer (.updateEntry { opened with status, object, endedAt := some now }) =
        (.ok (), { tables with entries }) := by
  let closed : History.Entry := { opened with status, object, endedAt := some now }
  obtain ⟨front, back, rows, begun, others⟩ := eq_append_of_lastRunning? found
  have distinct := sound.nodup
  rw [rows] at distinct
  have stored : (tables.entries.any fun row => row.number == closed.number) = true :=
    List.any_eq_true.mpr ⟨opened, by rw [rows]; simp, beq_self_eq_true _⟩
  refine ⟨front ++ closed :: back, ?_, ?_⟩
  · rw [rows]
    exact .completes begun others
  · have replaced : ((front ++ opened :: back).map fun row => if row.number = closed.number then closed else row) =
        front ++ closed :: back := Store.Tables.replace_append History.Entry.number distinct rfl
    change tables.updateEntry closed = _
    unfold Store.Tables.updateEntry
    rw [if_pos stored, rows, replaced]

/-- The row of an active session is touched. -/
theorem touchSession_of_active (found : tables.session? session.key = some session)
    (active : session.isActive = true) (now : Instant) :
    tables.answer (.touchSession session.key now) =
      (.ok true, tables.replaceSession { session with lastActivityAt := now }) := by
  have state : session.state = .active := by simpa [isActive] using active
  change tables.touchSession session.key now = _
  unfold Store.Tables.touchSession
  rw [found]
  exact if_pos state

/-- The end of a command of an active session is noted in that way, and nothing else changes. -/
theorem ensures_record_closes (sound : shared.tables.HasSoundEntries)
    (found : shared.tables.session? session.key = some session) (active : session.isActive = true)
    (description : String) (category : History.Category) (status : History.Status) (object : Option String) :
    Ensures Shared.Answers
      (fun _ last => ∃ now entries lastEntry,
        History.Closes session.key description category status object now shared.tables.entries entries ∧
        last = { shared with tables := {
          (shared.tables.replaceSession { session with lastActivityAt := now }) with entries, lastEntry } })
      (fun _ _ => False) (record session.key description category status object) shared := by
  unfold record
  rw [ensures_bind, Service.ensures_ask]
  rintro now state answered
  obtain rfl : state = shared := answered
  let touched := state.tables.replaceSession { session with lastActivityAt := now }
  refine (Service.ensures_answered _ (touchSession_of_active found active now)).bind ?_
  rintro _ _ ⟨rfl, rfl⟩
  refine (Service.ensures_answered (.entriesOf session.key) rfl).bind ?_
  rintro _ _ ⟨rfl, rfl⟩
  split
  next opened isLast =>
    have soundThen : touched.HasSoundEntries := ⟨sound.ordered, sound.bounded⟩
    obtain ⟨rows, closes, written⟩ := closes_updateEntry soundThen isLast category status object now
    have completes : Ensures Shared.Answers _ _ _ { state with tables := touched } :=
      Service.ensures_answered _ written
    refine completes.mono ?_ fun _ _ never => never
    rintro _ _ ⟨-, rfl⟩
    exact ⟨now, rows, _, closes, rfl⟩
  next isAbsent =>
    refine (Service.ensures_answered (.insertEntry _) rfl).bind ?_
    rintro number _ ⟨-, rfl⟩
    exact (ensures_pure ()).mpr ⟨now, _, _, .adds _ (absent_of_lastRunning? isAbsent), rfl⟩

end Session

end Dispatch
