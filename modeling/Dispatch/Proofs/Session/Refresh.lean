import Dispatch.Proofs.Session.Activity
/-!
What becomes of a refresh. The activity of a session is taken back exactly where somebody writes what is out of date,
and whom the sweep closes nevertheless has not been refreshed in time.
-/
namespace Dispatch

open Plan

namespace Session

variable {defaults : SessionDefaults} {start : Shared} {calls : List Call} {turns front back : List (Turn Shared)}
  {turn : Turn Shared} {last : Pool Shared Unit}

/-- Whoever has expired would have expired with earlier activity. -/
theorem isExpired_of_le {session : Session} {earlier now : Instant} (regular : earlier.IsRegular)
    (regularToo : session.lastActivityAt.IsRegular) (regularNow : now.IsRegular)
    (le : earlier ≤ session.lastActivityAt) (expired : session.isExpired defaults now = true) :
    ({ session with lastActivityAt := earlier } : Session).isExpired defaults now = true := by
  have longer := Instant.secondsSince_anti regular regularToo regularNow le
  unfold isExpired at expired ⊢
  split at expired
  next follows =>
    rw [if_pos follows]
    rw [decide_eq_true_eq] at expired ⊢
    exact Int.lt_of_lt_of_le expired longer
  next => cases expired

section Turn

variable {middle next : Pool Shared Unit} {now : Instant} {session : Session}

/-- The sweep at that instant closes the session at that turn. -/
structure Sweeps (calls : List Call) (turn : Turn Shared) (now : Instant) (session : Session) : Prop where
  call : calls[turn.place]? = some (.closeExpired now)
  asked : turn.moment.request = .store (.updateSession session)
  acknowledged : overwrite? turn.moment = some (session.key, session.lastActivityAt)

theorem expired_of_sweeps
    (run : Pool.Plays Shared.ServesInAnyOrder { state := start, plans := calls.map (Call.plan defaults) } turns middle)
    (moves : Pool.Takes Shared.ServesInAnyOrder middle turn next) (sweeps : Sweeps calls turn now session) :
    session.isExpired defaults now = true := by
  have keeps : ∀ plan ∈ (calls.map (Call.plan defaults))[turn.place]?,
      plan.Keeps (mindful (sweeping defaults now)) (fun _ _ => True) [] := by
    intro plan begins
    rw [List.getElem?_map, sweeps.call] at begins
    obtain rfl := Option.some.inj begins
    exact (sweeps_closeExpired now).keeps
  have swept := run.minded moves keeps
  rw [sweeps.asked] at swept
  obtain ⟨bare, -, row, -, expired, rfl⟩ := swept
  exact expired

/-- What the sweep writes of a session, where it is not out of date, is the activity that is stored. -/
theorem stored_of_sweeps (kept : IsKept start.tables turns turn.moment.before)
    (served : IsServed defaults turns turn) (fresh : isStale turn turns = false)
    (sweeps : Sweeps calls turn now session) :
    ∃ row, turn.moment.before.tables.session? session.key = some row ∧
      row.lastActivityAt = session.lastActivityAt := by
  have goesOn := kept.goesOn served.timed served.writes fresh (served.alters session.key)
  cases served.alters session.key with
  | not same unrenewed unwritten => exact absurd sweeps.acknowledged (unwritten _)
  | opens other asked => cases asked.symm.trans sweeps.asked
  | refreshes row instant asked => cases asked.symm.trans sweeps.asked
  | writesBack row other asked same stored found unrenewed overwrites =>
    cases asked.symm.trans sweeps.asked
    exact goesOn.eq_of_unrenewed unrenewed found

/-- The activity of a session is taken back exactly by a write to it that is out of date. -/
theorem taken_back_iff (kept : IsKept start.tables turns turn.moment.before) (served : IsServed defaults turns turn)
    {key : String} {row later : Session} (stored : turn.moment.before.tables.session? key = some row)
    (found : turn.moment.after.tables.session? key = some later) :
    later.lastActivityAt < row.lastActivityAt ↔
      isStale turn turns = true ∧ ∃ written, overwrite? turn.moment = some (key, written) := by
  have outdated {written : Instant} (overwrites : overwrite? turn.moment = some (key, written))
      (same : later.lastActivityAt = written) : later.lastActivityAt < row.lastActivityAt ↔
        isStale turn turns = true ∧ ∃ written, overwrite? turn.moment = some (key, written) := by
    rw [kept.isStale_iff served.timed served.writes stored overwrites, same]
    exact ⟨fun before => ⟨before, written, overwrites⟩, And.left⟩
  cases served.alters key with
  | not same unrenewed unwritten =>
    obtain rfl := Option.some.inj (stored.symm.trans (same.symm.trans found))
    exact ⟨fun before => absurd before (lt_irrefl _), fun ⟨_, written, overwrites⟩ =>
      absurd overwrites (unwritten written)⟩
  | opens session asked fresh foundToo renews =>
    rw [fresh] at stored
    cases stored
  | refreshes row instant asked storedToo foundToo renews overwrites =>
    obtain rfl := Option.some.inj (foundToo.symm.trans found)
    exact outdated overwrites rfl
  | writesBack row session asked same storedToo foundToo unrenewed overwrites =>
    obtain rfl := Option.some.inj (foundToo.symm.trans found)
    exact outdated overwrites rfl

/-- What is out of date is written to a session that is stored. -/
theorem stored_of_isStale (served : IsServed defaults turns turn) (stale : isStale turn turns = true) :
    ∃ key written row later, overwrite? turn.moment = some (key, written) ∧
      turn.moment.before.tables.session? key = some row ∧ turn.moment.after.tables.session? key = some later := by
  obtain ⟨_, _, _, -, -, -, other, -, outdated⟩ := isStale_iff.mp stale
  cases overwrites : overwrite? turn.moment with
  | none => simp [isOutdatedBy, overwrites] at outdated
  | some pair =>
    obtain ⟨key, written⟩ := pair
    cases served.alters key with
    | not same unrenewed unwritten => exact absurd overwrites (unwritten written)
    | opens session asked =>
      rcases overwrite?_cases overwrites with touched | ⟨_, updated, -⟩
      · cases asked.symm.trans touched
      · cases asked.symm.trans updated
    | refreshes row instant asked stored found => exact ⟨key, written, row, _, rfl, stored, found⟩
    | writesBack row session asked same stored found => exact ⟨key, written, row, _, rfl, stored, found⟩

end Turn

/-- The moment takes back the activity of no session. -/
def IsForward (moment : Moment Shared) : Prop :=
  ∀ key row later, moment.before.tables.session? key = some row → moment.after.tables.session? key = some later →
    row.lastActivityAt ≤ later.lastActivityAt

theorem isForward_iff {turn : Turn Shared} (kept : IsKept start.tables turns turn.moment.before)
    (served : IsServed defaults turns turn) : IsForward turn.moment ↔ isStale turn turns = false := by
  rw [← Bool.not_eq_true]
  constructor
  · intro forward stale
    obtain ⟨key, written, row, later, overwrites, stored, found⟩ := stored_of_isStale served stale
    exact not_lt_of_ge (forward key row later stored found)
      ((taken_back_iff kept served stored found).mpr ⟨stale, written, overwrites⟩)
  · exact fun fresh key row later stored found =>
      le_of_not_gt fun before => fresh ((taken_back_iff kept served stored found).mp before).1

/-- No write is out of date exactly if no activity is ever taken back. -/
theorem isOrderly_iff (sound : start.tables.HasSoundSessions defaults)
    (played : Pool.Plays Shared.ServesInAnyOrder { state := start, plans := calls.map (Call.plan defaults) } turns last)
    (steady : IsSteady start.tables turns) : IsOrderly turns ↔ ∀ turn ∈ turns, IsForward turn.moment := by
  induction played with
  | start => exact ⟨by simp, fun _ index bound => by simp at bound⟩
  | step run moves ih =>
    have served := isServed_of_takes sound run moves
    rw [isOrderly_snoc, List.forall_mem_append, List.forall_mem_singleton, ih steady.before]
    refine and_congr_right fun forward => ?_
    have kept := moves.before_eq ▸ isKept_of_plays sound run steady.before ((ih steady.before).mpr forward)
    exact (isForward_iff kept served).symm

/-- However services interleave, in whatever order sessions are listed and wherever the store fails, as long as the
clock does not go back: the last activity of a session is never taken back exactly if no write is out of date. And as
long as none is, a session that the sweep closes has expired by all activity that was ever brought to it. -/
theorem refreshes_last (sound : start.tables.HasSoundSessions defaults)
    (played : Pool.Plays Shared.ServesInAnyOrder { state := start, plans := calls.map (Call.plan defaults) } turns last)
    (steady : IsSteady start.tables turns) :
    (IsOrderly turns ↔ ∀ turn ∈ turns, IsForward turn.moment) ∧
    ∀ front turn back, turns = front ++ turn :: back → IsOrderly (front ++ [turn]) → ∀ now session, now.IsRegular →
      Sweeps calls turn now session → ∀ renewed, IsRenewed front session.key renewed →
        ({ session with lastActivityAt := renewed } : Session).isExpired defaults now = true := by
  refine ⟨isOrderly_iff sound played steady, ?_⟩
  rintro front turn back rfl orderly now session regular sweeps renewed brought
  obtain ⟨orderly, fresh⟩ := isOrderly_snoc.mp orderly
  obtain ⟨middle, next, run, moves⟩ := played.split
  have kept := moves.before_eq ▸ isKept_of_plays sound run steady.before orderly
  have served := isServed_of_takes sound run moves
  obtain ⟨read, row, stored, le⟩ := kept.renewed session.key renewed brought
  obtain ⟨other, storedToo, same⟩ := stored_of_sweeps kept served fresh sweeps
  obtain rfl := Option.some.inj (stored.symm.trans storedToo)
  have steadyFront := steady.before
  have regularToo : row.lastActivityAt.IsRegular := by
    rcases kept.known session.key row stored with readToo | ⟨known, member, activity⟩
    · exact steadyFront.regular _ readToo
    · exact activity ▸ steadyFront.regularStart known member
  exact isExpired_of_le (steadyFront.regular renewed read) (same ▸ regularToo) regular (same ▸ le)
    (expired_of_sweeps run moves sweeps)

/-- A session with a command that is running. -/
def busySession : Session :=
  { (default : Session) with key := "key", id := "s", user := "alice", policy := .onDisconnect }

def busyStart : Shared :=
  { tables := {
      sessions := [busySession]
      entries := [{
        number := 1, session := "key", description := "work", category := .tasks, status := .running, object := none,
        startedAt := default, endedAt := none }] } }

theorem busyStart_isSound : busyStart.tables.HasSoundSessions {} := by
  refine ⟨⟨by decide, by decide⟩, fun session member => ?_⟩
  rw [List.mem_singleton.mp member]
  exact ⟨by decide, by decide, by decide⟩

/-- One caller closes the session, another one ends the command, and the sweep comes. -/
def busyCalls (now : Instant) : List Call :=
  [.close "key", .finishCommand "key" "work" .tasks .success none false, .closeExpired now]

/-- What comes of them in that order, with a clock that stands still more than an hour after the beginning. -/
def busyTurns (order : List Nat) (now : Instant) : List (Turn Shared) × Pool Shared Unit :=
  let outside : (request : Request) → request.Reply
    | .now => .ofSeconds 4000
    | request => Shared.outsideOf default "" request
  Pool.playTurns (Shared.respond outside) order { state := busyStart, plans := (busyCalls now).map (Call.plan {}) }

theorem plays_busyTurns (order : List Nat) (now : Instant) :
    Pool.Plays Shared.ServesInAnyOrder { state := busyStart, plans := (busyCalls now).map (Call.plan {}) }
      (busyTurns order now).1 (busyTurns order now).2 :=
  Pool.plays_playTurns (fun replied => Shared.servesInAnyOrder_of_serves (Shared.serves_respond replied)) _ _

/-- The session as it waits for its timeout, with that activity. -/
def waitingSince (instant : Instant) : Session :=
  { busySession with policy := .onTimeout, timeout := some 3600, lastActivityAt := instant }

/-- The session is left to its timeout, its activity is refreshed, and it is closed more than an hour after that. -/
def refreshTurns : List (Turn Shared) × Pool Shared Unit := busyTurns [0, 0, 0, 1, 1, 1, 1, 2, 2] (.ofSeconds 9000)

theorem refreshTurns_isSteady : IsSteady busyStart.tables refreshTurns.1 :=
  ⟨by decide +kernel, by decide +kernel, by decide +kernel, by decide +kernel⟩

theorem refreshTurns_last : (∀ turn ∈ refreshTurns.1, IsForward turn.moment) ∧
    ∃ front turn, refreshTurns.1 = front ++ [turn] ∧
      Sweeps (busyCalls (.ofSeconds 9000)) turn (.ofSeconds 9000)
        ((waitingSince (.ofSeconds 4000)).close (.ofSeconds 9000)) ∧
      IsRenewed front "key" (.ofSeconds 4000) ∧
      ((waitingSince (.ofSeconds 4000)).close (.ofSeconds 9000)).isExpired {} (.ofSeconds 9000) = true := by
  have last := refreshes_last busyStart_isSound (plays_busyTurns _ _) refreshTurns_isSteady
  have orderly : IsOrderly refreshTurns.1 := by decide +kernel
  let front := refreshTurns.1.take 8
  let turn := refreshTurns.1.get ⟨8, by decide +kernel⟩
  have split : refreshTurns.1 = front ++ [turn] := rfl
  have sweeps : Sweeps (busyCalls (.ofSeconds 9000)) turn (.ofSeconds 9000)
      ((waitingSince (.ofSeconds 4000)).close (.ofSeconds 9000)) := ⟨rfl, rfl, rfl⟩
  have renewed : IsRenewed front "key" (.ofSeconds 4000) :=
    ⟨front.get ⟨4, by decide +kernel⟩, List.get_mem _ _, rfl⟩
  exact ⟨last.1.mp orderly, front, turn, split, sweeps, renewed,
    last.2 front turn [] split (split ▸ orderly) _ _ (by decide) sweeps _ renewed⟩

/-- The caller who closes has read the session before its activity is refreshed, and leaves it to its timeout after
that; the sweep comes less than ten minutes after the refresh. -/
def lossTurns : List (Turn Shared) × Pool Shared Unit := busyTurns [0, 0, 1, 1, 0, 2, 2] (.ofSeconds 4500)

/-- The refresh is undone while the session is active, and the session is closed. -/
theorem lossTurns_undo_refresh :
    Pool.Plays Shared.ServesInAnyOrder
      { state := busyStart, plans := (busyCalls (.ofSeconds 4500)).map (Call.plan {}) } lossTurns.1 lossTurns.2 ∧
    IsSteady busyStart.tables lossTurns.1 ∧
    (∃ turn ∈ lossTurns.1, turn.moment.before.tables.session? "key" =
        some { busySession with lastActivityAt := .ofSeconds 4000 } ∧
      turn.moment.after.tables.session? "key" = some (waitingSince (.ofSeconds 0))) ∧
    ∃ front turn, lossTurns.1 = front ++ [turn] ∧
      Sweeps (busyCalls (.ofSeconds 4500)) turn (.ofSeconds 4500)
        ((waitingSince (.ofSeconds 0)).close (.ofSeconds 4500)) ∧
      IsRenewed front "key" (.ofSeconds 4000) ∧
      ((waitingSince (.ofSeconds 4000)).close (.ofSeconds 4500)).isExpired {} (.ofSeconds 4500) = false := by
  let front := lossTurns.1.take 6
  let turn := lossTurns.1.get ⟨6, by decide +kernel⟩
  have steady : IsSteady busyStart.tables lossTurns.1 :=
    ⟨by decide +kernel, by decide +kernel, by decide +kernel, by decide +kernel⟩
  have renewed : IsRenewed front "key" (.ofSeconds 4000) :=
    ⟨front.get ⟨3, by decide +kernel⟩, List.get_mem _ _, rfl⟩
  exact ⟨plays_busyTurns _ _, steady, ⟨lossTurns.1.get ⟨4, by decide +kernel⟩, List.get_mem _ _, rfl, rfl⟩,
    front, turn, rfl, ⟨rfl, rfl, rfl⟩, renewed, by decide +kernel⟩

end Session

end Dispatch
