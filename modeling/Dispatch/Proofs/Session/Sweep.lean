import Dispatch.Proofs.Instant.Order
import Dispatch.Proofs.Plan.Record
import Dispatch.Proofs.Server.Shared
import Dispatch.Proofs.Session.Table
import Dispatch.Session.Closing
import Mathlib.Algebra.Group.Nat.Defs
/-!
The sweep. It closes the sessions that have run out and nothing else, in whatever order they are listed; a second
sweep at the same instant finds nothing left. A sweep now makes no difference to which sessions a later one leaves
closed, as long as whoever has run out stays so: with leap seconds among the instants that may fail.
-/
namespace Dispatch

open Plan

/-- As `Answers`, with the active sessions listed in whatever order. -/
def Shared.AnswersInAnyOrder : Setting Shared
  | shared, .store .activeSessions, reply, next =>
    ∃ rows, reply = .ok rows ∧ rows.Perm shared.tables.activeSessions ∧ next = shared
  | shared, request, reply, next => shared.Answers request reply next

namespace Session

/-- The session is active, follows a timeout, and has been idle for more whole seconds than that. No timeout runs out
that does not fit a signed number of 64 bits. -/
structure HasRunOut (defaults : SessionDefaults) (now : Instant) (session : Session) : Prop where
  active : session.state = .active
  follows : defaults.effective session.policy = .onTimeout
  fits : (session.timeout.getD defaults.timeout).toNat < 2 ^ 63
  idle : (session.timeout.getD defaults.timeout).toNat < now.secondsSince session.lastActivityAt

instance (defaults : SessionDefaults) (now : Instant) (session : Session) :
    Decidable (session.HasRunOut defaults now) :=
  decidable_of_iff
    (session.state = .active ∧ defaults.effective session.policy = .onTimeout ∧
      (session.timeout.getD defaults.timeout).toNat < 2 ^ 63 ∧
      (session.timeout.getD defaults.timeout).toNat < now.secondsSince session.lastActivityAt)
    ⟨fun ⟨active, follows, fits, idle⟩ => ⟨active, follows, fits, idle⟩,
      fun ⟨active, follows, fits, idle⟩ => ⟨active, follows, fits, idle⟩⟩

/-- The session as a sweep leaves it. -/
def afterSweep (defaults : SessionDefaults) (now : Instant) (session : Session) : Session :=
  if session.HasRunOut defaults now then session.close now else session

/-- The session without the instant at which it was closed. -/
def unstamped (session : Session) : Session := { session with closedAt := none }

section Row

variable {defaults : SessionDefaults} {now later : Instant} {session : Session}

/-- Between instants on the calendar the sweep tells an active session that has run out. -/
theorem isExpired_iff (calendar : session.lastActivityAt.IsOnCalendar) (calendarNow : now.IsOnCalendar)
    (active : session.state = .active) :
    session.isExpired defaults now = true ↔ session.HasRunOut defaults now := by
  have short := Instant.secondsSince_lt calendarNow calendar
  unfold isExpired
  split
  next follows =>
    rw [decide_eq_true_eq]
    constructor
    · intro idle
      have power : Nat.pow 2 63 = 2 ^ 63 := rfl
      refine ⟨active, follows, ?_, ?_⟩
      · omega
      · omega
    · intro out
      exact Int.lt_of_le_of_lt (Int.ofNat_le.mpr (Nat.min_le_left _ _)) out.idle
  next other => exact ⟨nofun, fun out => absurd out.follows other⟩

@[simp]
theorem afterSweep_key : (session.afterSweep defaults now).key = session.key := by
  unfold afterSweep
  split
  next => rfl
  next => rfl

@[simp]
theorem afterSweep_lastActivityAt : (session.afterSweep defaults now).lastActivityAt = session.lastActivityAt := by
  unfold afterSweep
  split
  next => rfl
  next => rfl

theorem not_hasRunOut_close : ¬(session.close now).HasRunOut defaults later := fun out => nomatch out.active

/-- Nobody runs out at an instant whom the sweep at that instant has passed. -/
theorem not_hasRunOut_afterSweep : ¬(session.afterSweep defaults now).HasRunOut defaults now := by
  unfold afterSweep
  split
  next => exact not_hasRunOut_close
  next spared => exact spared

/-- An earlier sweep is noticed exactly in a session that it closes and that the later one would not have closed. -/
theorem afterSweep_twice_iff : ((session.afterSweep defaults now).afterSweep defaults later).unstamped =
      (session.afterSweep defaults later).unstamped ↔
    (session.HasRunOut defaults now → session.HasRunOut defaults later) := by
  by_cases out : session.HasRunOut defaults now
  · have once : session.afterSweep defaults now = session.close now := if_pos out
    have twice : (session.close now).afterSweep defaults later = session.close now := if_neg not_hasRunOut_close
    rw [once, twice]
    by_cases outToo : session.HasRunOut defaults later
    · exact iff_of_true (by rw [afterSweep, if_pos outToo]; rfl) fun _ => outToo
    · refine iff_of_false (fun same => ?_) fun stays => outToo (stays out)
      rw [afterSweep, if_neg outToo] at same
      exact absurd ((congrArg Session.state same).trans out.active) nofun
  · have once : session.afterSweep defaults now = session := if_neg out
    rw [once]
    exact iff_of_true rfl fun outNow => absurd outNow out

/-- Without leap seconds, who has run out stays so. -/
theorem HasRunOut.stays (out : session.HasRunOut defaults now) (regular : session.lastActivityAt.IsRegular)
    (regularNow : now.IsRegular) (regularLater : later.IsRegular) (le : now ≤ later) :
    session.HasRunOut defaults later :=
  ⟨out.active, out.follows, out.fits,
    Int.lt_of_lt_of_le out.idle (Instant.secondsSince_mono regularNow regularLater regular le)⟩

end Row

end Session

namespace Shared

/-- What a sweep leaves. -/
def swept (shared : Shared) (defaults : SessionDefaults) (now : Instant) : Shared :=
  { shared with tables := { shared.tables with
      sessions := shared.tables.sessions.map (Session.afterSweep defaults now) } }

/-- A server as it can be: no two sessions have a key in common, and all activity is on the calendar. -/
structure IsSweepable (shared : Shared) : Prop where
  distinct : (shared.tables.sessions.map Session.key).Nodup
  calendar : ∀ session ∈ shared.tables.sessions, session.lastActivityAt.IsOnCalendar

theorem IsSweepable.swept {shared : Shared} (sweepable : shared.IsSweepable) (defaults : SessionDefaults)
    (now : Instant) : (shared.swept defaults now).IsSweepable := by
  constructor
  case distinct =>
    have keys : (shared.swept defaults now).tables.sessions.map Session.key =
        shared.tables.sessions.map Session.key := by
      simp [Shared.swept, Function.comp_def]
    rw [keys]
    exact sweepable.distinct
  case calendar =>
    intro session member
    obtain ⟨row, stored, rfl⟩ := List.mem_map.mp member
    rw [Session.afterSweep_lastActivityAt]
    exact sweepable.calendar row stored

/-- The same sessions in the same states, whenever they have been closed. -/
def SameButForStamps (shared other : Shared) : Prop :=
  shared.tables.sessions.map Session.unstamped = other.tables.sessions.map Session.unstamped

theorem swept_twice_iff {shared : Shared} {defaults : SessionDefaults} {now later : Instant} :
    ((shared.swept defaults now).swept defaults later).SameButForStamps (shared.swept defaults later) ↔
      ∀ session ∈ shared.tables.sessions, session.HasRunOut defaults now → session.HasRunOut defaults later := by
  simp only [SameButForStamps, swept, List.map_map, List.map_inj_left]
  exact forall_congr' fun session => imp_congr_right fun _ => Session.afterSweep_twice_iff

end Shared

namespace Session

variable {defaults : SessionDefaults} {now later : Instant} {shared : Shared} {session : Session}
  {rows visited : List Session}

/-- What a sweep leaves that has visited some of the sessions. -/
def sweptAmong (shared : Shared) (defaults : SessionDefaults) (now : Instant) (visited : List Session) : Shared :=
  { shared with tables := { shared.tables with sessions := shared.tables.sessions.map fun session =>
      if session ∈ visited then session.afterSweep defaults now else session } }

theorem sweptAmong_congr {visits : List Session} (same : ∀ session, session ∈ visited ↔ session ∈ visits) :
    sweptAmong shared defaults now visited = sweptAmong shared defaults now visits := by
  simp only [sweptAmong, same]

theorem keys_sweptAmong (shared : Shared) (defaults : SessionDefaults) (now : Instant) (visited : List Session) :
    (sweptAmong shared defaults now visited).tables.sessions.map key = shared.tables.sessions.map key := by
  simp only [sweptAmong, List.map_map]
  refine List.map_congr_left fun session _ => ?_
  rw [Function.comp_apply]
  split
  next => exact afterSweep_key
  next => rfl

/-- Where a session has run out that has not been visited, its row is closed next. -/
theorem sweptAmong_close (sweepable : shared.IsSweepable) (stored : session ∈ shared.tables.sessions)
    (unvisited : session ∉ visited) (out : session.HasRunOut defaults now) :
    { sweptAmong shared defaults now visited with
        tables := (sweptAmong shared defaults now visited).tables.replaceSession (session.close now) } =
      sweptAmong shared defaults now (session :: visited) := by
  have closed : session.afterSweep defaults now = session.close now := if_pos out
  simp only [sweptAmong, Store.Tables.replaceSession, List.map_map]
  congr 2
  refine List.map_congr_left fun row member => ?_
  by_cases own : row = session
  · subst own
    simp [unvisited, closed, close]
  · have apart : row.key ≠ session.key := fun same =>
      own (List.inj_on_of_nodup_map sweepable.distinct member stored same)
    have apartToo : (if row ∈ visited then row.afterSweep defaults now else row).key ≠ (session.close now).key := by
      split
      next => exact afterSweep_key.trans_ne apart
      next => exact apart
    rw [Function.comp_apply, if_neg apartToo]
    simp only [List.mem_cons, own, false_or]

theorem sweptAmong_spare (spared : ¬session.HasRunOut defaults now) :
    sweptAmong shared defaults now visited = sweptAmong shared defaults now (session :: visited) := by
  have unchanged : session.afterSweep defaults now = session := if_neg spared
  simp only [sweptAmong, List.mem_cons]
  congr 2
  refine List.map_congr_left fun row _ => ?_
  by_cases own : row = session
  · simp [own, unchanged]
  · simp only [own, false_or]

/-- An active session that is stored is closed in its row. -/
theorem does_markClosed (distinct : (shared.tables.sessions.map key).Nodup)
    (stored : session ∈ shared.tables.sessions) (active : session.state = .active) :
    Does Shared.AnswersInAnyOrder (markClosed session now) shared (.ok ())
      { shared with tables := shared.tables.replaceSession (session.close now) } := by
  have found : shared.tables.session? session.key = some session :=
    Store.Tables.find?_key_of_mem key distinct stored
  exact Service.does_store (.updateSession (session.close now)) fun _ _ =>
    Shared.answers_iff_of_answer (Store.Tables.updateSession_of_active found active)

/-- One session after the other is visited; those that have run out are closed and counted. -/
theorem does_closeExpiredAmong (sweepable : shared.IsSweepable) (calendarNow : now.IsOnCalendar) (once : rows.Nodup)
    (stored : ∀ session ∈ rows, session ∈ shared.tables.sessions ∧ session.state = .active ∧ session ∉ visited) :
    Does Shared.AnswersInAnyOrder (closeExpiredAmong defaults now rows) (sweptAmong shared defaults now visited)
      (.ok (rows.countP fun session => session.HasRunOut defaults now))
      (sweptAmong shared defaults now (rows ++ visited)) := by
  induction rows generalizing visited with
  | nil => exact does_pure 0
  | cons session rest ih =>
    obtain ⟨present, active, unvisited⟩ := stored session List.mem_cons_self
    obtain ⟨here, onceToo⟩ := List.nodup_cons.mp once
    have later : Does Shared.AnswersInAnyOrder (closeExpiredAmong defaults now rest)
        (sweptAmong shared defaults now (session :: visited))
        (.ok (rest.countP fun session => session.HasRunOut defaults now))
        (sweptAmong shared defaults now (session :: rest ++ visited)) := by
      have same : sweptAmong shared defaults now (session :: rest ++ visited) =
          sweptAmong shared defaults now (rest ++ session :: visited) := sweptAmong_congr (by simp [or_left_comm])
      rw [same]
      refine ih onceToo fun other member => ?_
      obtain ⟨presentToo, activeToo, unvisitedToo⟩ := stored other (List.mem_cons_of_mem session member)
      refine ⟨presentToo, activeToo, List.not_mem_cons_of_ne_of_not_mem ?_ unvisitedToo⟩
      exact fun same => here (same ▸ member)
    have expires : session.isExpired defaults now = true ↔ session.HasRunOut defaults now :=
      isExpired_iff (sweepable.calendar session present) calendarNow active
    unfold closeExpiredAmong
    by_cases out : session.HasRunOut defaults now
    · rw [if_pos (expires.mpr out), List.countP_cons_of_pos (by simpa using out)]
      have distinct := sweepable.distinct
      rw [← keys_sweptAmong shared defaults now visited] at distinct
      have closes : Does Shared.AnswersInAnyOrder (markClosed session now) _ _ _ :=
        does_markClosed distinct (List.mem_map.mpr ⟨session, present, if_neg unvisited⟩) active
      rw [sweptAmong_close sweepable present unvisited out] at closes
      exact closes.bind (later.bind (does_pure _))
    · rw [if_neg (mt expires.mp out), List.countP_cons_of_neg (by simpa using out), sweptAmong_spare out]
      exact later

/-- What a sweep leaves that has visited all active sessions. -/
theorem sweptAmong_active (active : ∀ session, session ∈ visited ↔ session ∈ shared.tables.activeSessions) :
    sweptAmong shared defaults now visited = shared.swept defaults now := by
  have rows : (shared.tables.sessions.map fun session =>
      if session ∈ visited then session.afterSweep defaults now else session) =
        shared.tables.sessions.map (afterSweep defaults now) := by
    refine List.map_congr_left fun session member => ?_
    split
    next => rfl
    next unvisited =>
      refine (if_neg fun out => unvisited ((active session).mpr ?_)).symm
      exact List.mem_filter.mpr ⟨member, by simp [isActive, out.active]⟩
  rw [sweptAmong, rows, Shared.swept]

/-- A sweep closes those who have run out and counts them, whatever the order in which it sees them. -/
theorem does_closeExpired (sweepable : shared.IsSweepable) (calendarNow : now.IsOnCalendar) :
    Does Shared.AnswersInAnyOrder (closeExpired defaults now) shared
      (.ok (shared.tables.sessions.countP fun session => session.HasRunOut defaults now))
      (shared.swept defaults now) := by
  have visits {rows : List Session} (listed : rows.Perm shared.tables.activeSessions) :
      Does Shared.AnswersInAnyOrder (closeExpiredAmong defaults now rows) shared
        (.ok (shared.tables.sessions.countP fun session => session.HasRunOut defaults now))
        (shared.swept defaults now) := by
    have once : rows.Nodup := listed.nodup_iff.mpr ((sweepable.distinct.of_map _).filter _)
    have stored : ∀ session ∈ rows,
        session ∈ shared.tables.sessions ∧ session.state = .active ∧ session ∉ ([] : List Session) := by
      intro session member
      obtain ⟨present, active⟩ := List.mem_filter.mp (listed.mem_iff.mp member)
      exact ⟨present, by simpa [isActive] using active, List.not_mem_nil⟩
    have counted : rows.countP (fun session => session.HasRunOut defaults now) =
        shared.tables.sessions.countP fun session => session.HasRunOut defaults now := by
      rw [listed.countP_eq, Store.Tables.activeSessions, List.countP_filter]
      refine List.countP_congr fun session _ => ?_
      simp only [isActive, Bool.and_eq_true, decide_eq_true_eq]
      exact ⟨And.left, fun out => ⟨out, out.active⟩⟩
    have visited : Does Shared.AnswersInAnyOrder (closeExpiredAmong defaults now rows) _ _ _ :=
      does_closeExpiredAmong sweepable calendarNow once stored
    have nothing : sweptAmong shared defaults now [] = shared := by simp [sweptAmong]
    rwa [nothing, List.append_nil, sweptAmong_active fun session => listed.mem_iff, counted] at visited
  intro result last
  rw [closeExpired, finishes_bind]
  constructor
  · rintro (⟨rows, middle, told, ended⟩ | ⟨cause, failed, -⟩)
    · obtain ⟨reply, ⟨given, rfl, listed, rfl⟩, same⟩ := (Service.finishes_store _ _).mp told
      cases same
      exact (visits listed result last).mp ended
    · obtain ⟨reply, ⟨given, rfl, -⟩, same⟩ := (Service.finishes_store _ _).mp failed
      cases same
  · intro ended
    refine .inl ⟨shared.tables.activeSessions, shared, (Service.finishes_store _ _).mpr ?_, ?_⟩
    · exact ⟨.ok _, ⟨_, rfl, .refl _, rfl⟩, rfl⟩
    · exact (visits (.refl _) result last).mpr ended

/-- A sweep closes those who have run out, counts them and changes nothing else, whatever the order in which it sees
them; a second one at the same instant closes none. A sweep before a later one makes no difference to who is closed
exactly if all who have run out at the first instant have run out at the second, and so it is if the second is no
earlier and no leap second is among the instants. -/
theorem sweeps_are_exact (defaults : SessionDefaults) (now later : Instant) (shared : Shared)
    (sweepable : shared.IsSweepable) (calendarNow : now.IsOnCalendar) (calendarLater : later.IsOnCalendar) :
    Does Shared.AnswersInAnyOrder (closeExpired defaults now) shared
        (.ok (shared.tables.sessions.countP fun session => session.HasRunOut defaults now))
        (shared.swept defaults now) ∧
      Does Shared.AnswersInAnyOrder (closeExpired defaults now) (shared.swept defaults now) (.ok 0)
        (shared.swept defaults now) ∧
      (∃ count, Does Shared.AnswersInAnyOrder (closeExpired defaults later) (shared.swept defaults now) (.ok count)
        ((shared.swept defaults now).swept defaults later)) ∧
      (∃ count, Does Shared.AnswersInAnyOrder (closeExpired defaults later) shared (.ok count)
        (shared.swept defaults later)) ∧
      (((shared.swept defaults now).swept defaults later).SameButForStamps (shared.swept defaults later) ↔
        ∀ session ∈ shared.tables.sessions, session.HasRunOut defaults now → session.HasRunOut defaults later) ∧
      (now ≤ later → now.IsRegular → later.IsRegular →
        (∀ session ∈ shared.tables.sessions, session.lastActivityAt.IsRegular) →
        ((shared.swept defaults now).swept defaults later).SameButForStamps (shared.swept defaults later)) := by
  have settled : ∀ session ∈ (shared.swept defaults now).tables.sessions, ¬session.HasRunOut defaults now := by
    intro session member
    obtain ⟨row, -, rfl⟩ := List.mem_map.mp member
    exact not_hasRunOut_afterSweep
  have again : Does Shared.AnswersInAnyOrder (closeExpired defaults now) _ _ _ :=
    does_closeExpired (sweepable.swept defaults now) calendarNow
  have none : ((shared.swept defaults now).tables.sessions.countP fun session => session.HasRunOut defaults now) = 0 :=
    List.countP_eq_zero.mpr fun session member => by simpa using settled session member
  have unchanged : (shared.swept defaults now).swept defaults now = shared.swept defaults now := by
    have rows : (shared.swept defaults now).tables.sessions.map (afterSweep defaults now) =
        (shared.swept defaults now).tables.sessions :=
      (List.map_congr_left fun session member => if_neg (settled session member)).trans (List.map_id _)
    rw [Shared.swept, rows]
  rw [none, unchanged] at again
  refine ⟨does_closeExpired sweepable calendarNow, again, ⟨_, does_closeExpired (sweepable.swept _ _) calendarLater⟩,
    ⟨_, does_closeExpired sweepable calendarLater⟩, Shared.swept_twice_iff, ?_⟩
  intro le regularNow regularLater regular
  exact Shared.swept_twice_iff.mpr fun session member out =>
    out.stays (regular session member) regularNow regularLater le

/-- A tenth of a second before the year 2017. -/
def shortlyBefore : Instant := { second := 1483228799, nano := 900000000 }

def newYear : Instant := .ofSeconds 1483228800

/-- One session that has been idle since noon and one that closes when its client leaves. -/
def idleStart : Shared :=
  { tables := { sessions := [
      { (default : Session) with
        key := "k1", id := "s1", policy := .onTimeout, timeout := some 60
        lastActivityAt := .ofSeconds 1483185600 },
      { (default : Session) with
        key := "k2", id := "s2", policy := .onDisconnect
        lastActivityAt := .ofSeconds 1483185600 }] } }

theorem idleStart_is_swept :
    Does Shared.AnswersInAnyOrder (closeExpired {} shortlyBefore) idleStart (.ok 1)
        (idleStart.swept {} shortlyBefore) ∧
      ((idleStart.swept {} shortlyBefore).swept {} newYear).SameButForStamps (idleStart.swept {} newYear) := by
  have sweepable : idleStart.IsSweepable := ⟨by decide, by decide +kernel⟩
  obtain ⟨once, -, -, -, -, twice⟩ :=
    sweeps_are_exact {} shortlyBefore newYear idleStart sweepable (by decide +kernel) (by decide +kernel)
  exact ⟨once, twice (by decide) (by decide) (by decide) (by decide)⟩

/-- A session that has been refreshed in a leap second. -/
def leapStart : Shared :=
  { tables := { sessions := [
      { (default : Session) with
        key := "k1", id := "s1", policy := .onTimeout, timeout := some 41099
        lastActivityAt := { second := 1483187699, nano := 1500000000 } }] } }

/-- The leap second counts up to midnight and no longer: who has run out shortly before is in time again then. So a
sweep before midnight closes the session and one at midnight, without the other, does not. -/
theorem leap_second_is_forgotten_at_midnight :
    shortlyBefore ≤ newYear ∧
      Does Shared.AnswersInAnyOrder (closeExpired {} shortlyBefore) leapStart (.ok 1)
        (leapStart.swept {} shortlyBefore) ∧
      Does Shared.AnswersInAnyOrder (closeExpired {} newYear) leapStart (.ok 0) (leapStart.swept {} newYear) ∧
      ((leapStart.swept {} shortlyBefore).swept {} newYear).tables.sessions.map state = [.closed] ∧
      (leapStart.swept {} newYear).tables.sessions.map state = [.active] := by
  have sweepable : leapStart.IsSweepable := ⟨by decide, by decide +kernel⟩
  refine ⟨by decide, ?_, ?_, by decide +kernel, by decide +kernel⟩
  · exact does_closeExpired sweepable (by decide +kernel)
  · exact does_closeExpired sweepable (by decide +kernel)

end Session

end Dispatch
