import Dispatch.Proofs.Session.Clock
/-!
The last activity of sessions under all services at once. A refresh that is acknowledged can be undone: a service that
has read a session before, or the clock, writes what is out of date by then. Nothing else undoes a refresh.
-/
namespace Dispatch

open Plan

namespace Session

variable {defaults : SessionDefaults} {σ : Type}

/-- The activity that a moment brings to a session: one is opened, or one is refreshed. -/
def renewal? : Moment σ → Option (String × Instant)
  | ⟨_, .store (.insertSession session), .ok _, _⟩ => some (session.key, session.lastActivityAt)
  | ⟨_, .store (.touchSession key instant), .ok true, _⟩ => some (key, instant)
  | _ => none

/-- The activity that a moment puts in the place of what is stored of a session. -/
def overwrite? : Moment σ → Option (String × Instant)
  | ⟨_, .store (.updateSession session), .ok _, _⟩ => some (session.key, session.lastActivityAt)
  | ⟨_, .store (.touchSession key instant), .ok true, _⟩ => some (key, instant)
  | _ => none

/-- Whether it is at this moment that a plan has learnt what it writes by the request: the time of a refresh, or a
session that it writes back. -/
def isSource (moment : Moment σ) : Request → Bool
  | .store (.updateSession session) => (sessionsTold moment).any fun row =>
    row.key = session.key && row.lastActivityAt = session.lastActivityAt
  | .store (.touchSession _ instant) => clock? moment = some instant
  | _ => false

/-- Whether a moment writes activity of a session to which another moment has brought later activity. -/
def isOutdatedBy (moment other : Moment σ) : Bool :=
  match overwrite? moment, renewal? other with
  | some (key, written), some (refreshed, renewed) => refreshed = key && written.isBefore renewed
  | _, _ => false

/-- Whether a turn writes activity of a session although later activity has been brought to it since the plan has read
what it writes. -/
def isStale (turn : Turn σ) : List (Turn σ) → Bool
  | [] => false
  | source :: late =>
    source.place = turn.place && isSource source.moment turn.moment.request &&
      late.any (fun other => isOutdatedBy turn.moment other.moment) || isStale turn late

/-- No turn writes what is out of date. -/
def IsOrderly (turns : List (Turn σ)) : Prop :=
  ∀ index (bound : index < turns.length), isStale turns[index] (turns.take index) = false

instance (turns : List (Turn σ)) : Decidable (IsOrderly turns) :=
  inferInstanceAs (Decidable (∀ index (bound : index < turns.length), isStale turns[index] (turns.take index) = false))

/-- Someone has brought this activity to the session with that key. -/
def IsRenewed (turns : List (Turn σ)) (key : String) (instant : Instant) : Prop :=
  ∃ turn ∈ turns, renewal? turn.moment = some (key, instant)

/-- All that has been read from the clock, in order. -/
def readings (turns : List (Turn σ)) : List Instant := turns.filterMap fun turn => clock? turn.moment

/-- A clock that does not go back and reads no leap seconds, from the activity on that is known at the start. -/
structure IsSteady (start : Store.Tables) (turns : List (Turn σ)) : Prop where
  ordered : (readings turns).Pairwise (· ≤ ·)
  begun : ∀ session ∈ start.sessions, ∀ instant ∈ readings turns, session.lastActivityAt ≤ instant
  regular : ∀ instant ∈ readings turns, instant.IsRegular
  regularStart : ∀ session ∈ start.sessions, session.lastActivityAt.IsRegular

variable {turns front back : List (Turn σ)} {turn : Turn σ} {key : String} {instant : Instant}

theorem isStale_iff : isStale turn turns = true ↔ ∃ early source late, turns = early ++ source :: late ∧
    source.place = turn.place ∧ isSource source.moment turn.moment.request = true ∧
      ∃ other ∈ late, isOutdatedBy turn.moment other.moment = true := by
  induction turns with
  | nil => simp [isStale]
  | cons first rest ih =>
    simp only [isStale, Bool.or_eq_true, Bool.and_eq_true, decide_eq_true_eq, List.any_eq_true, ih]
    constructor
    · rintro (⟨⟨own, source⟩, outdated⟩ | ⟨early, source, late, rfl, known⟩)
      · exact ⟨[], first, rest, rfl, own, source, outdated⟩
      · exact ⟨first :: early, source, late, rfl, known⟩
    · rintro ⟨early, source, late, same, own, tells, outdated⟩
      cases early with
      | nil =>
        cases same
        exact .inl ⟨⟨own, tells⟩, outdated⟩
      | cons _ early =>
        cases same
        exact .inr ⟨early, source, late, rfl, own, tells, outdated⟩

theorem isOutdatedBy_iff {moment other : Moment σ} {written : Instant}
    (overwrites : overwrite? moment = some (key, written)) :
    isOutdatedBy moment other = true ↔ ∃ renewed, renewal? other = some (key, renewed) ∧ written < renewed := by
  unfold isOutdatedBy
  rw [overwrites]
  cases brought : renewal? other with
  | none => simp
  | some pair =>
    obtain ⟨refreshed, renewed⟩ := pair
    simp only [Bool.and_eq_true, decide_eq_true_eq, Option.some.injEq, Prod.mk.injEq]
    constructor
    · rintro ⟨rfl, later⟩
      exact ⟨renewed, ⟨rfl, rfl⟩, later⟩
    · rintro ⟨_, ⟨rfl, rfl⟩, later⟩
      exact ⟨rfl, later⟩

theorem isOrderly_snoc : IsOrderly (turns ++ [turn]) ↔ IsOrderly turns ∧ isStale turn turns = false :=
  forall_take_snoc fun turn turns => isStale turn turns = false

theorem readings_append (turns more : List (Turn σ)) : readings (turns ++ more) = readings turns ++ readings more :=
  List.filterMap_append

theorem mem_readings : instant ∈ readings turns ↔ ∃ turn ∈ turns, clock? turn.moment = some instant :=
  List.mem_filterMap

theorem IsSteady.before {start : Store.Tables} (steady : IsSteady start (front ++ back)) : IsSteady start front := by
  have included : readings front ⊆ readings (front ++ back) := by
    rw [readings_append]
    exact List.subset_append_left _ _
  refine ⟨?_, fun session member instant read => steady.begun session member instant (included read),
    fun instant read => steady.regular instant (included read), steady.regularStart⟩
  exact (List.pairwise_append.mp (readings_append front back ▸ steady.ordered)).1

/-- What is refreshed later has not been read before. -/
theorem renewal?_of_clock {moment : Moment σ} (reads : clock? moment = some instant) : renewal? moment = none := by
  obtain ⟨_, request, reply, _⟩ := moment
  cases request with
  | now => rfl
  | _ => cases reads

theorem renewal?_of_told {moment : Moment σ} {session : Session} (tells : session ∈ sessionsTold moment) :
    renewal? moment = none := by
  obtain ⟨_, request, reply, _⟩ := moment
  cases request with
  | store call =>
    cases call with
    | findSession | activeSessions => rfl
    | _ => cases reply <;> cases tells
  | _ => cases tells

/-- What a moment does to the session with a key. -/
inductive Alters (key : String) (moment : Moment Shared) : Prop
  | not (same : moment.after.tables.session? key = moment.before.tables.session? key)
      (unrenewed : ∀ instant, renewal? moment ≠ some (key, instant))
      (unwritten : ∀ instant, overwrite? moment ≠ some (key, instant))
  | opens (session : Session) (asked : moment.request = .store (.insertSession session))
      (fresh : moment.before.tables.session? key = none) (found : moment.after.tables.session? key = some session)
      (renews : renewal? moment = some (key, session.lastActivityAt))
  | refreshes (row : Session) (instant : Instant) (asked : moment.request = .store (.touchSession key instant))
      (stored : moment.before.tables.session? key = some row)
      (found : moment.after.tables.session? key = some { row with lastActivityAt := instant })
      (renews : renewal? moment = some (key, instant)) (overwrites : overwrite? moment = some (key, instant))
  | writesBack (row session : Session) (asked : moment.request = .store (.updateSession session))
      (same : session.key = key) (stored : moment.before.tables.session? key = some row)
      (found : moment.after.tables.session? key = some session) (unrenewed : renewal? moment = none)
      (overwrites : overwrite? moment = some (key, session.lastActivityAt))

section Alters

variable {shared next : Shared}

theorem alters_of_quiet {moment : Moment Shared}
    (same : moment.after.tables.sessions = moment.before.tables.sessions) (unrenewed : renewal? moment = none)
    (unwritten : overwrite? moment = none) (key : String) : Alters key moment :=
  .not (by simp only [Store.Tables.session?, same]) (by simp [unrenewed]) (by simp [unwritten])

theorem alters_of_insert {session : Session} {reply : Except Store.Fault Unit}
    (served : shared.Serves (.store (.insertSession session)) reply next) (key : String) :
    Alters key { before := shared, request := .store (.insertSession session), reply, after := next } := by
  rcases Shared.serves_store served with ⟨rfl, rfl⟩ | ⟨⟨fault, rfl⟩, rfl⟩
  · simp only [Store.Tables.answer, Store.Tables.insertSession]
    split
    next => exact alters_of_quiet rfl rfl rfl key
    next free =>
      have unused : shared.tables.session? session.key = none := by
        rw [Bool.or_eq_true, not_or] at free
        simpa using free.1
      have appended := Store.Tables.session?_append_new shared.tables session key
      by_cases own : session.key = key
      · subst own
        rw [unused, if_pos rfl, Option.none_or] at appended
        exact .opens session rfl unused appended rfl
      · rw [if_neg own, Option.or_none] at appended
        exact .not appended (by simp [renewal?, own]) (by simp [overwrite?])
  · exact alters_of_quiet rfl rfl rfl key

theorem alters_of_touch {touched : String} {instant : Instant} {reply : Except Store.Fault Bool}
    (served : shared.Serves (.store (.touchSession touched instant)) reply next) (key : String) :
    Alters key { before := shared, request := .store (.touchSession touched instant), reply, after := next } := by
  rcases Shared.serves_store served with ⟨rfl, rfl⟩ | ⟨⟨fault, rfl⟩, rfl⟩
  · simp only [Store.Tables.answer, Store.Tables.touchSession]
    cases stored : shared.tables.session? touched with
    | none => exact alters_of_quiet rfl rfl rfl key
    | some row =>
      dsimp only
      split
      next =>
        obtain ⟨-, rfl⟩ := Store.Tables.session?_some stored
        have replaced := Store.Tables.session?_replaceSession shared.tables { row with lastActivityAt := instant } key
        by_cases own : row.key = key
        · subst own
          rw [if_pos rfl, stored, Option.map_some] at replaced
          exact .refreshes row instant rfl stored replaced rfl rfl
        · rw [if_neg own] at replaced
          exact .not replaced (by simp [renewal?, own]) (by simp [overwrite?, own])
      next => exact alters_of_quiet rfl rfl rfl key
  · exact alters_of_quiet rfl rfl rfl key

theorem alters_of_update {session : Session} {reply : Except Store.Fault Unit}
    (served : shared.Serves (.store (.updateSession session)) reply next) (key : String) :
    Alters key { before := shared, request := .store (.updateSession session), reply, after := next } := by
  rcases Shared.serves_store served with ⟨rfl, rfl⟩ | ⟨⟨fault, rfl⟩, rfl⟩
  · simp only [Store.Tables.answer, Store.Tables.updateSession]
    cases stored : shared.tables.session? session.key with
    | none => exact alters_of_quiet rfl rfl rfl key
    | some row =>
      dsimp only
      split
      next => exact alters_of_quiet rfl rfl rfl key
      next =>
        have replaced := Store.Tables.session?_replaceSession shared.tables session key
        by_cases own : session.key = key
        · subst own
          rw [if_pos rfl, stored, Option.map_some] at replaced
          exact .writesBack row session rfl rfl stored replaced rfl rfl
        · rw [if_neg own] at replaced
          exact .not replaced (by simp [renewal?]) (by simp [overwrite?, own])
  · exact alters_of_quiet rfl rfl rfl key

/-- Nothing but these three calls is about the activity of sessions. -/
theorem alters_of_serves {request : Request} {reply : request.Reply}
    (served : shared.ServesInAnyOrder request reply next) (key : String) :
    Alters key { before := shared, request, reply, after := next } := by
  have others (other : ∀ tables : Store.Tables, ∀ call, request = .store call →
      (tables.answer call).2.sessions = tables.sessions) : next.tables.sessions = shared.tables.sessions := by
    rcases served.serves_or_eq with exactly | rfl
    · cases request with
      | store call =>
        rcases Shared.serves_store exactly with ⟨_, rfl⟩ | ⟨_, rfl⟩
        · exact other shared.tables call rfl
        · rfl
      | _ => exact congrArg Store.Tables.sessions (exactly.tables_eq fun _ => nofun)
    · rfl
  cases request with
  | store call =>
    cases call with
    | insertSession session => exact alters_of_insert served key
    | touchSession touched instant => exact alters_of_touch served key
    | updateSession session => exact alters_of_update served key
    | findSession | findSessionWithId | activeSessions =>
      refine alters_of_quiet (others fun tables call same => ?_) rfl rfl key
      cases same
      rfl
    | _ =>
      refine alters_of_quiet (others fun tables call same => ?_) rfl rfl key
      cases same
      exact tables.answer_sessions rfl
  | _ => exact alters_of_quiet (others fun _ _ => nofun) rfl rfl key

end Alters

/-- What is known of the activity of sessions after turns of which none wrote what was out of date. -/
structure IsKept (start : Store.Tables) (turns : List (Turn Shared)) (shared : Shared) : Prop where
  told : ∀ early source late, turns = early ++ source :: late → ∀ session ∈ sessionsTold source.moment,
    ∃ row, shared.tables.session? session.key = some row ∧ session.lastActivityAt ≤ row.lastActivityAt ∧
      (row.lastActivityAt = session.lastActivityAt ∨ IsRenewed late session.key row.lastActivityAt)
  read : ∀ early source late, turns = early ++ source :: late → ∀ instant, clock? source.moment = some instant →
    ∀ key row, shared.tables.session? key = some row →
      row.lastActivityAt ≤ instant ∨ IsRenewed late key row.lastActivityAt
  known : ∀ key row, shared.tables.session? key = some row →
    row.lastActivityAt ∈ readings turns ∨ ∃ session ∈ start.sessions, session.lastActivityAt = row.lastActivityAt
  renewed : ∀ key instant, IsRenewed turns key instant →
    instant ∈ readings turns ∧ ∃ row, shared.tables.session? key = some row ∧ instant ≤ row.lastActivityAt

/-- How the activity of the session with a key goes on at a moment: it is not taken back, and where it is another one,
someone has brought it. -/
structure GoesOn (key : String) (moment : Moment Shared) : Prop where
  forward : ∀ row, moment.before.tables.session? key = some row →
    ∃ later, moment.after.tables.session? key = some later ∧ row.lastActivityAt ≤ later.lastActivityAt
  back : ∀ later, moment.after.tables.session? key = some later →
    renewal? moment = some (key, later.lastActivityAt) ∨
      ∃ row, moment.before.tables.session? key = some row ∧ row.lastActivityAt = later.lastActivityAt
  renewed : ∀ instant, renewal? moment = some (key, instant) →
    ∃ later, moment.after.tables.session? key = some later ∧ later.lastActivityAt = instant

section IsKept

variable {start : Store.Tables} {turns : List (Turn Shared)} {turn : Turn Shared} {shared : Shared} {key : String}

theorem IsRenewed.mono {late longer : List (Turn σ)} {instant : Instant} (renewed : IsRenewed late key instant)
    (included : late ⊆ longer) : IsRenewed longer key instant := by
  obtain ⟨turn, member, renews⟩ := renewed
  exact ⟨turn, included member, renews⟩

theorem overwrite?_cases {moment : Moment σ} {written : Instant}
    (overwrites : overwrite? moment = some (key, written)) :
    moment.request = .store (.touchSession key written) ∨
      ∃ session, moment.request = .store (.updateSession session) ∧ session.key = key ∧
        session.lastActivityAt = written := by
  obtain ⟨_, request, reply, _⟩ := moment
  cases request with
  | store call =>
    cases call with
    | touchSession touched instant =>
      rcases reply with _ | _ | _
      · cases overwrites
      · cases overwrites
      · cases overwrites
        exact .inl rfl
    | updateSession session =>
      cases reply with
      | ok _ =>
        cases overwrites
        exact .inr ⟨session, rfl, rfl, rfl⟩
      | error _ => cases overwrites
    | _ => cases overwrites
  | _ => cases overwrites

theorem renewal?_cases {moment : Moment σ} {instant : Instant} (renews : renewal? moment = some (key, instant)) :
    moment.request = .store (.touchSession key instant) ∨
      ∃ session, moment.request = .store (.insertSession session) ∧ session.lastActivityAt = instant := by
  obtain ⟨_, request, reply, _⟩ := moment
  cases request with
  | store call =>
    cases call with
    | touchSession touched instant =>
      rcases reply with _ | _ | _
      · cases renews
      · cases renews
      · cases renews
        exact .inl rfl
    | insertSession session =>
      cases reply with
      | ok _ =>
        cases renews
        exact .inr ⟨session, rfl, rfl⟩
      | error _ => cases renews
    | _ => cases renews
  | _ => cases renews

/-- What a plan writes of the activity of a session it has read before. -/
theorem has_source {turns : List (Turn σ)} {turn : Turn σ} {written : Instant}
    (timed : punctual (logOf turn.place turns) turn.moment.request)
    (writes : writingBack defaults (logOf turn.place turns) turn.moment.request)
    (overwrites : overwrite? turn.moment = some (key, written)) :
    ∃ early source late, turns = early ++ source :: late ∧ source.place = turn.place ∧
      isSource source.moment turn.moment.request = true ∧ (clock? source.moment = some written ∨
        ∃ seen ∈ sessionsTold source.moment, seen.key = key ∧ seen.lastActivityAt = written) := by
  rcases overwrite?_cases overwrites with asked | ⟨session, asked, rfl, rfl⟩
  · rw [asked] at timed ⊢
    obtain ⟨bare, member, reads⟩ := timed
    obtain ⟨early, source, late, rfl, own, rfl⟩ := mem_logOf member
    rw [clock?_bare] at reads
    exact ⟨early, source, late, rfl, own, by simp [isSource, reads], .inl reads⟩
  · rw [asked] at writes ⊢
    obtain ⟨bare, member, seen, tells, turned⟩ := writes
    obtain ⟨early, source, late, rfl, own, rfl⟩ := mem_logOf member
    have same : seen.key = session.key ∧ seen.lastActivityAt = session.lastActivityAt :=
      ⟨turned.same.key.symm, turned.activity.symm⟩
    refine ⟨early, source, late, rfl, own, ?_, .inr ⟨seen, tells, same⟩⟩
    exact List.any_eq_true.mpr ⟨seen, tells, by simp [same]⟩

theorem mem_readings_of_renewal {turns : List (Turn σ)} {turn : Turn σ} {instant : Instant}
    (timed : punctual (logOf turn.place turns) turn.moment.request)
    (renews : renewal? turn.moment = some (key, instant)) : instant ∈ readings turns := by
  have read : ∃ bare ∈ logOf turn.place turns, clock? bare = some instant := by
    rcases renewal?_cases renews with asked | ⟨session, asked, rfl⟩
    · rwa [asked] at timed
    · rwa [asked] at timed
  obtain ⟨bare, member, reads⟩ := read
  obtain ⟨early, source, late, rfl, -, rfl⟩ := mem_logOf member
  exact mem_readings.mpr ⟨source, by simp, by rwa [clock?_bare] at reads⟩

/-- A write is out of date exactly if the session has later activity by then. -/
theorem IsKept.isStale_iff (kept : IsKept start turns turn.moment.before)
    (timed : punctual (logOf turn.place turns) turn.moment.request)
    (writes : writingBack defaults (logOf turn.place turns) turn.moment.request) {row : Session} {written : Instant}
    (stored : turn.moment.before.tables.session? key = some row)
    (overwrites : overwrite? turn.moment = some (key, written)) :
    isStale turn turns = true ↔ written < row.lastActivityAt := by
  rw [Session.isStale_iff]
  constructor
  · rintro ⟨early, source, late, rfl, -, -, other, member, outdated⟩
    obtain ⟨renewed, brought, later⟩ := (isOutdatedBy_iff overwrites).mp outdated
    obtain ⟨-, found, same, le⟩ := kept.renewed key renewed ⟨other, by simp [member], brought⟩
    obtain rfl := Option.some.inj (same.symm.trans stored)
    exact lt_of_lt_of_le later le
  · intro later
    obtain ⟨early, source, late, split, own, tells, origin⟩ := has_source timed writes overwrites
    have renewed : row.lastActivityAt ≤ written ∨ IsRenewed late key row.lastActivityAt := by
      rcases origin with reads | ⟨seen, told, rfl, rfl⟩
      · exact kept.read early source late split written reads key row stored
      · obtain ⟨found, same, -, activity⟩ := kept.told early source late split seen told
        obtain rfl := Option.some.inj (same.symm.trans stored)
        exact activity.imp_left le_of_eq
    obtain ⟨other, member, brought⟩ := renewed.resolve_left (not_le_of_gt later)
    exact ⟨early, source, late, split, own, tells, other, member,
      (isOutdatedBy_iff overwrites).mpr ⟨_, brought, later⟩⟩

/-- Where a turn does not write what is out of date, the activity of all sessions goes on. -/
theorem IsKept.goesOn (kept : IsKept start turns turn.moment.before)
    (timed : punctual (logOf turn.place turns) turn.moment.request)
    (writes : writingBack defaults (logOf turn.place turns) turn.moment.request)
    (fresh : isStale turn turns = false) (alters : Alters key turn.moment) : GoesOn key turn.moment := by
  have upToDate {row : Session} {written : Instant} (stored : turn.moment.before.tables.session? key = some row)
      (overwrites : overwrite? turn.moment = some (key, written)) : row.lastActivityAt ≤ written := by
    refine le_of_not_gt fun later => ?_
    rw [(kept.isStale_iff timed writes stored overwrites).mpr later] at fresh
    cases fresh
  cases alters with
  | not same unrenewed unwritten =>
    refine ⟨fun row stored => ⟨row, same.trans stored, le_rfl⟩, fun later found => ?_,
      fun instant renews => absurd renews (unrenewed instant)⟩
    exact .inr ⟨later, same.symm.trans found, rfl⟩
  | opens session asked unused found renews =>
    refine ⟨fun row stored => ?_, fun later foundToo => ?_, fun instant renewsToo => ?_⟩
    · rw [unused] at stored
      cases stored
    · obtain rfl := Option.some.inj (found.symm.trans foundToo)
      exact .inl renews
    · rw [renews] at renewsToo
      cases renewsToo
      exact ⟨session, found, rfl⟩
  | refreshes row instant asked stored found renews overwrites =>
    refine ⟨fun other storedToo => ?_, fun later foundToo => ?_, fun other renewsToo => ?_⟩
    · obtain rfl := Option.some.inj (stored.symm.trans storedToo)
      exact ⟨_, found, upToDate stored overwrites⟩
    · obtain rfl := Option.some.inj (found.symm.trans foundToo)
      exact .inl renews
    · rw [renews] at renewsToo
      cases renewsToo
      exact ⟨_, found, rfl⟩
  | writesBack row session asked same stored found unrenewed overwrites =>
    -- What was told of the session is no later than what is stored, and is no earlier.
    have unchanged : row.lastActivityAt = session.lastActivityAt := by
      refine le_antisymm (upToDate stored overwrites) ?_
      rw [asked] at writes
      obtain ⟨bare, member, seen, tells, turned⟩ := writes
      obtain ⟨early, source, late, rfl, -, rfl⟩ := mem_logOf member
      obtain ⟨other, storedToo, le, -⟩ := kept.told early source late rfl seen tells
      rw [← turned.same.key, same] at storedToo
      obtain rfl := Option.some.inj (stored.symm.trans storedToo)
      exact turned.activity ▸ le
    refine ⟨fun other storedToo => ?_, fun later foundToo => ?_, fun other renewsToo => ?_⟩
    · obtain rfl := Option.some.inj (stored.symm.trans storedToo)
      exact ⟨session, found, le_of_eq unchanged⟩
    · obtain rfl := Option.some.inj (found.symm.trans foundToo)
      exact .inr ⟨row, stored, unchanged⟩
    · rw [unrenewed] at renewsToo
      cases renewsToo

theorem isRenewed_snoc (late : List (Turn σ)) {turn : Turn σ} {instant : Instant} :
    IsRenewed (late ++ [turn]) key instant ↔
      IsRenewed late key instant ∨ renewal? turn.moment = some (key, instant) := by
  simp [IsRenewed, or_and_right, exists_or]

/-- What is stored of the activity of a session after a moment is what was stored before it, if nobody brings other. -/
theorem GoesOn.eq_of_unrenewed {moment : Moment Shared} {later : Session} (goesOn : GoesOn key moment)
    (unrenewed : renewal? moment = none) (found : moment.after.tables.session? key = some later) :
    ∃ row, moment.before.tables.session? key = some row ∧ row.lastActivityAt = later.lastActivityAt := by
  refine (goesOn.back later found).resolve_left fun renews => ?_
  rw [unrenewed] at renews
  cases renews

section Step

variable (kept : IsKept start turns turn.moment.before) (goesOn : ∀ key, GoesOn key turn.moment)
include kept goesOn

/-- A session that is told of now has its activity now, and one that was told of before has what was brought since. -/
theorem IsKept.told_snoc {early late : List (Turn Shared)} {source : Turn Shared}
    (stored : ∀ session ∈ sessionsTold turn.moment, turn.moment.before.tables.session? session.key = some session)
    (split : turns ++ [turn] = early ++ source :: late) {session : Session}
    (told : session ∈ sessionsTold source.moment) :
    ∃ row, turn.moment.after.tables.session? session.key = some row ∧
      session.lastActivityAt ≤ row.lastActivityAt ∧
      (row.lastActivityAt = session.lastActivityAt ∨ IsRenewed late session.key row.lastActivityAt) := by
  rcases snoc_split split with ⟨rfl, rfl, rfl⟩ | ⟨rest, rfl, rfl⟩
  · obtain ⟨later, found, le⟩ := (goesOn session.key).forward session (stored session told)
    obtain ⟨row, storedToo, same⟩ := (goesOn session.key).eq_of_unrenewed (renewal?_of_told told) found
    obtain rfl := Option.some.inj ((stored session told).symm.trans storedToo)
    exact ⟨later, found, le, .inl same.symm⟩
  · obtain ⟨row, storedThen, leThen, activity⟩ := kept.told early source rest rfl session told
    obtain ⟨later, found, le⟩ := (goesOn session.key).forward row storedThen
    refine ⟨later, found, le_trans leThen le, ?_⟩
    rw [isRenewed_snoc]
    rcases (goesOn session.key).back later found with renews | ⟨other, storedToo, same⟩
    · exact .inr (.inr renews)
    · obtain rfl := Option.some.inj (storedThen.symm.trans storedToo)
      exact same ▸ activity.imp_right .inl

/-- The activity of a session is not later than the clock, unless it was brought since that was read. -/
theorem IsKept.read_snoc (steady : IsSteady start (turns ++ [turn])) {early late : List (Turn Shared)}
    {source : Turn Shared} (split : turns ++ [turn] = early ++ source :: late) {instant : Instant}
    (reads : clock? source.moment = some instant) {later : Session}
    (found : turn.moment.after.tables.session? key = some later) :
    later.lastActivityAt ≤ instant ∨ IsRenewed late key later.lastActivityAt := by
  rcases snoc_split split with ⟨rfl, rfl, rfl⟩ | ⟨rest, rfl, rfl⟩
  · obtain ⟨row, stored, same⟩ := (goesOn key).eq_of_unrenewed (renewal?_of_clock reads) found
    have now : readings [turn] = [instant] := by simp [readings, reads]
    rw [← same]
    left
    rcases kept.known key row stored with read | ⟨session, member, activity⟩
    · have ordered := steady.ordered
      rw [readings_append, now, List.pairwise_append] at ordered
      exact ordered.2.2 _ read instant (by simp)
    · rw [← activity]
      exact steady.begun session member instant (by simp [readings_append, now])
  · rw [isRenewed_snoc]
    rcases (goesOn key).back later found with renews | ⟨row, stored, same⟩
    · exact .inr (.inr renews)
    · exact same ▸ (kept.read early source rest rfl instant reads key row stored).imp_right .inl

theorem IsKept.known_snoc (timed : punctual (logOf turn.place turns) turn.moment.request) {later : Session}
    (found : turn.moment.after.tables.session? key = some later) :
    later.lastActivityAt ∈ readings (turns ++ [turn]) ∨
      ∃ session ∈ start.sessions, session.lastActivityAt = later.lastActivityAt := by
  rw [readings_append]
  rcases (goesOn key).back later found with renews | ⟨row, stored, same⟩
  · exact .inl (List.mem_append_left _ (mem_readings_of_renewal timed renews))
  · exact same ▸ (kept.known key row stored).imp_left (List.mem_append_left _)

theorem IsKept.renewed_snoc (timed : punctual (logOf turn.place turns) turn.moment.request) {instant : Instant}
    (renewed : IsRenewed (turns ++ [turn]) key instant) :
    instant ∈ readings (turns ++ [turn]) ∧
      ∃ row, turn.moment.after.tables.session? key = some row ∧ instant ≤ row.lastActivityAt := by
  rw [readings_append]
  rcases (isRenewed_snoc turns).mp renewed with earlier | renews
  · obtain ⟨read, row, stored, le⟩ := kept.renewed key instant earlier
    obtain ⟨later, found, leToo⟩ := (goesOn key).forward row stored
    exact ⟨List.mem_append_left _ read, later, found, le_trans le leToo⟩
  · obtain ⟨later, found, same⟩ := (goesOn key).renewed instant renews
    exact ⟨List.mem_append_left _ (mem_readings_of_renewal timed renews), later, found, le_of_eq same.symm⟩

end Step

end IsKept

/-- What a turn of a plan is like, whatever the plans are. -/
structure IsServed (defaults : SessionDefaults) (turns : List (Turn Shared)) (turn : Turn Shared) : Prop where
  timed : punctual (logOf turn.place turns) turn.moment.request
  writes : writingBack defaults (logOf turn.place turns) turn.moment.request
  stored : ∀ session ∈ sessionsTold turn.moment, turn.moment.before.tables.session? session.key = some session
  alters : ∀ key, Alters key turn.moment

section Runs

variable {start : Shared} {calls : List Call} {turns : List (Turn Shared)} {turn : Turn Shared}
  {middle next : Pool Shared Unit}

theorem isServed_of_takes (sound : start.tables.HasSoundSessions defaults)
    (run : Pool.Plays Shared.ServesInAnyOrder { state := start, plans := calls.map (Call.plan defaults) } turns middle)
    (moves : Pool.Takes Shared.ServesInAnyOrder middle turn next) : IsServed defaults turns turn := by
  have minded {rule : List (Moment Unit) → Request → Prop}
      (kept : ∀ call : Call, (call.plan defaults).Keeps (mindful rule) (fun _ _ => True) []) :
      rule (logOf turn.place turns) turn.moment.request := by
    have keeps : ∀ plan ∈ (calls.map (Call.plan defaults))[turn.place]?,
        plan.Keeps (mindful rule) (fun _ _ => True) [] := by
      intro plan begins
      obtain ⟨call, -, rfl⟩ := List.mem_map.mp (List.mem_of_getElem? begins)
      exact kept call
    exact run.minded moves keeps
  obtain ⟨_, order⟩ := inOrder_of_runs sound run.runs
  refine ⟨minded Call.punctual_plan, minded Call.writesBack_plan, fun session told => ?_,
    alters_of_serves moves.answered⟩
  have present := (lifecycle_learnt moves.answered told).resolve_left (by simp)
  rw [← moves.before_eq] at present ⊢
  exact Store.Tables.session?_of_mem order.sound.distinct present

theorem isKept_of_plays {last : Pool Shared Unit} (sound : start.tables.HasSoundSessions defaults)
    (played : Pool.Plays Shared.ServesInAnyOrder { state := start, plans := calls.map (Call.plan defaults) } turns last)
    (steady : IsSteady start.tables turns) (orderly : IsOrderly turns) :
    IsKept start.tables turns last.state := by
  induction played with
  | start =>
    refine ⟨by simp, by simp, fun key row found => ?_, ?_⟩
    · exact .inr ⟨row, (Store.Tables.session?_some found).1, rfl⟩
    · rintro key instant ⟨turn, member, -⟩
      cases member
  | step run moves ih =>
    obtain ⟨orderly, fresh⟩ := isOrderly_snoc.mp orderly
    have kept := moves.before_eq ▸ ih steady.before orderly
    have served := isServed_of_takes sound run moves
    have goesOn (key : String) := kept.goesOn served.timed served.writes fresh (served.alters key)
    rw [moves.after_eq]
    exact ⟨fun _ _ _ split _ told => kept.told_snoc goesOn served.stored split told,
      fun _ _ _ split _ reads _ _ found => kept.read_snoc goesOn steady split reads found,
      fun _ _ found => kept.known_snoc goesOn served.timed found,
      fun _ _ renewed => kept.renewed_snoc goesOn served.timed renewed⟩

end Runs

end Session

end Dispatch
