import Dispatch.Proofs.Session.Table
/-!
The life of stored sessions. Services write back whole sessions that they have looked up before, closed or left to
their timeout; such a session may have changed since. What a write may do is said of rows, and then of tables.
-/
namespace Dispatch

/-- A timeout is kept for sessions that follow one, and for no others. -/
structure SessionDefaults.Fits (defaults : SessionDefaults) (policy : ClosePolicy) (timeout : Option UInt64) :
    Prop where
  timed : defaults.effective policy = .onTimeout → timeout.isSome = true
  untimed : defaults.effective policy = .onDisconnect → timeout = none

theorem SessionDefaults.fits_onTimeout (defaults : SessionDefaults) (timeout : UInt64) :
    defaults.Fits .onTimeout (some timeout) := ⟨fun _ => rfl, nofun⟩

theorem SessionDefaults.fits_mode (defaults : SessionDefaults) (policy : ClosePolicy) (wanted : Option UInt64) :
    defaults.Fits (defaults.mode policy wanted).1 (defaults.mode policy wanted).2 := by
  cases policy with
  | onTimeout => exact defaults.fits_onTimeout _
  | onDisconnect => exact ⟨nofun, fun _ => rfl⟩
  | default =>
    constructor
    · intro follows
      simp only [mode] at follows ⊢
      rw [if_pos follows]
      rfl
    · intro follows
      simp only [mode] at follows ⊢
      rw [follows]
      rfl

namespace Session

variable {defaults : SessionDefaults}

/-- What holds of every stored session: the instant of its end is known exactly if it is closed, and it has a timeout
exactly if it follows one. -/
structure IsSound (defaults : SessionDefaults) (session : Session) : Prop where
  closed : session.closedAt.isSome = true ↔ session.state = .closed
  fits : defaults.Fits session.policy session.timeout

/-- The same login: one key, one identifier, one caller from one host, one beginning. -/
structure IsSameLogin (row next : Session) : Prop where
  key : next.key = row.key
  id : next.id = row.id
  user : next.user = row.user
  authenticatedAs : next.authenticatedAs = row.authenticatedAs
  clientHost : next.clientHost = row.clientHost
  createdAt : next.createdAt = row.createdAt

/-- What any number of steps can do: a closed session stays closed. -/
structure Became (row next : Session) : Prop where
  same : row.IsSameLogin next
  closed : row.state = .closed → next.state = .closed

/-- What is written back of a session that was looked up: it is closed, or left to its timeout. -/
inductive Turns (defaults : SessionDefaults) (row : Session) : Session → Prop
  | close (instant : Instant) : Turns defaults row (row.close instant)
  | wait : Turns defaults row { row with policy := .onTimeout, timeout := some defaults.timeout }

theorem IsSameLogin.refl (row : Session) : row.IsSameLogin row := ⟨rfl, rfl, rfl, rfl, rfl, rfl⟩

theorem IsSameLogin.symm {row next : Session} (same : row.IsSameLogin next) : next.IsSameLogin row :=
  ⟨same.key.symm, same.id.symm, same.user.symm, same.authenticatedAs.symm, same.clientHost.symm,
    same.createdAt.symm⟩

theorem IsSameLogin.trans {row middle next : Session} (first : row.IsSameLogin middle)
    (second : middle.IsSameLogin next) : row.IsSameLogin next :=
  ⟨second.key.trans first.key, second.id.trans first.id, second.user.trans first.user,
    second.authenticatedAs.trans first.authenticatedAs, second.clientHost.trans first.clientHost,
    second.createdAt.trans first.createdAt⟩

theorem Became.refl (row : Session) : row.Became row := ⟨.refl row, fun closed => closed⟩

theorem Became.trans {row middle next : Session} (first : row.Became middle) (second : middle.Became next) :
    row.Became next :=
  ⟨first.same.trans second.same, fun closed => second.closed (first.closed closed)⟩

theorem Turns.same {row next : Session} (turned : row.Turns defaults next) : row.IsSameLogin next := by
  cases turned with
  | close instant => exact ⟨rfl, rfl, rfl, rfl, rfl, rfl⟩
  | wait => exact ⟨rfl, rfl, rfl, rfl, rfl, rfl⟩

theorem Turns.activity {row next : Session} (turned : row.Turns defaults next) :
    next.lastActivityAt = row.lastActivityAt := by
  cases turned with
  | close instant => rfl
  | wait => rfl

theorem Turns.isSound {row next : Session} (turned : row.Turns defaults next) (sound : row.IsSound defaults) :
    next.IsSound defaults := by
  cases turned with
  | close instant => exact ⟨by simp [Session.close], sound.fits⟩
  | wait => exact ⟨sound.closed, defaults.fits_onTimeout _⟩

end Session

namespace Store.Tables

variable {defaults : SessionDefaults} {tables next : Tables} {row session : Session}

/-- The table of sessions as it should be. -/
structure HasSoundSessions (defaults : SessionDefaults) (tables : Tables) : Prop where
  distinct : tables.HasDistinctSessions
  sound : ∀ session ∈ tables.sessions, session.IsSound defaults

/-- Any number of steps: the stored sessions are all still there. -/
def SessionsBecame (tables next : Tables) : Prop :=
  ∀ key row, tables.session? key = some row → ∃ later, next.session? key = some later ∧ row.Became later

theorem SessionsBecame.of_eq (same : next.sessions = tables.sessions) : tables.SessionsBecame next := by
  intro key row found
  exact ⟨row, by simpa only [session?, same] using found, .refl row⟩

theorem SessionsBecame.trans {middle : Tables} (first : tables.SessionsBecame middle)
    (second : middle.SessionsBecame next) : tables.SessionsBecame next := by
  intro key row found
  obtain ⟨between, foundBetween, before⟩ := first key row found
  obtain ⟨later, foundLater, after⟩ := second key between foundBetween
  exact ⟨later, foundLater, before.trans after⟩

theorem HasSoundSessions.of_eq (sound : tables.HasSoundSessions defaults) (same : next.sessions = tables.sessions) :
    next.HasSoundSessions defaults := by
  refine ⟨⟨?_, ?_⟩, ?_⟩
  · rw [same]
    exact sound.distinct.keys
  · rw [same]
    exact sound.distinct.ids
  · rw [same]
    exact sound.sound

/-- A new session that is sound. -/
theorem insertSession_life (sound : tables.HasSoundSessions defaults) (isSound : session.IsSound defaults) :
    (tables.insertSession session).2.HasSoundSessions defaults ∧
      tables.SessionsBecame (tables.insertSession session).2 := by
  rcases tables.insertSession_cases session with same | ⟨unusedKey, unusedId, added⟩
  · rw [same]
    exact ⟨sound, .of_eq rfl⟩
  · rw [added]
    refine ⟨⟨sound.distinct.append unusedKey unusedId, fun row member => ?_⟩, fun key row found => ?_⟩
    · rcases List.mem_append.mp member with stored | new
      · exact sound.sound row stored
      · rw [List.mem_singleton.mp new]
        exact isSound
    · exact ⟨row, session?_append found, .refl row⟩

/-- Another state of the stored session, in its place. -/
theorem replaceSession_life (sound : tables.HasSoundSessions defaults)
    (found : tables.session? session.key = some row) (became : row.Became session)
    (isSound : session.IsSound defaults) :
    (tables.replaceSession session).HasSoundSessions defaults ∧
      tables.SessionsBecame (tables.replaceSession session) := by
  refine ⟨⟨sound.distinct.replaceSession found became.same.id.symm, fun other member => ?_⟩, fun key other stored => ?_⟩
  · obtain ⟨before, present, rfl⟩ := List.mem_map.mp member
    split
    next => exact isSound
    next => exact sound.sound before present
  · rw [session?_replaceSession]
    by_cases same : session.key = key
    · obtain rfl : row = other := by
        rw [same, stored] at found
        exact (Option.some.inj found).symm
      exact ⟨session, by rw [if_pos same, stored, Option.map_some], became⟩
    · exact ⟨other, by rw [if_neg same, stored], .refl other⟩

/-- Writing back a session that was looked up some time ago. It cannot be opened again: what was seen active is
refused where the stored row has been closed since. -/
theorem updateSession_life (sound : tables.HasSoundSessions defaults) {seen : Session}
    (turned : seen.Turns defaults session) (seenSound : seen.IsSound defaults)
    (remembered : ∃ row, tables.session? seen.key = some row ∧ seen.Became row) :
    (tables.updateSession session).2.HasSoundSessions defaults ∧
      tables.SessionsBecame (tables.updateSession session).2 := by
  rcases tables.updateSession_cases session with same | ⟨row, found, stays, replaced⟩
  · rw [same]
    exact ⟨sound, .of_eq rfl⟩
  · rw [replaced]
    obtain ⟨stored, present, since⟩ := remembered
    obtain rfl : stored = row := by
      rw [turned.same.key, present] at found
      exact Option.some.inj found
    exact replaceSession_life sound found ⟨since.same.symm.trans turned.same, stays⟩ (turned.isSound seenSound)

theorem touchSession_life (sound : tables.HasSoundSessions defaults) (key : String) (instant : Instant) :
    (tables.touchSession key instant).2.HasSoundSessions defaults ∧
      tables.SessionsBecame (tables.touchSession key instant).2 := by
  rcases tables.touchSession_cases key instant with same | ⟨row, found, touched⟩
  · rw [same]
    exact ⟨sound, .of_eq rfl⟩
  · rw [touched]
    have stored := session?_some found
    have rowSound := sound.sound row stored.1
    have own : tables.session? row.key = some row := stored.2 ▸ found
    have same : row.IsSameLogin { row with lastActivityAt := instant } := ⟨rfl, rfl, rfl, rfl, rfl, rfl⟩
    exact replaceSession_life sound own ⟨same, fun closed => closed⟩ ⟨rowSound.closed, rowSound.fits⟩

end Store.Tables

end Dispatch
