import Dispatch.Proofs.Plan.Footprint
import Dispatch.Proofs.Store.Rows
/-!
The table of sessions. Keys are distinct and so are identifiers, and for each call to the store one lemma says which
rows it puts where.
-/
namespace Dispatch.Store.Tables

/-- No two sessions have the same key, or the same identifier. -/
structure HasDistinctSessions (tables : Tables) : Prop where
  keys : (tables.sessions.map Session.key).Nodup
  ids : (tables.sessions.map Session.id).Nodup

variable {tables : Tables} {key : String} {row session : Session}

theorem session?_some (found : tables.session? key = some row) : row ∈ tables.sessions ∧ row.key = key :=
  find?_key_some Session.key found

theorem session?_of_mem (distinct : tables.HasDistinctSessions) (member : row ∈ tables.sessions) :
    tables.session? row.key = some row := find?_key_of_mem Session.key distinct.keys member

theorem session?_replaceSession (tables : Tables) (session : Session) (key : String) :
    (tables.replaceSession session).session? key =
      if session.key = key then (tables.session? key).map fun _ => session else tables.session? key :=
  find?_replace Session.key session tables.sessions key

/-- Rows keep their keys, and their identifiers too if the new row has that of the old one. -/
theorem HasDistinctSessions.replaceSession (distinct : tables.HasDistinctSessions)
    (found : tables.session? session.key = some row) (sameId : row.id = session.id) :
    (tables.replaceSession session).HasDistinctSessions := by
  constructor
  · unfold Tables.replaceSession
    rw [map_replace Session.key Session.key fun _ _ same => same]
    exact distinct.keys
  · unfold Tables.replaceSession
    rw [map_replace Session.key Session.id fun other member sameKey => ?_]
    · exact distinct.ids
    · have stored := session?_of_mem distinct member
      rw [sameKey, found] at stored
      rw [← Option.some.inj stored, sameId]

/-- What a session is inserted to: nothing changes if its key or its identifier is there. -/
theorem insertSession_cases (tables : Tables) (session : Session) :
    (tables.insertSession session).2 = tables ∨
      (tables.session? session.key = none ∧ tables.sessionWithId? session.id = none ∧
        (tables.insertSession session).2 = { tables with sessions := tables.sessions ++ [session] }) := by
  unfold insertSession
  split
  next => exact .inl rfl
  next free => exact .inr (by simpa using free)

theorem HasDistinctSessions.append (distinct : tables.HasDistinctSessions)
    (unusedKey : tables.session? session.key = none) (unusedId : tables.sessionWithId? session.id = none) :
    { tables with sessions := tables.sessions ++ [session] }.HasDistinctSessions :=
  ⟨nodup_map_append distinct.keys (find?_key_none Session.key unusedKey),
    nodup_map_append distinct.ids (find?_key_none Session.id unusedId)⟩

/-- What is stored is found as before once there are more rows. -/
theorem session?_append (found : tables.session? key = some row) :
    { tables with sessions := tables.sessions ++ [session] }.session? key = some row := by
  unfold session? at found ⊢
  rw [List.find?_append, found, Option.some_or]

theorem session?_append_new (tables : Tables) (session : Session) (key : String) :
    { tables with sessions := tables.sessions ++ [session] }.session? key =
      (tables.session? key).or (if session.key = key then some session else none) := by
  unfold session?
  rw [List.find?_append]
  by_cases own : session.key = key
  · simp [own]
  · simp [own]

/-- What is written back stands in the place of the stored row, unless that would open a closed session again. -/
theorem updateSession_cases (tables : Tables) (session : Session) :
    (tables.updateSession session).2 = tables ∨
      ∃ row, tables.session? session.key = some row ∧ (row.state = .closed → session.state = .closed) ∧
        (tables.updateSession session).2 = tables.replaceSession session := by
  unfold updateSession
  cases found : tables.session? session.key with
  | none => exact .inl rfl
  | some row =>
    by_cases reopens : row.state = .closed ∧ session.state = .active
    · exact .inl (by simp [reopens])
    · refine .inr ⟨row, rfl, fun closed => ?_, by simp only [reopens, if_false]⟩
      cases state : session.state with
      | active => exact absurd ⟨closed, state⟩ reopens
      | closed => rfl

/-- What is refused is not written. -/
theorem updateSession_refused {fault : Fault} (refused : (tables.updateSession session).1 = .error fault) :
    (tables.updateSession session).2 = tables := by
  unfold updateSession at refused ⊢
  cases found : tables.session? session.key with
  | none => rfl
  | some row =>
    simp only [found] at refused ⊢
    split
    next => rfl
    next accepted =>
      rw [if_neg accepted] at refused
      cases refused

/-- In the place of a row that is active anything may be written. -/
theorem updateSession_of_active (found : tables.session? session.key = some row) (active : row.state = .active) :
    tables.updateSession session = (.ok (), tables.replaceSession session) := by
  simp [updateSession, found, active]

/-- Only the last activity of the stored row is refreshed. -/
theorem touchSession_cases (tables : Tables) (key : String) (instant : Instant) :
    (tables.touchSession key instant).2 = tables ∨
      ∃ row, tables.session? key = some row ∧
        (tables.touchSession key instant).2 = tables.replaceSession { row with lastActivityAt := instant } := by
  unfold touchSession
  cases found : tables.session? key with
  | none => exact .inl rfl
  | some row =>
    by_cases active : row.state = .active
    · exact .inr ⟨row, rfl, by simp [active]⟩
    · exact .inl (by simp [active])

/-- Calls that are not about sessions leave the rows of sessions alone. -/
theorem answer_sessions (tables : Tables) {call : Call} (other : Request.isOfSessions (.store call) = false) :
    (tables.answer call).2.sessions = tables.sessions := by
  cases call with
  | insertSession | findSession | findSessionWithId | updateSession | touchSession | activeSessions => cases other
  | openTransaction | isTaken | findUser | insertLocalAccount | findLocalAccount | insertAuthAccount |
    authAccountsOf | setAuthAccounts | insertEntry | entriesOf | findJob | jobsOf | unfinishedJobs | findAuthSystem |
    authSystems => rfl
  | commit | rollback | reserve | assign | insertUser | updateEntry | insertJob | updateJob | insertAuthSystem |
    updateAuthSystem =>
    simp only [answer, commit, rollback, reserve, assign, insertUser, updateEntry, insertJob, updateJob,
      insertAuthSystem, updateAuthSystem]
    split <;> rfl
  | transitionJob =>
    simp only [answer, transitionJob]
    split
    next => rfl
    next => split <;> rfl

/-- Where there is a row there still is one once it has been put in the place of another. -/
theorem isSome_session?_replaceSession (known : (tables.session? key).isSome = true) (session : Session) :
    ((tables.replaceSession session).session? key).isSome = true := by
  rw [session?_replaceSession]
  split
  next => rwa [Option.isSome_map]
  next => exact known

/-- A row of a session stays, whatever becomes of it. -/
theorem isSome_session?_answer (known : (tables.session? key).isSome = true) (call : Call) :
    ((tables.answer call).2.session? key).isSome = true := by
  cases concerns : Request.isOfSessions (.store call) with
  | false =>
    unfold session? at known ⊢
    rwa [tables.answer_sessions concerns]
  | true =>
    cases call with
    | insertSession session =>
      rcases tables.insertSession_cases session with same | ⟨-, -, same⟩
      · rwa [answer, same]
      · obtain ⟨row, found⟩ := Option.isSome_iff_exists.mp known
        rw [answer, same, session?_append found, Option.isSome_some]
    | updateSession session =>
      rcases tables.updateSession_cases session with same | ⟨_, -, -, same⟩
      · rwa [answer, same]
      · rw [answer, same]
        exact isSome_session?_replaceSession known session
    | touchSession other instant =>
      rcases tables.touchSession_cases other instant with same | ⟨_, -, same⟩
      · rwa [answer, same]
      · rw [answer, same]
        exact isSome_session?_replaceSession known _
    | findSession | findSessionWithId | activeSessions => exact known
    | _ => cases concerns

end Dispatch.Store.Tables
