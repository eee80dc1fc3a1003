import Dispatch.Proofs.Session.Refusal
import Dispatch.Proofs.Session.Works
/-!
Sessions in the company of others. Whoever works with the key of one session writes entries of that session, and changes
an entry only after it was listed among those of the session. So to the history of another session it makes no
difference, in whatever order the calls to the store come.
-/
namespace Dispatch

open Plan

namespace Moment

variable {σ : Type}

/-- The session that is found with a key. -/
def found? (key : String) : Moment σ → Option Session
  | ⟨_, .store (.findSession wanted), .ok found, _⟩ => if wanted = key then found else none
  | _ => none

theorem found?_bare (key : String) (moment : Moment σ) : moment.bare.found? key = moment.found? key := by
  obtain ⟨_, request, reply, _⟩ := moment
  cases request with
  | store call =>
    cases call with
    | findSession => cases reply <;> rfl
    | _ => rfl
  | _ => rfl

end Moment

/-- A session that is found with a key has that key. -/
theorem Shared.Serves.found?_key {shared next : Shared} {request : Request} {reply : request.Reply} {key : String}
    {session : Session} (served : shared.Serves request reply next)
    (found : Moment.found? key { before := shared, request, reply, after := next } = some session) :
    session.key = key := by
  cases request with
  | store call =>
    rcases Shared.serves_store served with ⟨rfl, rfl⟩ | ⟨⟨fault, rfl⟩, rfl⟩
    · cases call with
      | findSession wanted =>
        obtain ⟨rfl, stored⟩ := Option.ite_none_right_eq_some.mp found
        exact (Store.Tables.session?_some stored).2
      | _ =>
        generalize shared.tables.answer _ = answered at found
        obtain ⟨_ | _, _⟩ := answered <;> cases found
    · cases call <;> cases found
  | _ => cases found

namespace Store.Tables

/-- An entry with that number is stored, and it is of that session. -/
def HasEntryOf (tables : Tables) (number : Nat) (session : String) : Prop :=
  ∃ row ∈ tables.entries, row.number = number ∧ row.session = session

variable {tables next : Tables} {request : Request} {written : Option History.Entry}

/-- An entry stays with its session, if entries are changed for the session that they are of. -/
theorem HasEntryOf.notes {number : Nat} {session : String} (stands : tables.HasEntryOf number session)
    (sound : tables.HasSoundEntries) (noted : Notes tables next request written)
    (own : ∀ entry, request = .store (.updateEntry entry) → tables.HasEntryOf entry.number entry.session) :
    next.HasEntryOf number session := by
  obtain ⟨row, member, rfl, rfl⟩ := stands
  cases noted with
  | nothing same counted => exact ⟨row, same ▸ member, rfl, rfl⟩
  | opens entry rows counted => exact ⟨row, rows ▸ List.mem_append_left _ member, rfl, rfl⟩
  | changes entry rows counted =>
    have stays := List.mem_map_of_mem (f := fun row => if row.number = entry.number then entry else row) member
    rw [← rows] at stays
    by_cases here : row.number = entry.number
    · obtain ⟨other, present, number, session⟩ := own entry rfl
      obtain rfl := sound.eq_of_number member present (here.trans number.symm)
      rw [if_pos here] at stays
      exact ⟨entry, stays, here.symm, session.symm⟩
    · rw [if_neg here] at stays
      exact ⟨row, stays, rfl, rfl⟩

/-- To the history of a session it makes no difference what is written for another one. -/
theorem Notes.entriesOf_eq {key : String} (noted : Notes tables next request written) (sound : tables.HasSoundEntries)
    (opens : ∀ entry, request = .store (.insertEntry entry) → entry.session ≠ key)
    (changes : ∀ entry, request = .store (.updateEntry entry) →
      entry.session ≠ key ∧ tables.HasEntryOf entry.number entry.session) :
    next.entriesOf key = tables.entriesOf key := by
  unfold entriesOf
  cases noted with
  | nothing same counted => rw [same]
  | opens entry rows counted =>
    have other : (entry.session == key) = false := beq_eq_false_iff_ne.mpr (opens entry rfl)
    rw [rows, List.filter_append, List.filter_singleton, other, cond_false, List.append_nil]
  | changes entry rows counted =>
    obtain ⟨other, row, present, number, session⟩ := changes entry rfl
    rw [rows]
    refine filter_replace History.Entry.number (beq_eq_false_iff_ne.mpr other) fun old member same => ?_
    obtain rfl := sound.eq_of_number member present (same.trans number.symm)
    exact beq_eq_false_iff_ne.mpr (session ▸ other)

end Store.Tables

namespace Session

variable {log longer : List (Moment Unit)} {may : String → Prop} {defaults : SessionDefaults}

/-- A session that is worked for with a key: the one with that key, or with the key of what was found with it. -/
def IsWorkedFor (log : List (Moment Unit)) (key session : String) : Prop :=
  session = key ∨ ∃ moment ∈ log, ∃ row, moment.found? key = some row ∧ row.key = session

theorem IsWorkedFor.mono {key session : String} (works : IsWorkedFor log key session) (grown : log ⊆ longer) :
    IsWorkedFor longer key session :=
  works.imp_right fun ⟨moment, member, found⟩ => ⟨moment, grown member, found⟩

/-- Entries are written for sessions that are worked for with such a key, and changed only if they were listed. -/
def scribing (may : String → Prop) (log : List (Moment Unit)) : Request → Prop
  | .store (.insertEntry entry) => ∃ key, may key ∧ IsWorkedFor log key entry.session
  | .store (.updateEntry entry) => ∃ key, may key ∧ ∃ session, IsWorkedFor log key session ∧
      ∃ moment ∈ log, ∃ rows, moment.listed? session = some rows ∧
        ∃ found ∈ rows, found.number = entry.number ∧ found.session = entry.session
  | _ => True

theorem scribing_of_spares {request : Request} (spares : request.sparesHistory = true) : scribing may log request := by
  cases request with
  | store call =>
    cases call with
    | insertEntry | updateEntry => cases spares
    | _ => trivial
  | _ => trivial

/-- Work that leaves the history alone. -/
theorem scribes_work {α : Type} {service : Service α} (spares : Asks Request.sparesHistory service) :
    Minds (scribing may) service log :=
  (spares.minds fun _ _ _ => scribing_of_spares).mono (fun _ _ _ => trivial) fun _ _ _ => trivial

/-- Such work, and then the rest. -/
theorem scribes_after {α β : Type} {service : Service α} {rest : α → Service β}
    (spares : Asks Request.sparesHistory service)
    (next : ∀ value longer, log ⊆ longer → Minds (scribing may) (rest value) longer) :
    Minds (scribing may) (service >>= rest) log :=
  Minds.after spares (fun _ _ _ => scribing_of_spares) fun value longer _ adds => next value longer adds.subset

/-- Whoever passes the gate is known by the session that was found. -/
theorem scribes_authorize {β : Type} {rest : Caller → Service β} (key : String)
    (next : ∀ caller longer, log ⊆ longer → IsWorkedFor longer key caller.session.key →
      Minds (scribing may) (rest caller) longer) : Minds (scribing may) (authorize key >>= rest) log := by
  have passes : Tries (mindful (scribing may))
      (fun caller longer => log ⊆ longer ∧ IsWorkedFor longer key caller.session.key) (fun _ _ => True)
      (authorize key) log := by
    unfold authorize load
    rw [tries_bind, tries_bind]
    refine (Service.tries_store _).mpr ⟨trivial, fun found _ => ?_, fun _ _ => trivial⟩
    cases found with
    | none => trivial
    | some session =>
      rw [tries_pure]
      refine tries_guard.mpr ⟨fun _ => trivial, fun _ => ?_⟩
      rw [tries_bind]
      refine (Service.tries_store _).mpr ⟨trivial, fun user _ => ?_, fun _ _ => trivial⟩
      cases user with
      | none => trivial
      | some user =>
        rw [tries_bind, Service.tries_ofExcept]
        refine ⟨fun _ _ => ⟨?_, .inr ⟨_, List.mem_append_left _ (List.mem_append_right _ (List.mem_singleton_self _)),
          session, if_pos rfl, rfl⟩⟩, fun _ _ => trivial⟩
        exact List.Subset.trans (List.subset_append_left _ _) (List.subset_append_left _ _)
  exact (tries_bind _ _).mpr (passes.mono (fun caller longer known => next caller longer known.1 known.2)
    fun _ _ _ => trivial)

variable {key session : String}

theorem scribes_startCommand (allowed : may key) (description : String) (category : History.Category) :
    Minds (scribing may) (startCommand key description category) log := by
  unfold startCommand
  refine scribes_after (asks_check_sparing key) fun _ longer _ => ?_
  refine scribes_after (Service.asks_ask rfl) fun now longer _ => ?_
  exact (Service.tries_store _).mpr ⟨⟨key, allowed, .inl rfl⟩, fun _ _ => trivial, fun _ _ => trivial⟩

theorem scribes_record (allowed : may key) (works : IsWorkedFor log key session) (description : String)
    (category : History.Category) (status : History.Status) (object : Option String) :
    Minds (scribing may) (record session description category status object) log := by
  unfold record
  refine scribes_after (Service.asks_ask rfl) fun now _ first => ?_
  refine scribes_after (Service.asks_store rfl) fun _ before second => ?_
  refine (tries_bind _ _).mpr ((Service.tries_store _).mpr ⟨trivial, fun rows _ => ?_, fun _ _ => trivial⟩)
  let look : Moment Unit := { before := (), request := .store (.entriesOf session), reply := .ok rows, after := () }
  have still : IsWorkedFor (before ++ [look]) key session :=
    works.mono (List.Subset.trans (List.Subset.trans first second) (List.subset_append_left _ _))
  split
  next entry found =>
    have listed : entry ∈ rows := List.mem_reverse.mp (List.mem_of_find?_eq_some found)
    refine (Service.tries_store _).mpr
      ⟨⟨key, allowed, session, still, look, ?_⟩, fun _ _ => trivial, fun _ _ => trivial⟩
    exact ⟨List.mem_append_right _ (List.mem_singleton_self _), rows, if_pos rfl, entry, listed, rfl, rfl⟩
  next =>
    exact (tries_bind _ _).mpr
      ((Service.tries_store _).mpr ⟨⟨key, allowed, still⟩, fun _ _ => trivial, fun _ _ => trivial⟩)

theorem scribes_within {α : Type} (allowed : may key) (description : String) (category : History.Category)
    (object : α → Option String) {command : Service α} (spares : Asks Request.sparesHistory command) :
    Minds (scribing may) (within key description category object command) log := by
  unfold within
  refine Minds.bind (scribes_startCommand allowed description category) fun _ _ _ => ?_
  refine Minds.attempt (scribes_work spares) fun result _ _ => ?_
  exact Minds.bind (scribes_record allowed (.inl rfl) _ _ _ _) fun _ _ _ => scribes_work (Service.asks_ofExcept result)

theorem scribes_asAdmin {α : Type} (allowed : may key) (purpose description : String) (object : α → String)
    {change : Service α} (spares : Asks Request.sparesHistory change) :
    Minds (scribing may) (AuthSystem.asAdmin key purpose description object change) log := by
  unfold AuthSystem.asAdmin
  refine scribes_authorize key fun caller longer _ works => ?_
  refine scribes_after (Service.asks_ofExcept _) fun _ _ more => ?_
  refine Minds.attempt (scribes_work spares) fun result _ longest => ?_
  exact Minds.bind (scribes_record allowed (works.mono (List.Subset.trans more longest.subset)) _ _ _ _) fun _ _ _ =>
    scribes_work (Service.asks_ofExcept result)

theorem scribes_listAuthSystems (allowed : may key) (wanted : Option String) (includeDeleted : Bool) :
    Minds (scribing may) (AuthSystem.list key wanted includeDeleted) log := by
  unfold AuthSystem.list
  refine scribes_authorize key fun caller longer _ works => ?_
  extract_lets answers shows
  have answered (systems : List AuthSystem) (longest : List (Moment Unit)) (grown : longer ⊆ longest) :
      Minds (scribing may) (answers systems) longest :=
    Minds.bind (scribes_record allowed (works.mono grown) _ _ _ _) fun _ _ _ => trivial
  have shown (before : List (Moment Unit)) (grown : longer ⊆ before) : Minds (scribing may) (shows ()) before := by
    refine scribes_after (Service.asks_store rfl) fun stored longest more => ?_
    cases wanted with
    | none => exact answered _ longest (List.Subset.trans grown more)
    | some id => exact tries_guard.mpr ⟨fun _ => trivial, fun _ => answered _ longest (List.Subset.trans grown more)⟩
  cases includeDeleted with
  | true => exact scribes_after (Service.asks_ofExcept _) fun _ before grown => shown before grown
  | false => exact shown longer (List.Subset.refl _)

/-- An operation of a session writes for that session. -/
theorem scribes_service (operation : Operation) (allowed : may key) :
    Minds (scribing may) (operation.service key) log := by
  cases operation with
  | startCommand description category => exact scribes_startCommand allowed description category
  | finishCommand description category status object =>
    exact scribes_after (asks_check_sparing key) fun _ _ _ => scribes_record allowed (.inl rfl) _ _ _ _
  | submit mint machine script options =>
    exact scribes_after (works_authorize key).spares fun caller _ _ =>
      scribes_within allowed _ _ _ (Job.works_submitFor mint caller machine script options).spares
  | cancel id =>
    rw [Operation.service, cancel_eq]
    refine scribes_after (works_asOwner key id "cancel").spares fun job longer _ => ?_
    split
    next => trivial
    next => exact scribes_within allowed _ _ _ job.works_cancelAtPlace.spares
  | startTime id => exact scribes_work (Job.works_startTime key id).spares
  | queues machine wanted => exact scribes_work (Job.works_queues key machine wanted).spares
  | list => exact scribes_work (Job.works_list key).spares
  | output id =>
    rw [Operation.service, output_eq]
    exact scribes_after (works_asOwner key id _).spares fun job _ _ =>
      scribes_within allowed _ _ _ job.works_retrieve.spares
  | outputs =>
    refine scribes_after (works_authorize key).spares fun caller _ _ => ?_
    refine Minds.bind (scribes_startCommand allowed _ _) fun _ _ _ => ?_
    refine scribes_after (Service.asks_store rfl) fun jobs _ _ => ?_
    refine scribes_after (Job.works_retrieveAll _).spares fun found _ _ => ?_
    exact Minds.bind (scribes_record allowed (.inl rfl) _ _ _ _) fun _ _ _ => trivial
  | addAuthSystem mint entry => exact scribes_asAdmin allowed _ _ _ (AuthSystem.works_insert mint entry).spares
  | updateAuthSystem id changes => exact scribes_asAdmin allowed _ _ _ (AuthSystem.works_apply id changes).spares
  | deleteAuthSystem id => exact scribes_asAdmin allowed _ _ _ (AuthSystem.works_remove id).spares
  | listAuthSystems wanted includeDeleted => exact scribes_listAuthSystems allowed wanted includeDeleted

/-- What goes on on a server: operations of sessions, calls of the services that work on sessions, polls of jobs, and
passes over all of them. -/
inductive Activity
  | operate (key : String) (operation : Operation)
  | serve (call : Call)
  | poll (job : String)
  | monitor

namespace Activity

/-- The key that an activity is done with, if it is done with one. -/
def key? : Activity → Option String
  | operate key _ | serve (.startCommand key ..) | serve (.finishCommand key ..) | serve (.close key) => some key
  | serve (.connect ..) | serve (.reconnect ..) | serve (.closeExpired _) | poll _ | monitor => none

/-- What is done. What comes of it is of no concern to others. -/
def plan (defaults : SessionDefaults) (α : Type) : Activity → Plan (Option α)
  | operate key operation => do
    let _ ← (operation.service key).run
    return none
  | serve call => do
    call.plan defaults
    return none
  | poll job => do
    let _ ← (Job.refresh job).run
    return none
  | monitor => do
    let _ ← Job.monitor.run
    return none

/-- Whatever is done writes for the session that it is done with, if with any. -/
theorem scribes_plan {α : Type} (activity : Activity) (allowed : ∀ key, activity.key? = some key → may key) :
    (activity.plan defaults α).Keeps (mindful (scribing may)) (fun _ _ => True) [] := by
  cases activity with
  | operate other operation => exact Keeps.discards (scribes_service operation (allowed other rfl)) none
  | poll job => exact Keeps.discards (scribes_work (Job.works_refresh job).spares) none
  | monitor => exact Keeps.discards (scribes_work Job.works_monitor.spares) none
  | serve call =>
    suffices kept : (call.plan defaults).Keeps (mindful (scribing may)) (fun _ _ => True) [] from kept.discards none
    cases call with
    | connect credentials clientHost options =>
      exact (scribes_work (works_connect defaults credentials clientHost options).spares).keeps
    | reconnect credentials clientHost id =>
      exact (scribes_work (works_reconnect credentials clientHost id).spares).keeps
    | startCommand other description category =>
      exact (scribes_startCommand (allowed other rfl) description category).keeps
    | finishCommand other description category status object isChecked =>
      have records (log : List (Moment Unit)) : Minds (scribing may)
          (record other description category status object) log :=
        scribes_record (allowed other rfl) (.inl rfl) description category status object
      cases isChecked with
      | true => exact (scribes_after (asks_check_sparing other) fun _ longer _ => records longer).keeps
      | false => exact (records []).keeps
    | close other => exact (scribes_work (spares_closeByKey other)).keeps
    | closeExpired now => exact (scribes_work (spares_closeExpired now)).keeps

end Activity

section Pools

variable {α : Type} {pool middle next last : Pool Shared α} {turns : List (Dispatch.Turn Shared)}
  {turn : Dispatch.Turn Shared}

/-- What a plan has found with a key has that key. -/
theorem key_of_found (played : Pool.Plays Shared.Serves pool turns last) {place : Nat} {session : Session}
    {bare : Moment Unit} (member : bare ∈ logOf place turns) (found : bare.found? key = some session) :
    session.key = key := by
  obtain ⟨front, turn, back, rfl, -, rfl⟩ := mem_logOf member
  obtain ⟨_, _, -, moves⟩ := played.split
  rw [Moment.found?_bare] at found
  exact moves.answered.found?_key found

variable (minded : ∀ plan ∈ pool.plans, plan.Keeps (mindful (scribing fun _ => True)) (fun _ _ => True) [])
  (sound : pool.state.tables.HasSoundEntries)
include minded sound

/-- What has been listed for a session is of that session, and is still stored for it. -/
theorem listed_stands (played : Pool.Plays Shared.Serves pool turns last) :
    last.state.tables.HasSoundEntries ∧
      ∀ place, ∀ bare ∈ logOf place turns, ∀ session rows, bare.listed? session = some rows → ∀ found ∈ rows,
        found.session = session ∧ last.state.tables.HasEntryOf found.number session := by
  induction played with
  | start => exact ⟨sound, fun _ _ member => nomatch member⟩
  | step run moves ih =>
    rename_i middle last turns turn
    obtain ⟨soundNow, standing⟩ := ih
    have noted := Store.Tables.notes_of_serves moves.answered
    rw [← moves.before_eq, ← moves.after_eq] at noted
    have own : ∀ entry, turn.moment.request = .store (.updateEntry entry) →
        middle.state.tables.HasEntryOf entry.number entry.session := by
      intro entry same
      have rule := run.minded moves fun plan member => minded plan (List.mem_of_getElem? member)
      rw [same] at rule
      obtain ⟨_, -, session, -, bare, member, rows, listed, found, inside, number, ofSession⟩ := rule
      obtain ⟨sameSession, stands⟩ := standing _ bare member session rows listed found inside
      rwa [← number, ← ofSession, sameSession]
    refine ⟨soundNow.notes noted, fun place bare member session rows listed found inside => ?_⟩
    suffices known : found.session = session ∧ middle.state.tables.HasEntryOf found.number session from
      ⟨known.1, known.2.notes soundNow noted own⟩
    rw [logOf_snoc, List.mem_append] at member
    rcases member with earlier | here
    · exact standing place bare earlier session rows listed found inside
    · obtain rfl : bare = turn.moment.bare := by
        split at here
        next => exact List.mem_singleton.mp here
        next => cases here
      rw [Moment.listed?_bare] at listed
      have stored := Store.Tables.listed?_of_serves moves.answered listed
      rw [← moves.before_eq] at stored
      obtain ⟨present, same⟩ := List.mem_filter.mp (stored ▸ inside)
      exact ⟨beq_iff_eq.mp same, found, present, rfl, beq_iff_eq.mp same⟩

/-- Who works with other keys makes no difference to the history of a session. -/
theorem entriesOf_of_apart (run : Pool.Plays Shared.Serves pool turns middle)
    (moves : Pool.Takes Shared.Serves middle turn next)
    (apart : ∀ plan ∈ pool.plans[turn.place]?, plan.Keeps (mindful (scribing (· ≠ key))) (fun _ _ => True) []) :
    next.state.tables.entriesOf key = middle.state.tables.entriesOf key := by
  obtain ⟨soundNow, standing⟩ := listed_stands minded sound run
  have noted := Store.Tables.notes_of_serves moves.answered
  rw [← moves.before_eq, ← moves.after_eq] at noted
  have rule := run.minded moves apart
  have other {wanted session : String} (allowed : wanted ≠ key)
      (works : IsWorkedFor (logOf turn.place turns) wanted session) : session ≠ key := by
    rcases works with rfl | ⟨bare, member, row, found, rfl⟩
    · exact allowed
    · rwa [key_of_found run member found]
  refine noted.entriesOf_eq soundNow (fun entry same => ?_) fun entry same => ?_
  · rw [same] at rule
    obtain ⟨wanted, allowed, works⟩ := rule
    exact other allowed works
  · rw [same] at rule
    obtain ⟨wanted, allowed, session, works, bare, member, rows, listed, found, inside, number, ofSession⟩ := rule
    obtain ⟨sameSession, stands⟩ := standing _ bare member session rows listed found inside
    rw [← number, ← ofSession, sameSession]
    exact ⟨other allowed works, stands⟩

end Pools

end Session

end Dispatch
