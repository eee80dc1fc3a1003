import Dispatch.Proofs.Plan.Amid
import Dispatch.Proofs.Session.Refusal
import Dispatch.Proofs.Session.Table
import Dispatch.Proofs.Store.Entries
/-!
What stays, whoever else is at work. No call takes the row of a session or the number of an entry away; so whoever has
passed the gate can note the end of a command at any time after that, on a server whose store does not fail.
-/
namespace Dispatch

open Plan

namespace Shared

variable {before middle after : Shared} {request : Request} {reply : request.Reply}

/-- Sessions stay where they are, and so do entries of the history under their numbers. -/
structure KeepsRows (before after : Shared) : Prop where
  sessions : ∀ key, (before.tables.session? key).isSome = true → (after.tables.session? key).isSome = true
  entries : before.tables.entries.map History.Entry.number ⊆ after.tables.entries.map History.Entry.number

theorem KeepsRows.refl (shared : Shared) : shared.KeepsRows shared := ⟨fun _ known => known, List.Subset.refl _⟩

theorem KeepsRows.trans (first : before.KeepsRows middle) (second : middle.KeepsRows after) : before.KeepsRows after :=
  ⟨fun key known => second.sessions key (first.sessions key known), List.Subset.trans first.entries second.entries⟩

theorem Serves.keepsRows (served : before.Serves request reply after) : before.KeepsRows after := by
  refine ⟨fun key known => ?_, (Store.Tables.notes_of_serves served).numbers_subset⟩
  cases request with
  | store call =>
    rcases serves_store served with ⟨_, rfl⟩ | ⟨_, rfl⟩
    · exact Store.Tables.isSome_session?_answer known call
    · exact known
  | _ => rwa [served.tables_eq fun _ => nofun]

/-- A server whose store does not fail, where others come in between. -/
abbrev amongOthers : Setting Shared := Setting.amid KeepsRows Shared.Answers

end Shared

/-- What the gate, or the one who looks a job up for its owner, says to someone who is refused. -/
def Failure.isRefusal : Failure → Bool
  | sessionNotFound | sessionExpired | unknownUser _ | userLocked _ | temporaryPassword _ | unknownJob _ |
    permissionDenied _ => true
  | _ => false

theorem User.isRefusal_of_validate {user : User} {cause : Failure} (refused : user.validate = .error cause) :
    cause.isRefusal = true := by
  unfold User.validate at refused
  split at refused
  next => cases refused; rfl
  next =>
    split at refused
    next => cases refused; rfl
    next => cases refused

theorem Job.isRefusal_of_requireOwner {caller : Caller} {job : Job} {purpose : String} {cause : Failure}
    (refused : Job.requireOwner caller job purpose = .error cause) : cause.isRefusal = true := by
  unfold Job.requireOwner at refused
  split at refused
  next => cases refused
  next => cases refused; rfl

namespace Session

/-- An entry that is listed can be changed as long as its number stays. -/
theorem updateEntry_ok {tables later : Store.Tables} {key description : String} {entry : History.Entry}
    (found : lastRunning? (tables.entriesOf key) description = some entry)
    (kept : tables.entries.map History.Entry.number ⊆ later.entries.map History.Entry.number) (changed : History.Entry)
    (same : changed.number = entry.number) : (later.updateEntry changed).1 = .ok () := by
  have listed : entry ∈ tables.entriesOf key := List.mem_reverse.mp (List.mem_of_find?_eq_some found)
  have present : (later.entries.any fun row => row.number == changed.number) = true := by
    obtain ⟨row, stored, number⟩ := List.mem_map.mp (kept (List.mem_map_of_mem (List.mem_filter.mp listed).1))
    exact List.any_eq_true.mpr ⟨row, stored, by simp [number, same]⟩
  unfold Store.Tables.updateEntry
  rw [if_pos present]

theorem touchSession_ok {tables : Store.Tables} {key : String} (known : (tables.session? key).isSome = true)
    (now : Instant) : ∃ touched, (tables.touchSession key now).1 = .ok touched := by
  obtain ⟨row, found⟩ := Option.isSome_iff_exists.mp known
  unfold Store.Tables.touchSession
  rw [found]
  dsimp only
  split
  next => exact ⟨true, rfl⟩
  next => exact ⟨false, rfl⟩

section Among

variable {setting : Setting Shared} {state : Shared} {key : String}
  (faithful : ∀ {state next : Shared} {request : Request} {reply : request.Reply}, setting state request reply next →
    Shared.amongOthers state request reply next)
include faithful

/-- Whoever passes the gate has a session, and nobody is turned away but by a refusal. -/
theorem ensures_gate : Ensures setting (fun _ last => (last.tables.session? key).isSome = true)
    (fun cause _ => cause.isRefusal = true) (authorize key) state := by
  unfold authorize load
  rw [ensures_bind, ensures_bind, Service.ensures_store]
  refine ⟨fun found middle answered => ?_, fun fault middle answered => ?_⟩
  · obtain ⟨between, -, told, rfl⟩ := faithful answered
    cases found with
    | none => exact (ensures_throw _).mpr rfl
    | some session =>
      have known : (between.tables.session? key).isSome = true := by
        rw [← Except.ok.inj told, Option.isSome_some]
      refine (ensures_pure session).mpr (ensures_guard.mpr ⟨fun _ => rfl, fun _ => ?_⟩)
      rw [ensures_bind, Service.ensures_store]
      refine ⟨fun user last answered => ?_, fun fault last answered => ?_⟩
      · obtain ⟨after, moved, -, rfl⟩ := faithful answered
        cases user with
        | none => exact (ensures_throw _).mpr rfl
        | some user =>
          rw [ensures_bind, Service.ensures_ofExcept]
          exact ⟨fun _ _ => (ensures_pure _).mpr (moved.sessions key known), fun _ => User.isRefusal_of_validate⟩
      · obtain ⟨_, _, told, _⟩ := faithful answered
        cases told
  · obtain ⟨_, _, told, _⟩ := faithful answered
    cases told

/-- The end of a command is noted for everyone who has a session. -/
theorem ensures_record_among (known : (state.tables.session? key).isSome = true) (description : String)
    (category : History.Category) (status : History.Status) (object : Option String) :
    Ensures setting (fun _ _ => True) (fun _ _ => False) (record key description category status object) state := by
  unfold record
  rw [ensures_bind, Service.ensures_ask]
  intro now asked answered
  obtain ⟨_, moved, told⟩ := faithful answered
  have knownThen := (moved.trans (Shared.Serves.keepsRows (.inl told))).sessions key known
  rw [ensures_bind, Service.ensures_store]
  refine ⟨fun touched middle _ => ?_, fun fault middle answered => ?_⟩
  · rw [ensures_bind, Service.ensures_store]
    refine ⟨fun entries looked answered => ?_, fun fault looked answered => ?_⟩
    · obtain ⟨between, -, told, rfl⟩ := faithful answered
      obtain rfl := Except.ok.inj told
      split
      next entry found =>
        refine (Service.ensures_store (.updateEntry _)).mpr ⟨fun _ _ _ => trivial, fun fault last answered => ?_⟩
        obtain ⟨_, moved, told, -⟩ := faithful answered
        cases told.trans (updateEntry_ok found moved.entries { entry with status, object, endedAt := some now } rfl)
      next =>
        rw [ensures_bind, Service.ensures_store]
        refine ⟨fun _ _ _ => (ensures_pure _).mpr trivial, fun fault last answered => ?_⟩
        obtain ⟨_, _, told, _⟩ := faithful answered
        cases told
    · obtain ⟨_, _, told, _⟩ := faithful answered
      cases told
  · obtain ⟨_, moved, told, -⟩ := faithful answered
    obtain ⟨touched, same⟩ := touchSession_ok (moved.sessions key knownThen) now
    cases told.trans same

end Among

end Session

end Dispatch
