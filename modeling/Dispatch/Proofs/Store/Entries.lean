import Dispatch.Proofs.Plan.Pool
import Dispatch.Proofs.Server.Shared
import Dispatch.Proofs.Store.Rows
/-!
The history as the store keeps it. Entries get their numbers in order and keep them: one call appends an entry, one puts
an entry in the place of the one with its number, and no other call touches the history.
-/
namespace Dispatch

namespace Moment

variable {σ : Type}

/-- The entry of the history that a moment writes. -/
def written? : Moment σ → Option History.Entry
  | ⟨_, .store (.insertEntry entry), .ok number, _⟩ => some { entry with number }
  | ⟨_, .store (.updateEntry entry), .ok _, _⟩ => some entry
  | _ => none

/-- What a moment tells of the history of the session with that key. -/
def listed? (key : String) : Moment σ → Option (List History.Entry)
  | ⟨_, .store (.entriesOf session), .ok entries, _⟩ => if session = key then some entries else none
  | _ => none

end Moment

/-- What writes nothing into the history. -/
def Request.sparesHistory : Request → Bool
  | store (.insertEntry _) | store (.updateEntry _) => false
  | _ => true

namespace Moment

variable {σ : Type} {moment : Moment σ}

theorem written?_of_spares (spares : moment.request.sparesHistory = true) : moment.written? = none := by
  obtain ⟨_, request, reply, _⟩ := moment
  cases request with
  | store call =>
    cases call with
    | insertEntry | updateEntry => cases spares
    | _ => rfl
  | _ => rfl

/-- Whoever is told of entries writes none. -/
theorem written?_of_listed {key : String} {rows : List History.Entry} (told : moment.listed? key = some rows) :
    moment.written? = none := by
  refine written?_of_spares ?_
  obtain ⟨_, request, reply, _⟩ := moment
  cases request with
  | store call =>
    cases call with
    | insertEntry | updateEntry => cases told
    | _ => rfl
  | _ => rfl

end Moment

namespace Store.Tables

/-- Entries are in the order of their numbers, none above the last number that was given. -/
structure HasSoundEntries (tables : Tables) : Prop where
  ordered : tables.entries.Pairwise fun earlier later => earlier.number < later.number
  bounded : ∀ entry ∈ tables.entries, entry.number ≤ tables.lastEntry

/-- The entry with that number. -/
def entry? (tables : Tables) (number : Nat) : Option History.Entry :=
  tables.entries.find? fun entry => entry.number == number

/-- Calls that write no entry leave the history as it is. -/
theorem answer_entries (tables : Tables) {call : Call} (spares : Request.sparesHistory (.store call) = true) :
    (tables.answer call).2.entries = tables.entries ∧ (tables.answer call).2.lastEntry = tables.lastEntry := by
  cases call with
  | insertEntry | updateEntry => cases spares
  | openTransaction | isTaken | findUser | insertLocalAccount | findLocalAccount | insertAuthAccount |
    authAccountsOf | setAuthAccounts | findSession | findSessionWithId | activeSessions | entriesOf | findJob | jobsOf |
    unfinishedJobs | findAuthSystem | authSystems => exact ⟨rfl, rfl⟩
  | commit | rollback | reserve | assign | insertUser | insertSession | insertJob | updateJob | insertAuthSystem |
    updateAuthSystem =>
    simp only [answer, commit, rollback, reserve, assign, insertUser, insertSession, insertJob, updateJob,
      insertAuthSystem, updateAuthSystem]
    split <;> exact ⟨rfl, rfl⟩
  | updateSession | touchSession | transitionJob =>
    simp only [answer, updateSession, touchSession, transitionJob]
    split
    next => exact ⟨rfl, rfl⟩
    next => split <;> exact ⟨rfl, rfl⟩

/-- What one step does to the history, and the entry that it writes. -/
inductive Notes (tables next : Tables) : Request → Option History.Entry → Prop
  | nothing {request : Request} (same : next.entries = tables.entries) (counted : next.lastEntry = tables.lastEntry) :
      Notes tables next request none
  | opens (entry : History.Entry)
      (rows : next.entries = tables.entries ++ [{ entry with number := tables.lastEntry + 1 }])
      (counted : next.lastEntry = tables.lastEntry + 1) :
      Notes tables next (.store (.insertEntry entry)) (some { entry with number := tables.lastEntry + 1 })
  | changes (entry : History.Entry)
      (rows : next.entries = tables.entries.map fun row => if row.number = entry.number then entry else row)
      (counted : next.lastEntry = tables.lastEntry) : Notes tables next (.store (.updateEntry entry)) (some entry)

theorem notes_of_serves {shared next : Shared} {request : Request} {reply : request.Reply}
    (served : shared.Serves request reply next) :
    Notes shared.tables next.tables request
      (Moment.written? { before := shared, request, reply, after := next }) := by
  cases request with
  | store call =>
    rcases Shared.serves_store served with ⟨rfl, rfl⟩ | ⟨⟨fault, rfl⟩, rfl⟩
    · cases spares : Request.sparesHistory (.store call) with
      | true =>
        have same := shared.tables.answer_entries spares
        rw [Moment.written?_of_spares spares]
        exact .nothing same.1 same.2
      | false =>
        cases call with
        | insertEntry entry => exact .opens entry rfl rfl
        | updateEntry entry =>
          simp only [answer, updateEntry]
          split
          next => exact .changes entry rfl rfl
          next => exact .nothing rfl rfl
        | _ => cases spares
    · cases call <;> exact .nothing rfl rfl
  | _ =>
    have same := served.tables_eq fun call => nofun
    rw [same]
    exact .nothing rfl rfl

/-- Entries keep their numbers. -/
theorem Notes.numbers_subset {tables next : Tables} {request : Request} {written : Option History.Entry}
    (noted : Notes tables next request written) :
    tables.entries.map History.Entry.number ⊆ next.entries.map History.Entry.number := by
  cases noted with
  | nothing same counted =>
    rw [same]
    exact List.Subset.refl _
  | opens entry rows counted =>
    rw [rows, List.map_append]
    exact List.subset_append_left _ _
  | changes entry rows counted =>
    rw [rows, map_replace History.Entry.number History.Entry.number fun _ _ same => same]
    exact List.Subset.refl _

/-- A session is told its entries as they are stored. -/
theorem listed?_of_serves {shared next : Shared} {request : Request} {reply : request.Reply} {key : String}
    {rows : List History.Entry} (served : shared.Serves request reply next)
    (told : Moment.listed? key { before := shared, request, reply, after := next } = some rows) :
    rows = shared.tables.entriesOf key := by
  cases request with
  | store call =>
    rcases Shared.serves_store served with ⟨rfl, rfl⟩ | ⟨⟨fault, rfl⟩, rfl⟩
    · cases call with
      | entriesOf session =>
        obtain ⟨rfl, listed⟩ := Option.ite_none_right_eq_some.mp told
        exact (Option.some.inj listed).symm
      | _ =>
        generalize shared.tables.answer _ = answered at told
        obtain ⟨_ | _, _⟩ := answered <;> cases told
    · cases call <;> cases told
  | _ => cases told

namespace HasSoundEntries

variable {tables next : Tables} {entry : History.Entry}

theorem notes {request : Request} {written : Option History.Entry} (sound : tables.HasSoundEntries)
    (noted : Notes tables next request written) : next.HasSoundEntries := by
  cases noted with
  | nothing same counted => exact ⟨same ▸ sound.ordered, by rw [same, counted]; exact sound.bounded⟩
  | opens entry rows counted =>
    refine ⟨?_, ?_⟩
    · rw [rows, List.pairwise_append]
      refine ⟨sound.ordered, List.pairwise_singleton _ _, fun earlier member later last => ?_⟩
      rw [List.mem_singleton.mp last]
      exact Nat.lt_succ_of_le (sound.bounded earlier member)
    · rw [rows, counted]
      intro other member
      rcases List.mem_append.mp member with earlier | last
      · exact Nat.le_succ_of_le (sound.bounded other earlier)
      · obtain rfl := List.mem_singleton.mp last
        exact Nat.le_refl _
  | changes entry rows counted =>
    have sameNumber (row : History.Entry) : (if row.number = entry.number then entry else row).number = row.number := by
      split
      next same => exact same.symm
      next => rfl
    refine ⟨?_, ?_⟩
    · rw [rows, List.pairwise_map]
      exact sound.ordered.imp fun before => by rwa [sameNumber, sameNumber]
    · rw [rows, counted]
      intro other member
      obtain ⟨row, present, rfl⟩ := List.mem_map.mp member
      rw [sameNumber]
      exact sound.bounded row present

theorem nodup (sound : tables.HasSoundEntries) : (tables.entries.map History.Entry.number).Nodup :=
  List.pairwise_map.mpr (sound.ordered.imp Nat.ne_of_lt)

/-- Every entry is the one of its number. -/
theorem entry?_of_mem (sound : tables.HasSoundEntries) (member : entry ∈ tables.entries) :
    tables.entry? entry.number = some entry := find?_key_of_mem History.Entry.number sound.nodup member

theorem eq_of_number {other : History.Entry} (sound : tables.HasSoundEntries) (member : entry ∈ tables.entries)
    (otherMember : other ∈ tables.entries) (same : entry.number = other.number) : entry = other :=
  List.inj_on_of_nodup_map sound.nodup member otherMember same

end HasSoundEntries

/-- No run disturbs the order of the entries. -/
theorem hasSoundEntries_of_runs {α : Type} {pool last : Pool Shared α} {trace : List (Moment Shared)}
    (sound : pool.state.tables.HasSoundEntries) (run : pool.Runs Shared.Serves trace last) :
    last.state.tables.HasSoundEntries := by
  induction run with
  | start => exact sound
  | step run next ih =>
    cases next with
    | reply front back rest answered => exact ih.notes (notes_of_serves answered)

end Store.Tables

end Dispatch
