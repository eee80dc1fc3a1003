import Dispatch.Proofs.Plan.Turns
import Dispatch.Proofs.Server.Footprint
import Dispatch.Proofs.Store.Entries
/-!
What an operation writes into the history. Its start writes a running entry; its end looks for the last running entry
with its description, and writes that entry with what has become of the operation. The number that the start has
answered plays no part in it.
-/
namespace Dispatch

open Plan

theorem Request.sparesHistory_of_isLookUp {request : Request} (member : request.isLookUp = true) :
    request.sparesHistory = true := by
  cases request with
  | store call =>
    cases call with
    | findSession | findUser => rfl
    | _ => cases member
  | _ => cases member

/-- What opens no entry but one of that session, of a command with that description. -/
def Request.opensFor (key description : String) : Request → Bool
  | store (.insertEntry entry) => entry.session = key && entry.description = description
  | _ => true

theorem Request.opensFor_of_spares {key description : String} {request : Request}
    (spares : request.sparesHistory = true) : request.opensFor key description = true := by
  cases request with
  | store call =>
    cases call with
    | insertEntry => cases spares
    | _ => rfl
  | _ => rfl

/-- The entries that are written in the course of a log. -/
def entriesWritten {σ : Type} (log : List (Moment σ)) : List History.Entry := log.filterMap Moment.written?

section Written

variable {σ : Type} {log more : List (Moment σ)} {moment : Moment σ}

theorem Moment.written?_bare (moment : Moment σ) : moment.bare.written? = moment.written? := by
  obtain ⟨_, request, reply, _⟩ := moment
  cases request with
  | store call =>
    cases call with
    | insertEntry | updateEntry => cases reply <;> rfl
    | _ => rfl
  | _ => rfl

theorem Moment.listed?_bare (key : String) (moment : Moment σ) : moment.bare.listed? key = moment.listed? key := by
  obtain ⟨_, request, reply, _⟩ := moment
  cases request with
  | store call =>
    cases call with
    | entriesOf => cases reply <;> rfl
    | _ => rfl
  | _ => rfl

theorem entriesWritten_append (log more : List (Moment σ)) :
    entriesWritten (log ++ more) = entriesWritten log ++ entriesWritten more := List.filterMap_append

theorem entriesWritten_snoc (log : List (Moment σ)) (moment : Moment σ) :
    entriesWritten (log ++ [moment]) = entriesWritten log ++ moment.written?.toList := by
  rw [entriesWritten_append]
  cases written : moment.written? <;> simp [entriesWritten, written]

theorem entriesWritten_eq_nil (silent : ∀ moment ∈ log, moment.written? = none) : entriesWritten log = [] :=
  List.filterMap_eq_nil_iff.mpr silent

theorem entriesWritten_adds {log longer : List (Moment Unit)} (adds : Adds Request.sparesHistory log longer) :
    entriesWritten longer = entriesWritten log := by
  obtain ⟨added, rfl, spares⟩ := adds
  have silent : entriesWritten added = [] :=
    entriesWritten_eq_nil fun moment member => Moment.written?_of_spares (spares moment member)
  rw [entriesWritten_append, silent, List.append_nil]

end Written

namespace Session

variable {log longer : List (Moment Unit)} {opened entry : History.Entry} {rows : List History.Entry} {σ : Type}

/-- After its start, and for the last time since then, an operation has been told these entries of its session. -/
def HasLooked (log : List (Moment σ)) (opened : History.Entry) (rows : List History.Entry) : Prop :=
  ∃ before look after, log = before ++ look :: after ∧ entriesWritten before = [opened] ∧
    look.listed? opened.session = some rows ∧
    ∀ moment ∈ after, moment.written? = none ∧ moment.listed? opened.session = none

theorem HasLooked.begun {log : List (Moment σ)} (looked : HasLooked log opened rows) :
    entriesWritten log = [opened] := by
  obtain ⟨before, look, after, rfl, begun, told, silent⟩ := looked
  have nothing : entriesWritten (look :: after) = [] := entriesWritten_eq_nil fun moment member => by
    rcases List.mem_cons.mp member with rfl | later
    · exact Moment.written?_of_listed told
    · exact (silent moment later).1
  rw [entriesWritten_append, begun, nothing]
  rfl

/-- An operation starts with a running entry, and ends by what it has looked up after that. -/
def bookkeeping (log : List (Moment Unit)) : Request → Prop
  | .store (.insertEntry entry) => (entriesWritten log = [] ∧ entry.isRunning = true) ∨
      ∃ opened rows, HasLooked log opened rows ∧ lastRunning? rows opened.description = none
  | .store (.updateEntry entry) => ∃ opened rows found, HasLooked log opened rows ∧
      lastRunning? rows opened.description = some found ∧
      entry = { found with status := entry.status, object := entry.object, endedAt := entry.endedAt }
  | _ => True

theorem bookkeeping_of_spares {request : Request} (spares : request.sparesHistory = true) :
    bookkeeping log request := by
  cases request with
  | store call =>
    cases call with
    | insertEntry | updateEntry => cases spares
    | _ => trivial
  | _ => trivial

/-- Whoever writes an entry has not written any, or has looked for the entry to write: it is the last one that was
running then, if there was one. -/
theorem bookkeeping_cases {moment : Moment σ} (rule : bookkeeping log moment.request)
    (writes : moment.written? = some entry) : entriesWritten log = [] ∨
      ∃ opened rows, HasLooked log opened rows ∧ ∀ found, lastRunning? rows opened.description = some found →
        entry = { found with status := entry.status, object := entry.object, endedAt := entry.endedAt } := by
  obtain ⟨_, request, reply, _⟩ := moment
  cases spares : request.sparesHistory with
  | true => cases (Moment.written?_of_spares spares).symm.trans writes
  | false =>
    cases request with
    | store call =>
      cases call with
      | insertEntry =>
        rcases rule with ⟨nothing, -⟩ | ⟨opened, rows, looked, absent⟩
        · exact .inl nothing
        · exact .inr ⟨opened, rows, looked, fun found present => nomatch absent.symm.trans present⟩
      | updateEntry changed =>
        obtain ⟨opened, rows, found, looked, present, same⟩ := rule
        cases reply with
        | error => cases writes
        | ok =>
          obtain rfl : changed = entry := Option.some.inj writes
          exact .inr ⟨opened, rows, looked, fun other also => Option.some.inj (present.symm.trans also) ▸ same⟩
      | _ => cases spares
    | _ => cases spares

/-- The first entry that is written is one that is opened. -/
theorem opened_of_first {moment : Moment σ} {key description : String} (rule : bookkeeping log moment.request)
    (nothing : entriesWritten log = []) (opens : moment.request.opensFor key description = true)
    (writes : moment.written? = some entry) : entry.session = key ∧ entry.description = description := by
  obtain ⟨_, request, reply, _⟩ := moment
  cases spares : request.sparesHistory with
  | true => cases (Moment.written?_of_spares spares).symm.trans writes
  | false =>
    cases request with
    | store call =>
      cases call with
      | insertEntry =>
        cases reply with
        | error => cases writes
        | ok =>
          obtain rfl := Option.some.inj writes
          simpa [Request.opensFor] using opens
      | updateEntry =>
        obtain ⟨_, _, _, looked, -⟩ := rule
        cases looked.begun.symm.trans nothing
      | _ => cases spares
    | _ => cases spares

theorem entriesWritten_insert (number : Nat) :
    entriesWritten ((mindful bookkeeping).learn log (.store (.insertEntry entry)) (.ok number)) =
      entriesWritten log ++ [{ entry with number }] := entriesWritten_snoc log _

theorem entriesWritten_update (done : Unit) :
    entriesWritten ((mindful bookkeeping).learn log (.store (.updateEntry entry)) (.ok done)) =
      entriesWritten log ++ [entry] := entriesWritten_snoc log _

/-- What leaves the history alone, and then the rest. -/
theorem books_after {α β : Type} {expected : α → Prop} {gives : β → List (Moment Unit) → Prop} {task : Service α}
    {rest : α → Service β} (yields : Yields Request.sparesHistory expected task)
    (next : ∀ value longer, entriesWritten longer = entriesWritten log →
      Tries (mindful bookkeeping) gives (fun _ _ => True) (rest value) longer) :
    Tries (mindful bookkeeping) gives (fun _ _ => True) (task >>= rest) log :=
  (tries_bind _ _).mpr ((yields.minds fun _ _ _ => bookkeeping_of_spares).mono
    (fun value longer known => next value longer (entriesWritten_adds known.2)) fun _ _ _ => trivial)

theorem asks_check_sparing (key : String) : Asks Request.sparesHistory (check key) := by
  have looks : Asks Request.sparesHistory (authorize key) :=
    (looksUp_authorize key).mono fun _ => Request.sparesHistory_of_isLookUp
  exact looks.bind fun _ => yields_pure trivial

/-- An entry of that session, of a command with that description, under that number. -/
structure IsEntryOf (key description : String) (category : History.Category) (number : Nat) (entry : History.Entry) :
    Prop where
  number : entry.number = number
  session : entry.session = key
  description : entry.description = description
  category : entry.category = category

theorem books_startCommand (key description : String) (category : History.Category) :
    Tries (mindful bookkeeping)
      (fun number longer => ∃ opened, entriesWritten longer = [opened] ∧
        IsEntryOf key description category number opened)
      (fun _ _ => True) (startCommand key description category) [] := by
  unfold startCommand
  refine books_after (asks_check_sparing key) fun _ log same => ?_
  refine books_after (Service.asks_ask rfl) fun now log later => ?_
  have nothing : entriesWritten log = [] := later.trans same
  refine (Service.tries_store _).mpr ⟨.inl ⟨nothing, rfl⟩, fun number _ => ?_, fun _ _ => trivial⟩
  exact ⟨_, (entriesWritten_insert number).trans (by rw [nothing, List.nil_append]), rfl, rfl, rfl, rfl⟩

/-- The end of a command that has been started writes what has become of it. -/
theorem books_record (started : entriesWritten log = [opened]) (status : History.Status) (object : Option String)
    (category : History.Category) :
    Tries (mindful bookkeeping)
      (fun _ longer => ∃ closed, entriesWritten longer = [opened, closed] ∧ closed.status = status ∧
        closed.object = object)
      (fun _ _ => True) (record opened.session opened.description category status object) log := by
  unfold record
  refine books_after (Service.asks_ask rfl) fun now log same => ?_
  refine books_after (Service.asks_store rfl) fun _ log later => ?_
  have begun : entriesWritten log = [opened] := later.trans (same.trans started)
  refine (tries_bind _ _).mpr ((Service.tries_store _).mpr ⟨trivial, fun rows _ => ?_, fun _ _ => trivial⟩)
  let longer := (mindful bookkeeping).learn log (.store (.entriesOf opened.session)) (.ok rows)
  have looked : HasLooked longer opened rows := ⟨log, _, [], rfl, begun, if_pos rfl, by simp⟩
  have still : entriesWritten longer = [opened] := (entriesWritten_snoc log _).trans (by rw [begun]; rfl)
  split
  next entry found =>
    refine (Service.tries_store _).mpr ⟨⟨opened, rows, entry, looked, found, rfl⟩, fun done _ => ?_, fun _ _ => trivial⟩
    exact ⟨_, (entriesWritten_update done).trans (congrArg (· ++ _) still), rfl, rfl⟩
  next absent =>
    refine (tries_bind _ _).mpr ((Service.tries_store _).mpr
      ⟨.inr ⟨opened, rows, looked, absent⟩, fun number _ => ?_, fun _ _ => trivial⟩)
    exact ⟨_, (entriesWritten_insert number).trans (congrArg (· ++ _) still), rfl, rfl⟩

/-- What has come of an operation, with the number that its start has answered. -/
structure Outcome where
  number : Nat
  status : History.Status
  object : Option String
  deriving DecidableEq, Repr

/-- An operation of a session between its start and its end in the history. Its work may be anything that writes
nothing into the history itself. -/
structure Undertaking where
  key : String
  description : String
  category : History.Category
  isChecked : Bool
  work : Plan (History.Status × Option String)
  spares : work.Keeps (Protocol.within Request.sparesHistory) (fun _ _ => True) ()

namespace Undertaking

variable (undertaking : Undertaking)

def service : Service Outcome := do
  let number ← startCommand undertaking.key undertaking.description undertaking.category
  let (status, object) ← ExceptT.lift undertaking.work
  if undertaking.isChecked then
    finishCommand undertaking.key undertaking.description undertaking.category status object
  else record undertaking.key undertaking.description undertaking.category status object
  return { number, status, object }

def plan : Plan (Except Failure Outcome) := undertaking.service.run

/-- What an undertaking has written once it is over. -/
structure HasEnded (outcome : Outcome) (opened closed : History.Entry) : Prop where
  own : IsEntryOf undertaking.key undertaking.description undertaking.category outcome.number opened
  status : closed.status = outcome.status
  object : closed.object = outcome.object

theorem asks_work : Asks Request.sparesHistory (ExceptT.lift undertaking.work : Service _) :=
  (keeps_bind _ _).mpr (undertaking.spares.mono fun _ _ _ => trivial)

theorem books_service :
    Tries (mindful bookkeeping)
      (fun outcome log => ∃ opened closed, entriesWritten log = [opened, closed] ∧
        undertaking.HasEnded outcome opened closed)
      (fun _ _ => True) undertaking.service [] := by
  unfold service
  refine (tries_bind _ _).mpr ((books_startCommand _ _ _).mono ?_ fun _ _ _ => trivial)
  rintro number log ⟨opened, started, isEntry⟩
  refine books_after undertaking.asks_work fun result log same => ?_
  obtain ⟨status, object⟩ := result
  have ends (log : List (Moment Unit)) (begun : entriesWritten log = [opened]) :
      Tries (mindful bookkeeping)
        (fun _ longer => ∃ opened closed, entriesWritten longer = [opened, closed] ∧
          undertaking.HasEnded { number, status, object } opened closed)
        (fun _ _ => True)
        (record undertaking.key undertaking.description undertaking.category status object) log := by
    have recorded := books_record begun status object undertaking.category
    rw [isEntry.session, isEntry.description] at recorded
    refine recorded.mono ?_ fun _ _ _ => trivial
    rintro _ longer ⟨closed, written, became, made⟩
    exact ⟨opened, closed, written, isEntry, became, made⟩
  have begun := same.trans started
  dsimp only
  split
  next =>
    refine (tries_bind _ _).mpr (books_after (asks_check_sparing _) fun _ log later => ?_)
    exact ends log (later.trans begun)
  next => exact (tries_bind _ _).mpr (ends log begun)

/-- An undertaking opens no entries but of its own session and description. -/
theorem opens_own : Asks (Request.opensFor undertaking.key undertaking.description) undertaking.service := by
  have own (entry : History.Entry) (session : entry.session = undertaking.key)
      (described : entry.description = undertaking.description) :
      Request.opensFor undertaking.key undertaking.description (.store (.insertEntry entry)) = true := by
    simp [Request.opensFor, session, described]
  have checks : Asks (Request.opensFor undertaking.key undertaking.description) (check undertaking.key) :=
    (asks_check_sparing undertaking.key).mono fun _ => Request.opensFor_of_spares
  have works : Asks (Request.opensFor undertaking.key undertaking.description)
      (ExceptT.lift undertaking.work : Service _) :=
    undertaking.asks_work.mono fun _ => Request.opensFor_of_spares
  have records (status : History.Status) (object : Option String) :
      Asks (Request.opensFor undertaking.key undertaking.description)
        (record undertaking.key undertaking.description undertaking.category status object) := by
    unfold record
    refine (Service.asks_ask rfl).bind fun now => (Service.asks_store rfl).bind fun _ =>
      (Service.asks_store rfl).bind fun entries => ?_
    split
    next => exact Service.asks_store rfl
    next => exact (Service.asks_store (own _ rfl rfl)).bind fun _ => yields_pure trivial
  have starts : Asks (Request.opensFor undertaking.key undertaking.description)
      (startCommand undertaking.key undertaking.description undertaking.category) :=
    checks.bind fun _ => (Service.asks_ask rfl).bind fun _ => Service.asks_store (own _ rfl rfl)
  unfold service
  refine starts.bind fun number => works.bind fun result => ?_
  dsimp only
  split
  next => exact (checks.bind fun _ => records _ _).bind fun _ _ => yields_pure trivial
  next => exact (records _ _).bind fun _ => yields_pure trivial

/-- A command between its start and its end in the history, as `within` has it. -/
def ofCommand {α : Type} (key description : String) (category : History.Category) (object : α → Option String)
    (command : Service α) (spares : Asks Request.sparesHistory command) : Undertaking where
  key
  description
  category
  isChecked := false
  work := do
    let result ← command.run
    return (.ofResult result, result.toOption.bind object)
  spares := (keeps_bind _ _).mpr (Keeps.mono spares fun _ _ _ => trivial)

/-- It differs from the undertaking only in what it answers its caller. -/
theorem within_eq {α : Type} (key description : String) (category : History.Category) (object : α → Option String)
    (command : Service α) (spares : Asks Request.sparesHistory command) :
    ((within key description category object command).run >>= fun _ => pure ()) =
      (ofCommand key description category object command spares).plan >>= fun _ => pure () := by
  unfold within plan service ofCommand
  simp only [ExceptT.run_bind, LawfulMonad.bind_assoc]
  apply bind_congr
  intro started
  cases started with
  | error cause => rfl
  | ok number =>
    simp only [Service.attempt, ExceptT.run_lift, LawfulMonad.bind_assoc, pure_bind, map_eq_pure_bind,
      Bool.false_eq_true, if_false, ExceptT.run_bind]
    apply bind_congr
    intro result
    apply bind_congr
    intro recorded
    cases recorded with
    | error cause => rfl
    | ok _ => cases result <;> rfl

end Undertaking

end Session

end Dispatch
