import Dispatch.Proofs.Plan.Amid
import Dispatch.Proofs.Session.Company
import Dispatch.Proofs.Session.History
/-!
What an operation on jobs leaves in the history of its session. As long as no other operation of the session is under
way, the last running entry with its description is the one that its own start has written, whatever else is running;
so its end closes that entry, and the history has grown by one entry that tells what came of the operation.
-/
namespace Dispatch

open Plan

/-- The entries of the sessions that are chosen. -/
def Store.Tables.entriesAmong (tables : Store.Tables) (chosen : String → Bool) : List History.Entry :=
  tables.entries.filter fun entry => chosen entry.session

/-- What an entry tells of an operation of a session that is over with this result. -/
structure History.Entry.IsOutcome {α : Type} (entry : History.Entry) (key : String) (result : Except Failure α)
    (made : Option String) : Prop where
  session : entry.session = key
  finished : entry.isRunning = false
  ended : entry.endedAt.isSome = true
  succeeded : entry.status = .success ↔ ∃ value, result = .ok value
  object : entry.object = made

namespace Shared

variable {chosen : String → Bool} {key : String} {before middle after : Shared} {request : Request}
  {reply : request.Reply}

/-- The history of the chosen sessions is left alone. -/
structure LeavesAlone (chosen : String → Bool) (before after : Shared) : Prop where
  entries : after.tables.entriesAmong chosen = before.tables.entriesAmong chosen
  sound : before.tables.HasSoundEntries → after.tables.HasSoundEntries
  rows : before.KeepsRows after

theorem LeavesAlone.refl (shared : Shared) : LeavesAlone chosen shared shared := ⟨rfl, id, .refl shared⟩

theorem LeavesAlone.trans (first : LeavesAlone chosen before middle) (second : LeavesAlone chosen middle after) :
    LeavesAlone chosen before after :=
  ⟨second.entries.trans first.entries, fun sound => second.sound (first.sound sound), first.rows.trans second.rows⟩

theorem LeavesAlone.of_answers (answered : before.Answers request reply after) (spares : request.sparesHistory = true) :
    LeavesAlone chosen before after := by
  have noted := Store.Tables.notes_of_serves (.inl answered)
  refine ⟨?_, fun sound => sound.notes noted, Serves.keepsRows (.inl answered)⟩
  rw [Moment.written?_of_spares spares] at noted
  cases noted with
  | nothing same counted => rw [Store.Tables.entriesAmong, same, Store.Tables.entriesAmong]

/-- A server where others come in between, who leave that history alone. -/
abbrev besides (chosen : String → Bool) : Setting Shared := Setting.amid (LeavesAlone chosen) Shared.Answers

theorem amongOthers_of_besides (answered : besides chosen before request reply after) :
    before.amongOthers request reply after := by
  obtain ⟨middle, moved, told⟩ := answered
  exact ⟨middle, moved.rows, told⟩

/-- The history of the chosen sessions has gained one entry, which tells of that result. -/
def Gains {α : Type} (chosen : String → Bool) (key : String) (before : Shared) (result : Except Failure α)
    (made : Option String) (after : Shared) : Prop :=
  ∃ entry : History.Entry, after.tables.entriesAmong chosen = before.tables.entriesAmong chosen ++ [entry] ∧
    entry.IsOutcome key result made

theorem Gains.after_alone {α : Type} {result : Except Failure α} {made : Option String}
    (gains : Gains chosen key middle result made after) (alone : LeavesAlone chosen before middle) :
    Gains chosen key before result made after := by
  obtain ⟨entry, rows, tells⟩ := gains
  exact ⟨entry, by rw [rows, alone.entries], tells⟩

theorem Gains.then_alone {α : Type} {result : Except Failure α} {made : Option String}
    (gains : Gains chosen key before result made middle) (alone : LeavesAlone chosen middle after) :
    Gains chosen key before result made after := by
  obtain ⟨entry, rows, tells⟩ := gains
  exact ⟨entry, alone.entries.trans rows, tells⟩

end Shared

namespace Session

/-- An operation of a session is under way, and the history of the chosen sessions has gained its running entry. -/
structure HasBegun (chosen : String → Bool) (key description : String) (before : Shared) (opened : History.Entry)
    (now : Shared) : Prop where
  sound : now.tables.HasSoundEntries
  known : (now.tables.session? key).isSome = true
  rows : now.tables.entriesAmong chosen = before.tables.entriesAmong chosen ++ [opened]
  running : opened.isRunning = true
  session : opened.session = key
  described : opened.description = description

namespace HasBegun

variable {chosen : String → Bool} {key description : String} {before now next : Shared} {opened : History.Entry}

theorem later (begun : HasBegun chosen key description before opened now)
    (alone : Shared.LeavesAlone chosen now next) : HasBegun chosen key description before opened next :=
  { begun with
    sound := alone.sound begun.sound
    known := alone.rows.sessions key begun.known
    rows := alone.entries.trans begun.rows }

/-- Whatever else is running, the entry of the operation is found by its description. -/
theorem lastRunning (begun : HasBegun chosen key description before opened now) (picked : chosen key = true) :
    lastRunning? (now.tables.entriesOf key) description = some opened := by
  have ofSession : now.tables.entriesOf key =
      (now.tables.entriesAmong chosen).filter fun entry => entry.session == key := by
    unfold Store.Tables.entriesOf Store.Tables.entriesAmong
    rw [List.filter_filter]
    refine List.filter_congr fun entry _ => ?_
    by_cases own : entry.session = key
    · simp [own, picked]
    · simp [own]
  rw [lastRunning?, ofSession, begun.rows, List.filter_append, List.filter_singleton, begun.session, beq_self_eq_true,
    cond_true, List.reverse_append]
  simp [begun.running, begun.described]

/-- Entries before that of the operation have other numbers. -/
theorem number_lt (begun : HasBegun chosen key description before opened now) {entry : History.Entry}
    (member : entry ∈ before.tables.entriesAmong chosen) : entry.number < opened.number := by
  have ordered : (now.tables.entriesAmong chosen).Pairwise fun earlier later => earlier.number < later.number :=
    begun.sound.ordered.filter _
  rw [begun.rows, List.pairwise_append] at ordered
  exact ordered.2.2 entry member opened (List.mem_singleton_self opened)

theorem stored (begun : HasBegun chosen key description before opened now) : opened ∈ now.tables.entries := by
  have listed : opened ∈ now.tables.entriesAmong chosen :=
    begun.rows ▸ List.mem_append_right _ (List.mem_singleton_self _)
  exact (List.mem_filter.mp listed).1

/-- What is written in the place of the entry of the operation is in the place of no other. -/
theorem rows_updateEntry (begun : HasBegun chosen key description before opened now) {closed : History.Entry}
    (number : closed.number = opened.number) (session : closed.session = opened.session) :
    (now.tables.updateEntry closed).2.entriesAmong chosen = before.tables.entriesAmong chosen ++ [closed] := by
  have present : (now.tables.entries.any fun row => row.number == closed.number) = true :=
    List.any_eq_true.mpr ⟨opened, begun.stored, by simp [number]⟩
  let replace (row : History.Entry) : History.Entry := if row.number = closed.number then closed else row
  have written : (now.tables.updateEntry closed).2.entries = now.tables.entries.map replace := by
    unfold Store.Tables.updateEntry
    rw [if_pos present]
  have sameSession : ∀ row ∈ now.tables.entries, (replace row).session = row.session := by
    intro row member
    by_cases own : row.number = closed.number
    · obtain rfl := begun.sound.eq_of_number member begun.stored (own.trans number)
      rw [show replace row = closed from if_pos own, session]
    · rw [show replace row = row from if_neg own]
  have others : ∀ row ∈ before.tables.entriesAmong chosen, replace row = row := fun row member =>
    if_neg (number ▸ Nat.ne_of_lt (begun.number_lt member))
  calc (now.tables.updateEntry closed).2.entriesAmong chosen
      = (now.tables.entries.map replace).filter fun row => chosen row.session := by
        rw [Store.Tables.entriesAmong, written]
    _ = (now.tables.entriesAmong chosen).map replace := by
        rw [List.filter_map, Store.Tables.entriesAmong]
        exact congrArg (List.map replace) (List.filter_congr fun row member => congrArg chosen (sameSession row member))
    _ = before.tables.entriesAmong chosen ++ [closed] := by
        rw [begun.rows, List.map_append, List.map_congr_left others, List.map_id', List.map_singleton,
          show replace opened = closed from if_pos number.symm]

end HasBegun

section Steps

variable {setting : Setting Shared} {chosen : String → Bool} {key : String} {start state : Shared} {α : Type}
  (faithful : ∀ {state next : Shared} {request : Request} {reply : request.Reply}, setting state request reply next →
    Shared.besides chosen state request reply next)
include faithful

/-- What writes nothing into the history leaves it alone. -/
theorem preserves_alone {service : Service α} (spares : Asks Request.sparesHistory service) (start : Shared) :
    Preserves setting (Shared.LeavesAlone chosen start) service :=
  Yields.preserves spares fun member answered alone => by
    obtain ⟨middle, moved, told⟩ := faithful answered
    exact alone.trans (moved.trans (.of_answers told member))

theorem ensures_authorize_alone : Ensures setting
    (fun _ last => Shared.LeavesAlone chosen state last ∧ (last.tables.session? key).isSome = true)
    (fun cause last => Shared.LeavesAlone chosen state last ∧ cause.isRefusal = true) (authorize key) state :=
  ((preserves_alone faithful (works_authorize key).spares state) state (.refl state)).and
    (ensures_gate fun answered => Shared.amongOthers_of_besides (faithful answered))

theorem ensures_check_alone : Ensures setting
    (fun _ last => Shared.LeavesAlone chosen state last ∧ (last.tables.session? key).isSome = true)
    (fun cause last => Shared.LeavesAlone chosen state last ∧ cause.isRefusal = true) (check key) state := by
  unfold check
  rw [ensures_bind]
  exact (ensures_authorize_alone faithful).mono (fun caller last known => (ensures_pure _).mpr known) fun _ _ known =>
    known

/-- Whoever looks up a job for its owner leaves the history alone. -/
theorem ensures_asOwner_alone (id purpose : String) : Ensures setting
    (fun _ last => Shared.LeavesAlone chosen state last)
    (fun cause last => Shared.LeavesAlone chosen state last ∧ cause.isRefusal = true) (asOwner key id purpose)
    state := by
  have loads (middle : Shared) : Ensures setting (fun _ _ => True) (fun cause _ => cause.isRefusal = true)
      (Job.load id) middle := by
    unfold Job.load
    rw [ensures_bind, Service.ensures_store]
    refine ⟨fun found next _ => ?_, fun fault next answered => ?_⟩
    · cases found with
      | none => exact (ensures_throw _).mpr rfl
      | some job => exact (ensures_pure job).mpr trivial
    · obtain ⟨_, _, told, _⟩ := faithful answered
      cases told
  unfold asOwner
  rw [ensures_bind]
  refine (ensures_authorize_alone faithful).mono (fun caller middle known => ?_) fun _ _ known => known
  rw [ensures_bind]
  refine ((preserves_alone faithful (Job.works_load id).spares state middle known.1).and (loads middle)).mono
    (fun job later known => ?_) fun _ _ known => known
  rw [ensures_bind, Service.ensures_ofExcept]
  exact ⟨fun _ _ => (ensures_pure job).mpr known.1, fun cause told => ⟨known.1, Job.isRefusal_of_requireOwner told⟩⟩

/-- Whoever passes the check has begun. -/
theorem ensures_startCommand_begun (sound : state.tables.HasSoundEntries) (picked : chosen key = true)
    (description : String) (category : History.Category) :
    Ensures setting (fun _ last => ∃ opened, HasBegun chosen key description state opened last)
      (fun cause last => Finishes setting (check key) state (.error cause) last)
      (startCommand key description category) state := by
  unfold startCommand
  rw [ensures_bind]
  refine (ensures_check_alone faithful).ran.mono (fun _ passed known => ?_) fun _ _ refused => refused.2
  obtain ⟨⟨alone, known⟩, -⟩ := known
  rw [ensures_bind, Service.ensures_ask]
  intro now read answered
  obtain ⟨asked, movedOn, told⟩ := faithful answered
  have untilRead := alone.trans (movedOn.trans (.of_answers told rfl))
  have knownThen := (movedOn.trans (.of_answers told rfl)).rows.sessions key known
  refine (Service.ensures_store (.insertEntry _)).mpr ⟨fun number last answered => ?_, fun fault last answered => ?_⟩
  · obtain ⟨before, moved, told, rfl⟩ := faithful answered
    have untilThen := untilRead.trans moved
    let opened : History.Entry := {
      number := before.tables.lastEntry + 1, session := key, description, category, status := .running, object := none,
      startedAt := now, endedAt := none }
    refine ⟨opened, ⟨(untilThen.sound sound).notes (.opens _ rfl rfl), moved.rows.sessions key knownThen, ?_, rfl, rfl,
      rfl⟩⟩
    change List.filter _ (before.tables.entries ++ [opened]) = _
    rw [List.filter_append, List.filter_singleton, picked, cond_true]
    exact congrArg (· ++ [opened]) untilThen.entries
  · obtain ⟨_, _, told, _⟩ := faithful answered
    cases told

/-- The end of an operation closes the entry of its start, and always does. -/
theorem ensures_record_ended {description : String} {before : Shared} {opened : History.Entry}
    (begun : HasBegun chosen key description before opened state) (picked : chosen key = true)
    (category : History.Category) (status : History.Status) (object : Option String) :
    Ensures setting (fun _ last => ∃ now, last.tables.entriesAmong chosen =
        before.tables.entriesAmong chosen ++ [{ opened with status, object, endedAt := some now }])
      (fun _ _ => False) (record key description category status object) state := by
  have succeeds : Ensures setting (fun _ _ => True) (fun _ _ => False)
      (record key description category status object) state :=
    ensures_record_among (fun answered => Shared.amongOthers_of_besides (faithful answered)) begun.known _ _ _ _
  have closes : Ensures setting (fun _ last => ∃ now, last.tables.entriesAmong chosen =
        before.tables.entriesAmong chosen ++ [{ opened with status, object, endedAt := some now }])
      (fun _ _ => True) (record key description category status object) state := by
    unfold record
    rw [ensures_bind, Service.ensures_ask]
    intro now read answered
    obtain ⟨_, moved, told⟩ := faithful answered
    have begunThen := begun.later (moved.trans (.of_answers told rfl))
    rw [ensures_bind, Service.ensures_store]
    refine ⟨fun touched next answered => ?_, fun _ _ _ => trivial⟩
    obtain ⟨_, moved, told⟩ := faithful answered
    have begunThen := begunThen.later (moved.trans (.of_answers told rfl))
    rw [ensures_bind, Service.ensures_store]
    refine ⟨fun entries looked answered => ?_, fun _ _ _ => trivial⟩
    obtain ⟨_, moved, told, rfl⟩ := faithful answered
    have begunThen := begunThen.later moved
    obtain rfl := Except.ok.inj told
    rw [begunThen.lastRunning picked]
    refine (Service.ensures_store (.updateEntry _)).mpr ⟨fun _ last answered => ?_, fun _ _ _ => trivial⟩
    obtain ⟨_, moved, -, rfl⟩ := faithful answered
    exact ⟨now, (begunThen.later moved).rows_updateEntry rfl rfl⟩
  exact (closes.and succeeds).mono (fun _ _ known => known.1) fun _ _ known => known.2

/-- What comes of an operation that has begun is what its entry tells in the end. -/
theorem ensures_record_gains {description : String} {before : Shared} {opened : History.Entry}
    (begun : HasBegun chosen key description before opened state) (picked : chosen key = true)
    (category : History.Category) (result : Except Failure α) (made : Option String) :
    Ensures setting (fun _ last => Shared.Gains chosen key before result made last) (fun _ _ => False)
      (record key description category (History.Status.ofResult result) made) state := by
  refine (ensures_record_ended faithful begun picked category _ _).mono (fun _ last rows => ?_) fun _ _ never => never
  obtain ⟨now, rows⟩ := rows
  refine ⟨_, rows, begun.session, ?_, rfl, ?_, rfl⟩
  · cases result with
    | ok value => rfl
    | error cause => rfl
  · cases result with
    | ok value => exact ⟨fun _ => ⟨value, rfl⟩, fun _ => rfl⟩
    | error cause => exact ⟨fun told => (nomatch told), fun ⟨_, same⟩ => (nomatch same)⟩

/-- A command between its start and its end: it has not begun and its caller was refused once more, or the history
tells what has come of it. -/
theorem ensures_within_gains {command : Service α} (spares : Asks Request.sparesHistory command)
    (sound : state.tables.HasSoundEntries) (picked : chosen key = true) (description : String)
    (category : History.Category) (object : α → Option String) :
    Ensures setting
      (fun value last => Shared.Gains chosen key state (.ok value : Except Failure α) (object value) last)
      (fun cause last => Finishes setting (check key) state (.error cause) last ∨
        Shared.Gains chosen key state (.error cause : Except Failure α) none last)
      (within key description category object command) state := by
  refine ensures_within_parts object ((ensures_startCommand_begun faithful sound picked description category).mono
    (fun _ _ begun => begun) fun _ _ refused => .inl refused) fun middle known => ?_
  obtain ⟨opened, begun⟩ := known
  have worked := preserves_alone faithful spares middle middle (.refl middle)
  refine worked.mono (fun value done alone => ?_) fun cause done alone => ?_
  · exact (ensures_record_gains faithful (begun.later alone) picked category (.ok value : Except Failure α) _).mono
      (fun _ _ gains => gains) fun _ _ never => never.elim
  · exact (ensures_record_gains faithful (begun.later alone) picked category (.error cause : Except Failure α) _).mono
      (fun _ _ gains => .inr gains) fun _ _ never => never.elim

/-- Retrieving the output of all jobs of someone is a command that always succeeds once it has begun. -/
theorem ensures_outputs_gains (sound : state.tables.HasSoundEntries) (picked : chosen key = true) (owner : String) :
    Ensures setting
      (fun found last => Shared.Gains chosen key state (.ok found : Except Failure (List Job.Output)) none last)
      (fun cause last => Finishes setting (check key) state (.error cause) last)
      (do
        let _ ← startCommand key Job.outputsCommand .files
        let jobs ← Service.store (.jobsOf owner)
        let found ← Job.retrieveAll (jobs.filter Job.hasFiles)
        record key Job.outputsCommand .files .success none
        return found) state := by
  have retrieves (jobs : List Job) (middle : Shared) :
      Ensures setting (fun _ _ => True) (fun _ _ => False) (Job.retrieveAll jobs) middle := by
    induction jobs generalizing middle with
    | nil => exact (ensures_pure _).mpr trivial
    | cons job rest ih =>
      have all (middle : Shared) (result : Except Failure Job.Output) : Ensures setting (fun _ _ => True)
          (fun _ _ => False) (do return result.toOption.toList ++ (← Job.retrieveAll rest)) middle :=
        (ensures_bind _ _).mpr ((ih middle).mono (fun _ _ _ => (ensures_pure _).mpr trivial) fun _ _ never => never)
      unfold Job.retrieveAll
      rw [ensures_bind, Service.ensures_attempt]
      exact (preserves_alone faithful job.works_retrieve.spares middle middle (.refl middle)).mono
        (fun output last _ => all last (.ok output)) fun cause last _ => all last (.error cause)
  rw [ensures_bind]
  refine (ensures_startCommand_begun faithful sound picked _ _).mono (fun _ middle known => ?_) fun _ _ refused =>
    refused
  obtain ⟨opened, begun⟩ := known
  rw [ensures_bind, Service.ensures_store]
  refine ⟨fun jobs looked answered => ?_, fun fault looked answered => ?_⟩
  · obtain ⟨_, moved, told⟩ := faithful answered
    have begunThen := begun.later (moved.trans (.of_answers told rfl))
    rw [ensures_bind]
    refine ((preserves_alone faithful (Job.works_retrieveAll _).spares looked looked (.refl looked)).and
      (retrieves _ looked)).mono (fun found done known => ?_) fun _ _ never => never.2.elim
    rw [ensures_bind]
    exact (ensures_record_gains faithful (begunThen.later known.1) picked .files
      (.ok found : Except Failure _) none).mono
      (fun _ _ gains => (ensures_pure found).mpr gains) fun _ _ never => never.elim
  · obtain ⟨_, _, told, _⟩ := faithful answered
    cases told

end Steps

namespace Operation

/-- The operations on jobs that are noted in the history. -/
def isCommand : Operation → Bool
  | submit .. | cancel _ | output _ | outputs => true
  | _ => false

/-- The identifier of the job that an operation has made, if it has made one. -/
def made? : (operation : Operation) → Except Failure operation.Answer → Option String
  | submit .., .ok job => some job.id
  | _, _ => none

/-- Whether an operation may come to this result without having begun: its caller was refused, or the job that was to
be cancelled had ended. -/
def isUnbegun : (operation : Operation) → Except Failure operation.Answer → Bool
  | _, .error cause => cause.isRefusal
  | cancel _, .ok _ => true
  | _, .ok _ => false

theorem made?_error (operation : Operation) (cause : Failure) : operation.made? (.error cause) = none := by
  cases operation <;> rfl

/-- What becomes of the history: it is as it was and the operation has not begun, or it has gained the entry that tells
of the result. -/
def IsSettled (operation : Operation) (chosen : String → Bool) (key : String) (before : Shared)
    (result : Except Failure operation.Answer) (after : Shared) : Prop :=
  (after.tables.entriesAmong chosen = before.tables.entriesAmong chosen ∧ operation.isUnbegun result = true) ∨
    Shared.Gains chosen key before result (operation.made? result) after

section Steps

variable {setting : Setting Shared} {chosen : String → Bool} {key : String} {start state : Shared}
  {operation : Operation}
  (faithful : ∀ {state next : Shared} {request : Request} {reply : request.Reply}, setting state request reply next →
    Shared.besides chosen state request reply next)

include faithful in
/-- Once the gate has been passed, an operation is settled by what it does then. -/
theorem settles_rest {rest : Service operation.Answer} (alone : Shared.LeavesAlone chosen start state)
    (gains : Ensures setting
      (fun value last => Shared.Gains chosen key state (.ok value) (operation.made? (.ok value)) last)
      (fun cause last => Finishes setting (check key) state (.error cause) last ∨
        Shared.Gains chosen key state (.error cause : Except Failure operation.Answer) none last) rest state) :
    Ensures setting (fun value last => operation.IsSettled chosen key start (.ok value) last)
      (fun cause last => operation.IsSettled chosen key start (.error cause) last) rest state := by
  refine gains.mono (fun value last gains => .inr (gains.after_alone alone)) fun cause last ended => ?_
  rcases ended with refused | gains
  · obtain ⟨alone', refusal⟩ := ensures_check_alone faithful _ _ refused
    exact .inl ⟨(alone.trans alone').entries, by unfold isUnbegun; exact refusal⟩
  · exact .inr (operation.made?_error cause ▸ gains.after_alone alone)

include faithful in
/-- An operation is settled, whatever else goes on beside the session. -/
theorem settles (isCommand : operation.isCommand = true) (sound : start.tables.HasSoundEntries)
    (picked : chosen key = true) :
    Ensures setting (fun value last => operation.IsSettled chosen key start (.ok value) last)
      (fun cause last => operation.IsSettled chosen key start (.error cause) last) (operation.service key) start := by
  have unbegun (cause : Failure) (last : Shared) (alone : Shared.LeavesAlone chosen start last)
      (refusal : cause.isRefusal = true) : operation.IsSettled chosen key start (.error cause) last :=
    .inl ⟨alone.entries, by unfold isUnbegun; exact refusal⟩
  cases operation with
  | submit mint machine script options =>
    refine (ensures_bind _ _).mpr ((ensures_authorize_alone faithful).mono (fun caller passed known => ?_)
      fun cause last known => unbegun cause last known.1 known.2)
    exact settles_rest faithful known.1 (ensures_within_gains faithful
      (Job.works_submitFor mint caller machine script options).spares (known.1.sound sound) picked _ _ _)
  | cancel id =>
    rw [service, cancel_eq, ensures_bind]
    refine (ensures_asOwner_alone faithful id "cancel").mono (fun job middle alone => ?_) fun cause last known =>
      unbegun cause last known.1 known.2
    split
    next => exact (ensures_pure ()).mpr (.inl ⟨alone.entries, rfl⟩)
    next =>
      exact settles_rest faithful alone (ensures_within_gains faithful job.works_cancelAtPlace.spares
        (alone.sound sound)
        picked _ _ _)
  | output id =>
    rw [service, output_eq, ensures_bind]
    refine (ensures_asOwner_alone faithful id _).mono (fun job middle alone => ?_) fun cause last known =>
      unbegun cause last known.1 known.2
    exact settles_rest faithful alone
      (ensures_within_gains faithful job.works_retrieve.spares (alone.sound sound) picked _ _ _)
  | outputs =>
    refine (ensures_bind _ _).mpr ((ensures_authorize_alone faithful).mono (fun caller passed known => ?_)
      fun cause last known => unbegun cause last known.1 known.2)
    exact settles_rest faithful known.1 ((ensures_outputs_gains faithful (known.1.sound sound) picked
      caller.user.id).mono (fun _ _ gains => gains) fun _ _ refused => .inl refused)
  | _ => cases isCommand

end Steps

/-- The operation, and then what it has come to. -/
def report (operation : Operation) (key : String) : Plan (Option (Except Failure operation.Answer)) := do
  return some (← (operation.service key).run)

end Operation

section Pools

variable {operation : Operation} {key : String} {defaults : SessionDefaults} {start : Shared} {others : List Activity}
  {turns : List (Dispatch.Turn Shared)} {last : Pool Shared (Option (Except Failure operation.Answer))}

/-- Whoever works with other keys leaves the history of the session alone. -/
theorem leavesAlone_of_apart (sound : start.tables.HasSoundEntries)
    (apart : ∀ activity ∈ others, activity.key? ≠ some key)
    (played : Pool.Plays Shared.Serves
      { state := start, plans := operation.report key :: others.map (Activity.plan defaults _) } turns last)
    {turn : Dispatch.Turn Shared} (member : turn ∈ turns) (elsewhere : turn.place ≠ 0) :
    Shared.LeavesAlone (· == key) turn.moment.before turn.moment.after := by
  obtain ⟨front, back, rfl⟩ := List.append_of_mem member
  obtain ⟨middle, next, run, moves⟩ := played.split
  have minded : ∀ plan ∈ operation.report key :: others.map (Activity.plan defaults _),
      plan.Keeps (mindful (scribing fun _ => True)) (fun _ _ => True) [] := by
    intro plan member
    rcases List.mem_cons.mp member with rfl | other
    · exact (keeps_bind _ _).mpr (Keeps.mono (scribes_service operation trivial) fun _ _ _ => trivial)
    · obtain ⟨activity, -, rfl⟩ := List.mem_map.mp other
      exact activity.scribes_plan fun _ _ => trivial
  have own : ∀ plan ∈ (operation.report key :: others.map (Activity.plan defaults _))[turn.place]?,
      plan.Keeps (mindful (scribing (· ≠ key))) (fun _ _ => True) [] := by
    intro plan stands
    obtain ⟨index, same⟩ := Nat.exists_eq_succ_of_ne_zero elsewhere
    rw [same, List.getElem?_cons_succ, List.getElem?_map, Option.mem_def, Option.map_eq_some_iff] at stands
    obtain ⟨activity, present, rfl⟩ := stands
    refine activity.scribes_plan fun other same ownKey => ?_
    exact apart activity (List.mem_of_getElem? present) (ownKey ▸ same)
  have rows := entriesOf_of_apart minded sound run moves own
  rw [moves.before_eq, moves.after_eq] at rows
  exact ⟨rows, fun sound => sound.notes (Store.Tables.notes_of_serves moves.answered), moves.answered.keepsRows⟩

/-- Where nobody else works with its key, an operation is settled once it has come to its result. -/
theorem settled_of_plays (isCommand : operation.isCommand = true) (sound : start.tables.HasSoundEntries)
    (apart : ∀ activity ∈ others, activity.key? ≠ some key)
    (played : Pool.Plays Shared.Answers
      { state := start, plans := operation.report key :: others.map (Activity.plan defaults _) } turns last)
    {result : Except Failure operation.Answer} (ended : last.plans[0]? = some (.done (some result))) :
    operation.IsSettled (· == key) key start result last.state := by
  have alone : ∀ turn ∈ turns, turn.place ≠ 0 →
      Shared.LeavesAlone (· == key) turn.moment.before turn.moment.after := fun turn member =>
    leavesAlone_of_apart sound apart (played.mono .inl) member
  obtain ⟨middle, ran, left⟩ := (played.endsAmid Shared.LeavesAlone.refl (fun _ _ _ => Shared.LeavesAlone.trans) rfl
    alone ended).forget
  obtain ⟨told, stop, finished, same, rfl⟩ := (ends_bind _ _ _).mp ran
  obtain rfl := Option.some.inj same
  have settles : Ensures (Shared.besides (· == key))
      (fun value last => operation.IsSettled (· == key) key start (.ok value) last)
      (fun cause last => operation.IsSettled (· == key) key start (.error cause) last) (operation.service key) start :=
    Operation.settles (fun answered => answered) isCommand sound (beq_self_eq_true key)
  have settled : operation.IsSettled (· == key) key start told stop := by
    have known := settles told _ finished
    cases told with
    | ok value => exact known
    | error cause => exact known
  exact settled.imp (fun unbegun => ⟨left.entries.trans unbegun.1, unbegun.2⟩) fun gains => gains.then_alone left

end Pools

/-- The job that may be worked on with a key, for that purpose. -/
def granted (tables : Store.Tables) (key id purpose : String) : Except Failure Job :=
  match tables.admitted key with
  | .error cause => .error cause
  | .ok caller =>
    match tables.job? id with
    | none => .error (.unknownJob id)
    | some job => (Job.requireOwner caller job purpose).map fun _ => job

/-- What it comes to where someone is refused, or where nothing is left to do for what was given instead. -/
def declinedBy {α β : Type} (given : Except Failure β) (settled : β → Option α) : Option (Except Failure α) :=
  match given with
  | .error cause => some (.error cause)
  | .ok value => (settled value).map .ok

/-- What an operation comes to that does not begin, by the tables alone. -/
def Operation.declined? (tables : Store.Tables) (key : String) :
    (operation : Operation) → Option (Except Failure operation.Answer)
  | cancel id => declinedBy (granted tables key id "cancel") fun job => if job.status.isTerminal then some () else none
  | output id => declinedBy (granted tables key id "retrieve the output of") fun _ => none
  | _ => declinedBy (tables.admitted key) fun _ => none

theorem declinedBy_eq_none {α β : Type} {given : Except Failure β} {settled : β → Option α}
    (begins : declinedBy given settled = none) : ∃ value, given = .ok value ∧ settled value = none := by
  cases given with
  | error cause => cases begins
  | ok value => exact ⟨value, rfl, Option.map_eq_none_iff.mp begins⟩

theorem reads_declinedBy {α β : Type} {setting : Setting Shared} {shared : Shared} {gate : Service β}
    {given : Except Failure β} {settled : β → Option α} {rest : β → Service α} {result : Except Failure α}
    (reads : Reads setting gate shared given) (declined : declinedBy given settled = some result)
    (rests : ∀ value answer, settled value = some answer → Reads setting (rest value) shared (.ok answer)) :
    Reads setting (gate >>= rest) shared result := by
  cases given with
  | error cause =>
    obtain rfl := Option.some.inj declined
    exact reads.bind_error rest
  | ok value =>
    obtain ⟨answer, same, rfl⟩ := Option.map_eq_some_iff.mp declined
    exact reads.bind (rests value answer same)

section Alone

variable {shared last : Shared} {key : String} {operation : Operation}

/-- Who may work on a job is settled by the tables, and they stay as they are. -/
theorem reads_asOwner (key id purpose : String) :
    Reads Shared.Answers (asOwner key id purpose) shared (granted shared.tables key id purpose) := by
  have gate : Reads Shared.Answers (authorize key) shared _ := reads_authorize key
  unfold asOwner granted
  cases passed : shared.tables.admitted key with
  | error cause =>
    rw [passed] at gate
    exact gate.bind_error _
  | ok caller =>
    rw [passed] at gate
    refine gate.bind ?_
    have finds : Reads Shared.Answers (Service.store (.findJob id)) shared (.ok (shared.tables.job? id)) :=
      Service.reads_store (.findJob id) fun _ _ => Shared.answers_iff_of_told rfl
    unfold Job.load
    cases found : shared.tables.job? id with
    | none =>
      rw [found] at finds
      exact (finds.bind (reads_throw _)).bind_error _
    | some job =>
      rw [found] at finds
      exact (finds.bind (reads_pure job)).bind ((Service.reads_ofExcept _).map fun _ => job)

/-- An operation that does not begin changes nothing. -/
theorem Operation.reads_declined {result : Except Failure operation.Answer}
    (declined : operation.declined? shared.tables key = some result) :
    Reads Shared.Answers (operation.service key) shared result := by
  cases operation with
  | cancel id =>
    rw [service, cancel_eq]
    refine reads_declinedBy (reads_asOwner key id "cancel") declined fun job _ same => ?_
    obtain ⟨terminal, -⟩ := Option.ite_none_right_eq_some.mp same
    rw [if_pos terminal]
    exact reads_pure ()
  | output id =>
    rw [service, output_eq]
    exact reads_declinedBy (reads_asOwner key id _) declined fun _ answer same =>
      absurd same.symm (Option.some_ne_none answer)
  | _ =>
    obtain ⟨rest, same⟩ := Operation.service_eq _ key
    rw [same]
    exact reads_declinedBy (reads_authorize key) declined fun _ answer same =>
      absurd same.symm (Option.some_ne_none answer)

/-- Past the gate there is nothing left but to begin. -/
theorem gains_of_admitted (operation : Operation) {rest : Service operation.Answer} {caller : Caller}
    (admitted : shared.tables.admitted key = .ok caller)
    (gains : Ensures Shared.Answers
      (fun value last => Shared.Gains (fun _ => true) key shared (.ok value) (operation.made? (.ok value)) last)
      (fun cause last => Finishes Shared.Answers (check key) shared (.error cause) last ∨
        Shared.Gains (fun _ => true) key shared (.error cause : Except Failure operation.Answer) none last) rest shared)
    {result : Except Failure operation.Answer} (ended : Finishes Shared.Answers rest shared result last) :
    Shared.Gains (fun _ => true) key shared result (operation.made? result) last := by
  have known := gains result last ended
  cases result with
  | ok value => exact known
  | error cause =>
    rcases known with refused | gains
    · have said := ((reads_check key _ _).mp refused).1
      rw [admitted] at said
      cases said
    · exact operation.made?_error cause ▸ gains

theorem admitted_of_granted {id purpose : String} {job : Job} (found : granted shared.tables key id purpose = .ok job) :
    ∃ caller, shared.tables.admitted key = .ok caller := by
  unfold granted at found
  split at found
  next => cases found
  next caller passed => exact ⟨caller, passed⟩

/-- An operation that begins adds one entry to the whole history. -/
theorem Operation.gains_of_finishes (isCommand : operation.isCommand = true) (sound : shared.tables.HasSoundEntries)
    (begins : operation.declined? shared.tables key = none) {result : Except Failure operation.Answer}
    (ended : Finishes Shared.Answers (operation.service key) shared result last) :
    Shared.Gains (fun _ => true) key shared result (operation.made? result) last := by
  have faithful {state next : Shared} {request : Request} {reply : request.Reply}
      (answered : state.Answers request reply next) : Shared.besides (fun _ => true) state request reply next :=
    ⟨state, .refl state, answered⟩
  have gate : Reads Shared.Answers (authorize key) shared _ := reads_authorize key
  cases operation with
  | submit mint machine script options =>
    obtain ⟨caller, passed, -⟩ := declinedBy_eq_none begins
    rw [passed] at gate
    rw [service, Job.submit, gate.finishes_bind] at ended
    refine gains_of_admitted (.submit mint machine script options) passed ?_ ended
    exact ensures_within_gains faithful (Job.works_submitFor mint caller machine script options).spares sound rfl _ _ _
  | cancel id =>
    obtain ⟨job, found, unfinished⟩ := declinedBy_eq_none begins
    have grants : Reads Shared.Answers (asOwner key id "cancel") shared _ := reads_asOwner key id "cancel"
    rw [found] at grants
    rw [service, cancel_eq, grants.finishes_bind, if_neg (by simpa using unfinished)] at ended
    obtain ⟨caller, passed⟩ := admitted_of_granted found
    refine gains_of_admitted (.cancel id) passed ?_ ended
    exact ensures_within_gains faithful job.works_cancelAtPlace.spares sound rfl _ _ _
  | output id =>
    obtain ⟨job, found, -⟩ := declinedBy_eq_none begins
    have grants : Reads Shared.Answers (asOwner key id "retrieve the output of") shared _ := reads_asOwner key id _
    rw [found] at grants
    rw [service, output_eq, grants.finishes_bind] at ended
    obtain ⟨caller, passed⟩ := admitted_of_granted found
    refine gains_of_admitted (.output id) passed ?_ ended
    exact ensures_within_gains faithful job.works_retrieve.spares sound rfl _ _ _
  | outputs =>
    obtain ⟨caller, passed, -⟩ := declinedBy_eq_none begins
    rw [passed] at gate
    rw [service, Job.outputs, gate.finishes_bind] at ended
    refine gains_of_admitted .outputs passed ?_ ended
    exact (ensures_outputs_gains faithful sound rfl caller.user.id).mono (fun _ _ gains => gains) fun _ _ refused =>
      .inl refused
  | _ => cases isCommand

end Alone

/-- Whatever has gone on before, however many commands are running, with whatever descriptions: an operation on jobs
that comes to its result while nobody else works with its key either has not begun, and the history of the session is
as it was, or has added one entry to it, which tells of the result. If nothing goes on beside it, it is the tables that
decide whether it begins, and the one entry is all that the whole history has gained. -/
theorem operations_leave_one_entry {pool reached : Pool Shared Unit} {trace : List (Moment Shared)}
    (sound : pool.state.tables.HasSoundEntries) (run : pool.Runs Shared.Serves trace reached) (operation : Operation)
    (isCommand : operation.isCommand = true) (key : String) :
    (∀ (defaults : SessionDefaults) (others : List Activity) (turns : List (Dispatch.Turn Shared))
        (last : Pool Shared (Option (Except Failure operation.Answer))) (result : Except Failure operation.Answer),
      (∀ activity ∈ others, activity.key? ≠ some key) →
      Pool.Plays Shared.Answers
        { state := reached.state, plans := operation.report key :: others.map (Activity.plan defaults _) } turns last →
      last.plans[0]? = some (.done (some result)) →
      last.state.tables.entriesOf key = reached.state.tables.entriesOf key ∧ operation.isUnbegun result = true ∨
        ∃ entry : History.Entry,
          last.state.tables.entriesOf key = reached.state.tables.entriesOf key ++ [entry] ∧
            entry.IsOutcome key result (operation.made? result)) ∧
    (∀ result, operation.declined? reached.state.tables key = some result →
      Reads Shared.Answers (operation.service key) reached.state result) ∧
    (operation.declined? reached.state.tables key = none → ∀ result last,
      Finishes Shared.Answers (operation.service key) reached.state result last →
        ∃ entry : History.Entry, last.tables.entries = reached.state.tables.entries ++ [entry] ∧
          entry.IsOutcome key result (operation.made? result)) := by
  have soundThen := Store.Tables.hasSoundEntries_of_runs sound run
  refine ⟨fun defaults others turns last result apart played ended => ?_, fun result => Operation.reads_declined,
    fun begins result last ended => ?_⟩
  · exact settled_of_plays isCommand soundThen apart played ended
  · obtain ⟨entry, rows, tells⟩ := Operation.gains_of_finishes isCommand soundThen begins ended
    simp only [Store.Tables.entriesAmong, List.filter_true] at rows
    exact ⟨entry, rows, tells⟩

/-- Two sessions, in one of which a submission has been under way ever since. -/
def crowdedStart : Shared :=
  { tables := {
      users := [{ id := "alice", passwordHash := "" }, { id := "bob", passwordHash := "" }]
      sessions := [
        { (default : Session) with key := "key", id := "s", user := "alice" },
        { (default : Session) with key := "other", id := "t", user := "bob" }]
      entries := [
        { (default : History.Entry) with number := 1, session := "key", description := "submit job.sh on cluster" }]
      lastEntry := 1 } }

def clusterSubmission : Operation := .submit {} "cluster" "job.sh" {}

/-- The same submission in both sessions, turn by turn. -/
def crowdedTurns : List (Dispatch.Turn Shared) × Pool Shared (Option (Except Failure Job)) :=
  Pool.playTurns (Shared.respond (Shared.outsideOf Job.sampleCluster "7.1")) (List.replicate 60 [0, 1]).flatten {
    state := crowdedStart
    plans := clusterSubmission.report "key" :: [Activity.operate "other" clusterSubmission].map (Activity.plan {} _) }

theorem crowdedTurns_leave_one_entry :
    (crowdedTurns.2.state.tables.entries.map fun entry => (entry.number, entry.session, entry.status, entry.object)) = [
      (1, "key", .running, none), (2, "key", .success, some "J_1"), (3, "other", .success, some "J_2")] ∧
    (∃ result : Except Failure Job, crowdedTurns.2.plans[0]? = some (.done (some result)) ∧
      (crowdedTurns.2.state.tables.entriesOf "key" = crowdedStart.tables.entriesOf "key" ∧
          clusterSubmission.isUnbegun result = true ∨
        ∃ entry : History.Entry,
          crowdedTurns.2.state.tables.entriesOf "key" = crowdedStart.tables.entriesOf "key" ++ [entry] ∧
            entry.IsOutcome "key" result (clusterSubmission.made? result))) ∧
    ∀ result last, Finishes Shared.Answers (clusterSubmission.service "key") crowdedStart result last →
      ∃ entry : History.Entry, last.tables.entries = crowdedStart.tables.entries ++ [entry] ∧
        entry.IsOutcome "key" result (clusterSubmission.made? result) := by
  have sound : crowdedStart.tables.HasSoundEntries := ⟨by decide, by decide⟩
  have done : (crowdedTurns.2.plans[0]?.bind Plan.ended?).join.isSome = true := by decide +kernel
  obtain ⟨result, same⟩ := Option.isSome_iff_exists.mp done
  obtain ⟨plan, stands, ended⟩ := Option.bind_eq_some_iff.mp (Option.join_eq_some_iff.mp same)
  rw [eq_done_of_ended ended] at stands
  let pool : Pool Shared Unit := { state := crowdedStart, plans := [] }
  have begun : pool.Runs Shared.Serves [] pool := .start
  obtain ⟨amid, -, alone⟩ := operations_leave_one_entry sound begun clusterSubmission rfl "key"
  refine ⟨by decide +kernel, ⟨result, stands, ?_⟩, alone (by decide +kernel)⟩
  exact amid {} _ _ _ result (by decide) (Pool.plays_playTurns Shared.answers_respond _ _) stands

end Session

end Dispatch
