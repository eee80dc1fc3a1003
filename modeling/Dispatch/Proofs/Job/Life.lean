import Dispatch.Proofs.Job.Table
/-!
The life of stored jobs. One move may change the status and set instants; many moves never undo what has been
settled. Both are said of rows, and then of tables.
-/
namespace Dispatch

namespace Job

/-- What holds of every stored job: it has finished exactly if it has ended, and while it has not, its place
knows it by a handle. -/
structure IsSound (job : Job) : Prop where
  finished : job.finishedAt.isSome = job.status.isTerminal
  handled : job.status.isTerminal = false → job.handle.isSome = true

/-- The same job but for its status and its instants: owner, machine, handle, paths, parameters and all else. -/
def IsSameSubmission (row next : Job) : Prop :=
  { next with status := row.status, startedAt := row.startedAt, finishedAt := row.finishedAt } = row

/-- Instants that are set stay as they are. -/
structure KeepsInstants (row next : Job) : Prop where
  startedAt : ∀ instant, row.startedAt = some instant → next.startedAt = some instant
  finishedAt : ∀ instant, row.finishedAt = some instant → next.finishedAt = some instant

/-- One step in the life of a job. -/
structure Moves (row next : Job) : Prop where
  same : row.IsSameSubmission next
  instants : row.KeepsInstants next
  status : next.status = row.status ∨ (row.status.isTerminal = false ∧ next.status ≠ .downloaded) ∨
    (row.status = .completed ∧ next.status = .downloaded)

/-- What any number of steps can do. -/
structure Became (row next : Job) : Prop where
  same : row.IsSameSubmission next
  instants : row.KeepsInstants next
  ended : row.status.isTerminal = true →
    next.status = row.status ∨ (row.status = .completed ∧ next.status = .downloaded)

theorem IsSameSubmission.refl (row : Job) : row.IsSameSubmission row := rfl

theorem IsSameSubmission.trans {row middle next : Job} (first : row.IsSameSubmission middle)
    (second : middle.IsSameSubmission next) : row.IsSameSubmission next := by
  unfold IsSameSubmission at first second ⊢
  rw [← second] at first
  exact first

/-- The same submission is at the same place, for the same owner. -/
theorem IsSameSubmission.place_eq {row next : Job} (same : row.IsSameSubmission next) :
    next.machine = row.machine ∧ next.owner = row.owner ∧ next.handle = row.handle ∧
      next.backendParams = row.backendParams := by
  unfold IsSameSubmission at same
  rw [← same]
  exact ⟨rfl, rfl, rfl, rfl⟩

theorem KeepsInstants.refl (row : Job) : row.KeepsInstants row :=
  ⟨fun _ found => found, fun _ found => found⟩

theorem KeepsInstants.trans {row middle next : Job} (first : row.KeepsInstants middle)
    (second : middle.KeepsInstants next) : row.KeepsInstants next :=
  ⟨fun instant found => second.startedAt instant (first.startedAt instant found),
    fun instant found => second.finishedAt instant (first.finishedAt instant found)⟩

theorem Moves.refl (row : Job) : row.Moves row := ⟨.refl row, .refl row, .inl rfl⟩

theorem Moves.became {row next : Job} (moves : row.Moves next) : row.Became next := by
  refine ⟨moves.same, moves.instants, fun ended => ?_⟩
  rcases moves.status with same | ⟨unfinished, _⟩ | downloaded
  · exact .inl same
  · simp [ended] at unfinished
  · exact .inr downloaded

theorem Became.refl (row : Job) : row.Became row := (Moves.refl row).became

theorem Became.trans {row middle next : Job} (first : row.Became middle) (second : middle.Became next) :
    row.Became next := by
  refine ⟨first.same.trans second.same, first.instants.trans second.instants, fun ended => ?_⟩
  rcases first.ended ended with same | ⟨completed, downloaded⟩
  · rw [← same] at ended ⊢
    exact second.ended ended
  · have last := second.ended (by rw [downloaded]; rfl)
    rw [downloaded] at last
    exact .inr ⟨completed, by simpa using last⟩

theorem isSameSubmission_moveTo (job : Job) (next : Status) (instant : Instant) :
    job.IsSameSubmission (job.moveTo next instant) := rfl

theorem keepsInstants_moveTo (job : Job) (next : Status) (instant : Instant) :
    job.KeepsInstants (job.moveTo next instant) := by
  constructor
  · intro known found
    simp [moveTo, found]
  · intro known found
    simp [moveTo, found]

/-- A move that the life of jobs allows keeps a job sound. -/
theorem IsSound.moveTo {job : Job} (sound : job.IsSound) {next : Status} (able : job.status.canBecome next = true)
    (instant : Instant) : (job.moveTo next instant).IsSound := by
  have fromUnfinished : next.isTerminal = false → job.status.isTerminal = false := by
    intro unfinished
    -- From completed only downloaded can be reached, and that is an end too.
    unfold Status.canBecome at able
    split at able
    next =>
      rw [decide_eq_true_eq.mp able] at unfinished
      cases unfinished
    next => simpa using able
  refine ⟨?_, fun unfinished => sound.handled (fromUnfinished unfinished)⟩
  by_cases ended : next.isTerminal = true
  · cases found : job.finishedAt <;> simp [Job.moveTo, ended, found]
  · have unfinished : next.isTerminal = false := by simpa using ended
    have absent : job.finishedAt.isSome = false := by rw [sound.finished, fromUnfinished unfinished]
    simp [Job.moveTo, unfinished, absent]

/-- A move to the downloaded status is one only for completed jobs; every other move that is allowed is one. -/
theorem moves_moveTo {job : Job} {next : Status} (able : job.status.canBecome next = true)
    (downloads : next = .downloaded → job.status = .completed) (instant : Instant) :
    job.Moves (job.moveTo next instant) := by
  refine ⟨isSameSubmission_moveTo job next instant, keepsInstants_moveTo job next instant, .inr ?_⟩
  by_cases downloaded : next = .downloaded
  · exact .inr ⟨downloads downloaded, downloaded⟩
  · refine .inl ⟨?_, downloaded⟩
    unfold Status.canBecome at able
    split at able
    next => exact absurd (decide_eq_true_eq.mp able) downloaded
    next => simpa using able

end Job

namespace Store.Tables

/-- The table of jobs as it should be. -/
structure HasSoundJobs (tables : Tables) : Prop where
  distinct : tables.HasDistinctJobs
  sound : ∀ job ∈ tables.jobs, job.IsSound

/-- One step of all jobs: the stored ones stay and move at most one step, and no job is new and downloaded. -/
def JobsMove (tables next : Tables) : Prop :=
  ∀ id, match tables.job? id, next.job? id with
    | some row, some later => row.Moves later
    | some _, none => False
    | none, some later => later.status ≠ .downloaded
    | none, none => True

/-- Any number of steps. -/
def JobsBecame (tables next : Tables) : Prop :=
  ∀ id row, tables.job? id = some row → ∃ later, next.job? id = some later ∧ row.Became later

theorem JobsMove.of_eq {tables next : Tables} (same : next.jobs = tables.jobs) : tables.JobsMove next := by
  intro id
  have found : next.job? id = tables.job? id := by simp only [job?, same]
  rw [found]
  cases tables.job? id with
  | some row => exact .refl row
  | none => trivial

theorem JobsMove.became {tables next : Tables} (moves : tables.JobsMove next) : tables.JobsBecame next := by
  intro id row found
  have step := moves id
  rw [found] at step
  cases later : next.job? id with
  | none => rw [later] at step; exact step.elim
  | some other => rw [later] at step; exact ⟨other, rfl, step.became⟩

theorem JobsBecame.refl (tables : Tables) : tables.JobsBecame tables :=
  fun _ row found => ⟨row, found, .refl row⟩

theorem JobsBecame.trans {tables middle next : Tables} (first : tables.JobsBecame middle)
    (second : middle.JobsBecame next) : tables.JobsBecame next := by
  intro id row found
  obtain ⟨between, foundBetween, before⟩ := first id row found
  obtain ⟨later, foundLater, after⟩ := second id between foundBetween
  exact ⟨later, foundLater, before.trans after⟩

theorem HasSoundJobs.of_eq {tables next : Tables} (sound : tables.HasSoundJobs) (same : next.jobs = tables.jobs) :
    next.HasSoundJobs := by
  refine ⟨?_, ?_⟩
  · rw [HasDistinctJobs, same]
    exact sound.distinct
  · rw [same]
    exact sound.sound

/-- A new job that is sound and not downloaded from the start. -/
theorem insertJob_life {tables : Tables} (sound : tables.HasSoundJobs) {job : Job} (isSound : job.IsSound)
    (fresh : job.status ≠ .downloaded) :
    (tables.insertJob job).2.HasSoundJobs ∧ tables.JobsMove (tables.insertJob job).2 := by
  rcases tables.insertJob_cases job with ⟨row, _, same⟩ | ⟨absent, added⟩
  · rw [same]
    exact ⟨sound, .of_eq rfl⟩
  · rw [added]
    have rows := insertInOrder_perm Job.id job tables.jobs
    refine ⟨⟨sound.distinct.insertInOrder absent, ?_⟩, ?_⟩
    · intro row member
      rcases List.mem_cons.mp (rows.mem_iff.mp member) with rfl | present
      · exact isSound
      · exact sound.sound row present
    · intro id
      rw [job?_insertInOrder absent]
      by_cases same : job.id = id
      · rw [if_pos same, ← same, absent]
        exact fresh
      · rw [if_neg same]
        cases tables.job? id with
        | some row => exact .refl row
        | none => trivial

theorem transitionJob_life {tables : Tables} (sound : tables.HasSoundJobs) {id : String} {next : Job.Status}
    {instant : Instant} (downloads : next = .downloaded → ∃ row, tables.job? id = some row ∧
      (row.status = .completed ∨ row.status = .downloaded)) :
    (tables.transitionJob id next instant).2.HasSoundJobs ∧
      tables.JobsMove (tables.transitionJob id next instant).2 := by
  rcases tables.transitionJob_cases id next instant with same | ⟨job, found, able, moved⟩
  · rw [same]
    exact ⟨sound, .of_eq rfl⟩
  · rw [moved]
    have present := job?_some found
    have moves : job.Moves (job.moveTo next instant) := by
      refine Job.moves_moveTo able (fun downloaded => ?_) instant
      obtain ⟨row, sameRow, completed | already⟩ := downloads downloaded
      · rw [Option.some.inj (found.symm.trans sameRow)]
        exact completed
      · rw [Option.some.inj (found.symm.trans sameRow), already] at able
        cases able
    refine ⟨⟨?_, ?_⟩, ?_⟩
    · rw [HasDistinctJobs, replaceJob_ids]
      exact sound.distinct
    · intro row member
      obtain ⟨before, present, rfl⟩ := List.mem_map.mp member
      split
      next => exact (sound.sound job (job?_some found).1).moveTo able instant
      next => exact sound.sound before present
    · intro other
      have same : (job.moveTo next instant).id = id := present.2
      rw [job?_replaceJob, same]
      by_cases sameId : id = other
      · rw [if_pos sameId, ← sameId, found]
        exact moves
      · rw [if_neg sameId]
        cases tables.job? other with
        | some row => exact .refl row
        | none => trivial

end Store.Tables

end Dispatch
