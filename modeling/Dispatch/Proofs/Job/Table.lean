import Dispatch.Proofs.Plan.Footprint
import Dispatch.Proofs.Store.Rows
/-!
The table of jobs. Identifiers are distinct, so that looking a job up and finding it among the rows are the
same, and for each call to the store one lemma says what it does to the row of an identifier. The rows are in the
order of their identifiers.
-/
namespace Dispatch

theorem Job.Status.canBecome_of_unfinished {status : Job.Status} (unfinished : status.isTerminal = false)
    (next : Job.Status) : status.canBecome next = true := by
  cases status with
  | submitted | queued | waiting | running => rfl
  | completed | cancelled | failed | downloaded => cases unfinished

namespace Store.Tables

/-- No two jobs have the same identifier. -/
def HasDistinctJobs (tables : Tables) : Prop := (tables.jobs.map Job.id).Nodup

theorem job?_some {tables : Tables} {id : String} {row : Job} (found : tables.job? id = some row) :
    row ∈ tables.jobs ∧ row.id = id := find?_key_some Job.id found

theorem job?_of_mem {tables : Tables} (distinct : tables.HasDistinctJobs) {row : Job}
    (member : row ∈ tables.jobs) : tables.job? row.id = some row := find?_key_of_mem Job.id distinct member

theorem job?_replaceJob (tables : Tables) (job : Job) (id : String) :
    (tables.replaceJob job).job? id =
      if job.id = id then (tables.job? id).map fun _ => job else tables.job? id :=
  find?_replace Job.id job tables.jobs id

theorem replaceJob_ids (tables : Tables) (job : Job) :
    (tables.replaceJob job).jobs.map Job.id = tables.jobs.map Job.id :=
  map_replace Job.id Job.id fun _ _ same => same

/-- A row in its own place. -/
theorem replaceJob_self {tables : Tables} (distinct : tables.HasDistinctJobs) {row : Job} (member : row ∈ tables.jobs) :
    tables.replaceJob row = tables := by
  obtain ⟨front, back, split⟩ := List.append_of_mem member
  unfold HasDistinctJobs at distinct
  rw [split] at distinct
  unfold replaceJob
  rw [split, replace_append Job.id distinct rfl, ← split]

/-- What a job is inserted to: nothing changes if its identifier is there. -/
theorem insertJob_cases (tables : Tables) (job : Job) :
    (∃ row, tables.job? job.id = some row ∧ (tables.insertJob job).2 = tables) ∨
      (tables.job? job.id = none ∧
        (tables.insertJob job).2 = { tables with jobs := insertInOrder Job.id job tables.jobs }) := by
  unfold insertJob
  cases found : tables.job? job.id with
  | none => exact .inr ⟨rfl, rfl⟩
  | some row => exact .inl ⟨row, rfl, rfl⟩

/-- A job whose insertion succeeds is there. -/
theorem mem_of_insertJob {tables : Tables} {job : Job} (accepted : (tables.insertJob job).1 = .ok ()) :
    job ∈ (tables.insertJob job).2.jobs := by
  rcases tables.insertJob_cases job with ⟨row, found, _⟩ | ⟨_, same⟩
  · rw [insertJob, found] at accepted
    cases accepted
  · rw [same]
    exact (insertInOrder_perm Job.id job tables.jobs).mem_iff.mpr List.mem_cons_self

theorem ne_of_job?_none {tables : Tables} {id : String} (absent : tables.job? id = none) :
    ∀ row ∈ tables.jobs, row.id ≠ id := find?_key_none Job.id absent

/-- A job with a new identifier keeps identifiers distinct. -/
theorem HasDistinctJobs.insertInOrder {tables : Tables} (distinct : tables.HasDistinctJobs) {job : Job}
    (absent : tables.job? job.id = none) :
    { tables with jobs := Tables.insertInOrder Job.id job tables.jobs }.HasDistinctJobs := by
  have rows := insertInOrder_perm Job.id job tables.jobs
  refine (rows.map Job.id).nodup_iff.mpr (List.nodup_cons.mpr ⟨fun member => ?_, distinct⟩)
  obtain ⟨row, present, same⟩ := List.mem_map.mp member
  exact ne_of_job?_none absent row present same

theorem job?_insertInOrder {tables : Tables} {job : Job} (absent : tables.job? job.id = none) (id : String) :
    { tables with jobs := insertInOrder Job.id job tables.jobs }.job? id =
      if job.id = id then some job else tables.job? id :=
  find?_insertInOrder Job.id (ne_of_job?_none absent) id

/-- What a move does: nothing if there is no such job or its status does not allow it. -/
theorem transitionJob_cases (tables : Tables) (id : String) (next : Job.Status) (instant : Instant) :
    (tables.transitionJob id next instant).2 = tables ∨
      ∃ job, tables.job? id = some job ∧ job.status.canBecome next = true ∧
        (tables.transitionJob id next instant).2 = tables.replaceJob (job.moveTo next instant) := by
  unfold transitionJob
  cases found : tables.job? id with
  | none => exact .inl rfl
  | some job =>
    by_cases able : job.status.canBecome next = true
    · exact .inr ⟨job, rfl, able, by simp [able]⟩
    · exact .inl (by simp [able])

/-- The status that a move tells is the one that the job has after it: the wanted one, or one that does not allow
the move. -/
theorem transitionJob_tells {tables : Tables} {id : String} {next status : Job.Status} {instant : Instant}
    (told : (tables.transitionJob id next instant).1 = .ok status) :
    ∃ row, (tables.transitionJob id next instant).2.job? id = some row ∧ row.status = status ∧
      (status = next ∨ status.canBecome next = false) := by
  unfold transitionJob at told ⊢
  cases found : tables.job? id with
  | none =>
    rw [found] at told
    cases told
  | some job =>
    rw [found] at told
    by_cases able : job.status.canBecome next = true
    · have moved : (job.moveTo next instant).id = id := (job?_some found).2
      simp only [able, if_true] at told ⊢
      cases told
      exact ⟨job.moveTo next instant, by rw [job?_replaceJob, if_pos moved, found]; rfl, rfl, .inl rfl⟩
    · simp only [able] at told ⊢
      cases told
      exact ⟨job, found, rfl, .inr (by simpa using able)⟩

/-- Calls that are not about jobs leave the rows of jobs alone. -/
theorem answer_jobs (tables : Tables) {call : Call} (other : Request.isOfJobs (.store call) = false) :
    (tables.answer call).2.jobs = tables.jobs := by
  cases call with
  | insertJob | findJob | updateJob | transitionJob | jobsOf | unfinishedJobs => cases other
  | openTransaction | isTaken | findUser | insertLocalAccount | findLocalAccount | insertAuthAccount |
    authAccountsOf | setAuthAccounts | findSession | findSessionWithId | activeSessions | insertEntry |
    entriesOf | findAuthSystem | authSystems => rfl
  | commit | rollback | reserve | assign | insertUser | insertSession | updateEntry | insertAuthSystem |
    updateAuthSystem =>
    simp only [answer, commit, rollback, reserve, assign, insertUser, insertSession, updateEntry,
      insertAuthSystem, updateAuthSystem]
    split <;> rfl
  | updateSession | touchSession =>
    simp only [answer, updateSession, touchSession]
    split
    next => rfl
    next => split <;> rfl

/-- A row of a job stays, whatever becomes of it. -/
theorem ids_subset_answer (tables : Tables) (call : Call) :
    tables.jobs.map Job.id ⊆ (tables.answer call).2.jobs.map Job.id := by
  cases concerns : Request.isOfJobs (.store call) with
  | false => rw [tables.answer_jobs concerns]; exact List.Subset.refl _
  | true =>
    cases call with
    | insertJob job =>
      rcases tables.insertJob_cases job with ⟨_, _, same⟩ | ⟨_, same⟩
      · rw [answer, same]
        exact List.Subset.refl _
      · rw [answer, same]
        exact List.map_subset _ fun row member =>
          (insertInOrder_perm Job.id job tables.jobs).mem_iff.mpr (List.mem_cons_of_mem job member)
    | updateJob job =>
      simp only [answer, updateJob]
      split
      next => exact List.Subset.refl _
      next => rw [replaceJob_ids]; exact List.Subset.refl _
    | transitionJob id next instant =>
      rcases tables.transitionJob_cases id next instant with same | ⟨_, _, _, same⟩
      · rw [answer, same]
        exact List.Subset.refl _
      · rw [answer, same, replaceJob_ids]
        exact List.Subset.refl _
    | findJob | jobsOf | unfinishedJobs => exact List.Subset.refl _
    | _ => cases concerns

/-- Rows of jobs are in the order of their identifiers, and so no two have the same. -/
def HasOrderedJobs (tables : Tables) : Prop := (tables.jobs.map Job.id).Pairwise (· < ·)

instance (tables : Tables) : Decidable tables.HasOrderedJobs :=
  inferInstanceAs (Decidable ((tables.jobs.map Job.id).Pairwise (· < ·)))

theorem HasOrderedJobs.distinct {tables : Tables} (ordered : tables.HasOrderedJobs) : tables.HasDistinctJobs := by
  refine List.Pairwise.imp (fun {id other} less (same : id = other) => ?_) ordered
  rw [same] at less
  exact String.lt_irrefl other less

/-- A job with a new identifier comes to stand in its place. -/
theorem HasOrderedJobs.insertInOrder {tables : Tables} (ordered : tables.HasOrderedJobs) {job : Job}
    (absent : tables.job? job.id = none) :
    { tables with jobs := Tables.insertInOrder Job.id job tables.jobs }.HasOrderedJobs := by
  have apart := ne_of_job?_none absent
  unfold HasOrderedJobs at ordered ⊢
  dsimp only
  generalize tables.jobs = rows at ordered apart ⊢
  induction rows with
  | nil => simp [Tables.insertInOrder]
  | cons other rest ih =>
    obtain ⟨first, later⟩ := List.pairwise_cons.mp ordered
    rw [Tables.insertInOrder]
    split
    next less =>
      refine List.pairwise_cons.mpr ⟨fun id member => ?_, ordered⟩
      rcases List.mem_cons.mp member with rfl | behind
      · exact less
      · exact String.lt_trans less (first id behind)
    next notLess =>
      have less : other.id < job.id := by
        apply Decidable.byContradiction
        exact fun notGreater => apart other List.mem_cons_self
          (String.le_antisymm (String.not_lt.mp notLess) (String.not_lt.mp notGreater))
      refine List.pairwise_cons.mpr ⟨fun id member => ?_, ih later fun row inside => apart row (by simp [inside])⟩
      rcases List.mem_cons.mp (((insertInOrder_perm Job.id job rest).map Job.id).mem_iff.mp member) with rfl | behind
      · exact less
      · exact first id behind

theorem HasOrderedJobs.replaceJob {tables : Tables} (ordered : tables.HasOrderedJobs) (job : Job) :
    (tables.replaceJob job).HasOrderedJobs := by
  rwa [HasOrderedJobs, replaceJob_ids]

/-- Every call keeps them in order. -/
theorem HasOrderedJobs.answer {tables : Tables} (ordered : tables.HasOrderedJobs) (call : Call) :
    (tables.answer call).2.HasOrderedJobs := by
  cases concerns : Request.isOfJobs (.store call) with
  | false => rwa [HasOrderedJobs, tables.answer_jobs concerns]
  | true =>
    cases call with
    | insertJob job =>
      rcases tables.insertJob_cases job with ⟨_, _, same⟩ | ⟨absent, same⟩
      · rwa [Tables.answer, same]
      · rw [Tables.answer, same]
        exact ordered.insertInOrder absent
    | updateJob job =>
      simp only [Tables.answer, updateJob]
      split
      next => exact ordered
      next => exact ordered.replaceJob job
    | transitionJob id next instant =>
      rcases tables.transitionJob_cases id next instant with same | ⟨job, _, _, same⟩
      · rwa [Tables.answer, same]
      · rw [Tables.answer, same]
        exact ordered.replaceJob _
    | findJob | jobsOf | unfinishedJobs => exact ordered
    | _ => cases concerns

end Store.Tables

end Dispatch
