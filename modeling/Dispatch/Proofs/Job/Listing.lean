import Dispatch.Proofs.Instant.Order
import Dispatch.Proofs.Job.Table
/-!
The list of the jobs of a user. Jobs are in the order of their submission, and those of one instant in the order of
their identifiers; as no two have the same identifier, no two stand at the same place.
-/
namespace Dispatch

namespace Job

/-- Submitted earlier, or at the same instant with the smaller identifier. -/
def Precedes (job other : Job) : Prop :=
  job.submittedAt.isBefore other.submittedAt = true ∨ (job.submittedAt = other.submittedAt ∧ job.id < other.id)

/-- All jobs of a user and no others, each of them once and in order. -/
def IsListing (tables : Store.Tables) (user : String) (jobs : List Job) : Prop :=
  jobs.Perm (tables.jobsOf user) ∧ jobs.Pairwise Precedes

theorem isListedBefore_iff {job other : Job} : job.isListedBefore other = true ↔
    job.submittedAt.isBefore other.submittedAt = true ∨ (job.submittedAt = other.submittedAt ∧ job.id ≤ other.id) := by
  simp [isListedBefore]

theorem isListedBefore_trans (first second third : Job) (one : first.isListedBefore second = true)
    (two : second.isListedBefore third = true) : first.isListedBefore third = true := by
  rw [isListedBefore_iff] at *
  rcases one with earlier | ⟨same, le⟩
  · rcases two with later | ⟨again, _⟩
    · exact .inl (Instant.isBefore_trans earlier later)
    · exact .inl (again ▸ earlier)
  · rcases two with later | ⟨again, le'⟩
    · exact .inl (same ▸ later)
    · exact .inr ⟨same.trans again, String.le_trans le le'⟩

theorem isListedBefore_total (job other : Job) : (job.isListedBefore other || other.isListedBefore job) = true := by
  rw [Bool.or_eq_true, isListedBefore_iff, isListedBefore_iff]
  by_cases same : job.submittedAt = other.submittedAt
  · rcases String.le_total job.id other.id with le | le
    · exact .inl (.inr ⟨same, le⟩)
    · exact .inr (.inr ⟨same.symm, le⟩)
  · rcases Instant.isBefore_total same with before | after
    · exact .inl (.inl before)
    · exact .inr (.inl after)

/-- Sorting lists the jobs, as no two of them have the same identifier. -/
theorem isListing_mergeSort {tables : Store.Tables} (distinct : tables.HasDistinctJobs) (user : String) :
    IsListing tables user ((tables.jobsOf user).mergeSort isListedBefore) := by
  have same := List.mergeSort_perm (tables.jobsOf user) isListedBefore
  have ids : (((tables.jobsOf user).mergeSort isListedBefore).map Job.id).Nodup := by
    refine (same.map Job.id).nodup_iff.mpr ?_
    exact distinct.sublist (List.filter_sublist.map Job.id)
  refine ⟨same, ?_⟩
  have sorted := List.pairwise_mergeSort isListedBefore_trans isListedBefore_total (tables.jobsOf user)
  refine (sorted.and (List.pairwise_map.mp ids)).imp fun known => ?_
  rcases isListedBefore_iff.mp known.1 with earlier | ⟨sameInstant, le⟩
  · exact .inl earlier
  · refine .inr ⟨sameInstant, Decidable.byContradiction fun notLess => ?_⟩
    exact known.2 (String.le_antisymm le (String.not_lt.mp notLess))

end Job

end Dispatch
