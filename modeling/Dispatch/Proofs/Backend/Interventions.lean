import Dispatch.Proofs.Backend.Footprint
import Dispatch.Proofs.Cloud.Submission
/-!
What a place does to jobs while it takes a new one: it puts files on hosts, and it deletes the machine that it has
allocated for the job if the job cannot be started there.
-/
namespace Dispatch

open Plan

/-- A file that is put on a host, or the deletion of a machine that has been allocated. -/
inductive Backend.IsPartOfSubmission {σ : Type} (log : List (Moment σ)) : Request → Prop
  | upload (target : Shell.Target) (content path : String) (mode : Int32) :
      IsPartOfSubmission log (.remote target (.upload content path mode))
  | deletion {request : Request} {vm : Int} {moment : Moment σ}
      (deletes : Cloud.action? request = some (Cloud.Config.VmAction.delete.name, vm)) (member : moment ∈ log)
      (allocates : Cloud.allocated? moment = some vm) : IsPartOfSubmission log request

namespace Backend

variable {σ : Type} {log : List (Moment σ)} {request : Request}

theorem IsPartOfSubmission.mono {longer : List (Moment σ)} (part : IsPartOfSubmission log request)
    (included : log ⊆ longer) : IsPartOfSubmission longer request := by
  cases part with
  | upload target content path mode => exact .upload target content path mode
  | deletion deletes member allocates => exact .deletion deletes (included member) allocates

/-- States are of no concern to it. -/
theorem IsPartOfSubmission.of_bare (part : IsPartOfSubmission (log.map Moment.bare) request) :
    IsPartOfSubmission log request := by
  cases part with
  | upload target content path mode => exact .upload target content path mode
  | deletion deletes member allocates =>
    obtain ⟨moment, present, rfl⟩ := List.mem_map.mp member
    refine .deletion deletes present ?_
    obtain ⟨before, asked, reply, after⟩ := moment
    cases asked with
    | provider => exact allocates
    | _ => cases allocates

theorem isPartOfSubmission_of_isErrand (member : request.isErrand = true) (intervenes : request.isIntervention = true) :
    IsPartOfSubmission log request := by
  have uploads : request.isUpload = true := by simpa [Request.isErrand, Request.isHarmless, intervenes] using member
  cases request with
  | remote target action =>
    cases action with
    | upload content path mode => exact .upload target content path mode
    | _ => cases uploads
  | _ => cases uploads

/-- All that is done to jobs is part of a submission. -/
def OnlySubmits (log : List (Moment σ)) : Prop :=
  ∀ moment ∈ log, moment.request.isIntervention = true → IsPartOfSubmission log moment.request

theorem onlySubmits_of_errands (errands : ∀ moment ∈ log, moment.request.isErrand = true) : OnlySubmits log :=
  fun moment member => isPartOfSubmission_of_isErrand (errands moment member)

theorem OnlySubmits.append {more : List (Moment σ)} (first : OnlySubmits log) (second : OnlySubmits more) :
    OnlySubmits (log ++ more) := by
  intro moment member intervenes
  rcases List.mem_append.mp member with before | after
  · exact (first moment before intervenes).mono (List.subset_append_left _ _)
  · exact (second moment after intervenes).mono (List.subset_append_right _ _)

theorem OnlySubmits.snoc {moment : Moment σ} (only : OnlySubmits log) (part : IsPartOfSubmission log moment.request) :
    OnlySubmits (log ++ [moment]) := by
  intro other member intervenes
  rcases List.mem_append.mp member with before | here
  · exact (only other before intervenes).mono (List.subset_append_left _ _)
  · obtain rfl := List.mem_singleton.mp here
    exact part.mono (List.subset_append_left _ _)

theorem logs_errands {α : Type} {task : Backend.Task α} {expected : α → Prop}
    (errands : Yields Request.isErrand expected task) :
    Logs (fun _ log => OnlySubmits log) (fun _ log => OnlySubmits log) task :=
  errands.logs.mono (fun _ _ known => onlySubmits_of_errands known.2) fun _ _ known => onlySubmits_of_errands known

end Backend

namespace Cloud.Config

open Backend

/-- A machine is deleted only where it has been allocated. -/
theorem logs_submission (config : Config) (script : String) (options : Job.Options) :
    Logs (fun _ log => OnlySubmits log) (fun _ log => OnlySubmits log) (config.submit script options) := by
  have allocation_only {moment : Moment Unit} (allocates : isCall allocateMethod moment.request = true) :
      OnlySubmits [moment] := by
    intro other member intervenes
    obtain rfl := List.mem_singleton.mp member
    have acts : isCall actionMethod other.request = false :=
      isCall_eq_false allocates (by simp [allocateMethod, actionMethod])
    cases asked : other.request with
    | provider endpoint method params =>
      rw [asked] at acts intervenes
      exact absurd intervenes (by simpa [isCall, Request.isIntervention] using acts)
    | _ =>
      rw [asked] at allocates
      cases allocates
  have described : Yields Request.isErrand (fun _ => True) (Backend.Task.ofExcept (describe options config)) :=
    Backend.Task.asks_ofExcept _
  unfold submit
  apply logs_guard fun _ _ member => absurd member List.not_mem_nil
  intro _
  apply (logs_errands described).bind (fun _ _ only => only)
  intro description first onlyFirst
  refine (logs_errands (Script.asks_stage script meaning rfl)).bind (fun _ _ only => onlyFirst.append only) ?_
  intro text second onlySecond
  simp only [← List.append_assoc first second]
  have prepared : OnlySubmits (first ++ second) := onlyFirst.append onlySecond
  refine (logs_allocate config description).bind ?_ ?_
  · rintro fault log (rfl | ⟨moment, rfl, allocates, _⟩)
    · rwa [List.append_nil]
    · exact prepared.append (allocation_only allocates)
  · rintro vm _ ⟨session, allocation, hasSession, rfl, allocates, tells⟩
    have booked : OnlySubmits ((first ++ second) ++ [allocation]) := prepared.append (allocation_only allocates)
    simp only [← List.append_assoc _ [allocation]]
    refine Backend.Task.logs_attempt (logs_errands (yields_launch config vm text options)) ?_ ?_
    · intro submitted launch launched
      exact (logs_pure submitted).mpr (by simpa using booked.append launched)
    · intro fault launch launched
      have failed {log : List (Moment Unit)}
          (asked : ∃ deletion, log = [deletion] ∧ action? deletion.request = some (VmAction.delete.name, vm)) :
          OnlySubmits ((first ++ second ++ [allocation]) ++ (launch ++ (log ++ []))) := by
        obtain ⟨deletion, rfl, deletes⟩ := asked
        have known : IsPartOfSubmission ((first ++ second ++ [allocation]) ++ launch) deletion.request :=
          .deletion deletes (by simp) tells
        simpa using (booked.append launched).snoc known
      exact Backend.Task.logs_attempt (logs_act config hasSession .delete vm)
        (fun _ _ asked => (logs_throw fault).mpr (failed asked)) fun _ _ asked => (logs_throw fault).mpr (failed asked)

end Cloud.Config

namespace Backend

/-- Whatever a place is told while it takes a job, it touches no other. -/
theorem logs_submit (backend : Backend) (script : String) (options : Job.Options) :
    Logs (fun _ log => OnlySubmits log) (fun _ log => OnlySubmits log) (backend.submit script options) := by
  cases backend with
  | batch frontend => exact logs_errands (frontend.yields_errands_of_submit script options)
  | cloud fleet =>
    have settled : Yields Request.isErrand (fun _ => True) (Backend.Task.ofExcept (fleet.settings options)) :=
      Backend.Task.asks_ofExcept _
    change Logs _ _ (fleet.submit script options)
    rw [fleet.submit_eq]
    exact (logs_errands settled).bind (fun _ _ only => only) fun config log only =>
      (config.logs_submission script options).mono (fun _ _ more => only.append more) fun _ _ more => only.append more

end Backend

end Dispatch
