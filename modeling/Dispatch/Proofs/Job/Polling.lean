import Dispatch.Job.Tracking
import Dispatch.Proofs.Backend.Footprint
import Dispatch.Proofs.Job.Table
import Dispatch.Proofs.Server.Footprint
import Dispatch.Proofs.Server.Shared
/-!
Asking for the status of one job many times at once. The claim keeps those that ask apart, but it is granted on
the strength of a row that was read before it: a job may have ended in between, and then it is asked about again
and its machine is stopped again. What is proved is that nothing else than this, and a move that the store lost,
can stop a machine twice.
-/
namespace Dispatch.Job

open Plan

/-- How far one who asks for the status has come: without the claim, with it, with it after the machine was
stopped, with it after the job was moved on, and after all. -/
inductive Stage
  | idle
  | probing
  | stopped
  | settled
  | left
  deriving DecidableEq

namespace Stage

/-- Whether the claim is held. -/
def holds : Stage → Bool
  | probing | stopped | settled => true
  | idle | left => false

/-- The stage of one who holds the claim. -/
def holder? (stage : Stage) : Option Stage := if stage.holds then some stage else none

end Stage

/-- Whether a call of the provider is to stop a machine. -/
def isStopCall (method : String) : List Json → Bool
  | _ :: .string action :: _ => method == Cloud.actionMethod && action == Cloud.Config.VmAction.stop.name
  | _ => false

/-- Whether the provider did what it was called for. -/
def isAccepted : Except Backend.Fault Json → Bool
  | .ok (.array (.bool true :: _ :: _)) => true
  | _ => false

/-- What one who asks for the status of a job does with the claim. -/
def polling (id : String) : Protocol Stage where
  permits
    | .idle, .store (.findJob _) => True
    | .idle, .claim job => job = id
    | .probing, .release job => job = id
    | .probing, .store (.transitionJob job _ _) => job = id
    | .probing, request => request.isOfPlace = true ∨ request.isOutward = true ∨ request = .now
    | .stopped, .now => True
    | .stopped, .store (.transitionJob job next _) => job = id ∧ next = .completed
    | .settled, .release job => job = id
    | _, _ => False
  learn
    | .idle, .claim _, granted => if granted then .probing else .idle
    | .probing, .provider _ method params, reply =>
      if isStopCall method params && isAccepted reply then .stopped else .probing
    | .probing, .store (.transitionJob ..), _ => .settled
    | .stopped, .store (.transitionJob ..), _ => .settled
    | .probing, .release _, _ => .left
    | .settled, .release _, _ => .left
    | stage, _, _ => stage
  trusts
    | .store (.findJob wanted), .ok (some job) => job.id = wanted
    | _, _ => True

theorem polling_ignores_place (id : String) : (polling id).Ignores .probing Request.isOfPlace := by
  intro request member
  cases request with
  | store call =>
    cases call with
    | findLocalAccount => exact ⟨.inl rfl, fun _ => rfl⟩
    | _ => cases member
  | machine => exact ⟨.inl rfl, fun _ => rfl⟩
  | _ => cases member

theorem polling_ignores_remote (id : String) : (polling id).Ignores .probing Request.isRemote := by
  intro request member
  cases request with
  | remote => exact ⟨.inr (.inl rfl), fun _ => rfl⟩
  | _ => cases member

theorem polling_ignores_nothing (id : String) (stage : Stage) : (polling id).Ignores stage fun _ => false :=
  fun _ member => nomatch member

theorem isAccepted_of_resultValue {method : String} {answer value : Json}
    (read : Cloud.resultValue method answer = .ok value) : isAccepted (.ok answer) = true := by
  unfold Cloud.resultValue at read
  split at read
  next flag value more =>
    split at read
    next => rfl
    next => cases read
    next => cases read
  next => cases read
  next => cases read

theorem resultValue_of_isAccepted {answer : Json} (accepted : isAccepted (.ok answer) = true) (method : String) :
    ∃ value, Cloud.resultValue method answer = .ok value := by
  unfold isAccepted at accepted
  split at accepted
  next same =>
    cases same
    exact ⟨_, rfl⟩
  next => cases accepted

/-- A machine has been stopped if and only if the provider says so. -/
theorem tries_stop (id : String) (config : Cloud.Config) (vm : Int) :
    Tries (polling id) (fun _ stage => stage = .stopped) (fun _ stage => stage = .probing) (config.act .stop vm)
      .probing := by
  unfold Cloud.Config.act Cloud.Config.call
  rw [tries_bind, tries_bind]
  refine (Backend.Task.tries_ofExcept _).mpr ⟨fun session _ => ?_, fun _ _ => rfl⟩
  rw [tries_bind]
  refine (Backend.Task.tries_ask _).mpr ⟨.inr (.inl rfl), fun reply _ => ?_⟩
  cases reply with
  | error fault =>
    change (polling id).learn _ _ _ = Stage.probing
    simp [polling, isAccepted]
  | ok answer =>
    refine (Backend.Task.tries_ofExcept _).mpr ⟨fun value read => ?_, fun fault read => ?_⟩
    · have accepted := isAccepted_of_resultValue read
      simp [polling, isStopCall, accepted]
    · have refused : isAccepted (.ok answer) = false := by
        rw [Bool.eq_false_iff]
        intro accepted
        obtain ⟨value, given⟩ := resultValue_of_isAccepted accepted Cloud.actionMethod
        rw [given] at read
        cases read
      simp [polling, refused]

/-- A status that comes with a stopped machine is that of a completed job. -/
theorem tries_status (id : String) (place : Backend) (handle : String) :
    Tries (polling id) (fun status stage => stage = .probing ∨ (stage = .stopped ∧ status = .completed))
      (fun _ stage => stage = .probing) (place.status handle) .probing := by
  cases place with
  | batch frontend =>
    have observes : Yields Request.isRemote (· ≠ .downloaded) (frontend.statusBy handle _) :=
      frontend.yields_statusBy handle (frontend.scheduler.statusCommands handle) fun _ => rfl
    exact observes.tries (polling_ignores_remote id) (fun _ _ => .inl rfl) fun _ => rfl
  | cloud fleet =>
    unfold Backend.status Cloud.Fleet.status
    refine (Backend.Task.asks_ofExcept _).andThen (polling_ignores_nothing id _) (fun _ => rfl) fun job _ => ?_
    refine (Backend.Task.asks_ofExcept _).andThen (polling_ignores_nothing id _) (fun _ => rfl) fun vm _ => ?_
    refine (Backend.Task.asks_ofExcept _).andThen (polling_ignores_nothing id _) (fun _ => rfl) fun config _ => ?_
    refine (Backend.Task.asks_remote rfl).andThen (polling_ignores_remote id) (fun _ => rfl) fun outcome _ => ?_
    split
    next => rfl
    next =>
      refine (Backend.Task.asks_ofExcept _).andThen (polling_ignores_nothing id _) (fun _ => rfl) fun alive _ => ?_
      split
      next => exact .inl rfl
      next =>
        rw [tries_bind]
        exact (tries_stop id config vm).mono (fun _ _ stopped => .inr ⟨stopped, rfl⟩) fun _ _ same => same

/-- Whoever has stopped a machine goes on to move the job. -/
theorem tries_observe (job : Job) :
    Tries (polling job.id) (fun _ stage => stage = .settled) (fun _ stage => stage = .probing ∨ stage = .settled)
      job.observe .probing := by
  unfold observe
  split
  next => exact .inl rfl
  next handle _ =>
    refine job.asks_place.andThen (polling_ignores_place job.id) (fun _ => .inl rfl) fun place _ => ?_
    rw [tries_bind, Service.tries_backend]
    refine (tries_status job.id place handle).mono (fun status stage expected => ?_) fun _ _ => .inl
    rw [tries_bind]
    rcases expected with rfl | ⟨rfl, rfl⟩
    · refine (Service.tries_ask _).mpr ⟨.inr (.inr rfl), fun now _ => ?_⟩
      exact (Service.tries_store _).mpr ⟨rfl, fun _ _ => rfl, fun _ _ => .inr rfl⟩
    · refine (Service.tries_ask _).mpr ⟨trivial, fun now _ => ?_⟩
      exact (Service.tries_store _).mpr ⟨⟨rfl, rfl⟩, fun _ _ => rfl, fun _ _ => .inr rfl⟩

theorem tries_release (id : String) {stage : Stage} (held : stage = .probing ∨ stage = .settled)
    (result : Except Failure Status) :
    Tries (polling id) (fun _ _ => True) (fun _ _ => True)
      (do Service.ask (.release id); Service.ofExcept result) stage := by
  rw [tries_bind]
  refine (Service.tries_ask _).mpr ⟨?_, fun _ _ => (Service.tries_ofExcept result).mpr
    ⟨fun _ _ => trivial, fun _ _ => trivial⟩⟩
  rcases held with rfl | rfl
  · exact rfl
  · exact rfl

theorem keeps_refresh (id : String) : (refresh id).run.Keeps (polling id) (fun _ _ => True) .idle := by
  have kept : Tries (polling id) (fun _ _ => True) (fun _ _ => True) (refresh id) .idle := by
    unfold refresh load
    rw [tries_bind, tries_bind]
    refine (Service.tries_store _).mpr ⟨trivial, fun found same => ?_, fun _ _ => trivial⟩
    cases found with
    | none => trivial
    | some job =>
      obtain rfl : job.id = id := same
      rw [tries_pure]
      split
      next => trivial
      next =>
        rw [tries_bind]
        refine (Service.tries_ask _).mpr ⟨rfl, fun granted _ => ?_⟩
        split
        next claimed =>
          obtain rfl : granted = true := claimed
          rw [tries_bind, Service.tries_attempt]
          refine (tries_observe job).mono (fun status stage settled => ?_) fun cause stage held => ?_
          · exact tries_release job.id (.inr settled) (.ok status)
          · exact tries_release job.id held (.error cause)
        next => trivial
  exact Keeps.mono kept fun _ _ _ => trivial

end Dispatch.Job
