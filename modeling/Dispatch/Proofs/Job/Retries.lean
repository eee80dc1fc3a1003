import Dispatch.Job.Tracking
import Dispatch.Proofs.Backend.Footprint
import Dispatch.Proofs.Job.Table
import Dispatch.Proofs.Session.History
/-!
Polls and cancellations that fail. The one move of a job comes last, after all that can go wrong at its place; and what
was claimed before is given up on every way out. So whoever has failed can try again.
-/
namespace Dispatch

open Plan

/-- What is asked on the way to a place and there, and a move that the store has refused. -/
def Request.isIdle : (request : Request) → request.Reply → Bool
  | now, _ | machine _, _ | number _, _ | remote .., _ | provider .., _ | pause _, _ | readFile _, _ |
    store (.findJob _), _ | store (.findLocalAccount ..), _ | store (.transitionJob ..), .error _ => true
  | _, _ => false

theorem Request.isIdle_of {request : Request} (member : request.isOutward = true ∨ request.isOfPlace = true)
    (reply : request.Reply) : request.isIdle reply = true := by
  cases request with
  | store call =>
    cases call with
    | findLocalAccount => rfl
    | _ => simp [isOutward, isOfPlace] at member
  | number | machine | remote | provider | pause | readFile => rfl
  | _ => simp [isOutward, isOfPlace] at member

/-- A move that is refused is none. -/
theorem Store.Tables.transitionJob_refused {tables : Store.Tables} {id : String} {next : Job.Status} {instant : Instant}
    {fault : Store.Fault} (refused : (tables.transitionJob id next instant).1 = .error fault) :
    (tables.transitionJob id next instant).2 = tables := by
  unfold transitionJob at refused ⊢
  split at refused
  next => rfl
  next => split at refused <;> cases refused

/-- Nothing that is shared changes by what is idle. -/
theorem Shared.Serves.eq_of_isIdle {shared next : Shared} {request : Request} {reply : request.Reply}
    (served : shared.Serves request reply next) (idle : request.isIdle reply = true) : next = shared := by
  cases request with
  | store call =>
    rcases Shared.serves_store served with ⟨told, rfl⟩ | ⟨_, rfl⟩
    · cases call with
      | findJob | findLocalAccount => rfl
      | transitionJob id status instant =>
        cases reply with
        | ok answer => cases idle
        | error fault =>
          change { shared with tables := (shared.tables.transitionJob id status instant).2 } = shared
          rw [Store.Tables.transitionJob_refused told.symm]
      | _ => cases idle
    · rfl
  | now | machine | number | remote | provider | pause | readFile =>
    have answered := served.answers fun _ same => nomatch same
    exact answered
  | _ => cases idle

/-- The claim that a moment makes or gives up. -/
def Moment.holding? {σ : Type} : Moment σ → Option (String × Bool)
  | ⟨_, .claim job, true, _⟩ => some (job, true)
  | ⟨_, .release job, _, _⟩ => some (job, false)
  | _ => none

namespace Job

section Idle

variable {σ : Type} {setting : Setting σ} {state : σ} {rule : σ → Prop}
  (kept : ∀ {state next : σ} {request : Request} {reply : request.Reply}, request.isIdle reply = true →
    setting state request reply next → rule state → rule next)
include kept

/-- Up to the move of the job nothing happens, and the move is the last thing that can fail. -/
theorem ensures_observe_idle {moved : Status → σ → Prop} (job : Job)
    (moves : ∀ {state next : σ} {wanted status : Status} {instant : Instant}, rule state →
      setting state (.store (.transitionJob job.id wanted instant)) (.ok status) next → moved status next)
    (holds : rule state) : Ensures setting moved (fun _ last => rule last) job.observe state := by
  unfold observe
  split
  next => exact (ensures_throw _).mpr holds
  next handle _ =>
    have places : Preserves setting rule job.place :=
      job.asks_place.preserves fun member answered => kept (Request.isIdle_of (.inr member) _) answered
    rw [ensures_bind]
    refine (places state holds).mono (fun place found holds => ?_) fun _ _ holds => holds
    have looks : Preserves setting rule (place.status handle) :=
      (place.yields_status handle fun _ => Request.isOutward_of_follows).preserves fun member answered =>
        kept (Request.isIdle_of (.inl member) _) answered
    rw [ensures_bind, Service.ensures_backend]
    refine (looks found holds).mono (fun status seen holds => ?_) fun _ _ holds => holds
    rw [ensures_bind, Service.ensures_ask]
    intro instant asked answered
    refine (Service.ensures_store (.transitionJob _ _ _)).mpr ⟨fun status last told => ?_, fun fault last told => ?_⟩
    · exact moves (kept rfl answered holds) told
    · exact kept rfl told (kept rfl answered holds)

/-- A cancellation, too, moves the job last. -/
theorem ensures_cancelAtPlace_idle {moved : σ → Prop} (job : Job)
    (moves : ∀ {state next : σ} {status : Status} {instant : Instant}, rule state →
      setting state (.store (.transitionJob job.id .cancelled instant)) (.ok status) next → moved next)
    (holds : rule state) :
    Ensures setting (fun _ last => moved last) (fun _ last => rule last) job.cancelAtPlace state := by
  have movesOn (state : σ) (holds : rule state) : Ensures setting (fun _ last => moved last) (fun _ last => rule last)
      (do
        let now ← Service.ask .now
        let _ ← Service.store (.transitionJob job.id .cancelled now)) state := by
    rw [ensures_bind, Service.ensures_ask]
    intro instant asked answered
    refine (ensures_bind _ _).mpr ((Service.ensures_store (.transitionJob _ _ _)).mpr
      ⟨fun status last told => ?_, fun fault last told => ?_⟩)
    · exact (ensures_pure _).mpr (moves (kept rfl answered holds) told)
    · exact kept rfl told (kept rfl answered holds)
  unfold cancelAtPlace
  split
  next => exact movesOn state holds
  next handle _ =>
    have places : Preserves setting rule job.place :=
      job.asks_place.preserves fun member answered => kept (Request.isIdle_of (.inr member) _) answered
    rw [ensures_bind]
    refine (places state holds).mono (fun place found holds => ?_) fun _ _ holds => holds
    have ends : Preserves setting rule (place.cancel handle) :=
      (place.asks_cancel handle fun _ => Request.isOutward_of_isCancelledBy).preserves fun member answered =>
        kept (Request.isIdle_of (.inl member) _) answered
    rw [ensures_bind, Service.ensures_backend]
    exact (ends found holds).mono (fun _ done holds => movesOn done holds) fun _ _ holds => holds

end Idle

section Cancelling

variable {σ : Type} {setting : Setting σ} {state : σ} {rule : σ → Prop} (view : σ → Shared)
  (faithful : ∀ {state next : σ} {request : Request} {reply : request.Reply}, setting state request reply next →
    Shared.amongOthers (view state) request reply (view next))
  (kept : ∀ {state next : σ} {request : Request} {reply : request.Reply},
    request.isIdle reply = true ∨ request.isOfSession = true → setting state request reply next → rule state →
    rule next)
include faithful kept

/-- A cancellation that fails has kept to what is idle and to the history; the end of one that has moved the job is
always noted. -/
theorem ensures_cancel_kept (key id : String) (holds : rule state) :
    Ensures setting (fun _ _ => True) (fun _ last => rule last) (cancel key id) state := by
  have keepsSession {state next : σ} {request : Request} {reply : request.Reply}
      (answered : setting state request reply next) (known : ((view state).tables.session? key).isSome = true) :
      ((view next).tables.session? key).isSome = true := by
    obtain ⟨_, moved, told⟩ := faithful answered
    exact (moved.trans (Shared.Serves.keepsRows (.inl told))).sessions key known
  let standing (state : σ) : Prop := rule state ∧ ((view state).tables.session? key).isSome = true
  have noting {α : Type} {service : Service α} (asks : Asks Request.isOfSession service) :
      Preserves setting standing service := asks.preserves fun member answered standing =>
    ⟨kept (.inr member) answered standing.1, keepsSession answered standing.2⟩
  have gate : Ensures setting (fun _ last => standing last) (fun _ last => rule last) (Session.authorize key)
      state := by
    have passes : Preserves setting rule (Session.authorize key) :=
      (Session.asks_authorize key).preserves fun member => kept (.inr member)
    have known : Ensures setting (fun _ last => ((view last).tables.session? key).isSome = true)
        (fun _ _ => True) (Session.authorize key) state :=
      (Ensures.through view (Session.ensures_gate fun answered => answered) faithful).mono (fun _ _ known => known)
        fun _ _ _ => trivial
    exact ((passes state holds).and known).mono (fun _ _ known => known) fun _ _ known => known.1
  unfold cancel
  rw [ensures_bind]
  refine gate.mono (fun caller passed stands => ?_) fun _ _ holds => holds
  have loads : Ensures setting (fun _ last => standing last) (fun _ last => rule last) (load id) passed := by
    unfold load
    refine (ensures_bind _ _).mpr ((Service.ensures_store (.findJob id)).mpr
      ⟨fun found next answered => ?_, fun fault next answered => kept (.inl rfl) answered stands.1⟩)
    cases found with
    | none => exact (ensures_throw _).mpr (kept (.inl rfl) answered stands.1)
    | some job => exact (ensures_pure job).mpr ⟨kept (.inl rfl) answered stands.1, keepsSession answered stands.2⟩
  rw [ensures_bind]
  refine loads.mono (fun job loaded stands => ?_) fun _ _ holds => holds
  rw [ensures_bind, Service.ensures_ofExcept]
  refine ⟨fun _ _ => ?_, fun _ _ => stands.1⟩
  split
  next => exact (ensures_pure ()).mpr trivial
  next =>
    refine Session.ensures_within_parts _ ((noting (Session.asks_startCommand _ _ _) loaded stands).mono
      (fun _ _ stands => stands) fun _ _ stands => stands.1) fun begun stands => ?_
    refine (ensures_cancelAtPlace_idle (fun idle answered standing => ⟨kept (.inl idle) answered standing.1,
      keepsSession answered standing.2⟩) job (fun standing answered => keepsSession answered standing.2) stands).mono
      (fun _ done known => ?_) fun cause done stands => ?_
    · exact (Ensures.through view (Session.ensures_record_among (fun answered => answered) known _ _ _ _) faithful).mono
        (fun _ _ _ => trivial) fun _ _ never => never.elim
    · exact (noting (Session.asks_record _ _ _ _ _) done stands).mono (fun _ _ stands => stands.1) fun _ _ stands =>
        stands.1

end Cancelling

section Polling

/-- A poll, part by part: the job that is found, the claim, what is asked under the claim, and the release. -/
theorem ensures_refresh_parts {σ : Type} {setting : Setting σ} {state : σ} {id : String} {found : Job → σ → Prop}
    {moved gives : Status → σ → Prop} {unmoved : σ → Prop} {fails : Failure → σ → Prop}
    (loads : Ensures setting found fails (load id) state)
    (stays : ∀ {job now}, found job now → gives job.status now)
    (refused : ∀ {job now next}, found job now → setting now (.claim id) false next → gives job.status next)
    (granted : ∀ {job now next}, found job now → setting now (.claim id) true next →
      Ensures setting moved (fun _ last => unmoved last) job.observe next)
    (succeeds : ∀ {status now next}, moved status now → setting now (.release id) () next → gives status next)
    (failed : ∀ {cause now next}, unmoved now → setting now (.release id) () next → fails cause next) :
    Ensures setting gives fails (refresh id) state := by
  unfold refresh
  rw [ensures_bind]
  refine loads.mono (fun job loaded known => ?_) fun _ _ known => known
  split
  next => exact (ensures_pure _).mpr (stays known)
  next =>
    rw [ensures_bind, Service.ensures_ask]
    intro claims claimed answered
    cases claims with
    | false => exact (ensures_pure _).mpr (refused known answered)
    | true =>
      rw [if_pos rfl, ensures_bind, Service.ensures_attempt]
      refine (granted known answered).mono (fun status done known => ?_) fun cause done known => ?_
      · refine (ensures_bind _ _).mpr ((Service.ensures_ask (.release id)).mpr fun _ last released => ?_)
        exact (Service.ensures_ofExcept _).mpr
          ⟨fun _ same => Except.ok.inj same ▸ succeeds known released, nofun⟩
      · refine (ensures_bind _ _).mpr ((Service.ensures_ask (.release id)).mpr fun _ last released => ?_)
        exact (Service.ensures_ofExcept _).mpr ⟨nofun, fun _ _ => failed known released⟩

/-- What a poll comes to alone: it tells the status that is stored then, or it fails and has changed nothing; and what
it has claimed it has given up. -/
theorem ensures_refresh_alone (id : String) (shared : Shared) :
    Ensures Shared.Serves
      (fun status last => last.claimed = shared.claimed ∧
        ∃ row, last.tables.job? id = some row ∧ row.status = status)
      (fun _ last => last = shared) (refresh id) shared := by
  let asking : Shared := { shared with claimed := id :: shared.claimed }
  have loads : Ensures Shared.Serves (fun job last => last = shared ∧ shared.tables.job? id = some job)
      (fun _ last => last = shared) (load id) shared := by
    unfold load
    refine (ensures_bind _ _).mpr ((Service.ensures_store (.findJob id)).mpr
      ⟨fun found next answered => ?_, fun fault next answered => answered.eq_of_isIdle rfl⟩)
    obtain ⟨told, same⟩ := answered.resolve_right fun failed => failed
    cases found with
    | none => exact (ensures_throw _).mpr same
    | some job => exact (ensures_pure job).mpr ⟨same, (Except.ok.inj told).symm⟩
  let moved (status : Status) (last : Shared) : Prop := id ∉ shared.claimed ∧ last.claimed = asking.claimed ∧
    ∃ row, last.tables.job? id = some row ∧ row.status = status
  let unmoved (last : Shared) : Prop := id ∉ shared.claimed ∧ last = asking
  have grants {job : Job} {now next : Shared} (known : now = shared ∧ shared.tables.job? id = some job)
      (answered : now.Serves (.claim id) true next) :
      Ensures Shared.Serves moved (fun _ last => unmoved last) job.observe next := by
    obtain ⟨rfl, stored⟩ := known
    obtain ⟨told, rfl⟩ := answered.answers fun _ => nofun
    have free : id ∉ now.claimed := by simpa using told
    have kept {state next : Shared} {request : Request} {reply : request.Reply} (idle : request.isIdle reply = true)
        (answered : state.Serves request reply next) (same : unmoved state) : unmoved next :=
      ⟨free, (answered.eq_of_isIdle idle).trans same.2⟩
    refine @ensures_observe_idle _ Shared.Serves asking unmoved kept moved job ?_ ⟨free, rfl⟩
    rintro _ next wanted status instant ⟨-, rfl⟩ answered
    obtain ⟨told, rfl⟩ := answered.resolve_right fun failed => failed
    obtain ⟨row, found, same, -⟩ := Store.Tables.transitionJob_tells told.symm
    exact ⟨free, rfl, row, (Store.Tables.job?_some stored).2 ▸ found, same⟩
  have givenUp (free : id ∉ shared.claimed) : asking.claimed.filter (fun other => other ≠ id) = shared.claimed := by
    change (id :: shared.claimed).filter _ = _
    rw [List.filter_cons_of_neg (by simp), List.filter_eq_self]
    intro other member
    simpa using fun same : other = id => free (same ▸ member)
  refine ensures_refresh_parts loads ?_ ?_ grants ?_ ?_
  · rintro job _ ⟨rfl, stored⟩
    exact ⟨rfl, job, stored, rfl⟩
  · rintro job _ next ⟨rfl, stored⟩ answered
    obtain rfl := (answered.answers fun _ => nofun).2
    exact ⟨rfl, job, stored, rfl⟩
  · rintro status now next ⟨free, claimed, stored⟩ released
    obtain rfl := released.answers fun _ => nofun
    exact ⟨by rw [claimed]; exact givenUp free, stored⟩
  · rintro cause _ next ⟨free, rfl⟩ released
    obtain rfl := released.answers fun _ => nofun
    change { shared with claimed := asking.claimed.filter fun other => other ≠ id } = shared
    rw [givenUp free]

/-- A job that has ended is looked up, and that is all. -/
theorem ensures_refresh_ended {id : String} {shared : Shared} {job : Job}
    (stored : shared.tables.job? id = some job) (ended : job.status.isTerminal = true) :
    Ensures Shared.Serves.recorded
      (fun _ last => last.state = shared ∧ ∀ moment ∈ last.trace, moment.request.isOutward = false)
      (fun _ last => last.state = shared ∧ ∀ moment ∈ last.trace, moment.request.isOutward = false)
      (refresh id) { state := shared } := by
  have looked {reply : Except Store.Fault (Option Job)} {next : Recorded Shared}
      (answered : Shared.Serves.recorded { state := shared } (.store (.findJob id)) reply next) :
      next.state = shared ∧ ∀ moment ∈ next.trace, moment.request.isOutward = false := by
    refine ⟨answered.1.eq_of_isIdle rfl, fun moment member => ?_⟩
    rw [answered.2] at member
    rw [List.mem_singleton.mp member]
    rfl
  unfold refresh load
  rw [ensures_bind, ensures_bind]
  refine (Service.ensures_store (.findJob id)).mpr
    ⟨fun found next answered => ?_, fun fault next answered => looked answered⟩
  obtain ⟨told, -⟩ := answered.1.resolve_right fun failed => failed
  obtain rfl : found = some job := (Except.ok.inj told).trans stored
  refine (ensures_pure job).mpr ?_
  rw [if_pos ended]
  exact (ensures_pure _).mpr (looked answered)

end Polling

/-- At none of these moments the row of a job has changed. -/
def LeavesJobs (own : List (Moment Shared)) : Prop :=
  ∀ moment ∈ own, moment.after.tables.jobs = moment.before.tables.jobs

theorem LeavesJobs.snoc {own : List (Moment Shared)} {moment : Moment Shared} (left : LeavesJobs own)
    (same : moment.after.tables.jobs = moment.before.tables.jobs) : LeavesJobs (own ++ [moment]) := by
  intro other member
  rcases List.mem_append.mp member with earlier | here
  · exact left other earlier
  · rwa [List.mem_singleton.mp here]

/-- What has been claimed and released at these moments, which have left jobs alone. -/
structure Holds (claims : List (String × Bool)) (own : List (Moment Shared)) : Prop where
  left : LeavesJobs own
  claims : own.filterMap Moment.holding? = claims

/-- What is claimed at these moments is released again, or nothing is claimed. -/
def GivesBack (id : String) (own : List (Moment Shared)) : Prop :=
  own.filterMap Moment.holding? = [] ∨ own.filterMap Moment.holding? = [(id, true), (id, false)]

section Company

variable {moves : Shared → Shared → Prop} {setting : Setting Shared} {now next : Recorded Shared} {request : Request}
  {reply : request.Reply} {claims : List (String × Bool)}

/-- What is written down among others is what has been said to this plan. -/
theorem grown_of_amid (answered : Setting.amid (Recorded.Moves moves) setting.recorded now request reply next) :
    ∃ before : Shared, setting before request reply next.state ∧
      next.trace = now.trace ++ [{ before, request, reply, after := next.state }] := by
  obtain ⟨middle, ⟨-, same⟩, told, grown⟩ := answered
  exact ⟨middle.state, told, same ▸ grown⟩

theorem holding_of_amid (answered : Setting.amid (Recorded.Moves moves) setting.recorded now request reply next)
    (more : Option (String × Bool))
    (told : ∀ before after : Shared, Moment.holding? { before, request, reply, after } = more) :
    next.trace.filterMap Moment.holding? = now.trace.filterMap Moment.holding? ++ more.toList := by
  obtain ⟨before, -, grown⟩ := grown_of_amid answered
  rw [grown, List.filterMap_append, List.filterMap_cons, told]
  cases more <;> rfl

variable (served : ∀ {state next : Shared} {request : Request} {reply : request.Reply},
  setting state request reply next → state.Serves request reply next)
include served

theorem leavesJobs_of_amid (left : LeavesJobs now.trace)
    (answered : Setting.amid (Recorded.Moves moves) setting.recorded now request reply next)
    (spares : ∀ {before after : Shared}, before.Serves request reply after → after.tables.jobs = before.tables.jobs) :
    LeavesJobs next.trace := by
  obtain ⟨before, said, grown⟩ := grown_of_amid answered
  exact grown ▸ left.snoc (spares (served said))

/-- What is idle and what belongs to a session leaves jobs alone, and claims nothing. -/
theorem Holds.quiet (holds : Holds claims now.trace)
    (quiet : request.isIdle reply = true ∨ request.isOfSession = true)
    (answered : Setting.amid (Recorded.Moves moves) setting.recorded now request reply next) :
    Holds claims next.trace := by
  refine ⟨leavesJobs_of_amid served holds.left answered fun said => ?_, ?_⟩
  · rcases quiet with idle | member
    · rw [said.eq_of_isIdle idle]
    · obtain ⟨_, _, _, same⟩ := Shared.IsNoted.of_serves member said
      rw [same]
  · refine (holding_of_amid answered none fun _ _ => ?_).trans (by simp [holds.claims])
    cases request with
    | claim | release => rcases quiet with idle | member <;> contradiction
    | _ => rfl

/-- A claim or a release is written down, and nothing happens to the tables. -/
theorem Holds.shift (holds : Holds claims now.trace) (more : Option (String × Bool))
    (answered : Setting.amid (Recorded.Moves moves) setting.recorded now request reply next)
    (apart : ∀ call, request ≠ .store call)
    (told : ∀ before after : Shared, Moment.holding? { before, request, reply, after } = more) :
    Holds (claims ++ more.toList) next.trace :=
  ⟨leavesJobs_of_amid served holds.left answered fun said => congrArg Store.Tables.jobs (said.tables_eq apart),
    holds.claims ▸ holding_of_amid answered more told⟩

end Company

section Amid

variable {moves : Shared → Shared → Prop} {now : Recorded Shared} (fresh : now.trace = [])
include fresh

theorem holds_nothing : Holds [] now.trace := by
  rw [fresh]
  exact ⟨fun moment member => absurd member List.not_mem_nil, rfl⟩

/-- What a poll does among others: it releases what it has claimed, and if it fails, no row has changed by it. -/
theorem ensures_refresh_amid (id : String) :
    Ensures (Setting.amid (Recorded.Moves moves) Shared.Serves.recorded) (fun _ last => GivesBack id last.trace)
      (fun _ last => GivesBack id last.trace ∧ LeavesJobs last.trace) (refresh id) now := by
  have idles {claims : List (String × Bool)} {now next : Recorded Shared} {request : Request} {reply : request.Reply}
      (idle : request.isIdle reply = true)
      (answered : Setting.amid (Recorded.Moves moves) Shared.Serves.recorded now request reply next)
      (holds : Holds claims now.trace) : Holds claims next.trace :=
    holds.quiet (fun served => served) (.inl idle) answered
  have begins := holds_nothing fresh
  have loads : Ensures (Setting.amid (Recorded.Moves moves) Shared.Serves.recorded)
      (fun _ last => Holds [] last.trace)
      (fun _ last => GivesBack id last.trace ∧ LeavesJobs last.trace) (load id) now := by
    unfold load
    refine (ensures_bind _ _).mpr ((Service.ensures_store (.findJob id)).mpr
      ⟨fun found next answered => ?_, fun fault next answered => ?_⟩)
    · have holds := idles rfl answered begins
      cases found with
      | none => exact (ensures_throw _).mpr ⟨.inl holds.claims, holds.left⟩
      | some job => exact (ensures_pure job).mpr holds
    · have holds := idles rfl answered begins
      exact ⟨.inl holds.claims, holds.left⟩
  let moved (_ : Status) (last : Recorded Shared) : Prop := last.trace.filterMap Moment.holding? = [(id, true)]
  refine @ensures_refresh_parts _ _ _ _ (fun _ last => Holds [] last.trace) moved _
    (fun last => Holds [(id, true)] last.trace) _ loads ?_ ?_ ?_ ?_ ?_
  · exact fun holds => .inl holds.claims
  · intro job now next holds answered
    exact .inl (holds.shift (fun served => served) none answered (fun _ => nofun) fun _ _ => rfl).claims
  · intro job now next holds answered
    have claimed : Holds [(id, true)] next.trace :=
      holds.shift (fun served => served) (some (id, true)) answered (fun _ => nofun) fun _ _ => rfl
    refine @ensures_observe_idle _ _ _ (fun last => Holds [(id, true)] last.trace) idles moved job ?_ claimed
    intro now next wanted status instant holds answered
    exact (holding_of_amid answered none fun _ _ => rfl).trans (by simp [holds.claims])
  · intro status now next claimed answered
    exact .inr ((holding_of_amid answered (some (id, false)) fun _ _ => rfl).trans (by rw [claimed]; rfl))
  · intro cause now next holds answered
    have released : Holds [(id, true), (id, false)] next.trace :=
      holds.shift (fun served => served) (some (id, false)) answered (fun _ => nofun) fun _ _ => rfl
    exact ⟨.inr released.claims, released.left⟩

/-- A cancellation claims nothing, and if it fails, no row of a job has changed by it. -/
theorem ensures_cancel_amid (key id : String) :
    Ensures (Setting.amid (Recorded.Moves Shared.KeepsRows) Shared.Answers.recorded) (fun _ _ => True)
      (fun _ last => Holds [] last.trace) (cancel key id) now := by
  refine @ensures_cancel_kept _ _ _ (fun last => Holds [] last.trace) Recorded.state ?_ ?_ key id (holds_nothing fresh)
  · rintro state next request reply ⟨middle, ⟨moved, -⟩, told, -⟩
    exact ⟨middle.state, moved, told⟩
  · intro state next request reply quiet answered holds
    exact holds.quiet Or.inl quiet answered

end Amid

/-- A cancellation that fails by itself has changed no row of a job and no claim. -/
theorem ensures_cancel_alone (key id : String) (shared : Shared) :
    Ensures Shared.Answers (fun _ _ => True)
      (fun _ last => last.tables.jobs = shared.tables.jobs ∧ last.claimed = shared.claimed) (cancel key id) shared := by
  let same (last : Shared) : Prop := last.tables.jobs = shared.tables.jobs ∧ last.claimed = shared.claimed
  refine @ensures_cancel_kept _ Shared.Answers shared same (fun state => state) ?_ ?_ key id ⟨rfl, rfl⟩
  · exact fun answered => ⟨_, .refl _, answered⟩
  · rintro state next request reply (idle | member) answered known
    · rwa [Shared.Serves.eq_of_isIdle (.inl answered) idle]
    · obtain ⟨_, _, _, rfl⟩ := Shared.IsNoted.of_serves member (.inl answered)
      exact known

section Among

variable {turns : List (Turn Shared)} {place : Nat} {id : String}

/-- What a poll has done among others is what it can do among others. -/
theorem refresh_among {pool last : Pool Shared (Except Failure Status)} {result : Except Failure Status}
    (played : Pool.Plays Shared.Serves pool turns last) (begins : pool.plans[place]? = some (refresh id).run)
    (ended : last.plans[place]? = some (.done result)) :
    GivesBack id (turnsOf place turns) ∧ (result.isOk = false → LeavesJobs (turnsOf place turns)) := by
  have amid : (refresh id).run.EndsAmid (Recorded.Moves fun _ _ => True) Shared.Serves.recorded
      { state := pool.state } result { state := last.state, trace := turnsOf place turns } :=
    played.endsAmid (fun _ => trivial) (fun _ _ _ _ _ => trivial) begins (fun _ _ _ => trivial) ended
  obtain ⟨middle, ran, -, grown⟩ := amid
  have known := ensures_refresh_amid rfl id result middle ran
  dsimp only at grown
  rw [grown]
  cases result with
  | ok _ => exact ⟨known, nofun⟩
  | error _ => exact ⟨known.1, fun _ => known.2⟩

theorem cancel_among {pool last : Pool Shared (Except Failure Unit)} {key : String} {cause : Failure}
    (played : Pool.Plays Shared.Answers pool turns last) (begins : pool.plans[place]? = some (cancel key id).run)
    (ended : last.plans[place]? = some (.done (.error cause))) : Holds [] (turnsOf place turns) := by
  have others (turn : Turn Shared) (member : turn ∈ turns) : turn.moment.before.KeepsRows turn.moment.after := by
    obtain ⟨front, back, rfl⟩ := List.append_of_mem member
    obtain ⟨_, _, -, moved⟩ := played.split
    exact Shared.Serves.keepsRows (.inl moved.answered)
  have amid : (cancel key id).run.EndsAmid (Recorded.Moves Shared.KeepsRows) Shared.Answers.recorded
      { state := pool.state } (.error cause) { state := last.state, trace := turnsOf place turns } :=
    played.endsAmid Shared.KeepsRows.refl (fun _ _ _ => Shared.KeepsRows.trans) begins
      (fun turn member _ => others turn member) ended
  obtain ⟨middle, ran, -, grown⟩ := amid
  have known : Holds [] middle.trace := ensures_cancel_amid rfl key id (.error cause) middle ran
  dsimp only at grown
  rwa [grown]

end Among

/-- Whatever goes wrong at its place, a poll or a cancellation that fails has changed no row of a job, and the claims
are what they were; so it can be tried again. A poll that succeeds tells the status that is stored then, and if the job
had ended, it has asked the store and nobody outside. The same holds of what a poll or a cancellation does while other
plans are under way, whatever they are: what it has claimed it has released. The store may fail under a poll; under a
cancellation it may not, which still has to note its end when it has moved the job. -/
theorem failures_can_be_retried (key id : String) (shared : Shared) :
    (∀ cause last, Finishes Shared.Serves (refresh id) shared (.error cause) last → last = shared) ∧
    (∀ cause last, Finishes Shared.Answers (cancel key id) shared (.error cause) last →
      last.tables.jobs = shared.tables.jobs ∧ last.claimed = shared.claimed) ∧
    (∀ status last, Finishes Shared.Serves (refresh id) shared (.ok status) last →
      last.claimed = shared.claimed ∧ ∃ row, last.tables.job? id = some row ∧ row.status = status) ∧
    (∀ job result last, shared.tables.job? id = some job → job.status.isTerminal = true →
      Finishes Shared.Serves.recorded (refresh id) { state := shared } result last →
      last.state = shared ∧ ∀ moment ∈ last.trace, moment.request.isOutward = false) ∧
    (∀ (plans : List (Plan (Except Failure Status))) turns last place result,
      Pool.Plays Shared.Serves { state := shared, plans } turns last →
      plans[place]? = some (refresh id).run → last.plans[place]? = some (.done result) →
      GivesBack id (turnsOf place turns) ∧ (result.isOk = false → LeavesJobs (turnsOf place turns))) ∧
    ∀ (plans : List (Plan (Except Failure Unit))) turns last place cause,
      Pool.Plays Shared.Answers { state := shared, plans } turns last →
      plans[place]? = some (cancel key id).run → last.plans[place]? = some (.done (.error cause)) →
      Holds [] (turnsOf place turns) := by
  refine ⟨fun cause last => ensures_refresh_alone id shared (.error cause) last,
    fun cause last => ensures_cancel_alone key id shared (.error cause) last,
    fun status last => ensures_refresh_alone id shared (.ok status) last,
    fun job result last stored ended finished => ?_,
    fun plans turns last place result played begins ended => refresh_among played begins ended,
    fun plans turns last place cause played begins ended => cancel_among played begins ended⟩
  have known := ensures_refresh_ended stored ended result last finished
  cases result with
  | ok _ => exact known
  | error _ => exact known

/-- A job on a machine that nobody knows any more, and one that is over. -/
def strandedStart : Shared :=
  { tables := {
      users := [{ id := "alice", passwordHash := "" }]
      sessions := [{ (default : Session) with key := "key", id := "s", user := "alice" }]
      jobs := [
        { (default : Job) with id := "J", owner := "alice", machine := "lost", handle := some "7.1" },
        { (default : Job) with id := "K", owner := "alice", machine := "lost", status := .completed }] } }

def strandedResponder : Pool.Responder Shared := Shared.respond fun
  | .machine _ => none
  | request => Shared.outsideOf default "" request

/-- Two polls of the stranded job, the second one while the first has it claimed. -/
def strandedPolls : List (Turn Shared) × Pool Shared (Except Failure Status) :=
  Pool.playTurns strandedResponder ([0, 0, 1, 1, 1] ++ List.replicate 9 0)
    { state := strandedStart, plans := [(refresh "J").run, (refresh "J").run] }

/-- Two attempts to cancel it, turn by turn. -/
def strandedCancels : List (Turn Shared) × Pool Shared (Except Failure Unit) :=
  Pool.playTurns strandedResponder (List.replicate 30 [0, 1]).flatten
    { state := strandedStart, plans := [(cancel "key" "J").run, (cancel "key" "J").run] }

theorem strandedStart_can_be_retried :
    (∃ cause last, Finishes Shared.Serves (refresh "J") strandedStart (.error cause) last ∧ last = strandedStart) ∧
    (∃ cause last, Finishes Shared.Answers (cancel "key" "J") strandedStart (.error cause) last ∧
      last.tables.jobs = strandedStart.tables.jobs ∧ last.claimed = strandedStart.claimed) ∧
    (∃ last, Finishes Shared.Serves (refresh "K") strandedStart (.ok .completed) last ∧
      last.claimed = strandedStart.claimed ∧ ∃ row, last.tables.job? "K" = some row ∧ row.status = .completed) ∧
    (∃ last, Finishes Shared.Serves.recorded (refresh "K") { state := strandedStart } (.ok .completed) last ∧
      last.state = strandedStart ∧ ∀ moment ∈ last.trace, moment.request.isOutward = false) ∧
    (∃ cause, strandedPolls.2.plans[0]? = some (.done (.error cause)) ∧ GivesBack "J" (turnsOf 0 strandedPolls.1) ∧
      LeavesJobs (turnsOf 0 strandedPolls.1)) ∧
    ∃ cause, strandedCancels.2.plans[1]? = some (.done (.error cause)) ∧ Holds [] (turnsOf 1 strandedCancels.1) := by
  have answered {request : Request} {shared next : Shared} {reply : request.Reply}
      (replied : strandedResponder request shared = some (reply, next)) : shared.Answers request reply next :=
    Shared.answers_respond replied
  have served {request : Request} {shared next : Shared} {reply : request.Reply}
      (replied : strandedResponder request shared = some (reply, next)) : shared.Serves request reply next :=
    .inl (answered replied)
  have fails {α : Type} {setting : Setting Shared} (service : Service α)
      (told : ∀ {request : Request} {shared next : Shared} {reply : request.Reply},
        strandedResponder request shared = some (reply, next) → setting shared request reply next)
      (ran : (service.run.follow strandedResponder strandedStart).map (fun ended => ended.1.isOk) = some false) :
      ∃ cause last, Finishes setting service strandedStart (.error cause) last := by
    obtain ⟨⟨cause | value, last⟩, ran, failed⟩ := Option.map_eq_some_iff.mp ran
    · exact ⟨cause, last, ends_follow told ran⟩
    · cases failed
  have fallen {α : Type} (pool : Pool Shared (Except Failure α)) (place : Nat)
      (failed : (pool.plans[place]?.bind Plan.ended?).map Except.isOk = some false) :
      ∃ cause, pool.plans[place]? = some (.done (.error cause)) := by
    obtain ⟨cause | value, ended, failed⟩ := Option.map_eq_some_iff.mp failed
    · obtain ⟨plan, stands, ended⟩ := Option.bind_eq_some_iff.mp ended
      exact ⟨cause, eq_done_of_ended ended ▸ stands⟩
    · cases failed
  obtain ⟨pollFails, cancelFails, -, -, polls, cancels⟩ := failures_can_be_retried "key" "J" strandedStart
  obtain ⟨-, -, pollTells, pollLooks, -, -⟩ := failures_can_be_retried "key" "K" strandedStart
  refine ⟨?_, ?_, ?_, ?_, ?_, ?_⟩
  · obtain ⟨cause, last, ended⟩ := fails (refresh "J") served (by decide +kernel)
    exact ⟨cause, last, ended, pollFails cause last ended⟩
  · obtain ⟨cause, last, ended⟩ := fails (cancel "key" "J") answered (by decide +kernel)
    exact ⟨cause, last, ended, cancelFails cause last ended⟩
  · have ended : Finishes Shared.Serves (refresh "K") strandedStart (.ok .completed) strandedStart :=
      ends_follow served rfl
    exact ⟨_, ended, pollTells _ _ ended⟩
  · have ended : Finishes Shared.Serves.recorded (refresh "K") { state := strandedStart } (.ok .completed) _ :=
      ends_follow (Pool.Responder.answers_recorded served) rfl
    exact ⟨_, ended, pollLooks _ _ _ rfl rfl ended⟩
  · obtain ⟨cause, ended⟩ := fallen strandedPolls.2 0 (by decide +kernel)
    obtain ⟨gives, left⟩ := polls _ _ _ 0 _ (Pool.plays_playTurns served _ _) rfl ended
    exact ⟨cause, ended, gives, left rfl⟩
  · obtain ⟨cause, ended⟩ := fallen strandedCancels.2 1 (by decide +kernel)
    exact ⟨cause, ended, cancels _ _ _ 1 cause (Pool.plays_playTurns answered _ _) rfl ended⟩

end Job

end Dispatch
