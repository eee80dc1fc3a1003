import Dispatch.Proofs.Backend.Footprint
import Dispatch.Proofs.Job.Table
import Dispatch.Proofs.Session.Table
/-!
Whose rows the calls to the store change. Most of them change no row of a job, an account or an authentication system
at all; a new job changes no row of another owner, and neither does a job that is moved on.
-/
namespace Dispatch

/-- What changes no row of a job, a user, an account or an authentication system, nor whose a session is, and does
nothing to jobs at their places. -/
def Request.isBystander : Request → Bool
  | .store call =>
    match call with
    | .insertUser _ | .insertLocalAccount _ | .insertAuthAccount _ | .setAuthAccounts .. | .insertSession _ |
      .updateSession _ | .insertJob _ | .updateJob _ | .transitionJob .. | .insertAuthSystem _ |
      .updateAuthSystem _ => false
    | _ => true
  | request => !request.isIntervention

theorem Request.isBystander_of {request : Request} (member : request.isOfSession = true ∨ request.isOfMint = true ∨
    request.isOfPlace = true ∨ request.isHarmless = true) : request.isBystander = true := by
  cases request with
  | store call =>
    cases call with
    | insertUser | insertLocalAccount | insertAuthAccount | setAuthAccounts | insertSession | updateSession |
      insertJob | updateJob | transitionJob | insertAuthSystem | updateAuthSystem =>
      simp [isOfSession, isOfMint, isOfPlace, isHarmless, isOutward] at member
    | _ => rfl
  | remote | provider =>
    simpa [isOfSession, isOfMint, isOfPlace, isHarmless, isOutward, isBystander] using member
  | _ => rfl

theorem Request.isIntervention_of_isBystander {request : Request} (bystands : request.isBystander = true) :
    request.isIntervention = false := by
  cases request with
  | store => rfl
  | _ => simpa [isBystander] using bystands

namespace Store.Tables

/-- The jobs of everybody else. -/
def jobsOfOthers (tables : Tables) (user : String) : List Job := tables.jobs.filter fun job => job.owner != user

/-- The same authentication systems, accounts and users, and no session acts as another user than before. -/
structure KeepsAccounts (before after : Tables) : Prop where
  authSystems : after.authSystems = before.authSystems
  authAccounts : after.authAccounts = before.authAccounts
  users : after.users = before.users
  localAccounts : after.localAccounts = before.localAccounts
  acting : ∀ key, (after.session? key).map Session.user = (before.session? key).map Session.user

/-- The same jobs beside. -/
structure Resembles (before after : Tables) : Prop extends KeepsAccounts before after where
  jobs : after.jobs = before.jobs

/-- Nothing is changed but what is the user's own. -/
structure Spares (user : String) (before after : Tables) : Prop extends KeepsAccounts before after where
  others : after.jobsOfOthers user = before.jobsOfOthers user
  distinct : after.HasDistinctJobs
  owned : ∀ job ∈ before.jobsOf user, ∃ row ∈ after.jobsOf user, row.id = job.id

variable {user : String} {before after later tables : Tables}

@[simp]
theorem mem_jobsOf {job : Job} : job ∈ tables.jobsOf user ↔ job ∈ tables.jobs ∧ job.owner = user := by
  simp [jobsOf]

theorem keepsAccounts_refl (tables : Tables) : tables.KeepsAccounts tables := ⟨rfl, rfl, rfl, rfl, fun _ => rfl⟩

theorem resembles_refl (tables : Tables) : tables.Resembles tables := ⟨keepsAccounts_refl tables, rfl⟩

theorem KeepsAccounts.trans (first : before.KeepsAccounts after) (second : after.KeepsAccounts later) :
    before.KeepsAccounts later := by
  constructor
  case authSystems => exact second.authSystems.trans first.authSystems
  case authAccounts => exact second.authAccounts.trans first.authAccounts
  case users => exact second.users.trans first.users
  case localAccounts => exact second.localAccounts.trans first.localAccounts
  case acting =>
    intro key
    exact (second.acting key).trans (first.acting key)

theorem spares_refl (distinct : tables.HasDistinctJobs) : tables.Spares user tables :=
  ⟨keepsAccounts_refl tables, rfl, distinct, fun job own => ⟨job, own, rfl⟩⟩

theorem Spares.trans (first : before.Spares user after) (second : after.Spares user later) :
    before.Spares user later := by
  constructor
  case toKeepsAccounts => exact first.toKeepsAccounts.trans second.toKeepsAccounts
  case others => exact second.others.trans first.others
  case distinct => exact second.distinct
  case owned =>
    intro job own
    obtain ⟨row, still, same⟩ := first.owned job own
    obtain ⟨last, stays, again⟩ := second.owned row still
    exact ⟨last, stays, again.trans same⟩

theorem Spares.resembles (spares : before.Spares user after) (same : after.Resembles later) :
    before.Spares user later := by
  constructor
  case toKeepsAccounts => exact spares.toKeepsAccounts.trans same.toKeepsAccounts
  case others =>
    rw [jobsOfOthers, same.jobs]
    exact spares.others
  case distinct =>
    rw [HasDistinctJobs, same.jobs]
    exact spares.distinct
  case owned =>
    rw [jobsOf, jobsOf, same.jobs]
    exact spares.owned

/-- Another session in the place of one acts as the same user. -/
theorem resembles_touchSession (tables : Tables) (key : String) (instant : Instant) :
    tables.Resembles (tables.touchSession key instant).2 := by
  rcases tables.touchSession_cases key instant with same | ⟨row, found, same⟩
  · rw [same]
    exact resembles_refl tables
  · rw [same]
    refine ⟨⟨rfl, rfl, rfl, rfl, fun wanted => ?_⟩, rfl⟩
    rw [session?_replaceSession]
    by_cases here : row.key = wanted
    · rw [if_pos here, ← here, (session?_some found).2, found]
      rfl
    · rw [if_neg here]

theorem resembles_answer (tables : Tables) {call : Call} (bystands : Request.isBystander (.store call) = true) :
    tables.Resembles (tables.answer call).2 := by
  cases call with
  | insertUser | insertLocalAccount | insertAuthAccount | setAuthAccounts | insertSession | updateSession |
    insertJob | updateJob | transitionJob | insertAuthSystem | updateAuthSystem => cases bystands
  | openTransaction | isTaken | findUser | findLocalAccount | authAccountsOf | findSession | findSessionWithId |
    activeSessions | insertEntry | entriesOf | findJob | jobsOf | unfinishedJobs | findAuthSystem | authSystems =>
    exact ⟨⟨rfl, rfl, rfl, rfl, fun _ => rfl⟩, rfl⟩
  | commit | rollback | reserve | assign | updateEntry =>
    simp only [answer, commit, rollback, reserve, assign, updateEntry]
    split
    next => exact ⟨⟨rfl, rfl, rfl, rfl, fun _ => rfl⟩, rfl⟩
    next => exact ⟨⟨rfl, rfl, rfl, rfl, fun _ => rfl⟩, rfl⟩
  | touchSession key instant => exact tables.resembles_touchSession key instant

/-- The identifiers of the user's jobs stay the user's. -/
theorem Spares.owner_eq (spares : before.Spares user after) {id : String}
    (own : ∃ job ∈ before.jobsOf user, job.id = id) {job : Job} (found : after.job? id = some job) :
    job.owner = user := by
  obtain ⟨old, owns, rfl⟩ := own
  obtain ⟨row, still, sameId⟩ := spares.owned old owns
  have stored := job?_of_mem spares.distinct (mem_jobsOf.mp still).1
  rw [sameId, found] at stored
  rw [Option.some.inj stored]
  exact (mem_jobsOf.mp still).2

/-- A new job of the user is no row of another. -/
theorem Spares.insertJob (spares : before.Spares user after) {job : Job} (own : job.owner = user) :
    before.Spares user (after.insertJob job).2 := by
  rcases after.insertJob_cases job with ⟨_, _, same⟩ | ⟨absent, same⟩
  · rw [same]
    exact spares
  · rw [same]
    constructor
    case toKeepsAccounts =>
      exact ⟨spares.authSystems, spares.authAccounts, spares.users, spares.localAccounts, spares.acting⟩
    case others =>
      rw [jobsOfOthers, filter_insertInOrder Job.id (by simp [own])]
      exact spares.others
    case distinct => exact spares.distinct.insertInOrder absent
    case owned =>
      intro old owns
      obtain ⟨row, still, sameId⟩ := spares.owned old owns
      have stored : row ∈ after.jobs := (mem_jobsOf.mp still).1
      have kept := (insertInOrder_perm Job.id job after.jobs).mem_iff.mpr (List.mem_cons_of_mem job stored)
      exact ⟨row, mem_jobsOf.mpr ⟨kept, (mem_jobsOf.mp still).2⟩, sameId⟩

/-- Nor is a job of the user that is moved on, as no other has its identifier. -/
theorem Spares.transitionJob (spares : before.Spares user after) {id : String}
    (own : ∃ job ∈ before.jobsOf user, job.id = id) (next : Job.Status) (instant : Instant) :
    before.Spares user (after.transitionJob id next instant).2 := by
  rcases after.transitionJob_cases id next instant with same | ⟨job, found, _, same⟩
  · rw [same]
    exact spares
  · rw [same]
    have moved : (job.moveTo next instant).id = job.id := rfl
    have sameId : job.id = id := (job?_some found).2
    have owner : job.owner = user := spares.owner_eq own found
    constructor
    case toKeepsAccounts =>
      exact ⟨spares.authSystems, spares.authAccounts, spares.users, spares.localAccounts, spares.acting⟩
    case others =>
      rw [jobsOfOthers, replaceJob, filter_replace Job.id (by simp [Job.moveTo, owner])]
      · exact spares.others
      · intro old member sameRow
        have stored := job?_of_mem spares.distinct member
        rw [sameRow, moved, sameId, found] at stored
        simp [← Option.some.inj stored, owner]
    case distinct =>
      rw [HasDistinctJobs, replaceJob_ids]
      exact spares.distinct
    case owned =>
      intro old owns
      obtain ⟨row, still, rowId⟩ := spares.owned old owns
      obtain ⟨stored, rowOwner⟩ := mem_jobsOf.mp still
      by_cases here : row.id = job.id
      · have kept : job.moveTo next instant ∈ (after.replaceJob (job.moveTo next instant)).jobs :=
          List.mem_map.mpr ⟨row, stored, if_pos here⟩
        exact ⟨_, mem_jobsOf.mpr ⟨kept, owner⟩, here.symm.trans rowId⟩
      · have kept : row ∈ (after.replaceJob (job.moveTo next instant)).jobs :=
          List.mem_map.mpr ⟨row, stored, if_neg here⟩
        exact ⟨row, mem_jobsOf.mpr ⟨kept, rowOwner⟩, rowId⟩

end Store.Tables

end Dispatch
