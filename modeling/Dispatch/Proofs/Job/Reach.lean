import Dispatch.Proofs.Job.Placement
import Dispatch.Proofs.Job.Releases
/-!
Follow-ups reach the place where a job was started. Whatever else goes on at the server, what is later called for a job
is the account, and in a cloud the endpoint and the machine, that its submission worked with.
-/
namespace Dispatch

open Plan

/-- What writes rows of jobs. -/
def Request.writesJobs : Request → Bool
  | store (.insertJob _) | store (.updateJob _) | store (.transitionJob ..) => true
  | _ => false

namespace Job

/-- What a server runs: calls for jobs, and whatever else writes no row of a job. -/
inductive IsService : Plan Unit → Prop
  | call (call : Call) : IsService call.plan
  | other {plan : Plan Unit}
      (spares : plan.Keeps (Protocol.within fun request => !request.writesJobs) (fun _ _ => True) ()) :
      IsService plan

theorem IsService.keeps {plan : Plan Unit} (service : IsService plan) :
    plan.Keeps lifecycle (fun _ _ => True) [] := by
  cases service with
  | call call => exact call.keeps_plan
  | other spares =>
    refine Keeps.of_footprint spares (fun _ => True) (fun seen request _ member => ⟨?_, fun _ => trivial⟩)
      (fun _ _ _ _ => trivial) trivial
    cases request with
    | store call =>
      cases call with
      | insertJob | updateJob | transitionJob => cases member
      | _ => trivial
    | _ => trivial

/-- A job that is stored by a moment. -/
def inserted? {σ : Type} : Moment σ → Option Job
  | ⟨_, .store (.insertJob job), .ok _, _⟩ => some job
  | _ => none

theorem request_of_inserted {σ : Type} {moment : Moment σ} {job : Job} (stored : inserted? moment = some job) :
    moment.request = .store (.insertJob job) := by
  obtain ⟨_, request, reply, _⟩ := moment
  cases request with
  | store call =>
    cases call with
    | insertJob other =>
      cases reply with
      | ok => rw [Option.some.inj stored]
      | error fault => cases stored
    | _ => cases stored
  | _ => cases stored

theorem inserted?_bare {σ : Type} (moment : Moment σ) : inserted? moment.bare = inserted? moment := by
  obtain ⟨_, request, reply, _⟩ := moment
  cases request with
  | store call =>
    cases call with
    | insertJob => cases reply <;> rfl
    | _ => rfl
  | _ => rfl

/-- The jobs that a moment shows to be stored. -/
def rowsShown {σ : Type} (moment : Moment σ) : List Job := rowsTold moment ++ (inserted? moment).toList

/-- What a service is told of a job is its row. -/
theorem job?_of_told {shared next : Shared} {request : Request} {reply : request.Reply} {job : Job}
    (distinct : shared.tables.HasDistinctJobs) (served : shared.Serves request reply next)
    (told : job ∈ lifecycle.learn [] request reply) : shared.tables.job? job.id = some job := by
  cases request with
  | store call =>
    rcases Shared.serves_store served with ⟨rfl, rfl⟩ | ⟨⟨fault, rfl⟩, rfl⟩
    · exact (lifecycle_learnt distinct told).resolve_left nofun
    · cases call <;> cases told
  | _ => cases told

/-- What a service has stored is there. -/
theorem job?_of_inserted {shared next : Shared} {request : Request} {reply : request.Reply} {job : Job}
    (distinct : next.tables.HasDistinctJobs) (served : shared.Serves request reply next)
    (stored : inserted? { before := shared, request, reply, after := next } = some job) :
    next.tables.job? job.id = some job := by
  cases request with
  | store call =>
    cases call with
    | insertJob other =>
      cases reply with
      | ok =>
        obtain rfl : other = job := Option.some.inj stored
        rcases Shared.serves_store served with ⟨accepted, rfl⟩ | ⟨⟨fault, never⟩, -⟩
        · exact Store.Tables.job?_of_mem distinct (Store.Tables.mem_of_insertJob accepted.symm)
        · cases never
      | error fault => cases stored
    | _ => cases stored
  | _ => cases stored

/-- The rule of a run in which jobs live on: what has been shown to be stored is remembered. -/
structure Remembers (shared : Shared) (trace : List (Moment Shared)) (seen : List (List Job)) : Prop extends
    InOrder shared trace seen where
  shown : ∀ moment ∈ trace, ∀ job ∈ rowsShown moment, IsRemembered shared.tables job

theorem Remembers.step {shared next : Shared} {trace : List (Moment Shared)} {front back : List (List Job)}
    {seen : List Job} {request : Request} {reply : request.Reply}
    (remembers : Remembers shared trace (front ++ seen :: back)) (permitted : lifecycle.permits seen request)
    (served : shared.Serves request reply next) :
    Remembers next (trace ++ [{ before := shared, request, reply, after := next }])
      (front ++ lifecycle.learn seen request reply :: back) := by
  have order := remembers.toInOrder.step permitted served
  have became := (order.moved _ (List.mem_append_right trace (List.mem_singleton.mpr rfl))).became
  refine ⟨order, fun moment member job shown => ?_⟩
  rcases List.mem_append.mp member with earlier | last
  · exact (remembers.shown moment earlier job shown).later became
  · obtain rfl := List.mem_singleton.mp last
    rcases List.mem_append.mp shown with told | stored
    · exact IsRemembered.later ⟨job, job?_of_told remembers.sound.distinct served told, .refl job⟩ became
    · exact ⟨job, job?_of_inserted order.sound.distinct served (Option.mem_toList.mp stored), .refl job⟩

/-- However services interleave, all that is shown of a job is of one submission. -/
theorem same_submission {start : Shared} {plans : List (Plan Unit)} {trace : List (Moment Shared)}
    {last : Pool Shared Unit} (sound : start.tables.HasSoundJobs) (services : ∀ plan ∈ plans, IsService plan)
    (run : Pool.Runs Shared.Serves { state := start, plans } trace last) {first second : Moment Shared}
    (earlier : first ∈ trace) (later : second ∈ trace) {one other : Job} (shown : one ∈ rowsShown first)
    (shownToo : other ∈ rowsShown second) (same : one.id = other.id) :
    ∃ row, one.IsSameSubmission row ∧ other.IsSameSubmission row := by
  have begins : Remembers start [] (plans.map fun _ => []) := by
    refine ⟨⟨sound, by simp, by simp, fun jobs member job inside => ?_⟩, by simp⟩
    obtain ⟨_, _, rfl⟩ := List.mem_map.mp member
    cases inside
  obtain ⟨knowers, -, -, remembers⟩ := run.holds (fun plan member => (services plan member).keeps)
    (fun _ _ _ _ _ => trivial) Remembers begins fun _ _ _ _ _ _ _ _ remembers permitted served =>
      remembers.step permitted served
  obtain ⟨row, found, became⟩ := remembers.shown first earlier one shown
  obtain ⟨rowToo, foundToo, becameToo⟩ := remembers.shown second later other shownToo
  rw [same] at found
  obtain rfl := Option.some.inj (found.symm.trans foundToo)
  exact ⟨row, became.same, becameToo.same⟩

/-- Whoever has the log is always told the same machine for a job, and the same login of its owner there. -/
structure StaysAt (job : Job) (found : Machine) (login : Option String) (log : List (Moment Unit)) : Prop where
  machine : ∀ moment ∈ log, ∀ told ∈ machineTold? job.machine moment, told = found
  login : ∀ moment ∈ log, ∀ told ∈ loginTold? job.owner job.machine moment, told = login

theorem IsTold.eq_of_stays {job : Job} {found told : Machine} {login account : Option String}
    {log longer : List (Moment Unit)} (stays : StaysAt job found login longer) (included : log ⊆ longer)
    (known : IsTold job.machine job.owner told account log) : told = found ∧ account = login := by
  obtain ⟨⟨asked, member, configured⟩, moment, present, read⟩ := known
  exact ⟨stays.machine asked (included member) told configured, stays.login moment (included present) account read⟩

/-- A job that a log stores is where it was started, by all calls of the log. -/
theorem isStartedIn_of_placement {log : List (Moment Unit)} {job : Job} {handle : String}
    (minded : Throughout (fun front moment => placement front moment.request) log)
    (stored : ∃ moment ∈ log, inserted? moment = some job) (handled : job.handle = some handle) :
    ∃ found login, job.IsStartedIn handle log found login := by
  obtain ⟨moment, member, inserts⟩ := stored
  obtain ⟨front, back, rfl⟩ := List.append_of_mem member
  have asked := request_of_inserted inserts
  have placed : placement front moment.request := minded front moment back rfl
  rw [asked] at placed
  obtain ⟨found, login, told, added, same, started⟩ := placed handle handled
  refine ⟨found, login, told.mono (List.subset_append_left _ _), added, ?_, started⟩
  have silent : callsOf (moment :: back) = [] := by
    refine List.filter_eq_nil_iff.mpr fun other present calls => ?_
    rcases List.mem_cons.mp present with rfl | behind
    · rw [asked] at calls
      cases calls
    · -- A call after the job was stored would be one too many.
      obtain ⟨between, rest, rfl⟩ := List.append_of_mem behind
      have minds : placement (front ++ moment :: between) other.request := minded _ other rest (by simp)
      have uninserted : other.request.isCall = true →
          ∀ earlier ∈ front ++ moment :: between, earlier.request.isInsertion = false := by
        cases called : other.request with
        | remote | provider =>
          rw [called] at minds
          exact minds
        | _ =>
          rw [called] at calls
          cases calls
      have never := uninserted calls moment (by simp)
      rw [asked] at never
      cases never
  rw [← same]
  change List.filter _ (front ++ moment :: back) = _
  rw [List.filter_append]
  change callsOf front ++ callsOf (moment :: back) = _
  rw [silent, List.append_nil]

/-- However services interleave, wherever the store fails and whatever the outside replies: each call that a follow-up
makes is about the job that was looked up or given a local file last. If that is a job which a submission has stored,
the call leads to where all calls of this submission went, as long as both are told the same machine for the job and
the same login of its owner there: to the same account on the same host by the same identity, and in a cloud to the same
endpoint with the same session text, about the machine that was allocated. -/
theorem follow_ups_lead_back {start : Shared} {plans : List (Plan Unit)} {turns : List (Turn Shared)}
    {last : Pool Shared Unit} {submission followUp : Nat} {mint : Identifier.Mint} {key machine script : String}
    {options : Options} {plan : Plan Unit} {job : Job} {found : Machine} {login : Option String}
    (sound : start.tables.HasSoundJobs) (services : ∀ plan ∈ plans, IsService plan)
    (played : Pool.Plays Shared.Serves { state := start, plans } turns last)
    (submits : plans[submission]? = some (Call.submit mint key machine script options).plan)
    (stored : ∃ moment ∈ logOf submission turns, inserted? moment = some job)
    (follows : plans[followUp]? = some plan) (later : IsFollowUp plan)
    (stays : ∀ place ∈ [submission, followUp], StaysAt job found login (logOf place turns)) :
    Throughout (fun front moment => moment.request.isCall = true → ∃ id, subjectOf front = some id ∧
      (id = job.id → LeadsTo (logOf submission turns) moment.request)) (logOf followUp turns) := by
  obtain ⟨_, -, submitted⟩ := played.leads submits
  obtain ⟨_, -, followed⟩ := played.leads follows
  have placed := (minds_submit mint key machine script options).minded submitted
  have pursues := later.minds.minded followed
  intro front moment back same calls
  obtain ⟨row, pursued⟩ := pursues front moment back same calls
  refine ⟨row.id, pursued.subject, fun sameId => ?_⟩
  have included : front ⊆ logOf followUp turns := same ▸ List.subset_append_left _ _
  -- The row that the follow-up has been told of and the job that was stored are one submission.
  obtain ⟨told, toldMember, toldRow⟩ := pursued.told
  obtain ⟨asked, askedMember, rfl⟩ := List.mem_map.mp (included toldMember)
  obtain ⟨inserting, insertingMember, inserts⟩ := stored
  obtain ⟨insertion, insertionMember, rfl⟩ := List.mem_map.mp insertingMember
  obtain ⟨known, rowSame, jobSame⟩ := same_submission sound services played.runs (mem_of_mem_turnsOf askedMember)
    (mem_of_mem_turnsOf insertionMember) (List.mem_append_left _ toldRow)
    (List.mem_append_right _ (Option.mem_toList.mpr (inserted?_bare insertion ▸ inserts))) sameId
  obtain ⟨rowMachine, rowOwner, rowHandle, rowParams⟩ := rowSame.place_eq
  obtain ⟨jobMachine, jobOwner, jobHandle, jobParams⟩ := jobSame.place_eq
  obtain ⟨foundThen, loginThen, handle, toldThen, handled, leads⟩ := pursued.here
  rw [← rowMachine, jobMachine, ← rowOwner, jobOwner] at toldThen
  rw [← rowHandle, jobHandle] at handled
  rw [← rowParams, jobParams] at leads
  obtain ⟨foundFirst, loginFirst, toldFirst, added, sameCalls, started⟩ :=
    isStartedIn_of_placement placed ⟨_, insertingMember, inserts⟩ handled
  obtain ⟨rfl, rfl⟩ := IsTold.eq_of_stays (stays followUp (by simp)) included toldThen
  obtain ⟨rfl, rfl⟩ := IsTold.eq_of_stays (stays submission (by simp)) (List.Subset.refl _) toldFirst
  exact leadsTo_callsOf.mp (sameCalls ▸ leadsTo_callsOf.mpr (started.leadsTo leads))

/-- A job is submitted to a cloud, and asked about before the submission has ended. -/
def sampleReach : List (Turn Shared) × Pool Shared Unit :=
  let calls := [.submit {} "key" "cloud" "job.sh" {}, .refresh "J_1"]
  Pool.playTurns (Shared.respond cloudOutside) (List.replicate 26 0 ++ List.replicate 9 1 ++ List.replicate 4 0)
    { state := sampleStart, plans := List.map Call.plan calls }

theorem sampleReach_leads_back : ∃ job : Job, job.id = "J_1" ∧ timesAsked Request.isCall (logOf 1 sampleReach.1) = 2 ∧
    Throughout (fun front moment => moment.request.isCall = true → ∃ id, subjectOf front = some id ∧
      (id = job.id → LeadsTo (logOf 0 sampleReach.1) moment.request)) (logOf 1 sampleReach.1) := by
  have shown : ((logOf 0 sampleReach.1).filterMap inserted?).map (fun job : Job => (job.id, job.machine, job.owner)) =
      [("J_1", "cloud", "alice")] := by decide +kernel
  obtain ⟨job, rest, stored, described, -⟩ := List.map_eq_cons_iff.mp shown
  obtain ⟨named, there, own⟩ : job.id = "J_1" ∧ job.machine = "cloud" ∧ job.owner = "alice" := by
    simpa using described
  have member : job ∈ (logOf 0 sampleReach.1).filterMap inserted? := by simp [stored]
  have stays : ∀ place ∈ [0, 1], StaysAt job sampleCloud none (logOf place sampleReach.1) := by
    have machines : ∀ place ∈ [0, 1], ∀ moment ∈ logOf place sampleReach.1,
        ∀ told ∈ machineTold? "cloud" moment, told = sampleCloud := by decide +kernel
    have logins : ∀ place ∈ [0, 1], ∀ moment ∈ logOf place sampleReach.1,
        ∀ told ∈ loginTold? "alice" "cloud" moment, told = none := by decide +kernel
    exact fun place known => ⟨there ▸ machines place known, there ▸ own ▸ logins place known⟩
  have sound : sampleStart.tables.HasSoundJobs := ⟨List.nodup_nil, by simp [sampleStart]⟩
  have services : ∀ plan ∈ [Call.submit {} "key" "cloud" "job.sh" {}, .refresh "J_1"].map Call.plan,
      IsService plan := by
    intro plan present
    obtain ⟨call, -, rfl⟩ := List.mem_map.mp present
    exact .call call
  exact ⟨job, named, by decide +kernel, follow_ups_lead_back sound services
    (Pool.plays_playTurns Shared.serves_respond _ _) rfl (List.mem_filterMap.mp member) rfl (.refresh "J_1") stays⟩

end Job

end Dispatch
