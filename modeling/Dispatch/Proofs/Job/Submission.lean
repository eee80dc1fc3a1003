import Dispatch.Proofs.Identifier.Minting
import Dispatch.Proofs.Job.Docket
import Dispatch.Proofs.Job.Lifecycle
import Dispatch.Proofs.Session.History
/-!
What a submission leaves in the table of jobs. A call that gets no place or no identifier leaves the table alone;
every other call adds one row under an identifier that no job has had, and the row says what the caller is told.
-/
namespace Dispatch

open Plan

namespace Shared

variable {machines : String → Option Machine} {shared : Shared}

/-- Every request but one to enter the mint is replied to. -/
theorem answersFor_total {request : Request} (other : request ≠ .enterMint) :
    ∃ reply next, shared.AnswersFor machines request reply next := by
  cases request with
  | machine id => exact ⟨_, _, rfl, rfl⟩
  | _ => exact answers_total other

end Shared

namespace Identifier.Mint

variable {shared : Shared} {mint : Mint} {kind : Kind} {name site : Option String}

/-- The mint does not mind the history. -/
theorem Gives.of_noted {tables : Store.Tables} {entry : History.Entry} {now : Instant} {minted : Except Failure String}
    (gives : mint.Gives (tables.insertEntry entry).2 kind name site now minted) :
    mint.Gives tables kind name site now minted := by
  cases gives with
  | unrendered failed => exact .unrendered failed
  | empty rendered => exact .empty rendered
  | found rendered nonempty bound first => exact .found rendered nonempty bound ⟨first.free, first.least⟩
  | exhausted rendered nonempty taken => exact .exhausted rendered nonempty taken

end Identifier.Mint

/-- What a submission asks for once it has an identifier. -/
def Request.isOfHandover : Request → Bool
  | now | store (.findLocalAccount ..) | store (.insertJob _) => true
  | request => request.isOutward

theorem Request.isOfHandover_of_isOutward {request : Request} (outward : request.isOutward = true) :
    request.isOfHandover = true := by
  cases request with
  | now => rfl
  | store => cases outward
  | _ => exact outward

namespace Job

/-- What is stored of a submission, by what the caller is told: the job as it is told, which the place has taken; or
a job that has failed, with the text of the failure. -/
def IsLeftBy (row : Job) : Except Failure Job → Prop
  | .ok job => row = job ∧ row.status = .submitted ∧ row.handle.isSome = true
  | .error failure =>
    row.status = .failed ∧ row.finishedAt.isSome = true ∧ row.handle = none ∧ row.error = some failure.message

/-- A submission that ends with this result has added a row with that identifier, and nothing else. -/
def Adds (id : String) (result : Except Failure Job) (before : Shared) (jobs : List Job) : Prop :=
  ∃ row : Job, row.id = id ∧ row.IsLeftBy result ∧ jobs = Store.Tables.insertInOrder Job.id row before.tables.jobs

/-- What the table of jobs is after a submission, given what it was before: without a place or an identifier it is the
same, and otherwise there is one more row. -/
structure IsBooked (machines : String → Option Machine) (mint : Identifier.Mint) (machine : String)
    (name : Option String) (before : Shared) (result : Except Failure Job) (jobs : List Job) : Prop where
  unknown : machines machine = none → result = .error (.unknownMachine machine) ∧ jobs = before.tables.jobs
  known : ∀ found, machines machine = some found → ∃ now minted,
    mint.Gives before.tables .job name (if found.site.isEmpty then none else some found.site) now minted ∧
    (∀ failure, minted = .error failure → result = .error failure ∧ jobs = before.tables.jobs) ∧
    ∀ id, minted = .ok id → id ∉ before.tables.jobs.map Job.id ∧ Adds id result before jobs

section Steps

variable {machines : String → Option Machine} {shared : Shared}

/-- Where there is a new row, its identifier is new. -/
theorem IsBooked.new_of_mem {mint : Identifier.Mint} {machine : String} {name : Option String}
    {result : Except Failure Job} {jobs : List Job} (booked : IsBooked machines mint machine name shared result jobs)
    {row : Job} (member : row ∈ jobs) : row ∈ shared.tables.jobs ∨ row.id ∉ shared.tables.jobs.map Job.id := by
  cases found : machines machine with
  | none =>
    rw [(booked.unknown found).2] at member
    exact .inl member
  | some machine =>
    obtain ⟨now, minted, _, unminted, added⟩ := booked.known machine found
    cases minted with
    | error failure =>
      rw [(unminted failure rfl).2] at member
      exact .inl member
    | ok id =>
      obtain ⟨free, stored, rfl, _, rfl⟩ := added id rfl
      rcases List.mem_cons.mp ((Store.Tables.insertInOrder_perm Job.id stored _).mem_iff.mp member) with rfl | old
      · exact .inr free
      · exact .inl old

/-- Nor does the table of jobs mind the history. -/
theorem IsBooked.of_noted {mint : Identifier.Mint} {machine : String} {name : Option String} {entry : History.Entry}
    {result : Except Failure Job} {jobs : List Job} (booked : IsBooked machines mint machine name
      { shared with tables := (shared.tables.insertEntry entry).2 } result jobs) :
    IsBooked machines mint machine name shared result jobs := by
  constructor
  case unknown => exact booked.unknown
  case known =>
    intro found known
    obtain ⟨now, minted, gives, rest⟩ := booked.known found known
    exact ⟨now, minted, gives.of_noted, rest⟩

/-- A job is stored whatever its place has made of it. -/
theorem ensures_recordSubmission_adds {job : Job} (absent : shared.tables.job? job.id = none)
    (unhandled : job.handle = none) (result : Except Failure Submitted)
    (taken : ∀ submitted, result = .ok submitted → submitted.status = .submitted) :
    Ensures (Shared.AnswersFor machines)
      (fun stored last => Adds job.id (.ok stored) shared last.tables.jobs ∧
        last.tables.sessions = shared.tables.sessions)
      (fun cause last => Adds job.id (.error cause) shared last.tables.jobs ∧
        last.tables.sessions = shared.tables.sessions) (recordSubmission job result) shared := by
  have inserts (row : Job) (same : row.id = job.id) : shared.tables.insertJob row =
      (.ok (), { shared.tables with jobs := Store.Tables.insertInOrder Job.id row shared.tables.jobs }) := by
    unfold Store.Tables.insertJob
    rw [same, absent]
    rfl
  cases result with
  | ok submitted =>
    have inserted := inserts (job.accept submitted) rfl
    have left : (job.accept submitted).IsLeftBy (.ok (job.accept submitted)) := ⟨rfl, taken submitted rfl, rfl⟩
    unfold recordSubmission
    rw [ensures_bind]
    apply (Service.ensures_store (.insertJob (job.accept submitted))).mpr
    constructor
    · rintro _ next ⟨_, rfl⟩
      simp only [Store.Tables.answer, inserted]
      exact (ensures_pure _).mpr ⟨⟨job.accept submitted, rfl, left, rfl⟩, rfl⟩
    · rintro fault next ⟨told, _⟩
      cases told.trans (congrArg Prod.fst inserted)
  | error failure =>
    unfold recordSubmission
    rw [ensures_bind, Service.ensures_ask]
    intro now next timed
    obtain rfl : next = shared := timed
    have inserted := inserts (job.reject failure now) rfl
    have left : (job.reject failure now).IsLeftBy (.error failure) := ⟨rfl, rfl, unhandled, rfl⟩
    rw [ensures_bind]
    apply (Service.ensures_store (.insertJob (job.reject failure now))).mpr
    constructor
    · rintro _ last ⟨_, rfl⟩
      simp only [Store.Tables.answer, inserted]
      exact (ensures_throw _).mpr ⟨⟨job.reject failure now, rfl, left, rfl⟩, rfl⟩
    · rintro fault last ⟨told, _⟩
      cases told.trans (congrArg Prod.fst inserted)

/-- A machine that is known has a place. -/
theorem ensures_placeFor (machine user params : String) :
    Ensures (Shared.AnswersFor machines)
      (fun placed last => machines machine = some placed.1 ∧ last = shared)
      (fun cause last => machines machine = none ∧ cause = .unknownMachine machine ∧ last = shared)
      (placeFor machine user params) shared := by
  unfold placeFor machineOf
  rw [ensures_bind, ensures_bind, Service.ensures_ask]
  rintro found next ⟨same, unchanged⟩
  obtain rfl : next = shared := unchanged
  cases found with
  | none => exact (ensures_throw _).mpr ⟨same.symm, rfl, rfl⟩
  | some found =>
    rw [ensures_pure, ensures_bind]
    apply (Service.ensures_store (.findLocalAccount user machine)).mpr
    constructor
    · rintro account last ⟨_, rfl⟩
      exact (ensures_pure _).mpr ⟨same.symm, rfl⟩
    · rintro fault last ⟨told, _⟩
      cases told

/-- The home of an account is found without a change, or there is none. -/
theorem ensures_home (options : Options) (machine user : String) :
    Ensures (Shared.AnswersFor machines) (fun _ last => last = shared) (fun _ _ => False)
      (if options.workingDir.isNone = true then homeOn machine user else pure none) shared := by
  split
  next =>
    unfold homeOn
    rw [ensures_bind]
    apply (Service.ensures_store (.findLocalAccount user machine)).mpr
    constructor
    · rintro account last ⟨_, rfl⟩
      exact (ensures_pure _).mpr rfl
    · rintro fault last ⟨told, _⟩
      cases told
  next => exact (ensures_pure _).mpr rfl

/-- Whatever the place of a new job is told while it takes the job, or refuses it, the job is stored. -/
theorem ensures_handover {job : Job} (absent : shared.tables.job? job.id = none) (unhandled : job.handle = none)
    (place : Backend) (script : String) (options : Options) :
    Ensures (Shared.AnswersFor machines)
      (fun stored last => Adds job.id (.ok stored) shared last.tables.jobs ∧
        last.tables.sessions = shared.tables.sessions)
      (fun cause last => Adds job.id (.error cause) shared last.tables.jobs ∧
        last.tables.sessions = shared.tables.sessions)
      (do
        let result ← Service.attempt (Service.backend (place.submit script options))
        recordSubmission job result) shared := by
  have unchanged : Ensures (Shared.AnswersFor machines)
      (fun submitted last => submitted.status = .submitted ∧ last = shared) (fun _ last => last = shared)
      (place.submit script options) shared := by
    refine (place.yields_submit script options).ensures (fun last => last = shared)
      (fun outward answered same => ?_) rfl
    rw [← same]
    exact Shared.Serves.eq_of_outward (.inl (answers_of_answersFor answered)) outward
  rw [ensures_bind, Service.ensures_attempt, Service.ensures_backend]
  apply unchanged.mono
  · rintro submitted _ ⟨taken, rfl⟩
    exact ensures_recordSubmission_adds absent unhandled (.ok submitted) fun _ same => Except.ok.inj same ▸ taken
  · rintro fault _ rfl
    exact ensures_recordSubmission_adds absent unhandled (.error (Failure.ofBackend fault)) nofun

/-- Without a machine nothing is booked. -/
theorem isBooked_unknown {mint : Identifier.Mint} {machine : String} {name : Option String}
    (absent : machines machine = none) :
    IsBooked machines mint machine name shared (.error (.unknownMachine machine)) shared.tables.jobs :=
  ⟨fun _ => ⟨rfl, rfl⟩, fun _ known => nomatch absent.symm.trans known⟩

/-- With a machine all depends on the mint. -/
theorem isBooked_known {mint : Identifier.Mint} {machine : String} {name : Option String} {found : Machine}
    {now : Instant} {minted : Except Failure String} {result : Except Failure Job} {jobs : List Job}
    (known : machines machine = some found)
    (gives : mint.Gives shared.tables .job name (if found.site.isEmpty then none else some found.site) now minted)
    (unminted : ∀ failure, minted = .error failure → result = .error failure ∧ jobs = shared.tables.jobs)
    (added : ∀ id, minted = .ok id → Adds id result shared jobs) :
    IsBooked machines mint machine name shared result jobs := by
  constructor
  case unknown =>
    intro absent
    cases known.symm.trans absent
  case known =>
    intro other same
    cases known.symm.trans same
    refine ⟨now, minted, gives, unminted, fun id same => ⟨?_, added id same⟩⟩
    subst same
    exact fun member => gives.not_mem (List.mem_append_right _ member)

/-- A submission by one who has passed the gate. -/
theorem ensures_submitFor_booked (sound : shared.tables.HasSoundCounters) (mint : Identifier.Mint) (caller : Caller)
    (machine script : String) (options : Options) :
    Ensures (Shared.AnswersFor machines)
      (fun job last => IsBooked machines mint machine options.name shared (.ok job) last.tables.jobs ∧
        last.tables.sessions = shared.tables.sessions)
      (fun cause last => IsBooked machines mint machine options.name shared (.error cause) last.tables.jobs ∧
        last.tables.sessions = shared.tables.sessions)
      (submitFor mint caller machine script options) shared := by
  unfold submitFor
  rw [ensures_bind]
  apply (ensures_placeFor machine caller.user.id "").mono
  · rintro ⟨found, place⟩ placed ⟨known, unchanged⟩
    obtain rfl : placed = shared := unchanged
    rw [ensures_bind]
    apply ((mint.asks_next .job options.name _).ensures_as (fun _ answered => answers_of_answersFor answered)
      (mint.ensures_next sound .job options.name _)).mono
    · rintro id minted ⟨⟨now, gives⟩, rfl⟩
      have absent : (placed.tables.issued .job (some id)).job? id = none := by
        apply List.find?_eq_none.mpr
        intro row member same
        have taken : id ∈ placed.tables.jobs.map Job.id := List.mem_map.mpr ⟨row, member, by simpa using same⟩
        exact gives.not_mem (List.mem_append_right _ taken)
      have booked {result : Except Failure Job} {jobs : List Job} (added : Adds id result placed jobs) :
          IsBooked machines mint machine options.name placed result jobs :=
        isBooked_known known gives nofun fun other same => Except.ok.inj same ▸ added
      refine ensures_choice.mpr ((ensures_bind _ _).mpr ?_)
      apply (ensures_home options machine caller.user.id).mono
      · rintro home _ rfl
        rw [ensures_bind, Service.ensures_ask]
        intro submittedAt next timed
        obtain rfl : next = _ := timed
        apply (ensures_handover absent rfl place script _).mono
        · rintro job last ⟨added, same⟩
          exact ⟨booked added, same⟩
        · rintro cause last ⟨added, same⟩
          exact ⟨booked added, same⟩
      · intro _ _ never
        exact never.elim
    · rintro failure minted ⟨⟨now, gives⟩, rfl⟩
      exact ⟨isBooked_known known gives (fun other same => by cases same; exact ⟨rfl, rfl⟩) nofun, rfl⟩
  · rintro cause last ⟨absent, rfl, rfl⟩
    exact ⟨isBooked_unknown absent, rfl⟩

theorem answersFor_of_asks {allowed : Request → Bool} (outside : allowed .enterMint = false) (state : Shared)
    (request : Request) (member : allowed request = true) :
    ∃ reply next, state.AnswersFor machines request reply next := by
  apply Shared.answersFor_total
  rintro rfl
  rw [outside] at member
  cases member

/-- A mint that is free ends each call. -/
theorem concludes_next (sound : shared.tables.HasSoundCounters) (free : shared.isMinting = false)
    (mint : Identifier.Mint) (kind : Identifier.Kind) (name site : Option String) :
    Concludes (Shared.AnswersFor machines) (mint.next kind name site) shared := by
  obtain ⟨result, last, ended⟩ := mint.concludes_next sound free kind name site
  refine ⟨result, last, Keeps.ends_through (fun state => state) (mint.asks_next kind name site)
    (fun {_ _ request _} member answered => ?_) ended⟩
  cases request with
  | machine => cases member
  | _ => exact answered

theorem asks_recordSubmission (job : Job) (result : Except Failure Submitted) :
    Asks Request.isOfHandover (recordSubmission job result) := by
  cases result with
  | ok submitted => exact (Service.asks_store rfl).bind fun _ => yields_pure trivial
  | error failure =>
    exact (Service.asks_ask rfl).bind fun now => (Service.asks_store rfl).bind fun _ => yields_throw failure

theorem concludes_submitFor (sound : shared.tables.HasSoundCounters) (free : shared.isMinting = false)
    (mint : Identifier.Mint) (caller : Caller) (machine script : String) (options : Options) :
    Concludes (Shared.AnswersFor machines) (submitFor mint caller machine script options) shared := by
  unfold submitFor
  apply ((asks_placeFor machine caller.user.id "").concludes (answersFor_of_asks rfl) shared).bind
  rintro ⟨found, place⟩ placed begun
  obtain ⟨_, unchanged⟩ := ensures_placeFor machine caller.user.id "" _ _ begun
  obtain rfl : placed = shared := unchanged
  apply (concludes_next sound free mint .job options.name _).bind
  intro id minted _
  -- Past the mint every request is replied to.
  have home : Asks Request.isOfHandover
      (if options.workingDir.isNone = true then homeOn machine caller.user.id else pure none) := by
    split
    next => exact (Service.asks_store rfl).bind fun _ => yields_pure trivial
    next => exact yields_pure trivial
  have submits (options : Options) : Asks Request.isOfHandover (place.submit script options) :=
    (place.yields_submit script options).tries
      (Protocol.ignores_within fun _ => Request.isOfHandover_of_isOutward) (fun _ _ => trivial) fun _ => trivial
  have total (state : Shared) (request : Request) (member : request.isOfHandover = true) :
      ∃ reply next, state.AnswersFor machines request reply next := answersFor_of_asks rfl state request member
  apply Asks.concludes _ total minted
  exact tries_choice.mpr <| home.bind fun home => (Service.asks_ask rfl).bind fun submittedAt =>
    (Service.asks_attempt (Service.asks_backend (submits _))).bind fun result => asks_recordSubmission _ result

/-- What holds after whatever services have run together, with a store that may have failed: counters are in order,
and the rows of jobs that have been there still are. -/
theorem hasSoundCounters_of_runs {pool reached : Pool Shared Unit} {trace : List (Moment Shared)}
    (sound : pool.state.tables.HasSoundCounters) (run : pool.Runs Shared.Serves trace reached) :
    reached.state.tables.HasSoundCounters ∧ ∀ moment ∈ trace,
      moment.before.tables.jobs.map Job.id ⊆ reached.state.tables.jobs.map Job.id := by
  induction run with
  | start => exact ⟨sound, by simp⟩
  | step run next ih =>
    obtain ⟨counted, kept⟩ := ih
    cases next with
    | @reply state request reply next front back rest served =>
      have step : next.tables.HasSoundCounters ∧ state.tables.jobs.map Job.id ⊆ next.tables.jobs.map Job.id := by
        cases request with
        | store call =>
          rcases Shared.serves_store served with ⟨_, rfl⟩ | ⟨_, rfl⟩
          · exact ⟨counted.answer call, state.tables.ids_subset_answer call⟩
          · exact ⟨counted, List.Subset.refl _⟩
        | _ =>
          rw [served.tables_eq fun _ => nofun]
          exact ⟨counted, List.Subset.refl _⟩
      refine ⟨step.1, fun moment member => ?_⟩
      rcases List.mem_append.mp member with earlier | now
      · exact List.Subset.trans (kept moment earlier) step.2
      · obtain rfl := List.mem_singleton.mp now
        exact step.2

/-- A submission by one whom the tables admit. -/
theorem ensures_submit_booked (sound : shared.tables.HasSoundCounters) {key : String} {caller : Caller}
    (admitted : shared.tables.admitted key = .ok caller) (mint : Identifier.Mint) (machine script : String)
    (options : Options) :
    Ensures (Shared.AnswersFor machines)
      (fun job last => IsBooked machines mint machine options.name shared (.ok job) last.tables.jobs)
      (fun cause last => IsBooked machines mint machine options.name shared (.error cause) last.tables.jobs)
      (submit mint key machine script options) shared := by
  have sameJobs {before after : Shared} (noted : before.IsNoted after) : after.tables.jobs = before.tables.jobs := by
    obtain ⟨_, _, _, rfl⟩ := noted
    rfl
  unfold submit
  rw [ensures_bind]
  apply ((Session.asks_authorize key).ensures_as (fun _ answered => answers_of_answersFor answered)
    (Session.reads_authorize key).ensures).mono
  · rintro passed last ⟨same, unchanged⟩
    obtain rfl : last = shared := unchanged
    apply Session.ensures_within_admitted (fun _ answered => answers_of_answersFor answered)
      (fun noted booked => by rwa [sameJobs noted]) (fun noted booked => by rwa [sameJobs noted]) admitted
    intro entry
    let noted : Shared := { last with tables := (last.tables.insertEntry entry).2 }
    have counted : noted.tables.HasSoundCounters := sound.answer (.insertEntry entry)
    exact (ensures_submitFor_booked counted mint passed machine script options).mono
      (fun _ _ known => ⟨known.1.of_noted, known.2⟩) fun _ _ known => ⟨known.1.of_noted, known.2⟩
  · rintro cause last ⟨refused, _⟩
    cases admitted.symm.trans refused

/-- It comes to an end if nobody is in the mint. -/
theorem concludes_submit (sound : shared.tables.HasSoundCounters) (free : shared.isMinting = false) {key : String}
    {caller : Caller} (admitted : shared.tables.admitted key = .ok caller) (mint : Identifier.Mint)
    (machine script : String) (options : Options) :
    Concludes (Shared.AnswersFor machines) (submit mint key machine script options) shared := by
  unfold submit
  apply ((Session.asks_authorize key).concludes (answersFor_of_asks rfl) shared).bind
  intro passed last gate
  obtain ⟨_, unchanged⟩ := (Session.asks_authorize key).ensures_as (fun _ answered => answers_of_answersFor answered)
    (Session.reads_authorize key).ensures _ _ gate
  obtain rfl : last = shared := unchanged
  apply Session.concludes_within (answersFor_of_asks rfl)
  intro number noted started
  obtain ⟨entry, rfl⟩ := (Session.asks_startCommand key _ _).ensures_as
    (fun _ answered => answers_of_answersFor answered) (Session.ensures_startCommand admitted _ _) _ _ started
  let noted : Shared := { last with tables := (last.tables.insertEntry entry).2 }
  have counted : noted.tables.HasSoundCounters := sound.answer (.insertEntry entry)
  exact concludes_submitFor counted free mint passed machine script options

end Steps

/-- Whatever services have run together before, with a store that may have failed, and whatever a place is told and
does: a submission by one who passes the gate is booked, under an identifier that no job has had at any time. It comes
to an end if nobody is in the mint. -/
theorem submissions_are_booked (machines : String → Option Machine) {pool reached : Pool Shared Unit}
    {trace : List (Moment Shared)} (sound : pool.state.tables.HasSoundCounters)
    (run : pool.Runs Shared.Serves trace reached) {key : String} {caller : Caller}
    (admitted : reached.state.tables.admitted key = .ok caller) (mint : Identifier.Mint) (machine script : String)
    (options : Options) :
    (∀ result last, Finishes (Shared.AnswersFor machines) (submit mint key machine script options) reached.state
        result last →
      IsBooked machines mint machine options.name reached.state result last.tables.jobs ∧
      ∀ row ∈ last.tables.jobs, row ∈ reached.state.tables.jobs ∨
        ∀ moment ∈ trace, row.id ∉ moment.before.tables.jobs.map Job.id) ∧
    (reached.state.isMinting = false →
      Concludes (Shared.AnswersFor machines) (submit mint key machine script options) reached.state) := by
  obtain ⟨counted, kept⟩ := hasSoundCounters_of_runs sound run
  refine ⟨fun result last ended => ?_, fun free => concludes_submit counted free admitted mint machine script options⟩
  have booked : IsBooked machines mint machine options.name reached.state result last.tables.jobs := by
    have ensured := ensures_submit_booked counted admitted mint machine script options result last ended
    cases result with
    | ok job => exact ensured
    | error cause => exact ensured
  refine ⟨booked, fun row member => ?_⟩
  apply (booked.new_of_mem member).imp_right
  exact fun absent moment happened present => absent (kept moment happened present)

/-- A job has been submitted to a cluster. -/
def firstSubmission : List (Moment Shared) × Pool Shared Unit :=
  Pool.play (Shared.respond (Shared.outsideOf sampleCluster "7.1")) (List.replicate 40 0)
    { state := sampleStart, plans := [(Call.submit {} "key" "cluster" "job.sh" {}).plan] }

/-- The next one is refused: the scheduler prints no identifier. -/
def secondSubmission : Option (Except Failure Job × Shared) :=
  (submit {} "key" "cluster" "job.sh" {}).run.follow (Shared.respond (Shared.outsideOf sampleCluster ""))
    firstSubmission.2.state

theorem secondSubmission_is_booked : ∃ result last, secondSubmission = some (result, last) ∧
    last.tables.jobs.map (fun job => (job.id, job.status)) = [("J_1", .submitted), ("J_2", .failed)] ∧
    IsBooked (fun _ => some sampleCluster) {} "cluster" none firstSubmission.2.state result last.tables.jobs ∧
    Concludes (Shared.AnswersFor fun _ => some sampleCluster) (submit {} "key" "cluster" "job.sh" {})
      firstSubmission.2.state := by
  have facts : secondSubmission.map (fun (_, last) => last.tables.jobs.map fun job => (job.id, job.status)) =
      some [("J_1", .submitted), ("J_2", .failed)] := by decide +kernel
  obtain ⟨⟨result, last⟩, ran, rows⟩ := Option.map_eq_some_iff.mp facts
  have passes : (firstSubmission.2.state.tables.admitted "key").toOption.isSome = true := by decide +kernel
  obtain ⟨caller, passed⟩ := Option.isSome_iff_exists.mp passes
  have ended : Finishes (Shared.AnswersFor fun _ => some sampleCluster) (submit {} "key" "cluster" "job.sh" {})
      firstSubmission.2.state result last := ends_follow (answersFor_respond fun _ => rfl) ran
  obtain ⟨books, concludes⟩ := submissions_are_booked (fun _ => some sampleCluster)
    (Store.Tables.hasSoundCounters_of_empty rfl rfl) (Pool.runs_play Shared.serves_respond _ _)
    (eq_ok_of_toOption passed) {} "cluster" "job.sh" {}
  exact ⟨result, last, ran, rows, (books result last ended).1, concludes (by decide +kernel)⟩

end Job

end Dispatch
