import Dispatch.Proofs.Job.Staging
/-!
Retrievals are all or nothing. One that fails leaves the jobs and the local files as they are, wherever it fails; one
that succeeds leaves two more files with what the remote ones hold, and moves the job on if it was completed. A
retrieval for all jobs of a user is one retrieval after the other, each of them as if it were the only one.
-/
namespace Dispatch

open Plan Depot

namespace Job

/-- Of the jobs with these identifiers those that were completed are downloaded; all else is as it was. -/
def AreFetched (ids : List String) : List Job → List Job → Prop :=
  List.Forall₂ fun row later =>
    if row.status = .completed ∧ row.id ∈ ids then ∃ instant, later = row.moveTo .downloaded instant else later = row

/-- Where the files of a job are, and the paths to fetch them from. -/
structure Source where
  target : Shell.Target
  outputPath : String
  errorPath : String

/-- A job has files if both paths are stored with it and its handle leads to a host that is known. -/
def source? (machines : String → Option Machine) (tables : Store.Tables) (job : Job) : Option Source := do
  let outputPath ← job.outputPath
  let errorPath ← job.errorPath
  let handle ← job.handle
  let place ← job.placeIn? machines tables
  let target ← (place.fileTarget handle).toOption
  return { target, outputPath := withoutHost outputPath, errorPath := withoutHost errorPath }

/-- What a retrieval has done that gave these copies: there are two more files with what the remote ones hold, and the
job is a downloaded one if it was completed. -/
structure IsRetrieved (outside : Outside) (job : Job) (copies : Output) (before after : Depot) : Prop where
  named : copies.job = job.id
  new : before.AreNew copies.outputPath copies.errorPath
  files : ∃ source, job.source? outside.machines before.shared.tables = some source ∧
    after.files = before.files ++
      [(copies.outputPath, outside.contents source.target source.outputPath),
        (copies.errorPath, outside.contents source.target source.errorPath)]
  rows : AreFetched [job.id] before.shared.tables.jobs after.shared.tables.jobs

/-- What has become of jobs and files with this result. -/
def IsAllOrNothing (outside : Outside) (job : Job) (before : Depot) : Except Failure Output → Depot → Prop
  | .ok copies, after => IsRetrieved outside job copies before after
  | .error _, after => before.IsUntouched after

section Rows

variable {ids more : List String} {rows later last : List Job}

theorem areFetched_nothing (rows : List Job) : AreFetched [] rows rows :=
  List.forall₂_same.mpr fun row _ => by simp

/-- One after the other. -/
theorem AreFetched.append (first : AreFetched ids rows later) (second : AreFetched more later last) :
    AreFetched (ids ++ more) rows last := by
  induction first generalizing last with
  | nil =>
    cases second
    exact .nil
  | @cons row moved rest others became _ ih =>
    cases second with
    | cons becameThen further =>
      refine .cons ?_ (ih further)
      by_cases fetched : row.status = .completed ∧ row.id ∈ ids
      · rw [if_pos fetched] at became
        obtain ⟨instant, rfl⟩ := became
        rw [if_neg fun again => nomatch again.1] at becameThen
        rw [if_pos ⟨fetched.1, List.mem_append_left more fetched.2⟩]
        exact ⟨instant, becameThen⟩
      · rw [if_neg fetched] at became
        subst became
        by_cases completed : moved.status = .completed
        · have absent : moved.id ∉ ids := fun member => fetched ⟨completed, member⟩
          simpa [completed, absent] using becameThen
        · simpa [completed] using becameThen

/-- What a move does to the rows. -/
theorem areFetched_replaceJob {tables : Store.Tables} (distinct : tables.HasDistinctJobs) {job : Job}
    (stored : tables.job? job.id = some job) (completed : job.status = .completed) (instant : Instant) :
    AreFetched [job.id] tables.jobs (tables.replaceJob (job.moveTo .downloaded instant)).jobs := by
  refine List.forall₂_map_right_iff.mpr (List.forall₂_same.mpr fun row member => ?_)
  have sameId : (job.moveTo .downloaded instant).id = job.id := rfl
  by_cases own : row.id = job.id
  · have same : row = job := by
      have found := Store.Tables.job?_of_mem distinct member
      rw [own, stored] at found
      exact (Option.some.inj found).symm
    subst same
    rw [if_pos ⟨completed, List.mem_singleton.mpr rfl⟩, if_pos sameId.symm]
    exact ⟨instant, rfl⟩
  · rw [if_neg fun fetched => own (List.mem_singleton.mp fetched.2), if_neg (sameId ▸ own)]

theorem areFetched_kept {job : Job} {tables : Store.Tables} (distinct : tables.HasDistinctJobs)
    (stored : tables.job? job.id = some job) (incomplete : job.status ≠ .completed) :
    AreFetched [job.id] tables.jobs tables.jobs := by
  refine List.forall₂_same.mpr fun row member => ?_
  rw [if_neg]
  rintro ⟨completed, named⟩
  have found := Store.Tables.job?_of_mem distinct member
  rw [List.mem_singleton.mp named, stored] at found
  exact incomplete (Option.some.inj found ▸ completed)

end Rows

section Steps

variable {outside : Outside} {depot : Depot} {job : Job}

/-- Finding the place of a job changes nothing. -/
theorem ensures_place (job : Job) :
    Ensures (Answers outside)
      (fun place last => job.placeIn? outside.machines depot.shared.tables = some place ∧ last = depot)
      (fun _ last => last = depot) job.place depot := by
  unfold place placeFor machineOf
  rw [ensures_bind, ensures_bind, ensures_bind, Service.ensures_ask]
  rintro found _ ⟨rfl, rfl⟩
  cases known : outside.machines job.machine with
  | none => exact (ensures_throw _).mpr rfl
  | some machine =>
    rw [ensures_pure, ensures_bind]
    apply ((Service.reads_store (.findLocalAccount _ _) fun _ _ => answers_iff_of_told rfl).ensures).mono
    · rintro account last ⟨told, rfl⟩
      refine (ensures_pure _).mpr ((ensures_pure _).mpr ⟨?_, rfl⟩)
      rw [placeIn?, known, Except.ok.inj told]
      rfl
    · exact fun cause last failed => failed.2

/-- One more file, empty and of a new path, unless there can be none for the job. -/
theorem ensures_stagingFile (id suffix : String) :
    Ensures (Answers outside)
      (fun path last => outside.canStage id = true ∧ depot.IsFree path ∧
        last = { depot with files := depot.files ++ [(path, "")] })
      (fun _ last => outside.canStage id = false ∧ last = depot) (stagingFile id suffix) depot := by
  unfold stagingFile
  rw [ensures_bind, Service.ensures_ask]
  intro reply last answered
  cases reply with
  | ok path => exact (ensures_pure path).mpr answered
  | error cause => exact (ensures_throw _).mpr answered

/-- Two files that can both be made. -/
theorem ensures_stagingFiles (id : String) {α : Type} {rest : String → String → Service α} {gives : α → Depot → Prop}
    {fails : Failure → Depot → Prop} (refused : ∀ cause, fails cause depot)
    (later : ∀ path other, depot.AreNew path other →
      Ensures (Answers outside) gives fails (rest path other) (depot.stage (path, "") (other, ""))) :
    Ensures (Answers outside) gives fails (do
      let path ← stagingFile id ".out"
      let other ← stagingFile id ".err"
      rest path other) depot := by
  rw [ensures_bind]
  apply (ensures_stagingFile id ".out").mono
  · rintro path _ ⟨possible, free, rfl⟩
    rw [ensures_bind]
    apply (ensures_stagingFile id ".err").mono
    · rintro other _ ⟨-, freeToo, rfl⟩
      have new : depot.AreNew path other := {
        first := free
        second := fun file member => freeToo file (List.mem_append_left _ member)
        apart := freeToo (path, "") (List.mem_append_right _ (List.mem_singleton.mpr rfl)) }
      simpa [stage] using later path other new
    · rintro cause _ ⟨impossible, -⟩
      rw [possible] at impossible
      cases impossible
  · rintro cause _ ⟨-, rfl⟩
    exact refused cause

/-- Both copies, or any part of them. -/
theorem ensures_fetchBoth (target : Shell.Target) (outputPath errorPath : String) {copies : Output}
    (new : depot.AreNew copies.outputPath copies.errorPath) :
    Ensures (Answers outside)
      (fun fetched last => ∃ content other,
        last = depot.stage (copies.outputPath, content) (copies.errorPath, other) ∧
        ((∃ nothing, fetched = .ok nothing) →
          content = outside.contents target outputPath ∧ other = outside.contents target errorPath))
      (fun _ _ => False) (fetchBoth target outputPath errorPath copies)
      (depot.stage (copies.outputPath, "") (copies.errorPath, "")) := by
  unfold fetchBoth
  rw [ensures_bind, Service.ensures_ask]
  intro reply middle answered
  cases reply with
  | ok _ =>
    obtain rfl : middle = _ := answered
    rw [new.write_first]
    apply (Service.ensures_ask (.remote target (.fetch errorPath copies.errorPath))).mpr
    intro reply last answered
    cases reply with
    | ok _ =>
      obtain rfl : last = _ := answered
      exact ⟨_, _, new.write_second _ _ _, fun _ => ⟨rfl, rfl⟩⟩
    | error fault =>
      obtain ⟨part, rfl⟩ := answered
      exact ⟨_, _, new.write_second _ _ _, fun ⟨_, same⟩ => nomatch same⟩
  | error fault =>
    obtain ⟨part, rfl⟩ := answered
    exact (ensures_pure _).mpr ⟨_, _, new.write_first _ _ _, fun ⟨_, same⟩ => nomatch same⟩

/-- Once both copies are there, the job is moved on. -/
theorem ensures_finish (distinct : depot.shared.tables.HasDistinctJobs)
    (stored : depot.shared.tables.job? job.id = some job) (copies : Output) :
    Ensures (Answers outside)
      (fun given last => given = copies ∧ last.files = depot.files ∧
        AreFetched [job.id] depot.shared.tables.jobs last.shared.tables.jobs) (fun _ _ => False)
      (do
        if job.status = .completed then
          let now ← Service.ask .now
          let _ ← Service.store (.transitionJob job.id .downloaded now)
        return copies) depot := by
  split
  next completed =>
    refine (ensures_bind _ _).mpr ((Service.ensures_ask _).mpr ?_)
    rintro instant middle ⟨same, files⟩
    obtain rfl : middle = depot := ext_iff.mpr ⟨same, files⟩
    have moves : middle.shared.tables.answer (.transitionJob job.id .downloaded instant) =
        (.ok .downloaded, middle.shared.tables.replaceJob (job.moveTo .downloaded instant)) := by
      simp [Store.Tables.answer, Store.Tables.transitionJob, stored, completed, Status.canBecome]
    refine (ensures_bind _ _).mpr ((Service.ensures_store _).mpr ⟨?_, ?_⟩)
    · rintro answer last ⟨⟨told, after⟩, sameFiles⟩
      rw [moves] at after
      refine (ensures_pure copies).mpr ⟨rfl, sameFiles, ?_⟩
      rw [after]
      exact areFetched_replaceJob distinct stored completed instant
    · rintro fault last ⟨⟨told, -⟩, -⟩
      rw [moves] at told
      cases told
  next incomplete => exact (ensures_pure copies).mpr ⟨rfl, rfl, areFetched_kept distinct stored incomplete⟩

/-- A retrieval of a job that is stored. If it fails, nothing at all has changed. -/
theorem ensures_retrieve (distinct : depot.shared.tables.HasDistinctJobs)
    (stored : depot.shared.tables.job? job.id = some job) :
    Ensures (Answers outside) (fun copies last => IsRetrieved outside job copies depot last)
      (fun _ last => last = depot) job.retrieve depot := by
  unfold retrieve
  split
  next outputPath errorPath handle output error handled =>
    rw [ensures_bind]
    apply (ensures_place job).mono
    · rintro place depot ⟨here, rfl⟩
      rw [ensures_bind, Service.ensures_backend, Backend.Task.ensures_ofExcept]
      refine ⟨fun target reached => ?_, fun _ _ => rfl⟩
      refine ensures_stagingFiles job.id ?_ ?_
      · exact fun _ => rfl
      intro path other new
      let copies : Output := { job := job.id, outputPath := path, errorPath := other }
      have apart : depot.AreNew copies.outputPath copies.errorPath := new
      refine (ensures_bind _ _).mpr ((ensures_fetchBoth target _ _ apart).mono ?_ fun _ _ never => never.elim)
      rintro fetched _ ⟨content, otherContent, rfl, whole⟩
      cases fetched with
      | error fault =>
        refine (ensures_bind _ _).mpr ((Service.ensures_ask (.discard path)).mpr ?_)
        rintro _ _ rfl
        refine (ensures_bind _ _).mpr ((Service.ensures_ask (.discard other)).mpr ?_)
        rintro _ _ rfl
        exact (ensures_throw _).mpr (new.discard content otherContent)
      | ok nothing =>
        obtain ⟨rfl, rfl⟩ := whole ⟨nothing, rfl⟩
        let staged := depot.stage (path, outside.contents target (withoutHost outputPath))
          (other, outside.contents target (withoutHost errorPath))
        have distinctToo : staged.shared.tables.HasDistinctJobs := distinct
        refine Ensures.mono (ensures_finish distinctToo stored copies) ?_ ?_
        · rintro given last ⟨rfl, files, rows⟩
          refine ⟨rfl, new, ⟨⟨target, withoutHost outputPath, withoutHost errorPath⟩, ?_, files⟩, rows⟩
          simp [source?, output, error, handled, here, reached, Except.toOption]
        · exact fun _ _ never => never.elim
    · exact fun _ _ same => same
  next => exact (ensures_throw _).mpr rfl

theorem asks_retrieve (job : Job) : Asks Request.isOfRetrieval job.retrieve := by
  unfold retrieve
  split
  next =>
    refine (job.asks_place.mono fun _ => Request.isOfRetrieval_of_isOfPlace).bind fun place _ => ?_
    refine (Service.asks_backend (Backend.Task.asks_ofExcept _)).bind fun target => ?_
    refine (asks_stagingFile _ _ rfl).bind fun localOutput => ?_
    refine (asks_stagingFile _ _ rfl).bind fun localError => ?_
    refine (asks_fetchBoth _ _ _ _ fun _ _ => rfl).bind fun fetched => ?_
    split
    next => exact (Service.asks_ask rfl).bind fun _ => (Service.asks_ask rfl).bind fun _ => yields_throw _
    next =>
      split
      next => exact (Service.asks_ask rfl).bind fun now => (Service.asks_store rfl).bind fun _ => yields_pure trivial
      next => exact yields_pure trivial
  next => exact yields_throw _

/-- A retrieval leaves sessions and accounts alone. -/
theorem preserves_kept (job : Job) (depot : Depot) :
    Preserves (Answers outside)
      (fun last => last.shared.tables.sessions = depot.shared.tables.sessions ∧
        last.shared.tables.localAccounts = depot.shared.tables.localAccounts) job.retrieve :=
  Yields.preserves (asks_retrieve job) fun member answered kept =>
    ⟨(kept_of_isOfRetrieval member answered).1.trans kept.1, (kept_of_isOfRetrieval member answered).2.trans kept.2⟩

/-- What is noted in the history is of no concern to a retrieval. -/
theorem IsRetrieved.noted {copies : Output} {start before after last : Depot} (begun : start.IsNoted before)
    (retrieved : IsRetrieved outside job copies before after) (ended : after.IsNoted last) :
    IsRetrieved outside job copies start last := by
  obtain ⟨_, _, _, same⟩ := begun.shared
  obtain ⟨source, found, files⟩ := retrieved.files
  have rows := retrieved.rows
  rw [same] at found rows
  exact {
    named := retrieved.named
    new := {
      first := fun file member => retrieved.new.first file (begun.files ▸ member)
      second := fun file member => retrieved.new.second file (begun.files ▸ member)
      apart := retrieved.new.apart }
    files := ⟨source, found, by rw [ended.files, files, begun.files]⟩
    rows := by rwa [ended.untouched.1] }

/-- Looking a job up changes nothing. -/
theorem ensures_found (id : String) :
    Ensures (Answers outside) (fun job last => depot.shared.tables.job? id = some job ∧ last = depot)
      (fun _ last => last = depot) (load id) depot := by
  unfold load
  rw [ensures_bind]
  apply ((Service.reads_store (.findJob id) fun _ _ => answers_iff_of_told rfl).ensures).mono
  · rintro found last ⟨told, rfl⟩
    rw [← Except.ok.inj told]
    cases known : last.shared.tables.job? id with
    | none => exact (ensures_throw _).mpr rfl
    | some job => exact (ensures_pure job).mpr ⟨rfl, rfl⟩
  · exact fun cause last failed => failed.2

/-- A retrieval between its start and its end in the history. -/
theorem ensures_within_retrieve (distinct : depot.shared.tables.HasDistinctJobs)
    (stored : depot.shared.tables.job? job.id = some job) {key : String} {caller : Caller}
    (admitted : depot.shared.tables.admitted key = .ok caller) (description : String) (category : History.Category)
    (object : Output → Option String) :
    Ensures (Answers outside) (fun copies last => IsRetrieved outside job copies depot last)
      (fun _ last => depot.IsUntouched last) (Session.within key description category object job.retrieve) depot := by
  have recorded {done : Depot} (sessions : done.shared.tables.sessions = depot.shared.tables.sessions)
      (status : History.Status) (made : Option String) :
      Ensures (Answers outside) (fun _ last => done.IsNoted last) (fun _ _ => False)
        (Session.record key description category status made) done := by
    have known := Session.session?_isSome_of_admitted admitted
    rw [Store.Tables.session?, ← sessions] at known
    exact ensures_record known description category status made
  have starts : Ensures (Answers outside) _ _ (Session.startCommand key description category) depot :=
    ensures_startCommand admitted description category
  refine Session.ensures_within_parts object (starts.mono (fun _ _ known => known) fun _ _ never => never.elim) ?_
  rintro begun ⟨noted, sessions⟩
  have jobs : begun.shared.tables.jobs = depot.shared.tables.jobs := noted.untouched.1
  have distinctToo : begun.shared.tables.HasDistinctJobs := by rwa [Store.Tables.HasDistinctJobs, jobs]
  have storedToo : begun.shared.tables.job? job.id = some job := by rwa [Store.Tables.job?, jobs]
  apply ((ensures_retrieve distinctToo storedToo).and (preserves_kept job begun begun ⟨rfl, rfl⟩)).mono
  · rintro copies done ⟨retrieved, kept, -⟩
    exact (recorded (kept.trans sessions) _ _).mono
      (fun _ last notedToo => retrieved.noted noted notedToo) fun _ _ never => never.elim
  · rintro cause done ⟨rfl, -⟩
    exact (recorded sessions _ _).mono
      (fun _ last notedToo => ⟨notedToo.untouched.1.trans jobs, notedToo.files.trans noted.files⟩)
      fun _ _ never => never.elim

/-- The output of one job, for whoever may have it. -/
theorem ensures_output (distinct : depot.shared.tables.HasDistinctJobs) (key id : String) :
    Ensures (Answers outside)
      (fun copies last => ∃ job, depot.shared.tables.job? id = some job ∧ IsRetrieved outside job copies depot last)
      (fun _ last => depot.IsUntouched last) (output key id) depot := by
  unfold output
  rw [ensures_bind]
  apply (ensures_authorize key).mono
  · rintro caller depot ⟨admitted, rfl⟩
    rw [ensures_bind]
    apply (ensures_found id).mono
    · rintro job depot ⟨stored, rfl⟩
      have own : job.id = id := (Store.Tables.job?_some stored).2
      subst own
      rw [ensures_bind, Service.ensures_ofExcept]
      refine ⟨fun _ _ => ?_, fun _ _ => ⟨rfl, rfl⟩⟩
      apply (ensures_within_retrieve distinct stored admitted _ _ _).mono
      · exact fun copies last retrieved => ⟨job, stored, retrieved⟩
      · exact fun _ _ untouched => untouched
    · rintro cause depot rfl
      exact ⟨rfl, rfl⟩
  · rintro cause depot ⟨-, rfl⟩
    exact ⟨rfl, rfl⟩

end Steps

/-- One retrieval after the other, each of a job that is still stored as it was listed, with the accounts that there
were: what comes of each is all or nothing, as if it were the only one. -/
inductive IsSeries (outside : Outside) : Depot → List Job → List (Except Failure Output) → Depot → Prop
  | done (depot : Depot) : IsSeries outside depot [] [] depot
  | next {before after last : Depot} {job : Job} {rest : List Job} {result : Except Failure Output}
      {results : List (Except Failure Output)} (stored : before.shared.tables.job? job.id = some job)
      (ran : Finishes (Answers outside) job.retrieve before result after)
      (came : IsAllOrNothing outside job before result after)
      (accounts : after.shared.tables.localAccounts = before.shared.tables.localAccounts)
      (later : IsSeries outside after rest results last) :
      IsSeries outside before (job :: rest) (result :: results) last

/-- The outputs of the retrievals that succeeded. -/
def outputsOf (results : List (Except Failure Output)) : List Output := results.filterMap Except.toOption

namespace IsSeries

variable {outside : Outside} {before last : Depot} {jobs : List Job} {results : List (Except Failure Output)}

/-- There is at most one output for each job, and they come in the order of the jobs. -/
theorem sublist (series : IsSeries outside before jobs results last) :
    ((outputsOf results).map Output.job).Sublist (jobs.map Job.id) := by
  induction series with
  | done => exact .slnil
  | @next _ _ _ _ _ result _ stored ran came accounts later ih =>
    cases result with
    | ok copies =>
      have named : copies.job = _ := came.named
      simp only [outputsOf, List.filterMap_cons, Except.toOption, List.map_cons, named]
      exact ih.cons_cons _
    | error cause => exact ih.cons _

/-- The jobs with output that were completed are downloaded, and no other row has changed. -/
theorem rows (series : IsSeries outside before jobs results last) :
    AreFetched ((outputsOf results).map Output.job) before.shared.tables.jobs last.shared.tables.jobs := by
  induction series with
  | done depot => exact areFetched_nothing _
  | @next _ _ _ _ _ result _ stored ran came accounts later ih =>
    cases result with
    | ok copies =>
      have named : copies.job = _ := came.named
      simp only [outputsOf, List.filterMap_cons, Except.toOption, List.map_cons, named]
      exact came.rows.append ih
    | error cause =>
      obtain ⟨same, -⟩ := came
      rw [same] at ih
      exact ih

/-- There are two more files for each output, and no others. -/
theorem files (series : IsSeries outside before jobs results last) :
    ∃ added, last.files = before.files ++ added ∧
      added.map Prod.fst = (outputsOf results).flatMap fun copies => [copies.outputPath, copies.errorPath] := by
  induction series with
  | done depot => exact ⟨[], by simp, rfl⟩
  | @next _ _ _ _ _ result _ stored ran came accounts later ih =>
    obtain ⟨added, same, paths⟩ := ih
    cases result with
    | ok copies =>
      obtain ⟨source, -, files⟩ := came.files
      refine ⟨_, by rw [same, files, List.append_assoc], ?_⟩
      rw [List.map_append, paths]
      rfl
    | error cause => exact ⟨added, by rw [same, came.2], paths⟩

end IsSeries

section Bulk

variable {outside : Outside} {depot : Depot}

/-- Rows that are of no output stay. -/
theorem AreFetched.mem {ids : List String} {rows later : List Job} (fetched : AreFetched ids rows later) {row : Job}
    (member : row ∈ rows) (other : row.id ∉ ids) : row ∈ later := by
  induction fetched with
  | nil => exact member
  | cons became _ ih =>
    rcases List.mem_cons.mp member with rfl | behind
    · rw [if_neg fun fetched => other fetched.2] at became
      exact became ▸ List.mem_cons_self
    · exact List.mem_cons_of_mem _ (ih behind)

theorem AreFetched.ids {ids : List String} {rows later : List Job} (fetched : AreFetched ids rows later) :
    later.map Job.id = rows.map Job.id := by
  induction fetched with
  | nil => rfl
  | cons became _ ih =>
    rw [List.map_cons, List.map_cons, ih]
    split at became
    next =>
      obtain ⟨instant, rfl⟩ := became
      rfl
    next => rw [became]

/-- The outputs are those of a series of retrievals. -/
theorem ensures_retrieveAll {jobs : List Job} (distinct : depot.shared.tables.HasDistinctJobs)
    (members : ∀ job ∈ jobs, job ∈ depot.shared.tables.jobs) (once : (jobs.map Job.id).Nodup) :
    Ensures (Answers outside)
      (fun found last => (∃ results, IsSeries outside depot jobs results last ∧ found = outputsOf results) ∧
        last.shared.tables.sessions = depot.shared.tables.sessions)
      (fun _ _ => False) (retrieveAll jobs) depot := by
  induction jobs generalizing depot with
  | nil => exact (ensures_pure _).mpr ⟨⟨[], .done depot, rfl⟩, rfl⟩
  | cons job rest ih =>
    have stored := Store.Tables.job?_of_mem distinct (members job List.mem_cons_self)
    obtain ⟨apart, onceToo⟩ := List.nodup_cons.mp once
    have goesOn {result : Except Failure Output} {after : Depot}
        (ran : Finishes (Answers outside) job.retrieve depot result after)
        (came : IsAllOrNothing outside job depot result after)
        (ids : after.shared.tables.jobs.map Job.id = depot.shared.tables.jobs.map Job.id)
        (stays : ∀ row ∈ depot.shared.tables.jobs, row.id ≠ job.id → row ∈ after.shared.tables.jobs)
        (kept : after.shared.tables.sessions = depot.shared.tables.sessions ∧
          after.shared.tables.localAccounts = depot.shared.tables.localAccounts) :
        Ensures (Answers outside)
          (fun found last => (∃ results, IsSeries outside depot (job :: rest) results last ∧
            found = outputsOf results) ∧ last.shared.tables.sessions = depot.shared.tables.sessions)
          (fun _ _ => False) (do return result.toOption.toList ++ (← retrieveAll rest)) after := by
      have distinctToo : after.shared.tables.HasDistinctJobs := by rwa [Store.Tables.HasDistinctJobs, ids]
      rw [ensures_bind]
      apply (ih distinctToo (fun other member => ?_) onceToo).mono
      · rintro _ last ⟨⟨results, series, rfl⟩, sessions⟩
        refine (ensures_pure _).mpr
          ⟨⟨result :: results, .next stored ran came kept.2 series, ?_⟩, sessions.trans kept.1⟩
        cases result with
        | ok copies => rfl
        | error cause => rfl
      · exact fun _ _ never => never
      · refine stays other (members other (List.mem_cons_of_mem job member)) fun same => apart ?_
        exact List.mem_map.mpr ⟨other, member, same⟩
    unfold retrieveAll
    rw [ensures_bind, Service.ensures_attempt]
    apply ((ensures_retrieve distinct stored).and (preserves_kept job depot depot ⟨rfl, rfl⟩)).ran.mono
    · rintro copies after ⟨⟨retrieved, kept⟩, ran⟩
      refine goesOn ran retrieved retrieved.rows.ids (fun row member other => ?_) kept
      exact retrieved.rows.mem member fun own => other (List.mem_singleton.mp own)
    · rintro cause after ⟨⟨rfl, kept⟩, ran⟩
      exact goesOn ran ⟨rfl, rfl⟩ rfl (fun row member _ => member) kept

/-- What a retrieval of all output of a user has done: it was one retrieval after the other, of each job with both
paths; there is an output for each that succeeded, in the order of identifiers, with two more files and no others; and
of the jobs with output those that were completed are downloaded ones. -/
structure IsGathered (outside : Outside) (user : String) (found : List Output) (before after : Depot) : Prop where
  series : ∃ start done results, before.IsNoted start ∧
    IsSeries outside start ((before.shared.tables.jobsOf user).filter hasFiles) results done ∧ done.IsNoted after ∧
    found = outputsOf results
  order : (found.map Output.job).Pairwise (· < ·)
  files : ∃ added, after.files = before.files ++ added ∧
    added.map Prod.fst = found.flatMap fun copies => [copies.outputPath, copies.errorPath]
  rows : AreFetched (found.map Output.job) before.shared.tables.jobs after.shared.tables.jobs

theorem isGathered_of_series {start done last : Depot} {user : String} {results : List (Except Failure Output)}
    (ordered : depot.shared.tables.HasOrderedJobs) (begun : depot.IsNoted start)
    (series : IsSeries outside start ((depot.shared.tables.jobsOf user).filter hasFiles) results done)
    (ended : done.IsNoted last) : IsGathered outside user (outputsOf results) depot last := by
  have chosen : ((depot.shared.tables.jobsOf user).filter hasFiles).Sublist depot.shared.tables.jobs :=
    List.filter_sublist.trans List.filter_sublist
  obtain ⟨added, files, paths⟩ := series.files
  have rows := series.rows
  rw [begun.untouched.1, ← ended.untouched.1] at rows
  exact {
    series := ⟨start, done, results, begun, series, ended, rfl⟩
    order := ordered.sublist (series.sublist.trans (chosen.map Job.id))
    files := ⟨added, by rw [ended.files, files, begun.files], paths⟩
    rows := rows }

/-- Whoever passes the gate gets the output that can be had. -/
theorem ensures_outputs (ordered : depot.shared.tables.HasOrderedJobs) (key : String) :
    Ensures (Answers outside)
      (fun found last => ∃ caller, depot.shared.tables.admitted key = .ok caller ∧
        IsGathered outside caller.user.id found depot last)
      (fun cause last => depot.shared.tables.admitted key = .error cause ∧ last = depot) (outputs key) depot := by
  unfold outputs
  rw [ensures_bind]
  apply (ensures_authorize key).mono
  · rintro caller depot ⟨admitted, rfl⟩
    rw [ensures_bind]
    apply (ensures_startCommand admitted _ _).mono
    · rintro number start ⟨begun, sessions⟩
      have jobs : start.shared.tables.jobs = depot.shared.tables.jobs := begun.untouched.1
      have distinct : start.shared.tables.HasDistinctJobs := by
        rw [Store.Tables.HasDistinctJobs, jobs]
        exact ordered.distinct
      rw [ensures_bind]
      apply ((Service.reads_store (.jobsOf _) fun _ _ => answers_iff_of_told rfl).ensures).mono
      · rintro listed start ⟨told, rfl⟩
        have chosen : listed.filter hasFiles = (depot.shared.tables.jobsOf caller.user.id).filter hasFiles := by
          rw [← Except.ok.inj told, Store.Tables.jobsOf, Store.Tables.jobsOf, jobs]
        have inside : (listed.filter hasFiles).Sublist start.shared.tables.jobs := by
          rw [chosen, jobs]
          exact List.filter_sublist.trans List.filter_sublist
        rw [ensures_bind]
        apply (ensures_retrieveAll distinct inside.subset (distinct.sublist (inside.map Job.id))).mono
        · rintro found done ⟨⟨results, series, rfl⟩, kept⟩
          rw [chosen] at series
          have known := Session.session?_isSome_of_admitted admitted
          rw [Store.Tables.session?, ← sessions, ← kept] at known
          rw [ensures_bind]
          apply (ensures_record known _ _ _ _).mono
          · exact fun _ last ended =>
              (ensures_pure _).mpr ⟨caller, admitted, isGathered_of_series ordered begun series ended⟩
          · exact fun _ _ never => never.elim
        · exact fun _ _ never => never.elim
      · rintro cause last ⟨failed, -⟩
        cases failed
    · exact fun _ _ never => never.elim
  · exact fun cause last refused => refused

theorem asks_output (key id : String) : Asks Request.isOfOutput (output key id) := by
  have ofSession {α : Type} {service : Service α} (asks : Asks Request.isOfSession service) :
      Asks Request.isOfOutput service := asks.mono fun _ => Request.isOfOutput_of_isOfSession
  have loads : Asks Request.isOfOutput (load id) := by
    unfold load
    refine (Service.asks_store rfl).bind fun found => ?_
    cases found with
    | some job => exact yields_pure trivial
    | none => exact yields_throw _
  unfold output Session.within
  refine (ofSession (Session.asks_authorize key)).bind fun caller => loads.bind fun job => ?_
  refine (Service.asks_ofExcept _).bind fun _ => (ofSession (Session.asks_startCommand _ _ _)).bind fun _ => ?_
  refine (Service.asks_attempt ((asks_retrieve job).mono fun _ => Request.isOfOutput_of_isOfRetrieval)).bind ?_
  exact fun result => (ofSession (Session.asks_record _ _ _ _ _)).bind fun _ => Service.asks_ofExcept result

theorem asks_outputs (key : String) : Asks Request.isOfOutput (outputs key) := by
  have ofSession {α : Type} {service : Service α} (asks : Asks Request.isOfSession service) :
      Asks Request.isOfOutput service := asks.mono fun _ => Request.isOfOutput_of_isOfSession
  have retrieves (jobs : List Job) : Asks Request.isOfOutput (retrieveAll jobs) := by
    induction jobs with
    | nil => exact yields_pure trivial
    | cons job rest ih =>
      refine (Service.asks_attempt ((asks_retrieve job).mono fun _ => Request.isOfOutput_of_isOfRetrieval)).bind ?_
      exact fun result => ih.bind fun found => yields_pure trivial
  unfold outputs
  refine (ofSession (Session.asks_authorize key)).bind fun caller => ?_
  refine (ofSession (Session.asks_startCommand _ _ _)).bind fun _ => (Service.asks_store rfl).bind fun jobs => ?_
  exact (retrieves _).bind fun found => (ofSession (Session.asks_record _ _ _ _ _)).bind fun _ => yields_pure trivial

end Bulk

/-- Wherever a retrieval fails, the jobs and the local files are as before; if it succeeds, there are the two files and
the job is moved on if it was completed. A retrieval of all output comes to this for each of the user's jobs with both
paths, whatever comes of the others, and gives what could be had; only the gate refuses it. Both come to an end. -/
theorem retrievals_are_all_or_nothing (outside : Outside) (depot : Depot)
    (ordered : depot.shared.tables.HasOrderedJobs) (key : String) :
    (∀ id result last, Finishes (Answers outside) (output key id) depot result last →
      match result with
      | .ok copies => ∃ job, depot.shared.tables.job? id = some job ∧ IsRetrieved outside job copies depot last
      | .error _ => depot.IsUntouched last) ∧
    (∀ result last, Finishes (Answers outside) (outputs key) depot result last →
      match depot.shared.tables.admitted key with
      | .ok caller => ∃ found, result = .ok found ∧ IsGathered outside caller.user.id found depot last
      | .error cause => result = .error cause ∧ last = depot) ∧
    (∀ id, Concludes (Answers outside) (output key id) depot) ∧ Concludes (Answers outside) (outputs key) depot := by
  have answered (depot : Depot) := exists_answer outside depot
  refine ⟨fun id result last ended => ?_, fun result last ended => ?_,
    fun id => (asks_output key id).concludes answered depot, (asks_outputs key).concludes answered depot⟩
  · have known := ensures_output ordered.distinct key id result last ended
    cases result with
    | ok copies => exact known
    | error cause => exact known
  · have known := ensures_outputs ordered key result last ended
    cases result with
    | ok found =>
      obtain ⟨caller, admitted, gathered⟩ := known
      rw [admitted]
      exact ⟨found, rfl, gathered⟩
    | error cause =>
      obtain ⟨refused, same⟩ := known
      rw [refused]
      exact ⟨rfl, same⟩

/-- A front end of which every file holds its own path. -/
def sampleOutside : Outside where
  machines _ := some sampleCluster
  contents _ path := path
  canStage _ := true

/-- Two completed jobs, one without a handle, one that has failed, and one of somebody else. -/
def sampleDepot : Depot where
  shared := { sampleStart with tables := { sampleStart.tables with jobs := [
    { (default : Job) with
      id := "J_1", owner := "alice", machine := "cluster", status := .completed, handle := some "7"
      outputPath := some "front:1.out", errorPath := some "1.err" },
    { (default : Job) with
      id := "J_2", owner := "alice", machine := "cluster", status := .completed, handle := some "8"
      outputPath := some "2.out", errorPath := some "2.err" },
    { (default : Job) with
      id := "J_3", owner := "alice", machine := "cluster", status := .completed
      outputPath := some "3.out", errorPath := some "3.err" },
    { (default : Job) with
      id := "J_4", owner := "alice", machine := "cluster", status := .failed, handle := some "9"
      outputPath := some "4.out", errorPath := some "4.err" },
    { (default : Job) with
      id := "J_5", owner := "bob", machine := "cluster", status := .completed, handle := some "10"
      outputPath := some "5.out", errorPath := some "5.err" }] } }
  files := [("kept", "")]

def sampleOutputs : Option (Except Failure (List Output) × Depot) :=
  (outputs "key").run.follow (Depot.respond sampleOutside fun path => path == "2.err") sampleDepot

/-- One copy fails, one job has no handle and one job is not the user's. -/
theorem sampleOutputs_are_gathered : ∃ found last, sampleOutputs = some (.ok found, last) ∧
    found.map Output.job = ["J_1", "J_4"] ∧
    last.files = [("kept", ""), ("J_1-1.out", "1.out"), ("J_1-2.err", "1.err"), ("J_4-3.out", "4.out"),
      ("J_4-4.err", "4.err")] ∧
    last.shared.tables.jobs.map status = [.downloaded, .completed, .completed, .failed, .completed] ∧
    IsGathered sampleOutside "alice" found sampleDepot last := by
  have facts : sampleOutputs.map (fun (result, last) => (result.toOption.map (List.map Output.job), last.files,
      last.shared.tables.jobs.map status)) =
      some (some ["J_1", "J_4"], [("kept", ""), ("J_1-1.out", "1.out"), ("J_1-2.err", "1.err"), ("J_4-3.out", "4.out"),
        ("J_4-4.err", "4.err")], [.downloaded, .completed, .completed, .failed, .completed]) := by decide +kernel
  obtain ⟨⟨result, last⟩, ran, same⟩ := Option.map_eq_some_iff.mp facts
  obtain ⟨given, files, statuses⟩ : _ ∧ _ ∧ _ := by simpa only [Prod.mk.injEq] using same
  have ended : Finishes (Answers sampleOutside) (outputs "key") sampleDepot result last :=
    ends_follow answers_respond ran
  have passes : (sampleDepot.shared.tables.admitted "key").toOption.map (fun caller => caller.user.id) =
      some "alice" := by decide +kernel
  obtain ⟨caller, passed, own⟩ := Option.map_eq_some_iff.mp passes
  have ordered : sampleDepot.shared.tables.HasOrderedJobs := by decide +kernel
  have known := (retrievals_are_all_or_nothing sampleOutside sampleDepot ordered "key").2.1 result last ended
  rw [eq_ok_of_toOption passed] at known
  obtain ⟨found, rfl, gathered⟩ := known
  exact ⟨found, last, ran, Option.some.inj given, files, statuses, own ▸ gathered⟩

end Job

end Dispatch
