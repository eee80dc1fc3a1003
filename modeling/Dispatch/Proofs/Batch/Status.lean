import Dispatch.Batch.Frontend
import Dispatch.Proofs.Plan.Ends
import Dispatch.Proofs.Text.Search
/-!
How the status of a batch job is found out. The commands of the scheduler are asked one after the other, up to the first
whose answer is not that there is no such job; that answer decides, and every answer that tells no status is an error.
-/
namespace Dispatch.Batch

open Plan Shell

/-- The first of the items that have a property. -/
def IsFirst {α : Type} (property : α → Prop) (items : List α) (item : α) : Prop :=
  ∃ before after, items = before ++ item :: after ∧ property item ∧ ∀ earlier ∈ before, ¬property earlier

/-- A line that gives a value to a name: `name = value`, with any blanks around the two. -/
def GivesTo (name line value : List Char) : Prop :=
  ∃ key rest, line = key ++ '=' :: rest ∧ '=' ∉ key ∧ Text.trim key = name ∧ Text.trim rest = value

theorem exists_first_or {α : Type} (property : α → Prop) (items : List α) :
    (∃ item, IsFirst property items item) ∨ ∀ item ∈ items, ¬property item := by
  induction items with
  | nil => exact .inr nofun
  | cons item items ih =>
    by_cases holds : property item
    · exact .inl ⟨item, [], items, rfl, holds, nofun⟩
    rcases ih with ⟨first, before, after, rfl, has, none⟩ | none
    · exact .inl ⟨first, item :: before, after, rfl, has, List.forall_mem_cons.mpr ⟨holds, none⟩⟩
    · exact .inr (List.forall_mem_cons.mpr ⟨holds, none⟩)

/-- The value that one line gives to a name, as a search for attributes reads it. -/
def value? (name line : List Char) : Option (List Char) :=
  match Text.cut? '=' line with
  | some (key, value) => if Text.trim key = name then some (Text.trim value) else none
  | none => none

theorem value?_eq_some {name line value : List Char} : value? name line = some value ↔ GivesTo name line value := by
  unfold value?
  constructor
  · intro given
    split at given
    next key rest cut =>
      obtain ⟨same, absent⟩ := Text.cut?_eq_some.mp cut
      obtain ⟨named, valued⟩ := Option.ite_none_right_eq_some.mp given
      exact ⟨key, rest, same, absent, named, Option.some.inj valued⟩
    next => cases given
  · rintro ⟨key, rest, same, absent, rfl, rfl⟩
    rw [Text.cut?_eq_some.mpr ⟨same, absent⟩]
    exact if_pos rfl

theorem value?_eq_none {name line : List Char} (without : ∀ value, ¬GivesTo name line value) :
    value? name line = none :=
  Option.eq_none_iff_forall_ne_some.mpr fun value given => without value (value?_eq_some.mp given)

theorem attribute?_of_first {name : String} {output line value : List Char}
    (first : IsFirst (fun line => ∃ value, GivesTo name.toList line value) (Text.lines output) line)
    (given : GivesTo name.toList line value) : attribute? name output = some value := by
  obtain ⟨before, after, same, -, without⟩ := first
  refine List.findSome?_eq_some_iff.mpr ⟨before, line, after, same, value?_eq_some.mpr given, ?_⟩
  exact fun earlier member => value?_eq_none (not_exists.mp (without earlier member))

theorem attribute?_of_without {name : String} {output : List Char}
    (without : ∀ line ∈ Text.lines output, ∀ value, ¬GivesTo name.toList line value) :
    attribute? name output = none :=
  List.findSome?_eq_none_iff.mpr fun line member => value?_eq_none (without line member)

namespace Scheduler

/-- The rows of a listing, each as its columns. -/
def rows (listing : String) : List (List (List Char)) := (Text.lines listing.toList).map Text.words

/-- The code that an output shows for a job: the first word to Slurm, the value of `job_state` to PBS, and to SGE the
fifth column of the first row that has the identifier for its first column. -/
def Shows (id output : String) (code : List Char) : Scheduler → Prop
  | slurm => ∃ others, Text.words output.toList = code :: others
  | pbs =>
    ∃ line, IsFirst (fun line => ∃ value, GivesTo "job_state".toList line value) (Text.lines output.toList) line ∧
      GivesTo "job_state".toList line code
  | sge => ∃ row, IsFirst (fun row => row.head? = some id.toList) (rows output) row ∧ row[4]? = some code

theorem jobRow?_of_first {id output : String} {row : List (List Char)}
    (first : IsFirst (fun row => row.head? = some id.toList) (rows output) row) :
    jobRow? id output.toList = some row := by
  obtain ⟨before, after, same, headed, others⟩ := first
  refine List.find?_eq_some_iff_append.mpr ⟨decide_eq_true headed, before, after, same, ?_⟩
  exact fun earlier member => by simpa using others earlier member

theorem jobRow?_of_absent {id output : String} (absent : ∀ row ∈ rows output, row.head? ≠ some id.toList) :
    jobRow? id output.toList = none :=
  List.find?_eq_none.mpr fun row member => by simpa using absent row member

/-- An output in which a scheduler, although it succeeds, does not know the job. -/
def Omits (id output : String) : Scheduler → Prop
  | slurm => ∀ c ∈ output.toList, Text.isBlank c = true
  | pbs => False
  | sge => ∀ row ∈ rows output, row.head? ≠ some id.toList

/-- What a scheduler says of a job that it does not know. -/
def disownings : Scheduler → List String
  | slurm => ["Invalid job id"]
  | pbs => ["Unknown Job Id", "Job has finished"]
  | sge => []

def Disowns (errors : String) (scheduler : Scheduler) : Prop :=
  ∃ phrase ∈ scheduler.disownings, phrase.toList <:+: errors.toList

/-- What the answer to a status command means for a job: a status, no such job, or an error. -/
inductive Means (id : String) : Scheduler → Except Shell.Fault Outcome →
    Except Backend.Fault (Option Job.Status) → Prop
  | known {scheduler : Scheduler} {output errors : String} {code : List Char} {status : Job.Status}
      (shown : scheduler.Shows id output code) (read : scheduler.readCode (String.ofList code) = .ok status) :
      Means id scheduler (.ok (.completed 0 output errors)) (.ok (some status))
  | omitted {scheduler : Scheduler} {output errors : String} (omits : scheduler.Omits id output) :
      Means id scheduler (.ok (.completed 0 output errors)) (.ok none)
  | disowned {scheduler : Scheduler} {exitCode : Int32} {output errors : String} (failed : exitCode ≠ 0)
      (disowns : scheduler.Disowns errors) :
      Means id scheduler (.ok (.completed exitCode output errors)) (.ok none)
  | unknownCode {scheduler : Scheduler} {output errors : String} {code : List Char}
      (shown : scheduler.Shows id output code)
      (unread : ∀ status, scheduler.readCode (String.ofList code) ≠ .ok status) :
      Means id scheduler (.ok (.completed 0 output errors))
        (.error (scheduler.fault s!"Unknown job state '{String.ofList code}'"))
  | stateless {output errors : String}
      (without : ∀ line ∈ Text.lines output.toList, ∀ value, ¬GivesTo "job_state".toList line value) :
      Means id pbs (.ok (.completed 0 output errors)) (.error (pbs.fault s!"No job_state for {id}"))
  | truncated {output errors : String} {row : List (List Char)}
      (first : IsFirst (fun row => row.head? = some id.toList) (rows output) row) (short : row.length ≤ 4) :
      Means id sge (.ok (.completed 0 output errors)) (.error (sge.fault s!"Truncated qstat row for {id}"))
  | failed {scheduler : Scheduler} {exitCode : Int32} {output errors : String} (failed : exitCode ≠ 0)
      (other : ¬scheduler.Disowns errors) :
      Means id scheduler (.ok (.completed exitCode output errors))
        (.error (scheduler.fault s!"Status query failed: {onChars Text.trim errors}"))
  | detached {scheduler : Scheduler} (pid : UInt32) :
      Means id scheduler (.ok (.detached pid)) (.error (scheduler.fault "Status command ran in background"))
  | unreached {scheduler : Scheduler} (fault : Shell.Fault) :
      Means id scheduler (.error fault) (.error (.remote fault))

/-- What is made of the answer to a status command. -/
def finding (scheduler : Scheduler) (id : String) :
    Except Shell.Fault Outcome → Except Backend.Fault (Option Job.Status)
  | .ok outcome => scheduler.readStatus id outcome
  | .error fault => .error (.remote fault)

variable {scheduler : Scheduler} {id output errors : String}

theorem readCode_total (scheduler : Scheduler) (code : String) :
    (∃ status, scheduler.readCode code = .ok status) ∨
      scheduler.readCode code = .error (scheduler.fault s!"Unknown job state '{code}'") := by
  unfold readCode
  cases scheduler <;> dsimp only <;> split <;> first | exact .inl ⟨_, rfl⟩ | exact .inr rfl

theorem readStatusOutput_of_shows {code : List Char} (shown : scheduler.Shows id output code) :
    scheduler.readStatusOutput id output = (scheduler.readCode (String.ofList code)).map some := by
  cases scheduler with
  | slurm =>
    obtain ⟨others, same⟩ := shown
    simp [readStatusOutput, same]
  | pbs =>
    obtain ⟨line, first, given⟩ := shown
    simp only [readStatusOutput, attribute?_of_first first given]
  | sge =>
    obtain ⟨row, first, fifth⟩ := shown
    simp only [readStatusOutput, jobRow?_of_first first, fifth]

theorem readStatusOutput_of_omits (omits : scheduler.Omits id output) :
    scheduler.readStatusOutput id output = .ok none := by
  cases scheduler with
  | slurm => simp [readStatusOutput, Text.words_eq_nil.mpr omits]
  | pbs => exact omits.elim
  | sge => simp only [readStatusOutput, jobRow?_of_absent omits]

theorem disowns_iff : scheduler.disowns errors = true ↔ scheduler.Disowns errors := by
  cases scheduler <;> simp [disowns, Disowns, disownings, Text.hasPart_iff]

/-- An answer is read as what it means. -/
theorem Means.finding_eq {reply : Except Shell.Fault Outcome} {given : Except Backend.Fault (Option Job.Status)}
    (means : Means id scheduler reply given) : scheduler.finding id reply = given := by
  cases means with
  | known shown read => simp [finding, readStatus, readStatusOutput_of_shows shown, read, Except.map]
  | omitted omits => simp [finding, readStatus, readStatusOutput_of_omits omits]
  | disowned failed disowns => simp [finding, readStatus, failed, disowns_iff.mpr disowns]
  | @unknownCode _ _ _ code shown unread =>
    rcases scheduler.readCode_total (String.ofList code) with ⟨status, read⟩ | read
    · exact absurd read (unread status)
    · simp [finding, readStatus, readStatusOutput_of_shows shown, read, Except.map]
  | stateless without => simp [finding, readStatus, readStatusOutput, attribute?_of_without without]
  | truncated first short =>
    simp [finding, readStatus, readStatusOutput, jobRow?_of_first first, List.getElem?_eq_none short]
  | failed failed other =>
    have silent : scheduler.disowns _ = false := Bool.eq_false_iff.mpr (mt disowns_iff.mp other)
    simp [finding, readStatus, failed, silent]
  | detached pid => rfl
  | unreached fault => rfl

/-- A command that succeeded shows a code, knows no such job, or its output lacks what it should have. -/
theorem exists_means_output (scheduler : Scheduler) (id output errors : String) :
    ∃ given, Means id scheduler (.ok (.completed 0 output errors)) given := by
  have of_shown {code : List Char} (shown : scheduler.Shows id output code) :
      ∃ given, Means id scheduler (.ok (.completed 0 output errors)) given := by
    by_cases read : ∃ status, scheduler.readCode (String.ofList code) = .ok status
    · obtain ⟨status, read⟩ := read
      exact ⟨_, .known shown read⟩
    · exact ⟨_, .unknownCode shown (not_exists.mp read)⟩
  cases scheduler with
  | slurm =>
    cases filled : Text.words output.toList with
    | nil => exact ⟨_, .omitted (Text.words_eq_nil.mp filled)⟩
    | cons code others => exact of_shown ⟨others, filled⟩
  | pbs =>
    rcases exists_first_or (fun line => ∃ value, GivesTo "job_state".toList line value) (Text.lines output.toList)
      with ⟨line, first⟩ | without
    · have ⟨_, _, _, ⟨code, given⟩, _⟩ := first
      exact of_shown ⟨line, first, given⟩
    · exact ⟨_, .stateless fun line member => not_exists.mp (without line member)⟩
  | sge =>
    rcases exists_first_or (fun row => row.head? = some id.toList) (rows output) with ⟨row, first⟩ | absent
    · cases fifth : row[4]? with
      | some code => exact of_shown ⟨row, first, fifth⟩
      | none => exact ⟨_, .truncated first (List.getElem?_eq_none_iff.mp fifth)⟩
    · exact ⟨_, .omitted absent⟩

theorem exists_means (scheduler : Scheduler) (id : String) (reply : Except Shell.Fault Outcome) :
    ∃ given, Means id scheduler reply given := by
  rcases reply with fault | ⟨exitCode, output, errors⟩ | pid
  · exact ⟨_, .unreached fault⟩
  · by_cases succeeded : exitCode = 0
    · subst succeeded
      exact exists_means_output scheduler id output errors
    by_cases disowns : scheduler.Disowns errors
    · exact ⟨_, .disowned succeeded disowns⟩
    · exact ⟨_, .failed succeeded disowns⟩
  · exact ⟨_, .detached pid⟩

/-- What the answers come to, and how many of them are waited for: the first that is not that there is no such job
decides, with a status or an error. -/
inductive Verdict (scheduler : Scheduler) (id : String) :
    List (Except Shell.Fault Outcome) → Except Backend.Fault Job.Status → Nat → Prop
  | decided {before after : List (Except Shell.Fault Outcome)} {reply : Except Shell.Fault Outcome}
      {result : Except Backend.Fault Job.Status} (unknown : ∀ earlier ∈ before, Means id scheduler earlier (.ok none))
      (means : Means id scheduler reply (result.map some)) :
      Verdict scheduler id (before ++ reply :: after) result (before.length + 1)
  | forgotten {replies : List (Except Shell.Fault Outcome)}
      (unknown : ∀ reply ∈ replies, Means id scheduler reply (.ok none)) :
      Verdict scheduler id replies (.ok .completed) replies.length

theorem Verdict.decides {reply : Except Shell.Fault Outcome} {after : List (Except Shell.Fault Outcome)}
    {result : Except Backend.Fault Job.Status} (means : Means id scheduler reply (result.map some)) :
    Verdict scheduler id (reply :: after) result 1 :=
  @Verdict.decided scheduler id [] after reply result nofun means

theorem Verdict.behind {first : Except Shell.Fault Outcome} {replies : List (Except Shell.Fault Outcome)}
    {result : Except Backend.Fault Job.Status} {count : Nat} (unknown : Means id scheduler first (.ok none))
    (verdict : Verdict scheduler id replies result count) :
    Verdict scheduler id (first :: replies) result (count + 1) := by
  cases verdict with
  | @decided before after reply _ others means =>
    rw [← List.cons_append]
    exact .decided (List.forall_mem_cons.mpr ⟨unknown, others⟩) means
  | forgotten others => exact .forgotten (List.forall_mem_cons.mpr ⟨unknown, others⟩)

theorem exists_verdict (scheduler : Scheduler) (id : String) (replies : List (Except Shell.Fault Outcome)) :
    ∃ result count, Verdict scheduler id replies result count := by
  induction replies with
  | nil => exact ⟨_, _, .forgotten nofun⟩
  | cons reply replies ih =>
    obtain ⟨given, means⟩ := scheduler.exists_means id reply
    rcases given with fault | none | status
    · exact ⟨.error fault, _, .decides means⟩
    · obtain ⟨result, count, verdict⟩ := ih
      exact ⟨result, count + 1, verdict.behind means⟩
    · exact ⟨.ok status, _, .decides means⟩

end Scheduler

namespace Frontend

/-- The commands that a front-end has been asked to run, and the answers to those that come. -/
structure Dialogue where
  asked : List String
  replies : List (Except Shell.Fault Outcome)

/-- A front-end that runs commands of an account, without a directory and in the foreground. -/
inductive Dialogue.Runs (target : Target) : Setting Dialogue
  | command (asked : List String) (command : String) (reply : Except Shell.Fault Outcome)
      (replies : List (Except Shell.Fault Outcome)) :
      Runs target ⟨asked, reply :: replies⟩ (.remote target (.execute command none false)) reply
        ⟨asked ++ [command], replies⟩

variable {frontend : Frontend} {id : String} {asked : List String} {reply : Except Shell.Fault Outcome}
  {replies : List (Except Shell.Fault Outcome)}

theorem does_execute (frontend : Frontend) (command : String) (asked : List String)
    (reply : Except Shell.Fault Outcome) (replies : List (Except Shell.Fault Outcome)) :
    Does (Dialogue.Runs frontend.target) (frontend.execute command none) ⟨asked, reply :: replies⟩
      (reply.mapError .remote) ⟨asked ++ [command], replies⟩ := by
  intro result last
  constructor
  · rintro ⟨_, _, ⟨⟩, rfl, rfl⟩
    exact ⟨rfl, rfl⟩
  · rintro ⟨rfl, rfl⟩
    exact ⟨reply, _, .command asked command reply replies, rfl, rfl⟩

/-- One command is asked, and its answer read. -/
theorem does_inquiry (frontend : Frontend) (id command : String) (asked : List String)
    (reply : Except Shell.Fault Outcome) (replies : List (Except Shell.Fault Outcome)) :
    Does (Dialogue.Runs frontend.target)
      (frontend.execute command none >>= fun outcome =>
        Backend.Task.ofExcept (frontend.scheduler.readStatus id outcome))
      ⟨asked, reply :: replies⟩ (frontend.scheduler.finding id reply) ⟨asked ++ [command], replies⟩ := by
  have executed := frontend.does_execute command asked reply replies
  cases reply with
  | error fault => exact executed.bind_error _
  | ok outcome =>
    refine executed.bind ?_
    rw [Scheduler.finding]
    cases frontend.scheduler.readStatus id outcome with
    | ok found => exact does_pure found
    | error fault => exact does_throw fault

/-- Commands that do not know the job leave the question to those behind them. -/
theorem does_statusBy_behind {unknown : List (Except Shell.Fault Outcome)} {front commands : List String}
    {result : Except Backend.Fault Job.Status} {last : Dialogue} (same : front.length = unknown.length)
    (all : ∀ reply ∈ unknown, Scheduler.Means id frontend.scheduler reply (.ok none))
    (rest : Does (Dialogue.Runs frontend.target) (frontend.statusBy id commands) ⟨asked ++ front, replies⟩ result
      last) :
    Does (Dialogue.Runs frontend.target) (frontend.statusBy id (front ++ commands)) ⟨asked, unknown ++ replies⟩
      result last := by
  induction unknown generalizing front asked with
  | nil =>
    obtain rfl := List.eq_nil_of_length_eq_zero same
    rwa [List.append_nil] at rest
  | cons reply unknown ih =>
    obtain ⟨command, front, rfl⟩ := List.exists_cons_of_length_eq_add_one same
    have inquired := frontend.does_inquiry id command asked reply (unknown ++ replies)
    rw [(all reply List.mem_cons_self).finding_eq] at inquired
    rw [List.cons_append, statusBy, ← LawfulMonad.bind_assoc]
    refine inquired.bind (ih (Nat.succ.inj same) (fun other member => all other (List.mem_cons_of_mem _ member)) ?_)
    rwa [List.append_assoc, List.singleton_append]

/-- The answer of a command that knows the job, and an error, is the end of it. -/
theorem does_statusBy_decided {result : Except Backend.Fault Job.Status}
    (means : Scheduler.Means id frontend.scheduler reply (result.map some)) (command : String)
    (commands asked : List String) (replies : List (Except Shell.Fault Outcome)) :
    Does (Dialogue.Runs frontend.target) (frontend.statusBy id (command :: commands)) ⟨asked, reply :: replies⟩ result
      ⟨asked ++ [command], replies⟩ := by
  have inquired := frontend.does_inquiry id command asked reply replies
  rw [means.finding_eq] at inquired
  rw [statusBy, ← LawfulMonad.bind_assoc]
  cases result with
  | ok status => exact inquired.bind (does_pure status)
  | error fault => exact inquired.bind_error _

/-- Whatever the answers to the status commands, the status is what they come to: that of the first command that knows
the job, completed if none does, and otherwise an error. No command is asked behind the one that decides. -/
theorem status_is_of_first_knowing (frontend : Frontend) (id : String)
    (replies : List (Except Shell.Fault Outcome))
    (enough : replies.length = (frontend.scheduler.statusCommands id).length) :
    (∃ result count, frontend.scheduler.Verdict id replies result count) ∧
    ∀ result count, frontend.scheduler.Verdict id replies result count →
      Does (Dialogue.Runs frontend.target) (frontend.status id) ⟨[], replies⟩ result
        ⟨(frontend.scheduler.statusCommands id).take count, replies.drop count⟩ := by
  refine ⟨frontend.scheduler.exists_verdict id replies, fun result count verdict => ?_⟩
  rw [status]
  generalize frontend.scheduler.statusCommands id = commands at enough
  cases verdict with
  | @decided before after reply _ unknown means =>
    obtain ⟨front, command, back, rfl, same⟩ :
        ∃ front command back, commands = front ++ command :: back ∧ front.length = before.length := by
      have inside : before.length < commands.length := by simp [← enough]
      exact ⟨commands.take before.length, commands[before.length], commands.drop (before.length + 1), by simp,
        List.length_take_of_le (Nat.le_of_lt inside)⟩
    have decided := does_statusBy_decided means command back front after
    have asked : (front ++ command :: back).take (before.length + 1) = front ++ [command] := by
      rw [← same, List.take_length_add_append, List.take_one, List.head?_cons, Option.toList_some]
    have left : (before ++ reply :: after).drop (before.length + 1) = after := by simp
    rw [asked, left]
    exact does_statusBy_behind same unknown decided
  | forgotten unknown =>
    have behind : Does (Dialogue.Runs frontend.target) (frontend.statusBy id (commands ++ [])) ⟨[], replies ++ []⟩
        (.ok .completed) ⟨commands, []⟩ := does_statusBy_behind enough.symm unknown (does_pure _)
    rw [enough, List.take_length, ← enough, List.drop_length]
    rwa [List.append_nil, List.append_nil] at behind

/-- A front-end where only the jobs 421 and 42 are known. -/
def sampleFrontend : Frontend := { scheduler := .sge, target := default }

def sampleListing : String := "job-ID prior name user state\n421 0.5 a me qw\n  42 0.5 b me Eqw\n"

theorem status_of_own_row :
    Does (Dialogue.Runs sampleFrontend.target) (sampleFrontend.status "42")
      ⟨[], [.ok (.completed 0 sampleListing "")]⟩ (.ok .failed) ⟨["qstat -u '*'"], []⟩ := by
  have listed : Scheduler.rows sampleListing =
      [["job-ID", "prior", "name", "user", "state"], ["421", "0.5", "a", "me", "qw"]].map (List.map String.toList) ++
        [["42", "0.5", "b", "me", "Eqw"].map String.toList] := by cbv
  have shown : Scheduler.sge.Shows "42" sampleListing "Eqw".toList := by
    refine ⟨_, ⟨_, [], listed, ?_, ?_⟩, ?_⟩ <;> decide
  exact (sampleFrontend.status_is_of_first_knowing "42" [.ok (.completed 0 sampleListing "")] rfl).2 _ 1
    (.decides (.known shown rfl))

end Frontend

end Dispatch.Batch
