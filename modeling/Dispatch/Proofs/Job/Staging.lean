import Dispatch.Job.Retrieval
import Dispatch.Proofs.Job.Ownership
import Dispatch.Proofs.Session.History
import Mathlib.Data.Fintype.EquivFin
/-!
The local files that output is fetched to. A file is made empty under a path that no other has; a copy that succeeds
fills it with what the remote file holds, one that fails may leave any part of it there.
-/
namespace Dispatch

open Plan

/-- What the services of a server share, and its local files: their paths, and what is in them. -/
structure Depot where
  shared : Shared := {}
  files : List (String × String) := []

/-- What lies beyond a server: the machines, what remote files hold, and for which jobs files can be made, for each of
them both or none. -/
structure Depot.Outside where
  machines : String → Option Machine
  contents : Shell.Target → String → String
  canStage : String → Bool

namespace Request

/-- What a server does for itself: the clock and the store. -/
def isInner : Request → Bool
  | now | store _ => true
  | _ => false

/-- What a retrieval asks for. -/
def isOfRetrieval : Request → Bool
  | now | machine _ | stage .. | discard _ | remote _ (.fetch ..) | store (.findLocalAccount ..) |
    store (.transitionJob ..) => true
  | _ => false

theorem isInner_of_isOfSession {request : Request} (member : request.isOfSession = true) :
    request.isInner = true := by
  cases request with
  | now | store => rfl
  | _ => cases member

/-- What the services for output ask for. -/
def isOfOutput (request : Request) : Bool := request.isInner || request.isOfRetrieval

theorem isOfOutput_of_isOfSession {request : Request} (member : request.isOfSession = true) :
    request.isOfOutput = true := by
  rw [isOfOutput, isInner_of_isOfSession member, Bool.true_or]

theorem isOfOutput_of_isOfRetrieval {request : Request} (member : request.isOfRetrieval = true) :
    request.isOfOutput = true := by
  rw [isOfOutput, member, Bool.or_true]

theorem isOfRetrieval_of_isOfPlace {request : Request} (member : request.isOfPlace = true) :
    request.isOfRetrieval = true := by
  cases request with
  | machine => rfl
  | store call =>
    cases call with
    | findLocalAccount => rfl
    | _ => cases member
  | _ => cases member

end Request

namespace Depot

variable {depot next : Depot} {outside : Outside}

def write (depot : Depot) (path content : String) : Depot :=
  { depot with files := depot.files.map fun file => if file.1 = path then (path, content) else file }

def discard (depot : Depot) (path : String) : Depot :=
  { depot with files := depot.files.filter fun file => file.1 ≠ path }

/-- No file has that path. -/
def IsFree (depot : Depot) (path : String) : Prop := ∀ file ∈ depot.files, file.1 ≠ path

/-- A server whose store does not fail. Every copy may succeed or fail. -/
def Answers (outside : Outside) : Setting Depot
  | depot, .machine id, found, next => found = outside.machines id ∧ next = depot
  | depot, .stage job _, .ok path, next =>
    outside.canStage job = true ∧ depot.IsFree path ∧ next = { depot with files := depot.files ++ [(path, "")] }
  | depot, .stage job _, .error _, next => outside.canStage job = false ∧ next = depot
  | depot, .remote target (.fetch remotePath path), .ok _, next =>
    next = depot.write path (outside.contents target remotePath)
  | depot, .remote _ (.fetch _ path), .error _, next => ∃ part, next = depot.write path part
  | depot, .discard path, _, next => next = depot.discard path
  | depot, request, reply, next => depot.shared.Answers request reply next.shared ∧ next.files = depot.files

theorem answers_inner {request : Request} {reply : request.Reply} (inner : request.isInner = true) :
    Answers outside depot request reply next ↔
      depot.shared.Answers request reply next.shared ∧ next.files = depot.files := by
  cases request with
  | now | store => rfl
  | _ => cases inner

theorem ext_iff : next = depot ↔ next.shared = depot.shared ∧ next.files = depot.files := by
  cases next
  cases depot
  rw [mk.injEq]

/-- A call that tells something and changes nothing. -/
theorem answers_iff_of_told {call : Store.Call} {value : call.Answer} {reply : Except Store.Fault call.Answer}
    (told : depot.shared.tables.answer call = (.ok value, depot.shared.tables)) :
    Answers outside depot (.store call) reply next ↔ reply = .ok value ∧ next = depot := by
  rw [answers_inner rfl, Shared.answers_iff_of_told told, and_assoc, ext_iff]

theorem exists_isFree (depot : Depot) : ∃ path, depot.IsFree path := by
  obtain ⟨path, absent⟩ := Infinite.exists_notMem_finset (depot.files.map Prod.fst).toFinset
  refine ⟨path, fun file member same => absent ?_⟩
  exact List.mem_toFinset.mpr (List.mem_map.mpr ⟨file, member, same⟩)

/-- There is always a reply. -/
theorem exists_answer (outside : Outside) (depot : Depot) (request : Request) (member : request.isOfOutput = true) :
    ∃ reply next, Answers outside depot request reply next := by
  cases request with
  | now => exact ⟨default, depot, rfl, rfl⟩
  | store call => exact ⟨_, { depot with shared := _ }, ⟨rfl, rfl⟩, rfl⟩
  | machine id => exact ⟨_, _, rfl, rfl⟩
  | discard path => exact ⟨(), _, rfl⟩
  | stage job suffix =>
    cases possible : outside.canStage job with
    | true =>
      obtain ⟨path, free⟩ := depot.exists_isFree
      exact ⟨.ok path, _, possible, free, rfl⟩
    | false => exact ⟨.error "", depot, possible, rfl⟩
  | remote target action =>
    cases action with
    | fetch remotePath path => exact ⟨.ok (), _, rfl⟩
    | _ => cases member
  | _ => cases member

/-- A retrieval leaves sessions and accounts alone. -/
theorem kept_of_isOfRetrieval {request : Request} {reply : request.Reply} (member : request.isOfRetrieval = true)
    (answered : Answers outside depot request reply next) :
    next.shared.tables.sessions = depot.shared.tables.sessions ∧
      next.shared.tables.localAccounts = depot.shared.tables.localAccounts := by
  cases request with
  | now =>
    obtain ⟨same, -⟩ := answered
    rw [show next.shared = depot.shared from same]
    exact ⟨rfl, rfl⟩
  | machine =>
    obtain ⟨-, rfl⟩ := answered
    exact ⟨rfl, rfl⟩
  | stage =>
    cases reply with
    | ok path =>
      obtain ⟨-, -, rfl⟩ := answered
      exact ⟨rfl, rfl⟩
    | error cause =>
      obtain ⟨-, rfl⟩ := answered
      exact ⟨rfl, rfl⟩
  | discard =>
    obtain rfl := answered
    exact ⟨rfl, rfl⟩
  | remote target action =>
    cases action with
    | fetch =>
      cases reply with
      | ok nothing =>
        obtain rfl := answered
        exact ⟨rfl, rfl⟩
      | error fault =>
        obtain ⟨part, rfl⟩ := answered
        exact ⟨rfl, rfl⟩
    | _ => cases member
  | store call =>
    obtain ⟨⟨-, after⟩, -⟩ := answered
    rw [after]
    cases call with
    | findLocalAccount => exact ⟨rfl, rfl⟩
    | transitionJob id status instant =>
      rcases depot.shared.tables.transitionJob_cases id status instant with same | ⟨_, _, _, same⟩
      · rw [Store.Tables.answer, same]
        exact ⟨rfl, rfl⟩
      · rw [Store.Tables.answer, same]
        exact ⟨rfl, rfl⟩
    | _ => cases member
  | _ => cases member

/-- What a server does for itself is as it is without files, and the files stay as they are. -/
theorem ensures_inner {α : Type} {task : Service α} (asks : Asks Request.isInner task) {gives : α → Shared → Prop}
    {fails : Failure → Shared → Prop} (ensured : Ensures Shared.Answers gives fails task depot.shared) :
    Ensures (Answers outside) (fun value last => gives value last.shared ∧ last.files = depot.files)
      (fun cause last => fails cause last.shared ∧ last.files = depot.files) task depot := by
  have files : Preserves (Answers outside) (fun last => last.files = depot.files) task :=
    Yields.preserves asks fun inner answered same => ((answers_inner inner).mp answered).2.trans same
  exact (asks.ensures_through Depot.shared (fun inner answered => ((answers_inner inner).mp answered).1) ensured).and
    (files depot rfl)

/-- The same jobs and files. -/
def IsUntouched (before after : Depot) : Prop :=
  after.shared.tables.jobs = before.shared.tables.jobs ∧ after.files = before.files

/-- A server where the copies of some remote files fail. New files are numbered. -/
def respond (outside : Outside) (fails : String → Bool) : Pool.Responder Depot
  | .machine id, depot => some (outside.machines id, depot)
  | .stage job suffix, depot =>
    let path := s!"{job}-{depot.files.length}{suffix}"
    if !outside.canStage job then some (.error "", depot)
    else if depot.files.all fun file => file.1 ≠ path then
      some (.ok path, { depot with files := depot.files ++ [(path, "")] })
    else none
  | .remote target (.fetch remotePath path), depot =>
    if fails remotePath then some (.error (.transfer remotePath ""), depot.write path "part")
    else some (.ok (), depot.write path (outside.contents target remotePath))
  | .discard path, depot => some ((), depot.discard path)
  | request, depot =>
    (Shared.respond (Shared.outsideOf default "") request depot.shared).map fun (reply, shared) =>
      (reply, { depot with shared })

theorem answers_respond {fails : String → Bool} {request : Request} {reply : request.Reply}
    (replied : respond outside fails request depot = some (reply, next)) :
    Answers outside depot request reply next := by
  have inside {reply : request.Reply}
      (replied : (Shared.respond (Shared.outsideOf default "") request depot.shared).map (fun (reply, shared) =>
        (reply, ({ depot with shared } : Depot))) = some (reply, next)) :
      depot.shared.Answers request reply next.shared ∧ next.files = depot.files := by
    obtain ⟨⟨given, after⟩, found, same⟩ := Option.map_eq_some_iff.mp replied
    cases same
    exact ⟨Shared.answers_respond found, rfl⟩
  cases request with
  | machine id =>
    cases replied
    exact ⟨rfl, rfl⟩
  | stage job suffix =>
    simp only [respond] at replied
    split at replied
    next impossible =>
      cases replied
      exact ⟨by simpa using impossible, rfl⟩
    next possible =>
      split at replied
      next free =>
        cases replied
        exact ⟨by simpa using possible, fun file member => by simpa using List.all_eq_true.mp free file member, rfl⟩
      next => cases replied
  | discard path =>
    cases replied
    rfl
  | remote target action =>
    cases action with
    | fetch remotePath path =>
      simp only [respond] at replied
      split at replied
      next =>
        cases replied
        exact ⟨"part", rfl⟩
      next =>
        cases replied
        rfl
    | execute | upload => exact inside replied
  | _ => exact inside replied

section History

variable {key : String} {caller : Caller}

/-- At most sessions and the history have changed. -/
structure IsNoted (before after : Depot) : Prop where
  shared : before.shared.IsNoted after.shared
  files : after.files = before.files

theorem IsNoted.untouched {before after : Depot} (noted : before.IsNoted after) : before.IsUntouched after := by
  obtain ⟨_, _, _, same⟩ := noted.shared
  exact ⟨by rw [same], noted.files⟩

/-- The gate changes nothing. -/
theorem ensures_authorize (key : String) :
    Ensures (Answers outside) (fun caller last => depot.shared.tables.admitted key = .ok caller ∧ last = depot)
      (fun cause last => depot.shared.tables.admitted key = .error cause ∧ last = depot) (Session.authorize key)
      depot := by
  have inner : Asks Request.isInner (Session.authorize key) :=
    (Session.asks_authorize key).mono fun _ => Request.isInner_of_isOfSession
  apply (ensures_inner inner (Session.reads_authorize key).ensures).mono
  · rintro caller last ⟨⟨admitted, shared⟩, files⟩
    exact ⟨admitted, ext_iff.mpr ⟨shared, files⟩⟩
  · rintro cause last ⟨⟨refused, shared⟩, files⟩
    exact ⟨refused, ext_iff.mpr ⟨shared, files⟩⟩

/-- The start of a command is noted for everyone who is admitted. -/
theorem ensures_startCommand (admitted : depot.shared.tables.admitted key = .ok caller) (description : String)
    (category : History.Category) :
    Ensures (Answers outside)
      (fun _ last => depot.IsNoted last ∧ last.shared.tables.sessions = depot.shared.tables.sessions)
      (fun _ _ => False) (Session.startCommand key description category) depot := by
  have inner : Asks Request.isInner (Session.startCommand key description category) :=
    (Session.asks_startCommand key description category).mono fun _ => Request.isInner_of_isOfSession
  apply (ensures_inner inner (Session.ensures_startCommand admitted description category)).mono
  · rintro number last ⟨⟨entry, same⟩, files⟩
    refine ⟨⟨?_, files⟩, by rw [same]; rfl⟩
    rw [same]
    exact ⟨_, _, _, rfl⟩
  · rintro cause last ⟨never, -⟩
    exact never.elim

/-- The end of a command is noted for everyone who has a session. -/
theorem ensures_record (known : (depot.shared.tables.session? key).isSome = true) (description : String)
    (category : History.Category) (status : History.Status) (object : Option String) :
    Ensures (Answers outside) (fun _ last => depot.IsNoted last) (fun _ _ => False)
      (Session.record key description category status object) depot := by
  have asks := Session.asks_record key description category status object
  have inner := asks.mono fun _ => Request.isInner_of_isOfSession
  have noted := asks.ensures_as (fun _ answered => .inl answered) (Session.ensures_noted asks depot.shared)
  apply (ensures_inner inner ((Session.ensures_record known _ _ _ _).and noted)).mono
  · rintro _ last ⟨⟨-, shared⟩, files⟩
    exact ⟨shared, files⟩
  · rintro cause last ⟨⟨never, -⟩, -⟩
    exact never.elim

end History

/-- Two more files. -/
def stage (depot : Depot) (first second : String × String) : Depot :=
  { depot with files := depot.files ++ [first, second] }

section Staged

variable {path other content : String}

/-- Two paths that are apart and of no other file. -/
structure AreNew (depot : Depot) (path other : String) : Prop where
  first : depot.IsFree path
  second : depot.IsFree other
  apart : path ≠ other

theorem AreNew.write_first (new : depot.AreNew path other) (old content kept : String) :
    (depot.stage (path, old) (other, kept)).write path content = depot.stage (path, content) (other, kept) := by
  have others : depot.files.map (fun file => if file.1 = path then (path, content) else file) = depot.files :=
    (List.map_congr_left fun file member => if_neg (new.first file member)).trans (List.map_id _)
  simp only [stage, write, List.map_append, others, List.map_cons, List.map_nil, if_true, if_neg new.apart.symm]

theorem AreNew.write_second (new : depot.AreNew path other) (kept old content : String) :
    (depot.stage (path, kept) (other, old)).write other content = depot.stage (path, kept) (other, content) := by
  have others : depot.files.map (fun file => if file.1 = other then (other, content) else file) = depot.files :=
    (List.map_congr_left fun file member => if_neg (new.second file member)).trans (List.map_id _)
  simp only [stage, write, List.map_append, others, List.map_cons, List.map_nil, if_true, if_neg new.apart]

/-- Once both are discarded, all is as before. -/
theorem AreNew.discard (new : depot.AreNew path other) (content kept : String) :
    ((depot.stage (path, content) (other, kept)).discard path).discard other = depot := by
  have kept : depot.files.filter (fun file => !decide (file.1 = other) && !decide (file.1 = path)) = depot.files :=
    List.filter_eq_self.mpr fun file member => by simp [new.first file member, new.second file member]
  simp [stage, Depot.discard, new.apart.symm, kept]

end Staged

end Depot

end Dispatch
