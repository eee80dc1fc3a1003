import Dispatch.Proofs.Plan.Footprint
import Dispatch.Proofs.Plan.Pool
/-!
What the services of one server share: the tables of the store, the jobs that are being asked about, and the
mint. Whatever else they ask is answered from outside, and any answer may come.
-/
namespace Dispatch

structure Shared where
  tables : Store.Tables := {}
  claimed : List String := []
  isMinting : Bool := false

namespace Shared

/-- A store that does what its tables say, claims that are granted to one at a time, and a mint that one at a
time is in. -/
def Answers : Setting Shared
  | shared, .store call, reply, next =>
    reply = (shared.tables.answer call).1 ∧ next = { shared with tables := (shared.tables.answer call).2 }
  | shared, .claim job, granted, next =>
    granted = !shared.claimed.contains job ∧
      next = if granted then { shared with claimed := job :: shared.claimed } else shared
  | shared, .release job, _, next =>
    next = { shared with claimed := shared.claimed.filter fun other => other ≠ job }
  | shared, .enterMint, _, next => shared.isMinting = false ∧ next = { shared with isMinting := true }
  | shared, .leaveMint, _, next => next = { shared with isMinting := false }
  | shared, _, _, next => next = shared

/-- A call to the store that fails has no effect. -/
def Fails : Setting Shared
  | shared, .store _, .error _, next => next = shared
  | _, _, _, _ => False

/-- A server whose store may fail at any call. -/
def Serves : Setting Shared := fun shared request reply next =>
  shared.Answers request reply next ∨ shared.Fails request reply next

/-- As `Serves`, with the active sessions listed in whatever order. -/
def ServesInAnyOrder : Setting Shared
  | shared, .store .activeSessions, .ok rows, next => rows.Perm shared.tables.activeSessions ∧ next = shared
  | shared, request, reply, next => shared.Serves request reply next

/-- A server whose store does not fail, with an outside that always says the same. -/
def respond (outside : (request : Request) → request.Reply) : Pool.Responder Shared
  | .store call, shared =>
    some ((shared.tables.answer call).1, { shared with tables := (shared.tables.answer call).2 })
  | .claim job, shared =>
    if shared.claimed.contains job then some (false, shared)
    else some (true, { shared with claimed := job :: shared.claimed })
  | .release job, shared => some ((), { shared with claimed := shared.claimed.filter fun other => other ≠ job })
  | .enterMint, shared => if shared.isMinting then none else some ((), { shared with isMinting := true })
  | .leaveMint, shared => some ((), { shared with isMinting := false })
  | request, shared => some (outside request, shared)

/-- An outside with one machine, in which all goes well: every command prints the same text, the provider does as
it is told, and the clock stands still. -/
def outsideOf (machine : Machine) (stdout : String) : (request : Request) → request.Reply
  | .store _ => .error (.unavailable "")
  | .now => .ofSeconds 0
  | .nonce => []
  | .number _ => 0
  | .machine _ => some machine
  | .verify .. => .ok false
  | .claim _ => false
  | .release _ => ()
  | .enterMint => ()
  | .leaveMint => ()
  | .remote _ (.execute ..) => .ok (.completed 0 stdout "")
  | .remote _ (.fetch ..) => .ok ()
  | .remote _ (.upload ..) => .ok ()
  | .provider .. => .ok (.array [.bool true, .nat 93])
  | .pause _ => ()
  | .readFile _ => .ok "true"
  | .stage job suffix => .ok (job ++ suffix)
  | .discard _ => ()

theorem answers_respond {outside : (request : Request) → request.Reply} {shared next : Shared} {request : Request}
    {reply : request.Reply} (replied : respond outside request shared = some (reply, next)) :
    shared.Answers request reply next := by
  cases request with
  | claim job =>
    simp only [respond] at replied
    split at replied
    next taken =>
      cases replied
      exact ⟨by rw [taken]; rfl, rfl⟩
    next free =>
      cases replied
      exact ⟨by simpa using free, rfl⟩
  | enterMint =>
    simp only [respond] at replied
    split at replied
    next => cases replied
    next free =>
      cases replied
      exact ⟨by simpa using free, rfl⟩
  | store call =>
    cases replied
    exact ⟨rfl, rfl⟩
  | _ =>
    cases replied
    rfl

theorem serves_respond {outside : (request : Request) → request.Reply} {shared next : Shared} {request : Request}
    {reply : request.Reply} (replied : respond outside request shared = some (reply, next)) :
    shared.Serves request reply next := .inl (answers_respond replied)

theorem servesInAnyOrder_of_serves {shared next : Shared} {request : Request} {reply : request.Reply}
    (served : shared.Serves request reply next) : shared.ServesInAnyOrder request reply next := by
  cases request with
  | store call =>
    cases call with
    | activeSessions =>
      cases reply with
      | ok rows =>
        obtain ⟨listed, unchanged⟩ := served.resolve_right fun failed => failed
        exact ⟨.of_eq (Except.ok.inj listed), unchanged⟩
      | error fault => exact served
    | _ => exact served
  | _ => exact served

/-- In whatever order sessions are listed, listing them changes nothing. -/
theorem ServesInAnyOrder.serves_or_eq {shared next : Shared} {request : Request} {reply : request.Reply}
    (served : shared.ServesInAnyOrder request reply next) : shared.Serves request reply next ∨ next = shared := by
  cases request with
  | store call =>
    cases call with
    | activeSessions =>
      cases reply with
      | ok rows => exact .inr served.2
      | error fault => exact .inl served
    | _ => exact .inl served
  | _ => exact .inl served

theorem serves_store {shared next : Shared} {call : Store.Call} {reply : Except Store.Fault call.Answer}
    (served : shared.Serves (.store call) reply next) :
    (reply = (shared.tables.answer call).1 ∧
        next = { shared with tables := (shared.tables.answer call).2 }) ∨
      (∃ fault, reply = .error fault) ∧ next = shared := by
  rcases served with answered | failed
  · exact .inl answered
  · cases reply with
    | ok answer => exact failed.elim
    | error fault => exact .inr ⟨⟨fault, rfl⟩, failed⟩

/-- A call that the tables carry out. -/
theorem answers_iff_of_answer {shared next : Shared} {call : Store.Call} {value : call.Answer} {tables : Store.Tables}
    {reply : Except Store.Fault call.Answer} (told : shared.tables.answer call = (.ok value, tables)) :
    shared.Answers (.store call) reply next ↔ reply = .ok value ∧ next = { shared with tables } := by
  simp only [Answers, told]

/-- A call that tells something and changes nothing. -/
theorem answers_iff_of_told {shared next : Shared} {call : Store.Call} {value : call.Answer}
    {reply : Except Store.Fault call.Answer} (told : shared.tables.answer call = (.ok value, shared.tables)) :
    shared.Answers (.store call) reply next ↔ reply = .ok value ∧ next = shared := answers_iff_of_answer told

/-- Every request but one to enter the mint is replied to. -/
theorem answers_total {shared : Shared} {request : Request} (other : request ≠ .enterMint) :
    ∃ reply next, shared.Answers request reply next := by
  cases request with
  | store call => exact ⟨_, _, rfl, rfl⟩
  | claim job => exact ⟨_, _, rfl, rfl⟩
  | enterMint => exact absurd rfl other
  | _ => exact ⟨outsideOf default "" _, _, rfl⟩

/-- Only the store fails. -/
theorem Serves.answers {shared next : Shared} {request : Request} {reply : request.Reply}
    (served : shared.Serves request reply next) (other : ∀ call, request ≠ .store call) :
    shared.Answers request reply next := by
  rcases served with answered | failed
  · exact answered
  · cases request with
    | store call => exact absurd rfl (other call)
    | _ => exact failed.elim

/-- What goes out leaves everything shared as it is. -/
theorem Serves.eq_of_outward {shared next : Shared} {request : Request} {reply : request.Reply}
    (served : shared.Serves request reply next) (outward : request.isOutward = true) : next = shared := by
  cases request with
  | number | remote | provider | pause | readFile =>
    have answered := served.answers fun _ same => nomatch same
    exact answered
  | _ => cases outward

/-- Only calls to the store change the tables. -/
theorem Serves.tables_eq {shared next : Shared} {request : Request} {reply : request.Reply}
    (served : shared.Serves request reply next) (other : ∀ call, request ≠ .store call) :
    next.tables = shared.tables := by
  have answered := served.answers other
  cases request with
  | store call => exact absurd rfl (other call)
  | claim job =>
    rw [answered.2]
    split
    next => rfl
    next => rfl
  | enterMint => rw [answered.2]
  | now | nonce | number | machine | verify | release | leaveMint | remote | provider | pause | readFile |
    stage | discard => rw [show next = _ from answered]

end Shared

end Dispatch
