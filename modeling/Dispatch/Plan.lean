import Dispatch.Machine.Config
import Dispatch.Shell.Outcome
import Dispatch.Store.Call
/-!
Plans: what a service does, as data. A plan ends with a result or asks for one thing and goes on with the
reply, so the same plan can be run, stepped through among others, and reasoned about.
-/
namespace Dispatch

namespace Shell

/-- Work on a remote host. A fetched file goes to a local path. -/
inductive Action
  | execute (command : String) (workingDir : Option String) (background : Bool)
  | fetch (remotePath localPath : String)
  | upload (content remotePath : String) (mode : Int32)
  deriving DecidableEq, Repr

namespace Action

@[reducible] def Result : Action → Type
  | execute .. => Outcome
  | fetch .. => Unit
  | upload .. => Unit

end Action

end Shell

/-- What a plan may ask for. Each request is one indivisible step. -/
inductive Request
  | store (call : Store.Call)
  | now
  | nonce
  | number (limit : Nat)
  | machine (id : String)
  | verify (system : AuthSystem) (login password : String)
  | claim (job : String)
  | release (job : String)
  | enterMint
  | leaveMint
  | remote (target : Shell.Target) (action : Shell.Action)
  | provider (endpoint method : String) (params : List Json)
  | pause (millis : UInt64)
  | readFile (path : String)
  | stage (job suffix : String)
  | discard (path : String)

namespace Request

/-- What the reply to a request can be: random bytes; a random number, used modulo the limit; the
configuration of a machine; whether a password was accepted; whether a claim was granted; what came of
remote work; the answer of the provider; the text of a file or why it cannot be read; the path of a new
staging file or why there is none. -/
@[reducible] def Reply : Request → Type
  | store call => Except Store.Fault call.Answer
  | now => Instant
  | nonce => List UInt8
  | number _ => Nat
  | machine _ => Option Machine
  | verify .. => Except Failure Bool
  | claim _ => Bool
  | release _ => Unit
  | enterMint => Unit
  | leaveMint => Unit
  | remote _ action => Except Shell.Fault action.Result
  | provider .. => Except Backend.Fault Json
  | pause _ => Unit
  | readFile _ => Except String String
  | stage .. => Except String String
  | discard _ => Unit

/-- Whether a request goes to a remote host. -/
def isRemote : Request → Bool
  | remote .. => true
  | _ => false

end Request

inductive Plan (α : Type) : Type
  | done (value : α)
  | ask (request : Request) (next : request.Reply → Plan α)

namespace Plan

def bind : Plan α → (α → Plan β) → Plan β
  | done value, rest => rest value
  | ask request next, rest => ask request fun reply => (next reply).bind rest

instance : Monad Plan where
  pure := done
  bind := bind

/-- The plan of one request. -/
def request (request : Request) : Plan request.Reply := ask request done

theorem bind_done (plan : Plan α) : plan.bind done = plan := by
  induction plan with
  | done value => rfl
  | ask request next ih => simp only [bind, ih]

theorem bind_assoc (plan : Plan α) (first : α → Plan β) (second : β → Plan γ) :
    (plan.bind first).bind second = plan.bind fun value => (first value).bind second := by
  induction plan with
  | done value => rfl
  | ask request next ih => simp only [bind, ih]

instance : LawfulMonad Plan := LawfulMonad.mk' Plan bind_done (fun _ _ => rfl) bind_assoc

/-- Something that answers requests from a state. -/
abbrev Answering (σ : Type) : Type := (request : Request) → σ → request.Reply × σ

/-- Runs a plan to its end. -/
def run (answer : Answering σ) : Plan α → σ → α × σ
  | done value, state => (value, state)
  | ask request next, state =>
    let (reply, state) := answer request state
    (next reply).run answer state

/-- A plan that waits for the reply to its first remote request, or the result of one without any. -/
inductive Pause (α : Type)
  | finished (value : α)
  | waiting (target : Shell.Target) (action : Shell.Action)
      (next : Except Shell.Fault action.Result → Plan α)

/-- Runs a plan up to its first remote request. -/
def runToRemote (answer : Answering σ) : Plan α → σ → Pause α × σ
  | done value, state => (.finished value, state)
  | ask (.remote target action) next, state => (.waiting target action next, state)
  | ask request next, state =>
    let (reply, state) := answer request state
    (next reply).runToRemote answer state

end Plan

/-- A plan that may fail as an operation of the control plane. -/
abbrev Service (α : Type) : Type := ExceptT Failure Plan α

/-- A plan that may fail as a backend. -/
abbrev Backend.Task (α : Type) : Type := ExceptT Backend.Fault Plan α

namespace Service

def ask (request : Request) : Service request.Reply := ExceptT.lift (Plan.request request)

/-- One call to the store; its failures become those of the operation. -/
def store (call : Store.Call) : Service call.Answer := ExceptT.mk do
  let reply ← Plan.request (.store call)
  return reply.mapError Failure.ofStore

/-- The result of a plan, failed or not. -/
def attempt (service : Service α) : Service (Except Failure α) := ExceptT.lift service.run

def ofExcept : Except Failure α → Service α
  | .ok value => pure value
  | .error failure => throw failure

/-- A backend task as part of an operation. -/
def backend (task : Backend.Task α) : Service α := ExceptT.mk do
  let result ← task.run
  return result.mapError Failure.ofBackend

end Service

namespace Backend.Task

def ask (request : Request) : Task request.Reply := ExceptT.lift (Plan.request request)

def ofExcept : Except Fault α → Task α
  | .ok value => pure value
  | .error fault => throw fault

/-- The result of a task, failed or not. -/
def attempt (task : Task α) : Task (Except Fault α) := ExceptT.lift task.run

/-- Remote work; its failures are those of the backend. -/
def remote (target : Shell.Target) (action : Shell.Action) : Task action.Result := ExceptT.mk do
  let reply ← Plan.request (.remote target action)
  return reply.mapError Fault.remote

end Backend.Task

end Dispatch
