import Dispatch.Cloud.Launch
import Dispatch.Proofs.Plan.Record
/-!
Calls of the provider of virtual machines: what can be read off a request and its reply, and what each call comes to
whatever is replied.
-/
namespace Dispatch.Cloud

open Plan

/-- What the reply to a call of a method comes to. -/
def outcome (method : String) (reply : Except Backend.Fault Json) : Except Backend.Fault Json :=
  reply.bind (resultValue method)

/-- Whether a request calls a method of the provider. -/
def isCall (method : String) : Request → Bool
  | .provider _ called _ => called == method
  | _ => false

/-- What a request wants to be done to which machine. -/
def action? : Request → Option (String × Int)
  | .provider _ method [_, .string name, .number (.integer vm)] =>
    if method = actionMethod then some (name, vm) else none
  | _ => none

/-- The machine that a provider has allocated. -/
def allocated? {σ : Type} : Moment σ → Option Int
  | ⟨_, .provider _ method _, reply, _⟩ =>
    if method = allocateMethod then (outcome method reply).toOption.bind Config.vmNumber? else none
  | _ => none

/-- What the provider reports of a machine. -/
def reported? {σ : Type} (vm : Int) : Moment σ → Option Progress
  | ⟨_, .provider _ method [_, .number (.integer number)], reply, _⟩ =>
    if method = infoMethod ∧ number = vm then
      match outcome method reply with
      | .ok (.string document) => some (Progress.read document)
      | _ => none
    else none
  | _ => none

/-- A call is of one method. -/
theorem isCall_eq_false {method other : String} {request : Request} (called : isCall method request = true)
    (different : method ≠ other) : isCall other request = false := by
  cases request with
  | provider endpoint actual params =>
    obtain rfl : actual = method := by simpa [isCall] using called
    simpa [isCall] using different
  | _ => cases called

theorem isShellProbe_of_isCall {method : String} {request : Request} (called : isCall method request = true) :
    request.isShellProbe = false := by
  cases request with
  | provider => rfl
  | _ => cases called

theorem isCall_of_action {request : Request} {wanted : String × Int} (found : action? request = some wanted) :
    isCall actionMethod request = true := by
  unfold action? at found
  split at found
  next => simpa [isCall] using (Option.ite_none_right_eq_some.mp found).1
  next => cases found

theorem isCall_of_allocated {σ : Type} {moment : Moment σ} {vm : Int} (found : allocated? moment = some vm) :
    isCall allocateMethod moment.request = true := by
  obtain ⟨_, request, _, _⟩ := moment
  cases request with
  | provider endpoint method params =>
    rw [allocated?] at found
    split at found
    next same => simp [isCall, same]
    next => cases found
  | _ => cases found

/-- Where no machine is asked for, none is allocated. -/
theorem findSome?_allocated_eq_none {σ : Type} {log : List (Moment σ)}
    (none : timesAsked (isCall allocateMethod) log = 0) : log.findSome? allocated? = Option.none := by
  refine List.findSome?_eq_none_iff.mpr fun moment member => ?_
  have other := timesAsked_eq_zero.mp none moment member
  cases found : allocated? moment with
  | none => rfl
  | some vm =>
    rw [isCall_of_allocated found] at other
    cases other

namespace Config

variable {σ : Type} {setting : Setting σ} {state : σ} {fails : Backend.Fault → σ → Prop}

/-- Without credentials nothing is asked; with them one thing is, and what comes of it is the outcome. -/
theorem ensures_call (config : Config) (method : String) (params : List Json) {gives : Json → σ → Prop} :
    Ensures setting gives fails (config.call method params) state ↔
      (∀ fault, config.sessionText = .error fault → fails fault state) ∧
        ∀ session, config.sessionText = .ok session → ∀ reply next,
          setting state (.provider config.endpoint method (.string session :: params)) reply next →
            (∀ value, outcome method reply = .ok value → gives value next) ∧
              ∀ fault, outcome method reply = .error fault → fails fault next := by
  unfold call
  rw [ensures_bind, Backend.Task.ensures_ofExcept, and_comm]
  refine and_congr_right fun _ => forall_congr' fun session => forall_congr' fun _ => ?_
  rw [ensures_bind, Backend.Task.ensures_ask]
  refine forall_congr' fun reply => forall_congr' fun next => forall_congr' fun _ => ?_
  cases reply with
  | ok answer => exact Backend.Task.ensures_ofExcept _
  | error fault => simp [outcome, Except.bind]

theorem logs_call (config : Config) (method : String) (params : List Json) {gives : Json → List (Moment Unit) → Prop}
    {fails : Backend.Fault → List (Moment Unit) → Prop}
    (refused : ∀ fault, config.sessionText = .error fault → fails fault [])
    (called : ∀ session, config.sessionText = .ok session → ∀ reply : Except Backend.Fault Json,
      let log : List (Moment Unit) := [{
        before := (), request := .provider config.endpoint method (.string session :: params), reply, after := () }]
      (∀ value, outcome method reply = .ok value → gives value log) ∧
        ∀ fault, outcome method reply = .error fault → fails fault log) :
    Logs gives fails (config.call method params) := by
  refine (ensures_call config method params).mpr ⟨refused, fun session same reply next answered => ?_⟩
  rw [answered.2]
  exact called session same reply

end Config

end Dispatch.Cloud
