import Dispatch.Proofs.Plan.Protocol
/-!
Footprints: the kinds of requests that a plan makes at all. Most of what a service does is of no concern to a
protocol; its footprint is all that has to be known of it.
-/
namespace Dispatch

namespace Request

/-- What a place is driven with. -/
def isOutward : Request → Bool
  | number _ | remote .. | provider .. | pause _ | readFile _ => true
  | _ => false

/-- Finding out if commands can be run on a host. -/
def isShellProbe : Request → Bool
  | remote _ (.execute command none false) => command == "true"
  | _ => false

/-- What it takes to bring a job to a host that can be reached. -/
def isDelivery : Request → Bool
  | number _ | readFile _ => true
  | request => request.isRemote && !request.isShellProbe

/-- What finds a place. -/
def isOfPlace : Request → Bool
  | machine _ | store (.findLocalAccount ..) => true
  | _ => false

/-- What the gate of a session looks at: the session and its user. -/
def isLookUp : Request → Bool
  | store (.findSession _) | store (.findUser _) => true
  | _ => false

/-- What the gate and the history of a session need. -/
def isOfSession : Request → Bool
  | now | store (.findSession _) | store (.findUser _) | store (.touchSession ..) | store (.entriesOf _) |
    store (.insertEntry _) | store (.updateEntry _) => true
  | _ => false

/-- What it takes to log in, and to come back to a session. -/
def isOfLogin : Request → Bool
  | now | nonce | number _ | verify .. | store (.findUser _) | store (.authAccountsOf _) |
    store (.findAuthSystem _) | store (.findSessionWithId _) | store (.insertSession _) |
    store (.touchSession ..) => true
  | _ => false

/-- What it takes to find out who a caller is, and to come back to a session: all of a login but a new session. -/
def isOfInquiry : Request → Bool
  | store (.insertSession _) => false
  | request => request.isOfLogin

/-- What it takes to find out who a caller is. -/
def isOfProof : Request → Bool
  | verify .. | store (.findUser _) | store (.authAccountsOf _) | store (.findAuthSystem _) => true
  | _ => false

/-- What it takes to find out who a caller is, and which identifiers of sessions are in use. -/
def isOfIdentity : Request → Bool
  | number _ | verify .. | store (.findUser _) | store (.authAccountsOf _) | store (.findAuthSystem _) |
    store (.findSessionWithId _) => true
  | _ => false

/-- What an identifier is minted with. -/
def isOfMint : Request → Bool
  | now | enterMint | leaveMint | store .openTransaction | store (.commit _) | store (.rollback _) |
    store (.reserve ..) | store (.isTaken ..) | store (.assign ..) => true
  | _ => false

/-- The local copies of files. -/
def isOfStaging : Request → Bool
  | stage .. | discard _ | remote .. => true
  | _ => false

/-- What reads or writes rows of jobs. -/
def isOfJobs : Request → Bool
  | store (.insertJob _) | store (.findJob _) | store (.updateJob _) | store (.transitionJob ..) |
    store (.jobsOf _) | store .unfinishedJobs => true
  | _ => false

/-- What reads or writes rows of sessions. -/
def isOfSessions : Request → Bool
  | store (.insertSession _) | store (.findSession _) | store (.findSessionWithId _) | store (.updateSession _) |
    store (.touchSession ..) | store .activeSessions => true
  | _ => false

theorem isOfSession_of_isLookUp {request : Request} (member : request.isLookUp = true) :
    request.isOfSession = true := by
  cases request with
  | store call =>
    cases call with
    | findSession | findUser => rfl
    | _ => cases member
  | _ => cases member

theorem isOfLogin_of_isOfInquiry {request : Request} (member : request.isOfInquiry = true) :
    request.isOfLogin = true := by
  cases request with
  | store call =>
    cases call with
    | insertSession => cases member
    | _ => exact member
  | _ => exact member

theorem isOfIdentity_of_isOfProof {request : Request} (member : request.isOfProof = true) :
    request.isOfIdentity = true := by
  cases request with
  | store call =>
    cases call with
    | findUser | authAccountsOf | findAuthSystem => rfl
    | _ => cases member
  | verify => rfl
  | _ => cases member

theorem isOfInquiry_of_isOfIdentity {request : Request} (member : request.isOfIdentity = true) :
    request.isOfInquiry = true := by
  cases request with
  | store call =>
    cases call with
    | findUser | authAccountsOf | findAuthSystem | findSessionWithId => rfl
    | _ => cases member
  | number | verify => rfl
  | _ => cases member

/-- Jobs are apart from all the rest. -/
theorem isOfJobs_eq_false {request : Request} (other : request.isOutward = true ∨ request.isOfPlace = true ∨
    request.isOfSession = true ∨ request.isOfMint = true ∨ request.isOfStaging = true) :
    request.isOfJobs = false := by
  cases request with
  | store call =>
    cases call with
    | insertJob | findJob | updateJob | transitionJob | jobsOf | unfinishedJobs =>
      simp [isOutward, isOfPlace, isOfSession, isOfMint, isOfStaging] at other
    | _ => rfl
  | _ => rfl

end Request

/-- Whoever keeps to these requests need not know anything. -/
def Protocol.within (allowed : Request → Bool) : Protocol Unit where
  permits _ request := allowed request = true
  learn _ _ _ := ()

/-- Requests that are permitted by a protocol and of no concern to it. -/
def Protocol.Ignores (protocol : Protocol κ) (known : κ) (allowed : Request → Bool) : Prop :=
  ∀ request, allowed request = true →
    protocol.permits known request ∧ ∀ reply, protocol.learn known request reply = known

theorem Protocol.ignores_within {allowed wider : Request → Bool}
    (included : ∀ request, allowed request = true → wider request = true) :
    (Protocol.within wider).Ignores () allowed := fun request member => ⟨included request member, fun _ => rfl⟩

namespace Plan

variable {ε φ α β κ : Type} {allowed : Request → Bool}

/-- A plan that may fail makes no other requests than these, and its value is as expected. -/
def Yields (allowed : Request → Bool) (expected : α → Prop) (task : ExceptT ε Plan α) : Prop :=
  Tries (Protocol.within allowed) (fun value _ => expected value) (fun _ _ => True) task ()

/-- The footprint alone. -/
def Asks (allowed : Request → Bool) (task : ExceptT ε Plan α) : Prop := Yields allowed (fun _ => True) task

/-- Where a footprint is permitted as long as something is true of what is known, and no reply changes that, a plan of
that footprint keeps the protocol. -/
theorem Keeps.of_footprint {protocol : Protocol κ} {known : κ} {plan : Plan α} {expected : α → Unit → Prop}
    {ends : α → κ → Prop} (kept : plan.Keeps (Protocol.within allowed) expected ()) (enough : κ → Prop)
    (free : ∀ known request, enough known → allowed request = true →
      protocol.permits known request ∧ ∀ reply, enough (protocol.learn known request reply))
    (ended : ∀ value known, enough known → expected value () → ends value known) (begins : enough known) :
    plan.Keeps protocol ends known := by
  induction plan generalizing known with
  | done value => exact ended value known begins kept
  | ask request next ih =>
    have step := free known request begins kept.1
    exact ⟨step.1, fun reply _ => ih reply (kept.2 reply trivial) (step.2 reply)⟩

variable {expected : α → Prop}

/-- Where a protocol permits the footprint of a plan and learns nothing from it, the plan keeps the protocol. -/
theorem Yields.tries {protocol : Protocol κ} {known : κ} {task : ExceptT ε Plan α} {gives : α → κ → Prop}
    {fails : ε → κ → Prop} (yields : Yields allowed expected task)
    (ignored : protocol.Ignores known allowed)
    (given : ∀ value, expected value → gives value known) (failed : ∀ cause, fails cause known) :
    Tries protocol gives fails task known := by
  refine Keeps.of_footprint yields (fun other => other = known) ?_ ?_ rfl
  · rintro _ request rfl member
    exact ignored request member
  · rintro result _ rfl expected
    cases result with
    | ok value => exact given value expected
    | error cause => exact failed cause

/-- Where a protocol always permits the footprint of a plan, the plan keeps the protocol, whatever is learnt. -/
theorem Yields.tries_of_free {protocol : Protocol κ} {known : κ} {task : ExceptT ε Plan α}
    (yields : Yields allowed expected task)
    (free : ∀ known request, allowed request = true → protocol.permits known request) :
    Tries protocol (fun value _ => expected value) (fun _ _ => True) task known := by
  refine Keeps.of_footprint yields (fun _ => True) ?_ ?_ trivial
  · exact fun known request _ member => ⟨free known request member, fun _ => trivial⟩
  · intro result _ _ expected
    cases result with
    | ok value => exact expected
    | error cause => trivial

/-- What is of no concern to a protocol, and then the rest. -/
theorem Yields.andThen {protocol : Protocol κ} {known : κ} {task : ExceptT ε Plan α}
    {rest : α → ExceptT ε Plan β} {gives : β → κ → Prop} {fails : ε → κ → Prop}
    (yields : Yields allowed expected task) (ignored : protocol.Ignores known allowed)
    (failed : ∀ cause, fails cause known)
    (next : ∀ value, expected value → Tries protocol gives fails (rest value) known) :
    Tries protocol gives fails (task >>= rest) known :=
  (tries_bind task rest).mpr (yields.tries ignored next failed)

theorem Yields.bind {wanted : β → Prop} {task : ExceptT ε Plan α} {rest : α → ExceptT ε Plan β}
    (first : Yields allowed expected task)
    (second : ∀ value, expected value → Yields allowed wanted (rest value)) :
    Yields allowed wanted (task >>= rest) := by
  rw [Yields, tries_bind]
  exact first.tries (Protocol.ignores_within fun _ => id) second fun _ => trivial

theorem Yields.mono {wider : Request → Bool} {task : ExceptT ε Plan α} (yields : Yields allowed expected task)
    (included : ∀ request, allowed request = true → wider request = true) : Yields wider expected task :=
  yields.tries (Protocol.ignores_within included) (fun _ given => given) fun _ => trivial

theorem yields_pure {value : α} (given : expected value) :
    Yields allowed expected (pure value : ExceptT ε Plan α) := given

theorem yields_throw (cause : ε) : Yields allowed expected (throw cause : ExceptT ε Plan α) := trivial

/-- A failure under a condition, and otherwise the rest. -/
theorem yields_guard {condition : Prop} [Decidable condition] {cause : ε} {rest : PUnit → ExceptT ε Plan α}
    (passed : ¬condition → Yields allowed expected (rest ())) :
    Yields allowed expected (if condition then throw cause >>= rest else rest ()) := by
  split
  next => trivial
  next absent => exact passed absent

theorem Asks.bind {wanted : β → Prop} {task : ExceptT ε Plan α} {rest : α → ExceptT ε Plan β}
    (first : Asks allowed task) (second : ∀ value, Yields allowed wanted (rest value)) :
    Yields allowed wanted (task >>= rest) := Yields.bind first fun value _ => second value

end Plan

open Plan

variable {α : Type} {allowed : Request → Bool} {expected : α → Prop}

namespace Service

theorem asks_ask {request : Request} (member : allowed request = true) : Asks allowed (Service.ask request) :=
  ⟨member, fun _ _ => trivial⟩

theorem asks_store {call : Store.Call} (member : allowed (.store call) = true) :
    Asks allowed (Service.store call) := by
  rw [Asks, Yields, tries_store]
  exact ⟨member, fun _ _ => trivial, fun _ _ => trivial⟩

theorem asks_ofExcept (result : Except Failure α) : Asks allowed (Service.ofExcept result) := by
  cases result with
  | ok value => exact yields_pure trivial
  | error cause => exact yields_throw cause

theorem asks_attempt {service : Service α} (asks : Asks allowed service) :
    Asks allowed (Service.attempt service) := by
  rw [Asks, Yields, tries_attempt]
  exact asks

theorem yields_backend {task : Backend.Task α} (yields : Yields allowed expected task) :
    Yields allowed expected (Service.backend task) := by
  rw [Yields, tries_backend]
  exact yields

theorem asks_backend {task : Backend.Task α} (asks : Asks allowed task) : Asks allowed (Service.backend task) :=
  yields_backend asks

end Service

namespace Backend.Task

theorem asks_ask {request : Request} (member : allowed request = true) : Asks allowed (Task.ask request) :=
  ⟨member, fun _ _ => trivial⟩

theorem yields_ofExcept {result : Except Fault α} (given : ∀ value, result = .ok value → expected value) :
    Yields allowed expected (Task.ofExcept result) := by
  cases result with
  | ok value => exact yields_pure (given value rfl)
  | error cause => exact yields_throw cause

theorem asks_ofExcept (result : Except Fault α) : Asks allowed (Task.ofExcept result) :=
  yields_ofExcept fun _ _ => trivial

theorem yields_attempt {task : Task α} (yields : Yields allowed expected task) :
    Yields allowed (fun result => ∀ value, result = .ok value → expected value) (Task.attempt task) := by
  rw [Yields, tries_attempt]
  refine yields.tries (Protocol.ignores_within fun _ => id) ?_ fun _ _ failed => nomatch failed
  rintro value given _ ⟨⟩
  exact given

theorem asks_attempt {task : Task α} (asks : Asks allowed task) : Asks allowed (Task.attempt task) := by
  rw [Asks, Yields, tries_attempt]
  exact asks

theorem asks_remote {target : Shell.Target} {action : Shell.Action}
    (member : allowed (.remote target action) = true) : Asks allowed (Task.remote target action) := by
  rw [Asks, Yields, tries_remote]
  exact ⟨member, fun _ _ => trivial, fun _ _ => trivial⟩

end Backend.Task

end Dispatch
