import Dispatch.Identifier.Mint
import Dispatch.Job.Access
import Dispatch.Proofs.Plan.Ensures
import Dispatch.Session.Login
/-!
What stands around the work of a service: logging in, the gate and the history of a session, the mint, and the
way to the place of a job.
-/
namespace Dispatch

open Plan

namespace Session

/-- The gate looks, and that is all. -/
theorem looksUp_authorize (key : String) : Asks Request.isLookUp (authorize key) := by
  have loads : Asks Request.isLookUp (load key) := by
    unfold load
    refine (Service.asks_store rfl).bind fun found => ?_
    cases found with
    | some session => exact yields_pure trivial
    | none => exact yields_throw _
  unfold authorize
  refine loads.bind fun session => yields_guard fun _ => ?_
  refine (Service.asks_store rfl).bind fun found => ?_
  cases found with
  | none => exact yields_throw _
  | some user => exact (Service.asks_ofExcept _).bind fun _ => yields_pure trivial

theorem asks_authorize (key : String) : Asks Request.isOfSession (authorize key) :=
  (looksUp_authorize key).mono fun _ => Request.isOfSession_of_isLookUp

theorem asks_check (key : String) : Asks Request.isOfSession (check key) :=
  (asks_authorize key).bind fun _ => yields_pure trivial

theorem asks_startCommand (key description : String) (category : History.Category) :
    Asks Request.isOfSession (startCommand key description category) :=
  (asks_check key).bind fun _ => (Service.asks_ask rfl).bind fun _ => Service.asks_store rfl

theorem asks_record (key description : String) (category : History.Category) (status : History.Status)
    (object : Option String) : Asks Request.isOfSession (record key description category status object) := by
  unfold record
  refine (Service.asks_ask rfl).bind fun now => (Service.asks_store rfl).bind fun _ =>
    (Service.asks_store rfl).bind fun entries => ?_
  split
  next => exact Service.asks_store rfl
  next => exact (Service.asks_store rfl).bind fun _ => yields_pure trivial

/-- A command between its start and its end in the history keeps the protocol that it keeps alone. -/
theorem tries_within {κ α : Type} {protocol : Protocol κ} {known : κ} {gives : α → κ → Prop}
    {fails : Failure → κ → Prop} (ignored : ∀ known, protocol.Ignores known Request.isOfSession)
    {command : Service α} (key description : String) (category : History.Category) (object : α → Option String)
    (tried : Tries protocol gives fails command known) (refused : ∀ cause known, fails cause known) :
    Tries protocol gives fails (within key description category object command) known := by
  unfold within
  rw [tries_bind]
  refine (asks_startCommand key description category).tries (ignored known) (fun _ _ => ?_) fun cause =>
    refused cause known
  rw [tries_bind, Service.tries_attempt]
  refine tried.mono (fun value later given => ?_) fun cause later _ => ?_
  · rw [tries_bind]
    exact (asks_record _ _ _ _ _).tries (ignored later) (fun _ _ => given) fun cause => refused cause later
  · rw [tries_bind]
    exact (asks_record _ _ _ _ _).tries (ignored later) (fun _ _ => refused cause later) fun cause =>
      refused cause later

/-- What comes of a command is what its caller gets, after its start and with its end noted. -/
theorem ensures_within_parts {σ α : Type} {setting : Setting σ} {begun : σ → Prop} {gives : α → σ → Prop}
    {fails : Failure → σ → Prop} {command : Service α} {key description : String} {category : History.Category}
    {state : σ} (object : α → Option String)
    (starts : Ensures setting (fun _ last => begun last) fails (startCommand key description category) state)
    (ensured : ∀ middle, begun middle → Ensures setting
      (fun value done => Ensures setting (fun _ last => gives value last) fails
        (record key description category .success (object value)) done)
      (fun cause done => Ensures setting (fun _ last => fails cause last) fails
        (record key description category .failed none) done)
      command middle) :
    Ensures setting gives fails (within key description category object command) state := by
  unfold within
  rw [ensures_bind]
  refine starts.mono (fun _ middle known => ?_) fun _ _ known => known
  rw [ensures_bind, Service.ensures_attempt]
  refine (ensured middle known).mono (fun value done notes => ?_) fun cause done notes => ?_
  · rw [ensures_bind]
    exact Ensures.mono notes (fun _ _ noted => (ensures_pure value).mpr noted) fun _ _ known => known
  · rw [ensures_bind]
    exact Ensures.mono notes (fun _ _ noted => (ensures_throw cause).mpr noted) fun _ _ known => known

/-- What a command makes of what was true at its start is true at its end, if the history breaks none of it. -/
theorem ensures_within_giving {σ α : Type} {setting : Setting σ} (begins ends : σ → Prop) {gives : α → σ → Prop}
    {command : Service α}
    (keepsBegin : ∀ {state next : σ} {request : Request} {reply : request.Reply}, request.isOfSession = true →
      setting state request reply next → begins state → begins next)
    (keepsEnd : ∀ {state next : σ} {request : Request} {reply : request.Reply}, request.isOfSession = true →
      setting state request reply next → ends state → ends next)
    (keepsValue : ∀ {value : α} {state next : σ} {request : Request} {reply : request.Reply},
      request.isOfSession = true → setting state request reply next → gives value state → gives value next)
    (unstarted : ∀ state, begins state → ends state) (unnoted : ∀ value state, gives value state → ends state)
    (ensured : ∀ state, begins state → Ensures setting gives (fun _ last => ends last) command state)
    (key description : String) (category : History.Category) (object : α → Option String) {state : σ}
    (holds : begins state) :
    Ensures setting gives (fun _ last => ends last) (within key description category object command) state := by
  have starts : Ensures setting (fun _ last => begins last) (fun _ last => ends last)
      (startCommand key description category) state :=
    (Yields.ensures (asks_startCommand key description category) begins keepsBegin holds).mono
      (fun _ _ known => known.2) fun _ last known => unstarted last known
  refine ensures_within_parts object starts fun middle known => (ensured middle known).mono
    (fun value done given => ?_) fun cause done held => ?_
  · exact (Yields.ensures (asks_record _ _ _ _ _) (gives value) keepsValue given).mono
      (fun _ _ known => known.2) fun _ last known => unnoted value last known
  · exact (Yields.ensures (asks_record _ _ _ _ _) ends keepsEnd held).mono
      (fun _ _ known => known.2) fun _ _ known => known

theorem ensures_within {σ α : Type} {setting : Setting σ} (begins ends : σ → Prop) {command : Service α}
    (keepsBegin : ∀ {state next : σ} {request : Request} {reply : request.Reply}, request.isOfSession = true →
      setting state request reply next → begins state → begins next)
    (keepsEnd : ∀ {state next : σ} {request : Request} {reply : request.Reply}, request.isOfSession = true →
      setting state request reply next → ends state → ends next)
    (unstarted : ∀ state, begins state → ends state)
    (ensured : ∀ state, begins state →
      Ensures setting (fun _ last => ends last) (fun _ last => ends last) command state)
    (key description : String) (category : History.Category) (object : α → Option String) {state : σ}
    (holds : begins state) :
    Ensures setting (fun _ last => ends last) (fun _ last => ends last)
      (within key description category object command) state :=
  ensures_within_giving begins ends keepsBegin keepsEnd keepsEnd unstarted (fun _ _ held => held) ensured key
    description category object holds

theorem proves_isVouchedBy (account : AuthAccount) (password : String) :
    Asks Request.isOfProof (isVouchedBy account password) := by
  unfold isVouchedBy
  split
  next => exact yields_pure trivial
  next =>
    refine (Service.asks_store rfl).bind fun found => ?_
    cases found with
    | none => exact yields_pure trivial
    | some system =>
      dsimp only
      split
      next => exact yields_pure trivial
      next => exact (Service.asks_ask rfl).bind fun _ => yields_pure trivial

theorem proves_isVouchedByAny (accounts : List AuthAccount) (password : String) :
    Asks Request.isOfProof (isVouchedByAny accounts password) := by
  induction accounts with
  | nil => exact yields_pure trivial
  | cons account rest ih =>
    refine (proves_isVouchedBy account password).bind fun vouched => ?_
    split
    next => exact yields_pure trivial
    next => exact ih

theorem proves_authenticate (credentials : Credentials) : Asks Request.isOfProof (authenticate credentials) := by
  unfold authenticate
  refine (Service.asks_store rfl).bind fun found => ?_
  cases found with
  | none => exact yields_throw _
  | some user =>
    dsimp only
    split
    next => exact yields_pure trivial
    next =>
      refine (Service.asks_store rfl).bind fun accounts => (proves_isVouchedByAny accounts _).bind fun vouched => ?_
      split
      next => exact yields_pure trivial
      next => exact yields_throw _

/-- Nobody is asked who may act for a user but the store. -/
theorem finds_actingUser {allowed : Request → Bool} (finds : ∀ id, allowed (.store (.findUser id)) = true)
    (user : User) (substitute : Option String) : Asks allowed (actingUser user substitute) := by
  unfold actingUser
  cases substitute with
  | none => exact yields_pure trivial
  | some other =>
    dsimp only
    split
    next => exact yields_pure trivial
    next =>
      refine yields_guard fun _ => (Service.asks_store (finds other)).bind fun found => ?_
      cases found with
      | some acting => exact yields_pure trivial
      | none => exact yields_throw _

/-- Identifiers are drawn, and looked for in the store. -/
theorem draws_unusedId {allowed : Request → Bool} (draws : ∀ limit, allowed (.number limit) = true)
    (finds : ∀ id, allowed (.store (.findSessionWithId id)) = true) (user : String) (instant : Instant) (left : Nat) :
    Asks allowed (unusedId user instant left) := by
  induction left with
  | zero => exact yields_throw _
  | succ left ih =>
    unfold unusedId
    refine (Service.asks_ask (draws _)).bind fun tail => (Service.asks_store (finds _)).bind fun found => ?_
    cases found with
    | none => exact yields_pure trivial
    | some session => exact ih

theorem identifies_authenticate (credentials : Credentials) : Asks Request.isOfIdentity (authenticate credentials) :=
  (proves_authenticate credentials).mono fun _ => Request.isOfIdentity_of_isOfProof

theorem identifies_actingUser (user : User) (substitute : Option String) :
    Asks Request.isOfIdentity (actingUser user substitute) := finds_actingUser (fun _ => rfl) user substitute

theorem identifies_unusedId (user : String) (instant : Instant) (left : Nat) :
    Asks Request.isOfIdentity (unusedId user instant left) :=
  draws_unusedId (fun _ => rfl) (fun _ => rfl) user instant left

theorem asks_authenticate (credentials : Credentials) : Asks Request.isOfInquiry (authenticate credentials) :=
  (identifies_authenticate credentials).mono fun _ => Request.isOfInquiry_of_isOfIdentity

theorem asks_actingUser (user : User) (substitute : Option String) :
    Asks Request.isOfInquiry (actingUser user substitute) :=
  (identifies_actingUser user substitute).mono fun _ => Request.isOfInquiry_of_isOfIdentity

theorem asks_unusedId (user : String) (instant : Instant) (left : Nat) :
    Asks Request.isOfInquiry (unusedId user instant left) :=
  (identifies_unusedId user instant left).mono fun _ => Request.isOfInquiry_of_isOfIdentity

theorem asks_connect (defaults : SessionDefaults) (credentials : Credentials) (clientHost : String)
    (options : ConnectOptions) : Asks Request.isOfLogin (connect defaults credentials clientHost options) := by
  have login {α : Type} {service : Service α} (asks : Asks Request.isOfInquiry service) :
      Asks Request.isOfLogin service := asks.mono fun _ => Request.isOfLogin_of_isOfInquiry
  unfold connect
  exact (login (asks_authenticate credentials)).bind fun user => yields_guard fun _ =>
    (login (asks_actingUser user _)).bind fun acting => (Service.asks_ask rfl).bind fun now =>
    (Service.asks_ask rfl).bind fun nonce => (Service.asks_ask rfl).bind fun tail =>
    (login (asks_unusedId acting now _)).bind fun id => (Service.asks_store rfl).bind fun _ => yields_pure trivial

/-- What the outcome of authentication proves. Only a failure that says nothing of the user is passed on. -/
def provenBy : Except Failure User → Except Failure Bool
  | .ok _ => .ok true
  | .error (.unknownUser _) => .ok false
  | .error failure => .error failure

/-- The last part of the way back to a session. -/
def returnTo (session : Session) (isAllowed : Bool) : Service Session := do
  if !isAllowed then throw .sessionNotFound
  let now ← Service.ask .now
  if ← Service.store (.touchSession session.key now) then return { session with lastActivityAt := now }
  throw .sessionExpired

/-- The way back to a session in its parts. -/
theorem reconnect_eq (credentials : Credentials) (clientHost id : String) :
    reconnect credentials clientHost id = (do
      match ← Service.store (.findUser credentials.user) with
      | none => throw (.unknownUser credentials.user)
      | some user =>
        match ← Service.store (.findSessionWithId id) with
        | none => throw (.unknownSessionId id)
        | some session =>
          if !session.isActive then throw .sessionExpired
          let authenticated ← Service.attempt (authenticate credentials)
          let isProven ← Service.ofExcept (provenBy authenticated)
          returnTo session (isProven && (user.isAdmin || session.belongsTo user clientHost))) := by
  unfold reconnect
  congr 1
  funext found
  cases found with
  | none => rfl
  | some user =>
    dsimp only
    congr 1
    funext found
    cases found with
    | none => rfl
    | some session =>
      dsimp only
      split
      next => rfl
      next =>
        congr 1
        funext authenticated
        cases authenticated with
        | ok user => rfl
        | error failure => cases failure <;> rfl

/-- A session is touched, and nothing else. -/
theorem touches_returnTo {allowed : Request → Bool} (asksNow : allowed .now = true)
    (touches : ∀ key instant, allowed (.store (.touchSession key instant)) = true) (session : Session)
    (isAllowed : Bool) : Asks allowed (returnTo session isAllowed) := by
  unfold returnTo
  refine yields_guard fun _ => (Service.asks_ask asksNow).bind fun now =>
    (Service.asks_store (touches _ now)).bind fun touched => ?_
  split
  next => exact yields_pure trivial
  next => exact yields_throw _

theorem asks_returnTo (session : Session) (isAllowed : Bool) :
    Asks Request.isOfInquiry (returnTo session isAllowed) :=
  touches_returnTo rfl (fun _ _ => rfl) session isAllowed

/-- Nobody who comes back opens a session. -/
theorem inquires_reconnect (credentials : Credentials) (clientHost id : String) :
    Asks Request.isOfInquiry (reconnect credentials clientHost id) := by
  rw [reconnect_eq]
  refine (Service.asks_store rfl).bind fun found => ?_
  cases found with
  | none => exact yields_throw _
  | some user =>
    refine (Service.asks_store rfl).bind fun found => ?_
    cases found with
    | none => exact yields_throw _
    | some session =>
      exact yields_guard fun _ => (Service.asks_attempt (asks_authenticate credentials)).bind fun authenticated =>
        (Service.asks_ofExcept _).bind fun isProven => asks_returnTo session _

theorem asks_reconnect (credentials : Credentials) (clientHost id : String) :
    Asks Request.isOfLogin (reconnect credentials clientHost id) :=
  (inquires_reconnect credentials clientHost id).mono fun _ => Request.isOfLogin_of_isOfInquiry

end Session

namespace Identifier

theorem asks_reserveFrom (kind : Kind) (counter left : Nat) (candidate : String) :
    Asks Request.isOfMint (reserveFrom kind counter left candidate) := by
  induction left generalizing candidate with
  | zero => exact yields_throw _
  | succ left ih =>
    unfold reserveFrom
    refine (Service.asks_store rfl).bind fun taken => ?_
    split
    next => exact ih _
    next =>
      refine (Service.asks_ask rfl).bind fun assigned => ?_
      cases assigned with
      | ok _ => exact yields_pure trivial
      | error fault => exact yields_throw _

theorem asks_takeCounter (kind : Kind) : Asks Request.isOfMint (takeCounter kind) := by
  unfold takeCounter
  refine (Service.asks_store rfl).bind fun transaction => (Service.asks_ask rfl).bind fun reserved => ?_
  cases reserved with
  | ok counter => exact (Service.asks_store rfl).bind fun _ => yields_pure trivial
  | error fault => exact (Service.asks_ask rfl).bind fun _ => yields_throw _

theorem Mint.asks_nextAlone (mint : Mint) (kind : Kind) (name site : Option String) :
    Asks Request.isOfMint (mint.nextAlone kind name site) := by
  unfold nextAlone
  exact (asks_takeCounter kind).bind fun counter => (Service.asks_ask rfl).bind fun now =>
    (Service.asks_ofExcept _).bind fun candidate => yields_guard fun _ => asks_reserveFrom kind counter _ _

theorem Mint.asks_next (mint : Mint) (kind : Kind) (name site : Option String) :
    Asks Request.isOfMint (mint.next kind name site) :=
  (Service.asks_ask rfl).bind fun _ => (Service.asks_attempt (mint.asks_nextAlone kind name site)).bind fun result =>
    (Service.asks_ask rfl).bind fun _ => Service.asks_ofExcept result

end Identifier

namespace Job

theorem asks_placeFor (machine user params : String) :
    Asks Request.isOfPlace (placeFor machine user params) := by
  have found : Asks Request.isOfPlace (machineOf machine) := by
    unfold machineOf
    refine (Service.asks_ask rfl).bind fun known => ?_
    cases known with
    | some machine => exact yields_pure trivial
    | none => exact yields_throw _
  exact found.bind fun machine => (Service.asks_store rfl).bind fun account => yields_pure trivial

theorem asks_place (job : Job) : Asks Request.isOfPlace job.place :=
  (asks_placeFor _ _ _).bind fun _ => yields_pure trivial

end Job

end Dispatch
