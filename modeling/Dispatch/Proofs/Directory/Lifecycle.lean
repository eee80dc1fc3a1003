import Dispatch.Proofs.Directory.Registry
/-!
The life of authentication systems under any operations on the registry, with accounts added and users logging in
between. One operation edits the table as may be done, and a login asks only systems that are active; so over a whole
run no identifier is given twice, and a deleted system stays as it is and is never asked again.
-/
namespace Dispatch

open Plan

/-- A question to a system about a password. -/
def Request.isVerification : Request → Bool
  | verify .. => true
  | _ => false

/-- All of a login but what systems are asked. -/
def Request.isOfLoginOnly : Request → Bool
  | verify .. => false
  | request => request.isOfLogin

theorem Request.isOfDirectory_of_isOfLogin {request : Request} (member : request.isOfLogin = true) :
    request.isOfDirectory = false := by
  cases request with
  | store call =>
    cases call with
    | insertAuthSystem | updateAuthSystem | insertAuthAccount | setAuthAccounts => cases member
    | _ => rfl
  | _ => rfl

namespace Directory

variable {directory : Directory} {α : Type}

/-- While the directory stays as it is, only its active systems have been asked. -/
structure IsAsking (directory : Directory) (now : Recorded Shared) : Prop where
  stays : now.state.tables.directory = directory
  asks : ∀ moment ∈ now.trace, ∀ system login password, moment.request = .verify system login password →
    system ∈ directory.systems ∧ system.isActive = true

theorem isAsking_start (shared : Shared) : shared.tables.directory.IsAsking { state := shared } :=
  ⟨rfl, fun _ never => absurd never List.not_mem_nil⟩

/-- A request of a login, of an active system if a system is asked. -/
theorem IsAsking.step {now next : Recorded Shared} {request : Request} {reply : request.Reply}
    (asking : directory.IsAsking now) (answered : Shared.Serves.recorded now request reply next)
    (member : request.isOfLogin = true) (active : ∀ system login password, request = .verify system login password →
      system ∈ directory.systems ∧ system.isActive = true) : directory.IsAsking next := by
  refine ⟨?_, ?_⟩
  · have served : now.state.Serves request reply next.state := answered.1
    rw [served.directory_eq (Request.isOfDirectory_of_isOfLogin member)]
    exact asking.stays
  · intro moment present system login password same
    rw [answered.2] at present
    rcases List.mem_append.mp present with earlier | here
    · exact asking.asks moment earlier system login password same
    · obtain rfl := List.mem_singleton.mp here
      exact active system login password same

/-- What asks no systems. -/
theorem preserves_isAsking {allowed : Request → Bool} {service : Service α} (asks : Asks allowed service)
    (only : ∀ request, allowed request = true → request.isOfLoginOnly = true) :
    Preserves Shared.Serves.recorded directory.IsAsking service := by
  apply Yields.preserves asks
  intro now next request reply member answered asking
  cases request with
  | verify => cases only _ member
  | _ => exact asking.step answered (only _ member) nofun

theorem preserves_isVouchedBy (account : AuthAccount) (password : String) :
    Preserves Shared.Serves.recorded directory.IsAsking (Session.isVouchedBy account password) := by
  intro now asking
  unfold Session.isVouchedBy
  split
  next => exact (ensures_pure _).mpr asking
  next =>
    rw [ensures_bind, Service.ensures_store]
    refine ⟨fun found next answered => ?_, fun _ _ answered => asking.step answered rfl nofun⟩
    have later := asking.step answered rfl nofun
    have told : found = now.state.tables.authSystem? account.system := by
      rcases Shared.serves_store answered.1 with ⟨same, _⟩ | ⟨⟨_, never⟩, _⟩
      · exact Except.ok.inj same
      · cases never
    cases found with
    | none => exact (ensures_pure _).mpr later
    | some system =>
      have stored : system ∈ directory.systems := by
        rw [← asking.stays]
        exact List.mem_of_find?_eq_some told.symm
      dsimp only
      split
      next => exact (ensures_pure _).mpr later
      next active =>
        rw [ensures_bind, Service.ensures_ask]
        intro verdict last said
        apply (ensures_pure _).mpr
        apply later.step said rfl
        rintro _ _ _ ⟨⟩
        exact ⟨stored, by simpa using active⟩

theorem preserves_isVouchedByAny (accounts : List AuthAccount) (password : String) :
    Preserves Shared.Serves.recorded directory.IsAsking (Session.isVouchedByAny accounts password) := by
  induction accounts with
  | nil => exact preserves_pure false
  | cons account rest ih =>
    unfold Session.isVouchedByAny
    apply (preserves_isVouchedBy account password).bind
    intro vouched
    split
    next => exact preserves_pure true
    next => exact ih

/-- One call of a login to the store. -/
theorem preserves_store {call : Store.Call} (member : (Request.store call).isOfLoginOnly = true) :
    Preserves Shared.Serves.recorded directory.IsAsking (Service.store call) :=
  preserves_isAsking (Service.asks_store member) fun _ same => same

theorem preserves_authenticate (credentials : Credentials) :
    Preserves Shared.Serves.recorded directory.IsAsking (Session.authenticate credentials) := by
  unfold Session.authenticate
  apply (preserves_store rfl).bind
  intro found
  cases found with
  | none => exact preserves_throw _
  | some user =>
    dsimp only
    split
    next => exact preserves_pure user
    next =>
      apply (preserves_store rfl).bind
      intro accounts
      apply (preserves_isVouchedByAny accounts _).bind
      intro vouched
      split
      next => exact preserves_pure user
      next => exact preserves_throw _

theorem preserves_connect (defaults : SessionDefaults) (credentials : Credentials) (clientHost : String)
    (options : ConnectOptions) : Preserves Shared.Serves.recorded directory.IsAsking
      (Session.connect defaults credentials clientHost options) := by
  have draws {request : Request} (member : request.isOfLoginOnly = true) :
      Preserves Shared.Serves.recorded directory.IsAsking (Service.ask request) :=
    preserves_isAsking (Service.asks_ask member) fun _ same => same
  unfold Session.connect
  apply (preserves_authenticate credentials).bind
  intro user now asking
  apply ensures_guard.mpr
  refine ⟨fun _ => asking, fun _ => ?_⟩
  have acts : Asks Request.isOfLoginOnly (Session.actingUser user options.substitute) :=
    Session.finds_actingUser (fun _ => rfl) user options.substitute
  apply (preserves_isAsking acts fun _ same => same).bind _ now asking
  intro acting
  apply (draws rfl).bind fun instant => (draws rfl).bind fun nonce => (draws rfl).bind fun tail => _
  intro instant nonce tail
  have ids : Asks Request.isOfLoginOnly (Session.unusedId acting instant Session.idAttempts) :=
    Session.draws_unusedId (fun _ => rfl) (fun _ => rfl) acting instant Session.idAttempts
  apply (preserves_isAsking ids fun _ same => same).bind
  intro id
  exact (preserves_store rfl).bind fun _ => preserves_pure _

theorem preserves_reconnect (credentials : Credentials) (clientHost id : String) :
    Preserves Shared.Serves.recorded directory.IsAsking (Session.reconnect credentials clientHost id) := by
  rw [Session.reconnect_eq]
  apply (preserves_store rfl).bind
  intro found
  cases found with
  | none => exact preserves_throw _
  | some user =>
    apply (preserves_store rfl).bind
    intro found
    cases found with
    | none => exact preserves_throw _
    | some session =>
      intro now asking
      apply ensures_guard.mpr
      refine ⟨fun _ => asking, fun _ => ?_⟩
      apply (Service.preserves_attempt (preserves_authenticate credentials)).bind _ now asking
      intro authenticated
      apply (preserves_isAsking (Service.asks_ofExcept _) fun _ same => same).bind
      intro isProven
      have touches (isAllowed : Bool) : Asks Request.isOfLoginOnly (Session.returnTo session isAllowed) :=
        Session.touches_returnTo rfl (fun _ _ => rfl) session isAllowed
      exact preserves_isAsking (touches _) fun _ same => same

/-- What is done to the directory: by whoever has a key, by adding an account, or by logging in. -/
inductive Act
  | add (mint : Identifier.Mint) (key : String) (entry : AuthSystem.Entry)
  | update (key id : String) (changes : AuthSystem.Changes)
  | delete (key id : String)
  | addAccount (account : AuthAccount)
  | connect (defaults : SessionDefaults) (credentials : Credentials) (clientHost : String) (options : ConnectOptions)
  | reconnect (credentials : Credentials) (clientHost id : String)

namespace Act

@[reducible] def Answer : Act → Type
  | add .. => AuthSystem
  | update .. => AuthSystem
  | delete .. => Unit
  | addAccount _ => Unit
  | connect .. => Session
  | reconnect .. => Session

def service : (act : Act) → Service act.Answer
  | add mint key entry => AuthSystem.add mint key entry
  | update key id changes => AuthSystem.update key id changes
  | delete key id => AuthSystem.delete key id
  | addAccount account => Service.store (.insertAuthAccount account)
  | connect defaults credentials clientHost options => Session.connect defaults credentials clientHost options
  | reconnect credentials clientHost id => Session.reconnect credentials clientHost id

def isLogin : Act → Bool
  | connect .. | reconnect .. => true
  | _ => false

/-- The system that an act has added, by its answer. -/
def added? : (act : Act) → act.Answer → Option AuthSystem
  | add .., system => some system
  | _, _ => none

/-- The system that an act has deleted. -/
def deleted? : (act : Act) → act.Answer → Option String
  | delete _ id, _ => some id
  | _, _ => none

/-- Whatever an act comes to, it edits the systems as may be done. -/
theorem ensures_service (act : Act) (shared : Shared) :
    Ensures Shared.Serves
      (fun answer last => AuthSystem.Edits shared.tables.authSystems last.tables.authSystems ∧
        (∀ system, act.added? answer = some system → shared.tables.directory.Adds system last.tables.directory) ∧
        ∀ id, act.deleted? answer = some id → shared.tables.directory.Deletes id last.tables.directory)
      (fun _ last => AuthSystem.Edits shared.tables.authSystems last.tables.authSystems) act.service shared := by
  have logsIn {α : Type} {service : Service α} (asks : Asks Request.isOfLogin service) :
      Ensures Shared.Serves (fun _ last => last.tables.directory = shared.tables.directory)
        (fun _ last => last.tables.directory = shared.tables.directory) service shared :=
    preserves_of_asks asks (fun _ => Request.isOfDirectory_of_isOfLogin) _ shared rfl
  cases act with
  | add mint key entry =>
    apply (AuthSystem.ensures_add mint key entry).mono
    · intro system last adds
      refine ⟨AuthSystem.edits_of_adds adds, ?_, nofun⟩
      rintro _ ⟨⟩
      exact adds
    · exact fun _ _ fails => fails.edits
  | update key id changes =>
    exact (AuthSystem.ensures_update key id changes).mono (fun _ _ edits => ⟨edits, nofun, nofun⟩)
      fun _ _ fails => fails.edits
  | delete key id =>
    apply (AuthSystem.ensures_delete key id).mono
    · intro _ last deletes
      refine ⟨AuthSystem.edits_of_deletes deletes, nofun, ?_⟩
      rintro _ ⟨⟩
      exact deletes
    · exact fun _ _ fails => fails.edits
  | addAccount account =>
    have edits (reply : Except Store.Fault Unit) (next : Shared)
        (served : shared.Serves (.store (.insertAuthAccount account)) reply next) :
        AuthSystem.Edits shared.tables.authSystems next.tables.authSystems := by
      rcases Shared.serves_store served with ⟨_, rfl⟩ | ⟨_, rfl⟩
      · exact .none
      · exact .none
    apply (Service.ensures_store (.insertAuthAccount account)).mpr
    exact ⟨fun _ next served => ⟨edits _ next served, nofun, nofun⟩, fun _ next served => edits _ next served⟩
  | connect defaults credentials clientHost options =>
    exact (logsIn (Session.asks_connect defaults credentials clientHost options)).mono
      (fun _ _ same => ⟨AuthSystem.edits_of_same same, nofun, nofun⟩) fun _ _ same => AuthSystem.edits_of_same same
  | reconnect credentials clientHost id =>
    exact (logsIn (Session.asks_reconnect credentials clientHost id)).mono
      (fun _ _ same => ⟨AuthSystem.edits_of_same same, nofun, nofun⟩) fun _ _ same => AuthSystem.edits_of_same same

theorem preserves_login (act : Act) (isLogin : act.isLogin = true) (directory : Directory) :
    Preserves Shared.Serves.recorded directory.IsAsking act.service := by
  cases act with
  | connect defaults credentials clientHost options => exact preserves_connect defaults credentials clientHost options
  | reconnect credentials clientHost id => exact preserves_reconnect credentials clientHost id
  | add | update | delete | addAccount => cases isLogin

end Act

/-- One act of a sequence: what came of it, and all that happened. -/
structure Turn where
  act : Act
  before : Shared
  result : Except Failure act.Answer
  after : Recorded Shared

namespace Turn

/-- The system that has been added, if the act succeeded. -/
def added? (turn : Turn) : Option AuthSystem := turn.result.toOption.bind turn.act.added?

/-- The system that has been deleted, if the act succeeded. -/
def deleted? (turn : Turn) : Option String := turn.result.toOption.bind turn.act.deleted?

/-- What is to be so of each act: the systems are in order before it and after it, what is added is new, what is deleted
is deleted with the accounts on it and with no others, and a login asks only systems that are there and active. -/
structure IsOrderly (turn : Turn) : Prop where
  before : AuthSystem.AreInOrder turn.before.tables.authSystems
  after : AuthSystem.AreInOrder turn.after.state.tables.authSystems
  lasts : AuthSystem.Lasts turn.before.tables.authSystems turn.after.state.tables.authSystems
  adds : ∀ system, turn.added? = some system →
    turn.before.tables.directory.Adds system turn.after.state.tables.directory
  deletes : ∀ id, turn.deleted? = some id →
    turn.before.tables.directory.Deletes id turn.after.state.tables.directory
  asks : turn.act.isLogin = true → turn.before.tables.directory.IsAsking turn.after

/-- What is to be so of two acts: the later one adds no system under an identifier that was given before, it leaves the
deleted systems as they were, and if it is a login it does not ask a system that the earlier one has deleted. -/
structure Precedes (earlier later : Turn) : Prop where
  unused : ∀ system, later.added? = some system →
    ∀ row ∈ earlier.after.state.tables.authSystems, row.id ≠ system.id
  final : ∀ row ∈ earlier.after.state.tables.authSystems, row.isLive = false →
    row ∈ later.after.state.tables.authSystems
  unasked : ∀ id, earlier.deleted? = some id → later.act.isLogin = true → ∀ moment ∈ later.after.trace,
    ∀ system login password, moment.request = .verify system login password → system.id ≠ id

/-- The step: from systems in order, whatever is done. -/
theorem isOrderly {turn : Turn} (order : AuthSystem.AreInOrder turn.before.tables.authSystems)
    (taken : Finishes Shared.Serves.recorded turn.act.service { state := turn.before } turn.result turn.after) :
    turn.IsOrderly := by
  have ensured := turn.act.ensures_service turn.before turn.result turn.after.state taken.forget
  have edits : AuthSystem.Edits turn.before.tables.authSystems turn.after.state.tables.authSystems := by
    cases came : turn.result with
    | ok answer =>
      rw [came] at ensured
      exact ensured.1
    | error cause =>
      rw [came] at ensured
      exact ensured
  constructor
  case before => exact order
  case after => exact edits.areInOrder order
  case lasts => exact edits.lasts order
  case adds =>
    intro system added
    obtain ⟨answer, came, isAdded⟩ := Option.bind_eq_some_iff.mp added
    rw [eq_ok_of_toOption came] at ensured
    exact ensured.2.1 system isAdded
  case deletes =>
    intro id deleted
    obtain ⟨answer, came, isDeleted⟩ := Option.bind_eq_some_iff.mp deleted
    rw [eq_ok_of_toOption came] at ensured
    exact ensured.2.2 id isDeleted
  case asks =>
    intro isLogin
    have asking := turn.act.preserves_login isLogin _ _ (isAsking_start turn.before) turn.result turn.after taken
    cases came : turn.result with
    | ok answer =>
      rw [came] at asking
      exact asking
    | error cause =>
      rw [came] at asking
      exact asking

/-- What an orderly act leaves is what the acts after it find. -/
theorem IsOrderly.precedes {earlier later : Turn} (first : earlier.IsOrderly) (second : later.IsOrderly)
    (since : AuthSystem.Lasts earlier.after.state.tables.authSystems later.before.tables.authSystems) :
    earlier.Precedes later := by
  constructor
  case unused =>
    intro system added row stored same
    have taken : system.id ∈ later.before.tables.authSystems.map AuthSystem.id :=
      since.ids (List.mem_map.mpr ⟨row, stored, same⟩)
    obtain ⟨other, present, sameId⟩ := List.mem_map.mp taken
    exact (second.adds system added).fits.isNew other present sameId
  case final => exact (since.trans second.lasts).deleted
  case unasked =>
    intro id deleted isLogin moment member system login password same
    obtain ⟨old, stored, rfl, _, left⟩ := (first.deletes id deleted).systems
    -- The row of the deleted system is still there, and no other has its identifier.
    let row : AuthSystem := { old with standing := .deleted }
    have marked : row ∈ earlier.after.state.tables.authSystems := by
      rw [← Store.Tables.systems_directory, left]
      exact AuthSystem.mem_replaced_self stored rfl
    have kept : row ∈ later.before.tables.authSystems := since.deleted row marked rfl
    obtain ⟨asked, active⟩ := (second.asks isLogin).asks moment member system login password same
    intro sameId
    obtain rfl : system = row := List.inj_on_of_nodup_map second.before.distinct asked kept sameId
    cases active

end Turn

/-- Acts one after the other, each from where the one before it ended. -/
inductive Takes (setting : Setting Shared) : Shared → List Turn → Shared → Prop
  | nil (shared : Shared) : Takes setting shared [] shared
  | cons {turn : Turn} {rest : List Turn} {last : Shared}
      (taken : Finishes setting.recorded turn.act.service { state := turn.before } turn.result turn.after)
      (later : Takes setting turn.after.state rest last) : Takes setting turn.before (turn :: rest) last

/-- The run: from systems in order, whatever is done one after the other. -/
theorem Takes.isOrderly {start last : Shared} {turns : List Turn} (taken : Takes Shared.Serves start turns last)
    (order : AuthSystem.AreInOrder start.tables.authSystems) :
    (∀ turn ∈ turns, turn.IsOrderly ∧ AuthSystem.Lasts start.tables.authSystems turn.before.tables.authSystems) ∧
      turns.Pairwise Turn.Precedes := by
  induction taken with
  | nil shared => exact ⟨fun _ member => absurd member List.not_mem_nil, .nil⟩
  | @cons turn rest last taken later ih =>
    have orderly : turn.IsOrderly := Turn.isOrderly order taken
    obtain ⟨others, pairs⟩ := ih orderly.after
    constructor
    · intro other member
      rcases List.mem_cons.mp member with rfl | present
      · exact ⟨orderly, .refl _⟩
      · exact ⟨(others other present).1, orderly.lasts.trans (others other present).2⟩
    · apply List.pairwise_cons.mpr
      exact ⟨fun other present => orderly.precedes (others other present).1 (others other present).2, pairs⟩

/-- Whatever is done from a store without systems, by whoever has a key, with a store that may fail at any call: the
systems are in order throughout, a system that is deleted goes with the accounts on it and no others, no identifier is
given twice, no deleted system is changed, and no login asks for one. -/
theorem systems_live_in_order {start last : Shared} {turns : List Turn} (empty : start.tables.authSystems = [])
    (taken : Takes Shared.Serves start turns last) :
    (∀ turn ∈ turns, turn.IsOrderly) ∧ turns.Pairwise Turn.Precedes := by
  have order : AuthSystem.AreInOrder start.tables.authSystems := by
    rw [empty]
    exact AuthSystem.areInOrder_nil
  obtain ⟨orderly, pairs⟩ := taken.isOrderly order
  exact ⟨fun turn member => (orderly turn member).1, pairs⟩

/-- Acts one after the other on a server whose store does not fail, with an outside that always says the same. -/
def play (outside : (request : Request) → request.Reply) : List Act → Shared → Option (List Turn × Shared)
  | [], shared => some ([], shared)
  | act :: rest, shared => do
    let (result, after) ← act.service.run.follow (Pool.Responder.recorded (Shared.respond outside)) { state := shared }
    let (turns, last) ← play outside rest after.state
    return ({ act, before := shared, result, after } :: turns, last)

theorem takes_play {outside : (request : Request) → request.Reply} {acts : List Act} {start last : Shared}
    {turns : List Turn} (played : play outside acts start = some (turns, last)) :
    Takes Shared.Serves start turns last := by
  induction acts generalizing start turns last with
  | nil =>
    cases played
    exact .nil start
  | cons act rest ih =>
    obtain ⟨⟨result, after⟩, ran, later⟩ := Option.bind_eq_some_iff.mp played
    obtain ⟨⟨others, final⟩, playedRest, same⟩ := Option.bind_eq_some_iff.mp later
    cases same
    let turn : Turn := { act, before := start, result, after }
    have finished : Finishes Shared.Serves.recorded turn.act.service { state := turn.before } turn.result turn.after :=
      ends_follow (Pool.Responder.answers_recorded Shared.serves_respond) ran
    exact .cons finished (ih playedRest)

/-- An admin with a session, and a user. -/
def sampleOffice : Shared :=
  { tables := {
      users := [{ id := "root", passwordHash := "", privilege := .admin }, { id := "alice", passwordHash := "" }]
      sessions := [{ (default : Session) with key := "key", id := "s", user := "root" }] } }

/-- A system is added, renamed and deleted, and another one is added under the name; a user with an account on the
first one tries to log in before the end of it and after. -/
def samplePlay : Option (List Turn × Shared) :=
  let entry (id : Option String) (name : String) : AuthSystem.Entry :=
    { id, name, uri := "ldap://host", login := "cn=admin", password := "secret", base := "uid=$USERNAME,dc=org" }
  let login : Act := .connect {} ⟨"alice", "guess"⟩ "host" {}
  play (Shared.outsideOf default "")
    [.add {} "key" (entry none "corp"), .addAccount ⟨"alice", "AUTH_1", "al", .active⟩, login,
      .update "key" "AUTH_1" { name := some "acme" }, .delete "key" "AUTH_1",
      .add {} "key" (entry (some "AUTH_1") "acme"), .add {} "key" (entry none "acme"), login] sampleOffice

theorem sampleOffice_lives_in_order : ∃ turns last, samplePlay = some (turns, last) ∧
    turns.map (fun turn => (turn.result.toOption.isSome, timesAsked Request.isVerification turn.after.trace)) =
      [(true, 0), (true, 0), (false, 1), (true, 0), (true, 0), (false, 0), (true, 0), (false, 0)] ∧
    (last.tables.authSystems.map fun system => (system.id, system.name, system.standing)) =
      [("AUTH_1", "acme", .deleted), ("AUTH_2", "acme", .active)] ∧
    (∀ turn ∈ turns, turn.IsOrderly) ∧ turns.Pairwise Turn.Precedes := by
  have facts : samplePlay.map (fun (turns, last) =>
      (turns.map (fun turn => (turn.result.toOption.isSome, timesAsked Request.isVerification turn.after.trace)),
        last.tables.authSystems.map fun system => (system.id, system.name, system.standing))) =
      some ([(true, 0), (true, 0), (false, 1), (true, 0), (true, 0), (false, 0), (true, 0), (false, 0)],
        [("AUTH_1", "acme", .deleted), ("AUTH_2", "acme", .active)]) := by decide +kernel
  obtain ⟨⟨turns, last⟩, played, shown⟩ := Option.map_eq_some_iff.mp facts
  obtain ⟨outcomes, systems⟩ := Prod.mk.inj shown
  exact ⟨turns, last, played, outcomes, systems, systems_live_in_order rfl (takes_play played)⟩

end Directory

end Dispatch
