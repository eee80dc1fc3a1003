import Dispatch.Proofs.Directory.Registry
import Dispatch.Proofs.Identifier.Minting
import Dispatch.Proofs.Session.Ending
/-!
Changes to authentication systems, as a whole. Whoever is refused by the gate, or for not being an admin, changes
nothing. A change by an admin is made as it was asked for, or it leaves systems and accounts as they were, however many
of its fields had been checked by then; and either way the history tells once what has come of it.
-/
namespace Dispatch

open Plan

/-- Who passes the gate with a key as an admin, for that purpose. -/
def Store.Tables.admittedAdmin (tables : Tables) (key purpose : String) : Except Failure Caller :=
  match tables.admitted key with
  | .error cause => .error cause
  | .ok caller => (caller.requireAdmin purpose).map fun _ => caller

theorem Store.Tables.admitted_of_admin {tables : Tables} {key purpose : String} {caller : Caller}
    (admitted : tables.admittedAdmin key purpose = .ok caller) :
    tables.admitted key = .ok caller ∧ caller.requireAdmin purpose = .ok () := by
  unfold admittedAdmin at admitted
  split at admitted
  next => cases admitted
  next passed gate =>
    cases allowed : passed.requireAdmin purpose with
    | error cause =>
      rw [allowed] at admitted
      cases admitted
    | ok _ =>
      rw [allowed] at admitted
      cases admitted
      exact ⟨gate, allowed⟩

/-- Whoever is admitted has an active session, with that key. -/
theorem Session.session?_of_admitted {tables : Store.Tables} {key : String} {caller : Caller}
    (admitted : tables.admitted key = .ok caller) :
    tables.session? caller.session.key = some caller.session ∧ caller.session.isActive = true := by
  unfold Store.Tables.admitted at admitted
  split at admitted
  next => cases admitted
  next session found =>
    split at admitted
    next => cases admitted
    next active =>
      split at admitted
      next => cases admitted
      next user _ =>
        cases valid : user.validate with
        | error cause =>
          rw [valid] at admitted
          cases admitted
        | ok _ =>
          rw [valid] at admitted
          cases admitted
          rw [(Store.Tables.session?_some found).2]
          exact ⟨found, by simpa using active⟩

namespace AuthSystem

/-- A change that an admin makes. -/
inductive Change
  | add (mint : Identifier.Mint) (entry : Entry)
  | update (id : String) (changes : Changes)
  | delete (id : String)

namespace Change

@[reducible] def Answer : Change → Type
  | add .. => AuthSystem
  | update .. => AuthSystem
  | delete _ => Unit

def service (key : String) : (change : Change) → Service change.Answer
  | add mint entry => AuthSystem.add mint key entry
  | update id changes => AuthSystem.update key id changes
  | delete id => AuthSystem.delete key id

/-- What an admin is required for. -/
def purpose : Change → String
  | add .. => "Adding an authentication system"
  | update .. => "Updating an authentication system"
  | delete _ => "Deleting an authentication system"

/-- What the history says. -/
def description : Change → String
  | add .. => "auth_system_create"
  | update .. => "auth_system_update"
  | delete _ => "auth_system_delete"

/-- The system that has been changed, by the answer. -/
def object : (change : Change) → change.Answer → String
  | add .., system => system.id
  | update id _, _ => id
  | delete id, _ => id

def work : (change : Change) → Service change.Answer
  | add mint entry => insert mint entry
  | update id changes => apply id changes
  | delete id => remove id

theorem service_eq (change : Change) (key : String) :
    change.service key = asAdmin key change.purpose change.description change.object change.work := by
  cases change with
  | add | update | delete => rfl

/-- What a change does to systems and accounts once it is made, by its answer: an entry is added, of one system the
fields that are given are changed, or one system is deleted with the accounts on it. -/
def Makes : (change : Change) → change.Answer → Directory → Directory → Prop
  | add _ entry, system, before, after =>
    (∃ id, system = entry.system id ∧ ∀ given, entry.id = some given → id = given) ∧ before.Adds system after
  | update id changes, system, before, after =>
    ∃ old ∈ before.systems, old.id = id ∧ old.isLive = true ∧ system = changes.applied old ∧
      after = ⟨replaced before.systems system, before.accounts⟩
  | delete id, _, before, after => before.Deletes id after

/-- What is left of systems and accounts by a change that has come to this result. -/
def Leaves (change : Change) : Except Failure change.Answer → Directory → Directory → Prop
  | .ok answer, before, after => change.Makes answer before after
  | .error _, before, after => after = before

/-- What a change may use up whatever it comes to: one counter value, if there is an identifier to be minted. -/
def Draws : Change → Store.Tables → Store.Tables → Prop
  | add _ entry, before, after => after = before ∨ entry.id = none ∧ ∃ id, after = before.issued .authSystem id
  | _, before, after => after = before

/-- What an admin with that session finds after a change, noted at that time, has come to this result: the systems and
accounts, the one entry of the history, and all the rest as it was, but for a counter and the activity of the
session. -/
structure Settles (change : Change) (session : Session) (now : Instant) (before : Shared)
    (result : Except Failure change.Answer) (after : Shared) : Prop where
  directory : change.Leaves result before.tables.directory after.tables.directory
  history : History.Closes session.key change.description .users (.ofResult result)
    (result.toOption.map change.object) now before.tables.entries after.tables.entries
  rest : ∃ drawn, change.Draws before.tables drawn ∧
    let noted : Store.Tables := {
      drawn.replaceSession { session with lastActivityAt := now } with
      entries := after.tables.entries, lastEntry := after.tables.lastEntry }
    after = { before with tables := noted }.withDirectory after.tables.directory

/-- The same with that used up, and other systems and accounts: what the work of a change leaves. -/
def HasWorked (change : Change) (before : Shared) (result : Except Failure change.Answer) (after : Shared) : Prop :=
  ∃ drawn directory, change.Draws before.tables drawn ∧ change.Leaves result before.tables.directory directory ∧
    after = { before with tables := drawn }.withDirectory directory

variable {shared : Shared} {change : Change}

/-- Counters, and rows for their values, are all that is used up. -/
theorem Draws.eq {before after : Store.Tables} (draws : change.Draws before after) :
    ∃ counters placeholders lastTransaction, after = { before with counters, placeholders, lastTransaction } := by
  cases change with
  | add mint entry =>
    obtain rfl | ⟨-, id, rfl⟩ := draws
    · exact ⟨_, _, _, rfl⟩
    · exact ⟨_, _, _, rfl⟩
  | update | delete =>
    obtain rfl := draws
    exact ⟨_, _, _, rfl⟩

/-- The work of a change, made or not, has to do with nothing else. -/
theorem ensures_work (sound : shared.tables.HasSoundCounters) (change : Change) :
    Ensures Shared.Answers (fun answer => change.HasWorked shared (.ok answer))
      (fun cause => change.HasWorked shared (.error cause)) change.work shared := by
  cases change with
  | add mint entry =>
    let draws (last : Shared) : Prop := ∃ drawn, (add mint entry).Draws shared.tables drawn ∧
      last = { shared with tables := drawn }
    have mints (absent : entry.id = none) : Ensures Shared.Answers (fun _ last => draws last)
        (fun _ last => draws last) (mint.next .authSystem (some entry.name) none) shared :=
      (mint.ensures_next sound .authSystem (some entry.name) none).mono
        (fun _ _ known => ⟨_, .inr ⟨absent, _, rfl⟩, known.2⟩) fun _ _ known => ⟨_, .inr ⟨absent, _, rfl⟩, known.2⟩
    have stays (middle : Shared) (drawn : draws middle) : middle.tables.directory = shared.tables.directory := by
      obtain ⟨_, fits, rfl⟩ := drawn
      obtain ⟨_, _, _, rfl⟩ := fits.eq
      rfl
    apply (ensures_insert_beside .inl draws mint entry ⟨_, .inl rfl, rfl⟩ stays mints).mono
    · rintro system last ⟨described, middle, after, ⟨drawn, fits, rfl⟩, adds, rfl⟩
      exact ⟨drawn, after, fits, ⟨described, adds⟩, rfl⟩
    · rintro cause last ⟨drawn, fits, rfl⟩
      have same : drawn.directory = shared.tables.directory := stays _ ⟨drawn, fits, rfl⟩
      exact ⟨drawn, drawn.directory, fits, same, rfl⟩
  | update id changes =>
    apply ((ensures_apply shared id changes).through (fun state => state) .inl).mono
    · rintro system last ⟨⟨old, fits, isWanted, made⟩, rfl⟩
      exact ⟨_, _, rfl, ⟨old, fits.stored, isWanted, fits.live, made, rfl⟩, rfl⟩
    · rintro cause last rfl
      exact ⟨_, _, rfl, rfl, rfl⟩
  | delete id =>
    have removes : Ensures Shared.Answers _ _ (remove id) shared :=
      ensures_remove False id .inl fun answered => nomatch answered.1
    apply removes.mono
    · rintro _ last ⟨after, deletes, rfl⟩
      exact ⟨_, after, rfl, deletes, rfl⟩
    · rintro cause last (rfl | ⟨never, -⟩)
      · exact ⟨_, _, rfl, rfl, rfl⟩
      · exact never.elim

/-- Once it has been noted what the work has come to, all is settled. -/
theorem HasWorked.ensures_record {result : Except Failure change.Answer} {middle : Shared} {session : Session}
    (worked : change.HasWorked shared result middle) (sound : shared.tables.HasSoundEntries)
    (found : shared.tables.session? session.key = some session) (active : session.isActive = true) :
    Ensures Shared.Answers (fun _ last => ∃ now, change.Settles session now shared result last) (fun _ _ => False)
      (Session.record session.key change.description .users (.ofResult result) (result.toOption.map change.object))
      middle := by
  obtain ⟨drawn, directory, draws, leaves, rfl⟩ := worked
  obtain ⟨counters, placeholders, lastTransaction, rfl⟩ := draws.eq
  let worked := { shared with tables := { shared.tables with counters, placeholders, lastTransaction } }.withDirectory
    directory
  have soundThen : worked.tables.HasSoundEntries := ⟨sound.ordered, sound.bounded⟩
  apply (Session.ensures_record_closes soundThen found active _ _ _ _).mono
  · rintro _ last ⟨now, entries, lastEntry, closes, rfl⟩
    exact ⟨now, leaves, closes, _, draws, rfl⟩
  · exact fun _ _ never => never

/-- A change by someone who is admitted as an admin. -/
theorem settles {key : String} {caller : Caller} {result : Except Failure change.Answer} {last : Shared}
    (entries : shared.tables.HasSoundEntries) (counters : shared.tables.HasSoundCounters)
    (admitted : shared.tables.admittedAdmin key change.purpose = .ok caller)
    (ended : Finishes Shared.Answers (change.service key) shared result last) :
    ∃ now, change.Settles caller.session now shared result last := by
  obtain ⟨passed, isAdmin⟩ := Store.Tables.admitted_of_admin admitted
  have gate : Does Shared.Answers (Session.authorize key) shared (.ok caller) shared :=
    passed ▸ Session.reads_authorize key
  have allowed : Does Shared.Answers (Service.ofExcept (caller.requireAdmin change.purpose)) shared (.ok ()) shared :=
    isAdmin ▸ Service.reads_ofExcept _
  rw [service_eq, asAdmin, gate.finishes_bind, allowed.finishes_bind] at ended
  obtain ⟨inner, middle, worked, later⟩ := (Service.finishes_attempt_bind _ _ _).mp ended
  have work : change.HasWorked shared inner middle := (ensures_work counters change).holds worked
  obtain ⟨found, active⟩ := Session.session?_of_admitted passed
  have notes := work.ensures_record entries found active
  rcases (finishes_bind _ _ _).mp later with ⟨_, noted, recorded, told⟩ | ⟨cause, failed, _⟩
  · obtain ⟨rfl, rfl⟩ := (Service.reads_ofExcept inner _ _).mp told
    exact notes _ _ recorded
  · exact (notes _ _ failed).elim

/-- Someone who is refused changes nothing. -/
theorem reads_refused {key : String} {cause : Failure}
    (refused : shared.tables.admittedAdmin key change.purpose = .error cause) :
    Reads Shared.Answers (change.service key) shared (.error cause) := by
  have gate : Reads Shared.Answers (Session.authorize key) shared _ := Session.reads_authorize key
  unfold Store.Tables.admittedAdmin at refused
  rw [service_eq, asAdmin]
  split at refused
  next stopped =>
    cases refused
    rw [stopped] at gate
    exact gate.bind_error _
  next caller passed =>
    rw [passed] at gate
    apply gate.bind
    cases allowed : caller.requireAdmin change.purpose with
    | error denied =>
      rw [allowed] at refused
      obtain rfl : denied = cause := Except.error.inj refused
      exact (Service.reads_ofExcept (.error denied)).bind_error _
    | ok _ =>
      rw [allowed] at refused
      cases refused

/-- Whoever asks, and whatever the store does: a change that fails for another reason than the store has changed
nothing. -/
theorem ensures_failsTo (change : Change) (key : String) :
    Ensures Shared.Serves (fun _ _ => True)
      (fun cause last => shared.tables.directory.FailsTo cause last.tables.directory) (change.service key) shared := by
  cases change with
  | add mint entry => exact (ensures_add mint key entry).mono (fun _ _ _ => trivial) fun _ _ fails => fails
  | update id changes => exact (ensures_update key id changes).mono (fun _ _ _ => trivial) fun _ _ fails => fails
  | delete id => exact (ensures_delete key id).mono (fun _ _ _ => trivial) fun _ _ fails => fails

section Ends

theorem concludes_registry {α : Type} {service : Service α} (asks : Asks Request.isOfRegistry service)
    (shared : Shared) : Concludes Shared.Answers service shared :=
  asks.concludes (fun _ _ member => Shared.answers_total fun same => by rw [same] at member; cases member) shared

theorem concludes_insert (sound : shared.tables.HasSoundCounters) (free : shared.isMinting = false)
    (mint : Identifier.Mint) (entry : Entry) : Concludes Shared.Answers (insert mint entry) shared := by
  unfold insert
  refine concludes_guard fun _ => (concludes_registry (Service.asks_ofExcept _) shared).bind fun _ middle valid => ?_
  obtain ⟨-, rfl⟩ := (Service.reads_ofExcept _ _ _).mp valid
  refine (concludes_registry (Service.asks_store rfl) _).bind fun rows looked listed => ?_
  obtain ⟨-, rfl⟩ := Service.ensures_answered .authSystems rfl _ _ listed
  refine concludes_guard fun _ => ?_
  cases entry.id with
  | none =>
    exact (mint.concludes_next sound free .authSystem (some entry.name) none).bind fun id minted _ =>
      concludes_registry (asks_stores _) minted
  | some id =>
    exact (concludes_registry (Service.asks_store rfl) _).bind fun found checked _ =>
      concludes_guard fun _ => concludes_registry (asks_stores _) checked

theorem concludes_work (sound : shared.tables.HasSoundCounters) (free : shared.isMinting = false) (change : Change) :
    Concludes Shared.Answers change.work shared := by
  cases change with
  | add mint entry => exact concludes_insert sound free mint entry
  | update id changes => exact concludes_registry (asks_apply id changes) shared
  | delete id => exact concludes_registry (asks_remove id) shared

theorem concludes_service (sound : shared.tables.HasSoundCounters) (free : shared.isMinting = false) (change : Change)
    (key : String) : Concludes Shared.Answers (change.service key) shared := by
  have total (state : Shared) (request : Request) (member : request.isOfSession = true) :
      ∃ reply next, state.Answers request reply next :=
    Shared.answers_total fun same => by rw [same] at member; cases member
  rw [service_eq, asAdmin]
  refine ((Session.asks_authorize key).concludes total shared).bind fun caller passed gate => ?_
  obtain ⟨-, rfl⟩ := (Session.reads_authorize key _ _).mp gate
  refine (concludes_registry (Service.asks_ofExcept _) _).bind fun _ allowed admin => ?_
  obtain ⟨-, rfl⟩ := (Service.reads_ofExcept _ _ _).mp admin
  refine (concludes_work sound free change).attempt.bind fun result worked _ => ?_
  exact Asks.concludes ((Session.asks_record _ _ _ _ _).bind fun _ => Service.asks_ofExcept result) total worked

end Ends

end Change

/-- For tables as they are kept, whoever asks for a change and whatever it is: someone who is refused by the gate, or
is no admin, changes nothing; with an admin it is all or nothing, as the one entry tells that is completed or added; and
it comes to an end if nobody is in the mint. Even if the store may fail at any call, a change that fails for another
reason leaves systems and accounts as they were. -/
theorem changes_are_settled (shared : Shared) (entries : shared.tables.HasSoundEntries)
    (counters : shared.tables.HasSoundCounters) (key : String) (change : Change) :
    (∀ cause, shared.tables.admittedAdmin key change.purpose = .error cause →
      Reads Shared.Answers (change.service key) shared (.error cause)) ∧
    (∀ caller, shared.tables.admittedAdmin key change.purpose = .ok caller → ∀ result last,
      Finishes Shared.Answers (change.service key) shared result last →
      ∃ now, change.Settles caller.session now shared result last) ∧
    (shared.isMinting = false → Concludes Shared.Answers (change.service key) shared) ∧
    ∀ cause last, Finishes Shared.Serves (change.service key) shared (.error cause) last →
      last.tables.directory = shared.tables.directory ∨ ∃ fault, cause = Failure.ofStore fault :=
  ⟨fun _ => Change.reads_refused, fun _ admitted _ _ => Change.settles entries counters admitted,
    fun free => Change.concludes_service counters free change key,
    fun _ _ ended => (change.ensures_failsTo key _ _ ended).stays⟩

/-- An admin and a user, with a session each, and a system. -/
def sampleRegistry : Shared :=
  { tables := {
      users := [{ id := "root", passwordHash := "", privilege := .admin }, { id := "alice", passwordHash := "" }]
      sessions := [{ (default : Session) with key := "key", id := "s", user := "root" },
        { (default : Session) with key := "visitor", id := "t", user := "alice" }]
      authSystems := [{
        id := "AUTH_1", name := "corp", uri := "ldap://host", login := "cn=admin", password := "secret", kind := .ldap,
        base := "uid=$USERNAME,dc=org", encryption := .ssha, standing := .active }] } }

/-- The system is to be locked and renamed, with a base that says nowhere where a login goes. -/
def lateRefusal : Change := .update "AUTH_1" { name := some "acme", base := some "dc=org", standing := some .locked }

/-- The base is the last to be checked. -/
theorem lateRefusal_is_settled :
    Reads Shared.Answers (lateRefusal.service "visitor") sampleRegistry
      (.error (.permissionDenied "Updating an authentication system requires admin privilege")) ∧
    ∃ session cause last now,
      (lateRefusal.service "key").run.follow (Shared.respond (Shared.outsideOf default "")) sampleRegistry =
        some (.error cause, last) ∧
      last.tables.entries.map (fun entry => (entry.description, entry.status, entry.object)) =
        [("auth_system_update", .failed, none)] ∧
      lateRefusal.Settles session now sampleRegistry (.error cause) last := by
  have entries : sampleRegistry.tables.HasSoundEntries := ⟨.nil, nofun⟩
  have counters : sampleRegistry.tables.HasSoundCounters := Store.Tables.hasSoundCounters_of_empty rfl rfl
  have facts : ((lateRefusal.service "key").run.follow (Shared.respond (Shared.outsideOf default ""))
      sampleRegistry).map (fun (result, last) => (result.toOption.isSome,
        last.tables.entries.map fun entry => (entry.description, entry.status, entry.object))) =
      some (false, [("auth_system_update", .failed, none)]) := by decide +kernel
  obtain ⟨⟨result, last⟩, ran, shown⟩ := Option.map_eq_some_iff.mp facts
  obtain ⟨failed, noted⟩ := Prod.mk.inj shown
  obtain ⟨refused, -⟩ := changes_are_settled sampleRegistry entries counters "visitor" lateRefusal
  refine ⟨refused _ (by decide +kernel), ?_⟩
  cases result with
  | ok system => cases failed
  | error cause =>
    have passes : (sampleRegistry.tables.admittedAdmin "key" lateRefusal.purpose).toOption.isSome = true := by
      decide +kernel
    obtain ⟨caller, passed⟩ := Option.isSome_iff_exists.mp passes
    obtain ⟨-, settled, -⟩ := changes_are_settled sampleRegistry entries counters "key" lateRefusal
    obtain ⟨now, settles⟩ := settled caller (eq_ok_of_toOption passed) _ last (ends_follow Shared.answers_respond ran)
    exact ⟨caller.session, cause, last, now, ran, noted, settles⟩

end AuthSystem

end Dispatch
