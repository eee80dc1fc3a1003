import Dispatch.Proofs.Directory.Table
import Dispatch.Proofs.Plan.Record
import Dispatch.Proofs.Server.Footprint
/-!
The registry of authentication systems, with a store that may fail at any call. Whatever an operation comes to, it
edits the table of systems as may be done; and whoever logs in asks only systems that are active.
-/
namespace Dispatch

open Plan

/-- The same with other systems and accounts. -/
def Shared.withDirectory (shared : Shared) (directory : Directory) : Shared :=
  { shared with tables := {
      shared.tables with authSystems := directory.systems, authAccounts := directory.accounts } }

@[simp]
theorem Shared.directory_withDirectory (shared : Shared) (directory : Directory) :
    (shared.withDirectory directory).tables.directory = directory := rfl

section Calls

variable {shared : Shared}

/-- What writes no systems keeps them, and the accounts on them. -/
theorem Directory.preserves_of_asks {α : Type} {allowed : Request → Bool} {service : Service α}
    (asks : Asks allowed service) (other : ∀ request, allowed request = true → request.isOfDirectory = false)
    (directory : Directory) : Preserves Shared.Serves (fun last => last.tables.directory = directory) service :=
  Yields.preserves asks fun member served same => (served.directory_eq (other _ member)).trans same

/-- What writes no systems, and then the rest. -/
theorem Directory.ensures_after {α β : Type} {allowed : Request → Bool} {service : Service α}
    (asks : Asks allowed service) (other : ∀ request, allowed request = true → request.isOfDirectory = false)
    {rest : α → Service β} {gives : β → Shared → Prop} {fails : Failure → Shared → Prop}
    (failed : ∀ cause last, last.tables.directory = shared.tables.directory → fails cause last)
    (later : ∀ value middle, middle.tables.directory = shared.tables.directory →
      Ensures Shared.Serves gives fails (rest value) middle) :
    Ensures Shared.Serves gives fails (service >>= rest) shared :=
  (ensures_bind _ _).mpr ((Directory.preserves_of_asks asks other _ shared rfl).mono later failed)

/-- A call that tells something of the tables and changes nothing, unless the store fails. -/
theorem Service.ensures_told (call : Store.Call) {value : call.Answer}
    (told : shared.tables.answer call = (.ok value, shared.tables)) :
    Ensures Shared.Serves (fun answer last => answer = value ∧ last = shared) (fun _ last => last = shared)
      (Service.store call) shared := by
  apply (Service.ensures_store call).mpr
  constructor
  · intro answer next served
    rcases Shared.serves_store served with ⟨same, rfl⟩ | ⟨⟨_, never⟩, _⟩
    · rw [told] at same ⊢
      exact ⟨Except.ok.inj same, rfl⟩
    · cases never
  · intro fault next served
    rcases Shared.serves_store served with ⟨same, _⟩ | ⟨_, unchanged⟩
    · rw [told] at same
      cases same
    · exact unchanged

/-- A system is stored under an identifier that no other has. -/
theorem AuthSystem.ensures_insertAuthSystem (system : AuthSystem) :
    Ensures Shared.Serves
      (fun _ last => (∀ row ∈ shared.tables.authSystems, row.id ≠ system.id) ∧ last = shared.withDirectory
        ⟨Store.Tables.insertInOrder id system shared.tables.authSystems, shared.tables.authAccounts⟩)
      (fun _ last => last = shared) (Service.store (.insertAuthSystem system)) shared := by
  have outcome {reply : Except Store.Fault Unit} {next : Shared}
      (served : shared.Serves (.store (.insertAuthSystem system)) reply next) :
      (reply = .ok () → (∀ row ∈ shared.tables.authSystems, row.id ≠ system.id) ∧ next = shared.withDirectory
        ⟨Store.Tables.insertInOrder id system shared.tables.authSystems, shared.tables.authAccounts⟩) ∧
      ∀ fault, reply = .error fault → next = shared := by
    rcases Shared.serves_store served with ⟨rfl, rfl⟩ | ⟨⟨_, rfl⟩, rfl⟩
    · simp only [Store.Tables.answer, Store.Tables.insertAuthSystem]
      split
      next => exact ⟨fun same => (by cases same), fun _ _ => rfl⟩
      next absent =>
        have fresh := Store.Tables.find?_key_none id (Option.not_isSome_iff_eq_none.mp absent)
        exact ⟨fun _ => ⟨fresh, rfl⟩, fun _ same => (by cases same)⟩
    · exact ⟨fun same => (by cases same), fun _ _ => rfl⟩
  apply (Service.ensures_store (.insertAuthSystem system)).mpr
  exact ⟨fun _ _ served => (outcome served).1 rfl, fun fault _ served => (outcome served).2 fault rfl⟩

/-- A system is put in its place, or there is none. -/
theorem AuthSystem.ensures_updateAuthSystem (system : AuthSystem) :
    Ensures Shared.Serves
      (fun _ last => last =
        shared.withDirectory ⟨replaced shared.tables.authSystems system, shared.tables.authAccounts⟩)
      (fun _ last => last = shared) (Service.store (.updateAuthSystem system)) shared := by
  have outcome {reply : Except Store.Fault Unit} {next : Shared}
      (served : shared.Serves (.store (.updateAuthSystem system)) reply next) :
      (reply = .ok () → next =
        shared.withDirectory ⟨replaced shared.tables.authSystems system, shared.tables.authAccounts⟩) ∧
      ∀ fault, reply = .error fault → next = shared := by
    rcases Shared.serves_store served with ⟨rfl, rfl⟩ | ⟨⟨_, rfl⟩, rfl⟩
    · simp only [Store.Tables.answer, Store.Tables.updateAuthSystem]
      split
      next => exact ⟨fun same => (by cases same), fun _ _ => rfl⟩
      next => exact ⟨fun _ => rfl, fun _ same => (by cases same)⟩
    · exact ⟨fun same => (by cases same), fun _ _ => rfl⟩
  apply (Service.ensures_store (.updateAuthSystem system)).mpr
  exact ⟨fun _ _ served => (outcome served).1 rfl, fun fault _ served => (outcome served).2 fault rfl⟩

/-- The end of a command fails to be noted only if the store fails. -/
theorem Session.ensures_record_faults {setting : Setting Shared} (key description : String)
    (category : History.Category) (status : History.Status) (object : Option String) :
    Ensures setting (fun _ _ => True) (fun cause _ => ∃ fault, cause = Failure.ofStore fault)
      (record key description category status object) shared := by
  unfold record
  rw [ensures_bind, Service.ensures_ask]
  intro now asked _
  rw [ensures_bind, Service.ensures_store]
  refine ⟨fun _ _ _ => ?_, fun fault _ _ => ⟨fault, rfl⟩⟩
  rw [ensures_bind, Service.ensures_store]
  refine ⟨fun entries _ _ => ?_, fun fault _ _ => ⟨fault, rfl⟩⟩
  split
  next => exact (Service.ensures_store (.updateEntry _)).mpr ⟨fun _ _ _ => trivial, fun fault _ _ => ⟨fault, rfl⟩⟩
  next =>
    rw [ensures_bind, Service.ensures_store]
    exact ⟨fun _ _ _ => (ensures_pure _).mpr trivial, fun fault _ _ => ⟨fault, rfl⟩⟩

end Calls

namespace Directory

/-- A system has been added, and nothing else changed. -/
structure Adds (before : Directory) (system : AuthSystem) (after : Directory) : Prop where
  fits : AuthSystem.IsAddition before.systems system
  systems : after.systems = Store.Tables.insertInOrder AuthSystem.id system before.systems
  accounts : after.accounts = before.accounts

/-- A live system has been deleted with the accounts on it, and nothing else changed. -/
structure Deletes (before : Directory) (id : String) (after : Directory) : Prop where
  systems : ∃ old ∈ before.systems, old.id = id ∧ old.isLive = true ∧
    after.systems = AuthSystem.replaced before.systems { old with standing := .deleted }
  accounts : after.accounts = before.accountsWithout id

/-- What is left by an operation that fails: the same as before, unless it is the store that has failed. -/
structure FailsTo (before : Directory) (cause : Failure) (after : Directory) : Prop where
  edits : AuthSystem.Edits before.systems after.systems
  stays : after = before ∨ ∃ fault, cause = Failure.ofStore fault

theorem FailsTo.refl (directory : Directory) (cause : Failure) : directory.FailsTo cause directory := ⟨.none, .inl rfl⟩

end Directory

namespace AuthSystem

variable {shared : Shared}

/-- The system that an entry describes. -/
def Entry.system (entry : Entry) (id : String) : AuthSystem := {
  id, name := entry.name, uri := entry.uri, login := entry.login, password := entry.password,
  kind := entry.kind, base := entry.base, encryption := entry.encryption, standing := .active }

/-- A system that may be added is stored, if its identifier is new. -/
theorem ensures_stores (shared : Shared) {entry : Entry} (id : String)
    (free : isNameTaken shared.tables.authSystems entry.name = false) (kind : entry.kind = .ldap)
    (base : HasPlaceholder entry.base) :
    Ensures Shared.Serves
      (fun system last => system = entry.system id ∧
        ∃ after, shared.tables.directory.Adds system after ∧ last = shared.withDirectory after)
      (fun _ last => last = shared)
      (Service.store (.insertAuthSystem (entry.system id)) >>= fun _ => pure (entry.system id)) shared := by
  rw [ensures_bind]
  apply (ensures_insertAuthSystem (entry.system id)).mono
  · rintro _ last ⟨isNew, stored⟩
    apply (ensures_pure _).mpr
    have fits : IsAddition shared.tables.authSystems (entry.system id) := ⟨isNew, free, kind, base⟩
    exact ⟨rfl, ⟨_, _⟩, ⟨fits, rfl, rfl⟩, stored⟩
  · intro _ _ unchanged
    exact unchanged

/-- What is of the mint, or of the gate and the history, is not of the directory. -/
theorem isOfDirectory_eq_false {request : Request} (other : request.isOfMint = true ∨ request.isOfSession = true) :
    request.isOfDirectory = false := by
  cases request with
  | store call =>
    cases call with
    | insertAuthSystem | updateAuthSystem | insertAuthAccount | setAuthAccounts =>
      simp [Request.isOfMint, Request.isOfSession] at other
    | _ => rfl
  | _ => rfl

section Footprints

open Request

theorem asks_stores (system : AuthSystem) :
    Asks isOfRegistry (Service.store (.insertAuthSystem system) >>= fun _ => pure system) :=
  (Service.asks_store rfl).bind fun _ => yields_pure trivial

theorem asks_loadLive (id : String) : Asks isOfRegistry (loadLive id) := by
  unfold loadLive
  refine (Service.asks_store rfl).bind fun found => ?_
  cases found with
  | none => exact yields_throw _
  | some system =>
    dsimp only
    split
    next => exact yields_pure trivial
    next => exact yields_throw _

theorem asks_apply (id : String) (changes : Changes) : Asks isOfRegistry (apply id changes) := by
  have names (system : AuthSystem) : Asks isOfRegistry (changeName system changes.name) := by
    unfold changeName
    split
    next => exact yields_pure trivial
    next => exact (Service.asks_store rfl).bind fun systems => yields_guard fun _ => yields_pure trivial
  exact (asks_loadLive id).bind fun system => (Service.asks_ofExcept _).bind fun system =>
    (names system).bind fun system => (Service.asks_ofExcept _).bind fun system =>
    (Service.asks_store rfl).bind fun _ => yields_pure trivial

theorem asks_remove (id : String) : Asks isOfRegistry (remove id) :=
  (asks_loadLive id).bind fun _ => (Service.asks_store rfl).bind fun _ => (Service.asks_store rfl).bind fun _ =>
    yields_pure trivial

end Footprints

section Settings

variable {setting : Setting Shared}
  (serves : ∀ {state next : Shared} {request : Request} {reply : request.Reply}, setting state request reply next →
    state.Serves request reply next)
include serves

/-- A system is added beside what the mint has changed by then, or only the mint has changed something. -/
theorem ensures_insert_beside (rule : Shared → Prop) (mint : Identifier.Mint) (entry : Entry) (begins : rule shared)
    (stays : ∀ middle, rule middle → middle.tables.directory = shared.tables.directory)
    (mints : entry.id = none → Ensures setting (fun _ last => rule last) (fun _ last => rule last)
      (mint.next .authSystem (some entry.name) none) shared) :
    Ensures setting
      (fun system last => (∃ id, system = entry.system id ∧ ∀ given, entry.id = some given → id = given) ∧
        ∃ middle after, rule middle ∧ shared.tables.directory.Adds system after ∧ last = middle.withDirectory after)
      (fun _ last => rule last) (insert mint entry) shared := by
  have told (call : Store.Call) {value : call.Answer} (same : shared.tables.answer call = (.ok value, shared.tables)) :
      Ensures setting (fun answer last => answer = value ∧ last = shared) (fun _ last => last = shared)
        (Service.store call) shared :=
    (Service.ensures_told call same).through (fun state => state) serves
  unfold insert
  apply ensures_guard.mpr
  refine ⟨fun _ => begins, fun isLdap => ?_⟩
  rw [ensures_bind, Service.ensures_ofExcept]
  refine ⟨fun _ valid => ?_, fun _ _ => begins⟩
  rw [ensures_bind]
  apply (told .authSystems rfl).mono
  · rintro rows last ⟨rfl, unchanged⟩
    obtain rfl : last = shared := unchanged
    apply ensures_guard.mpr
    refine ⟨fun _ => begins, fun isFree => ?_⟩
    -- However the identifier was come by, storing the system checks that it is new.
    have stores (id : String) (own : ∀ given, entry.id = some given → id = given) (middle : Shared)
        (ruled : rule middle) : Ensures setting
          (fun system final => (∃ id, system = entry.system id ∧ ∀ given, entry.id = some given → id = given) ∧
            ∃ middle after, rule middle ∧ last.tables.directory.Adds system after ∧
              final = middle.withDirectory after)
          (fun _ final => rule final)
          (Service.store (.insertAuthSystem (entry.system id)) >>= fun _ => pure (entry.system id)) middle := by
      have same : middle.tables.directory = last.tables.directory := stays middle ruled
      have free : isNameTaken middle.tables.authSystems entry.name = false := by
        rw [show middle.tables.authSystems = last.tables.authSystems from congrArg Directory.systems same]
        simpa using isFree
      have kind : entry.kind = .ldap := by simpa using isLdap
      have ensured := ensures_stores middle id free kind (hasPlaceholder_of_validateBase valid)
      apply (ensured.through (fun state => state) serves).mono
      · rintro system final ⟨made, after, adds, stored⟩
        rw [same] at adds
        exact ⟨⟨id, made, own⟩, middle, after, ruled, adds, stored⟩
      · rintro _ final rfl
        exact ruled
    cases given : entry.id with
    | none =>
      rw [given] at stores mints
      exact (ensures_bind _ _).mpr ((mints rfl).mono (fun id middle => stores id nofun middle) fun _ _ ruled => ruled)
    | some id =>
      dsimp only
      rw [given] at stores
      rw [ensures_bind]
      apply (told (.findAuthSystem id) rfl).mono
      · rintro found middle ⟨_, unchanged⟩
        obtain rfl : middle = last := unchanged
        apply ensures_guard.mpr
        exact ⟨fun _ => begins, fun _ => stores id (fun _ same => Option.some.inj same) middle begins⟩
      · rintro _ final rfl
        exact begins
  · rintro _ final rfl
    exact begins

end Settings

/-- A system is added, or nothing is changed. -/
theorem ensures_insert (shared : Shared) (mint : Identifier.Mint) (entry : Entry) :
    Ensures Shared.Serves (fun system last => shared.tables.directory.Adds system last.tables.directory)
      (fun _ last => last.tables.directory = shared.tables.directory) (insert mint entry) shared := by
  have mints := mint.asks_next .authSystem (some entry.name) none
  have inserts := ensures_insert_beside (fun served => served)
    (fun last => last.tables.directory = shared.tables.directory) mint entry rfl (fun _ same => same) fun _ =>
    Directory.preserves_of_asks mints (fun _ member => isOfDirectory_eq_false (.inl member)) _ shared rfl
  apply inserts.mono
  · rintro system last ⟨-, middle, after, -, adds, rfl⟩
    exact adds
  · exact fun _ _ same => same

/-- The system with that identifier, if it is live. -/
theorem ensures_loadLive (id : String) :
    Ensures Shared.Serves
      (fun system last => (system ∈ shared.tables.authSystems ∧ system.id = id ∧ system.isLive = true) ∧ last = shared)
      (fun _ last => last = shared) (loadLive id) shared := by
  unfold loadLive
  rw [ensures_bind]
  apply (Service.ensures_told (.findAuthSystem id) rfl).mono
  · rintro found last ⟨rfl, unchanged⟩
    obtain rfl : last = shared := unchanged
    cases found : last.tables.authSystem? id with
    | none => exact (ensures_throw _).mpr rfl
    | some system =>
      dsimp only
      obtain ⟨stored, same⟩ := Store.Tables.find?_key_some AuthSystem.id found
      split
      next live => exact (ensures_pure system).mpr ⟨⟨stored, same, live⟩, rfl⟩
      next => exact (ensures_throw _).mpr rfl
  · intro _ _ unchanged
    exact unchanged

/-- A change of the standing is no change of what is checked, and no deletion. -/
theorem changeStanding_ok {system changed : AuthSystem} {standing : Option Standing}
    (passed : changeStanding system standing = .ok changed) :
    changed = { system with standing := standing.getD system.standing } := by
  unfold changeStanding at passed
  split at passed
  next =>
    cases passed
    rfl
  next => cases passed
  next =>
    split at passed
    next => cases passed
    next =>
      cases passed
      rfl

theorem changeBase_ok {system changed : AuthSystem} {base : Option String}
    (passed : changeBase system base = .ok changed) :
    changed = { system with base := base.getD system.base } ∧ ∀ given, base = some given → HasPlaceholder given := by
  cases base with
  | none =>
    cases passed
    exact ⟨rfl, nofun⟩
  | some given =>
    cases valid : validateBase given with
    | error cause =>
      rw [changeBase, valid] at passed
      cases passed
    | ok _ =>
      rw [changeBase, valid] at passed
      cases passed
      refine ⟨rfl, ?_⟩
      rintro _ ⟨⟩
      exact hasPlaceholder_of_validateBase valid

/-- A name is given only if no other live system has it. -/
theorem ensures_changeName (system : AuthSystem) (name : Option String) :
    Ensures Shared.Serves
      (fun changed last => (changed = { system with name := name.getD system.name } ∧ ∀ given, name = some given →
        isNameTaken (shared.tables.authSystems.filter fun other => other.id ≠ system.id) given = false) ∧ last = shared)
      (fun _ last => last = shared) (changeName system name) shared := by
  unfold changeName
  cases name with
  | none => exact (ensures_pure _).mpr ⟨⟨rfl, nofun⟩, rfl⟩
  | some given =>
    dsimp only
    rw [ensures_bind]
    apply (Service.ensures_told .authSystems rfl).mono
    · rintro rows last ⟨rfl, unchanged⟩
      obtain rfl : last = shared := unchanged
      apply ensures_guard.mpr
      refine ⟨fun _ => rfl, fun isFree => (ensures_pure _).mpr ⟨⟨rfl, ?_⟩, rfl⟩⟩
      rintro _ ⟨⟩
      exact Bool.not_eq_true _ ▸ isFree
    · intro _ _ unchanged
      exact unchanged

/-- A system with the changes that are given. -/
def Changes.applied (changes : Changes) (system : AuthSystem) : AuthSystem :=
  { system with
    name := changes.name.getD system.name
    uri := changes.uri.getD system.uri
    login := changes.login.getD system.login
    password := changes.password.getD system.password
    base := changes.base.getD system.base
    standing := changes.standing.getD system.standing }

/-- A system is put in the place of a live one, or nothing is changed. -/
theorem ensures_apply (shared : Shared) (id : String) (changes : Changes) :
    Ensures Shared.Serves
      (fun system last => (∃ old, IsChange shared.tables.authSystems old system ∧ old.id = id ∧
          system = changes.applied old) ∧
        last = shared.withDirectory ⟨replaced shared.tables.authSystems system, shared.tables.authAccounts⟩)
      (fun _ last => last = shared) (apply id changes) shared := by
  unfold apply
  rw [ensures_bind]
  apply (ensures_loadLive id).mono
  · rintro old last ⟨⟨stored, isWanted, live⟩, same⟩
    obtain rfl : last = shared := same
    rw [ensures_bind, Service.ensures_ofExcept]
    refine ⟨fun standing stands => ?_, fun _ _ => rfl⟩
    obtain rfl := changeStanding_ok stands
    rw [ensures_bind]
    apply (ensures_changeName _ changes.name).mono
    · rintro named middle ⟨⟨rfl, isFree⟩, same⟩
      obtain rfl : middle = last := same
      rw [ensures_bind, Service.ensures_ofExcept]
      refine ⟨fun based bases => ?_, fun _ _ => rfl⟩
      obtain ⟨rfl, isValid⟩ := changeBase_ok bases
      rw [ensures_bind]
      apply (ensures_updateAuthSystem _).mono
      · intro _ final done
        apply (ensures_pure _).mpr
        refine ⟨⟨old, ?_, isWanted, rfl⟩, done⟩
        constructor
        case stored => exact stored
        case live => exact live
        case same => rfl
        case kind => rfl
        case free =>
          cases given : changes.name with
          | none => exact .inl rfl
          | some name => exact .inr (isFree name given)
        case base =>
          cases given : changes.base with
          | none => exact .inl rfl
          | some base => exact .inr (isValid base given)
      · intro _ _ same
        exact same
    · intro _ final same
      exact same
  · intro _ final same
    exact same

theorem isChange_deleted {systems : List AuthSystem} {old : AuthSystem} (stored : old ∈ systems)
    (live : old.isLive = true) : IsChange systems old { old with standing := .deleted } :=
  ⟨stored, live, rfl, .inl rfl, rfl, .inl rfl⟩

/-- A system is deleted with the accounts on it, or nothing is changed. Only if the store fails may the accounts be
left. -/
theorem ensures_remove {setting : Setting Shared} (mayFail : Prop) (id : String)
    (serves : ∀ {state next : Shared} {request : Request} {reply : request.Reply}, setting state request reply next →
      state.Serves request reply next)
    (halts : ∀ {state next : Shared} {fault : Store.Fault},
      setting state (.store (.setAuthAccounts id .deleted)) (.error fault) next → mayFail) :
    Ensures setting
      (fun _ last => ∃ after, shared.tables.directory.Deletes id after ∧ last = shared.withDirectory after)
      (fun cause last => last = shared ∨ mayFail ∧ shared.tables.directory.FailsTo cause last.tables.directory)
      (remove id) shared := by
  unfold remove
  rw [ensures_bind]
  apply ((ensures_loadLive id).through (fun state => state) serves).mono
  · rintro old last ⟨⟨stored, isWanted, live⟩, same⟩
    obtain rfl : last = shared := same
    rw [ensures_bind]
    apply ((ensures_updateAuthSystem _).through (fun state => state) serves).mono
    · rintro _ middle rfl
      rw [ensures_bind]
      apply (Service.ensures_store (.setAuthAccounts id .deleted)).mpr
      constructor
      · intro count final answered
        apply (ensures_pure ()).mpr
        rcases Shared.serves_store (serves answered) with ⟨_, rfl⟩ | ⟨⟨_, never⟩, _⟩
        · let systems := replaced last.tables.authSystems { old with standing := .deleted }
          let accounts := last.tables.directory.accountsWithout id
          exact ⟨⟨systems, accounts⟩, ⟨⟨old, stored, isWanted, live, rfl⟩, rfl⟩, rfl⟩
        · cases never
      · intro fault final answered
        rcases Shared.serves_store (serves answered) with ⟨never, _⟩ | ⟨_, rfl⟩
        · cases never
        · exact .inr ⟨halts answered, .changed (isChange_deleted stored live), .inr ⟨fault, rfl⟩⟩
    · intro _ final same
      exact .inl same
  · intro _ final same
    exact .inl same

/-- A change by an admin: the gate before it and the history after it leave systems and accounts alone. -/
theorem ensures_asAdmin {α : Type} (gives : α → Directory → Prop) (key purpose description : String)
    (object : α → String) {change : Service α}
    (done : ∀ value directory, gives value directory → Edits shared.tables.authSystems directory.systems)
    (ensured : ∀ middle, middle.tables.directory = shared.tables.directory →
      Ensures Shared.Serves (fun value last => gives value last.tables.directory)
        (fun cause last => shared.tables.directory.FailsTo cause last.tables.directory) change middle) :
    Ensures Shared.Serves (fun value last => gives value last.tables.directory)
      (fun cause last => shared.tables.directory.FailsTo cause last.tables.directory)
      (asAdmin key purpose description object change) shared := by
  have ofSession (request : Request) (member : request.isOfSession = true) : request.isOfDirectory = false :=
    isOfDirectory_eq_false (.inr member)
  have stays (cause : Failure) (last : Shared) (same : last.tables.directory = shared.tables.directory) :
      shared.tables.directory.FailsTo cause last.tables.directory := by
    rw [same]
    exact .refl _ cause
  have records (status : History.Status) (made : Option String) (key : String) (middle : Shared) :=
    (Directory.preserves_of_asks (Session.asks_record key description .users status made) ofSession
      middle.tables.directory middle rfl).and (Session.ensures_record_faults key description .users status made)
  unfold asAdmin
  apply Directory.ensures_after (Session.asks_authorize key) ofSession stays
  intro caller admitted same
  rw [ensures_bind, Service.ensures_ofExcept]
  refine ⟨fun _ _ => ?_, fun cause _ => stays cause admitted same⟩
  rw [ensures_bind, Service.ensures_attempt]
  apply (ensured admitted same).mono
  · intro value middle given
    rw [ensures_bind]
    apply (records _ _ _ middle).mono
    · rintro _ last ⟨still, -⟩
      apply (ensures_pure value).mpr
      rwa [still]
    · rintro cause last ⟨still, fault⟩
      rw [still]
      exact ⟨done value _ given, .inr fault⟩
  · intro cause middle ended
    rw [ensures_bind]
    apply (records _ _ _ middle).mono
    · rintro _ last ⟨still, -⟩
      apply (ensures_throw cause).mpr
      rwa [still]
    · rintro later last ⟨still, fault⟩
      rw [still]
      exact ⟨ended.edits, .inr fault⟩

theorem edits_of_same {directory : Directory} (same : directory = shared.tables.directory) :
    Edits shared.tables.authSystems directory.systems := by
  rw [same, Store.Tables.systems_directory]
  exact .none

theorem edits_of_adds {system : AuthSystem} {after : Directory} (adds : shared.tables.directory.Adds system after) :
    Edits shared.tables.authSystems after.systems := by
  rw [adds.systems]
  exact .added adds.fits

theorem edits_of_deletes {id : String} {after : Directory} (deletes : shared.tables.directory.Deletes id after) :
    Edits shared.tables.authSystems after.systems := by
  obtain ⟨old, stored, _, live, same⟩ := deletes.systems
  rw [same]
  exact .changed (isChange_deleted stored live)

theorem ensures_add (mint : Identifier.Mint) (key : String) (entry : Entry) :
    Ensures Shared.Serves (fun system last => shared.tables.directory.Adds system last.tables.directory)
      (fun cause last => shared.tables.directory.FailsTo cause last.tables.directory) (add mint key entry) shared := by
  apply ensures_asAdmin (fun system directory => shared.tables.directory.Adds system directory) key _ _ _
    fun _ _ => edits_of_adds
  intro middle same
  have inserts := ensures_insert middle mint entry
  rw [same] at inserts
  exact inserts.mono (fun _ _ adds => adds) fun cause _ unchanged => unchanged ▸ .refl _ cause

theorem ensures_update (key id : String) (changes : Changes) :
    Ensures Shared.Serves (fun _ last => Edits shared.tables.authSystems last.tables.directory.systems)
      (fun cause last => shared.tables.directory.FailsTo cause last.tables.directory) (update key id changes)
      shared := by
  apply ensures_asAdmin (fun _ directory => Edits shared.tables.authSystems directory.systems) key _ _ _
    fun _ _ edits => edits
  intro middle same
  have systems : middle.tables.authSystems = shared.tables.authSystems := congrArg Directory.systems same
  have applies := ensures_apply middle id changes
  rw [systems] at applies
  apply applies.mono
  · rintro system last ⟨⟨old, fits, _⟩, rfl⟩
    exact .changed fits
  · rintro cause last rfl
    exact same ▸ .refl _ cause

theorem ensures_delete (key id : String) :
    Ensures Shared.Serves (fun _ last => shared.tables.directory.Deletes id last.tables.directory)
      (fun cause last => shared.tables.directory.FailsTo cause last.tables.directory) (delete key id) shared := by
  apply ensures_asAdmin (fun _ directory => shared.tables.directory.Deletes id directory) key _ _ _
    fun _ _ => edits_of_deletes
  intro middle same
  have removes : Ensures Shared.Serves _ _ (remove id) middle :=
    ensures_remove True id (fun served => served) fun {_ _ _} _ => trivial
  rw [same] at removes
  apply removes.mono
  · rintro _ last ⟨after, deletes, rfl⟩
    exact deletes
  · rintro cause last (rfl | ⟨-, fails⟩)
    · exact same ▸ .refl _ cause
    · exact fails

end AuthSystem

end Dispatch
