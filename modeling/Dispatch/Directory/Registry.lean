import Dispatch.Identifier.Mint
import Dispatch.Session.Gate
/-!
Managing authentication systems. Only admins change them; a deleted one stays as a record.
-/
namespace Dispatch.AuthSystem

/-- A new system; without an identifier one is minted. -/
structure Entry where
  id : Option String := none
  name : String
  uri : String
  login : String
  password : String
  kind : Kind := .ldap
  base : String
  encryption : Encryption := .ssha
  deriving DecidableEq, Repr, Inhabited

namespace Entry

def ofJson? (json : Json) : Option Entry := do
  let row ← Json.Row.open?
    ["id", "name", "uri", "auth_login", "auth_password", "system_type", "ldap_base"] json
  let id ← row.optional "id" Json.asString?
  let name ← row.required "name" Json.asString?
  let uri ← row.required "uri" Json.asString?
  let login ← row.required "auth_login" Json.asString?
  let password ← row.required "auth_password" Json.asString?
  let kind ← row.optional "system_type" Kind.ofJson?
  let base ← row.required "ldap_base" Json.asString?
  return { id, name, uri, login, password, kind := kind.getD .ldap, base }

end Entry

/-- What is to change; what is not given stays. -/
structure Changes where
  name : Option String := none
  uri : Option String := none
  login : Option String := none
  password : Option String := none
  base : Option String := none
  standing : Option Standing := none
  deriving DecidableEq, Repr, Inhabited

namespace Changes

def ofJson? (json : Json) : Option Changes := do
  let row ← Json.Row.open? ["name", "uri", "auth_login", "auth_password", "ldap_base", "status"] json
  let name ← row.optional "name" Json.asString?
  let uri ← row.optional "uri" Json.asString?
  let login ← row.optional "auth_login" Json.asString?
  let password ← row.optional "auth_password" Json.asString?
  let base ← row.optional "ldap_base" Json.asString?
  let standing ← row.optional "status" Standing.ofJson?
  return { name, uri, login, password, base, standing }

end Changes

/-- The base of a directory says where a login goes. -/
def validateBase (base : String) : Except Failure Unit :=
  if Text.hasPart placeholder.toList base.toList then .ok ()
  else .error (.invalidParameter s!"LDAP base '{base}' must contain {placeholder}")

def isNameTaken (systems : List AuthSystem) (name : String) : Bool :=
  systems.any fun system => system.isLive && system.name == name

def insert (mint : Identifier.Mint) (entry : Entry) : Service AuthSystem := do
  if entry.kind ≠ .ldap then
    throw (.invalidParameter "Only LDAP authentication systems can be registered")
  Service.ofExcept (validateBase entry.base)
  if isNameTaken (← Service.store .authSystems) entry.name then throw (.authSystemExists entry.name)
  let id ←
    match entry.id with
    | some id =>
      if (← Service.store (.findAuthSystem id)).isSome then throw (.authSystemExists id)
      pure id
    | none => mint.next .authSystem (some entry.name) none
  let system : AuthSystem := {
    id, name := entry.name, uri := entry.uri, login := entry.login, password := entry.password,
    kind := entry.kind, base := entry.base, encryption := entry.encryption, standing := .active }
  Service.store (.insertAuthSystem system)
  return system

/-- The system with that identifier, if it is not deleted. -/
def loadLive (id : String) : Service AuthSystem := do
  match ← Service.store (.findAuthSystem id) with
  | some system => if system.isLive then return system else throw (.unknownAuthSystem id)
  | none => throw (.unknownAuthSystem id)

def changeStanding (system : AuthSystem) : Option Standing → Except Failure AuthSystem
  | none => .ok system
  | some .deleted => .error (.invalidParameter "Use delete to remove an authentication system")
  | some standing =>
    if standing = .locked ∧ system.standing = .locked then .error (.authSystemLocked system.id)
    else .ok { system with standing }

/-- No other live system may have the name. -/
def changeName (system : AuthSystem) : Option String → Service AuthSystem
  | none => return system
  | some name => do
    let others := (← Service.store .authSystems).filter fun other => other.id ≠ system.id
    if isNameTaken others name then throw (.authSystemExists name)
    return { system with name }

def changeBase (system : AuthSystem) : Option String → Except Failure AuthSystem
  | none => .ok system
  | some base => (validateBase base).map fun _ => { system with base }

/-- All changes are checked before one of them is stored. -/
def apply (id : String) (changes : Changes) : Service AuthSystem := do
  let system ← loadLive id
  let system ← Service.ofExcept (changeStanding system changes.standing)
  let system ← changeName system changes.name
  let system ← Service.ofExcept (changeBase system changes.base)
  let system := { system with
    uri := changes.uri.getD system.uri
    login := changes.login.getD system.login
    password := changes.password.getD system.password }
  Service.store (.updateAuthSystem system)
  return system

/-- Deletes the system and the accounts bound to it. -/
def remove (id : String) : Service Unit := do
  let system ← loadLive id
  Service.store (.updateAuthSystem { system with standing := .deleted })
  let _ ← Service.store (.setAuthAccounts id .deleted)

/-- Runs a change as an admin and notes it in the history, with the system it is about if it succeeded. -/
def asAdmin (key purpose description : String) (object : α → String) (change : Service α) : Service α := do
  let caller ← Session.authorize key
  Service.ofExcept (caller.requireAdmin purpose)
  let result ← Service.attempt change
  Session.record caller.session.key description .users (History.Status.ofResult result)
    (result.toOption.map object)
  Service.ofExcept result

def add (mint : Identifier.Mint) (key : String) (entry : Entry) : Service AuthSystem :=
  asAdmin key "Adding an authentication system" "auth_system_create" AuthSystem.id (insert mint entry)

def update (key id : String) (changes : Changes) : Service AuthSystem :=
  asAdmin key "Updating an authentication system" "auth_system_update" (fun _ => id) (apply id changes)

def delete (key id : String) : Service Unit :=
  asAdmin key "Deleting an authentication system" "auth_system_delete" (fun _ => id) (remove id)

/-- The live systems, or for admins all of them; of these only the wanted one if there is such a wish. -/
def list (key : String) (wanted : Option String) (includeDeleted : Bool) : Service (List AuthSystem) := do
  let caller ← Session.authorize key
  if includeDeleted then
    Service.ofExcept (caller.requireAdmin "Listing deleted authentication systems")
  let visible := (← Service.store .authSystems).filter fun system => includeDeleted || system.isLive
  let systems ←
    match wanted with
    | none => pure visible
    | some id =>
      let found := visible.filter fun system => system.id == id
      if found.isEmpty then throw (.unknownAuthSystem id)
      pure found
  Session.record caller.session.key "auth_system_list" .users .success none
  return systems

end Dispatch.AuthSystem
