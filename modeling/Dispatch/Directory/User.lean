import Dispatch.Digest.Blake3
import Dispatch.Json.Record
import Dispatch.Text.Bytes
/-!
Users, their passwords, and their accounts on machines and authentication systems.
-/
namespace Dispatch

/-- Whether a user, an account or an authentication system is in service. -/
inductive Standing
  | undefined
  | locked
  | active
  | deleted
  deriving DecidableEq, Repr, Inhabited

namespace Standing

def all : List Standing := [undefined, locked, active, deleted]

def name : Standing → String
  | undefined => "Undefined"
  | locked => "Locked"
  | active => "Active"
  | deleted => "Deleted"

def ofJson? (json : Json) : Option Standing := Json.asOneOf? all name json

def toJson (standing : Standing) : Json := .string standing.name

end Standing

inductive Privilege
  | user
  | admin
  deriving DecidableEq, Repr, Inhabited

namespace Privilege

def all : List Privilege := [user, admin]

def name : Privilege → String
  | user => "User"
  | admin => "Admin"

def ofJson? (json : Json) : Option Privilege := Json.asOneOf? all name json

def toJson (privilege : Privilege) : Json := .string privilege.name

end Privilege

/-- A temporary password must be changed before anything else. -/
inductive PasswordState
  | active
  | temporary
  deriving DecidableEq, Repr, Inhabited

namespace PasswordState

def all : List PasswordState := [active, temporary]

def name : PasswordState → String
  | active => "Active"
  | temporary => "Temporary"

def ofJson? (json : Json) : Option PasswordState := Json.asOneOf? all name json

def toJson (state : PasswordState) : Json := .string state.name

end PasswordState

/-- Passwords are hashed together with the identifier of their user. -/
def hashPassword (user password : String) : String :=
  Digest.hex (Digest.hash (Text.bytes (user ++ ":" ++ password)))

structure User where
  id : String
  passwordHash : String
  privilege : Privilege := .user
  standing : Standing := .active
  passwordState : PasswordState := .active
  deriving DecidableEq, Repr, Inhabited

namespace User

def withPassword (id password : String) : User := { id, passwordHash := hashPassword id password }

def isAdmin (user : User) : Bool := user.privilege = .admin

def isActive (user : User) : Bool := user.standing = .active

def passwordMatches (user : User) (password : String) : Bool :=
  user.passwordHash = hashPassword user.id password

def toJson (user : User) : Json :=
  .object [
    ("user_id", .string user.id),
    ("password_hash", .string user.passwordHash),
    ("privilege", user.privilege.toJson),
    ("status", user.standing.toJson),
    ("password_state", user.passwordState.toJson)]

def ofJson? (json : Json) : Option User := do
  let row ← Json.Row.open? ["user_id", "password_hash", "privilege", "status", "password_state"] json
  let id ← row.required "user_id" Json.asString?
  let passwordHash ← row.required "password_hash" Json.asString?
  let privilege ← row.required "privilege" Privilege.ofJson?
  let standing ← row.required "status" Standing.ofJson?
  let passwordState ← row.required "password_state" PasswordState.ofJson?
  return { id, passwordHash, privilege, standing, passwordState }

/-- A user whose password is told in plain. What is missing is as for a new user. -/
def ofPlainJson? (json : Json) : Option User := do
  let row ← Json.Row.open? ["user_id", "password", "privilege", "status", "password_state"] json
  let id ← row.required "user_id" Json.asString?
  let password ← row.required "password" Json.asString?
  let privilege ← row.optional "privilege" Privilege.ofJson?
  let standing ← row.optional "status" Standing.ofJson?
  let passwordState ← row.optional "password_state" PasswordState.ofJson?
  let plain := withPassword id password
  return { plain with
    privilege := privilege.getD plain.privilege
    standing := standing.getD plain.standing
    passwordState := passwordState.getD plain.passwordState }

end User

/-- The login a user has on a machine. -/
structure LocalAccount where
  user : String
  machine : String
  login : String
  home : String
  deriving DecidableEq, Repr, Inhabited

namespace LocalAccount

def toJson (account : LocalAccount) : Json :=
  .object [
    ("user_id", .string account.user),
    ("machine_id", .string account.machine),
    ("login", .string account.login),
    ("home", .string account.home)]

def ofJson? (json : Json) : Option LocalAccount := do
  let row ← Json.Row.open? ["user_id", "machine_id", "login", "home"] json
  let user ← row.required "user_id" Json.asString?
  let machine ← row.required "machine_id" Json.asString?
  let login ← row.required "login" Json.asString?
  let home ← row.required "home" Json.asString?
  return { user, machine, login, home }

end LocalAccount

/-- The login a user has on an authentication system. -/
structure AuthAccount where
  user : String
  system : String
  login : String
  standing : Standing
  deriving DecidableEq, Repr, Inhabited

namespace AuthAccount

def toJson (account : AuthAccount) : Json :=
  .object [
    ("user_id", .string account.user),
    ("auth_system_id", .string account.system),
    ("login", .string account.login),
    ("status", account.standing.toJson)]

def ofJson? (json : Json) : Option AuthAccount := do
  let row ← Json.Row.open? ["user_id", "auth_system_id", "login", "status"] json
  let user ← row.required "user_id" Json.asString?
  let system ← row.required "auth_system_id" Json.asString?
  let login ← row.required "login" Json.asString?
  let standing ← row.required "status" Standing.ofJson?
  return { user, system, login, standing }

end AuthAccount

end Dispatch
