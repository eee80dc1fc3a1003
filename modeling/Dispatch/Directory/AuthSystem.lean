import Dispatch.Directory.User
/-!
Authentication systems: external directories that may vouch for a password.
-/
namespace Dispatch

namespace AuthSystem

inductive Kind
  | localFiles
  | ldap
  deriving DecidableEq, Repr, Inhabited

namespace Kind

def all : List Kind := [localFiles, ldap]

def name : Kind → String
  | localFiles => "LOCAL"
  | ldap => "LDAP"

def ofJson? (json : Json) : Option Kind := Json.asOneOf? all name json

def toJson (kind : Kind) : Json := .string kind.name

end Kind

/-- How a directory stores passwords. -/
inductive Encryption
  | ssha
  deriving DecidableEq, Repr, Inhabited

namespace Encryption

def all : List Encryption := [ssha]

def name : Encryption → String
  | ssha => "SSHA"

def ofJson? (json : Json) : Option Encryption := Json.asOneOf? all name json

def toJson (encryption : Encryption) : Json := .string encryption.name

end Encryption

/-- What a login is put for in the base of a directory. -/
def placeholder : String := "$USERNAME"

end AuthSystem

structure AuthSystem where
  id : String
  name : String
  uri : String
  login : String
  password : String
  kind : AuthSystem.Kind
  base : String
  encryption : AuthSystem.Encryption
  standing : Standing
  deriving DecidableEq, Repr, Inhabited

namespace AuthSystem

def isLive (system : AuthSystem) : Bool := system.standing ≠ .deleted

def isActive (system : AuthSystem) : Bool := system.standing = .active

/-- The distinguished name to bind as for a login. -/
def bindName (system : AuthSystem) (login : String) : String :=
  onChars (Text.replace placeholder.toList login.toList) system.base

def toJson (system : AuthSystem) : Json :=
  .object [
    ("auth_system_id", .string system.id),
    ("name", .string system.name),
    ("uri", .string system.uri),
    ("auth_login", .string system.login),
    ("auth_password", .string system.password),
    ("system_type", system.kind.toJson),
    ("ldap_base", .string system.base),
    ("password_encryption", system.encryption.toJson),
    ("status", system.standing.toJson)]

def ofJson? (json : Json) : Option AuthSystem := do
  let row ← Json.Row.open?
    ["auth_system_id", "name", "uri", "auth_login", "auth_password", "system_type", "ldap_base",
      "password_encryption", "status"] json
  let id ← row.required "auth_system_id" Json.asString?
  let name ← row.required "name" Json.asString?
  let uri ← row.required "uri" Json.asString?
  let login ← row.required "auth_login" Json.asString?
  let password ← row.required "auth_password" Json.asString?
  let kind ← row.required "system_type" Kind.ofJson?
  let base ← row.required "ldap_base" Json.asString?
  let encryption ← row.required "password_encryption" Encryption.ofJson?
  let standing ← row.required "status" Standing.ofJson?
  return { id, name, uri, login, password, kind, base, encryption, standing }

end AuthSystem

end Dispatch
