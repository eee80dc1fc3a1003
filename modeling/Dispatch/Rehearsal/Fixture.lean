import Dispatch.Rehearsal.World
import Dispatch.Session.Login
/-!
A small world to start from: an admin and two users.
-/
namespace Dispatch.Rehearsal

namespace Fixture

def root : Credentials := { user := "root", password := "root-pw" }

def alice : Credentials := { user := "alice", password := "alice-pw" }

def bob : Credentials := { user := "bob", password := "bob-pw" }

def clientHost : String := "client.example.org"

def users : List User := [
  { User.withPassword root.user root.password with privilege := .admin },
  User.withPassword alice.user alice.password,
  User.withPassword bob.user bob.password]

/-- The credentials of a user of the fixture. -/
def credentialsOf (user : String) : Credentials :=
  if user = root.user then root else if user = alice.user then alice else bob

/-- Opens a session from the client host, and passes the gate with it. -/
def login (defaults : SessionDefaults) (user : String) : Service Caller := do
  let session ← Session.connect defaults (credentialsOf user) clientHost {}
  Session.authorize session.key

end Fixture

/-- Users that are there from the start; of those with the same identifier the first one stays. -/
def World.withUsers (world : World) (users : List User) : World :=
  { world with tables := users.foldl (fun tables user => (tables.insertUser user).2) world.tables }

end Dispatch.Rehearsal
