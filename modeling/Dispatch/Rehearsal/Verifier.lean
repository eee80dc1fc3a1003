import Dispatch.Directory.AuthSystem
import Dispatch.Failure
/-!
What vouches for passwords when there is no directory to ask.
-/
namespace Dispatch.Rehearsal

/-- No directory at all; one login and password on every system; or a list of systems, logins and
passwords, with systems that cannot be reached. -/
inductive Verifier
  | none
  | pair (login password : String)
  | listed (accepted : List (String × String × String)) (unavailable : List String)
  deriving DecidableEq, Repr, Inhabited

namespace Verifier

def verify (verifier : Verifier) (system : AuthSystem) (login password : String) :
    Except Failure Bool :=
  match verifier with
  | none => .error (.connection system.uri "no directory client configured")
  | pair expected secret => .ok (login == expected && password == secret)
  | listed accepted unavailable =>
    if unavailable.contains system.id then .error (.connection system.uri "directory unavailable")
    else .ok (accepted.contains (system.id, login, password))

/-- Whether its calls are noted. -/
def isWatched : Verifier → Bool
  | listed .. => true
  | none | pair .. => false

end Verifier

end Dispatch.Rehearsal
