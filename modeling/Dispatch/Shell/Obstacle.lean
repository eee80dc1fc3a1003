import Dispatch.Shell.Fault
/-!
What stands in the way of a session with a host, up to the point where the host is let prove itself.
-/
namespace Dispatch.Shell

inductive Obstacle
  | unresolved (cause : String)
  | unreachable (cause : String)
  | noHandshake (cause : String)
  deriving DecidableEq, Repr, Inhabited

namespace Obstacle

def details : Obstacle → String
  | unresolved cause => s!"Address resolution failed: {cause}"
  | unreachable cause => s!"TCP connection failed: {cause}"
  | noHandshake cause => s!"SSH handshake failed: {cause}"

def fault (obstacle : Obstacle) (host : String) : Fault := .connection host obstacle.details

/-- The file to upload is looked at before the host is; the cause says why it cannot be read. -/
def uploadFault (obstacle : Obstacle) (host localPath : String) (localCause : Option String) : Fault :=
  match localCause with
  | some cause => .localFile localPath s!"Failed to read metadata: {cause}"
  | none => obstacle.fault host

end Obstacle

end Dispatch.Shell
