/-!
Failures of work on a remote host.
-/
namespace Dispatch.Shell

inductive Fault
  | connection (host details : String)
  | refused (host user details : String)
  | transfer (path details : String)
  | commandFailed (command : String) (exitCode : Int32) (stderr : String)
  | localFile (path details : String)
  deriving DecidableEq, Repr, Inhabited

namespace Fault

def message : Fault → String
  | connection host details => s!"Connection to {host} failed: {details}"
  | refused host user details => s!"Authentication of {user}@{host} failed: {details}"
  | transfer path details => s!"Transfer of {path} failed: {details}"
  | commandFailed command exitCode stderr => s!"Command '{command}' exited with {exitCode}: {stderr}"
  | localFile path details => s!"Local I/O failed on {path}: {details}"

end Fault

end Dispatch.Shell
