import Dispatch.Shell.Fault
/-!
Failures of the places where jobs run.
-/
namespace Dispatch.Backend

inductive Fault
  | invalidConfig (backend details : String)
  | invalidParameter (details : String)
  | scheduler (backend details : String)
  | rpc (method details : String)
  | timeout (what : String) (attempts : UInt32)
  | remote (fault : Shell.Fault)
  | fileSystem (details : String)
  | internal (details : String)
  deriving DecidableEq, Repr, Inhabited

namespace Fault

def message : Fault → String
  | invalidConfig backend details => s!"Invalid configuration for {backend}: {details}"
  | invalidParameter details => s!"Invalid parameter: {details}"
  | scheduler backend details => s!"{backend} scheduler error: {details}"
  | rpc method details => s!"RPC {method} failed: {details}"
  | timeout what attempts => s!"Timed out waiting for {what} after {attempts} attempts"
  | remote fault => fault.message
  | fileSystem details => s!"File system operation failed: {details}"
  | internal details => s!"Internal backend error: {details}"

end Fault

end Dispatch.Backend
