/-!
Failures of storage.
-/
namespace Dispatch.Store

inductive Fault
  | unknownTransaction (transaction : Nat)
  | duplicate (table key : String)
  | missing (table key : String)
  | sessionClosed (session : String)
  | unavailable (details : String)
  deriving DecidableEq, Repr, Inhabited

namespace Fault

def message : Fault → String
  | unknownTransaction transaction => s!"Unknown transaction TxnId({transaction})"
  | duplicate table key => s!"Duplicate key {key} in {table}"
  | missing table key => s!"No row {key} in {table}"
  | sessionClosed session => s!"Session {session} is closed"
  | unavailable details => s!"Storage lock poisoned: {details}"

end Fault

end Dispatch.Store
