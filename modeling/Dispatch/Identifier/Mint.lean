import Dispatch.Identifier.Template
import Dispatch.Plan
/-!
Minting identifiers: a counter value is taken, a candidate rendered from it, and the candidate lengthened
until it is free.
-/
namespace Dispatch.Identifier

/-- The formats in use, and what $SITE stands for if the caller names no site. -/
structure Mint where
  formats : Formats := {}
  site : String := ""

/-- How many candidates are tried. -/
def attempts : Nat := 64

/-- Tries a candidate, and after each that is taken the candidate with the suffix once more. -/
def reserveFrom (kind : Kind) (counter : Nat) : (left : Nat) → (candidate : String) → Service String
  | 0, _ => throw (.system s!"Could not find a free {kind.name} id after {attempts} attempts")
  | left + 1, candidate => do
    if ← Service.store (.isTaken kind candidate) then
      reserveFrom kind counter left (candidate ++ toString counter)
    else
      let assigned ← Service.ask (.store (.assign kind counter candidate))
      match assigned with
      | .ok _ => return candidate
      | .error fault => throw (.system s!"Cannot reserve object id: {fault.message}")

/-- Makes a candidate unique and stamps it on the row of the counter. -/
def reserve (kind : Kind) (counter : Nat) (candidate : String) : Service String :=
  reserveFrom kind counter attempts candidate

/-- Takes a counter value in a transaction of its own. -/
def takeCounter (kind : Kind) : Service Nat := do
  let transaction ← Service.store .openTransaction
  let reserved ← Service.ask (.store (.reserve transaction kind))
  match reserved with
  | .ok counter =>
    Service.store (.commit transaction)
    return counter
  | .error fault =>
    let _ ← Service.ask (.store (.rollback transaction))
    throw (.system s!"Cannot reserve {kind.name} counter: {fault.message}")

namespace Mint

/-- The next identifier, for a caller that is alone in the mint. -/
def nextAlone (mint : Mint) (kind : Kind) (name site : Option String) : Service String := do
  let counter ← takeCounter kind
  let now ← Service.ask .now
  let candidate ← Service.ofExcept (render (mint.formats.format kind)
    { counter, kind, name := name.getD "", site := site.getD mint.site, now })
  if candidate.isEmpty then
    throw (.system s!"Failed to generate ID for object type {kind.name}")
  reserve kind counter candidate

/-- The next identifier of a kind. One caller at a time is in the mint. -/
def next (mint : Mint) (kind : Kind) (name site : Option String) : Service String := do
  Service.ask .enterMint
  let result ← Service.attempt (mint.nextAlone kind name site)
  Service.ask .leaveMint
  Service.ofExcept result

end Mint

end Dispatch.Identifier
