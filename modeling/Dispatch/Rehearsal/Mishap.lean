import Dispatch.Store.Call
/-!
Mishaps of the store: calls that fail or that are misled, after some that pass.
-/
namespace Dispatch.Rehearsal

/-- Concerns calls of the same kind as the sample, whatever their arguments. A mishap without a fault
misleads: the session is found closed, or another session is found in its stead. -/
structure Mishap where
  sample : Store.Call
  skip : Nat := 0
  times : Nat := 1
  fault : Option Store.Fault := none
  deriving Repr

namespace Mishap

def concerns (mishap : Mishap) (call : Store.Call) : Bool := mishap.sample.ctorIdx == call.ctorIdx

def isLeft (mishap : Mishap) : Bool := 0 < mishap.skip || 0 < mishap.times

/-- A session that nobody asked for. -/
def otherSession : Session := {
  key := "other", id := "other", user := "other", authenticatedAs := "other", clientHost := "other",
  policy := .onDisconnect, timeout := none, state := .active, createdAt := Instant.ofSeconds 0,
  lastActivityAt := Instant.ofSeconds 0, closedAt := none }

/-- What a misled call answers, if it can be misled. -/
def misled? : (call : Store.Call) → Option call.Answer
  | .touchSession .. => some false
  | .findSessionWithId _ => some (some otherSession)
  | _ => none

/-- What a call answers that the mishap strikes. -/
def strike? (mishap : Mishap) (call : Store.Call) : Option (Except Store.Fault call.Answer) :=
  match mishap.fault with
  | some fault => some (.error fault)
  | none => (misled? call).map .ok

end Mishap

/-- The answer of the first mishap that concerns a call, if it strikes, and the mishaps that are left. -/
def strike? (call : Store.Call) : List Mishap → Option (Except Store.Fault call.Answer) × List Mishap
  | [] => (none, [])
  | mishap :: rest =>
    if mishap.concerns call && mishap.isLeft then
      if 0 < mishap.skip then (none, { mishap with skip := mishap.skip - 1 } :: rest)
      else (mishap.strike? call, { mishap with times := mishap.times - 1 } :: rest)
    else
      let (answer, rest) := strike? call rest
      (answer, mishap :: rest)

end Dispatch.Rehearsal
