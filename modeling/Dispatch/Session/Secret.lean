import Dispatch.Digest.Blake3
import Dispatch.Instant.Rfc3339
import Dispatch.Text.Bytes
/-!
The secret keys and the public identifiers of sessions.
-/
namespace Dispatch.Session

/-- The context that keys are derived in. -/
def keyContext : String := "gridplane 2024-06 session key"

/-- The low 64 bits of a number, the low byte first. -/
def bytes64 (number : Int) : List UInt8 :=
  (List.range 8).map fun place => UInt8.ofNat (((number % Int.pow 2 64).toNat / Nat.pow 256 place) % 256)

/-- Nanoseconds since 1970, or microseconds where those do not fit 64 bits. -/
def stamp (instant : Instant) : List UInt8 :=
  let nanos := instant.second * 1000000000 + instant.nano
  if -Int.pow 2 63 ≤ nanos ∧ nanos < Int.pow 2 63 then bytes64 nanos else bytes64 (nanos.fdiv 1000)

def keyTails : Nat := 1000000

/-- Two stages of a keyed hash, by the user and by random bytes, over the instant; then six random
digits. -/
def newKey (user : String) (instant : Instant) (nonce : List UInt8) (tail : Nat) : String :=
  let userKey := Digest.deriveKey keyContext (Text.bytes user)
  let first := Digest.keyedHash userKey nonce
  let second := Digest.keyedHash first (stamp instant)
  Digest.hex second ++ String.ofList (Text.padded 6 (tail % keyTails))

def idTails : Nat := 100000

/-- The user, the date and the time of day, and a random number. -/
def newId (user : String) (instant : Instant) (tail : Nat) : String :=
  let date := String.ofList (Instant.writeDate instant.date)
  let clock := String.ofList (Instant.writeClock instant)
  s!"{user}-{date}-{clock}:{tail % idTails}"

end Dispatch.Session
