import Dispatch.Session.Gate
/-!
The end of sessions: closing one, and the sweep over those that have been idle for too long.
-/
namespace Dispatch.Session

def markClosed (session : Session) (instant : Instant) : Service Unit :=
  Service.store (.updateSession (session.close instant))

/-- A session with a running command is not closed: one that closes on disconnect waits for its timeout
instead, any other is refused. -/
def closeByKey (defaults : SessionDefaults) (key : String) : Service Unit := do
  let session ← load key
  if !session.isActive then throw .sessionExpired
  if ← hasRunningCommand key then
    if defaults.effective session.policy = .onDisconnect then
      Service.store (.updateSession
        { session with policy := .onTimeout, timeout := some defaults.timeout })
    else throw (.commandRunning session.id)
  else
    let now ← Service.ask .now
    markClosed session now

/-- Closes those that have expired, and counts them. -/
def closeExpiredAmong (defaults : SessionDefaults) (now : Instant) : List Session → Service Nat
  | [] => return 0
  | session :: rest => do
    if session.isExpired defaults now then
      markClosed session now
      return (← closeExpiredAmong defaults now rest) + 1
    else closeExpiredAmong defaults now rest

/-- Closes every session that has expired, and counts them. -/
def closeExpired (defaults : SessionDefaults) (now : Instant) : Service Nat := do
  closeExpiredAmong defaults now (← Service.store .activeSessions)

end Dispatch.Session
