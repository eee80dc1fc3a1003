import Dispatch.Job.Tracking
import Dispatch.Server.Config
import Dispatch.Session.Closing
/-!
What a server does on its own: closing sessions that have expired, and refreshing jobs.
-/
namespace Dispatch.Server

inductive Pass
  | sweep
  | monitor
  deriving DecidableEq, Repr

/-- The passes that are due at a second; all are at the start. -/
def Config.passesAt (config : Config) (second : Nat) : List Pass :=
  (if second % config.sweepSeconds = 0 then [.sweep] else []) ++
    (if second % config.monitorSeconds = 0 then [.monitor] else [])

/-- The passes of a server that runs for some seconds, the last one included. -/
def Config.passes (config : Config) (seconds : Nat) : List Pass :=
  (List.range (seconds + 1)).flatMap config.passesAt

/-- A pass that fails has no effect on the next. -/
def Config.runPass (config : Config) : Pass → Plan Unit
  | .sweep => do
    let now ← Plan.request .now
    let _ ← (Session.closeExpired config.session now).run
  | .monitor => do
    let _ ← Job.monitor.run

def Config.runPasses (config : Config) : List Pass → Plan Unit
  | [] => return
  | pass :: rest => do
    config.runPass pass
    config.runPasses rest

end Dispatch.Server
