import Dispatch.Rehearsal.Hosts
import Dispatch.Rehearsal.Mishap
import Dispatch.Rehearsal.Staging
import Dispatch.Rehearsal.Verifier
import Dispatch.Session.Secret
/-!
A world in which plans are run without any hosts, providers or disks: every request is answered from a
state that says what there is to answer, and what was asked outside is noted.
-/
namespace Dispatch.Rehearsal

/-- A request that left the control plane. -/
inductive Event
  | remote (target : Shell.Target) (action : Shell.Action)
  | provider (endpoint method : String) (params : List Json)
  | verified (system login : String)

/-- The events are in the order in which they happened. Random numbers are drawn from those of five
digits, so that no identifier is the beginning of another. -/
structure World where
  clock : Instant
  tables : Store.Tables := {}
  mishaps : List Mishap := []
  numbers : Nat := 10000
  machines : Registry := {}
  verifier : Verifier := .none
  claimed : List String := []
  hosts : Hosts := {}
  provider : Prompt (Except String Json) := []
  disk : Disk := .initial
  staging : Staging := {}
  slept : Nat := 0
  events : List Event := []

namespace World

def note (world : World) (event : Event) : World := { world with events := world.events ++ [event] }

/-- Readings of the clock differ by a microsecond. -/
def tick (world : World) : Instant × World :=
  let nano := world.clock.nano + 1000
  let clock : Instant :=
    if Instant.milliard ≤ nano then
      { second := world.clock.second + 1, nano := nano - Instant.milliard }
    else { second := world.clock.second, nano }
  (clock, { world with clock })

/-- Random numbers follow each other, so that none is drawn twice. -/
def draw (world : World) : Nat × World :=
  (world.numbers, { world with numbers := world.numbers + 1 })

def callStore (world : World) (call : Store.Call) : Except Store.Fault call.Answer × World :=
  match strike? call world.mishaps with
  | (some answer, mishaps) => (answer, { world with mishaps })
  | (none, mishaps) =>
    let (answer, tables) := world.tables.answer call
    (answer, { world with mishaps, tables })

def verify (world : World) (system : AuthSystem) (login password : String) :
    Except Failure Bool × World :=
  let noted := if world.verifier.isWatched then world.note (.verified system.id login) else world
  (world.verifier.verify system login password, noted)

def claim (world : World) (job : String) : Bool × World :=
  if world.claimed.contains job then (false, world)
  else (true, { world with claimed := job :: world.claimed })

def release (world : World) (job : String) : World :=
  { world with claimed := world.claimed.filter fun other => other ≠ job }

/-- The reply to a remote request that has been noted. -/
def reply (world : World) (target : Shell.Target) :
    (action : Shell.Action) → Except Shell.Fault action.Result × World
  | .execute command _ background =>
    match world.hosts.connect target with
    | .error fault => (.error fault, world)
    | .ok _ =>
      let (outcome, hosts) := world.hosts.execute command background
      (outcome, { world with hosts })
  | .fetch remotePath localPath =>
    match world.hosts.fetch target remotePath with
    | .error fault => (.error fault, world)
    | .ok content => (.ok (), { world with staging := world.staging.write localPath content })
  | .upload content path mode =>
    let (received, hosts) := world.hosts.receive { target, path, mode, content }
    (received, { world with hosts })

/-- A method without cues answers that all is well. -/
def callProvider (world : World) (endpoint method : String) (params : List Json) :
    Except Backend.Fault Json × World :=
  let world := world.note (.provider endpoint method params)
  match world.provider.take? fun kind => kind == method with
  | none => (.ok (.array [.bool true, .nat 0]), world)
  | some (cue, provider) => (cue.mapError (Backend.Fault.rpc method), { world with provider })

def answer : Plan.Answering World
  | .store call, world => world.callStore call
  | .now, world => world.tick
  | .nonce, world =>
    let (number, world) := world.draw
    (Session.bytes64 number, world)
  | .number _, world => world.draw
  | .machine id, world => (world.machines.get? id, world)
  | .verify system login password, world => world.verify system login password
  | .claim job, world => world.claim job
  | .release job, world => ((), world.release job)
  | .enterMint, world => ((), world)
  | .leaveMint, world => ((), world)
  | .remote target action, world => (world.note (.remote target action)).reply target action
  | .provider endpoint method params, world => world.callProvider endpoint method params
  | .pause millis, world => ((), { world with slept := world.slept + millis.toNat })
  | .readFile path, world => ((world.disk.read path).mapError Disk.Obstacle.message, world)
  | .stage job suffix, world =>
    let (created, staging) := world.staging.create job suffix
    (created.mapError Disk.Obstacle.message, { world with staging })
  | .discard path, world => ((), { world with staging := world.staging.remove path })

def run (world : World) (plan : Plan α) : α × World := plan.run answer world

/-- Runs a plan with something else in between: after its first remote request has been noted and before
the reply, or after a plan without one. -/
def overlap (world : World) (plan : Plan α) (between : World → β × World) : (α × β) × World :=
  match plan.runToRemote answer world with
  | (.finished value, world) =>
    let (other, world) := between world
    ((value, other), world)
  | (.waiting target action next, world) =>
    let (other, world) := between (world.note (.remote target action))
    let (reply, world) := world.reply target action
    let (value, world) := world.run (next reply)
    ((value, other), world)

/-- The events so far, which are then forgotten. -/
def takeEvents (world : World) : List Event × World := (world.events, { world with events := [] })

end World

end Dispatch.Rehearsal
