import Dispatch.Json.Record
/-!
The life of a job.
-/
namespace Dispatch

namespace Job

inductive Status
  | submitted
  | queued
  | waiting
  | running
  | completed
  | cancelled
  | failed
  | downloaded
  deriving DecidableEq, Repr, Inhabited

namespace Status

def all : List Status := [submitted, queued, waiting, running, completed, cancelled, failed, downloaded]

def name : Status → String
  | submitted => "SUBMITTED"
  | queued => "QUEUED"
  | waiting => "WAITING"
  | running => "RUNNING"
  | completed => "COMPLETED"
  | cancelled => "CANCELLED"
  | failed => "FAILED"
  | downloaded => "DOWNLOADED"

def isTerminal : Status → Bool
  | completed | cancelled | failed | downloaded => true
  | submitted | queued | waiting | running => false

/-- A job that has ended stays as it is, save that the output of a completed one can be fetched. -/
def canBecome (status next : Status) : Bool :=
  if status = completed then next = downloaded else !status.isTerminal

def ofJson? (json : Json) : Option Status := Json.asOneOf? all name json

def toJson (status : Status) : Json := .string status.name

end Status

end Job

end Dispatch
