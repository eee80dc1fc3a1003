import Dispatch.Calendar
/-!
Instants in UTC with nanoseconds. A leap second shares the number of the second before it and has a
nanosecond part of a milliard or more.
-/
namespace Dispatch

structure Instant where
  second : Int
  nano : Nat
  deriving DecidableEq, Repr, Inhabited

namespace Instant

def milliard : Nat := 1000000000

def secondsPerDay : Int := 86400

def ofSeconds (second : Int) : Instant := { second, nano := 0 }

def ofMillis (millis : Int) : Instant :=
  { second := millis.fdiv 1000, nano := (millis.fmod 1000).toNat * 1000000 }

def ofNanos (nanos : Int) : Instant :=
  { second := nanos.fdiv milliard, nano := (nanos.fmod milliard).toNat }

/-- Whether the instant comes before the other. -/
def isBefore (instant other : Instant) : Bool :=
  instant.second < other.second || (instant.second = other.second && instant.nano < other.nano)

def dayNumber (instant : Instant) : Int := instant.second.fdiv secondsPerDay

def date (instant : Instant) : Date := Date.ofDayNumber instant.dayNumber

/-- The second of the day, the same for a leap second and the second before it. -/
def secondOfDay (instant : Instant) : Nat := (instant.second.fmod secondsPerDay).toNat

def hour (instant : Instant) : Nat := instant.secondOfDay / 3600

def minute (instant : Instant) : Nat := instant.secondOfDay % 3600 / 60

/-- Between 0 and 60. -/
def clockSecond (instant : Instant) : Nat :=
  instant.secondOfDay % 60 + (if milliard ≤ instant.nano then 1 else 0)

def clockNano (instant : Instant) : Nat := instant.nano % milliard

def ofDate (date : Date) (secondOfDay : Nat) (nano : Nat) : Instant :=
  { second := date.dayNumber * secondsPerDay + secondOfDay, nano }

/-- Nanoseconds from the other instant to this one. A leap second counts for the one of the two that
stands later in its day. -/
def nanosSince (instant other : Instant) : Int :=
  let leap : Int :=
    if other.secondOfDay < instant.secondOfDay then (if milliard ≤ other.nano then 1 else 0)
    else if instant.secondOfDay < other.secondOfDay then (if milliard ≤ instant.nano then -1 else 0)
    else 0
  (instant.second - other.second + leap) * milliard + ((instant.nano : Int) - other.nano)

/-- Whole seconds from the other instant to this one, without the fraction. -/
def secondsSince (instant other : Instant) : Int := (instant.nanosSince other).tdiv milliard

/-- Whether the date is one that instants are read and converted to. -/
def inRange (instant : Instant) : Bool :=
  let year := instant.date.year
  Date.firstYear ≤ year && year ≤ Date.lastYear

end Instant

end Dispatch
