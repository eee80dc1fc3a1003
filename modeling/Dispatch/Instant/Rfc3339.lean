import Dispatch.Instant.Pattern
/-!
Instants as RFC 3339 timestamps: written with the shortest exact fraction, read with any offset.
-/
namespace Dispatch.Instant

/-- Years of more or less than four digits carry a sign. -/
def writeYear (year : Int) : List Char :=
  if 0 ≤ year && year ≤ 9999 then Text.padded 4 year.toNat
  else (if year < 0 then '-' else '+') :: Text.padded 4 year.natAbs

def writeDate (date : Date) : List Char :=
  writeYear date.year ++ '-' :: Text.padded 2 date.month ++ '-' :: Text.padded 2 date.day

def writeClock (instant : Instant) : List Char :=
  Text.padded 2 instant.hour ++ ':' :: Text.padded 2 instant.minute ++ ':' ::
    Text.padded 2 instant.clockSecond

/-- No fraction, or the first of 3, 6 and 9 digits that loses nothing. -/
def writeFraction (nano : Nat) : List Char :=
  if nano = 0 then []
  else if nano % 1000000 = 0 then '.' :: Text.padded 3 (nano / 1000000)
  else if nano % 1000 = 0 then '.' :: Text.padded 6 (nano / 1000)
  else '.' :: Text.padded 9 nano

def writeWith (zone : List Char) (instant : Instant) : String :=
  String.ofList (writeDate instant.date ++ 'T' :: writeClock instant ++
    writeFraction instant.clockNano ++ zone)

/-- As records hold it. -/
def timestamp (instant : Instant) : String := writeWith ['Z'] instant

/-- With the offset of UTC in digits. -/
def timestampWithOffset (instant : Instant) : String := writeWith "+00:00".toList instant

def dateItems : List Item :=
  [.number .year, .blanks, .literal '-', .number .month, .blanks, .literal '-', .number .day]

def clockItems : List Item :=
  [.number .hour, .blanks, .literal ':', .number .minute, .blanks, .literal ':', .number .second,
    .fraction, .blanks]

/-- Two digits of an offset. -/
def twoDigits? (text : List Char) : Option (Nat × List Char) :=
  match text with
  | a :: b :: rest =>
    if Text.isDigit a && Text.isDigit b then some (Nat.ofDigitChars 10 [a, b] 0, rest) else none
  | _ => none

/-- Seconds to the east of UTC, less than a day. -/
def offset? (text : List Char) : Option (Int × List Char) := do
  let (negative, text) ←
    match text with
    | '+' :: rest => some (false, rest)
    | '-' :: rest => some (true, rest)
    | '\u2212' :: rest => some (true, rest)
    | _ => none
  let (hours, text) ← twoDigits? text
  let (minutes, text) ← twoDigits? (text.dropWhile fun c => c = ':' || Text.isBlank c)
  guard (hours < 24 && minutes < 60)
  let seconds : Int := hours * 3600 + minutes * 60
  return (if negative then -seconds else seconds, text)

def zone? (text : List Char) : Option (Int × List Char) :=
  match text with
  | 'Z' :: rest => some (0, rest)
  | 'z' :: rest => some (0, rest)
  | text =>
    if (text.take 3).map Char.toUpper = ['U', 'T', 'C'] then some (0, text.drop 3) else offset? text

/-- A date, a letter T or a space, a time of day and a zone, converted to UTC. -/
def ofTimestamp? (text : String) : Option Instant := do
  let (found, rest) ← find? dateItems {} text.toList
  let rest ←
    match rest with
    | 'T' :: rest => some rest
    | 't' :: rest => some rest
    | ' ' :: rest => some rest
    | _ => none
  let (found, rest) ← find? clockItems found rest
  let (offset, rest) ← zone? (Text.trimStart rest)
  guard (Text.trimStart rest).isEmpty
  let instant ← found.instant?
  let instant := { instant with second := instant.second - offset }
  guard instant.inRange
  return instant

end Dispatch.Instant
