import Dispatch.Instant.Basic
import Dispatch.Text.Numeral
/-!
Reading civil times by pattern. A number may have blanks in front and fewer digits than its width; only
years have a sign.
-/
namespace Dispatch.Instant

inductive Field
  | year
  | month
  | day
  | hour
  | minute
  | second
  deriving DecidableEq, Repr

inductive Item
  | number (field : Field)
  | weekdayName
  | monthName
  | literal (c : Char)
  | blanks
  | fraction
  deriving Repr

/-- What a pattern has found so far. -/
structure Found where
  year : Int := 0
  month : Nat := 0
  day : Nat := 0
  hour : Nat := 0
  minute : Nat := 0
  second : Nat := 0
  nano : Nat := 0
  weekday : Option Nat := none

namespace Found

/-- A number outside the range of its field is refused. -/
def put? (found : Found) (field : Field) (value : Int) : Option Found :=
  let size := value.toNat
  match field with
  | .year => if -Int.pow 2 31 ≤ value && value < Int.pow 2 31 then some { found with year := value } else none
  | .month => if 1 ≤ size && size ≤ 12 then some { found with month := size } else none
  | .day => if 1 ≤ size && size ≤ 31 then some { found with day := size } else none
  | .hour => if size < 24 then some { found with hour := size } else none
  | .minute => if size < 60 then some { found with minute := size } else none
  | .second => if size ≤ 60 then some { found with second := size } else none

/-- The instant, if the date exists and has the weekday that was named. -/
def instant? (found : Found) : Option Instant :=
  let date : Date := { year := found.year, month := found.month, day := found.day }
  let weekdayAgrees := found.weekday.all fun weekday => weekday == date.weekday
  if date.isValid && weekdayAgrees then
    let leap := found.second = 60
    let second := if leap then 59 else found.second
    let nano := found.nano + if leap then milliard else 0
    some (ofDate date (found.hour * 3600 + found.minute * 60 + second) nano)
  else none

end Found

/-- At least one digit, and no more than the width if there is one. -/
def digits? (width : Option Nat) (text : List Char) : Option (Nat × List Char) :=
  let run := text.takeWhile Text.isDigit
  let taken := match width with
    | some width => run.take width
    | none => run
  if taken.isEmpty then none else some (Nat.ofDigitChars 10 taken 0, text.drop taken.length)

/-- A number of a sign is not limited to the width. -/
def numeral? (field : Field) (text : List Char) : Option (Int × List Char) :=
  match field, text with
  | .year, '-' :: rest => (digits? none rest).map fun (value, rest) => (-(value : Int), rest)
  | .year, '+' :: rest => (digits? none rest).map fun (value, rest) => ((value : Int), rest)
  | .year, text => (digits? (some 4) text).map fun (value, rest) => ((value : Int), rest)
  | _, text => (digits? (some 2) text).map fun (value, rest) => ((value : Int), rest)

def monthNames : List String :=
  ["jan", "feb", "mar", "apr", "may", "jun", "jul", "aug", "sep", "oct", "nov", "dec"]

def weekdayNames : List String := ["sun", "mon", "tue", "wed", "thu", "fri", "sat"]

/-- The place of the name that the text begins with, in letters of either case. -/
def name? (names : List String) (text : List Char) : Option (Nat × List Char) :=
  let lead := String.ofList ((text.take 3).map Char.toLower)
  (names.findIdx? fun name => name == lead).map fun place => (place, text.drop 3)

/-- Nine digits count; more are passed over. -/
def fraction? (text : List Char) : Option (Nat × List Char) :=
  match text with
  | '.' :: rest =>
    let run := rest.takeWhile Text.isDigit
    if run.isEmpty then none
    else
      let kept := run.take 9
      some (Nat.ofDigitChars 10 kept 0 * Nat.pow 10 (9 - kept.length), rest.drop run.length)
  | text => some (0, text)

def step? (found : Found) (item : Item) (text : List Char) : Option (Found × List Char) :=
  match item with
  | .number field => do
    let (value, rest) ← numeral? field (Text.trimStart text)
    let found ← found.put? field value
    return (found, rest)
  | .weekdayName => do
    let (weekday, rest) ← name? weekdayNames text
    return ({ found with weekday := some weekday }, rest)
  | .monthName => do
    let (month, rest) ← name? monthNames text
    return ({ found with month := month + 1 }, rest)
  | .literal c => (Text.after? [c] text).map fun rest => (found, rest)
  | .blanks => some (found, Text.trimStart text)
  | .fraction => do
    let (nano, rest) ← fraction? text
    return ({ found with nano }, rest)

/-- What the items find at the start of a text, and the rest of it. -/
def find? : List Item → Found → List Char → Option (Found × List Char)
  | [], found, text => some (found, text)
  | item :: items, found, text => do
    let (found, rest) ← step? found item text
    find? items found rest

/-- The instant in UTC that a whole text names. -/
def readPattern? (items : List Item) (text : List Char) : Option Instant := do
  let (found, rest) ← find? items {} text
  guard rest.isEmpty
  found.instant?

end Dispatch.Instant
