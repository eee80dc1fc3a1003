import Dispatch.Identifier.Kind
import Dispatch.Failure
/-!
Rendering an identifier format: each dollar sign begins a keyword, which is replaced by its value.
-/
namespace Dispatch.Identifier

/-- What the keywords of a format stand for. -/
structure Values where
  counter : Nat
  kind : Kind
  name : String
  site : String
  now : Instant

inductive Keyword
  | day
  | month
  | year
  | counter
  | site
  | machineName
  | userName
  | name
  | kind
  deriving DecidableEq, Repr

namespace Keyword

def all : List Keyword := [day, month, year, counter, site, machineName, userName, name, kind]

def text : Keyword → List Char
  | day => "DAY".toList
  | month => "MONTH".toList
  | year => "YEAR".toList
  | counter => "CPT".toList
  | site => "SITE".toList
  | machineName => "MANAME".toList
  | userName => "UNAME".toList
  | name => "NAME".toList
  | kind => "TYPE".toList

def value (values : Values) : Keyword → List Char
  | day => Text.padded 2 values.now.date.day
  | month => Text.padded 2 values.now.date.month
  | year => (toString values.now.date.year).toList
  | counter => Nat.toDigits 10 values.counter
  | site => values.site.toList
  | machineName => values.name.toList
  | userName => values.name.toList
  | name => values.name.toList
  | kind => values.kind.letter.toList

/-- The keyword a text begins with, and what follows it. -/
def read? (text : List Char) : Option (Keyword × List Char) :=
  all.findSome? fun keyword => (Text.after? keyword.text text).map fun rest => (keyword, rest)

end Keyword

/-- A failed rendering answers the text from the dollar sign that begins no keyword. The first `skip`
characters belong to a keyword that has been replaced. -/
def renderFrom (values : Values) : (skip : Nat) → List Char → Except (List Char) (List Char)
  | _, [] => .ok []
  | skip + 1, _ :: rest => renderFrom values skip rest
  | 0, c :: rest =>
    if c = '$' then
      match Keyword.read? rest with
      | some (keyword, _) =>
        (renderFrom values keyword.text.length rest).map (keyword.value values ++ ·)
      | none => .error (c :: rest)
    else (renderFrom values 0 rest).map (c :: ·)

def render (format : String) (values : Values) : Except Failure String :=
  match renderFrom values 0 format.toList with
  | .ok text => .ok (String.ofList text)
  | .error rest =>
    .error (.system s!"Unknown placeholder at '{String.ofList rest}' in id format '{format}'")

end Dispatch.Identifier
