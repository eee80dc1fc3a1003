import Dispatch.Json.Token
/-!
Reading a JSON text: a fold over its tokens that keeps the open arrays and objects on a stack.
-/
namespace Dispatch.Json

/-- An open array or object with what it holds so far, in reverse. `sound` is lost with the first name
that is unreadable. -/
inductive Frame
  | array (items : List Json)
  | object (sound : Bool) (members : List (String × Json)) (name : String)

/-- What may come next. -/
inductive Expectation
  | value
  | firstItem
  | firstName
  | name
  | colon
  | separator
  | nothing

structure Reader where
  stack : List Frame := []
  expectation : Expectation := .value
  result : Json := .null

namespace Reader

/-- Arrays and objects may stand inside each other up to this depth. -/
def depthLimit : Nat := 127

def close (reader : Reader) (value : Json) : Reader :=
  match reader.stack with
  | [] => { reader with expectation := .nothing, result := value }
  | .array items :: rest => { reader with stack := .array (value :: items) :: rest, expectation := .separator }
  | .object sound members name :: rest =>
    { reader with stack := .object sound ((name, value) :: members) name :: rest, expectation := .separator }

def scalar? : Token → Option Json
  | .null => some .null
  | .bool value => some (.bool value)
  | .string (some value) => some (.string value)
  | .string none => some .unreadable
  | .number (some value) => some (.number value)
  | .number none => some .unreadable
  | _ => none

/-- A container nested too deeply has no value. -/
def limited (reader : Reader) (value : Json) : Json :=
  if depthLimit < reader.stack.length then .unreadable else value

def endArray (reader : Reader) : Option Reader :=
  match reader.stack with
  | .array items :: rest =>
    some (close { reader with stack := rest } (limited reader (.array items.reverse)))
  | _ => none

def endObject (reader : Reader) : Option Reader :=
  match reader.stack with
  | .object sound members _ :: rest =>
    let value := if sound then .object members.reverse else .unreadable
    some (close { reader with stack := rest } (limited reader value))
  | _ => none

def beginValue (reader : Reader) : Token → Option Reader
  | .leftBracket => some { reader with stack := .array [] :: reader.stack, expectation := .firstItem }
  | .leftBrace => some { reader with stack := .object true [] "" :: reader.stack, expectation := .firstName }
  | token => (scalar? token).map reader.close

def beginMember (reader : Reader) : Token → Option Reader
  | .string name =>
    match reader.stack with
    | .object sound members _ :: rest =>
      let frame := .object (sound && name.isSome) members (name.getD "")
      some { reader with stack := frame :: rest, expectation := .colon }
    | _ => none
  | _ => none

def step (reader : Reader) (token : Token) : Option Reader :=
  match reader.expectation, token with
  | .value, token => beginValue reader token
  | .firstItem, .rightBracket => endArray reader
  | .firstItem, token => beginValue reader token
  | .firstName, .rightBrace => endObject reader
  | .firstName, token => beginMember reader token
  | .name, token => beginMember reader token
  | .colon, .colon => some { reader with expectation := .value }
  | .colon, _ => none
  | .separator, .comma =>
    match reader.stack with
    | .array _ :: _ => some { reader with expectation := .value }
    | .object .. :: _ => some { reader with expectation := .name }
    | [] => none
  | .separator, .rightBracket => endArray reader
  | .separator, .rightBrace => endObject reader
  | .separator, _ => none
  | .nothing, _ => none

end Reader

/-- The value of a whole text, repeated members and unreadable parts included. -/
def read? (text : String) : Option Json := do
  let tokens ← Token.scan? text.toList
  let reader ← tokens.foldlM Reader.step {}
  match reader.expectation with
  | .nothing => return reader.result
  | _ => none

/-- The value that a text stands for. -/
def parse? (text : String) : Option Json := (read? text).bind canonical?

end Dispatch.Json
