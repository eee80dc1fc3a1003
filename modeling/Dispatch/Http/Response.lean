import Dispatch.Http.Chunk
import Dispatch.Http.Status
import Dispatch.Text.Numeral
/-!
Reading a response from all that a server sends on a connection before it closes it: a head, which tells
how far the body reaches, and the body. Interim responses may come before.
-/
namespace Dispatch.Http

structure Head where
  isOld : Bool
  status : Status
  fields : List Field
  deriving Repr

/-- A body is all that comes, or so many bytes, or chunks. -/
inductive Extent
  | nothing
  | sized (count : Nat)
  | chunked
  | everything
  deriving DecidableEq, Repr

/-- The body is missing if the connection was closed too early or if the body is malformed. -/
structure Response where
  status : Status
  body : Option (List UInt8)
  deriving Repr

namespace Head

/-- Empty lines may come before a head. -/
def dropEmptyLines : List UInt8 → List UInt8
  | 13 :: 10 :: rest => dropEmptyLines rest
  | 10 :: rest => dropEmptyLines rest
  | stream => stream

/-- Whether the version is the old one, 1.0, and the status. A reason may follow. -/
def readStatusLine? (line : List Char) : Option (Bool × Status) := do
  match ← Text.after? "HTTP/1.".toList line with
  | minor :: ' ' :: a :: b :: c :: reason =>
    guard (minor = '0' || minor = '1')
    guard ([a, b, c].all Text.isDigit && (reason.isEmpty || reason.head? = some ' '))
    guard (reason.all isTextCharacter)
    let status : Status := { code := Nat.ofDigitChars 10 [a, b, c] 0 }
    guard status.isValid
    return (minor = '0', status)
  | _ => none

def read? (stream : List UInt8) : Option (Head × List UInt8) := do
  let (line, rest) ← takeLine? (dropEmptyLines stream)
  let (isOld, status) ← readStatusLine? (characters line)
  let (fields, rest) ← Field.readAll? Field.limit rest
  return ({ isOld, status, fields }, rest)

/-- The first head that is not interim. Each head takes a byte at least, so as many as there are bytes
are enough. -/
def readFinal? : (heads : Nat) → List UInt8 → Option (Head × List UInt8)
  | 0, _ => none
  | heads + 1, stream => do
    let (head, rest) ← read? stream
    if head.status.isInterim then readFinal? heads rest else return (head, rest)

def largestLength : Nat := UInt64.size - 3

/-- A length may be given more than once, but always the same. -/
def readLength? (values : List (List Char)) : Option Nat := do
  guard (values.all fun value => value.all isVisible)
  let lengths ← (values.flatMap (Text.fields ',')).mapM fun part =>
    (Text.readDigits largestLength (Text.trim part)).toOption
  let first ← lengths.head?
  guard (lengths.all (· = first))
  return first

/-- Whether chunks are the last of the codings. -/
def isChunked (coding : List Char) : Bool :=
  coding.all isVisible && (Text.fields ',' coding).getLast?.any fun last =>
    (Text.trim last).map Char.toLower = "chunked".toList

/-- Chunks go before a length. The old version has no codings. -/
def extent? (head : Head) : Option Extent :=
  if head.status.hasNoBody then some .nothing
  else
    match (Field.values "transfer-encoding" head.fields).getLast? with
    | some coding =>
      if head.isOld then none else some (if isChunked coding then .chunked else .everything)
    | none =>
      match Field.values "content-length" head.fields with
      | [] => some .everything
      | values => (readLength? values).map .sized

end Head

def Extent.take? : Extent → List UInt8 → Option (List UInt8)
  | nothing, _ => some []
  | sized count, stream => if stream.length < count then none else some (stream.take count)
  | chunked, stream => Chunk.readAll? stream
  | everything, stream => some stream

/-- No response: the connection was closed before the end of a head, or a head is malformed. -/
def Response.read? (stream : List UInt8) : Option Response := do
  let (head, rest) ← Head.readFinal? stream.length stream
  let extent ← head.extent?
  return { status := head.status, body := extent.take? rest }

end Dispatch.Http
