import Dispatch.Http.Field
/-!
Bodies in chunks: each chunk has a line with its size in hexadecimal digits before it, and an empty chunk
is the last, with fields and an empty line after it.
-/
namespace Dispatch.Http

namespace Chunk

/-- What is to come next. Sizes are those of the present chunk. -/
inductive Place
  | size
  | moreSize (size : Nat)
  | afterSize (size : Nat)
  | extension (size : Nat)
  | sizeEnd (size : Nat)
  | data (left : Nat)
  | dataEnd
  | dataLineEnd
  | fieldLine
  | field
  | fieldEnd
  | lastLineEnd
  | finished
  deriving DecidableEq, Repr

/-- What has been read. Bytes are kept in reverse, of extensions only their number. -/
structure Reading where
  place : Place := .size
  body : List UInt8 := []
  fields : List UInt8 := []
  extensions : Nat := 0

def hexValue? (byte : UInt8) : Option Nat :=
  if 48 ≤ byte && byte ≤ 57 then some (byte.toNat - 48)
  else if 65 ≤ byte && byte ≤ 70 then some (byte.toNat - 55)
  else if 97 ≤ byte && byte ≤ 102 then some (byte.toNat - 87)
  else none

/-- What follows the digits of a size: blanks, and an extension after a semicolon, which means nothing. -/
def afterSize? (size : Nat) (byte : UInt8) : Option Place :=
  if byte = 9 || byte = 32 then some (.afterSize size)
  else if byte = 59 then some (.extension size)
  else if byte = carriageReturn then some (.sizeEnd size)
  else none

def moreSize? (size : Nat) (byte : UInt8) : Option Place :=
  match hexValue? byte with
  | some digit => if 16 * size + digit < UInt64.size then some (.moreSize (16 * size + digit)) else none
  | none => afterSize? size byte

def expect? (byte wanted : UInt8) (next : Place) : Option Place :=
  if byte = wanted then some next else none

def Place.step? (byte : UInt8) : Place → Option Place
  | .size => (hexValue? byte).map .moreSize
  | .moreSize count => moreSize? count byte
  | .afterSize count => afterSize? count byte
  | .extension count =>
    if byte = carriageReturn then some (.sizeEnd count)
    else if byte = lineFeed then none
    else some (.extension count)
  | .sizeEnd count => expect? byte lineFeed (if count = 0 then .fieldLine else .data count)
  | .data left => some (if left ≤ 1 then .dataEnd else .data (left - 1))
  | .dataEnd => expect? byte carriageReturn .dataLineEnd
  | .dataLineEnd => expect? byte lineFeed .size
  | .fieldLine => some (if byte = carriageReturn then .lastLineEnd else .field)
  | .field => some (if byte = carriageReturn then .fieldEnd else .field)
  | .fieldEnd => expect? byte lineFeed .fieldLine
  | .lastLineEnd => expect? byte lineFeed .finished
  | .finished => some .finished

def Place.isInFields : Place → Bool
  | .fieldLine | .field | .fieldEnd | .lastLineEnd => true
  | _ => false

def Reading.step? (reading : Reading) (byte : UInt8) : Option Reading := do
  let place ← reading.place.step? byte
  match reading.place, place with
  | .data _, _ => return { reading with place, body := byte :: reading.body }
  | .extension _, .extension _ => return { reading with place, extensions := reading.extensions + 1 }
  | before, _ =>
    return { reading with
      place
      fields := if before.isInFields then byte :: reading.fields else reading.fields }

/-- All extensions together have fewer bytes, and so have the fields with the empty line after them. -/
def sizeLimit : Nat := 16384

/-- How many lines there are before the empty line at the end. Only a carriage return and a line feed
together end a line here. -/
def Reading.lineCount (reading : Reading) : Nat := reading.fields.count carriageReturn - 1

/-- Whether the body is complete. A line feed alone may end a field, but there are no more fields than
lines, and fewer lines than a head may have fields. -/
def Reading.isComplete (reading : Reading) : Bool :=
  reading.place = .finished && reading.extensions < sizeLimit && reading.fields.length < sizeLimit &&
    reading.lineCount < Field.limit && (Field.readAll? reading.lineCount reading.fields.reverse).isSome

/-- The body in a stream that begins with its first chunk; what follows its last line does not matter. -/
def readAll? (stream : List UInt8) : Option (List UInt8) := do
  let reading ← stream.foldlM Reading.step? {}
  guard reading.isComplete
  return reading.body.reverse

end Chunk

end Dispatch.Http
