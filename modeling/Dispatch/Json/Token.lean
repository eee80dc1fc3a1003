import Dispatch.Json.Number
/-!
The tokens of a JSON text, read in one pass from left to right.
-/
namespace Dispatch.Json

inductive Token
  | leftBrace
  | rightBrace
  | leftBracket
  | rightBracket
  | comma
  | colon
  | null
  | bool (value : Bool)
  | string (value : Option String)
  | number (value : Option Number)
  deriving Repr

namespace Token

def hexDigit? (c : Char) : Option Nat :=
  if '0' ≤ c && c ≤ '9' then some (c.toNat - '0'.toNat)
  else if 'a' ≤ c && c ≤ 'f' then some (c.toNat - 'a'.toNat + 10)
  else if 'A' ≤ c && c ≤ 'F' then some (c.toNat - 'A'.toNat + 10)
  else none

/-- A string in progress: the characters so far in reverse, unless half a surrogate pair was met;
the upper half that waits for its lower half; and the state of an escape sequence. -/
structure Partial where
  characters : Option (List Char) := some []
  upperHalf : Option Nat := none
  escape : Option (List Nat) := none
  escaping : Bool := false

namespace Partial

/-- An upper half that was not followed by a lower one makes the string unreadable. -/
def settle (part : Partial) : Partial :=
  match part.upperHalf with
  | none => part
  | some _ => { part with characters := none, upperHalf := none }

def push (c : Char) (part : Partial) : Partial :=
  let part := part.settle
  { part with characters := part.characters.map (c :: ·), escaping := false, escape := none }

/-- Takes a code unit written with four hexadecimal digits. -/
def pushUnit (unit : Nat) (part : Partial) : Partial :=
  let part := { part with escape := none, escaping := false }
  match part.upperHalf with
  | some upper =>
    if 0xDC00 ≤ unit && unit < 0xE000 then
      let code := 0x10000 + (upper - 0xD800) * 0x400 + (unit - 0xDC00)
      { part with characters := part.characters.map (Char.ofNat code :: ·), upperHalf := none }
    else if 0xD800 ≤ unit && unit < 0xDC00 then { part with characters := none, upperHalf := some unit }
    else { part with characters := none, upperHalf := none }
  | none =>
    if 0xD800 ≤ unit && unit < 0xDC00 then { part with upperHalf := some unit }
    else if 0xDC00 ≤ unit && unit < 0xE000 then { part with characters := none }
    else { part with characters := part.characters.map (Char.ofNat unit :: ·) }

def value (part : Partial) : Option String :=
  part.settle.characters.map fun characters => String.ofList characters.reverse

end Partial

/-- What the reader is in the middle of. -/
inductive Mode
  | between
  | inString (part : Partial)
  | inWord (letters : List Char)
  | inNumber (characters : List Char)

/-- The tokens so far in reverse, and what is being read. -/
structure Progress where
  tokens : List Token := []
  mode : Mode := .between

def ofWord? (letters : List Char) : Option Token :=
  match String.ofList letters with
  | "null" => some .null
  | "true" => some (.bool true)
  | "false" => some (.bool false)
  | _ => none

/-- Whether a character can stand in a number. -/
def inNumberClass (c : Char) : Bool :=
  Text.isDigit c || c == '+' || c == '-' || c == '.' || c == 'e' || c == 'E'

def isLetter (c : Char) : Bool := 'a' ≤ c && c ≤ 'z'

/-- Ends a word or a number that the next character does not continue. -/
def flush (progress : Progress) : Option Progress :=
  match progress.mode with
  | .between => some progress
  | .inString _ => none
  | .inWord letters => do
    let token ← ofWord? letters.reverse
    return { tokens := token :: progress.tokens, mode := .between }
  | .inNumber characters => do
    let value ← Number.ofLiteral? characters.reverse
    return { tokens := .number value :: progress.tokens, mode := .between }

def start (tokens : List Token) (c : Char) : Option Progress :=
  match c with
  | ' ' | '\n' | '\t' | '\r' => some { tokens, mode := .between }
  | '\x7b' => some { tokens := .leftBrace :: tokens, mode := .between }
  | '\x7d' => some { tokens := .rightBrace :: tokens, mode := .between }
  | '[' => some { tokens := .leftBracket :: tokens, mode := .between }
  | ']' => some { tokens := .rightBracket :: tokens, mode := .between }
  | ',' => some { tokens := .comma :: tokens, mode := .between }
  | ':' => some { tokens := .colon :: tokens, mode := .between }
  | '"' => some { tokens, mode := .inString {} }
  | c =>
    if isLetter c then some { tokens, mode := .inWord [c] }
    else if inNumberClass c then some { tokens, mode := .inNumber [c] }
    else none

def stepString (tokens : List Token) (part : Partial) (c : Char) : Option Progress :=
  match part.escape with
  | some digits => do
    let digit ← hexDigit? c
    let digits := digit :: digits
    let next :=
      if digits.length = 4 then part.pushUnit (digits.foldr (fun digit unit => unit * 16 + digit) 0)
      else { part with escape := some digits }
    return { tokens, mode := .inString next }
  | none =>
    if part.escaping then
      let keep (c : Char) : Option Progress := some { tokens, mode := .inString (part.push c) }
      match c with
      | '"' => keep '"'
      | '\\' => keep '\\'
      | '/' => keep '/'
      | 'b' => keep '\x08'
      | 'f' => keep '\x0c'
      | 'n' => keep '\n'
      | 'r' => keep '\r'
      | 't' => keep '\t'
      | 'u' => some { tokens, mode := .inString { part with escape := some [] } }
      | _ => none
    else match c with
      | '"' => some { tokens := .string part.value :: tokens, mode := .between }
      | '\\' => some { tokens, mode := .inString { part with escaping := true } }
      | c => if c.toNat < 0x20 then none else some { tokens, mode := .inString (part.push c) }

def step (progress : Progress) (c : Char) : Option Progress :=
  match progress.mode with
  | .between => start progress.tokens c
  | .inString part => stepString progress.tokens part c
  | .inWord letters =>
    if isLetter c then some { progress with mode := .inWord (c :: letters) }
    else (flush progress).bind fun done => start done.tokens c
  | .inNumber characters =>
    if inNumberClass c then some { progress with mode := .inNumber (c :: characters) }
    else (flush progress).bind fun done => start done.tokens c

/-- The tokens of a text, unless some character has no place in one. -/
def scan? (text : List Char) : Option (List Token) := do
  let progress ← text.foldlM step {}
  let done ← flush progress
  return done.tokens.reverse

end Token

end Dispatch.Json
