import Dispatch.Text.Basic
/-!
Addresses of HTTP requests: which texts are addresses, and what part of one is sent to the server.
-/
namespace Dispatch.Http

/-- Without a scheme an address is an authority alone or a path alone. The target is the path with its
query, without the fragment. -/
structure Url where
  scheme : Option String
  authority : String
  target : String
  deriving DecidableEq, Repr, Inhabited

namespace Url

/-- In bytes. -/
def lengthLimit : Nat := 65534

def schemeLimit : Nat := 64

def colonLimit : Nat := 8

def continuesScheme (c : Char) : Bool := c.isAlphanum || "+-.~".toList.contains c

/-- The scheme in front of a colon and two slashes, and what follows it. -/
def cutScheme? (text : List Char) : Option (List Char × List Char) :=
  let scheme := text.takeWhile continuesScheme
  (Text.after? "://".toList (text.drop scheme.length)).map fun rest => (scheme, rest)

def endsAuthority (c : Char) : Bool := c = '/' || c = '?' || c = '#'

def isAuthorityCharacter (c : Char) : Bool :=
  c.isAlphanum || "!$&'()*+,-.:;=@[]_~%".toList.contains c

/-- What an authority has shown so far. Colons and percent signs are forgotten when they turn out to be
inside brackets or in front of an at sign. -/
structure Scan where
  colons : Nat := 0
  opened : Bool := false
  closed : Bool := false
  percent : Bool := false
  endsInAt : Bool := false

namespace Scan

def step? (scan : Scan) (c : Char) : Option Scan := do
  guard (isAuthorityCharacter c)
  let scan := { scan with endsInAt := c = '@' }
  match c with
  | ':' =>
    guard (scan.colons < colonLimit)
    return { scan with colons := scan.colons + 1 }
  | '[' =>
    guard (!scan.percent && !scan.opened)
    return { scan with opened := true }
  | ']' =>
    guard (scan.opened && !scan.closed)
    return { scan with closed := true, colons := 0, percent := false }
  | '@' => return { scan with colons := 0, percent := false }
  | '%' => return { scan with percent := true }
  | _ => return scan

/-- One colon at most is left for a port, and a host follows the at sign. -/
def isComplete (scan : Scan) : Bool :=
  scan.opened == scan.closed && scan.colons ≤ 1 && !scan.endsInAt && !scan.percent

end Scan

def isAuthority (text : List Char) : Bool := ((text.foldlM Scan.step? {}).map Scan.isComplete).getD false

/-- What need not be escaped in a path, and what is let through though it should be. -/
def isPathCharacter (c : Char) : Bool :=
  let code := c.toNat
  code = 0x21 || (0x24 ≤ code && code ≤ 0x3B) || code = 0x3D || (0x40 ≤ code && code ≤ 0x5F) ||
    (0x61 ≤ code && code ≤ 0x7E) || code = 0x22 || 0x80 ≤ code

def isQueryCharacter (c : Char) : Bool :=
  let code := c.toNat
  code = 0x21 || (0x24 ≤ code && code ≤ 0x3B) || code = 0x3D || (0x3F ≤ code && code ≠ 0x7F)

/-- A path, a query after a question mark, and a fragment after a number sign, which may hold anything.
An empty path stands for the root. -/
def target? (text : List Char) : Option String := do
  let sent := text.takeWhile (· ≠ '#')
  let path := sent.takeWhile (· ≠ '?')
  let query := sent.drop path.length
  guard (path.all isPathCharacter && query.all isQueryCharacter)
  return String.ofList ((if path.isEmpty then ['/'] else path) ++ query)

/-- An authority, which must not be empty, and a target. -/
def readAfterScheme? (scheme : List Char) (text : List Char) : Option Url := do
  let authority := text.takeWhile fun c => !endsAuthority c
  guard (scheme.length ≤ schemeLimit && isAuthority authority && !authority.isEmpty)
  let target ← target? (text.drop authority.length)
  return { scheme := some (String.ofList scheme), authority := String.ofList authority, target }

def readChars? (text : List Char) : Option Url :=
  match text with
  | [] => none
  | ['*'] => some { scheme := none, authority := "", target := "*" }
  | '/' :: _ => (target? text).map fun target => { scheme := none, authority := "", target }
  | text =>
    match cutScheme? text with
    | some (scheme, rest) => readAfterScheme? scheme rest
    | none =>
      if isAuthority text then some { scheme := none, authority := String.ofList text, target := "/" }
      else none

def read? (text : String) : Option Url :=
  if lengthLimit < text.utf8ByteSize then none else readChars? text.toList

end Url

end Dispatch.Http
