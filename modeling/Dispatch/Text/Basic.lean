/-!
Text as lists of characters: blanks, trimming, words, lines, fields, search and replacement.
Everything here recurses on the text itself, so each function is its own equation lemma.
-/
namespace Dispatch.Text

/-- The characters with the Unicode property White_Space. -/
def isBlank (c : Char) : Bool :=
  let code := c.toNat
  (9 ≤ code && code ≤ 13) || code == 0x20 || code == 0x85 || code == 0xA0 || code == 0x1680 ||
    (0x2000 ≤ code && code ≤ 0x200A) || code == 0x2028 || code == 0x2029 || code == 0x202F ||
    code == 0x205F || code == 0x3000

theorem isBlank_of_isWhitespace (c : Char) (white : c.isWhitespace = true) : isBlank c = true := by
  simp only [Char.isWhitespace, Bool.or_eq_true, decide_eq_true_eq] at white
  rcases white with ((same | same) | same) | same <;> subst same <;> decide

def trimStart (text : List Char) : List Char := text.dropWhile isBlank

/-- Drops the longest run of characters with the given property from the end. -/
def dropEndWhile (drop : Char → Bool) (text : List Char) : List Char :=
  (text.reverse.dropWhile drop).reverse

def trimEnd (text : List Char) : List Char := dropEndWhile isBlank text

def trim (text : List Char) : List Char := trimEnd (trimStart text)

/-- The maximal runs of characters that are not blank. -/
def words : List Char → List (List Char)
  | [] => []
  | [c] => if isBlank c then [] else [[c]]
  | c :: d :: rest =>
    if isBlank c then words (d :: rest)
    else if isBlank d then [c] :: words (d :: rest)
    else match words (d :: rest) with
      | [] => [[c]]
      | word :: others => (c :: word) :: others

/-- Lines end at a line feed, which takes one carriage return before it along; text after the
last line feed is a line only if there is some. -/
def lines : List Char → List (List Char)
  | [] => []
  | '\n' :: rest => [] :: lines rest
  | '\r' :: '\n' :: rest => [] :: lines rest
  | c :: rest =>
    match lines rest with
    | [] => [[c]]
    | line :: others => (c :: line) :: others

/-- The pieces between the separators: one more than there are separators. -/
def fields (separator : Char) : List Char → List (List Char)
  | [] => [[]]
  | c :: rest =>
    if c = separator then [] :: fields separator rest
    else match fields separator rest with
      | [] => [[c]]
      | field :: others => (c :: field) :: others

/-- What stands before and after the first separator. -/
def cut? (separator : Char) : List Char → Option (List Char × List Char)
  | [] => none
  | c :: rest =>
    if c = separator then some ([], rest)
    else (cut? separator rest).map fun (before, after) => (c :: before, after)

/-- What follows `lead` in a text that begins with it. -/
def after? : (lead text : List Char) → Option (List Char)
  | [], text => some text
  | _ :: _, [] => none
  | a :: lead, c :: text => if a = c then after? lead text else none

/-- What precedes `tail` in a text that ends with it. -/
def before? (tail text : List Char) : Option (List Char) :=
  (after? tail.reverse text.reverse).map List.reverse

def beginsWith (lead text : List Char) : Bool := (after? lead text).isSome

/-- What stands before and after the first occurrence of `needle`. -/
def around? (needle : List Char) : List Char → Option (List Char × List Char)
  | [] => if needle.isEmpty then some ([], []) else none
  | c :: rest =>
    match after? needle (c :: rest) with
    | some after => some ([], after)
    | none => (around? needle rest).map fun (before, after) => (c :: before, after)

def hasPart (needle text : List Char) : Bool := (around? needle text).isSome

/-- `skip` characters belong to an occurrence that has been replaced already. -/
def replaceFrom (needle insert : List Char) : (skip : Nat) → List Char → List Char
  | _, [] => []
  | skip + 1, _ :: rest => replaceFrom needle insert skip rest
  | 0, c :: rest =>
    if beginsWith needle (c :: rest) then
      insert ++ replaceFrom needle insert (needle.length - 1) rest
    else c :: replaceFrom needle insert 0 rest

/-- Replaces the occurrences of a needle that is not empty, found from the left without overlap. -/
def replace (needle insert text : List Char) : List Char := replaceFrom needle insert 0 text

/-- The first line that is not blank, trimmed. -/
def firstFilledLine? (text : List Char) : Option (List Char) :=
  ((lines text).map trim).find? fun line => !line.isEmpty

end Dispatch.Text

namespace Dispatch

/-- Applies a function on characters to a string. -/
def onChars (change : List Char → List Char) (text : String) : String :=
  String.ofList (change text.toList)

end Dispatch
