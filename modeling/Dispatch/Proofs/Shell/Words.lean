import Dispatch.Shell.Command
/-!
How a POSIX shell takes a line apart: blanks separate words, operators are known outside quotes only, and
single and double quotes keep together what they hold. The reader expands nothing, but it tells a word that
stands for itself from one in which a shell would put something else in place.
-/
namespace Dispatch.Shell

/-- A part of a line. A descriptor is the number in front of a redirection. -/
inductive Token
  | word (text : List Char)
  | expanding (text : List Char)
  | descriptor (digits : List Char)
  | operator (text : List Char)
  deriving DecidableEq, Repr

/-- A word as far as it has been read. -/
structure Word where
  text : List Char := []
  isQuoted : Bool := false
  expands : Bool := false
  deriving DecidableEq, Repr

namespace Word

/-- A character that stands for itself. -/
def put (word : Word) (c : Char) : Word := { word with text := word.text ++ [c] }

def quoted (word : Word) : Word := { word with isQuoted := true }

/-- A character that stands for itself, unless the shell expands it. -/
def offer (word : Word) (isExpanded : Bool) (c : Char) : Word :=
  { word.put c with expands := word.expands || isExpanded }

def token (word : Word) : Token := if word.expands then .expanding word.text else .word word.text

/-- The word that ends before a character: digits before a redirection are a descriptor. -/
def tokenBefore (word : Word) (c : Char) : Token :=
  if !word.isQuoted && word.text.all Char.isDigit && (c = '<' || c = '>') then .descriptor word.text
  else word.token

end Word

/-- Where a reader is in a line. -/
inductive Scan
  | between
  | inWord (word : Word)
  | inSingle (word : Word)
  | inDouble (word : Word)
  | escaped (word : Word)
  | escapedInDouble (word : Word)
  | inOperator (text : List Char)
  | inComment
  deriving DecidableEq, Repr

def isSeparator (c : Char) : Bool := c = ' ' || c = '\t'

def isOperator (c : Char) : Bool := ['&', ';', '|', '<', '>', '(', ')'].contains c

/-- What parameters and commands are put in place of, also between double quotes. -/
def isSubstituted (c : Char) : Bool := c = '$' || c = '\x60'

/-- What is expanded outside quotes: beside substitutions the patterns of file names and homes. -/
def isExpanded (c : Char) : Bool := isSubstituted c || ['*', '?', '[', '~'].contains c

/-- A word outside quotes goes on until one of these. -/
def endsWord (c : Char) : Bool := isSeparator c || c = '\n' || isOperator c

/-- The operators of more than one character. -/
def longOperators : List (List Char) :=
  ["&&", "||", ";;", "<<", ">>", "<&", ">&", "<>", "<<-", ">|"].map String.toList

namespace Scan

/-- A character of a word outside quotes. -/
def add (word : Word) (c : Char) : Scan :=
  if c = '\'' then inSingle word.quoted
  else if c = '"' then inDouble word.quoted
  else if c = '\\' then escaped word
  else inWord (word.offer (isExpanded c) c)

/-- The first character of what comes next. -/
def start (c : Char) : Scan :=
  if isSeparator c then between
  else if c = '\n' || isOperator c then inOperator [c]
  else if c = '#' then inComment
  else add {} c

/-- A backslash takes a line feed away, and lets any other character stand for itself. -/
def unescape (word : Word) (c : Char) : Scan :=
  if c = '\n' then (if word.text.isEmpty && !word.isQuoted then between else inWord word)
  else inWord (word.quoted.put c)

/-- Between double quotes a backslash stands for itself before most characters. -/
def unescapeInDouble (word : Word) (c : Char) : Scan :=
  if isSubstituted c || c = '"' || c = '\\' then inDouble (word.put c)
  else if c = '\n' then inDouble word
  else inDouble ((word.put '\\').put c)

/-- One character further, with the token that this completes. -/
def step : Scan → Char → Scan × List Token
  | between, c => (start c, [])
  | inWord word, c => if endsWord c then (start c, [word.tokenBefore c]) else (add word c, [])
  | inSingle word, c => if c = '\'' then (inWord word, []) else (inSingle (word.put c), [])
  | inDouble word, c =>
    if c = '"' then (inWord word, [])
    else if c = '\\' then (escapedInDouble word, [])
    else (inDouble (word.offer (isSubstituted c) c), [])
  | escaped word, c => (unescape word c, [])
  | escapedInDouble word, c => (unescapeInDouble word c, [])
  | inOperator text, c =>
    if longOperators.contains (text ++ [c]) then (inOperator (text ++ [c]), [])
    else (start c, [.operator text])
  | inComment, c => (if c = '\n' then inOperator [c] else inComment, [])

/-- The place after a text, and the tokens completed on the way. -/
def run : Scan → List Char → Scan × List Token
  | scan, [] => (scan, [])
  | scan, c :: rest => ((run (step scan c).1 rest).1, (step scan c).2 ++ (run (step scan c).1 rest).2)

/-- What the end of the line completes; nothing if a quote or a backslash is left open. -/
def finish : Scan → Option (List Token)
  | between | inComment => some []
  | inWord word => some [word.token]
  | inOperator text => some [.operator text]
  | inSingle _ | inDouble _ | escaped _ | escapedInDouble _ => none

theorem run_append (scan : Scan) (first second : List Char) :
    scan.run (first ++ second) =
      (((scan.run first).1.run second).1, (scan.run first).2 ++ ((scan.run first).1.run second).2) := by
  induction first generalizing scan with
  | nil => rfl
  | cons c rest ih => simp only [List.cons_append, run, ih, List.append_assoc]

/-- A blank after the line completes the same tokens as its end. -/
theorem finish_of_step {scan : Scan} {tokens : List Token} (ended : scan.step ' ' = (between, tokens)) :
    scan.finish = some tokens := by
  cases scan with
  | between => simpa [step, start, isSeparator, finish] using ended
  | inWord word =>
    simpa [step, start, endsWord, isSeparator, finish, Word.tokenBefore] using ended
  | inOperator text =>
    by_cases longer : longOperators.contains (text ++ [' '])
    · rw [step, if_pos longer] at ended
      cases ended
    · rw [step, if_neg longer] at ended
      simpa [start, isSeparator, finish] using ended
  | inComment => simp [step] at ended
  | inSingle word => simp [step] at ended
  | inDouble word => simp [step] at ended
  | escaped word => simp [step, unescape] at ended
  | escapedInDouble word => simp [step, unescapeInDouble, isSubstituted] at ended

end Scan

/-- The tokens of a line; none if a quote is left open. -/
def split (line : String) : Option (List Token) :=
  let (scan, tokens) := Scan.between.run line.toList
  scan.finish.map (tokens ++ ·)

/-- With a blank after it, a text is read as these tokens and nothing is left over. -/
def Spells (text : List Char) (tokens : List Token) : Prop :=
  Scan.between.run (text ++ [' ']) = (.between, tokens)

theorem split_of_spells {line : String} {tokens : List Token} (spelt : Spells line.toList tokens) :
    split line = some tokens := by
  rw [Spells, Scan.run_append] at spelt
  simp only [Scan.run, List.append_nil, Prod.mk.injEq] at spelt
  have ended : (Scan.between.run line.toList).1.step ' ' =
      (.between, ((Scan.between.run line.toList).1.step ' ').2) := Prod.ext spelt.1 rfl
  simp only [split, Scan.finish_of_step ended, Option.map_some, spelt.2]

/-- Texts with a blank between them are read one after the other. -/
theorem Spells.append {first second : List Char} {before after : List Token} (head : Spells first before)
    (tail : Spells second after) : Spells (first ++ ' ' :: second) (before ++ after) := by
  have apart : first ++ ' ' :: second ++ [' '] = (first ++ [' ']) ++ (second ++ [' ']) := by simp
  rw [Spells, apart, Scan.run_append, head, tail]

end Dispatch.Shell
