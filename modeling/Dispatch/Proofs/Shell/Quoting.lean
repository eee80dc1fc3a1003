import Dispatch.Cloud.Launch
import Dispatch.Proofs.Shell.Words
/-!
What the shell reads where a text has been quoted: one word, which is the text. Plain texts are words as they
are, and so the lines that run a command in a directory and in the background are read as they are meant.
-/
namespace Dispatch.Shell

/-- A character that is nothing but itself outside quotes, wherever in a word it stands. -/
def isPlain (c : Char) : Bool :=
  !(endsWord c || isExpanded c || c = '\'' || c = '"' || c = '\\' || c = '#')

namespace Scan

theorem run_plain (word : Word) (text rest : List Char) (plain : ∀ c ∈ text, isPlain c = true) :
    (inWord word).run (text ++ rest) = (inWord { word with text := word.text ++ text }).run rest := by
  induction text generalizing word with
  | nil => simp
  | cons c text ih =>
    have first := plain c (by simp)
    simp only [isPlain, Bool.not_eq_true', Bool.or_eq_false_iff, decide_eq_false_iff_not] at first
    have moved : (inWord word).step c = (inWord { word with text := word.text ++ [c] }, []) := by
      simp [step, add, Word.offer, Word.put, first]
    rw [List.cons_append, run, moved, ih _ fun other member => plain other (by simp [member])]
    simp

theorem start_plain {c : Char} (plain : isPlain c = true) :
    start c = inWord { text := [c] } := by
  simp only [isPlain, endsWord, Bool.not_eq_true', Bool.or_eq_false_iff, decide_eq_false_iff_not] at plain
  simp [start, add, Word.offer, Word.put, plain]

/-- Between the outer quotes the reader collects the text itself; a quote of the text closes the outer quotes,
is read between double ones, and opens the outer ones again. -/
theorem run_quoted (front text rest : List Char) :
    (inSingle { text := front, isQuoted := true }).run
        (text.flatMap (fun c => if c = '\'' then "'\"'\"'".toList else [c]) ++ rest) =
      (inSingle { text := front ++ text, isQuoted := true }).run rest := by
  induction text generalizing front with
  | nil => simp
  | cons c text ih =>
    have onward : (inSingle { text := front ++ c :: text, isQuoted := true }).run rest =
        (inSingle { text := (front ++ [c]) ++ text, isQuoted := true }).run rest := by simp
    -- A quote takes the reader out of the outer quotes and back, any other character leaves it inside.
    rw [onward, ← ih (front ++ [c])]
    by_cases quote : c = '\''
    · subst quote
      rfl
    · simp [quote, run, step, Word.put]

end Scan

theorem spells_plain (text : List Char) (filled : text ≠ []) (plain : ∀ c ∈ text, isPlain c = true) :
    Spells text [.word text] := by
  cases text with
  | nil => exact absurd rfl filled
  | cons c rest =>
    have begun := Scan.start_plain (plain c (by simp))
    have read := Scan.run_plain { text := [c] } rest [' '] fun other member => plain other (by simp [member])
    rw [Spells, List.cons_append, Scan.run, Scan.step, begun, read]
    simp [Scan.run, Scan.step, endsWord, isSeparator, Scan.start, Word.tokenBefore, Word.token]

/-- Whatever its characters are, a quoted text is read as one word, and nothing in it is expanded. -/
theorem spells_quoteChars (text : List Char) : Spells (quoteChars text) [.word text] := by
  have opened : Scan.between.step '\'' = (.inSingle { text := [], isQuoted := true }, []) := rfl
  have read := Scan.run_quoted [] text ['\'', ' ']
  have apart : quoteChars text ++ [' '] =
      '\'' :: (text.flatMap (fun c => if c = '\'' then "'\"'\"'".toList else [c]) ++ ['\'', ' ']) := by
    simp [quoteChars]
  rw [Spells, apart, Scan.run, opened, read]
  simp [Scan.run, Scan.step, endsWord, isSeparator, Scan.start, Word.tokenBefore, Word.token]

theorem toList_quote (text : String) : (quote text).toList = quoteChars text.toList := by
  simp [quote, onChars]

theorem spells_quote (text : String) : Spells (quote text).toList [.word text.toList] := by
  rw [toList_quote]
  exact spells_quoteChars text.toList

end Dispatch.Shell
