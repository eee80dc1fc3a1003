import Dispatch.Text.Basic
/-!
How a description of a virtual machine is taken apart. Attributes have names, values stand behind equals signs,
and brackets keep attributes together. What is between double quotes is one value; in it a backslash takes the
character behind it as it is.
-/
namespace Dispatch.Cloud.Attributes

/-- A part of a description. -/
inductive Piece
  | name (text : List Char)
  | opening
  | closing
  | bare (text : List Char)
  | value (text : List Char)
  deriving DecidableEq, Repr

/-- Where a reader is in a description. -/
inductive Scan
  | outside (word : List Char)
  | inside (text : List Char)
  | escaped (text : List Char)
  deriving DecidableEq, Repr

/-- A word that no equals sign has made a name. -/
def bareWord (word : List Char) : List Piece := if word = [] then [] else [.bare word]

/-- Commas and blanks part what they stand between. -/
def isSeparator (c : Char) : Bool := [',', ' ', '\n', '\t'].contains c

/-- A word outside quotes goes on until one of these. -/
def endsWord (c : Char) : Bool := isSeparator c || ['=', '[', ']', '"'].contains c

namespace Scan

/-- One character on, with the pieces that it completes. -/
def step : Scan → Char → Scan × List Piece
  | outside word, c =>
    if c = '"' then (inside [], bareWord word)
    else if c = '=' then (outside [], [.name word])
    else if c = '[' then (outside [], bareWord word ++ [.opening])
    else if c = ']' then (outside [], bareWord word ++ [.closing])
    else if isSeparator c then (outside [], bareWord word)
    else (outside (word ++ [c]), [])
  | inside text, c =>
    if c = '"' then (outside [], [.value text])
    else if c = '\\' then (escaped text, [])
    else (inside (text ++ [c]), [])
  | escaped text, c => (inside (text ++ [c]), [])

def run : Scan → List Char → Scan × List Piece
  | scan, [] => (scan, [])
  | scan, c :: rest =>
    let (next, pieces) := scan.step c
    let (last, more) := next.run rest
    (last, pieces ++ more)

end Scan

/-- The pieces of a text, if every quote in it is closed. -/
def read (text : List Char) : Option (List Piece) :=
  match (Scan.outside []).run text with
  | (.outside word, pieces) => some (pieces ++ bareWord word)
  | _ => none

/-- The names and the brackets among the pieces. -/
def outline (pieces : List Piece) : List Piece :=
  pieces.filter fun
    | .name _ | .opening | .closing => true
    | .bare _ | .value _ => false

/-- What is between the brackets of an attribute. -/
def group (name : String) : List Piece → List Piece
  | .name text :: .opening :: rest =>
    if text = name.toList then rest.takeWhile (· ≠ .closing) else group name rest
  | _ :: rest => group name rest
  | [] => []

/-- The first value that an attribute has. -/
def value? (name : String) : List Piece → Option (List Char)
  | .name text :: .value found :: rest => if text = name.toList then some found else value? name rest
  | _ :: rest => value? name rest
  | [] => none

/-- The first value that an attribute has within another one. -/
def valueOf (outer name : String) (pieces : List Piece) : Option (List Char) := value? name (group outer pieces)

/-- A text that stands for itself between quotes. -/
def IsOpaque (text : List Char) : Prop := '"' ∉ text ∧ '\\' ∉ text

instance (text : List Char) : Decidable (IsOpaque text) := inferInstanceAs (Decidable (_ ∧ _))

namespace Scan

theorem run_cons (scan : Scan) (c : Char) (rest : List Char) :
    scan.run (c :: rest) =
      (((scan.step c).1.run rest).1, (scan.step c).2 ++ ((scan.step c).1.run rest).2) := rfl

/-- What has been read before is put in front of the pieces. -/
theorem run_append (scan : Scan) (front rest : List Char) :
    scan.run (front ++ rest) =
      (((scan.run front).1.run rest).1, (scan.run front).2 ++ ((scan.run front).1.run rest).2) := by
  induction front generalizing scan with
  | nil => rfl
  | cons c front ih =>
    rw [List.cons_append, run_cons, ih, run_cons]
    simp only [List.append_assoc]

theorem run_append_of_eq {scan next : Scan} {front : List Char} {pieces : List Piece}
    (read : scan.run front = (next, pieces)) (rest : List Char) :
    scan.run (front ++ rest) = ((next.run rest).1, pieces ++ (next.run rest).2) := by
  rw [run_append, read]

/-- A word outside quotes goes on. -/
theorem run_outside {text : List Char} (word : List Char) (plain : ∀ c ∈ text, endsWord c = false) :
    (outside word).run text = (outside (word ++ text), []) := by
  induction text generalizing word with
  | nil => rw [List.append_nil]; rfl
  | cons c rest ih =>
    rw [List.forall_mem_cons] at plain
    have step : (outside word).step c = (outside (word ++ [c]), []) := by
      have parts := plain.1
      simp only [endsWord, Bool.or_eq_false_iff, List.contains_eq_mem, List.mem_cons, List.not_mem_nil, or_false,
        decide_eq_false_iff_not, not_or] at parts
      obtain ⟨word, equals, opening, closing, quote⟩ := parts
      rw [Scan.step, if_neg quote, if_neg equals, if_neg opening, if_neg closing, if_neg (by simpa using word)]
    rw [run_cons, step, ih _ plain.2]
    simp

/-- A text that stands for itself is taken as it is. -/
theorem run_inside {text : List Char} (front : List Char) (plain : IsOpaque text) :
    (inside front).run text = (inside (front ++ text), []) := by
  induction text generalizing front with
  | nil => rw [List.append_nil]; rfl
  | cons c rest ih =>
    obtain ⟨unquoted, unescaped⟩ := plain
    rw [List.mem_cons, not_or] at unquoted unescaped
    have step : (inside front).step c = (inside (front ++ [c]), []) := by
      rw [Scan.step, if_neg (Ne.symm unquoted.1), if_neg (Ne.symm unescaped.1)]
    rw [run_cons, step, ih _ ⟨unquoted.2, unescaped.2⟩]
    simp

end Scan

/-! ### Values between quotes -/

/-- What stands behind a quote up to the next one, -/
def gap (trail : List Char) : List Char := trail.tail.takeWhile (· ≠ '"')

/-- and what stands behind that. -/
def beyond (trail : List Char) : List Char := (trail.tail.dropWhile (· ≠ '"')).tail

/-- A text that closes a value, and in which the sign of an assignment stands before the next quote. -/
structure IsTrail (trail : List Char) (next : Scan) (pieces : List Piece) : Prop where
  shape : trail = '"' :: (gap trail ++ '"' :: beyond trail)
  plain : IsOpaque (gap trail)
  assigns : (gap trail).getLast? = some '='
  read : (Scan.outside []).run trail.tail = (next, pieces)

instance (trail : List Char) (next : Scan) (pieces : List Piece) : Decidable (IsTrail trail next pieces) :=
  decidable_of_iff
    (trail = '"' :: (gap trail ++ '"' :: beyond trail) ∧ IsOpaque (gap trail) ∧
      (gap trail).getLast? = some '=' ∧ (Scan.outside []).run trail.tail = (next, pieces))
    ⟨fun ⟨shape, plain, assigns, read⟩ => ⟨shape, plain, assigns, read⟩,
      fun ⟨shape, plain, assigns, read⟩ => ⟨shape, plain, assigns, read⟩⟩

namespace IsTrail

variable {trail : List Char} {next : Scan} {pieces : List Piece}

theorem eq_cons_tail (isTrail : IsTrail trail next pieces) : trail = '"' :: trail.tail := by
  obtain ⟨shape, -, -, -⟩ := isTrail
  cases trail with
  | nil => cases shape
  | cons c rest => rw [(List.cons.inj shape).1, List.tail_cons]

/-- What is read of a text goes on with what follows on it. -/
theorem append (isTrail : IsTrail trail next pieces) {more : List Char} {last : Scan} {others : List Piece}
    (read : next.run more = (last, others)) : IsTrail (trail ++ more) last (pieces ++ others) := by
  have unquoted : ∀ c ∈ gap trail, decide (c ≠ '"') = true := by
    intro c member
    exact decide_eq_true fun quote => isTrail.plain.1 (quote ▸ member)
  have shape : trail ++ more = '"' :: (gap trail ++ '"' :: (beyond trail ++ more)) :=
    calc
      trail ++ more = '"' :: (gap trail ++ '"' :: beyond trail) ++ more := congrArg (· ++ more) isTrail.shape
      _ = _ := by simp only [List.cons_append, List.append_assoc]
  have sameGap : gap (trail ++ more) = gap trail := by
    rw [gap, shape, List.tail_cons, List.takeWhile_append_of_pos unquoted]
    simp
  have sameBeyond : beyond (trail ++ more) = beyond trail ++ more := by
    rw [beyond, shape, List.tail_cons, List.dropWhile_append_of_pos unquoted]
    simp
  have tail : (trail ++ more).tail = trail.tail ++ more := by
    rw [isTrail.eq_cons_tail]
    rfl
  refine ⟨?_, sameGap ▸ isTrail.plain, sameGap ▸ isTrail.assigns, ?_⟩
  · rw [sameGap, sameBeyond]
    exact shape
  · rw [tail, Scan.run_append_of_eq isTrail.read, read]

/-- An opaque value is read as it is, and so is what stands behind it. -/
theorem run_opaque (isTrail : IsTrail trail next pieces) {value : List Char} (plain : IsOpaque value)
    (front rest : List Char) : (Scan.inside front).run (value ++ (trail ++ rest)) =
      ((next.run rest).1, .value (front ++ value) :: (pieces ++ (next.run rest).2)) := by
  have closing : (Scan.inside (front ++ value)).step '"' = (.outside [], [.value (front ++ value)]) := rfl
  have quote : trail ++ rest = '"' :: (trail.tail ++ rest) := congrArg (· ++ rest) isTrail.eq_cons_tail
  rw [Scan.run_append_of_eq (Scan.run_inside front plain), quote, Scan.run_cons, closing,
    Scan.run_append_of_eq isTrail.read]
  simp only [List.nil_append, List.singleton_append]

/-- A quote that is escaped does not close a value, so that it goes on to the next one. -/
theorem run_overrun (isTrail : IsTrail trail next pieces) (front rest : List Char) :
    ∃ more, ((Scan.escaped front).run (trail ++ rest)).2 = .value (front ++ '"' :: gap trail) :: more := by
  refine ⟨((Scan.outside []).run (beyond trail ++ rest)).2, ?_⟩
  have taken : (Scan.escaped front).step '"' = (.inside (front ++ ['"']), []) := rfl
  have closing : (Scan.inside (front ++ ['"'] ++ gap trail)).step '"' =
      (.outside [], [.value (front ++ ['"'] ++ gap trail)]) := rfl
  have quotes : trail ++ rest = '"' :: (gap trail ++ '"' :: (beyond trail ++ rest)) :=
    calc
      trail ++ rest = '"' :: (gap trail ++ '"' :: beyond trail) ++ rest := congrArg (· ++ rest) isTrail.shape
      _ = _ := by simp only [List.cons_append, List.append_assoc]
  rw [quotes, Scan.run_cons, taken, Scan.run_append_of_eq (Scan.run_inside _ isTrail.plain), Scan.run_cons, closing]
  simp only [List.nil_append, List.singleton_append, List.append_assoc]

end IsTrail

/-- What a text between quotes may be read as: cut short by a quote or an escape in it, as it is, or with more
than itself if there is a backslash before the closing quote. -/
inductive Reading (value found : List Char) : Prop
  | shortened (shorter : found.length < value.length)
  | exact (same : found = value) (plain : IsOpaque value)
  | overrun (escapes : value.getLast? = some '\\') (assigns : found.getLast? = some '=')

namespace Reading

variable {value found : List Char}

theorem isOpaque (reading : Reading value found) (same : found = value) : IsOpaque value := by
  cases reading with
  | shortened shorter => simp [same] at shorter
  | exact _ plain => exact plain
  | overrun escapes assigns =>
    rw [same, escapes] at assigns
    exact absurd assigns (by decide)

theorem getLast?_cons_of_some {c last : Char} {text : List Char} (found : text.getLast? = some last) :
    (c :: text).getLast? = some last := by
  rw [List.getLast?_cons, found, Option.getD_some]

theorem cons (reading : Reading value found) {c : Char} (unquoted : '"' ≠ c) (unescaped : '\\' ≠ c) :
    Reading (c :: value) (c :: found) := by
  cases reading with
  | shortened shorter => exact .shortened (by simpa using shorter)
  | exact same plain =>
    exact .exact (by rw [same]) ⟨by simp [unquoted, plain.1], by simp [unescaped, plain.2]⟩
  | overrun escapes assigns => exact .overrun (getLast?_cons_of_some escapes) (getLast?_cons_of_some assigns)

/-- An escape takes one character more than it gives. -/
theorem escape (reading : Reading value found) (c : Char) : Reading ('\\' :: c :: value) (c :: found) := by
  cases reading with
  | shortened shorter => exact .shortened (by simp only [List.length_cons]; omega)
  | exact same plain => exact .shortened (by simp [same])
  | overrun escapes assigns =>
    exact .overrun (getLast?_cons_of_some (getLast?_cons_of_some escapes)) (getLast?_cons_of_some assigns)

end Reading

/-- What follows on an opening quote, or on an escape after it, is first of all one value. -/
theorem reading_of_trail {trail : List Char} {next : Scan} {pieces : List Piece} (isTrail : IsTrail trail next pieces)
    (value rest front : List Char) :
    (∃ found more, ((Scan.inside front).run (value ++ (trail ++ rest))).2 = .value (front ++ found) :: more ∧
      Reading value found) ∧
    ∃ found more, ((Scan.escaped front).run (value ++ (trail ++ rest))).2 = .value (front ++ found) :: more ∧
      Reading ('\\' :: value) found := by
  induction value generalizing front with
  | nil =>
    constructor
    · refine ⟨[], pieces ++ (next.run rest).2, ?_, .exact rfl (by decide)⟩
      rw [isTrail.run_opaque (by decide)]
    · obtain ⟨more, read⟩ := isTrail.run_overrun front rest
      exact ⟨'"' :: gap trail, more, read, .overrun rfl (Reading.getLast?_cons_of_some isTrail.assigns)⟩
  | cons c value ih =>
    rw [List.cons_append]
    constructor
    · by_cases isQuote : c = '"'
      · subst isQuote
        refine ⟨[], ((Scan.outside []).run (value ++ (trail ++ rest))).2, ?_, .shortened (by simp)⟩
        rw [Scan.run_cons, List.append_nil]
        rfl
      · by_cases isEscape : c = '\\'
        · subst isEscape
          obtain ⟨found, more, read, reading⟩ := (ih front).2
          have step : (Scan.inside front).step '\\' = (.escaped front, []) := rfl
          refine ⟨found, more, ?_, reading⟩
          rw [Scan.run_cons, step, List.nil_append, read]
        · obtain ⟨found, more, read, reading⟩ := (ih (front ++ [c])).1
          have step : (Scan.inside front).step c = (.inside (front ++ [c]), []) := by
            rw [Scan.step, if_neg isQuote, if_neg isEscape]
          refine ⟨c :: found, more, ?_, reading.cons (Ne.symm isQuote) (Ne.symm isEscape)⟩
          rw [Scan.run_cons, step, List.nil_append, read, List.append_assoc, List.singleton_append]
    · obtain ⟨found, more, read, reading⟩ := (ih (front ++ [c])).1
      have step : (Scan.escaped front).step c = (.inside (front ++ [c]), []) := rfl
      refine ⟨c :: found, more, ?_, reading.escape c⟩
      rw [Scan.run_cons, step, List.nil_append, read, List.append_assoc, List.singleton_append]

/-! ### Texts read in part -/

/-- All pieces of a text, of which some have been read and the others are still to come. -/
def Continues (pieces front : List Piece) (scan : Scan) (rest : List Char) : Prop :=
  ∃ ending, pieces = front ++ ((scan.run rest).2 ++ ending)

namespace Continues

variable {pieces front more : List Piece} {scan next : Scan} {value trail rest text : List Char}

theorem of_read (read : Attributes.read text = some pieces) : Continues pieces [] (.outside []) text := by
  unfold Attributes.read at read
  split at read
  next word found reached =>
    rw [Continues, reached]
    exact ⟨bareWord word, (Option.some.inj read).symm⟩
  next => cases read

theorem past (continues : Continues pieces front scan (text ++ rest)) (read : scan.run text = (next, more)) :
    Continues pieces (front ++ more) next rest := by
  obtain ⟨ending, whole⟩ := continues
  refine ⟨ending, ?_⟩
  rw [whole, Scan.run_append_of_eq read]
  simp only [List.append_assoc]

theorem past_value (continues : Continues pieces front (.inside []) (value ++ (trail ++ rest)))
    (isTrail : IsTrail trail next more) (plain : IsOpaque value) :
    Continues pieces (front ++ .value value :: more) next rest := by
  obtain ⟨ending, whole⟩ := continues
  refine ⟨ending, ?_⟩
  rw [whole, isTrail.run_opaque plain, List.nil_append]
  simp only [List.append_assoc, List.cons_append]

/-- A value that is found where it was put stands for itself. -/
theorem isOpaque (continues : Continues pieces front (.inside []) (value ++ (trail ++ rest)))
    (isTrail : IsTrail trail next more) {outer name : String}
    (finds : ∀ found others, valueOf outer name (front ++ .value found :: others) = some found)
    (known : valueOf outer name pieces = some value) : IsOpaque value := by
  obtain ⟨ending, whole⟩ := continues
  obtain ⟨found, others, read, reading⟩ := (reading_of_trail isTrail value rest []).1
  rw [whole, read, List.nil_append, List.cons_append, finds] at known
  exact reading.isOpaque (Option.some.inj known)

end Continues

end Dispatch.Cloud.Attributes
