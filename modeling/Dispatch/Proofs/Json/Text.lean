import Dispatch.Json.Printer
import Dispatch.Json.Reader
import Dispatch.Proofs.Json.Variants
import Dispatch.Proofs.Text.Numeral
import Mathlib.Data.List.TakeWhile
import Mathlib.Data.Option.Basic
/-!
A value that fits is read back from its compact text: the scanner finds the tokens of the value, and the reader puts
the value together from them.
-/
namespace Dispatch.Json

/-! ### The tokens of a value -/

mutual

def tokens : Json → List Token
  | .null => [.null]
  | .bool value => [.bool value]
  | .number value => [.number (some value)]
  | .string value => [.string (some value)]
  | .array items => .leftBracket :: (itemTokens items ++ [.rightBracket])
  | .object members => .leftBrace :: (memberTokens members ++ [.rightBrace])
  | .unreadable => [.null]

def itemTokens : List Json → List Token
  | [] => []
  | [item] => tokens item
  | item :: rest => tokens item ++ .comma :: itemTokens rest

def memberTokens : List (String × Json) → List Token
  | [] => []
  | [(name, value)] => .string (some name) :: .colon :: tokens value
  | (name, value) :: rest => .string (some name) :: .colon :: (tokens value ++ .comma :: memberTokens rest)

end

/-! ### From texts to tokens -/

namespace Token

/-- Between two tokens, after those that were found so far. -/
def Progress.after (found : List Token) : Progress := { tokens := found, mode := .between }

/-- Read from between two tokens, the text is these tokens, the last of them perhaps not ended yet. -/
def Scans (text : List Char) (tokens : List Token) : Prop :=
  ∀ before, ∃ progress, text.foldlM step (Progress.after before) = some progress ∧
    flush progress = some (Progress.after (tokens.reverse ++ before))

/-- A character that is a token of its own. -/
inductive Marks : Char → Token → Prop
  | leftBrace : Marks '\x7b' .leftBrace
  | rightBrace : Marks '\x7d' .rightBrace
  | leftBracket : Marks '[' .leftBracket
  | rightBracket : Marks ']' .rightBracket
  | comma : Marks ',' .comma
  | colon : Marks ':' .colon

section Marks

variable {c : Char} {token : Token}

theorem Marks.starts (mark : Marks c token) (found : List Token) :
    start found c = some (Progress.after (token :: found)) := by
  cases mark <;> rfl

theorem Marks.letterless (mark : Marks c token) : isLetter c = false := by cases mark <;> rfl

theorem Marks.numberless (mark : Marks c token) : inNumberClass c = false := by cases mark <;> rfl

end Marks

/-- A character that continues neither words nor numbers ends what is being read. -/
theorem step_of_flush {progress : Progress} {c : Char} {found : List Token} (letterless : isLetter c = false)
    (numberless : inNumberClass c = false) (done : flush progress = some (Progress.after found)) :
    step progress c = start found c := by
  obtain ⟨tokens, mode⟩ := progress
  cases mode with
  | between =>
    cases done
    rfl
  | inString => cases done
  | inWord letters => simp [step, letterless, done, Progress.after]
  | inNumber characters => simp [step, numberless, done, Progress.after]

theorem Scans.nil : Scans [] [] := fun before => ⟨Progress.after before, rfl, rfl⟩

variable {front rest : List Char} {first last : List Token} {c : Char} {token : Token}

theorem Scans.cut (before : Scans front first) (mark : Marks c token) (after : Scans rest last) :
    Scans (front ++ c :: rest) (first ++ token :: last) := by
  intro found
  obtain ⟨progress, run, done⟩ := before found
  obtain ⟨final, later, ended⟩ := after (token :: (first.reverse ++ found))
  refine ⟨final, ?_, by simpa using ended⟩
  -- The mark ends what the front left unfinished, so the rest is read from between two tokens.
  have marked : step progress c = some (Progress.after (token :: (first.reverse ++ found))) := by
    rw [step_of_flush mark.letterless mark.numberless done, mark.starts]
  simp [List.foldlM_append, run, marked, later]

/-! #### Numbers -/

theorem start_of_inNumberClass {c : Char} (found : List Token) (numeric : inNumberClass c = true)
    (letterless : isLetter c = false) : start found c = some { tokens := found, mode := .inNumber [c] } := by
  unfold start
  split
  all_goals first
    | exact absurd numeric (by decide)
    | simp [letterless, numeric]

theorem foldlM_step_inNumber (found : List Token) {text : List Char} (characters : List Char)
    (numeric : ∀ c ∈ text, inNumberClass c = true) :
    text.foldlM step { tokens := found, mode := .inNumber characters } =
      some { tokens := found, mode := .inNumber (text.reverse ++ characters) } := by
  induction text generalizing characters with
  | nil => rfl
  | cons c rest ih =>
    have one : step { tokens := found, mode := .inNumber characters } c =
        some { tokens := found, mode := .inNumber (c :: characters) } := by
      simp [step, numeric c List.mem_cons_self]
    rw [List.foldlM_cons, one, Option.bind_eq_bind, Option.bind_some,
      ih _ fun other member => numeric other (List.mem_cons_of_mem _ member), List.reverse_cons, List.append_assoc]
    rfl

/-- Signs and digits that are a literal are one number. -/
theorem scans_number {text : List Char} {value : Option Number}
    (numeric : ∀ c ∈ text, inNumberClass c = true ∧ isLetter c = false)
    (literal : Number.ofLiteral? text = some value) : Scans text [.number value] := by
  intro found
  cases text with
  | nil => cases literal
  | cons c rest =>
    obtain ⟨first, letterless⟩ := numeric c List.mem_cons_self
    refine ⟨{ tokens := found, mode := .inNumber (c :: rest).reverse }, ?_, ?_⟩
    · have begun : step (Progress.after found) c = some { tokens := found, mode := .inNumber [c] } :=
        start_of_inNumberClass found first letterless
      rw [List.foldlM_cons, begun, Option.bind_eq_bind, Option.bind_some,
        foldlM_step_inNumber found [c] fun other member => (numeric other (List.mem_cons_of_mem _ member)).1,
        List.reverse_cons]
    · simp [flush, literal, Progress.after]

end Token

namespace Literal

variable {text : List Char}

theorem digits_of_forall (each : ∀ c ∈ text, Text.isDigit c = true) : digits text = (text, []) := by
  rw [digits, List.takeWhile_eq_self_iff.mpr each, List.dropWhile_eq_nil_iff.mpr each]

theorem isWhole_of_ne_zero {c : Char} (rest : List Char) (other : c ≠ '0') : isWhole (c :: rest) = true := by
  simp [isWhole, other]

theorem digitChar_ne_zero : ∀ digit < 10, 0 < digit → digit.digitChar ≠ '0' := by decide

/-- No zero stands in front of the digits of a number. -/
theorem isWhole_toDigits (n : Nat) : isWhole (Nat.toDigits 10 n) = true := by
  rcases Nat.eq_zero_or_pos n with rfl | positive
  · rfl
  have head : ∃ c rest, Nat.toDigits 10 n = c :: rest ∧ c ≠ '0' := by
    induction n using Nat.strongRecOn with
    | _ n ih =>
      rw [Nat.toDigits_eq_if (by decide)]
      split
      next small => exact ⟨_, [], rfl, digitChar_ne_zero n small positive⟩
      next large =>
        obtain ⟨c, rest, digits, other⟩ := ih (n / 10) (by omega) (by omega)
        exact ⟨c, rest ++ [(n % 10).digitChar], by rw [digits, List.cons_append], other⟩
  obtain ⟨c, rest, digits, other⟩ := head
  rw [digits]
  exact isWhole_of_ne_zero rest other

theorem read?_natural (n : Nat) : read? (Nat.toDigits 10 n) =
    some { negative := false, whole := Nat.toDigits 10 n, fraction := none, exponent := none } := by
  have parts : digits (Nat.toDigits 10 n) = (Nat.toDigits 10 n, []) :=
    digits_of_forall fun c member => Text.isDigit_of_mem_toDigits member
  have readable : guard (isWhole (Nat.toDigits 10 n)) = some () := if_pos (isWhole_toDigits n)
  rw [read?]
  · dsimp only
    rw [parts, readable]
    rfl
  · exact Text.toDigits_ne_cons rfl

theorem read?_negative (n : Nat) : read? ('-' :: Nat.toDigits 10 n) =
    some { negative := true, whole := Nat.toDigits 10 n, fraction := none, exponent := none } := by
  have parts : digits (Nat.toDigits 10 n) = (Nat.toDigits 10 n, []) :=
    digits_of_forall fun c member => Text.isDigit_of_mem_toDigits member
  have readable : guard (isWhole (Nat.toDigits 10 n)) = some () := if_pos (isWhole_toDigits n)
  rw [read?]
  dsimp only
  rw [parts, readable]
  rfl

end Literal

namespace Number

theorem ofLiteral?_natural {n : Nat} (fits : n < UInt64.size) :
    ofLiteral? (Nat.toDigits 10 n) = some (some (.integer n)) := by
  have value : Nat.ofDigitChars 10 (Nat.toDigits 10 n) 0 = n := Nat.ofDigitChars_toDigits (by decide) (by decide)
  simp [ofLiteral?, Literal.read?_natural, Literal.number?, value, fits]

theorem ofLiteral?_negative {n : Nat} (positive : 0 < n) (fits : n ≤ Nat.pow 2 63) :
    ofLiteral? ('-' :: Nat.toDigits 10 n) = some (some (.integer (-(n : Int)))) := by
  have value : Nat.ofDigitChars 10 (Nat.toDigits 10 n) 0 = n := Nat.ofDigitChars_toDigits (by decide) (by decide)
  simp [ofLiteral?, Literal.read?_negative, Literal.number?, value, positive, fits]

end Number

namespace Token

theorem numeric_of_isDigit {c : Char} (digit : Text.isDigit c = true) :
    inNumberClass c = true ∧ isLetter c = false := by
  have ceiling : c.val ≤ '9'.val := by
    simp only [Text.isDigit, Bool.and_eq_true, decide_eq_true_eq] at digit
    exact digit.2
  refine ⟨by simp [inNumberClass, digit], ?_⟩
  simp only [isLetter, Bool.and_eq_false_iff, decide_eq_false_iff_not]
  exact Or.inl fun floor => absurd (UInt32.le_trans floor ceiling) (by decide)

theorem scans_integer {value : Int} (low : -Int.pow 2 63 ≤ value) (high : value < Int.pow 2 64) :
    Scans (Number.integer value).write [.number (some (.integer value))] := by
  have lowest : Int.pow 2 63 = 9223372036854775808 := rfl
  have highest : Int.pow 2 64 = 18446744073709551616 := rfl
  have digit {n : Nat} {c : Char} (member : c ∈ Nat.toDigits 10 n) : inNumberClass c = true ∧ isLetter c = false :=
    numeric_of_isDigit (Text.isDigit_of_mem_toDigits member)
  cases value with
  | ofNat n =>
    have written : (Number.integer (Int.ofNat n)).write = Nat.toDigits 10 n := Text.toList_toString n
    rw [written]
    refine scans_number (fun c member => digit member) (Number.ofLiteral?_natural ?_)
    have bound : (n : Int) < Int.pow 2 64 := high
    change n < 18446744073709551616
    omega
  | negSucc n =>
    have written : (Number.integer (Int.negSucc n)).write = '-' :: Nat.toDigits 10 (n + 1) :=
      Text.toList_toString_negSucc n
    have fits : n + 1 ≤ Nat.pow 2 63 := by
      change n + 1 ≤ 9223372036854775808
      omega
    rw [written]
    refine scans_number ?_ (Number.ofLiteral?_negative (Nat.succ_pos n) fits)
    intro c member
    rcases List.mem_cons.mp member with rfl | member
    · decide
    · exact digit member

/-! #### Strings -/

theorem hexDigit?_hexDigit : ∀ value < 16, hexDigit? (hexDigit value) = some value := by decide

/-- A string in progress, without an escape sequence in progress. -/
def Partial.of (characters : List Char) : Partial := { characters := some characters }

theorem foldlM_step_writeCharacter (found : List Token) (characters : List Char) (c : Char) :
    (writeCharacter c).foldlM step { tokens := found, mode := .inString (.of characters) } =
      some { tokens := found, mode := .inString (.of (c :: characters)) } := by
  unfold writeCharacter
  split
  iterate 7 rfl
  split
  next control =>
    have zero : hexDigit? '0' = some 0 := rfl
    have high : hexDigit? (hexDigit (c.toNat / 16)) = some (c.toNat / 16) := hexDigit?_hexDigit _ (by omega)
    have low : hexDigit? (hexDigit (c.toNat % 16)) = some (c.toNat % 16) := hexDigit?_hexDigit _ (by omega)
    have unit : c.toNat / 16 * 16 + c.toNat % 16 = c.toNat := Nat.div_add_mod' c.toNat 16
    -- No control character is half of a surrogate pair.
    have whole : ¬ 55296 ≤ c.toNat ∧ ¬ 56320 ≤ c.toNat := by omega
    simp [step, stepString, Partial.of, Partial.pushUnit, zero, high, low, unit, whole]
  next plain => simp [step, stepString, Partial.of, Partial.push, Partial.settle, plain]

theorem foldlM_step_writeCharacters (found : List Token) (characters text : List Char) :
    (text.flatMap writeCharacter).foldlM step { tokens := found, mode := .inString (.of characters) } =
      some { tokens := found, mode := .inString (.of (text.reverse ++ characters)) } := by
  induction text generalizing characters with
  | nil => rfl
  | cons c rest ih =>
    rw [List.flatMap_cons, List.foldlM_append, foldlM_step_writeCharacter, Option.bind_eq_bind, Option.bind_some, ih,
      List.reverse_cons, List.append_assoc]
    rfl

theorem scans_string (text : String) : Scans (writeString text) [.string (some text)] := by
  intro found
  refine ⟨Progress.after (.string (some text) :: found), ?_, rfl⟩
  have quoted : step (Progress.after found) '"' = some { tokens := found, mode := .inString (.of []) } := rfl
  have closed : step { tokens := found, mode := .inString (.of text.toList.reverse) } '"' =
      some (Progress.after (.string (some text) :: found)) := by
    simp [step, stepString, Partial.of, Partial.value, Partial.settle, Progress.after]
  simp [writeString, List.foldlM_append, quoted, foldlM_step_writeCharacters, closed]

/-! #### Values -/

variable {items : List Json} {members : List (String × Json)}

theorem scans_items (each : ∀ item ∈ items, Scans (write item) (tokens item)) :
    Scans (writeItems items) (itemTokens items) := by
  induction items with
  | nil => exact .nil
  | cons item rest ih =>
    have first := each item List.mem_cons_self
    cases rest with
    | nil => exact first
    | cons next others =>
      exact first.cut .comma (ih fun other member => each other (List.mem_cons_of_mem _ member))

theorem scans_members (each : ∀ name value, (name, value) ∈ members → Scans (write value) (tokens value)) :
    Scans (writeMembers members) (memberTokens members) := by
  induction members with
  | nil => exact .nil
  | cons member rest ih =>
    obtain ⟨name, value⟩ := member
    have first := each name value List.mem_cons_self
    cases rest with
    | nil => exact (scans_string name).cut .colon first
    | cons next others =>
      have later := ih fun other given present => each other given (List.mem_cons_of_mem _ present)
      have whole := (scans_string name).cut .colon (first.cut .comma later)
      simpa [writeMembers, memberTokens] using whole

/-- The text of a value that fits is the tokens of the value. -/
theorem scans_write {room : Nat} {json : Json} (fits : Fits room json) : Scans (write json) (tokens json) := by
  induction fits with
  | null => exact fun before => ⟨{ tokens := before, mode := .inWord "llun".toList }, rfl, rfl⟩
  | bool value =>
    intro before
    cases value with
    | true => exact ⟨{ tokens := before, mode := .inWord "eurt".toList }, rfl, rfl⟩
    | false => exact ⟨{ tokens := before, mode := .inWord "eslaf".toList }, rfl, rfl⟩
  | integer low high => exact scans_integer low high
  | string value => exact scans_string value
  | array _ ih =>
    have inner := (scans_items ih).cut .rightBracket .nil
    simpa [write, tokens] using Scans.nil.cut .leftBracket inner
  | object _ ih =>
    have inner := (scans_members ih).cut .rightBrace .nil
    simpa [write, tokens] using Scans.nil.cut .leftBrace inner

theorem scan?_write {room : Nat} {json : Json} (fits : Fits room json) : scan? (write json) = some (tokens json) := by
  obtain ⟨progress, run, done⟩ := scans_write fits []
  have begun : (write json).foldlM step {} = some progress := run
  simp [scan?, begun, done, Progress.after]

end Token

/-! ### From tokens to values -/

namespace Reader

/-- Where a value may come next. -/
def AwaitsValue (expectation : Expectation) : Prop := expectation = .value ∨ expectation = .firstItem

/-- Where the name of a member may come next. -/
def AwaitsName (expectation : Expectation) : Prop := expectation = .name ∨ expectation = .firstName

/-- The tokens of a value are read as this value wherever there is room for it. -/
def Takes (room : Nat) (json : Json) : Prop :=
  ∀ (stack : List Frame) (expectation : Expectation) (result : Json), AwaitsValue expectation →
    stack.length + room ≤ depthLimit →
      (tokens json).foldlM step { stack, expectation, result } = some (close { stack, expectation, result } json)

variable {room : Nat} {expectation : Expectation}

theorem takes_of_scalar {json : Json} {token : Token} (alone : tokens json = [token])
    (begins : ∀ reader, beginValue reader token = some (close reader json)) (other : token ≠ .rightBracket) :
    Takes room json := by
  intro stack expectation result awaits deep
  rcases awaits with rfl | rfl
  · simp [alone, step, begins]
  · simp [alone, step, begins]

/-- A value is put in its place whatever could have come instead. -/
theorem close_eq (expectation other : Expectation) (stack : List Frame) (result value : Json) :
    close { stack, expectation, result } value = close { stack, expectation := other, result } value := by
  cases stack with
  | nil => rfl
  | cons frame rest => cases frame <;> rfl

/-! #### Arrays -/

/-- The items that were read stand in reverse on top of the stack, and after each one a comma or the end may come. -/
theorem foldlM_step_items (rest : List Frame) (result : Json) {items : List Json} (front : List Json)
    (filled : items ≠ []) (each : ∀ item ∈ items, Takes room item) (awaits : AwaitsValue expectation)
    (deep : rest.length + 1 + room ≤ depthLimit) :
    (itemTokens items).foldlM step { stack := .array front :: rest, expectation, result } =
      some { stack := .array (items.reverse ++ front) :: rest, expectation := .separator, result } := by
  induction items generalizing expectation front with
  | nil => exact absurd rfl filled
  | cons item later ih =>
    have first : (tokens item).foldlM step { stack := .array front :: rest, expectation, result } =
        some { stack := .array (item :: front) :: rest, expectation := .separator, result } :=
      each item List.mem_cons_self _ _ _ awaits deep
    cases later with
    | nil => exact first
    | cons next others =>
      have parted : step { stack := .array (item :: front) :: rest, expectation := .separator, result } .comma =
          some { stack := .array (item :: front) :: rest, expectation := .value, result } := rfl
      have remaining := ih (item :: front) (List.cons_ne_nil _ _)
        (fun other member => each other (List.mem_cons_of_mem _ member)) (Or.inl rfl)
      rw [itemTokens, List.foldlM_append, first, Option.bind_eq_bind, Option.bind_some, List.foldlM_cons, parted,
        Option.bind_eq_bind, Option.bind_some, remaining]
      · simp
      · exact List.cons_ne_nil _ _

theorem endArray_of_deep {rest : List Frame} (result : Json) (items : List Json) (deep : rest.length + 1 ≤ depthLimit) :
    endArray { stack := .array items :: rest, expectation, result } =
      some (close { stack := rest, expectation, result } (.array items.reverse)) := by
  have near : ¬ depthLimit < rest.length + 1 := Nat.not_lt.mpr deep
  simp [endArray, limited, near]

theorem takes_array {items : List Json} (each : ∀ item ∈ items, Takes room item) :
    Takes (room + 1) (.array items) := by
  intro stack expectation result awaits deep
  have begun : step { stack, expectation, result } .leftBracket =
      some { stack := .array [] :: stack, expectation := .firstItem, result } := by
    rcases awaits with rfl | rfl <;> rfl
  cases items with
  | nil =>
    have ended : step { stack := .array [] :: stack, expectation := .firstItem, result } .rightBracket =
        some (close { stack, expectation := .firstItem, result } (.array [])) :=
      endArray_of_deep result [] (by omega)
    simp [tokens, itemTokens, begun, ended, close_eq .firstItem expectation]
  | cons item later =>
    have inner := foldlM_step_items stack result [] (List.cons_ne_nil item later) each (Or.inr rfl) (by omega)
    have ended : step { stack := .array (item :: later).reverse :: stack, expectation := .separator, result }
        .rightBracket = some (close { stack, expectation := .separator, result }
          (.array (item :: later).reverse.reverse)) := endArray_of_deep result _ (by omega)
    rw [List.append_nil] at inner
    rw [List.reverse_reverse] at ended
    simp only [tokens, List.foldlM_cons, List.foldlM_append, List.foldlM_nil, begun, inner, ended, Option.bind_eq_bind,
      Option.bind_some, close_eq .separator expectation, Option.pure_def]

/-! #### Objects -/

theorem step_name (rest : List Frame) (result : Json) (awaits : AwaitsName expectation)
    (front : List (String × Json)) (before name : String) :
    step { stack := .object true front before :: rest, expectation, result } (.string (some name)) =
      some { stack := .object true front name :: rest, expectation := .colon, result } := by
  rcases awaits with rfl | rfl <;> rfl

theorem foldlM_step_members (rest : List Frame) (result : Json) {members : List (String × Json)}
    (front : List (String × Json)) (before : String) (filled : members ≠ [])
    (each : ∀ name value, (name, value) ∈ members → Takes room value)
    (awaits : AwaitsName expectation) (deep : rest.length + 1 + room ≤ depthLimit) :
    ∃ last, (memberTokens members).foldlM step { stack := .object true front before :: rest, expectation, result } =
      some { stack := .object true (members.reverse ++ front) last :: rest, expectation := .separator, result } := by
  induction members generalizing expectation front before with
  | nil => exact absurd rfl filled
  | cons member later ih =>
    obtain ⟨name, value⟩ := member
    have named : step { stack := .object true front before :: rest, expectation, result } (.string (some name)) =
        some { stack := .object true front name :: rest, expectation := .colon, result } :=
      step_name rest result awaits front before name
    have marked : step { stack := .object true front name :: rest, expectation := .colon, result } .colon =
        some { stack := .object true front name :: rest, expectation := .value, result } := rfl
    have first : (tokens value).foldlM step
        { stack := .object true front name :: rest, expectation := .value, result } =
          some { stack := .object true ((name, value) :: front) name :: rest, expectation := .separator, result } :=
      each name value List.mem_cons_self _ _ _ (Or.inl rfl) deep
    cases later with
    | nil => exact ⟨name, by simp [memberTokens, named, marked, first]⟩
    | cons next others =>
      have parted : step
          { stack := .object true ((name, value) :: front) name :: rest, expectation := .separator, result } .comma =
            some { stack := .object true ((name, value) :: front) name :: rest, expectation := .name, result } := rfl
      obtain ⟨last, remaining⟩ := ih ((name, value) :: front) name (List.cons_ne_nil _ _)
        (fun other given present => each other given (List.mem_cons_of_mem _ present)) (Or.inl rfl)
      exact ⟨last, by simp [memberTokens, named, marked, first, parted, remaining]⟩

theorem endObject_of_deep {rest : List Frame} (result : Json) (members : List (String × Json)) (last : String)
    (deep : rest.length + 1 ≤ depthLimit) :
    endObject { stack := .object true members last :: rest, expectation, result } =
      some (close { stack := rest, expectation, result } (.object members.reverse)) := by
  have near : ¬ depthLimit < rest.length + 1 := Nat.not_lt.mpr deep
  simp [endObject, limited, near]

theorem takes_object {members : List (String × Json)}
    (each : ∀ name value, (name, value) ∈ members → Takes room value) : Takes (room + 1) (.object members) := by
  intro stack expectation result awaits deep
  have begun : step { stack, expectation, result } .leftBrace =
      some { stack := .object true [] "" :: stack, expectation := .firstName, result } := by
    rcases awaits with rfl | rfl <;> rfl
  cases members with
  | nil =>
    have ended : step { stack := .object true [] "" :: stack, expectation := .firstName, result } .rightBrace =
        some (close { stack, expectation := .firstName, result } (.object [])) :=
      endObject_of_deep result [] "" (by omega)
    simp [tokens, memberTokens, begun, ended, close_eq .firstName expectation]
  | cons member later =>
    obtain ⟨last, inner⟩ :=
      foldlM_step_members stack result [] "" (List.cons_ne_nil member later) each (Or.inr rfl) (by omega)
    have ended : step
        { stack := .object true (member :: later).reverse last :: stack, expectation := .separator, result }
        .rightBrace = some (close { stack, expectation := .separator, result }
          (.object (member :: later).reverse.reverse)) := endObject_of_deep result _ last (by omega)
    rw [List.append_nil] at inner
    rw [List.reverse_reverse] at ended
    simp only [tokens, List.foldlM_cons, List.foldlM_append, List.foldlM_nil, begun, inner, ended, Option.bind_eq_bind,
      Option.bind_some, close_eq .separator expectation, Option.pure_def]

/-- A value that fits into the room left by the values around it is read from its tokens. -/
theorem takes_of_fits {json : Json} (fits : Fits room json) : Takes room json := by
  induction fits with
  | null => exact takes_of_scalar rfl (fun _ => rfl) nofun
  | bool value => exact takes_of_scalar rfl (fun _ => rfl) nofun
  | integer => exact takes_of_scalar rfl (fun _ => rfl) nofun
  | string value => exact takes_of_scalar rfl (fun _ => rfl) nofun
  | array _ ih => exact takes_array ih
  | object _ ih => exact takes_object ih

end Reader

/-- The compact text of a value is read as this value. -/
theorem read?_compact {json : Json} (fits : Fits Reader.depthLimit json) : read? json.compact = some json := by
  have scanned : Token.scan? json.compact.toList = some (tokens json) := by
    rw [compact, String.toList_ofList]
    exact Token.scan?_write fits
  have taken : (tokens json).foldlM Reader.step {} = some (Reader.close {} json) :=
    Reader.takes_of_fits fits [] .value .null (Or.inl rfl) (by simp)
  simp [read?, scanned, taken, Reader.close]

end Dispatch.Json
