import Dispatch.Text.Numeral
/-!
Numbers are read back from their decimal texts, and the pieces of a text from the text that joins them.
-/
namespace Dispatch.Text

/-! ### Numerals -/

theorem isDigit_of_mem_toDigits {n : Nat} {c : Char} (member : c ∈ Nat.toDigits 10 n) : isDigit c = true :=
  Nat.isDigit_of_mem_toDigits (by decide) (by decide) member

theorem readDigitsFrom_append (limit value : Nat) (front rest : List Char) :
    readDigitsFrom limit value (front ++ rest) =
      (readDigitsFrom limit value front).bind fun read => readDigitsFrom limit read rest := by
  induction front generalizing value with
  | nil => rfl
  | cons c front ih =>
    rw [List.cons_append, readDigitsFrom, readDigitsFrom]
    split
    next => rfl
    next =>
      dsimp only
      split
      next => rfl
      next => exact ih _

theorem readDigitsFrom_digit {limit digit : Nat} (value : Nat) (small : digit < 10)
    (fits : 10 * value + digit ≤ limit) :
    readDigitsFrom limit value [digit.digitChar] = .ok (10 * value + digit) := by
  have digits : isDigit digit.digitChar = true :=
    isDigit_of_mem_toDigits (n := digit) (by simp [Nat.toDigits_of_lt_base small])
  have worth : digit.digitChar.toNat - 48 = digit := Nat.toNat_digitChar_sub_48_of_lt_ten small
  simp [readDigitsFrom, digits, worth, Nat.not_lt.mpr fits]

theorem readDigitsFrom_toDigits {limit n : Nat} (fits : n ≤ limit) :
    readDigitsFrom limit 0 (Nat.toDigits 10 n) = .ok n := by
  induction n using Nat.strongRecOn with
  | _ n ih =>
    rw [Nat.toDigits_eq_if (by decide)]
    split
    next small => simpa using readDigitsFrom_digit 0 small (by simpa using fits)
    next =>
      have whole : 10 * (n / 10) + n % 10 = n := Nat.div_add_mod n 10
      have last : readDigitsFrom limit (n / 10) [(n % 10).digitChar] = .ok n := by
        rw [readDigitsFrom_digit _ (Nat.mod_lt n (by decide)) (by omega), whole]
      rw [readDigitsFrom_append, ih (n / 10) (by omega) (by omega)]
      exact last

theorem readDigits_toDigits {limit n : Nat} (fits : n ≤ limit) : readDigits limit (Nat.toDigits 10 n) = .ok n := by
  have read := readDigitsFrom_toDigits fits
  cases digits : Nat.toDigits 10 n with
  | nil => exact absurd digits Nat.toDigits_ne_nil
  | cons c rest =>
    rw [digits] at read
    exact read

/-- A numeral begins with no sign. -/
theorem toDigits_ne_cons {n : Nat} {sign : Char} (other : isDigit sign = false) (rest : List Char) :
    Nat.toDigits 10 n ≠ sign :: rest := by
  intro digits
  have member : sign ∈ Nat.toDigits 10 n := by simp [digits]
  exact absurd (isDigit_of_mem_toDigits member) (by simp [other])

theorem readNatural_toDigits {limit n : Nat} (fits : n ≤ limit) :
    readNatural limit (Nat.toDigits 10 n) = .ok n := by
  have read := readDigits_toDigits fits
  unfold readNatural
  split
  next digits => exact absurd digits Nat.toDigits_ne_nil
  next digits => exact absurd digits (toDigits_ne_cons rfl _)
  next => exact read

theorem readInteger_natural {limit n : Nat} (fits : n ≤ limit) :
    readInteger limit (Nat.toDigits 10 n) = .ok (n : Int) := by
  have read := readDigits_toDigits fits
  unfold readInteger
  split
  next digits => exact absurd digits Nat.toDigits_ne_nil
  next digits => exact absurd digits (toDigits_ne_cons rfl _)
  next digits => exact absurd digits (toDigits_ne_cons rfl _)
  next => simp [read, Except.map]

theorem readInteger_negative {limit n : Nat} (fits : n ≤ limit + 1) :
    readInteger limit ('-' :: Nat.toDigits 10 n) = .ok (-(n : Int)) := by
  rw [readInteger, readDigits_toDigits fits]

theorem readDigitsFrom_padded {limit width n : Nat} (fits : n ≤ limit) :
    readDigitsFrom limit 0 (padded width n) = .ok n := by
  have zeros (count : Nat) : readDigitsFrom limit 0 (List.replicate count '0') = .ok 0 := by
    induction count with
    | zero => rfl
    | succ count ih => simpa [List.replicate_succ, readDigitsFrom, isDigit] using ih
  rw [padded, readDigitsFrom_append, zeros]
  exact readDigitsFrom_toDigits fits

theorem padded_injective (width : Nat) : Function.Injective (padded width) := by
  intro first second same
  have read : readDigitsFrom (max first second) 0 (padded width first) = .ok first :=
    readDigitsFrom_padded (Nat.le_max_left first second)
  rw [same, readDigitsFrom_padded (Nat.le_max_right first second)] at read
  exact (Except.ok.inj read).symm

theorem isDigit_of_mem_padded {width n : Nat} {c : Char} (member : c ∈ padded width n) : isDigit c = true := by
  rcases List.mem_append.mp member with zero | digit
  · rw [List.eq_of_mem_replicate zero]
    rfl
  · exact isDigit_of_mem_toDigits digit

theorem toList_toString (n : Nat) : (toString n).toList = Nat.toDigits 10 n := by
  rw [Nat.toString_eq_repr, Nat.toList_repr]

theorem toList_toString_uint32 (n : UInt32) : (toString n).toList = Nat.toDigits 10 n.toNat := toList_toString n.toNat

theorem toList_toString_negSucc (n : Nat) : (toString (Int.negSucc n)).toList = '-' :: Nat.toDigits 10 (n + 1) := by
  change ("-" ++ Nat.repr (n + 1)).toList = _
  rw [String.toList_append, Nat.toList_repr]
  rfl

theorem readUInt32?_toString (n : UInt32) : readUInt32? (toString n).toList = some n := by
  rw [toList_toString_uint32, readUInt32?, readNatural_toDigits (Nat.le_sub_one_of_lt n.toNat_lt_size)]
  simp [Except.toOption]

theorem toString_uint32_injective : Function.Injective (fun n : UInt32 => toString n) := by
  intro first second same
  have read := readUInt32?_toString first
  rw [show toString first = toString second from same, readUInt32?_toString] at read
  exact (Option.some.inj read).symm

theorem readInt64?_toString {n : Int} (low : -Int.pow 2 63 ≤ n) (high : n ≤ Int.pow 2 63 - 1) :
    readInt64? (toString n).toList = some n := by
  have limit : Nat.pow 2 63 = 9223372036854775808 := rfl
  have bound : Int.pow 2 63 = 9223372036854775808 := rfl
  rw [bound] at low high
  cases n with
  | ofNat n =>
    have natural : (n : Int) ≤ 9223372036854775808 - 1 := high
    have fits : n ≤ Nat.pow 2 63 - 1 := by omega
    have digits : (toString (Int.ofNat n)).toList = Nat.toDigits 10 n := toList_toString n
    rw [readInt64?, digits, readInteger_natural fits]
    rfl
  | negSucc n =>
    have fits : n + 1 ≤ Nat.pow 2 63 - 1 + 1 := by omega
    rw [readInt64?, toList_toString_negSucc, readInteger_negative fits]
    rfl

theorem toString_int32_injective : Function.Injective (fun n : Int32 => toString n) := by
  intro first second same
  have read (n : Int32) : readInt64? (toString n).toList = some n.toInt := by
    have low : -2147483648 ≤ n.toInt := n.le_toInt
    have high : n.toInt < 2147483648 := n.toInt_lt
    have limit : Int.pow 2 63 = 9223372036854775808 := rfl
    exact readInt64?_toString (n := n.toInt) (by omega) (by omega)
  have values := read first
  rw [show toString first = toString second from same, read second] at values
  exact Int32.toInt_inj.mp (Option.some.inj values).symm

theorem not_mem_toString_uint32 (n : UInt32) : '@' ∉ (toString n).toList := by
  rw [toList_toString_uint32]
  exact fun member => absurd (isDigit_of_mem_toDigits member) (by decide)

theorem not_mem_toString_int (n : Int) : '@' ∉ (toString n).toList := by
  cases n with
  | ofNat n =>
    have digits : (toString (Int.ofNat n)).toList = Nat.toDigits 10 n := toList_toString n
    rw [digits]
    exact fun member => absurd (isDigit_of_mem_toDigits member) (by decide)
  | negSucc n =>
    rw [toList_toString_negSucc]
    simp only [List.mem_cons, not_or]
    exact ⟨by decide, fun member => absurd (isDigit_of_mem_toDigits member) (by decide)⟩

theorem slash_not_mem_toDigits (n : Nat) : '/' ∉ Nat.toDigits 16 n := by
  induction n using Nat.strongRecOn with
  | ind n ih =>
    rw [Nat.toDigits_eq_if (by decide)]
    split
    next => simp
    next large =>
      have before := ih (n / 16) (Nat.div_lt_self (by omega) (by decide))
      simp [before]

theorem toString_int_ne_empty (n : Int) : (toString n).toList ≠ [] := by
  cases n with
  | ofNat n =>
    have digits : (toString (Int.ofNat n)).toList = Nat.toDigits 10 n := toList_toString n
    rw [digits]
    exact Nat.toDigits_ne_nil
  | negSucc n =>
    rw [toList_toString_negSucc]
    exact List.cons_ne_nil _ _

/-! ### Fields -/

variable {separator : Char}

theorem fields_ne_nil (separator : Char) (text : List Char) : fields separator text ≠ [] := by
  cases text with
  | nil => simp [fields]
  | cons c rest =>
    rw [fields]
    split
    · simp
    · split <;> simp

/-- The first piece of a text ends at the first separator. -/
theorem fields_append {front : List Char} (absent : separator ∉ front) (rest : List Char) :
    fields separator (front ++ separator :: rest) = front :: fields separator rest := by
  induction front with
  | nil => simp [fields]
  | cons c front ih =>
    simp only [List.mem_cons, not_or] at absent
    rw [List.cons_append, fields, if_neg (Ne.symm absent.1), ih absent.2]

/-- A separator between two texts parts them. -/
theorem fields_append_separator (front rest : List Char) :
    fields separator (front ++ separator :: rest) = fields separator front ++ fields separator rest := by
  induction front with
  | nil => simp [fields]
  | cons c front ih =>
    rw [List.cons_append, fields, fields, ih]
    split
    next => rfl
    next =>
      have filled := fields_ne_nil separator front
      cases parts : fields separator front with
      | nil => exact absurd parts filled
      | cons field others => rfl

theorem fields_of_absent {text : List Char} (absent : separator ∉ text) : fields separator text = [text] := by
  induction text with
  | nil => rfl
  | cons c rest ih =>
    simp only [List.mem_cons, not_or] at absent
    rw [fields, if_neg (Ne.symm absent.1), ih absent.2]

/-- The first piece is what stands before the first separator, or the whole text. -/
theorem head?_fields (separator : Char) (text : List Char) :
    (fields separator text).head? = some (text.takeWhile (· ≠ separator)) := by
  induction text with
  | nil => rfl
  | cons c rest ih =>
    by_cases same : c = separator
    · simp [fields, same]
    · have filled := fields_ne_nil separator rest
      cases parts : fields separator rest with
      | nil => exact absurd parts filled
      | cons field others =>
        rw [parts, List.head?_cons] at ih
        simp [fields, same, parts, Option.some.inj ih]

theorem length_fields (text : List Char) : (fields separator text).length = text.count separator + 1 := by
  induction text with
  | nil => rfl
  | cons c rest ih =>
    rw [fields, List.count_cons]
    split
    next same => simp [ih, same]
    next other =>
      have filled := fields_ne_nil separator rest
      split
      next empty => exact absurd empty filled
      next split =>
        rw [split] at ih
        simpa [other] using ih

end Dispatch.Text
