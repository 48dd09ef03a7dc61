import Mathlib.Algebra.Order.Field.Rat
import Mathlib.Data.List.DropRight
import Mathlib.Tactic.Ring

/-!
# `Mocop.Lib.Decimals`: the decimal texts of numbers

A numeral is a whole part, a fraction and an exponent, each made of digits. `Numeral.text` writes
it and `readNumber` reads any number of the grammar `-? digits (. digits)? (e [+-] digits)?`, so a
written numeral is read back with its value (`readNumber_text`).

`Numeral.general` writes `mantissa * 10 ^ scale` as the `g` formats of C do: a positional numeral
while the exponent is small, a scientific one beyond, without the zeros at the end. It denotes
that number whatever the layout is (`Numeral.value_general`).
-/

set_option autoImplicit false

namespace Mocop

/-! ### Numerals -/

/-- The parts of a written number without its sign. -/
structure Numeral where
  whole : List Char
  fraction : List Char
  exponent : Option ℤ
  whole_ne : whole ≠ []
  whole_digits : ∀ c ∈ whole, c.isDigit = true
  fraction_digits : ∀ c ∈ fraction, c.isDigit = true

namespace Numeral

/-- The digits of an exponent, at least two of them. -/
def exponentDigits (exponent : ℤ) : List Char :=
  let digits := Nat.toDigits 10 exponent.natAbs
  List.replicate (2 - digits.length) '0' ++ digits

/-- The text of an exponent. -/
def exponentText : Option ℤ → List Char
  | none => []
  | some exponent => 'e' :: (if exponent < 0 then '-' else '+') :: exponentDigits exponent

/-- The text of a fraction. -/
def fractionText : List Char → List Char
  | [] => []
  | digits => '.' :: digits

/-- The text of a numeral. -/
def text (n : Numeral) : List Char :=
  n.whole ++ (fractionText n.fraction ++ exponentText n.exponent)

/-- The number that a numeral denotes. -/
def value (n : Numeral) : ℚ :=
  (Nat.ofDigitChars 10 (n.whole ++ n.fraction) 0 : ℚ)
    * (10 : ℚ) ^ (n.exponent.getD 0 - n.fraction.length)

end Numeral

/-! ### Reading a number -/

/-- The exponent at the end of a number. -/
def readExponent : List Char → Option ℤ
  | [] => some 0
  | 'e' :: '+' :: digits =>
    if digits ≠ [] ∧ digits.all Char.isDigit then some (Nat.ofDigitChars 10 digits 0) else none
  | 'e' :: '-' :: digits =>
    if digits ≠ [] ∧ digits.all Char.isDigit then some (-(Nat.ofDigitChars 10 digits 0)) else none
  | _ => none

/-- The fraction of a number, and the text after it. -/
def readFraction : List Char → Option (List Char × List Char)
  | '.' :: text =>
    let digits := text.takeWhile Char.isDigit
    if digits = [] then none else some (digits, text.dropWhile Char.isDigit)
  | text => some ([], text)

/-- A number without a sign. -/
def readUnsigned (text : List Char) : Option ℚ := do
  let whole := text.takeWhile Char.isDigit
  if whole = [] then none
  let (fraction, rest) ← readFraction (text.dropWhile Char.isDigit)
  let exponent ← readExponent rest
  return (Nat.ofDigitChars 10 (whole ++ fraction) 0 : ℚ) * (10 : ℚ) ^ (exponent - fraction.length)

/-- A number. -/
def readNumber : List Char → Option ℚ
  | '-' :: text => (readUnsigned text).map (- ·)
  | text => readUnsigned text

/-! ### A written numeral is read back -/

namespace Numeral

/-- The digits of an exponent are digits. -/
theorem exponentDigits_all (exponent : ℤ) : (exponentDigits exponent).all Char.isDigit = true := by
  rw [List.all_eq_true]
  intro c hc
  rcases List.mem_append.mp hc with hzero | hdigit
  · rw [List.eq_of_mem_replicate hzero]
    rfl
  · exact Nat.isDigit_of_mem_toDigits (by omega) (by omega) hdigit

/-- Zeros in front do not change the value of the digits of an exponent. -/
theorem ofDigitChars_exponentDigits (exponent : ℤ) :
    Nat.ofDigitChars 10 (exponentDigits exponent) 0 = exponent.natAbs := by
  simp [exponentDigits, Nat.ofDigitChars_append]

/-- The text of an exponent is read back. -/
theorem readExponent_text (exponent : Option ℤ) :
    readExponent (exponentText exponent) = some (exponent.getD 0) := by
  cases exponent with
  | none => rfl
  | some exponent =>
    have hne : exponentDigits exponent ≠ [] := by simp [exponentDigits]
    have hall := exponentDigits_all exponent
    have hvalue := ofDigitChars_exponentDigits exponent
    by_cases hneg : exponent < 0
    · simp only [exponentText, readExponent, hneg, if_true, hne, hall, hvalue, ne_eq,
        not_false_eq_true, and_self, Option.getD_some, Option.some.injEq]
      omega
    · simp only [exponentText, readExponent, hneg, if_false, hne, hall, hvalue, ne_eq,
        not_false_eq_true, and_self, if_true, Option.getD_some, Option.some.injEq]
      omega

/-- No digit starts the text of an exponent. -/
theorem takeWhile_exponentText (exponent : Option ℤ) :
    (exponentText exponent).takeWhile Char.isDigit = [] := by
  cases exponent with
  | none => rfl
  | some exponent => rfl

/-- No digit starts what follows the whole part. -/
theorem takeWhile_tail (n : Numeral) :
    (fractionText n.fraction ++ exponentText n.exponent).takeWhile Char.isDigit = [] := by
  cases hfraction : n.fraction with
  | nil => exact takeWhile_exponentText n.exponent
  | cons digit digits => rfl

/-- Digits in front of a text without digits in front. -/
theorem span_digits {digits rest : List Char} (hdigits : ∀ c ∈ digits, c.isDigit = true)
    (hrest : rest.takeWhile Char.isDigit = []) :
    (digits ++ rest).takeWhile Char.isDigit = digits
      ∧ (digits ++ rest).dropWhile Char.isDigit = rest := by
  have hdrop : rest.dropWhile Char.isDigit = rest := by
    simpa [hrest] using List.takeWhile_append_dropWhile (p := Char.isDigit) (l := rest)
  constructor
  · rw [List.takeWhile_append_of_pos hdigits, hrest, List.append_nil]
  · rw [List.dropWhile_append_of_pos hdigits, hdrop]

/-- The text of a fraction is read back. -/
theorem readFraction_text (n : Numeral) :
    readFraction (fractionText n.fraction ++ exponentText n.exponent)
      = some (n.fraction, exponentText n.exponent) := by
  have hspan := span_digits n.fraction_digits (takeWhile_exponentText n.exponent)
  cases hfraction : n.fraction with
  | nil =>
    cases hexponent : n.exponent with
    | none => rfl
    | some exponent => rfl
  | cons digit digits =>
    rw [hfraction] at hspan
    show readFraction ('.' :: ((digit :: digits) ++ exponentText n.exponent)) = _
    simp only [readFraction, hspan.1, hspan.2]
    simp

/-- A written numeral is read back with its value. -/
theorem readUnsigned_text (n : Numeral) : readUnsigned n.text = some n.value := by
  have hspan := span_digits n.whole_digits n.takeWhile_tail
  simp [readUnsigned, text, hspan.1, hspan.2, n.whole_ne, readFraction_text, readExponent_text,
    value]

/-- A numeral does not start with a sign. -/
theorem readNumber_text (n : Numeral) : readNumber n.text = some n.value := by
  have hsign : readNumber n.text = readUnsigned n.text := by
    cases hwhole : n.whole with
    | nil => exact absurd hwhole n.whole_ne
    | cons digit digits =>
      have hdigit : digit.isDigit = true := n.whole_digits digit (by simp [hwhole])
      have hne : digit ≠ '-' := by
        rintro rfl
        exact absurd hdigit (by decide)
      simp [text, hwhole, readNumber, hne]
  rw [hsign, readUnsigned_text]

/-- A numeral after a minus sign. -/
theorem readNumber_neg (n : Numeral) : readNumber ('-' :: n.text) = some (-n.value) := by
  simp [readNumber, readUnsigned_text]

/-- The characters of a numeral. -/
theorem text_chars (n : Numeral) :
    ∀ c ∈ n.text, c.isDigit = true ∨ c ∈ ['.', 'e', '+', '-'] := by
  intro c hc
  rcases List.mem_append.mp hc with hwhole | htail
  · exact .inl (n.whole_digits c hwhole)
  rcases List.mem_append.mp htail with hfraction | hexponent
  · cases hdigits : n.fraction with
    | nil => simp [hdigits, fractionText] at hfraction
    | cons digit digits =>
      rw [hdigits, fractionText, List.mem_cons] at hfraction
      · rcases hfraction with rfl | hdigit
        · exact .inr (by simp)
        · exact .inl (n.fraction_digits c (hdigits ▸ hdigit))
      · simp
  · cases hvalue : n.exponent with
    | none => simp [hvalue, exponentText] at hexponent
    | some exponent =>
      have hall := List.all_eq_true.mp (exponentDigits_all exponent)
      simp only [hvalue, exponentText, List.mem_cons] at hexponent
      rcases hexponent with rfl | hsign | hdigit
      · exact .inr (by simp)
      · split at hsign <;> exact .inr (by simp [hsign])
      · exact .inl (hall c hdigit)

/-! ### The layout of the `g` formats -/

/-- Digits without the zeros at their end; the first digit stays. -/
def trimZeros : List Char → List Char
  | [] => []
  | digit :: digits => digit :: digits.rdropWhile (· == '0')

/-- The zeros at the end of a text. -/
theorem exists_rdropWhile_append (digits : List Char) :
    ∃ zeros, digits = digits.rdropWhile (· == '0') ++ List.replicate zeros '0' := by
  induction digits using List.reverseRecOn with
  | nil => exact ⟨0, rfl⟩
  | append_singleton digits digit ih =>
    by_cases hzero : digit = '0'
    · obtain ⟨zeros, hdigits⟩ := ih
      refine ⟨zeros + 1, ?_⟩
      rw [List.rdropWhile_concat_pos _ _ _ (by simp [hzero]), List.replicate_succ',
        ← List.append_assoc, ← hdigits, hzero]
    · exact ⟨0, by rw [List.rdropWhile_concat_neg _ _ _ (by simp [hzero])]; simp⟩

/-- Trimmed digits and the zeros that were trimmed. -/
theorem exists_trimZeros_append (digits : List Char) :
    ∃ zeros, digits = trimZeros digits ++ List.replicate zeros '0' := by
  cases digits with
  | nil => exact ⟨0, rfl⟩
  | cons digit digits =>
    obtain ⟨zeros, hdigits⟩ := exists_rdropWhile_append digits
    exact ⟨zeros, by rw [trimZeros, List.cons_append, ← hdigits]⟩

/-- Something is left of some digits. -/
theorem trimZeros_ne_nil {digits : List Char} (hne : digits ≠ []) : trimZeros digits ≠ [] := by
  cases digits with
  | nil => exact absurd rfl hne
  | cons digit digits => simp [trimZeros]

/-- Digits in scientific layout. -/
def scientific (digits : List Char) (hne : digits ≠ []) (hall : ∀ c ∈ digits, c.isDigit = true)
    (exponent : ℤ) : Numeral where
  whole := [digits.head hne]
  fraction := digits.tail
  exponent := some exponent
  whole_ne := by simp
  whole_digits := by simpa using hall _ (List.head_mem hne)
  fraction_digits := fun c hc => hall c (List.mem_of_mem_tail hc)

/-- Digits of a number below one, in positional layout. -/
def small (digits : List Char) (hall : ∀ c ∈ digits, c.isDigit = true) (zeros : ℕ) : Numeral where
  whole := ['0']
  fraction := List.replicate zeros '0' ++ digits
  exponent := none
  whole_ne := by simp
  whole_digits := by simp [Char.isDigit]
  fraction_digits := by
    intro c hc
    rcases List.mem_append.mp hc with hzero | hdigit
    · rw [List.eq_of_mem_replicate hzero]
      rfl
    · exact hall c hdigit

/-- Digits in positional layout with `places + 1` of them before the point. -/
def positional (digits : List Char) (hne : digits ≠ []) (hall : ∀ c ∈ digits, c.isDigit = true)
    (places : ℕ) : Numeral where
  whole := digits.take (places + 1) ++ List.replicate (places + 1 - digits.length) '0'
  fraction := digits.drop (places + 1)
  exponent := none
  whole_ne := by simp [hne]
  whole_digits := by
    intro c hc
    rcases List.mem_append.mp hc with hdigit | hzero
    · exact hall c (List.mem_of_mem_take hdigit)
    · rw [List.eq_of_mem_replicate hzero]
      rfl
  fraction_digits := fun c hc => hall c (List.mem_of_mem_drop hc)

/-- Digits whose first one stands for `10 ^ exponent`, with `precision` significant places. -/
def ofDigits (precision : ℕ) (digits : List Char) (hne : digits ≠ [])
    (hall : ∀ c ∈ digits, c.isDigit = true) (exponent : ℤ) : Numeral :=
  if exponent < -4 ∨ precision ≤ exponent then scientific digits hne hall exponent
  else if exponent < 0 then small digits hall (-exponent - 1).toNat
  else positional digits hne hall exponent.toNat

/-- `mantissa * 10 ^ scale` with `precision` significant places. -/
def general (precision mantissa : ℕ) (scale : ℤ) : Numeral :=
  let digits := Nat.toDigits 10 mantissa
  ofDigits precision (trimZeros digits) (trimZeros_ne_nil Nat.toDigits_ne_nil)
    (fun c hc => by
      obtain ⟨zeros, hdigits⟩ := exists_trimZeros_append digits
      refine Nat.isDigit_of_mem_toDigits (b := 10) (n := mantissa) (by omega) (by omega) ?_
      show c ∈ digits
      rw [hdigits]
      exact List.mem_append_left _ hc)
    (digits.length - 1 + scale)

section
variable {digits : List Char} (hne : digits ≠ []) (hall : ∀ c ∈ digits, c.isDigit = true)

/-- Every layout of some digits denotes them, the first one at `10 ^ exponent`. -/
theorem value_ofDigits (precision : ℕ) (exponent : ℤ) :
    (ofDigits precision digits hne hall exponent).value
      = (Nat.ofDigitChars 10 digits 0 : ℚ) * (10 : ℚ) ^ (exponent + 1 - digits.length) := by
  have hlength : 0 < digits.length := List.length_pos_iff.mpr hne
  rw [ofDigits]
  split_ifs with hscientific hsmall
  · -- One digit before the point.
    have hdigits : [digits.head hne] ++ digits.tail = digits := by simp
    have hcount : (digits.tail.length : ℤ) = digits.length - 1 := by
      rw [List.length_tail]
      omega
    simp only [value, scientific, hdigits, Option.getD_some, hcount]
    congr 2
    ring
  · -- Only zeros before the digits.
    have hdigits : Nat.ofDigitChars 10
        (['0'] ++ (List.replicate (-exponent - 1).toNat '0' ++ digits)) 0
          = Nat.ofDigitChars 10 digits 0 := by
      simp [Nat.ofDigitChars_append, Nat.ofDigitChars_cons]
    simp only [value, small, hdigits, Option.getD_none, List.length_append, List.length_replicate]
    congr 2
    omega
  · simp only [value, positional, Option.getD_none, List.length_drop]
    rcases Nat.lt_or_ge (exponent.toNat + 1) digits.length with hinside | hbeyond
    · -- The point is among the digits.
      have hzeros : exponent.toNat + 1 - digits.length = 0 := by omega
      rw [hzeros, List.replicate_zero, List.append_nil, List.take_append_drop]
      congr 2
      omega
    · -- Zeros fill the places up to the point.
      rw [List.take_of_length_le hbeyond, List.drop_eq_nil_of_le hbeyond, List.append_nil,
        Nat.ofDigitChars_append, Nat.ofDigitChars_replicate_zero]
      have hplaces :
          exponent + 1 - digits.length = ((exponent.toNat + 1 - digits.length : ℕ) : ℤ) := by
        omega
      have hnone : (digits.length - (exponent.toNat + 1) : ℕ) = 0 := by omega
      rw [hplaces, hnone, zpow_natCast]
      push_cast
      simp [mul_comm]

end

/-- A number in the general layout keeps its value. -/
theorem value_general (precision mantissa : ℕ) (scale : ℤ) :
    (general precision mantissa scale).value = (mantissa : ℚ) * (10 : ℚ) ^ scale := by
  obtain ⟨zeros, hdigits⟩ := exists_trimZeros_append (Nat.toDigits 10 mantissa)
  have hpos : 0 < (Nat.toDigits 10 mantissa).length := Nat.length_toDigits_pos
  have hlength : (Nat.toDigits 10 mantissa).length
      = (trimZeros (Nat.toDigits 10 mantissa)).length + zeros := by
    conv_lhs => rw [hdigits]
    simp
  have hmantissa : mantissa
      = 10 ^ zeros * Nat.ofDigitChars 10 (trimZeros (Nat.toDigits 10 mantissa)) 0 := by
    conv_lhs => rw [← Nat.ofDigitChars_ten_toDigits (n := mantissa), hdigits]
    rw [Nat.ofDigitChars_append, Nat.ofDigitChars_replicate_zero]
  rw [general, value_ofDigits]
  generalize Nat.ofDigitChars 10 (trimZeros (Nat.toDigits 10 mantissa)) 0 = kept at *
  have hexponent : ((Nat.toDigits 10 mantissa).length - 1 + scale : ℤ) + 1
      - (trimZeros (Nat.toDigits 10 mantissa)).length = zeros + scale := by
    omega
  rw [hexponent, hmantissa, zpow_add₀ (by norm_num), zpow_natCast]
  push_cast
  ring

end Numeral

end Mocop
