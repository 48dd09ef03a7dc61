import Mocop.Lib.Doubles

/-!
# `Mocop.Lib.JsValues`: texts and values of a script

A text is a sequence of UTF-16 code units, in which half of a surrogate pair may stand alone. A
value of dynamic type has a text of its own: of a number it is the shortest decimal that rounds to
it, written with an exponent when it is very large or very small.
-/

set_option autoImplicit false

namespace Mocop

/-! ### Texts -/

/-- A text of code units. -/
abbrev JsText := List UInt16

namespace JsText

/-- The code units of a character. -/
def ofChar (c : Char) : JsText :=
  if c.toNat < 0x10000 then [c.toNat.toUInt16]
  else
    [(0xD800 + (c.toNat - 0x10000) / 0x400).toUInt16,
      (0xDC00 + (c.toNat - 0x10000) % 0x400).toUInt16]

/-- The code units of a literal. -/
def ofString (text : String) : JsText := text.toList.flatMap ofChar

/-- A carriage return. -/
def carriageReturn : UInt16 := 13

/-- A line feed. -/
def lineFeed : UInt16 := 10

/-- The characters that `\s` matches. -/
def isWhitespace (c : UInt16) : Bool :=
  (9 ≤ c && c ≤ 13) || c == 0x20 || c == 0xA0 || c == 0x1680 || (0x2000 ≤ c && c ≤ 0x200A) ||
    c == 0x2028 || c == 0x2029 || c == 0x202F || c == 0x205F || c == 0x3000 || c == 0xFEFF

end JsText

/-! ### Numbers as texts -/

namespace Float64

/-- A number of at most so many digits nearest to a positive number, with its power of ten. -/
def roundedAt (q : ℚ) (digits : ℕ) : ℕ × ℤ :=
  let scale := Int.log 10 q + 1 - digits
  ((roundHalfEven (q / (10 : ℚ) ^ scale)).toNat, scale)

/-- The shortest digits that round to a positive double, with their power of ten. -/
def shortest (q : ℚ) : ℕ × ℤ :=
  let shorter := (List.range 17).map fun digits => roundedAt q (digits + 1)
  (shorter.find? fun entry => nearest (entry.1 * (10 : ℚ) ^ entry.2) == q).getD (roundedAt q 17)

/-- The digits of a number, without the zeros at its end. -/
def significant (mantissa : ℕ) : List Char :=
  ((Nat.toDigits 10 mantissa).reverse.dropWhile (· == '0')).reverse

/-- The text of a positive double. -/
def positiveText (q : ℚ) : List Char :=
  let (mantissa, scale) := shortest q
  let digits := significant mantissa
  let k : ℤ := digits.length
  -- The decimal point stands after so many digits.
  let n : ℤ := (Nat.toDigits 10 mantissa).length + scale
  if -5 ≤ n ∧ n ≤ 21 then
    if k ≤ n then digits ++ List.replicate (n - k).toNat '0'
    else if 0 < n then digits.take n.toNat ++ '.' :: digits.drop n.toNat
    else '0' :: '.' :: (List.replicate (-n).toNat '0' ++ digits)
  else
    let exponent := (if n < 1 then '-' else '+') :: Nat.toDigits 10 (n - 1).natAbs
    match digits with
    | [] => 'e' :: exponent
    | [digit] => digit :: 'e' :: exponent
    | digit :: rest => digit :: '.' :: (rest ++ 'e' :: exponent)

/-- The characters of a number's text. -/
def textChars : Float64 → List Char
  | nan => ['N', 'a', 'N']
  | infinite negative => (if negative then ['-'] else []) ++ "Infinity".toList
  | finite x =>
    if x.value = 0 then ['0']
    else if x.value < 0 then '-' :: positiveText (-x.value)
    else positiveText x.value

/-- `String(x)` -/
def toJsText (x : Float64) : JsText := x.textChars.flatMap JsText.ofChar

/-- The characters of a number with so many decimals. -/
def fixedChars (decimals : ℕ) (q : ℚ) : List Char :=
  let digits := Nat.toDigits 10 ⌊q * 10 ^ decimals + 1 / 2⌋.toNat
  let padded := List.replicate (decimals + 1 - digits.length) '0' ++ digits
  if decimals = 0 then padded
  else
    padded.take (padded.length - decimals) ++ '.' :: padded.drop (padded.length - decimals)

/-- `x.toFixed(decimals)` -/
def toFixed (decimals : ℕ) (x : Float64) : JsText :=
  match x with
  | finite number =>
    if 10 ^ 21 ≤ |number.value| then x.toJsText
    else
      ((if number.value < 0 then ['-'] else []) ++ fixedChars decimals |number.value|).flatMap
        JsText.ofChar
  | x => x.toJsText

/-- Whether a number counts as true. -/
def truthy : Float64 → Bool
  | finite x => x.value ≠ 0
  | infinite _ => true
  | nan => false

end Float64

/-! ### Values -/

/-- A value without parts. -/
inductive JsScalar where
  | undefined
  | null
  | bool (value : Bool)
  | number (value : Float64)
  | string (value : JsText)

namespace JsScalar

/-- `value == null` -/
def isNullish : JsScalar → Bool
  | undefined | null => true
  | _ => false

/-- `value === false` -/
def isFalse : JsScalar → Bool
  | bool value => !value
  | _ => false

/-- `String(value)` -/
def text : JsScalar → JsText
  | undefined => JsText.ofString "undefined"
  | null => JsText.ofString "null"
  | bool value => JsText.ofString (if value then "true" else "false")
  | number value => value.toJsText
  | string value => value

end JsScalar

end Mocop
