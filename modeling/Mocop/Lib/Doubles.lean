import Mocop.Models
import Mathlib.Data.Int.Log

/-!
# `Mocop.Lib.Doubles`: numbers in double precision

A finite double is a rational number on the grid of 53-bit significands, below `2 ^ 1024`.
`Float64.ofRat` rounds a rational number to the nearest double, ties to the even significand, and
overflows to an infinity; an operation on doubles is the exact operation and this rounding.

Rounding moves a number by at most half of it and one (`abs_nearest_le`). So a quotient of a
finite double by two or more is finite (`isFinite_div`), and every integer below `2 ^ 1023` is
rounded to a finite double (`isFinite_ofInt`).
-/

set_option autoImplicit false

namespace Mocop

/-! ### Rounding to the grid -/

/-- The exponent of the last bit of the significand of a number. -/
def lastBit (q : ℚ) : ℤ := max (Int.log 2 |q| - 52) (-1074)

/-- The number on the grid that is nearest to a number. -/
def nearest (q : ℚ) : ℚ := roundHalfEven (q / (2 : ℚ) ^ lastBit q) * (2 : ℚ) ^ lastBit q

/-- The finite doubles are below this limit. -/
def doubleLimit : ℚ := 2 ^ 1024

/-- Whether a number is a significand of at most 53 bits times a power of two. -/
def OnGrid (q : ℚ) : Prop :=
  ∃ significand exponent : ℤ, |significand| ≤ 2 ^ 53 ∧ -1074 ≤ exponent
    ∧ q = significand * (2 : ℚ) ^ exponent

/-- Rounding to an integer moves a number by at most one half. -/
theorem abs_roundHalfEven_sub_le (q : ℚ) : |(roundHalfEven q : ℚ) - q| ≤ 1 / 2 := by
  have hfloor := Int.floor_le q
  have hceil := Int.lt_floor_add_one q
  rw [abs_le, roundHalfEven]
  split_ifs with hbelow habove heven
  · constructor <;> linarith
  · push_cast
    constructor <;> linarith
  · constructor <;> linarith
  · push_cast
    constructor <;> linarith

/-- A number is below `2 ^ 53` units of its last bit. -/
theorem abs_div_lastBit_lt (q : ℚ) : |q / (2 : ℚ) ^ lastBit q| < 2 ^ 53 := by
  have hunit : (0 : ℚ) < (2 : ℚ) ^ lastBit q := zpow_pos (by norm_num) _
  rw [abs_div, abs_of_pos hunit, div_lt_iff₀ hunit]
  have hlog : |q| < (2 : ℚ) ^ (Int.log 2 |q| + 1) := by
    exact_mod_cast Int.lt_zpow_succ_log_self (b := 2) (by norm_num) |q|
  have hbits : Int.log 2 |q| + 1 ≤ 53 + lastBit q := by
    rw [lastBit]
    omega
  calc |q| < (2 : ℚ) ^ (Int.log 2 |q| + 1) := hlog
    _ ≤ (2 : ℚ) ^ (53 + lastBit q) := zpow_le_zpow_right₀ (by norm_num) hbits
    _ = 2 ^ 53 * 2 ^ lastBit q := by
      rw [zpow_add₀ (by norm_num)]
      norm_cast

/-- A rounded number is on the grid. -/
theorem onGrid_nearest (q : ℚ) : OnGrid (nearest q) := by
  refine ⟨roundHalfEven (q / (2 : ℚ) ^ lastBit q), lastBit q, ?_, by rw [lastBit]; omega, rfl⟩
  -- The significand is an integer within one half of a number below `2 ^ 53`.
  have hclose := abs_roundHalfEven_sub_le (q / (2 : ℚ) ^ lastBit q)
  have hbelow := abs_div_lastBit_lt q
  generalize q / (2 : ℚ) ^ lastBit q = x at *
  have hsum : |(roundHalfEven x : ℚ)| ≤ |(roundHalfEven x : ℚ) - x| + |x| := by
    simpa using abs_add_le ((roundHalfEven x : ℚ) - x) x
  have hlt : |(roundHalfEven x : ℚ)| < 2 ^ 53 + 1 := by linarith
  have hint : |roundHalfEven x| < 2 ^ 53 + 1 := by exact_mod_cast hlt
  omega

/-- The last bit of a number is at most half of it, or below one. -/
theorem zpow_lastBit_le (q : ℚ) : (2 : ℚ) ^ lastBit q ≤ |q| + 1 := by
  have habs := abs_nonneg q
  rcases le_total (Int.log 2 |q| - 52) (-1074) with hsmall | hlarge
  · rw [lastBit, max_eq_right hsmall]
    have hone : (2 : ℚ) ^ (-1074 : ℤ) ≤ 2 ^ (0 : ℤ) :=
      zpow_le_zpow_right₀ (by norm_num) (by norm_num)
    rw [zpow_zero] at hone
    linarith
  · rw [lastBit, max_eq_left hlarge]
    rcases eq_or_lt_of_le habs with hzero | hpos
    · rw [← hzero, Int.log_zero_right] at hlarge ⊢
      have hone : (2 : ℚ) ^ (0 - 52 : ℤ) ≤ 2 ^ (0 : ℤ) :=
        zpow_le_zpow_right₀ (by norm_num) (by norm_num)
      rw [zpow_zero] at hone
      linarith
    · have hlog : (2 : ℚ) ^ Int.log 2 |q| ≤ |q| := by
        exact_mod_cast Int.zpow_log_le_self (b := 2) (by norm_num) hpos
      have hmono : (2 : ℚ) ^ (Int.log 2 |q| - 52) ≤ 2 ^ Int.log 2 |q| :=
        zpow_le_zpow_right₀ (by norm_num) (by omega)
      linarith

/-- Rounding moves a number by at most half of it and one. -/
theorem abs_nearest_le (q : ℚ) : |nearest q| ≤ 3 / 2 * |q| + 1 := by
  have hunit : (0 : ℚ) < (2 : ℚ) ^ lastBit q := zpow_pos (by norm_num) _
  have hclose := abs_roundHalfEven_sub_le (q / (2 : ℚ) ^ lastBit q)
  have hbit := zpow_lastBit_le q
  have herror : |nearest q - q| ≤ 1 / 2 * 2 ^ lastBit q := by
    have hsplit : nearest q - q
        = ((roundHalfEven (q / (2 : ℚ) ^ lastBit q) : ℚ) - q / 2 ^ lastBit q) * 2 ^ lastBit q := by
      rw [nearest, sub_mul, div_mul_cancel₀ q hunit.ne']
    rw [hsplit, abs_mul, abs_of_pos hunit]
    exact mul_le_mul_of_nonneg_right hclose hunit.le
  have hsum : |nearest q| ≤ |nearest q - q| + |q| := by
    simpa using abs_add_le (nearest q - q) q
  linarith

/-! ### Doubles -/

/-- A finite double. -/
structure Double where
  value : ℚ
  onGrid : OnGrid value
  bounded : |value| < doubleLimit

/-- A number in double precision. -/
inductive Float64 where
  | finite (value : Double)
  | infinite (negative : Bool)
  | nan

namespace Float64

/-- Rounding to double precision. -/
def ofRat (q : ℚ) : Float64 :=
  if h : |nearest q| < doubleLimit then .finite ⟨nearest q, onGrid_nearest q, h⟩
  else .infinite (q < 0)

/-- `math.isfinite` -/
def isFinite : Float64 → Bool
  | finite _ => true
  | _ => false

/-- A product with a positive integer. -/
def mul (x : Float64) (factor : ℕ) : Float64 :=
  match x with
  | finite value => ofRat (value.value * factor)
  | x => x

/-- A quotient by a positive integer. -/
def div (x : Float64) (divisor : ℕ) : Float64 :=
  match x with
  | finite value => ofRat (value.value / divisor)
  | x => x

/-- The limit is large. -/
theorem large_doubleLimit : (8 : ℚ) ≤ doubleLimit := by
  have height : (8 : ℚ) = 2 ^ 3 := by norm_num
  rw [height, doubleLimit]
  exact pow_le_pow_right₀ (by norm_num) (by norm_num)

/-- What is not above half of the limit is rounded to a finite double. -/
theorem isFinite_ofRat {q : ℚ} (hq : |q| ≤ doubleLimit / 2) : (ofRat q).isFinite = true := by
  have hnear := abs_nearest_le q
  have hlarge := large_doubleLimit
  have hbelow : |nearest q| < doubleLimit := by linarith
  simp [ofRat, hbelow, isFinite]

/-- A quotient of a finite double is finite. -/
theorem isFinite_div {x : Float64} {divisor : ℕ} (hx : x.isFinite = true) (hdivisor : 2 ≤ divisor) :
    (x.div divisor).isFinite = true := by
  cases x with
  | finite value =>
    have hpos : (0 : ℚ) < divisor := by exact_mod_cast (by omega : 0 < divisor)
    have htwo : (2 : ℚ) ≤ divisor := by exact_mod_cast hdivisor
    have hbound := value.bounded
    refine isFinite_ofRat ?_
    rw [abs_div, abs_of_pos hpos, div_le_iff₀ hpos]
    have hlarge := large_doubleLimit
    nlinarith
  | infinite negative => exact absurd hx (by simp [isFinite])
  | nan => exact absurd hx (by simp [isFinite])

/-- An integer of at most half of the limit is rounded to a finite double. -/
theorem isFinite_ofInt {z : ℤ} (hz : (|z| : ℚ) ≤ doubleLimit / 2) :
    (ofRat z).isFinite = true :=
  isFinite_ofRat hz

end Float64

end Mocop
