import Mathlib.Data.List.Basic
import Mathlib.Tactic.Ring

/-!
# `Mocop.Lib.Calendar`: dates and instants of the Gregorian calendar

A date of the years 1 to 9999 carries the proof that it exists. The ordinal of a date counts the
days from the first of January of the year 1, which is day 1, and `Date.ofOrdinal` finds the date
of an ordinal. An instant is a date with a time of day, and its seconds count from the first of
January 1970.

An instant is written as `YYYY-MM-DDTHH:mm:ssZ`, and `Instant.read_isoformat` says that the text of
an instant is read back as the instant.
-/

set_option autoImplicit false

namespace Mocop

/-! ### Years and months -/

/-- Whether a year has a 29th of February. -/
def isLeap (year : ℕ) : Bool := year % 4 = 0 ∧ (year % 100 ≠ 0 ∨ year % 400 = 0)

/-- The days of a month. -/
def daysInMonth (leap : Bool) : ℕ → ℕ
  | 2 => if leap then 29 else 28
  | 4 | 6 | 9 | 11 => 30
  | _ => 31

/-- The days of the months before a month. -/
def daysBeforeMonth (leap : Bool) : ℕ → ℕ
  | 0 | 1 => 0
  | month + 1 => daysBeforeMonth leap month + daysInMonth leap month

/-- The days of the years before a year. -/
def daysBeforeYear (year : ℕ) : ℕ :=
  let elapsed := year - 1
  elapsed * 365 + elapsed / 4 - elapsed / 100 + elapsed / 400

/-- The ordinal of the last day of the year 9999. -/
def maxOrdinal : ℕ := 3652059

theorem daysBeforeMonth_succ (leap : Bool) {month : ℕ} (h : 1 ≤ month) :
    daysBeforeMonth leap (month + 1)
      = daysBeforeMonth leap month + daysInMonth leap month := by
  obtain ⟨elapsed, rfl⟩ := Nat.exists_eq_add_of_le' h
  rfl

theorem daysBeforeYear_succ {year : ℕ} (h : 1 ≤ year) :
    daysBeforeYear (year + 1) = daysBeforeYear year + daysBeforeMonth (isLeap year) 13 := by
  have hlong : ∀ leap, daysBeforeMonth leap 13 = if leap then 366 else 365 := by
    intro leap
    cases leap <;> rfl
  obtain ⟨elapsed, rfl⟩ := Nat.exists_eq_add_of_le' h
  rw [hlong]
  show (elapsed + 1) * 365 + (elapsed + 1) / 4 - (elapsed + 1) / 100 + (elapsed + 1) / 400
    = elapsed * 365 + elapsed / 4 - elapsed / 100 + elapsed / 400
      + if isLeap (elapsed + 1) then 366 else 365
  -- Each quotient grows by one in the years that its divisor divides.
  have h4 : 100 ∣ elapsed + 1 → 4 ∣ elapsed + 1 := fun hdvd => Dvd.dvd.trans (by decide) hdvd
  have h100 : 400 ∣ elapsed + 1 → 100 ∣ elapsed + 1 :=
    fun hdvd => Dvd.dvd.trans (by decide) hdvd
  have hsmall : elapsed / 100 ≤ elapsed := Nat.div_le_self _ _
  rw [@Nat.succ_div elapsed 4, @Nat.succ_div elapsed 100, @Nat.succ_div elapsed 400]
  simp only [isLeap, ← Nat.dvd_iff_mod_eq_zero, decide_eq_true_eq, ne_eq]
  generalize elapsed / 4 = quarters at hsmall ⊢
  generalize elapsed / 100 = centuries at hsmall ⊢
  generalize elapsed / 400 = cycles
  by_cases hfour : 4 ∣ elapsed + 1 <;> by_cases hhundred : 100 ∣ elapsed + 1 <;>
    by_cases hlongest : 400 ∣ elapsed + 1 <;> simp_all <;> omega

/-! ### Dates -/

/-- A date of the calendar. -/
structure Date where
  year : ℕ
  month : ℕ
  day : ℕ
  year_pos : 1 ≤ year
  year_le : year ≤ 9999
  month_pos : 1 ≤ month
  month_le : month ≤ 12
  day_pos : 1 ≤ day
  day_le : day ≤ daysInMonth (isLeap year) month

namespace Date

/-- The ordinal of a date. -/
def ordinal (date : Date) : ℕ :=
  daysBeforeYear date.year + daysBeforeMonth (isLeap date.year) date.month + date.day

/-- The year of an ordinal: the last one that begins on that day or before it. -/
def yearOf (ordinal : ℕ) : ℕ := Nat.findGreatest (fun year => daysBeforeYear year < ordinal) 9999

/-- The month of a day of the year. -/
def monthOf (leap : Bool) (day : ℕ) : ℕ :=
  Nat.findGreatest (fun month => daysBeforeMonth leap month < day) 12

theorem yearOf_spec {ordinal : ℕ} (h : 1 ≤ ordinal) (hle : ordinal ≤ maxOrdinal) :
    1 ≤ yearOf ordinal ∧ yearOf ordinal ≤ 9999 ∧ daysBeforeYear (yearOf ordinal) < ordinal
      ∧ ordinal ≤ daysBeforeYear (yearOf ordinal)
        + daysBeforeMonth (isLeap (yearOf ordinal)) 13 := by
  have hfirst : daysBeforeYear 1 < ordinal := h
  have hpos : 1 ≤ yearOf ordinal := Nat.le_findGreatest (by decide) hfirst
  have hyear : yearOf ordinal ≤ 9999 := Nat.findGreatest_le 9999
  have hbegun : daysBeforeYear (yearOf ordinal) < ordinal :=
    Nat.findGreatest_spec (P := fun year => daysBeforeYear year < ordinal) (by decide) hfirst
  refine ⟨hpos, hyear, hbegun, ?_⟩
  rw [← daysBeforeYear_succ hpos]
  rcases Nat.lt_or_ge (yearOf ordinal) 9999 with hlt | hge
  · -- The next year has not begun.
    have hnext : ¬ daysBeforeYear (yearOf ordinal + 1) < ordinal :=
      @Nat.findGreatest_is_greatest (yearOf ordinal + 1) (fun year => daysBeforeYear year < ordinal)
        _ 9999 (Nat.lt_succ_self (yearOf ordinal)) hlt
    exact not_lt.mp hnext
  · rw [show yearOf ordinal = 9999 by omega]
    exact hle

theorem monthOf_spec {leap : Bool} {day : ℕ} (h : 1 ≤ day) (hle : day ≤ daysBeforeMonth leap 13) :
    1 ≤ monthOf leap day ∧ monthOf leap day ≤ 12 ∧ daysBeforeMonth leap (monthOf leap day) < day
      ∧ day ≤ daysBeforeMonth leap (monthOf leap day) + daysInMonth leap (monthOf leap day) := by
  have hfirst : daysBeforeMonth leap 1 < day := h
  have hpos : 1 ≤ monthOf leap day := Nat.le_findGreatest (by decide) hfirst
  have hmonth : monthOf leap day ≤ 12 := Nat.findGreatest_le 12
  have hbegun : daysBeforeMonth leap (monthOf leap day) < day :=
    Nat.findGreatest_spec (P := fun month => daysBeforeMonth leap month < day) (by decide) hfirst
  refine ⟨hpos, hmonth, hbegun, ?_⟩
  rw [← daysBeforeMonth_succ leap hpos]
  rcases Nat.lt_or_ge (monthOf leap day) 12 with hlt | hge
  · have hnext : ¬ daysBeforeMonth leap (monthOf leap day + 1) < day :=
      @Nat.findGreatest_is_greatest (monthOf leap day + 1)
        (fun month => daysBeforeMonth leap month < day) _ 12
        (Nat.lt_succ_self (monthOf leap day)) hlt
    exact not_lt.mp hnext
  · rw [show monthOf leap day = 12 by omega]
    exact hle

/-- The date of an ordinal. -/
def ofOrdinal (ordinal : ℕ) (h : 1 ≤ ordinal) (hle : ordinal ≤ maxOrdinal) : Date :=
  have hyear := yearOf_spec h hle
  have hmonth := @monthOf_spec (isLeap (yearOf ordinal))
    (ordinal - daysBeforeYear (yearOf ordinal)) (by omega) (by omega)
  { year := yearOf ordinal
    month := monthOf (isLeap (yearOf ordinal)) (ordinal - daysBeforeYear (yearOf ordinal))
    day := ordinal - daysBeforeYear (yearOf ordinal)
      - daysBeforeMonth (isLeap (yearOf ordinal))
        (monthOf (isLeap (yearOf ordinal)) (ordinal - daysBeforeYear (yearOf ordinal)))
    year_pos := hyear.1
    year_le := hyear.2.1
    month_pos := hmonth.1
    month_le := hmonth.2.1
    day_pos := by omega
    day_le := by omega }

end Date

/-! ### Instants -/

/-- A date with a time of day. -/
structure Instant where
  date : Date
  hour : ℕ
  minute : ℕ
  second : ℕ
  hour_lt : hour < 24
  minute_lt : minute < 60
  second_lt : second < 60

namespace Instant

/-- The ordinal of the first of January 1970. -/
def epochOrdinal : ℤ := 719163

/-- The seconds since the first of January 1970. -/
def seconds (instant : Instant) : ℤ :=
  (instant.date.ordinal - epochOrdinal) * 86400
    + (instant.hour * 3600 + instant.minute * 60 + instant.second : ℕ)

/-- The instant of a number of seconds, if it is in the range of the calendar. -/
def ofSeconds (seconds : ℤ) : Option Instant :=
  let ordinal := (seconds / 86400 + epochOrdinal).toNat
  let rest := (seconds % 86400).toNat
  if h : 1 ≤ ordinal ∧ ordinal ≤ maxOrdinal then
    some
      { date := Date.ofOrdinal ordinal h.1 h.2
        hour := rest / 3600
        minute := rest / 60 % 60
        second := rest % 60
        hour_lt := by omega
        minute_lt := by omega
        second_lt := by omega }
  else none

end Instant

/-! ### Digits -/

/-- The value of an ASCII digit. -/
def digitValue (c : Char) : Option ℕ :=
  if 48 ≤ c.toNat ∧ c.toNat ≤ 57 then some (c.toNat - 48) else none

/-- The last digits of a number. -/
def lastDigits : ℕ → ℕ → List Char
  | 0, _ => []
  | width + 1, n => lastDigits width (n / 10) ++ [Nat.digitChar (n % 10)]

/-- The number that digits spell. -/
def readDigits (chars : List Char) : Option ℕ :=
  chars.foldlM (fun n c => (digitValue c).map fun digit => 10 * n + digit) 0

theorem digitValue_digitChar {digit : ℕ} (h : digit < 10) :
    digitValue (Nat.digitChar digit) = some digit := by
  have hall : ∀ d < 10, digitValue (Nat.digitChar d) = some d := by decide
  exact hall digit h

theorem length_lastDigits (width n : ℕ) : (lastDigits width n).length = width := by
  induction width generalizing n with
  | zero => rfl
  | succ width ih => rw [lastDigits, List.length_append, ih, List.length_singleton]

/-- Enough digits spell the number. -/
theorem readDigits_lastDigits {width n : ℕ} (h : n < 10 ^ width) :
    readDigits (lastDigits width n) = some n := by
  induction width generalizing n with
  | zero =>
    rw [pow_zero, Nat.lt_one_iff] at h
    rw [h]
    rfl
  | succ width ih =>
    have hfront : n / 10 < 10 ^ width := by
      rw [pow_succ] at h
      omega
    have hlast : n % 10 < 10 := Nat.mod_lt n (by decide)
    have hsplit : 10 * (n / 10) + n % 10 = n := Nat.div_add_mod n 10
    show (lastDigits width (n / 10) ++ [Nat.digitChar (n % 10)]).foldlM _ 0 = some n
    rw [List.foldlM_append]
    show (readDigits (lastDigits width (n / 10)) >>= _) = some n
    rw [ih hfront]
    show (digitValue (Nat.digitChar (n % 10))).map (fun digit => 10 * (n / 10) + digit) >>= pure
      = some n
    rw [digitValue_digitChar hlast, Option.map_some, hsplit]
    rfl

/-! ### The text of an instant -/

/-- Reads a number of a given width and the character behind it. -/
def readField (width : ℕ) (stop : Char) (chars : List Char) : Option (ℕ × List Char) := do
  let n ← readDigits (chars.take width)
  match chars.drop width with
  | [] => none
  | c :: rest => if c = stop then some (n, rest) else none

theorem readField_lastDigits {width n : ℕ} (h : n < 10 ^ width) (stop : Char)
    (rest : List Char) :
    readField width stop (lastDigits width n ++ stop :: rest) = some (n, rest) := by
  have hlength := length_lastDigits width n
  rw [readField, List.take_left' hlength, List.drop_left' hlength, readDigits_lastDigits h]
  show (if stop = stop then some (n, rest) else none) = _
  rw [if_pos rfl]

namespace Instant

/-- The text `YYYY-MM-DDTHH:mm:ssZ` of an instant. -/
def isoformat (instant : Instant) : String :=
  String.ofList (lastDigits 4 instant.date.year ++ '-' :: (lastDigits 2 instant.date.month
    ++ '-' :: (lastDigits 2 instant.date.day ++ 'T' :: (lastDigits 2 instant.hour
    ++ ':' :: (lastDigits 2 instant.minute ++ ':' :: (lastDigits 2 instant.second ++ ['Z']))))))

/-- Reads an instant. -/
def read (text : String) : Option Instant := do
  let (year, chars) ← readField 4 '-' text.toList
  let (month, chars) ← readField 2 '-' chars
  let (day, chars) ← readField 2 'T' chars
  let (hour, chars) ← readField 2 ':' chars
  let (minute, chars) ← readField 2 ':' chars
  let (second, chars) ← readField 2 'Z' chars
  if h : chars = [] ∧ 1 ≤ year ∧ year ≤ 9999 ∧ 1 ≤ month ∧ month ≤ 12 ∧ 1 ≤ day
      ∧ day ≤ daysInMonth (isLeap year) month ∧ hour < 24 ∧ minute < 60 ∧ second < 60 then
    have ⟨_, hyear, hyears, hmonth, hmonths, hday, hdays, hhour, hminute, hsecond⟩ := h
    some ⟨⟨year, month, day, hyear, hyears, hmonth, hmonths, hday, hdays⟩, hour, minute, second,
      hhour, hminute, hsecond⟩
  else none

theorem daysInMonth_le (leap : Bool) (month : ℕ) : daysInMonth leap month ≤ 31 := by
  unfold daysInMonth
  split
  · cases leap <;> decide
  all_goals decide

/-- The text of an instant is read back. -/
theorem read_isoformat (instant : Instant) : read instant.isoformat = some instant := by
  obtain ⟨⟨year, month, day, hyear, hyears, hmonth, hmonths, hday, hdays⟩, hour, minute, second,
    hhour, hminute, hsecond⟩ := instant
  have hlong := daysInMonth_le (isLeap year) month
  simp only [read, isoformat, String.toList_ofList]
  rw [readField_lastDigits (by omega)]
  dsimp only [Option.bind_eq_bind, Option.bind_some]
  rw [readField_lastDigits (by omega)]
  dsimp only [Option.bind_some]
  rw [readField_lastDigits (by omega)]
  dsimp only [Option.bind_some]
  rw [readField_lastDigits (by omega)]
  dsimp only [Option.bind_some]
  rw [readField_lastDigits (by omega)]
  dsimp only [Option.bind_some]
  rw [readField_lastDigits (by omega)]
  dsimp only [Option.bind_some]
  rw [dif_pos ⟨rfl, hyear, hyears, hmonth, hmonths, hday, hdays, hhour, hminute, hsecond⟩]

end Instant

end Mocop
