import Mathlib.Tactic.Linarith
import Mathlib.Tactic.Ring

/-!
# `Mocop.Lib.Periodic`: spans of time that recur

A recurrence begins once in every period and lasts less than the period, so no two of its spans
meet. `isLeast_ends` and `covers_iff` read everything off one end that is found: it is the next
end when it lies ahead and the end before it does not.
-/

set_option autoImplicit false

namespace Mocop

/-- Spans that begin at `phase` and at whole periods from there. -/
structure Periodic where
  phase : ℚ
  period : ℚ
  duration : ℚ
  duration_pos : 0 < duration
  duration_lt : duration < period

namespace Periodic

variable (r : Periodic)

/-- The begin of a span. -/
def start (k : ℤ) : ℚ := r.phase + k * r.period

/-- The end of a span. -/
def ending (k : ℤ) : ℚ := r.start k + r.duration

/-- Whether a span covers a time. A span includes its begin and not its end. -/
def Covers (t : ℚ) : Prop := ∃ k, r.start k ≤ t ∧ t < r.ending k

theorem period_pos : 0 < r.period := r.duration_pos.trans r.duration_lt

theorem start_add_one (k : ℤ) : r.start (k + 1) = r.start k + r.period := by
  unfold start
  push_cast
  ring

theorem ending_add_one (k : ℤ) : r.ending (k + 1) = r.ending k + r.period := by
  rw [ending, ending, start_add_one]
  ring

theorem start_mono {k later : ℤ} (h : k ≤ later) : r.start k ≤ r.start later := by
  have hcast : (k : ℚ) ≤ later := by exact_mod_cast h
  have hscaled := mul_le_mul_of_nonneg_right hcast r.period_pos.le
  unfold start
  linarith

variable {r} {k : ℤ} {t : ℚ}

/-- The spans up to `k - 1` have ended, so a span that has not is one from `k` on. -/
theorem le_of_ahead (hprevious : r.ending k - r.period ≤ t) {other : ℤ}
    (h : t < r.ending other) : k ≤ other := by
  by_contra hlt
  have hmono := r.start_mono (show other + 1 ≤ k by omega)
  rw [start_add_one] at hmono
  unfold ending at h hprevious
  linarith

/-- The next end: it lies ahead, and the one before it does not. -/
theorem isLeast_ends (hahead : t < r.ending k) (hprevious : r.ending k - r.period ≤ t) :
    IsLeast {e | t < e ∧ ∃ other, e = r.ending other} (r.ending k) := by
  constructor
  · exact ⟨hahead, k, rfl⟩
  · rintro e ⟨he, other, rfl⟩
    have hmono := r.start_mono (le_of_ahead hprevious he)
    unfold ending
    linarith

/-- A time is covered when the span of the next end has begun. -/
theorem covers_iff (hahead : t < r.ending k) (hprevious : r.ending k - r.period ≤ t) :
    r.Covers t ↔ r.start k ≤ t := by
  constructor
  · rintro ⟨other, hstart, hend⟩
    exact (r.start_mono (le_of_ahead hprevious hend)).trans hstart
  · intro hstart
    exact ⟨k, hstart, hahead⟩

end Periodic

end Mocop
