import Mocop.Lib.Dict
import Mathlib.Algebra.BigOperators.Group.List.Basic
import Mathlib.Order.MinMax
import Mathlib.Tactic.Abel

/-!
# `Mocop.Lib.Totals`: sums and maxima over a dictionary

`Dict.total` adds up what the entries of a dictionary contribute. An assignment takes the
contribution of the old value back and adds the one of the new value (`total_set`).

A maximum has no such inverse. `peak` is the largest of some contributions and zero, and a
proof about it goes through its upper bounds (`peak_le_iff`).
-/

set_option autoImplicit false

namespace Mocop

universe u v w

/-- The largest value of a list, and zero for the empty one. -/
def peak {M : Type w} [LinearOrder M] [Zero M] (values : List M) : M := values.foldl max 0

/-- The upper bounds of a peak. -/
theorem peak_le_iff {M : Type w} [LinearOrder M] [Zero M] {values : List M} {x : M} :
    peak values ≤ x ↔ 0 ≤ x ∧ ∀ value ∈ values, value ≤ x := by
  have hfold : ∀ (values : List M) (start : M),
      values.foldl max start ≤ x ↔ start ≤ x ∧ ∀ value ∈ values, value ≤ x := by
    intro values
    induction values with
    | nil => intro start; simp
    | cons value rest ih =>
      intro start
      rw [List.foldl_cons, ih, max_le_iff, and_assoc, List.forall_mem_cons]
  exact hfold values 0

/-- Two peaks with the same upper bounds are equal. -/
theorem eq_of_upperBounds {M : Type w} [PartialOrder M] {a b : M}
    (h : ∀ x, a ≤ x ↔ b ≤ x) : a = b :=
  le_antisymm ((h b).mpr le_rfl) ((h a).mp le_rfl)

namespace Dict

variable {κ : Type u} {ν : Type v} {M : Type w}

/-- The sum of what the entries contribute. -/
def total [AddCommGroup M] (d : Dict κ ν) (f : κ → ν → M) : M :=
  (d.entries.map (fun e => f e.1 e.2)).sum

variable [DecidableEq κ] [AddCommGroup M]

/-- An assignment replaces the contribution of its key. -/
theorem total_set (d : Dict κ ν) (k : κ) (v : ν) (f : κ → ν → M) :
    (d.set k v).total f = d.total f - ((d.get? k).map (f k)).getD 0 + f k v := by
  have hassign : ∀ l : List (κ × ν), ((assign k v l).map (fun e => f e.1 e.2)).sum
      = (l.map (fun e => f e.1 e.2)).sum - ((lookup k l).map (f k)).getD 0 + f k v := by
    intro l
    induction l with
    | nil => simp [assign, lookup]
    | cons e rest ih =>
      by_cases he : e.1 = k
      · simp only [assign, lookup, if_pos he, List.map_cons, List.sum_cons, Option.map_some,
          Option.getD_some]
        rw [← he]
        abel
      · simp only [assign, lookup, if_neg he, List.map_cons, List.sum_cons, ih]
        abel
  exact hassign d.entries

end Dict

end Mocop
