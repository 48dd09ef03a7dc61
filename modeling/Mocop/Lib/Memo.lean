import Mocop.Lib.Dict

/-!
# `Mocop.Lib.Memo`: a table of computed values

A memo of a function holds values that were computed before. It is coherent (`MemoOf`) when every
value in it is the value of the function. `remember` looks a value up, or computes and keeps it: out
of a coherent memo it reads the value of the function, and it leaves the memo coherent. A memo
stays coherent when entries are dropped, and the empty one is coherent for every function. So a
table that is emptied whenever its function changes never shows a value of an earlier function.
-/

set_option autoImplicit false

namespace Mocop

universe u v

variable {κ : Type u} {ν : Type v} [DecidableEq κ]

/-- Every value in the memo is the value of the function. -/
def MemoOf (compute : κ → ν) (memo : Dict κ ν) : Prop :=
  ∀ k v, memo.get? k = some v → v = compute k

/-- The value for a key: the one in the memo, or a new one, which is kept. -/
def remember (compute : κ → ν) (memo : Dict κ ν) (k : κ) : ν × Dict κ ν :=
  match memo.get? k with
  | some v => (v, memo)
  | none => (compute k, memo.set k (compute k))

variable {compute : κ → ν} {memo : Dict κ ν}

theorem memoOf_empty (compute : κ → ν) : MemoOf compute (∅ : Dict κ ν) := by
  intro k v h
  simp at h

/-- A coherent memo reads the value of the function. -/
theorem MemoOf.remember_eq (h : MemoOf compute memo) (k : κ) :
    (remember compute memo k).1 = compute k := by
  unfold remember
  cases hget : memo.get? k with
  | some v => exact h k v hget
  | none => rfl

/-- Reading leaves a memo coherent. -/
theorem MemoOf.remember (h : MemoOf compute memo) (k : κ) :
    MemoOf compute (remember compute memo k).2 := by
  unfold Mocop.remember
  cases hget : memo.get? k with
  | some v => exact h
  | none =>
    intro other v hother
    rw [Dict.get?_set] at hother
    by_cases hk : other = k
    · rw [if_pos hk] at hother
      rw [← Option.some.inj hother, hk]
    · rw [if_neg hk] at hother
      exact h other v hother

/-- Dropping entries leaves a memo coherent. -/
theorem MemoOf.filterKeys (h : MemoOf compute memo) (p : κ → Bool) :
    MemoOf compute (memo.filterKeys p) := by
  intro k v hget
  rw [Dict.get?_filterKeys] at hget
  by_cases hp : p k = true
  · rw [if_pos hp] at hget
    exact h k v hget
  · rw [if_neg hp] at hget
    cases hget

end Mocop
