import Mathlib.Order.Lattice
import Mathlib.Data.List.Induction

/-!
# `Mocop.Lib.Largest`: the first of the largest items

`firstLargest` is the first item that no other exceeds. A loop that replaces the kept item only by
a larger one ends with it (`foldl_keepLarger`).
-/

set_option autoImplicit false

namespace Mocop

universe u v

variable {α : Type u} {β : Type v} [LinearOrder β]

/-- The first item that no item exceeds. -/
def firstLargest (rank : α → β) (l : List α) : Option α :=
  l.find? fun a => l.all fun b => decide (rank b ≤ rank a)

/-- The kept item, and one more. -/
def keepLarger (rank : α → β) (kept : Option α) (item : α) : Option α :=
  match kept with
  | none => some item
  | some current => if rank current < rank item then some item else some current

variable {rank : α → β}

/-- The first of the largest stands behind smaller items and before items that are not larger. -/
theorem firstLargest_eq_some {l before after : List α} {a : α} (hsplit : l = before ++ a :: after)
    (hbefore : ∀ b ∈ before, rank b < rank a) (hafter : ∀ b ∈ after, rank b ≤ rank a) :
    firstLargest rank l = some a := by
  have hall : ∀ b ∈ l, rank b ≤ rank a := by
    intro b hb
    rw [hsplit] at hb
    rcases List.mem_append.mp hb with hin | hin
    · exact (hbefore b hin).le
    · rcases List.mem_cons.mp hin with rfl | hin
      · exact le_rfl
      · exact hafter b hin
  refine List.find?_eq_some_iff_append.mpr ⟨?_, before, after, hsplit, ?_⟩
  · simpa using hall
  · -- An item before is smaller than `a`.
    intro b hb
    have ha : a ∈ l := by simp [hsplit]
    simpa using ⟨a, ha, hbefore b hb⟩

/-- The loop keeps the first of the largest. -/
theorem foldl_keepLarger (l : List α) : l.foldl (keepLarger rank) none = firstLargest rank l := by
  have hkept : l = [] ∨ ∃ a before after, l.foldl (keepLarger rank) none = some a
      ∧ l = before ++ a :: after ∧ (∀ b ∈ before, rank b < rank a)
      ∧ ∀ b ∈ after, rank b ≤ rank a := by
    induction l using List.reverseRecOn with
    | nil => exact .inl rfl
    | append_singleton l item ih =>
      right
      rw [List.foldl_append]
      show ∃ a before after, keepLarger rank _ item = some a ∧ _
      rcases ih with rfl | ⟨a, before, after, hfold, hsplit, hbefore, hafter⟩
      · exact ⟨item, [], [], rfl, rfl, by simp, by simp⟩
      · rw [hfold]
        by_cases hlt : rank a < rank item
        · -- The new item exceeds all items so far.
          refine ⟨item, l, [], if_pos hlt, rfl, fun b hb => ?_, by simp⟩
          rw [hsplit] at hb
          rcases List.mem_append.mp hb with hin | hin
          · exact (hbefore b hin).trans hlt
          · rcases List.mem_cons.mp hin with rfl | hin
            · exact hlt
            · exact (hafter b hin).trans_lt hlt
        · refine ⟨a, before, after ++ [item], if_neg hlt, by simp [hsplit], hbefore,
            fun b hb => ?_⟩
          rcases List.mem_append.mp hb with hin | hin
          · exact hafter b hin
          · rw [List.mem_singleton.mp hin]
            exact not_lt.mp hlt
  rcases hkept with rfl | ⟨a, before, after, hfold, hsplit, hbefore, hafter⟩
  · rfl
  · rw [hfold, firstLargest_eq_some hsplit hbefore hafter]

theorem mem_of_firstLargest {l : List α} {a : α} (h : firstLargest rank l = some a) : a ∈ l :=
  List.mem_of_find?_eq_some h

/-- Only the empty list has no largest item. -/
theorem firstLargest_eq_none {l : List α} : firstLargest rank l = none ↔ l = [] := by
  rw [← foldl_keepLarger]
  constructor
  · intro hnone
    induction l using List.reverseRecOn with
    | nil => rfl
    | append_singleton l item ih =>
      rw [List.foldl_append, List.foldl_cons, List.foldl_nil] at hnone
      unfold keepLarger at hnone
      split at hnone
      · cases hnone
      · split at hnone <;> cases hnone
  · rintro rfl
    rfl

/-- The first of the largest images is the image of the first of the largest. -/
theorem firstLargest_map {γ : Type u} (f : γ → α) (l : List γ) :
    firstLargest rank (l.map f) = (firstLargest (fun c => rank (f c)) l).map f := by
  simp [firstLargest, List.find?_map, Function.comp_def]

end Mocop
