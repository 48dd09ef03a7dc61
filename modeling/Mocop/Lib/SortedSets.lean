import Mocop.Lib.Sorting
import Mathlib.Data.List.Perm.Subperm

/-!
# `Mocop.Lib.SortedSets`: the distinct elements of a list

`sortedSet` lists the distinct elements of a list in their order. Lists with the same elements have
the same one (`sortedSet_congr`), and so have two lists without repetitions that a key tells apart
(`sortBy_congr_of_mem_iff`).
-/

set_option autoImplicit false

namespace Mocop

universe u v

section Distinct

variable {α : Type u} [DecidableEq α]

/-- A list without its repetitions has no duplicate. -/
theorem nodup_eraseDups (l : List α) : l.eraseDups.Nodup := by
  induction hlength : l.length using Nat.strong_induction_on generalizing l with
  | _ n ih =>
    cases l with
    | nil => exact List.nodup_nil
    | cons a rest =>
      have hlt : (rest.filter fun b => !b == a).length < n := by
        have := List.length_filter_le (fun b => !b == a) rest
        rw [List.length_cons] at hlength
        omega
      rw [List.eraseDups_cons, List.nodup_cons, List.mem_eraseDups]
      exact ⟨by simp, ih _ hlt _ rfl⟩

/-- A list without duplicates has none to erase. -/
theorem eraseDups_of_nodup {l : List α} (h : l.Nodup) : l.eraseDups = l := by
  induction l with
  | nil => rfl
  | cons a rest ih =>
    obtain ⟨ha, hrest⟩ := List.nodup_cons.mp h
    have hself : (rest.filter fun b => !b == a) = rest :=
      List.filter_eq_self.mpr fun b hb => by
        have hne : b ≠ a := fun heq => ha (heq ▸ hb)
        simpa using hne
    rw [List.eraseDups_cons, hself, ih hrest]

/-- A list that holds only elements of another, each at most `times` times, is no longer than the
other one so many times over. -/
theorem length_le_of_count_le {l m : List α} {times : ℕ} (hmem : ∀ a ∈ l, a ∈ m)
    (hcount : ∀ a ∈ l, l.count a ≤ times) : l.length ≤ times * m.length := by
  have hsubperm : l.Subperm (List.replicate times m).flatten := by
    refine List.subperm_ext_iff.mpr fun a ha => (hcount a ha).trans ?_
    have hone : 1 ≤ m.count a := List.count_pos_iff.mpr (hmem a ha)
    rw [List.count_flatten, List.map_replicate, List.sum_replicate_nat]
    exact Nat.le_mul_of_pos_right times hone
  have hlength := hsubperm.length_le
  rwa [List.length_flatten, List.map_replicate, List.sum_replicate_nat] at hlength

end Distinct

section Sorted

variable {α : Type u} {β : Type v} [LinearOrder α] [LinearOrder β]

/-- Lists without repetitions and with the same elements are sorted alike when the key tells the
elements apart. -/
theorem sortBy_congr_of_mem_iff {γ : Type u} {key : γ → β} {l m : List γ} (hl : l.Nodup)
    (hm : m.Nodup) (hmem : ∀ a, a ∈ l ↔ a ∈ m)
    (hkey : ∀ a ∈ l, ∀ b ∈ l, key a = key b → a = b) : sortBy key l = sortBy key m :=
  sortBy_congr ((List.perm_ext_iff_of_nodup hl hm).mpr hmem) hkey

/-- Distinct elements in their order. -/
def sortedSet (l : List α) : List α := sortBy id l.eraseDups

theorem mem_sortedSet {l : List α} {a : α} : a ∈ sortedSet l ↔ a ∈ l := by
  rw [sortedSet, mem_sortBy, List.mem_eraseDups]

theorem nodup_sortedSet (l : List α) : (sortedSet l).Nodup :=
  (sortBy_perm id _).nodup_iff.mpr (nodup_eraseDups l)

/-- Lists with the same elements have the same distinct ones. -/
theorem sortedSet_congr {l m : List α} (h : ∀ a, a ∈ l ↔ a ∈ m) : sortedSet l = sortedSet m :=
  sortBy_congr_of_mem_iff (nodup_eraseDups l) (nodup_eraseDups m)
    (fun a => by rw [List.mem_eraseDups, List.mem_eraseDups, h]) fun _ _ _ _ heq => heq

end Sorted

end Mocop
