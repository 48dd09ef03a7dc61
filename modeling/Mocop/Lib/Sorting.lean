import Mathlib.Data.List.Sort

/-!
# `Mocop.Lib.Sorting`: stable sorting by a key

`sortBy` sorts a list by a key and keeps the order of what the key does not tell apart. Two
facts carry the results about restored orders. Where the wanted order increases strictly in the
key, the sort restores it (`filter_sortBy_eq`). And of two entries that the key does not tell
apart, the one that came first stays first (`pair_sublist_sortBy`).

The order of two entries of a list is a sublist of two: in a list without duplicates only one of
the two orders holds (`not_sublist_swap`).
-/

set_option autoImplicit false

namespace Mocop

universe u v

variable {α : Type u} {β : Type v} [LinearOrder β]

/-- Sorts by a key, stably. -/
def sortBy (key : α → β) (l : List α) : List α := l.mergeSort (fun a b => decide (key a ≤ key b))

variable {key : α → β} {l : List α}

section

omit [LinearOrder β]

/-- Two entries of a list come in one of the two orders. -/
theorem pair_sublist_or {a b : α} (ha : a ∈ l) (hb : b ∈ l) (hne : a ≠ b) :
    [a, b].Sublist l ∨ [b, a].Sublist l := by
  induction l with
  | nil => simp at ha
  | cons first rest ih =>
    rcases List.mem_cons.mp ha with rfl | ha
    · rcases List.mem_cons.mp hb with rfl | hb
      · exact absurd rfl hne
      · exact Or.inl (List.Sublist.cons_cons a (List.singleton_sublist.mpr hb))
    · rcases List.mem_cons.mp hb with hfirst | hb
      · rw [hfirst]
        exact Or.inr (List.Sublist.cons_cons first (List.singleton_sublist.mpr ha))
      · rcases ih ha hb with h | h
        · exact Or.inl (h.cons _)
        · exact Or.inr (h.cons _)

/-- In a list without duplicates only one order of two entries holds. -/
theorem not_sublist_swap {a b : α} (hl : l.Nodup) (h : [a, b].Sublist l) :
    ¬ [b, a].Sublist l := by
  intro hswap
  have hne : a ≠ b := by
    have hpair := hl.sublist h
    simpa using hpair
  induction l with
  | nil => simp at h
  | cons first rest ih =>
    rw [List.nodup_cons] at hl
    cases h with
    | cons _ h =>
      cases hswap with
      | cons _ hswap => exact ih hl.2 h hswap
      | cons_cons _ hswap => exact hl.1 (h.subset (by simp))
    | cons_cons _ h =>
      cases hswap with
      | cons _ hswap => exact hl.1 (hswap.subset (by simp))
      | cons_cons _ hswap => exact hne rfl

end

theorem sortBy_perm (key : α → β) (l : List α) : (sortBy key l).Perm l := List.mergeSort_perm ..

@[simp] theorem mem_sortBy {a : α} : a ∈ sortBy key l ↔ a ∈ l := List.mem_mergeSort

@[simp] theorem length_sortBy : (sortBy key l).length = l.length := List.length_mergeSort l

theorem pairwise_sortBy (key : α → β) (l : List α) :
    (sortBy key l).Pairwise (fun a b => key a ≤ key b) := by
  have hsorted : (sortBy key l).Pairwise (fun a b => decide (key a ≤ key b) = true) :=
    List.pairwise_mergeSort
      (fun a b c hab hbc => by
        rw [decide_eq_true_eq] at hab hbc ⊢
        exact le_trans hab hbc)
      (fun a b => by
        rw [Bool.or_eq_true, decide_eq_true_eq, decide_eq_true_eq]
        exact le_total (key a) (key b)) l
  exact hsorted.imp (fun h => of_decide_eq_true h)

/-- Lists of the same elements are sorted alike when the key tells the elements apart. -/
theorem sortBy_congr {l' : List α} (hperm : l.Perm l')
    (hkey : ∀ a ∈ l, ∀ b ∈ l, key a = key b → a = b) : sortBy key l = sortBy key l' := by
  refine @List.Perm.eq_of_pairwise _ (fun a b => key a ≤ key b) _ _ ?_ (pairwise_sortBy key l)
    (pairwise_sortBy key l') ((sortBy_perm key l).trans (hperm.trans (sortBy_perm key l').symm))
  intro a b ha hb hle hge
  exact hkey a (mem_sortBy.mp ha) b (hperm.mem_iff.mpr (mem_sortBy.mp hb)) (le_antisymm hle hge)

/-- Of two entries that the key puts in their order, or does not tell apart, the first stays
first. -/
theorem pair_sublist_sortBy {a b : α} (hle : key a ≤ key b) (h : [a, b].Sublist l) :
    [a, b].Sublist (sortBy key l) :=
  List.pair_sublist_mergeSort
    (fun a b c hab hbc => by
      rw [decide_eq_true_eq] at hab hbc ⊢
      exact le_trans hab hbc)
    (fun a b => by
      rw [Bool.or_eq_true, decide_eq_true_eq, decide_eq_true_eq]
      exact le_total (key a) (key b))
    (decide_eq_true hle) h

/-- The entries of one kind come out in the order in which the key increases strictly. -/
theorem filter_sortBy_eq {p : α → Bool} {target : List α} (hperm : target.Perm (l.filter p))
    (hlt : target.Pairwise (fun a b => key a < key b)) : (sortBy key l).filter p = target := by
  have hsame : ((sortBy key l).filter p).Perm target :=
    ((sortBy_perm key l).filter p).trans hperm.symm
  refine @List.Perm.eq_of_pairwise _ (fun a b => key a ≤ key b) _ _ ?_
    ((pairwise_sortBy key l).sublist List.filter_sublist) (hlt.imp le_of_lt) hsame
  intro a b ha hb hab hba
  by_contra hne
  rcases pair_sublist_or (hsame.mem_iff.mp ha) hb hne with h | h
  · have hpair := hlt.sublist h
    rw [List.pairwise_pair] at hpair
    exact absurd hba (not_le.mpr hpair)
  · have hpair := hlt.sublist h
    rw [List.pairwise_pair] at hpair
    exact absurd hab (not_le.mpr hpair)

end Mocop
