import Mathlib.Algebra.Order.Group.Defs
import Mathlib.Data.List.Sublists

/-!
# `Mocop.Lib.Windows`: the densest window of a sorted list

Entries have a time. `densest` takes each entry in turn as the earliest of a group, collects the
entries from there on that are within the width of it, and keeps the longest group. On a list
that is sorted by time it finds a longest group within the width (`densest_spec`): the entries
of any such group come from its first entry on, and are all within the width of it.
-/

set_option autoImplicit false

namespace Mocop

universe u v

variable {α : Type u} {β : Type v} [AddCommGroup β] [LinearOrder β] [IsOrderedAddMonoid β]

/-- Any two entries are at most the width apart. -/
def Spans (time : α → β) (width : β) (group : List α) : Prop :=
  ∀ a ∈ group, ∀ b ∈ group, time a - time b ≤ width

variable (time : α → β) (width : β)

/-- The longest of the groups that start at an entry of the list, and of the best group so
far. -/
def densest (best : List α) : List α → List α
  | [] => best
  | first :: rest =>
    let group := (first :: rest).filter (fun member => time member - time first ≤ width)
    densest (if best.length < group.length then group else best) rest

variable {time width}

omit [IsOrderedAddMonoid β] in
/-- The search ends with a group that is no shorter than the one it began with. -/
theorem length_le_densest (best l : List α) :
    best.length ≤ (densest time width best l).length := by
  induction l generalizing best with
  | nil => exact le_rfl
  | cons first rest ih =>
    refine le_trans ?_ (ih _)
    split
    · rename_i hlonger
      exact hlonger.le
    · exact le_rfl

omit [IsOrderedAddMonoid β] in
/-- The search ends with the group that it began with, or with entries of the list. -/
theorem densest_subset (best l : List α) :
    densest time width best l = best ∨ (densest time width best l).Sublist l := by
  induction l generalizing best with
  | nil => exact Or.inl rfl
  | cons first rest ih =>
    rw [densest]
    rcases ih (if best.length < ((first :: rest).filter
      (fun member => time member - time first ≤ width)).length then (first :: rest).filter
        (fun member => time member - time first ≤ width) else best) with heq | hsub
    · rw [heq]
      split
      · exact Or.inr List.filter_sublist
      · exact Or.inl rfl
    · exact Or.inr (hsub.cons first)

/-- The entries that follow the earliest one within the width are a group. -/
theorem spans_filter {first : α} {l : List α} (hfirst : ∀ member ∈ l, time first ≤ time member) :
    Spans time width (l.filter (fun member => time member - time first ≤ width)) := by
  intro a ha b hb
  have hnear : time a - time first ≤ width := by simpa using (List.mem_filter.mp ha).2
  have hlate := hfirst b (List.mem_of_mem_filter hb)
  exact (sub_le_sub_left hlate (time a)).trans hnear

/-- On a sorted list the search finds a longest group within the width. -/
theorem densest_spec {l : List α} (hsorted : l.Pairwise (fun a b => time a ≤ time b))
    (best : List α) (hbest : Spans time width best) :
    Spans time width (densest time width best l)
      ∧ ∀ group, group.Sublist l → Spans time width group →
          group.length ≤ (densest time width best l).length := by
  induction l generalizing best with
  | nil =>
    refine ⟨hbest, fun group hsub _ => ?_⟩
    rw [List.sublist_nil.mp hsub]
    exact Nat.zero_le _
  | cons first rest ih =>
    obtain ⟨hfirst, hrest⟩ := List.pairwise_cons.mp hsorted
    have hearliest : ∀ member ∈ first :: rest, time first ≤ time member := fun member hmem =>
      (List.mem_cons.mp hmem).elim (fun h => h ▸ le_rfl) (hfirst member)
    have hkept : Spans time width (if best.length < ((first :: rest).filter
        (fun member => time member - time first ≤ width)).length then (first :: rest).filter
          (fun member => time member - time first ≤ width) else best) := by
      split
      · exact spans_filter hearliest
      · exact hbest
    obtain ⟨hspans, hlongest⟩ := ih hrest _ hkept
    refine ⟨hspans, fun group hsub hgroup => ?_⟩
    cases hsub with
    | cons _ hsub => exact hlongest group hsub hgroup
    | cons_cons _ hsub =>
      -- a group that begins with this entry is among the entries within the width of it
      rename_i tail
      have hnear : ∀ member ∈ first :: tail, time member - time first ≤ width :=
        fun member hmem => hgroup member hmem first List.mem_cons_self
      have hfilter : (first :: tail).filter (fun member => time member - time first ≤ width)
          = first :: tail := List.filter_eq_self.mpr (fun member hmem => by
        simpa using hnear member hmem)
      have hwithin : (first :: tail).length ≤ ((first :: rest).filter
          (fun member => time member - time first ≤ width)).length := by
        rw [← hfilter]
        exact ((hsub.cons_cons first).filter _).length_le
      refine le_trans (le_trans hwithin ?_) (length_le_densest _ rest)
      split
      · exact le_rfl
      · rename_i hlonger
        exact not_lt.mp hlonger

end Mocop
