import Mathlib.Data.List.Perm.Basic
import Mathlib.Data.List.Nodup
import Mathlib.Data.Set.Function

/-!
# `Mocop.Lib.Pool`: passes that take items out of one pool

Several passes run over the items of one pool. A pass gathers some of them into groups and notes
the keys of what it gathered, and the passes after it leave alone what is noted. `Taken` is what
holds between two steps of such a pass: the groups so far hold each noted item once, and nothing
else. A step that gathers items of which none is noted keeps it (`Taken.add`). When the last pass
gathers all the rest, the groups are a partition of the pool (`Taken.rest`).
-/

set_option autoImplicit false

namespace Mocop

universe u v

variable {α : Type u} {κ : Type v} {key : α → κ} {pool : List α}

/-- The groups hold what is noted, once each. -/
structure Taken (key : α → κ) (pool : List α) (groups : List (List α)) (noted : List κ) :
    Prop where
  nodup : groups.flatten.Nodup
  subset : ∀ x ∈ groups.flatten, x ∈ pool
  noted_iff : ∀ x ∈ pool, key x ∈ noted ↔ x ∈ groups.flatten

theorem taken_nil (key : α → κ) (pool : List α) : Taken key pool [] [] where
  nodup := List.nodup_nil
  subset := fun _ hx => absurd hx List.not_mem_nil
  noted_iff := fun _ _ => by simp

variable {groups : List (List α)} {noted : List κ}

/-- A further group of items of which none is noted. -/
theorem Taken.add (h : Taken key pool groups noted) (hkey : Set.InjOn key {x | x ∈ pool})
    {group : List α} (hnodup : group.Nodup) (hpool : ∀ x ∈ group, x ∈ pool)
    (hnew : ∀ x ∈ group, key x ∉ noted) :
    Taken key pool (groups ++ [group]) (noted ++ group.map key) := by
  have hflatten : (groups ++ [group]).flatten = groups.flatten ++ group := by simp
  constructor
  · rw [hflatten, List.nodup_append]
    refine ⟨h.nodup, hnodup, ?_⟩
    rintro x hx y hy rfl
    exact hnew x hy ((h.noted_iff x (hpool x hy)).mpr hx)
  · intro x hx
    rw [hflatten, List.mem_append] at hx
    exact hx.elim (h.subset x) (hpool x)
  · intro x hx
    -- The key of an item tells it apart from the other items of the pool.
    have hgroup : key x ∈ group.map key ↔ x ∈ group := by
      rw [List.mem_map]
      constructor
      · rintro ⟨y, hy, heq⟩
        exact hkey (hpool y hy) hx heq ▸ hy
      · intro hin
        exact ⟨x, hin, rfl⟩
    rw [hflatten, List.mem_append, List.mem_append, h.noted_iff x hx, hgroup]

/-- The groups, and groups of all the rest. -/
theorem Taken.rest (h : Taken key pool groups noted) (hpool : pool.Nodup) {rest : List (List α)}
    (hnodup : rest.flatten.Nodup)
    (hrest : ∀ x, x ∈ rest.flatten ↔ x ∈ pool ∧ key x ∉ noted) :
    (groups ++ rest).flatten.Perm pool := by
  rw [List.flatten_append]
  have hall : (groups.flatten ++ rest.flatten).Nodup := by
    rw [List.nodup_append]
    refine ⟨h.nodup, hnodup, ?_⟩
    rintro x hx y hy rfl
    have hout := (hrest x).mp hy
    exact hout.2 ((h.noted_iff x hout.1).mpr hx)
  rw [List.perm_ext_iff_of_nodup hall hpool]
  intro x
  rw [List.mem_append, hrest]
  constructor
  · rintro (hx | ⟨hx, -⟩)
    · exact h.subset x hx
    · exact hx
  · intro hx
    by_cases hnoted : key x ∈ noted
    · exact .inl ((h.noted_iff x hx).mp hnoted)
    · exact .inr ⟨hx, hnoted⟩

end Mocop
