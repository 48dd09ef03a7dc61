import Mocop.Lib.Dict
import Mathlib.Data.List.DropRight

/-!
# `Mocop.Lib.Recent`: a table of the latest keys

A `Recent κ ν` is a dictionary next to the queue of its keys, oldest first. `record` enters a
key at the end, and `trim` drops the oldest keys until the queue is within a capacity.

`Shows window` says which entries the table holds. As long as no key is recorded twice, the
table shows the last entries that were recorded (`Shows.recordAll`), so a key reads its value
exactly while fewer entries than the capacity have followed it (`lookup_rtake`).
-/

set_option autoImplicit false

namespace Mocop

universe u v

/-- A dictionary and the queue of its keys, oldest first. -/
structure Recent (κ : Type u) (ν : Type v) where
  order : List κ := []
  table : Dict κ ν := ∅

namespace Recent

variable {κ : Type u} {ν : Type v} [DecidableEq κ]

/-- Enters a key. -/
def record (r : Recent κ ν) (entry : κ × ν) : Recent κ ν :=
  ⟨r.order ++ [entry.1], r.table.set entry.1 entry.2⟩

/-- Drops keys from the front of a queue until it is within the capacity. -/
def dropOldest (capacity : ℕ) : List κ → Dict κ ν → Recent κ ν
  | [], table => ⟨[], table⟩
  | k :: rest, table =>
    if capacity < rest.length + 1 then dropOldest capacity rest (table.erase k)
    else ⟨k :: rest, table⟩

/-- Drops the oldest keys until the queue is within the capacity. -/
def trim (capacity : ℕ) (r : Recent κ ν) : Recent κ ν := dropOldest capacity r.order r.table

/-- Enters keys and drops the oldest ones. -/
def recordAll (capacity : ℕ) (r : Recent κ ν) (entries : List (κ × ν)) : Recent κ ν :=
  (entries.foldl record r).trim capacity

/-- The table holds the entries of the window. -/
structure Shows (r : Recent κ ν) (window : List (κ × ν)) : Prop where
  order_eq : r.order = window.map Prod.fst
  get?_eq : ∀ k, r.table.get? k = Dict.lookup k window

theorem shows_empty : ({} : Recent κ ν).Shows [] := ⟨rfl, fun _ => rfl⟩

/-- An entry whose key is not the first of a list. -/
theorem lookup_append_singleton (k : κ) (window : List (κ × ν)) (entry : κ × ν)
    (hnew : entry.1 ∉ window.map Prod.fst) :
    Dict.lookup k (window ++ [entry])
      = if k = entry.1 then some entry.2 else Dict.lookup k window := by
  induction window with
  | nil =>
    by_cases h : entry.1 = k
    · simp [Dict.lookup, h]
    · simp [Dict.lookup, h, Ne.symm h]
  | cons e rest ih =>
    rw [List.map_cons, List.mem_cons, not_or] at hnew
    by_cases he : e.1 = k
    · have hk : k ≠ entry.1 := fun h => hnew.1 (h ▸ he.symm)
      simp [Dict.lookup, he, hk]
    · simp only [List.cons_append, Dict.lookup, if_neg he, ih hnew.2]

/-- A new key joins the window. -/
theorem Shows.record {r : Recent κ ν} {window : List (κ × ν)} (h : r.Shows window)
    (entry : κ × ν) (hnew : entry.1 ∉ window.map Prod.fst) :
    (r.record entry).Shows (window ++ [entry]) where
  order_eq := by rw [Recent.record, h.order_eq, List.map_append, List.map_singleton]
  get?_eq := fun k => by
    rw [Recent.record, Dict.get?_set, h.get?_eq, lookup_append_singleton k window entry hnew]

/-- New keys join the window. -/
theorem Shows.recordEach {r : Recent κ ν} {window : List (κ × ν)} (h : r.Shows window)
    (entries : List (κ × ν)) (hnodup : ((window ++ entries).map Prod.fst).Nodup) :
    (entries.foldl Recent.record r).Shows (window ++ entries) := by
  induction entries generalizing r window with
  | nil => simpa using h
  | cons entry rest ih =>
    have hsplit : window ++ entry :: rest = (window ++ [entry]) ++ rest := by simp
    rw [hsplit] at hnodup ⊢
    refine ih (h.record entry fun hmem => ?_) hnodup
    rw [List.map_append, List.map_append] at hnodup
    have hpart := (List.nodup_append.mp hnodup).1
    exact (List.nodup_append.mp hpart).2.2 entry.1 hmem entry.1 (by simp) rfl

/-- Dropping the oldest keys leaves the last entries. -/
theorem shows_dropOldest (capacity : ℕ) (window : List (κ × ν))
    (hnodup : (window.map Prod.fst).Nodup) (table : Dict κ ν)
    (hget : ∀ k, table.get? k = Dict.lookup k window) :
    (dropOldest capacity (window.map Prod.fst) table).Shows (window.rtake capacity) := by
  induction window generalizing table with
  | nil => exact ⟨by simp [dropOldest, List.rtake], fun k => by simp [dropOldest, hget, List.rtake]⟩
  | cons entry rest ih =>
    rw [List.map_cons, List.nodup_cons] at hnodup
    rw [List.map_cons, dropOldest, List.length_map]
    by_cases hfull : capacity < rest.length + 1
    · have hlast : (entry :: rest).rtake capacity = rest.rtake capacity := by
        have hdrop : (entry :: rest).length - capacity = (rest.length - capacity) + 1 := by
          rw [List.length_cons]
          omega
        rw [List.rtake, hdrop, List.drop_succ_cons, List.rtake]
      rw [if_pos hfull, hlast]
      refine ih hnodup.2 _ fun k => ?_
      rw [Dict.get?_erase, hget]
      by_cases hk : k = entry.1
      · rw [if_pos hk, hk]
        exact ((Dict.lookup_eq_none_iff _ _).mpr hnodup.1).symm
      · rw [if_neg hk, Dict.lookup, if_neg (Ne.symm hk)]
    · have hall : (entry :: rest).rtake capacity = entry :: rest := by
        have hdrop : (entry :: rest).length - capacity = 0 := by
          rw [List.length_cons]
          omega
        rw [List.rtake, hdrop, List.drop_zero]
      rw [if_neg hfull, hall]
      exact ⟨rfl, hget⟩

/-- The last entries of a list that was cut before. -/
theorem rtake_append_rtake {α : Type*} (capacity : ℕ) (entries more : List α) :
    (entries.rtake capacity ++ more).rtake capacity = (entries ++ more).rtake capacity := by
  unfold List.rtake
  rw [List.length_append, List.length_drop, List.length_append, List.drop_append,
    List.drop_append, List.drop_drop, List.length_drop]
  congr 2 <;> omega

/-- A table that shows the last entries shows the last entries after more were recorded. -/
theorem Shows.recordAll {r : Recent κ ν} {capacity : ℕ} {entries : List (κ × ν)}
    (h : r.Shows (entries.rtake capacity)) (more : List (κ × ν))
    (hnodup : ((entries ++ more).map Prod.fst).Nodup) :
    (r.recordAll capacity more).Shows ((entries ++ more).rtake capacity) := by
  have hsub : ((entries.rtake capacity ++ more).map Prod.fst).Nodup := by
    refine hnodup.sublist (List.Sublist.map _ ?_)
    exact (List.drop_sublist _ _).append_right more
  have hall := h.recordEach more hsub
  rw [Recent.recordAll, Recent.trim, hall.order_eq, ← rtake_append_rtake]
  exact shows_dropOldest capacity _ hsub _ hall.get?_eq

/-- A key reads its value among the last entries exactly while fewer entries than the capacity
follow it. -/
theorem lookup_rtake (capacity : ℕ) (before after : List (κ × ν)) (entry : κ × ν)
    (hnodup : ((before ++ entry :: after).map Prod.fst).Nodup) :
    Dict.lookup entry.1 ((before ++ entry :: after).rtake capacity)
      = if after.length < capacity then some entry.2 else none := by
  have hlast : ((before ++ entry :: after).rtake capacity)
      <:+ (before ++ entry :: after) := List.drop_suffix _ _
  have hsub := hnodup.sublist (hlast.sublist.map Prod.fst)
  by_cases hroom : after.length < capacity
  · rw [if_pos hroom, Dict.lookup_eq_some_iff _ _ _ hsub, List.rtake, List.drop_append]
    refine List.mem_append_right _ ?_
    have hzero : (before ++ entry :: after).length - capacity - before.length = 0 := by
      simp only [List.length_append, List.length_cons]
      omega
    rw [hzero]
    exact List.mem_cons_self
  · rw [if_neg hroom, Dict.lookup_eq_none_iff]
    intro hmem
    have hcut : (before ++ entry :: after).rtake capacity = after.rtake capacity := by
      rw [List.rtake, List.drop_append, List.rtake]
      have hgone : before.drop ((before ++ entry :: after).length - capacity) = [] := by
        refine List.drop_eq_nil_of_le ?_
        simp only [List.length_append, List.length_cons]
        omega
      have hdrop : (before ++ entry :: after).length - capacity - before.length
          = (after.length - capacity) + 1 := by
        simp only [List.length_append, List.length_cons]
        omega
      rw [hgone, hdrop, List.drop_succ_cons, List.nil_append]
    rw [hcut] at hmem
    rw [List.map_append, List.map_cons] at hnodup
    have hkeys := (List.nodup_cons.mp (List.nodup_append.mp hnodup).2.1).1
    exact hkeys (List.map_subset _ (List.drop_subset _ _) hmem)

end Recent

end Mocop
