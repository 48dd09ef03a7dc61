import Mocop.Lib.Dict
import Mathlib.Data.List.Sort

/-!
# `Mocop.Lib.Table`: rows under increasing integer ids

A table with an integer primary key is a dictionary from ids to rows. The latest row that
satisfies a condition is the one under the largest id, whatever the order of the entries:
`lastWhere` is the query `… WHERE p ORDER BY id DESC LIMIT 1`, and its lemmas say what it
returns after an insertion (`lastWhere_set_of_pos`, `lastWhere_set_of_neg`) and after a
deletion that keeps it (`lastWhere_filter`).

`newest` is the query `… ORDER BY id DESC LIMIT count`.
-/

set_option autoImplicit false

namespace Mocop

universe u v

namespace Dict

variable {ν : Type v}

/-- The entry with the larger id, the first one of a tie. -/
def laterEntry (best : Option (ℕ × ν)) (entry : ℕ × ν) : Option (ℕ × ν) :=
  match best with
  | some b => if b.1 < entry.1 then some entry else some b
  | none => some entry

/-- The row with the largest id among those that satisfy `p`. -/
def lastWhere (d : Dict ℕ ν) (p : ν → Bool) : Option (ℕ × ν) :=
  (d.entries.filter (fun e => p e.2)).foldl laterEntry none

/-- The later of two entries is one of them and has the larger id. -/
theorem laterEntry_spec (best : Option (ℕ × ν)) (entry : ℕ × ν) :
    ∃ e, laterEntry best entry = some e ∧ (e = entry ∨ best = some e) ∧ entry.1 ≤ e.1
      ∧ ∀ b, best = some b → b.1 ≤ e.1 := by
  cases best with
  | none => exact ⟨entry, rfl, Or.inl rfl, le_rfl, by simp⟩
  | some b =>
    by_cases hlt : b.1 < entry.1
    · refine ⟨entry, by rw [laterEntry, if_pos hlt], Or.inl rfl, le_rfl, fun b' hb' => ?_⟩
      exact Option.some.inj hb' ▸ le_of_lt hlt
    · refine ⟨b, by rw [laterEntry, if_neg hlt], Or.inr rfl, not_lt.mp hlt, fun b' hb' => ?_⟩
      exact Option.some.inj hb' ▸ le_rfl

/-- Folding `laterEntry` over a list finds an entry of the list, or keeps the start, and
what it finds has the largest id. -/
theorem foldl_laterEntry (l : List (ℕ × ν)) (best : Option (ℕ × ν)) :
    (l.foldl laterEntry best = none → l = [] ∧ best = none)
      ∧ ∀ e, l.foldl laterEntry best = some e →
        (e ∈ l ∨ best = some e) ∧ (∀ e' ∈ l, e'.1 ≤ e.1) ∧ ∀ b, best = some b → b.1 ≤ e.1 := by
  induction l generalizing best with
  | nil =>
    refine ⟨fun h => ⟨rfl, h⟩, fun e he => ⟨Or.inr he, by simp, fun b hb => ?_⟩⟩
    exact le_of_eq (congrArg Prod.fst (Option.some.inj (hb.symm.trans he)))
  | cons entry rest ih =>
    obtain ⟨later, hlater, hfrom, hentry, hbest⟩ := laterEntry_spec best entry
    rw [List.foldl_cons, hlater]
    obtain ⟨hnone, hsome⟩ := ih (some later)
    refine ⟨fun h => absurd (hnone h).2 (by simp), fun e he => ?_⟩
    obtain ⟨hmem, hmax, hstart⟩ := hsome e he
    have hle : later.1 ≤ e.1 := hstart later rfl
    refine ⟨?_, fun e' he' => ?_, fun b hb => le_trans (hbest b hb) hle⟩
    · rcases hmem with hmem | hmem
      · exact Or.inl (List.mem_cons_of_mem entry hmem)
      · obtain rfl := Option.some.inj hmem
        rcases hfrom with rfl | hfrom
        · exact Or.inl List.mem_cons_self
        · exact Or.inr hfrom
    · rcases List.mem_cons.mp he' with rfl | he'
      · exact le_trans hentry hle
      · exact hmax e' he'

/-- The latest row is a row that satisfies the condition, under the largest such id. -/
theorem lastWhere_spec {d : Dict ℕ ν} {p : ν → Bool} {id : ℕ} {row : ν}
    (h : d.lastWhere p = some (id, row)) :
    d.get? id = some row ∧ p row = true
      ∧ ∀ id' row', d.get? id' = some row' → p row' = true → id' ≤ id := by
  obtain ⟨hmem, hmax, -⟩ :=
    (foldl_laterEntry (d.entries.filter (fun e => p e.2)) none).2 (id, row) h
  have hmem := List.mem_filter.mp (hmem.resolve_right (by simp))
  refine ⟨(d.get?_eq_some_iff id row).mpr hmem.1, hmem.2, fun id' row' hget hp => ?_⟩
  exact hmax (id', row') (List.mem_filter.mpr ⟨(d.get?_eq_some_iff id' row').mp hget, hp⟩)

/-- There is no latest row exactly when no row satisfies the condition. -/
theorem lastWhere_eq_none_iff {d : Dict ℕ ν} {p : ν → Bool} :
    d.lastWhere p = none ↔ ∀ id row, d.get? id = some row → p row = false := by
  constructor
  · intro h id row hget
    have hempty := ((foldl_laterEntry (d.entries.filter (fun e => p e.2)) none).1 h).1
    have hnot := List.filter_eq_nil_iff.mp hempty (id, row)
      ((d.get?_eq_some_iff id row).mp hget)
    simpa using hnot
  · intro h
    have hempty : d.entries.filter (fun e => p e.2) = [] :=
      List.filter_eq_nil_iff.mpr fun e he => by
        simp [h e.1 e.2 ((d.get?_eq_some_iff e.1 e.2).mpr he)]
    rw [lastWhere, hempty]
    rfl

/-- The latest row, by its three properties. -/
theorem lastWhere_eq_some {d : Dict ℕ ν} {p : ν → Bool} {id : ℕ} {row : ν}
    (hget : d.get? id = some row) (hp : p row = true)
    (hmax : ∀ id' row', d.get? id' = some row' → p row' = true → id' ≤ id) :
    d.lastWhere p = some (id, row) := by
  cases h : d.lastWhere p with
  | none =>
    have hnone := lastWhere_eq_none_iff.mp h id row hget
    rw [hp] at hnone
    exact absurd hnone (by simp)
  | some found =>
    obtain ⟨hget', hp', hmax'⟩ := lastWhere_spec h
    have hid : found.1 = id := le_antisymm (hmax _ _ hget' hp') (hmax' _ _ hget hp)
    rw [hid, hget] at hget'
    rw [Option.some.injEq]
    exact Prod.ext hid (Option.some.inj hget').symm

/-- A row stored above every row that satisfies the condition is the latest one, where it
satisfies the condition itself. -/
theorem lastWhere_set_of_pos {d : Dict ℕ ν} {id : ℕ} {row : ν} {p : ν → Bool}
    (habove : ∀ id' row', d.get? id' = some row' → p row' = true → id' < id)
    (hp : p row = true) : (d.set id row).lastWhere p = some (id, row) := by
  refine lastWhere_eq_some (by simp) hp fun id' row' hget hp' => ?_
  rw [get?_set] at hget
  split at hget
  · next h => exact le_of_eq h
  · exact le_of_lt (habove id' row' hget hp')

/-- A row that does not satisfy the condition leaves the latest one, unless it is stored in
its place. -/
theorem lastWhere_set_of_neg {d : Dict ℕ ν} {id : ℕ} {row : ν} {p : ν → Bool}
    (hother : ∀ found, d.lastWhere p = some found → found.1 ≠ id) (hp : p row = false) :
    (d.set id row).lastWhere p = d.lastWhere p := by
  cases hlast : d.lastWhere p with
  | none =>
    refine lastWhere_eq_none_iff.mpr fun id' row' hget => ?_
    rw [get?_set] at hget
    split at hget
    · rw [← Option.some.inj hget, hp]
    · exact lastWhere_eq_none_iff.mp hlast id' row' hget
  | some found =>
    obtain ⟨hget, hpfound, hmax⟩ := lastWhere_spec hlast
    refine lastWhere_eq_some (by rw [get?_set, if_neg (hother found hlast), hget]) hpfound
      fun id' row' hget' hp' => ?_
    rw [get?_set] at hget'
    split at hget'
    · rw [← Option.some.inj hget', hp] at hp'
      exact absurd hp' (by simp)
    · exact hmax id' row' hget' hp'

/-- A deletion that keeps the latest row keeps it the latest. -/
theorem lastWhere_filter {d : Dict ℕ ν} {p : ν → Bool} {kept : ℕ → ν → Bool}
    (h : ∀ id row, d.lastWhere p = some (id, row) → kept id row = true) :
    (d.filter kept).lastWhere p = d.lastWhere p := by
  have hsub : ∀ id row, (d.filter kept).get? id = some row → d.get? id = some row :=
    fun id row hget => by
      rw [get?_filter, Option.filter_eq_some_iff] at hget
      exact hget.1
  cases hlast : d.lastWhere p with
  | none =>
    exact lastWhere_eq_none_iff.mpr fun id row hget =>
      lastWhere_eq_none_iff.mp hlast id row (hsub id row hget)
  | some found =>
    obtain ⟨hget, hp, hmax⟩ := lastWhere_spec hlast
    refine lastWhere_eq_some ?_ hp fun id' row' hget' hp' => hmax id' row' (hsub _ _ hget') hp'
    rw [get?_filter, hget, Option.filter_eq_some_iff]
    exact ⟨rfl, h found.1 found.2 hlast⟩

/-- Assigning the value that is already there changes nothing. -/
theorem set_eq_self {κ : Type u} [DecidableEq κ] {d : Dict κ ν} {k : κ} {v : ν}
    (h : d.get? k = some v) : d.set k v = d := by
  have hassign : ∀ l : List (κ × ν), lookup k l = some v → assign k v l = l := by
    intro l
    induction l with
    | nil => exact fun hl => absurd hl (by simp [lookup])
    | cons e rest ih =>
      intro hl
      by_cases he : e.1 = k
      · simp only [lookup, if_pos he, Option.some.injEq] at hl
        rw [assign, if_pos he, ← he, ← hl]
      · simp only [lookup, if_neg he] at hl
        rw [assign, if_neg he, ih hl]
  obtain ⟨entries, nodup⟩ := d
  simp only [set, mk.injEq]
  exact hassign entries h

/-- The rows with the largest ids, the largest id first. -/
def newest (d : Dict ℕ ν) (count : ℕ) : List (ℕ × ν) :=
  (d.entries.insertionSort (fun a b => b.1 ≤ a.1)).take count

/-- The row with the largest id is among the newest ones. -/
theorem mem_newest_of_max {d : Dict ℕ ν} {count id : ℕ} {row : ν} (hcount : 0 < count)
    (hget : d.get? id = some row) (hmax : ∀ id' row', d.get? id' = some row' → id' ≤ id) :
    (id, row) ∈ d.newest count := by
  have hmem : (id, row) ∈ d.entries.insertionSort (fun a b => b.1 ≤ a.1) :=
    (List.mem_insertionSort _).mpr ((d.get?_eq_some_iff id row).mp hget)
  have hsorted : (d.entries.insertionSort (fun a b => b.1 ≤ a.1)).Pairwise
      (fun a b => b.1 ≤ a.1) := by
    have : Std.Total (fun a b : ℕ × ν => b.1 ≤ a.1) := ⟨fun a b => le_total b.1 a.1⟩
    have : IsTrans (ℕ × ν) (fun a b => b.1 ≤ a.1) := ⟨fun a b c hab hbc => le_trans hbc hab⟩
    exact List.pairwise_insertionSort _ _
  unfold newest
  cases hlist : d.entries.insertionSort (fun a b => b.1 ≤ a.1) with
  | nil =>
    rw [hlist] at hmem
    exact absurd hmem List.not_mem_nil
  | cons first rest =>
    rw [hlist] at hmem hsorted
    have hfirst : first ∈ d.entries := by
      rw [← List.mem_insertionSort (fun a b : ℕ × ν => b.1 ≤ a.1), hlist]
      exact List.mem_cons_self
    have hgetFirst := (d.get?_eq_some_iff first.1 first.2).mpr hfirst
    have hle : id ≤ first.1 := by
      rcases List.mem_cons.mp hmem with heq | hrest
      · exact le_of_eq (congrArg Prod.fst heq)
      · exact List.rel_of_pairwise_cons hsorted hrest
    have hid : first.1 = id := le_antisymm (hmax _ _ hgetFirst) hle
    have hrow : first = (id, row) := by
      rw [hid, hget] at hgetFirst
      exact Prod.ext hid (Option.some.inj hgetFirst).symm
    obtain ⟨count, rfl⟩ := Nat.exists_eq_succ_of_ne_zero hcount.ne'
    rw [List.take_succ_cons, hrow]
    exact List.mem_cons_self

/-- The newest rows are stored. -/
theorem get?_of_mem_newest {d : Dict ℕ ν} {count : ℕ} {entry : ℕ × ν}
    (h : entry ∈ d.newest count) : d.get? entry.1 = some entry.2 := by
  have hmem := List.mem_of_mem_take h
  exact (d.get?_eq_some_iff _ _).mpr ((List.mem_insertionSort _).mp hmem)

/-- There are at most as many newest rows as asked for. -/
theorem length_newest_le (d : Dict ℕ ν) (count : ℕ) : (d.newest count).length ≤ count :=
  List.length_take_le _ _

end Dict

end Mocop
