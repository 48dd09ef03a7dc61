import Mathlib.Data.List.Induction
import Mathlib.Data.List.Nodup

/-!
# `Mocop.Lib.Dict`: insertion-ordered dictionaries

A `Dict κ ν` is a list of entries whose keys are distinct; the proof travels with the
list. `set` replaces a value in place and appends an unknown key at the end, `erase`
drops the entry, and iteration follows the entry list. This is the dictionary of the
scripting languages whose mappings remember insertion order.

Every operation has one lemma that says what `get?` reads afterwards
(`get?_set`, `get?_erase`, `get?_filter`, `get?_ofList`). A proof about a dictionary
goes through these and does not look at the entry list. `get?_eq_some_iff` is the bridge
for the loops that do iterate.
-/

set_option autoImplicit false

namespace Mocop

universe u v w

/-- An insertion-ordered dictionary: entries with distinct keys. -/
structure Dict (κ : Type u) (ν : Type v) where
  entries : List (κ × ν)
  nodup : (entries.map Prod.fst).Nodup

namespace Dict

variable {κ : Type u} {ν : Type v}

/-- The dictionary without entries. -/
def empty : Dict κ ν := ⟨[], List.nodup_nil⟩

instance : EmptyCollection (Dict κ ν) := ⟨empty⟩

instance : Inhabited (Dict κ ν) := ⟨empty⟩

instance [DecidableEq κ] [DecidableEq ν] : DecidableEq (Dict κ ν) := fun a b =>
  decidable_of_iff (a.entries = b.entries) ⟨fun h => by cases a; cases b; simp_all,
    fun h => h ▸ rfl⟩

/-- The keys, in iteration order. -/
def keys (d : Dict κ ν) : List κ := d.entries.map Prod.fst

/-- The values, in iteration order. -/
def values (d : Dict κ ν) : List ν := d.entries.map Prod.snd

variable [DecidableEq κ]

/-- The value stored in the entry list under `k`. -/
def lookup (k : κ) : List (κ × ν) → Option ν
  | [] => none
  | e :: rest => if e.1 = k then some e.2 else lookup k rest

/-- The value stored under `k`. -/
def get? (d : Dict κ ν) (k : κ) : Option ν := lookup k d.entries

/-- The value stored under `k`, or the default. -/
def getD (d : Dict κ ν) (k : κ) (v : ν) : ν := (d.get? k).getD v

/-- Whether `k` has an entry. -/
def contains (d : Dict κ ν) (k : κ) : Bool := (d.get? k).isSome

/-- The entry list after an assignment: the value replaced in place, or appended. -/
def assign (k : κ) (v : ν) : List (κ × ν) → List (κ × ν)
  | [] => [(k, v)]
  | e :: rest => if e.1 = k then (k, v) :: rest else e :: assign k v rest

omit [DecidableEq κ] in
/-- The keys of a filtered entry list are distinct. -/
theorem nodup_filter (d : Dict κ ν) (p : κ × ν → Bool) :
    ((d.entries.filter p).map Prod.fst).Nodup :=
  d.nodup.sublist (List.Sublist.map _ List.filter_sublist)

/-- An assignment adds at most its own key. -/
theorem mem_keys_assign (k : κ) (v : ν) (l : List (κ × ν)) (k' : κ) :
    k' ∈ (assign k v l).map Prod.fst ↔ k' = k ∨ k' ∈ l.map Prod.fst := by
  induction l with
  | nil => simp [assign]
  | cons e rest ih =>
    by_cases h : e.1 = k
    · simp [assign, h]
    · simp only [assign, if_neg h, List.map_cons, List.mem_cons, ih]
      tauto

/-- An assignment keeps the keys distinct. -/
theorem nodup_assign (k : κ) (v : ν) (l : List (κ × ν)) (hl : (l.map Prod.fst).Nodup) :
    ((assign k v l).map Prod.fst).Nodup := by
  induction l with
  | nil => simp [assign]
  | cons e rest ih =>
    rw [List.map_cons, List.nodup_cons] at hl
    by_cases h : e.1 = k
    · rw [assign, if_pos h, List.map_cons, List.nodup_cons]
      exact ⟨h ▸ hl.1, hl.2⟩
    · rw [assign, if_neg h, List.map_cons, List.nodup_cons, mem_keys_assign]
      exact ⟨fun hmem => hmem.elim h hl.1, ih hl.2⟩

/-- Assignment `d[k] = v`. -/
def set (d : Dict κ ν) (k : κ) (v : ν) : Dict κ ν :=
  ⟨assign k v d.entries, nodup_assign k v d.entries d.nodup⟩

/-- Removal of the entry of `k`, which may be absent. -/
def erase (d : Dict κ ν) (k : κ) : Dict κ ν :=
  ⟨d.entries.filter (fun e => e.1 ≠ k), d.nodup_filter _⟩

/-- The entries whose key satisfies `p`. -/
def filterKeys (d : Dict κ ν) (p : κ → Bool) : Dict κ ν :=
  ⟨d.entries.filter (fun e => p e.1), d.nodup_filter _⟩

/-- The entries that satisfy `p`. -/
def filter (d : Dict κ ν) (p : κ → ν → Bool) : Dict κ ν :=
  ⟨d.entries.filter (fun e => p e.1 e.2), d.nodup_filter _⟩

/-- The dictionary built by assigning the pairs in order: a later pair wins. -/
def ofList (l : List (κ × ν)) : Dict κ ν := l.foldl (fun d e => d.set e.1 e.2) empty

/-- The assignments of `other`, made on top of `d`. -/
def update (d other : Dict κ ν) : Dict κ ν :=
  other.entries.foldl (fun acc e => acc.set e.1 e.2) d

omit [DecidableEq κ] in
/-- The dictionary with every value mapped. -/
def mapValues {ν' : Type w} (d : Dict κ ν) (f : κ → ν → ν') : Dict κ ν' :=
  ⟨d.entries.map (fun e => (e.1, f e.1 e.2)), by
    simpa [List.map_map, Function.comp_def] using d.nodup⟩

/-! ### What `get?` reads -/

/-- A key that no entry carries reads nothing. -/
theorem lookup_eq_none_iff (k : κ) (l : List (κ × ν)) :
    lookup k l = none ↔ k ∉ l.map Prod.fst := by
  induction l with
  | nil => simp [lookup]
  | cons e rest ih =>
    by_cases h : e.1 = k
    · simp [lookup, h]
    · simp only [lookup, if_neg h, ih, List.map_cons, List.mem_cons, not_or]
      exact ⟨fun hr => ⟨fun he => h he.symm, hr⟩, fun hr => hr.2⟩

/-- With distinct keys a value is read exactly when its entry is in the list. -/
theorem lookup_eq_some_iff (k : κ) (v : ν) (l : List (κ × ν))
    (hl : (l.map Prod.fst).Nodup) : lookup k l = some v ↔ (k, v) ∈ l := by
  induction l with
  | nil => simp [lookup]
  | cons e rest ih =>
    rw [List.map_cons, List.nodup_cons] at hl
    by_cases h : e.1 = k
    · have hrest : (k, v) ∉ rest := fun hmem =>
        hl.1 (h ▸ List.mem_map.mpr ⟨(k, v), hmem, rfl⟩)
      simp only [lookup, if_pos h, Option.some.injEq, List.mem_cons, hrest, or_false]
      exact ⟨fun hv => by rw [← h, ← hv], fun he => by rw [← he]⟩
    · have hhead : (k, v) ≠ e := fun he => h (by rw [← he])
      simp only [lookup, if_neg h, ih hl.2, List.mem_cons, hhead, false_or]

/-- An assignment reads back under its own key and nowhere else. -/
theorem lookup_assign (k : κ) (v : ν) (l : List (κ × ν)) (k' : κ) :
    lookup k' (assign k v l) = if k' = k then some v else lookup k' l := by
  induction l with
  | nil =>
    by_cases h : k' = k
    · simp [assign, lookup, h]
    · simp [assign, lookup, h, Ne.symm h]
  | cons e rest ih =>
    by_cases he : e.1 = k
    · by_cases h : k' = k
      · simp [assign, lookup, he, h]
      · simp [assign, lookup, he, h, Ne.symm h]
    · by_cases h : k' = k
      · subst h
        simp [assign, lookup, he, ih]
      · simp only [assign, if_neg he, lookup, ih, if_neg h]

/-- Filtering by key reads the same values under the kept keys. -/
theorem lookup_filterKeys (p : κ → Bool) (l : List (κ × ν)) (k : κ) :
    lookup k (l.filter (fun e => p e.1)) = if p k then lookup k l else none := by
  induction l with
  | nil => simp [lookup]
  | cons e rest ih =>
    by_cases he : e.1 = k
    · by_cases hp : p e.1 = true
      · simp [lookup, he, he ▸ hp]
      · have hk : p k = false := by rw [← he]; simpa using hp
        simp [hp, ih, hk]
    · by_cases hp : p e.1 = true
      · simp [hp, lookup, he, ih]
      · simp [hp, lookup, he, ih]

@[simp] theorem get?_empty (k : κ) : (empty : Dict κ ν).get? k = none := rfl

@[simp] theorem get?_emptyc (k : κ) : (∅ : Dict κ ν).get? k = none := rfl

/-- A value is read exactly when its entry is in the dictionary. -/
theorem get?_eq_some_iff (d : Dict κ ν) (k : κ) (v : ν) :
    d.get? k = some v ↔ (k, v) ∈ d.entries :=
  lookup_eq_some_iff k v d.entries d.nodup

theorem get?_eq_none_iff (d : Dict κ ν) (k : κ) : d.get? k = none ↔ k ∉ d.keys :=
  lookup_eq_none_iff k d.entries

/-- A key is listed exactly when it reads a value. -/
theorem mem_keys (d : Dict κ ν) (k : κ) : k ∈ d.keys ↔ (d.get? k).isSome = true := by
  rw [← not_iff_not, ← get?_eq_none_iff, Bool.not_eq_true, Option.isSome_eq_false_iff,
    Option.isNone_iff_eq_none]

omit [DecidableEq κ] in
theorem nodup_keys (d : Dict κ ν) : d.keys.Nodup := d.nodup

/-- What an assignment leaves: the new value under its key, the old ones elsewhere. -/
@[simp, grind =] theorem get?_set (d : Dict κ ν) (k : κ) (v : ν) (k' : κ) :
    (d.set k v).get? k' = if k' = k then some v else d.get? k' :=
  lookup_assign k v d.entries k'

/-- What a removal leaves: nothing under its key, the old values elsewhere. -/
@[simp, grind =] theorem get?_erase (d : Dict κ ν) (k k' : κ) :
    (d.erase k).get? k' = if k' = k then none else d.get? k' := by
  have h := lookup_filterKeys (fun x => decide (x ≠ k)) d.entries k'
  by_cases hk : k' = k
  · simpa [get?, erase, hk] using h
  · simpa [get?, erase, hk] using h

/-- What a filter by key leaves. -/
@[simp, grind =] theorem get?_filterKeys (d : Dict κ ν) (p : κ → Bool) (k : κ) :
    (d.filterKeys p).get? k = if p k then d.get? k else none :=
  lookup_filterKeys p d.entries k

/-- What a filter leaves under a key. -/
@[simp] theorem get?_filter (d : Dict κ ν) (p : κ → ν → Bool) (k : κ) :
    (d.filter p).get? k = (d.get? k).filter (fun v => p k v) := by
  ext v
  rw [get?_eq_some_iff, Option.filter_eq_some_iff, get?_eq_some_iff]
  simp [filter]

/-- Mapping the values maps what is read. -/
@[simp] theorem get?_mapValues {ν' : Type w} (d : Dict κ ν) (f : κ → ν → ν') (k : κ) :
    (d.mapValues f).get? k = (d.get? k).map (f k) := by
  ext v
  simp only [get?_eq_some_iff, Option.map_eq_some_iff, mapValues, List.mem_map,
    Prod.mk.injEq, Prod.exists]
  constructor
  · rintro ⟨a, b, hmem, rfl, rfl⟩
    exact ⟨b, hmem, rfl⟩
  · rintro ⟨b, hmem, rfl⟩
    exact ⟨k, b, hmem, rfl, rfl⟩

/-- The entry of a key and the entries that its removal leaves. -/
theorem entries_perm_erase (d : Dict κ ν) {k : κ} {v : ν} (h : d.get? k = some v) :
    d.entries.Perm ((k, v) :: (d.erase k).entries) := by
  refine (List.perm_ext_iff_of_nodup d.nodup.of_map (List.nodup_cons.mpr ⟨?_, ?_⟩)).mpr ?_
  · simp [erase]
  · exact (d.erase k).nodup.of_map
  · rintro ⟨k', v'⟩
    rw [List.mem_cons, ← get?_eq_some_iff, ← get?_eq_some_iff, get?_erase]
    by_cases hk : k' = k
    · subst hk
      simp [h, eq_comm]
    · simp [hk]

@[simp] theorem contains_eq (d : Dict κ ν) (k : κ) :
    d.contains k = (d.get? k).isSome := rfl

/-- Removing an entry leaves the entries of the other keys. -/
theorem filter_entries_erase (d : Dict κ ν) {k : κ} {p : κ → Bool} (h : p k = false) :
    (d.erase k).entries.filter (fun e => p e.1) = d.entries.filter fun e => p e.1 := by
  unfold erase
  rw [List.filter_filter]
  refine List.filter_congr fun e _ => ?_
  by_cases he : e.1 = k
  · rw [he, h, Bool.false_and]
  · rw [decide_eq_true he, Bool.and_true]

/-- Assigning an entry leaves the entries of the other keys. -/
theorem filter_entries_set (d : Dict κ ν) {k : κ} (v : ν) {p : κ → Bool} (h : p k = false) :
    (d.set k v).entries.filter (fun e => p e.1) = d.entries.filter fun e => p e.1 := by
  show (assign k v d.entries).filter _ = _
  generalize d.entries = entries
  induction entries with
  | nil => simp [assign, h]
  | cons e rest ih =>
    by_cases he : e.1 = k
    · rw [assign, if_pos he, List.filter_cons_of_neg (by simp [h]),
        List.filter_cons_of_neg (by simp [he, h])]
    · rw [assign, if_neg he, List.filter_cons, List.filter_cons, ih]

/-- Nothing is removed for an unknown key. -/
theorem erase_of_not_contains {d : Dict κ ν} {k : κ} (h : d.contains k = false) :
    d.erase k = d := by
  have hkey : ∀ e ∈ d.entries, e.1 ≠ k := by
    rintro ⟨key, value⟩ he rfl
    have hsome := (get?_eq_some_iff d key value).mpr he
    rw [contains_eq, hsome] at h
    cases h
  obtain ⟨entries, nodup⟩ := d
  have hentries : entries.filter (fun e => e.1 ≠ k) = entries :=
    List.filter_eq_self.mpr fun e he => decide_eq_true (hkey e he)
  unfold erase
  simp only [hentries]

theorem getD_eq (d : Dict κ ν) (k : κ) (v : ν) : d.getD k v = (d.get? k).getD v := rfl

/-- Assigning a list of pairs in order: the last pair of a key wins. -/
theorem get?_foldl_set (l : List (κ × ν)) (d : Dict κ ν) (k : κ) :
    (l.foldl (fun acc e => acc.set e.1 e.2) d).get? k
      = (lookup k l.reverse).or (d.get? k) := by
  induction l using List.reverseRecOn with
  | nil => simp [lookup]
  | append_singleton l e ih =>
    rw [List.foldl_append, List.foldl_cons, List.foldl_nil, get?_set, ih,
      List.reverse_append, List.reverse_singleton, List.singleton_append, lookup]
    by_cases h : e.1 = k
    · simp [h]
    · simp [h, Ne.symm h]

/-- A dictionary built from pairs reads the last pair of a key. -/
theorem get?_ofList (l : List (κ × ν)) (k : κ) :
    (ofList l).get? k = lookup k l.reverse := by
  rw [ofList, get?_foldl_set, get?_empty, Option.or_none]

/-- A pair of a list with distinct keys is the one read. -/
theorem get?_ofList_of_nodup (l : List (κ × ν)) (hl : (l.map Prod.fst).Nodup) (k : κ)
    (v : ν) : (ofList l).get? k = some v ↔ (k, v) ∈ l := by
  rw [get?_ofList, lookup_eq_some_iff]
  · simp
  · rw [List.map_reverse, List.nodup_reverse]
    exact hl

/-- What a dictionary of pairs reads is one of the pairs. -/
theorem mem_of_get?_ofList {l : List (κ × ν)} {k : κ} {v : ν}
    (h : (ofList l).get? k = some v) : (k, v) ∈ l := by
  have hmem : ∀ pairs : List (κ × ν), lookup k pairs = some v → (k, v) ∈ pairs := by
    intro pairs
    induction pairs with
    | nil => exact fun hfound => by cases hfound
    | cons e rest ih =>
      intro hfound
      rw [lookup] at hfound
      split at hfound
      · next hkey =>
        rw [← hkey, ← Option.some.inj hfound]
        exact List.mem_cons_self
      · exact List.mem_cons_of_mem _ (ih hfound)
  rw [get?_ofList] at h
  exact List.mem_reverse.mp (hmem _ h)

/-- The entries read the same from the last one on: their keys are distinct. -/
theorem lookup_reverse (d : Dict κ ν) (k : κ) : lookup k d.entries.reverse = d.get? k := by
  ext v
  rw [get?_eq_some_iff, lookup_eq_some_iff]
  · simp
  · rw [List.map_reverse, List.nodup_reverse]
    exact d.nodup

/-- The other dictionary's values take precedence after an update. -/
@[simp] theorem get?_update (d other : Dict κ ν) (k : κ) :
    (d.update other).get? k = (other.get? k).or (d.get? k) := by
  rw [update, get?_foldl_set, lookup_reverse]

end Dict

end Mocop
