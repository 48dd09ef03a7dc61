import Mocop.Lib.Dict
import Mathlib.Data.List.Perm.Basic

/-!
# `Mocop.Lib.Grouping`: one pass that collapses items by key

One pass over items keeps a list of entries and the position of the entry of each key. An item
without a key, or with a new one, opens an entry at the end (`enter`). An item with a known key is
absorbed by the entry of the key (`absorb`).

`groupsOf` runs the same pass with the items themselves: its entries are the groups. So whatever
the pass computes, each of its entries is the fold of a group (`forall₂_collapse`), and what holds
of the groups is said once (`Grouped`): every item is in exactly one group, a group is a single item
without a key or all items of a key, and the groups stand in the order of their first items.
-/

set_option autoImplicit false

namespace Mocop

universe u v w

variable {α : Type u} {β : Type v} {κ : Type w} [DecidableEq κ]

/-! ### The pass -/

/-- One more item. -/
def addItem (key : α → Option κ) (enter : α → β) (absorb : β → α → β)
    (state : List β × Dict κ ℕ) (item : α) : List β × Dict κ ℕ :=
  match key item with
  | none => (state.1 ++ [enter item], state.2)
  | some k =>
    match state.2.get? k with
    | some position => (state.1.modify position (absorb · item), state.2)
    | none => (state.1 ++ [enter item], state.2.set k state.1.length)

/-- The entries of all items. -/
def collapse (key : α → Option κ) (enter : α → β) (absorb : β → α → β) (items : List α) :
    List β :=
  (items.foldl (addItem key enter absorb) ([], ∅)).1

/-- The groups of the items, and the position of the group of each key. -/
def groupState (key : α → Option κ) (items : List α) : List (List α) × Dict κ ℕ :=
  items.foldl (addItem key (fun item => [item]) fun group item => group ++ [item]) ([], ∅)

/-- The groups of the items. -/
def groupsOf (key : α → Option κ) (items : List α) : List (List α) := (groupState key items).1

/-- The entry of one group. -/
def foldGroup (enter : α → β) (absorb : β → α → β) : List α → Option β
  | [] => none
  | first :: rest => some (rest.foldl absorb (enter first))

/-! ### Every entry is the fold of its group -/

/-- Related lists stay related when related entries are changed at one position. -/
theorem forall₂_modify {γ : Type u} {δ : Type v} {r : γ → δ → Prop} {f : γ → γ} {g : δ → δ}
    (hr : ∀ a b, r a b → r (f a) (g b)) {l : List γ} {l' : List δ} (h : List.Forall₂ r l l')
    (position : ℕ) : List.Forall₂ r (l.modify position f) (l'.modify position g) := by
  induction h generalizing position with
  | nil => simp
  | cons hab hrest ih =>
    cases position with
    | zero => exact .cons (hr _ _ hab) hrest
    | succ position => exact .cons hab (ih position)

/-- One more related entry at the end. -/
theorem forall₂_concat {γ : Type u} {δ : Type v} {r : γ → δ → Prop} {l : List γ} {l' : List δ}
    (h : List.Forall₂ r l l') {a : γ} {b : δ} (hab : r a b) :
    List.Forall₂ r (l ++ [a]) (l' ++ [b]) :=
  List.rel_append h (.cons hab .nil)

/-- Absorbing an item is absorbing it at the end of the group. -/
theorem foldGroup_concat {enter : α → β} {absorb : β → α → β} {group : List α} {entry : β}
    (h : foldGroup enter absorb group = some entry) (item : α) :
    foldGroup enter absorb (group ++ [item]) = some (absorb entry item) := by
  cases group with
  | nil => cases h
  | cons first rest =>
    rw [← Option.some.inj h, List.cons_append, foldGroup, List.foldl_append]
    rfl

/-- The pass and the groups go along with each other. -/
theorem forall₂_addItem {key : α → Option κ} {enter : α → β} {absorb : β → α → β}
    {state : List β × Dict κ ℕ} {groups : List (List α) × Dict κ ℕ} (hkeys : state.2 = groups.2)
    (h : List.Forall₂ (fun entry group => foldGroup enter absorb group = some entry) state.1
      groups.1) (item : α) :
    (addItem key enter absorb state item).2
        = (addItem key (fun item => [item]) (fun group item => group ++ [item]) groups item).2
      ∧ List.Forall₂ (fun entry group => foldGroup enter absorb group = some entry)
        (addItem key enter absorb state item).1
        (addItem key (fun item => [item]) (fun group item => group ++ [item]) groups item).1 := by
  have hlength := h.length_eq
  unfold addItem
  rw [hkeys, hlength]
  cases key item with
  | none => exact ⟨rfl, forall₂_concat h rfl⟩
  | some k =>
    dsimp only
    cases groups.2.get? k with
    | none => exact ⟨rfl, forall₂_concat h rfl⟩
    | some position =>
      exact ⟨rfl, forall₂_modify (fun _ _ hentry => foldGroup_concat hentry item) h position⟩

/-- Each entry is the fold of its group. -/
theorem forall₂_collapse (key : α → Option κ) (enter : α → β) (absorb : β → α → β)
    (items : List α) :
    List.Forall₂ (fun entry group => foldGroup enter absorb group = some entry)
      (collapse key enter absorb items) (groupsOf key items) := by
  have hboth : (items.foldl (addItem key enter absorb) ([], ∅)).2 = (groupState key items).2
      ∧ List.Forall₂ (fun entry group => foldGroup enter absorb group = some entry)
        (items.foldl (addItem key enter absorb) ([], ∅)).1 (groupState key items).1 := by
    unfold groupState
    induction items using List.reverseRecOn with
    | nil => exact ⟨rfl, .nil⟩
    | append_singleton items item ih =>
      rw [List.foldl_append, List.foldl_append]
      exact forall₂_addItem ih.1 ih.2 item
  exact hboth.2

/-! ### The groups -/

/-- What holds of the groups of the items so far. -/
structure Grouped (key : α → Option κ) (items : List α) (state : List (List α) × Dict κ ℕ) :
    Prop where
  perm : state.1.flatten.Perm items
  heads : (state.1.filterMap List.head?).Sublist items
  ne_nil : ∀ group ∈ state.1, group ≠ []
  sublist : ∀ group ∈ state.1, group.Sublist items
  alone : ∀ group ∈ state.1, ∀ item ∈ group, key item = none → group = [item]
  keyed : ∀ position group, state.1[position]? = some group → ∀ item ∈ group, ∀ k,
    key item = some k → state.2.get? k = some position ∧ ∀ other ∈ group, key other = some k
  known : ∀ k position, state.2.get? k = some position →
    ∃ group, state.1[position]? = some group ∧ ∃ item ∈ group, key item = some k

theorem grouped_nil (key : α → Option κ) : Grouped key [] ([], ∅) where
  perm := .nil
  heads := .slnil
  ne_nil := fun _ hgroup => absurd hgroup List.not_mem_nil
  sublist := fun _ hgroup => absurd hgroup List.not_mem_nil
  alone := fun _ hgroup => absurd hgroup List.not_mem_nil
  keyed := fun _ _ hgroup => by simp at hgroup
  known := fun _ _ hget => by simp at hget

namespace Grouped

variable {key : α → Option κ} {items : List α} {groups : List (List α)} {positions : Dict κ ℕ}

/-- An item of no group so far opens one. -/
theorem enter (h : Grouped key items (groups, positions)) {item : α} {positions' : Dict κ ℕ}
    (hnew : ∀ k, key item = some k →
      positions.get? k = none ∧ positions'.get? k = some groups.length)
    (hold : ∀ k, key item ≠ some k → positions'.get? k = positions.get? k) :
    Grouped key (items ++ [item]) (groups ++ [[item]], positions') := by
  have hmem : ∀ group ∈ groups ++ [[item]], group ∈ groups ∨ group = [item] := by
    intro group hgroup
    rcases List.mem_append.mp hgroup with hin | hlast
    · exact .inl hin
    · exact .inr (List.mem_singleton.mp hlast)
  -- The new key is that of no item so far.
  have hfresh : ∀ (position : ℕ) (group : List α), groups[position]? = some group →
      ∀ other ∈ group, ∀ k, key other = some k → key item ≠ some k := by
    intro position group hget other hother k hk hitem
    have hposition := (h.keyed position group hget other hother k hk).1
    rw [(hnew k hitem).1] at hposition
    cases hposition
  have hlast : ∀ (position : ℕ) (group : List α), (groups ++ [[item]])[position]? = some group →
      groups[position]? = some group ∨ position = groups.length ∧ group = [item] := by
    intro position group hget
    by_cases hlt : position < groups.length
    · rw [List.getElem?_append_left hlt] at hget
      exact .inl hget
    · have hle := Nat.le_of_not_lt hlt
      rw [List.getElem?_append_right hle, List.getElem?_singleton] at hget
      split at hget
      · next hzero => exact .inr ⟨by omega, (Option.some.inj hget).symm⟩
      · cases hget
  refine
    { perm := ?_, heads := ?_, ne_nil := ?_, sublist := ?_, alone := ?_, keyed := ?_, known := ?_ }
  · show (groups ++ [[item]]).flatten.Perm _
    rw [List.flatten_append, List.flatten_singleton]
    exact h.perm.append_right [item]
  · show ((groups ++ [[item]]).filterMap List.head?).Sublist _
    rw [List.filterMap_append]
    exact h.heads.append (List.Sublist.refl [item])
  · intro group hgroup
    rcases hmem group hgroup with hin | rfl
    · exact h.ne_nil group hin
    · exact List.cons_ne_nil _ _
  · intro group hgroup
    rcases hmem group hgroup with hin | rfl
    · exact (h.sublist group hin).trans (List.sublist_append_left _ _)
    · exact List.sublist_append_right _ _
  · intro group hgroup other hother hnone
    rcases hmem group hgroup with hin | rfl
    · exact h.alone group hin other hother hnone
    · rw [List.mem_singleton.mp hother]
  · intro position group hget other hother k hk
    rcases hlast position group hget with hin | ⟨rfl, rfl⟩
    · obtain ⟨hposition, hall⟩ := h.keyed position group hin other hother k hk
      exact ⟨(hold k (hfresh position group hin other hother k hk)).trans hposition, hall⟩
    · obtain rfl := List.mem_singleton.mp hother
      exact ⟨(hnew k hk).2, fun another hanother => List.mem_singleton.mp hanother ▸ hk⟩
  · intro k position hget
    by_cases hk : key item = some k
    · obtain rfl := Option.some.inj ((hnew k hk).2.symm.trans hget)
      refine ⟨[item], ?_, item, List.mem_singleton_self item, hk⟩
      show (groups ++ [[item]])[groups.length]? = _
      rw [List.getElem?_append_right (Nat.le_refl _), Nat.sub_self]
      rfl
    · obtain ⟨group, hgroup, hkeyed⟩ := h.known k position ((hold k hk).symm.trans hget)
      refine ⟨group, ?_, hkeyed⟩
      show (groups ++ [[item]])[position]? = _
      rw [List.getElem?_append_left (List.getElem?_eq_some_iff.mp hgroup).1]
      exact hgroup

/-- An item with a known key joins the group of the key. -/
theorem absorb (h : Grouped key items (groups, positions)) {item : α} {k : κ} {position : ℕ}
    (hk : key item = some k) (hget : positions.get? k = some position) :
    Grouped key (items ++ [item]) (groups.modify position (· ++ [item]), positions) := by
  obtain ⟨group, hgroup, first, hfirst, hfirstKey⟩ := h.known k position hget
  have hlt : position < groups.length := (List.getElem?_eq_some_iff.mp hgroup).1
  have hsame : ∀ other ∈ group, key other = some k :=
    (h.keyed position group hgroup first hfirst k hfirstKey).2
  obtain ⟨before, found, after, hsplit, hbefore, hmodify⟩ :=
    List.exists_of_modify (· ++ [item]) hlt
  -- The group of the key is the one at the position.
  have hfound : found = group := by
    rw [hsplit, ← hbefore, List.getElem?_append_right (Nat.le_refl _), Nat.sub_self] at hgroup
    exact Option.some.inj hgroup
  subst hfound
  have hmemFound : found ∈ groups := List.mem_of_getElem? hgroup
  have hmem : ∀ other ∈ groups.modify position (· ++ [item]),
      other ∈ groups ∨ other = found ++ [item] := by
    intro other hother
    rw [hmodify] at hother
    rcases List.mem_append.mp hother with hin | hin
    · exact .inl (hsplit ▸ List.mem_append_left _ hin)
    · rcases List.mem_cons.mp hin with rfl | hin
      · exact .inr rfl
      · exact .inl (hsplit ▸ List.mem_append_right _ (List.mem_cons_of_mem _ hin))
  have hat : ∀ (index : ℕ) (other : List α),
      (groups.modify position (· ++ [item]))[index]? = some other →
        index ≠ position ∧ groups[index]? = some other
          ∨ index = position ∧ other = found ++ [item] := by
    intro index other hother
    by_cases hindex : position = index
    · subst hindex
      rw [List.getElem?_modify_eq, hgroup] at hother
      exact .inr ⟨rfl, (Option.some.inj hother).symm⟩
    · rw [List.getElem?_modify_ne _ _ hindex] at hother
      exact .inl ⟨Ne.symm hindex, hother⟩
  refine
    { perm := ?_, heads := ?_, ne_nil := ?_, sublist := ?_, alone := ?_, keyed := ?_, known := ?_ }
  · show (groups.modify position (· ++ [item])).flatten.Perm _
    have hperm := h.perm
    rw [show groups = before ++ found :: after from hsplit, List.flatten_append,
      List.flatten_cons] at hperm
    rw [hmodify, List.flatten_append, List.flatten_cons]
    refine List.Perm.trans ?_ (hperm.append_right [item])
    rw [List.append_assoc, List.append_assoc, List.append_assoc]
    exact (List.perm_append_comm.append_left found).append_left before.flatten
  · show ((groups.modify position (· ++ [item])).filterMap List.head?).Sublist _
    have hheads := h.heads
    rw [show groups = before ++ found :: after from hsplit, List.filterMap_append] at hheads
    rw [hmodify, List.filterMap_append]
    refine List.Sublist.trans ?_ (hheads.trans (List.sublist_append_left items [item]))
    cases hcases : found with
    | nil => exact absurd hcases (h.ne_nil found hmemFound)
    | cons head rest => exact List.Sublist.refl _
  · intro other hother
    rcases hmem other hother with hin | rfl
    · exact h.ne_nil other hin
    · exact List.append_ne_nil_of_right_ne_nil _ (List.cons_ne_nil _ _)
  · intro other hother
    rcases hmem other hother with hin | rfl
    · exact (h.sublist other hin).trans (List.sublist_append_left _ _)
    · exact (h.sublist found hmemFound).append (List.Sublist.refl [item])
  · intro other hother member hmember hnone
    rcases hmem other hother with hin | rfl
    · exact h.alone other hin member hmember hnone
    · rcases List.mem_append.mp hmember with hin | hlast
      · rw [hsame member hin] at hnone
        cases hnone
      · rw [List.mem_singleton.mp hlast, hk] at hnone
        cases hnone
  · intro index other hother member hmember k' hk'
    rcases hat index other hother with ⟨-, hin⟩ | ⟨rfl, rfl⟩
    · exact h.keyed index other hin member hmember k' hk'
    · have hall : ∀ member ∈ found ++ [item], key member = some k := by
        intro member hmember
        rcases List.mem_append.mp hmember with hin | hlast
        · exact hsame member hin
        · rw [List.mem_singleton.mp hlast]
          exact hk
      obtain rfl := Option.some.inj ((hall member hmember).symm.trans hk')
      exact ⟨hget, hall⟩
  · intro k' index hget'
    obtain ⟨other, hother, member, hmember, hk'⟩ := h.known k' index hget'
    by_cases hindex : position = index
    · subst hindex
      rw [hgroup] at hother
      obtain rfl := Option.some.inj hother
      refine ⟨found ++ [item], ?_, member, List.mem_append_left _ hmember, hk'⟩
      show (groups.modify position (· ++ [item]))[position]? = _
      rw [List.getElem?_modify_eq, hgroup]
      rfl
    · refine ⟨other, ?_, member, hmember, hk'⟩
      show (groups.modify position (· ++ [item]))[index]? = _
      rw [List.getElem?_modify_ne _ _ hindex]
      exact hother

/-- One more item keeps what holds of the groups. -/
theorem addItem (h : Grouped key items (groups, positions)) (item : α) :
    Grouped key (items ++ [item])
      (addItem key (fun item => [item]) (fun group item => group ++ [item]) (groups, positions)
        item) := by
  unfold Mocop.addItem
  cases hk : key item with
  | none =>
    refine h.enter (fun k hsome => ?_) fun _ _ => rfl
    rw [hk] at hsome
    cases hsome
  | some k =>
    dsimp only
    cases hget : positions.get? k with
    | some position => exact h.absorb hk hget
    | none =>
      refine h.enter (fun k' hsome => ?_) fun k' hne => ?_
      · obtain rfl := Option.some.inj (hk.symm.trans hsome)
        exact ⟨hget, by rw [Dict.get?_set, if_pos rfl]⟩
      · rw [Dict.get?_set, if_neg]
        rintro rfl
        exact hne hk

end Grouped

/-- What holds of the groups of all items. -/
theorem grouped_groupState (key : α → Option κ) (items : List α) :
    Grouped key items (groupState key items) := by
  induction items using List.reverseRecOn with
  | nil => exact grouped_nil key
  | append_singleton items item ih =>
    rw [groupState, List.foldl_append]
    exact ih.addItem item

/-- Two items with one key are in one group. -/
theorem Grouped.eq_of_key {key : α → Option κ} {items : List α}
    {state : List (List α) × Dict κ ℕ} (h : Grouped key items state) {i j : ℕ}
    {group other : List α} (hi : state.1[i]? = some group) (hj : state.1[j]? = some other)
    {a b : α} (ha : a ∈ group) (hb : b ∈ other) {k : κ} (hka : key a = some k)
    (hkb : key b = some k) : i = j :=
  Option.some.inj ((h.keyed i group hi a ha k hka).1.symm.trans (h.keyed j other hj b hb k hkb).1)

end Mocop
