import Mocop.Lib.Dict

/-!
# `Mocop.Lib.KeyedFold`: loops whose body stays in the cell of its key

Many loops run over items with distinct keys, and the body for one item reads and writes
only the part of the state that belongs to the key of that item: its *cell*. The whole
loop then acts on every cell on its own. `KeyLocal` states the property of the body as a
pre- and postcondition on the cell together with a frame. `KeyLocal.foldlM` lifts it to
the loop: the loop does not raise, the cell of each listed key satisfies the
postcondition of its item, and every other cell is unchanged.

The order of the items does not enter the result, so the rule also covers loops over an
unordered set.
-/

set_option autoImplicit false

namespace Mocop

universe u v w x y

variable {σ : Type u} {ι : Type v} {κ : Type w} {β : Type x} {ε : Type y}

/-- The body `step` touches only the cell of the key of its item. `cell s k` is the part
of the state `s` that belongs to `k`. From a cell that satisfies `pre` the body does not
raise and establishes `post` between the old and the new cell. -/
structure KeyLocal (cell : σ → κ → β) (key : ι → κ) (pre : ι → β → Prop)
    (post : ι → β → β → Prop) (step : σ → ι → Except ε σ) : Prop where
  run : ∀ s i, pre i (cell s (key i)) → ∃ s', step s i = .ok s' ∧
    post i (cell s (key i)) (cell s' (key i)) ∧ ∀ k, k ≠ key i → cell s' k = cell s k

/-- A loop over items with distinct keys. It does not raise, the body ran once on the cell
of each listed key, and every other cell is unchanged. -/
theorem KeyLocal.foldlM {cell : σ → κ → β} {key : ι → κ} {pre : ι → β → Prop}
    {post : ι → β → β → Prop} {step : σ → ι → Except ε σ}
    (h : KeyLocal cell key pre post step) (items : List ι)
    (hnodup : (items.map key).Nodup) (s : σ) (hpre : ∀ i ∈ items, pre i (cell s (key i))) :
    ∃ s', items.foldlM step s = .ok s' ∧
      (∀ i ∈ items, post i (cell s (key i)) (cell s' (key i))) ∧
      ∀ k, k ∉ items.map key → cell s' k = cell s k := by
  induction items generalizing s with
  | nil => exact ⟨s, rfl, by simp, by simp⟩
  | cons i rest ih =>
    rw [List.map_cons, List.nodup_cons] at hnodup
    obtain ⟨s₁, hstep, hpost, hframe⟩ := h.run s i (hpre i List.mem_cons_self)
    -- The keys of the rest differ from the key of `i`, so their cells are still those of `s`.
    have hrest : ∀ j ∈ rest, cell s₁ (key j) = cell s (key j) := fun j hj =>
      hframe _ fun he => hnodup.1 (he ▸ List.mem_map_of_mem hj)
    obtain ⟨s', hrun, hlisted, hother⟩ := ih hnodup.2 s₁ fun j hj => by
      rw [hrest j hj]
      exact hpre j (List.mem_cons_of_mem i hj)
    refine ⟨s', by rw [List.foldlM_cons, hstep]; exact hrun, fun j hj => ?_, fun k hk => ?_⟩
    · rcases List.mem_cons.mp hj with rfl | hj
      · rwa [hother _ hnodup.1]
      · rw [← hrest j hj]
        exact hlisted j hj
    · rw [List.map_cons, List.mem_cons, not_or] at hk
      rw [hother k hk.2, hframe k hk.1]

/-- What no iteration changes the whole loop leaves. -/
theorem foldl_keeps {step : σ → ι → σ} (read : σ → β) (hstep : ∀ s i, read (step s i) = read s)
    (items : List ι) (s : σ) : read (items.foldl step s) = read s := by
  induction items generalizing s with
  | nil => rfl
  | cons i rest ih => rw [List.foldl_cons, ih, hstep]

/-- A loop that cannot fail over the entries of a dictionary. While the state satisfies `keeps`,
the body for an entry acts on the cell of its key and leaves the other cells. -/
theorem Dict.foldl_cell {ν : Type v} {cell : σ → κ → β} {keeps : σ → Prop} {act : κ → ν → β → β}
    {step : σ → κ × ν → σ} [DecidableEq κ] (d : Dict κ ν)
    (hstep : ∀ s k v, d.get? k = some v → keeps s → keeps (step s (k, v))
      ∧ cell (step s (k, v)) k = act k v (cell s k)
      ∧ ∀ other, other ≠ k → cell (step s (k, v)) other = cell s other) {s : σ} (hs : keeps s)
    (k : κ) :
    cell (d.entries.foldl step s) k
      = match d.get? k with
        | some v => act k v (cell s k)
        | none => cell s k := by
  have hfold : ∀ (entries : List (κ × ν)) (s : σ), (entries.map Prod.fst).Nodup →
      (∀ e ∈ entries, d.get? e.1 = some e.2) → keeps s →
      cell (entries.foldl step s) k
        = match lookup k entries with
          | some v => act k v (cell s k)
          | none => cell s k := by
    intro entries
    induction entries with
    | nil => exact fun _ _ _ _ => rfl
    | cons e rest ih =>
      intro s hnodup hlisted hs
      rw [List.map_cons, List.nodup_cons] at hnodup
      obtain ⟨hkeeps, hact, hframe⟩ := hstep s e.1 e.2 (hlisted e List.mem_cons_self) hs
      rw [List.foldl_cons, ih _ hnodup.2 (fun o ho => hlisted o (List.mem_cons_of_mem e ho))
        hkeeps, lookup]
      by_cases hk : e.1 = k
      · -- No later entry has the key of `e`.
        subst hk
        rw [(lookup_eq_none_iff e.1 rest).mpr hnodup.1, if_pos rfl]
        exact hact
      · rw [if_neg hk, hframe k (Ne.symm hk)]
  exact hfold d.entries s d.nodup (fun e he => (get?_eq_some_iff d e.1 e.2).mpr he) hs

end Mocop
