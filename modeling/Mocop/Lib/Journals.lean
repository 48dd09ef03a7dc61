import Mathlib.Data.List.Basic

/-!
# `Mocop.Lib.Journals`: journals whose entries refer to what was written before

A program that leaves a trail appends an entry for each thing that it does. `Justified rule
journal` says that every entry was allowed by the entries before it. Appending an entry that the
rule allows keeps a journal justified (`Justified.append`), and a rule that asks for entries in
an order asks for a sublist, which a longer journal still has (`sublist_append_right`).
-/

set_option autoImplicit false

namespace Mocop

universe u

variable {ε : Type u} {rule : List ε → ε → Prop} {journal : List ε}

/-- Every entry is allowed by the entries before it. -/
def Justified (rule : List ε → ε → Prop) (journal : List ε) : Prop :=
  ∀ earlier entry later, journal = earlier ++ entry :: later → rule earlier entry

/-- An empty journal is justified. -/
theorem justified_nil : Justified rule ([] : List ε) := by
  intro earlier entry later h
  simp at h

/-- One more entry, which the journal allows. -/
theorem Justified.append {entry : ε} (h : Justified rule journal) (hentry : rule journal entry) :
    Justified rule (journal ++ [entry]) := by
  intro earlier other later heq
  rcases List.eq_nil_or_concat later with rfl | ⟨front, last, rfl⟩
  · obtain ⟨rfl, hlast⟩ := List.append_inj' heq rfl
    obtain rfl := List.singleton_inj.mp hlast
    exact hentry
  · -- The entry is older than the last one.
    rw [List.concat_eq_append, ← List.cons_append, ← List.append_assoc] at heq
    obtain ⟨rfl, -⟩ := List.append_inj' heq rfl
    exact h earlier other front rfl

/-- The last entry of a justified journal is allowed by the rest. -/
theorem Justified.last {entry : ε} (h : Justified rule (journal ++ [entry])) :
    rule journal entry := h journal entry [] rfl

/-- Entries that are in a journal in some order are in a longer one. -/
theorem sublist_append_right {entries : List ε} (h : entries.Sublist journal) (more : List ε) :
    entries.Sublist (journal ++ more) := h.trans (List.sublist_append_left journal more)

/-- Entries in an order, and one more after them. -/
theorem sublist_snoc {entries : List ε} (h : entries.Sublist journal) (entry : ε) :
    (entries ++ [entry]).Sublist (journal ++ [entry]) := h.append (List.Sublist.refl [entry])

end Mocop
