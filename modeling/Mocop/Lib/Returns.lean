import Mathlib.Data.List.Forall2

/-!
# `Mocop.Lib.Returns`: which fallible computations return

`Returns x` says that a computation in `Except` returned a value. There is one rule for each
way to combine computations: a sequence returns when its parts do (`returns_bind_iff`), a
mapped list when every element does (`returns_mapM_iff`), and a fold when every step does
(`returns_foldlM_iff`).
-/

set_option autoImplicit false

namespace Mocop

universe u v w

variable {ε : Type u} {α β : Type v}

/-- The computation returned a value. -/
def Returns (x : Except ε α) : Prop := ∃ a, x = .ok a

instance (x : Except ε α) : Decidable (Returns x) :=
  match x with
  | .ok a => .isTrue ⟨a, rfl⟩
  | .error _ => .isFalse fun ⟨_, h⟩ => by cases h

@[simp] theorem returns_ok (a : α) : Returns (.ok a : Except ε α) := ⟨a, rfl⟩

@[simp] theorem returns_pure (a : α) : Returns (pure a : Except ε α) := ⟨a, rfl⟩

@[simp] theorem not_returns_error (e : ε) : ¬ Returns (.error e : Except ε α) :=
  fun ⟨_, h⟩ => by cases h

/-- A sequence yields what its rest yields on the value of its first part. -/
theorem bind_eq_ok {x : Except ε α} {f : α → Except ε β} {b : β} :
    x >>= f = .ok b ↔ ∃ a, x = .ok a ∧ f a = .ok b := by
  cases x with
  | ok a => exact ⟨fun h => ⟨a, rfl, h⟩, fun ⟨_, heq, h⟩ => by cases heq; exact h⟩
  | error e =>
    refine ⟨fun h => ?_, fun ⟨_, heq, _⟩ => ?_⟩
    · cases h
    · cases heq

/-- A sequence returns when its first part returns a value on which the rest returns. -/
theorem returns_bind_iff (x : Except ε α) (f : α → Except ε β) :
    Returns (x >>= f) ↔ ∃ a, x = .ok a ∧ Returns (f a) := by
  cases x with
  | ok a =>
    refine ⟨fun h => ⟨a, rfl, h⟩, ?_⟩
    rintro ⟨_, heq, h⟩
    cases heq
    exact h
  | error e =>
    refine ⟨fun h => absurd h (not_returns_error e), ?_⟩
    rintro ⟨_, heq, _⟩
    cases heq

/-- A sequence whose rest returns on every value returns when its first part does. -/
theorem returns_bind_of_forall {x : Except ε α} {f : α → Except ε β}
    (hf : ∀ a, Returns (f a)) : Returns (x >>= f) ↔ Returns x := by
  rw [returns_bind_iff]
  exact ⟨fun ⟨a, h, _⟩ => ⟨a, h⟩, fun ⟨a, h⟩ => ⟨a, h, hf a⟩⟩

/-- A list is mapped when every element is. -/
theorem returns_mapM_iff {γ : Type w} (f : γ → Except ε α) (l : List γ) :
    Returns (l.mapM f) ↔ ∀ x ∈ l, Returns (f x) := by
  induction l with
  | nil => simp
  | cons x rest ih =>
    rw [List.mapM_cons, returns_bind_iff, List.forall_mem_cons, ← ih]
    constructor
    · rintro ⟨a, ha, h⟩
      exact ⟨⟨a, ha⟩, (returns_bind_of_forall fun _ => returns_pure _).mp h⟩
    · rintro ⟨⟨a, ha⟩, h⟩
      exact ⟨a, ha, (returns_bind_of_forall fun _ => returns_pure _).mpr h⟩

/-- The values of a mapped list are those of its elements. -/
theorem mapM_eq_ok_iff {γ : Type w} {f : γ → Except ε α} {l : List γ} {r : List α} :
    l.mapM f = .ok r ↔ List.Forall₂ (fun x a => f x = .ok a) l r := by
  induction l generalizing r with
  | nil =>
    rw [List.mapM_nil, List.forall₂_nil_left_iff]
    exact ⟨fun h => by cases h; rfl, fun h => by rw [h]; rfl⟩
  | cons x rest ih =>
    rw [List.mapM_cons, bind_eq_ok, List.forall₂_cons_left_iff]
    constructor
    · rintro ⟨a, ha, h⟩
      obtain ⟨tail, htail, h⟩ := bind_eq_ok.mp h
      cases h
      exact ⟨a, tail, ha, ih.mp htail, rfl⟩
    · rintro ⟨a, tail, ha, htail, rfl⟩
      exact ⟨a, ha, bind_eq_ok.mpr ⟨tail, ih.mpr htail, rfl⟩⟩

/-- A mapped list whose elements are checked and then converted. -/
theorem mapM_eq_ok_iff_of {γ : Type w} {f : γ → Except ε α} {ok : γ → Prop} {value : γ → α}
    (h : ∀ x a, f x = .ok a ↔ ok x ∧ a = value x) (l : List γ) (r : List α) :
    l.mapM f = .ok r ↔ (∀ x ∈ l, ok x) ∧ r = l.map value := by
  induction l generalizing r with
  | nil =>
    rw [List.mapM_nil]
    exact ⟨fun h => by cases h; simp, fun ⟨_, h⟩ => by rw [h]; rfl⟩
  | cons x rest ih =>
    rw [List.mapM_cons, bind_eq_ok, List.forall_mem_cons, List.map_cons]
    constructor
    · rintro ⟨a, ha, hrest⟩
      obtain ⟨tail, htail, heq⟩ := bind_eq_ok.mp hrest
      cases heq
      obtain ⟨hok, rfl⟩ := (h x a).mp ha
      obtain ⟨hall, rfl⟩ := (ih tail).mp htail
      exact ⟨⟨hok, hall⟩, rfl⟩
    · rintro ⟨⟨hok, hall⟩, rfl⟩
      exact ⟨value x, (h x _).mpr ⟨hok, rfl⟩,
        bind_eq_ok.mpr ⟨_, (ih _).mpr ⟨hall, rfl⟩, rfl⟩⟩

/-- Every element of a mapped list yields a value. -/
theorem exists_of_mapM {γ : Type w} {f : γ → Except ε α} {l : List γ} {r : List α}
    (h : l.mapM f = .ok r) {x : γ} (hx : x ∈ l) : ∃ a ∈ r, f x = .ok a := by
  have hall := mapM_eq_ok_iff.mp h
  clear h
  induction hall with
  | nil => cases hx
  | cons hhead _ ih =>
    rcases List.mem_cons.mp hx with rfl | hmem
    · exact ⟨_, List.mem_cons_self, hhead⟩
    · obtain ⟨a, ha, heq⟩ := ih hmem
      exact ⟨a, List.mem_cons_of_mem _ ha, heq⟩

/-- Every mapped value comes from an element. -/
theorem exists_of_mem_mapM {γ : Type w} {f : γ → Except ε α} {l : List γ} {r : List α}
    (h : l.mapM f = .ok r) {a : α} (ha : a ∈ r) : ∃ x ∈ l, f x = .ok a := by
  have hall := mapM_eq_ok_iff.mp h
  clear h
  induction hall with
  | nil => cases ha
  | cons hhead _ ih =>
    rcases List.mem_cons.mp ha with rfl | hmem
    · exact ⟨_, List.mem_cons_self, hhead⟩
    · obtain ⟨x, hx, heq⟩ := ih hmem
      exact ⟨x, List.mem_cons_of_mem _ hx, heq⟩

/-- A mapped list has the length of the list. -/
theorem length_of_mapM {γ : Type w} {f : γ → Except ε α} {l : List γ} {r : List α}
    (h : l.mapM f = .ok r) : r.length = l.length :=
  (mapM_eq_ok_iff.mp h).length_eq.symm

/-- A fold whose steps return or not whatever came before returns when every step does. -/
theorem returns_foldlM_iff {γ : Type w} {f : α → γ → Except ε α} {ok : γ → Prop} {l : List γ}
    (h : ∀ a, ∀ x ∈ l, Returns (f a x) ↔ ok x) (a : α) :
    Returns (l.foldlM f a) ↔ ∀ x ∈ l, ok x := by
  induction l generalizing a with
  | nil => simp
  | cons x rest ih =>
    obtain ⟨hx, hrest⟩ : (∀ a, Returns (f a x) ↔ ok x) ∧ _ :=
      ⟨fun a => h a x List.mem_cons_self, fun a y hy => h a y (List.mem_cons_of_mem _ hy)⟩
    rw [List.foldlM_cons, returns_bind_iff, List.forall_mem_cons]
    constructor
    · rintro ⟨b, hb, hfold⟩
      exact ⟨(hx a).mp ⟨b, hb⟩, (ih hrest b).mp hfold⟩
    · rintro ⟨hok, hfold⟩
      obtain ⟨b, hb⟩ := (hx a).mpr hok
      exact ⟨b, hb, (ih hrest b).mpr hfold⟩

/-- A fold keeps what every step on an element of the list keeps. -/
theorem foldlM_invariant {γ : Type w} {f : α → γ → Except ε α} {l : List γ} (p : α → Prop)
    (hstep : ∀ a, ∀ x ∈ l, ∀ b, p a → f a x = .ok b → p b) {a b : α} (ha : p a)
    (h : l.foldlM f a = .ok b) : p b := by
  induction l generalizing a with
  | nil =>
    rw [List.foldlM_nil] at h
    cases h
    exact ha
  | cons x rest ih =>
    rw [List.foldlM_cons] at h
    obtain ⟨next, hnext, h⟩ := bind_eq_ok.mp h
    exact ih (fun a y hy => hstep a y (List.mem_cons_of_mem _ hy))
      (hstep a x List.mem_cons_self next ha hnext) h

/-- A fold that checks each element and that its key is new, and then appends its value,
returns when every element passes and the keys are distinct. -/
theorem foldlM_distinct_iff {γ : Type w} {κ : Type*} {step : List α → γ → Except ε (List α)}
    {ok : γ → Prop} {value : γ → α} {key : α → κ}
    (hstep : ∀ acc x r, step acc x = .ok r
      ↔ ok x ∧ key (value x) ∉ acc.map key ∧ r = acc ++ [value x])
    (l : List γ) (acc r : List α) :
    l.foldlM step acc = .ok r
      ↔ (∀ x ∈ l, ok x) ∧ (l.map fun x => key (value x)).Nodup
        ∧ (∀ x ∈ l, key (value x) ∉ acc.map key) ∧ r = acc ++ l.map value := by
  induction l generalizing acc with
  | nil =>
    rw [List.foldlM_nil]
    refine ⟨fun h => ⟨by simp, by simp, by simp, ?_⟩, fun ⟨_, _, _, h⟩ => ?_⟩
    · cases h
      rw [List.map_nil, List.append_nil]
    · rw [h, List.map_nil, List.append_nil]
      rfl
  | cons x rest ih =>
    rw [List.foldlM_cons, bind_eq_ok]
    constructor
    · rintro ⟨next, hnext, hrest⟩
      obtain ⟨hok, hnew, rfl⟩ := (hstep acc x next).mp hnext
      obtain ⟨hall, hnodup, hfresh, rfl⟩ := (ih _).mp hrest
      simp only [List.map_append, List.map_cons, List.map_nil, List.mem_append,
        List.mem_singleton, not_or] at hfresh
      refine ⟨List.forall_mem_cons.mpr ⟨hok, hall⟩, ?_, ?_, by simp⟩
      · refine List.nodup_cons.mpr ⟨fun hmem => ?_, hnodup⟩
        obtain ⟨y, hy, heq⟩ := List.mem_map.mp hmem
        exact (hfresh y hy).2 heq
      · exact List.forall_mem_cons.mpr ⟨hnew, fun y hy => (hfresh y hy).1⟩
    · rintro ⟨hall, hnodup, hfresh, rfl⟩
      obtain ⟨hok, hall⟩ := List.forall_mem_cons.mp hall
      obtain ⟨hnew, hfresh⟩ := List.forall_mem_cons.mp hfresh
      obtain ⟨hnot, hnodup⟩ := List.nodup_cons.mp hnodup
      refine ⟨acc ++ [value x], (hstep _ _ _).mpr ⟨hok, hnew, rfl⟩, (ih _).mpr
        ⟨hall, hnodup, fun y hy => ?_, by simp⟩⟩
      simp only [List.map_append, List.map_cons, List.map_nil, List.mem_append,
        List.mem_singleton, not_or]
      exact ⟨hfresh y hy, fun heq => hnot (List.mem_map.mpr ⟨y, hy, heq⟩)⟩

end Mocop
