import Mocop.Lib.Dict
import Mathlib.Data.List.Chain

/-!
# `Mocop.Lib.Toggles`: starts and stops of keyed things

A timeline is a list of edges. Each edge has a key, and it starts the thing of its key or stops
it. `openStarts` are the starts that no later stop closed, and `Alternates` says that the edges
of each key take turns.

Both look at one key at a time: `edgesOf events k` are the edges of `k`. What is appended for a
key decides whether the key is open afterwards (`get?_openStarts_append`), and it keeps the
turns if its first edge differs from the last one before (`Alternates.append`).
`edgesOf_flatMap` reads off the edges that a loop over distinct keys appends.
-/

set_option autoImplicit false

namespace Mocop

universe u v

namespace Toggles

variable {α : Type u} {κ : Type v} [DecidableEq κ]

section
variable (key : α → κ) (isStart : α → Bool)

/-- The open starts after one more edge. -/
def toggle (table : Dict κ α) (event : α) : Dict κ α :=
  if isStart event then table.set (key event) event else table.erase (key event)

/-- The starts that no later stop closed. -/
def openStarts (events : List α) : Dict κ α := events.foldl (toggle key isStart) ∅

/-- The edges of one key. -/
def edgesOf (events : List α) (k : κ) : List α := events.filter (fun event => key event = k)

/-- Whether the edges take turns. -/
def TakeTurns (events : List α) : Prop := (events.map isStart).IsChain (· ≠ ·)

/-- The edges of every key take turns. -/
def Alternates (events : List α) : Prop := ∀ k, TakeTurns isStart (edgesOf key events k)

/-- The start that is open after some edges of one key. -/
def lastOpen (events : List α) : Option α :=
  match events.getLast? with
  | some event => if isStart event then some event else none
  | none => none

end

variable {key : α → κ} {isStart : α → Bool}

@[simp] theorem edgesOf_append (events more : List α) (k : κ) :
    edgesOf key (events ++ more) k = edgesOf key events k ++ edgesOf key more k :=
  List.filter_append ..

/-- What is open for a key is decided by the last edge of the key. -/
theorem get?_openStarts (events : List α) (k : κ) :
    (openStarts key isStart events).get? k = lastOpen isStart (edgesOf key events k) := by
  induction events using List.reverseRecOn with
  | nil => rfl
  | append_singleton events event ih =>
    have hfold : openStarts key isStart (events ++ [event])
        = toggle key isStart (openStarts key isStart events) event := by
      simp [openStarts, List.foldl_append]
    rw [hfold, edgesOf_append, toggle]
    by_cases hkey : key event = k
    · have hedge : edgesOf key [event] k = [event] := by simp [edgesOf, hkey]
      rw [hedge, lastOpen, List.getLast?_append]
      by_cases hstart : isStart event = true
      · simp [hstart, hkey]
      · simp [hstart, hkey]
    · have hedge : edgesOf key [event] k = [] := by simp [edgesOf, hkey]
      rw [hedge, List.append_nil, ← ih]
      by_cases hstart : isStart event = true
      · simp [hstart, Ne.symm hkey]
      · simp [hstart, Ne.symm hkey]

/-- What is open for a key after more edges: the last of them decides, if there is any. -/
theorem get?_openStarts_append (events more : List α) (k : κ) :
    (openStarts key isStart (events ++ more)).get? k
      = if edgesOf key more k = [] then (openStarts key isStart events).get? k
        else lastOpen isStart (edgesOf key more k) := by
  rw [get?_openStarts, get?_openStarts, edgesOf_append]
  by_cases hnone : edgesOf key more k = []
  · rw [if_pos hnone, hnone, List.append_nil]
  · rw [if_neg hnone, lastOpen, List.getLast?_append_of_ne_nil _ hnone, lastOpen]

/-- An open start is an edge of its key. -/
theorem mem_of_openStarts {events : List α} {k : κ} {event : α}
    (h : (openStarts key isStart events).get? k = some event) :
    event ∈ events ∧ key event = k ∧ isStart event = true := by
  rw [get?_openStarts, lastOpen] at h
  split at h
  · next last hlast =>
    split at h
    · next hstart =>
      obtain rfl := Option.some.inj h
      have hmem := List.mem_of_getLast? hlast
      rw [edgesOf, List.mem_filter, decide_eq_true_eq] at hmem
      exact ⟨hmem.1, hmem.2, hstart⟩
    · simp at h
  · simp at h

/-- The last edge of a key is a start exactly when the key is open. -/
theorem isStart_getLast {events : List α} {k : κ} {event : α}
    (h : (edgesOf key events k).getLast? = some event) :
    isStart event = ((openStarts key isStart events).get? k).isSome := by
  rw [get?_openStarts, lastOpen, h]
  by_cases hstart : isStart event = true
  · simp [hstart]
  · simp [hstart]

/-- Appended edges keep the turns if those of each key take turns among themselves, a key that
is open continues with a stop, and one that is not open continues with a start. -/
theorem Alternates.append {events more : List α} (h : Alternates key isStart events)
    (hturns : Alternates key isStart more)
    (hfirst : ∀ k event, (edgesOf key more k).head? = some event →
      isStart event = !((openStarts key isStart events).get? k).isSome) :
    Alternates key isStart (events ++ more) := by
  intro k
  rw [edgesOf_append, TakeTurns, List.map_append, List.isChain_append]
  refine ⟨h k, hturns k, ?_⟩
  intro before hbefore after hafter
  rw [List.getLast?_map, Option.mem_def, Option.map_eq_some_iff] at hbefore
  rw [List.head?_map, Option.mem_def, Option.map_eq_some_iff] at hafter
  obtain ⟨last, hlast, rfl⟩ := hbefore
  obtain ⟨first, hhead, rfl⟩ := hafter
  have hopen : isStart last = ((openStarts key isStart events).get? k).isSome :=
    isStart_getLast hlast
  rw [hopen, hfirst k first hhead]
  cases ((openStarts key isStart events).get? k).isSome <;> decide

/-- The edges may follow a key that is open or not: they take turns, and the first one is a
stop exactly when the key is open. -/
structure Fits (isStart : α → Bool) (isOpen : Bool) (edges : List α) : Prop where
  turns : TakeTurns isStart edges
  first : ∀ event, edges.head? = some event → isStart event = !isOpen

theorem fits_nil (isOpen : Bool) : Fits isStart isOpen [] :=
  ⟨List.isChain_nil, fun _ h => by simp at h⟩

theorem fits_start {event : α} (h : isStart event = true) : Fits isStart false [event] :=
  ⟨List.isChain_singleton _, fun e he => by
    rw [List.head?_cons, Option.some.injEq] at he
    rw [← he, h]
    rfl⟩

theorem fits_stop {event : α} (h : isStart event = false) : Fits isStart true [event] :=
  ⟨List.isChain_singleton _, fun e he => by
    rw [List.head?_cons, Option.some.injEq] at he
    rw [← he, h]
    rfl⟩

theorem fits_restart {stop start : α} (hstop : isStart stop = false)
    (hstart : isStart start = true) : Fits isStart true [stop, start] :=
  ⟨by simp [TakeTurns, hstop, hstart], fun e he => by
    rw [List.head?_cons, Option.some.injEq] at he
    rw [← he, hstop]
    rfl⟩

/-- Appended edges that fit for every key keep the turns. -/
theorem Alternates.append_fits {events more : List α} (h : Alternates key isStart events)
    (hfits : ∀ k, Fits isStart ((openStarts key isStart events).get? k).isSome
      (edgesOf key more k)) :
    Alternates key isStart (events ++ more) :=
  h.append (fun k => (hfits k).turns) (fun k => (hfits k).first)

/-- A key without a stop before its first start has none after edges that fit. -/
theorem begins_append {events more : List α} {k : κ}
    (hbegins : ∀ event, (edgesOf key events k).head? = some event → isStart event = true)
    (hfits : Fits isStart ((openStarts key isStart events).get? k).isSome
      (edgesOf key more k)) :
    ∀ event, (edgesOf key (events ++ more) k).head? = some event → isStart event = true := by
  intro event hhead
  rw [edgesOf_append] at hhead
  by_cases hnone : edgesOf key events k = []
  · rw [hnone, List.nil_append] at hhead
    rw [hfits.first event hhead, get?_openStarts, hnone]
    rfl
  · rw [List.head?_append_of_ne_nil _ hnone] at hhead
    exact hbegins event hhead

/-! ### Loops over distinct keys -/

/-- A loop over distinct keys that appends edges of its own key: the edges of one key. -/
theorem edgesOf_flatMap {keys : List κ} (hnodup : keys.Nodup) (f : κ → List α)
    (hkey : ∀ k ∈ keys, ∀ event ∈ f k, key event = k) (k : κ) :
    edgesOf key (keys.flatMap f) k = if k ∈ keys then f k else [] := by
  induction keys with
  | nil => rfl
  | cons first rest ih =>
    rw [List.nodup_cons] at hnodup
    have hrest := ih hnodup.2 (fun k hk => hkey k (List.mem_cons_of_mem _ hk))
    have hfirst := hkey first List.mem_cons_self
    rw [List.flatMap_cons, edgesOf_append, hrest]
    by_cases hk : first = k
    · subst hk
      have hall : edgesOf key (f first) first = f first :=
        List.filter_eq_self.mpr (fun event hevent => by simp [hfirst event hevent])
      simp [hall, hnodup.1]
    · have hnone : edgesOf key (f first) k = [] :=
        List.filter_eq_nil_iff.mpr (fun event hevent => by simp [hfirst event hevent, hk])
      simp [hnone, Ne.symm hk]

/-- A loop over distinct keys that appends at most one edge for each. -/
theorem edgesOf_filterMap {keys : List κ} (hnodup : keys.Nodup) (f : κ → Option α)
    (hkey : ∀ k ∈ keys, ∀ event, f k = some event → key event = k) (k : κ) :
    edgesOf key (keys.filterMap f) k = if k ∈ keys then (f k).toList else [] := by
  rw [List.filterMap_eq_flatMap_toList]
  exact edgesOf_flatMap hnodup (fun k => (f k).toList)
    (fun k hk event hevent => hkey k hk event (Option.mem_toList.mp hevent)) k

end Toggles

end Mocop
