import Mathlib.Data.List.Basic

/-!
# `Mocop.Lib.LineEnds`: line ends in a text that arrives in pieces

A line ends with a line feed, a carriage return, or a carriage return and a line feed. `unify`
writes every line end as one line feed, but keeps a carriage return at the end of the text: a
line feed may still follow it. The text may then arrive in pieces: a unified beginning takes up
the next piece as if it had never been unified (`unify_append`), so what is left after all of
them does not depend on where the cuts were (`foldl_unify`).

`lines` says what must not change. `lines_unify` is the proof that no line end is doubled or lost.
-/

set_option autoImplicit false

namespace Mocop.LineEnds

variable {α : Type*} [DecidableEq α]

/-- The lines of a text. The last one has no end. -/
def lines (cr lf : α) : List α → List (List α)
  | [] => [[]]
  | [c] => if c = cr ∨ c = lf then [[], []] else [[c]]
  | c :: d :: rest =>
    if c = cr then
      if d = lf then [] :: lines cr lf rest else [] :: lines cr lf (d :: rest)
    else if c = lf then [] :: lines cr lf (d :: rest)
    else (lines cr lf (d :: rest)).modifyHead (c :: ·)

/-- A text with one line feed for every line end, but for a carriage return at its end. -/
def unify (cr lf : α) : List α → List α
  | [] => []
  | [c] => [c]
  | c :: d :: rest =>
    if c = cr then
      if d = lf then lf :: unify cr lf rest else lf :: unify cr lf (d :: rest)
    else c :: unify cr lf (d :: rest)

variable {cr lf : α}

/-- A character that is no carriage return stays in front. -/
theorem unify_cons {c : α} (hc : c ≠ cr) (rest : List α) :
    unify cr lf (c :: rest) = c :: unify cr lf rest := by
  cases rest with
  | nil => rfl
  | cons d rest => simp [unify, hc]

/-- A carriage return and a line feed are one line end. -/
theorem unify_pair (rest : List α) : unify cr lf (cr :: lf :: rest) = lf :: unify cr lf rest := by
  simp [unify]

/-- A carriage return before another character is a line end. -/
theorem unify_single {d : α} (hd : d ≠ lf) (rest : List α) :
    unify cr lf (cr :: d :: rest) = lf :: unify cr lf (d :: rest) := by
  simp [unify, hd]

/-- A unified beginning goes on as the beginning itself. -/
theorem unify_append (hne : lf ≠ cr) (text more : List α) :
    unify cr lf (unify cr lf text ++ more) = unify cr lf (text ++ more) := by
  -- Along the recursion of `unify`: every case but the last character writes one character, which
  -- is no carriage return, and both sides begin with it.
  fun_induction unify cr lf text with
  | case1 => rfl
  | case2 => rfl
  | case3 rest ih =>
    rw [List.cons_append, unify_cons hne, ih]
    exact (unify_pair (rest ++ more)).symm
  | case4 d rest hd ih =>
    rw [List.cons_append, unify_cons hne, ih]
    exact (unify_single hd (rest ++ more)).symm
  | case5 c d rest hc ih =>
    rw [List.cons_append, unify_cons hc, ih]
    exact (unify_cons hc (d :: rest ++ more)).symm

/-- The buffer after all pieces is the unified text, wherever the cuts are. -/
theorem foldl_unify (hne : lf ≠ cr) (start : List α) (pieces : List (List α)) :
    pieces.foldl (fun buffer piece => unify cr lf (buffer ++ piece)) (unify cr lf start)
      = unify cr lf (start ++ pieces.flatten) := by
  induction pieces generalizing start with
  | nil => simp
  | cons piece pieces ih =>
    rw [List.foldl_cons, unify_append hne, ih, List.append_assoc, List.flatten_cons]

/-- A carriage return is left at the end only. -/
theorem not_mem_dropLast_unify (hne : lf ≠ cr) (text : List α) :
    cr ∉ (unify cr lf text).dropLast := by
  -- A list in front of a rest loses its last character in the rest, unless that is empty.
  have hcons : ∀ (c : α) (rest : List α), c ≠ cr → cr ∉ rest.dropLast →
      cr ∉ (c :: rest).dropLast := by
    intro c rest hc hrest
    cases rest with
    | nil => simp
    | cons d rest => simpa [Ne.symm hc] using hrest
  fun_induction unify cr lf text with
  | case1 => simp
  | case2 => simp
  | case3 rest ih => exact hcons lf _ hne ih
  | case4 d rest hd ih => exact hcons lf _ hne ih
  | case5 c d rest hc ih => exact hcons c _ hc ih

/-- A text ends with a carriage return exactly when the unified text does. -/
theorem getLast?_unify (hne : lf ≠ cr) (text : List α) :
    (unify cr lf text).getLast? = some cr ↔ text.getLast? = some cr := by
  -- In front of a rest, a character that is no carriage return does not matter.
  have hcons : ∀ (c : α) (rest : List α), c ≠ cr →
      ((c :: rest).getLast? = some cr ↔ rest.getLast? = some cr) := by
    intro c rest hc
    cases rest with
    | nil => simp [hc]
    | cons d rest => simp
  fun_induction unify cr lf text with
  | case1 => rfl
  | case2 => rfl
  | case3 rest ih =>
    rw [List.getLast?_cons_cons, hcons lf _ hne, hcons lf _ hne]
    exact ih
  | case4 d rest hd ih =>
    rw [hcons lf _ hne, List.getLast?_cons_cons]
    exact ih
  | case5 c d rest hc ih =>
    rw [hcons c _ hc, hcons c _ hc]
    exact ih

/-- A line feed ends the first line. -/
theorem lines_lf (hne : lf ≠ cr) (rest : List α) :
    lines cr lf (lf :: rest) = [] :: lines cr lf rest := by
  cases rest with
  | nil => simp [lines]
  | cons d rest => simp [lines, hne]

/-- Any other character is the first of its line. -/
theorem lines_cons {c : α} (hcr : c ≠ cr) (hlf : c ≠ lf) (rest : List α) :
    lines cr lf (c :: rest) = (lines cr lf rest).modifyHead (c :: ·) := by
  cases rest with
  | nil => simp [lines, hcr, hlf]
  | cons d rest => simp [lines, hcr, hlf]

/-- Unifying keeps the lines. -/
theorem lines_unify (hne : lf ≠ cr) (text : List α) :
    lines cr lf (unify cr lf text) = lines cr lf text := by
  fun_induction unify cr lf text with
  | case1 => rfl
  | case2 => rfl
  | case3 rest ih => rw [lines_lf hne, ih]; simp [lines]
  | case4 d rest hd ih => rw [lines_lf hne, ih]; simp [lines, hd]
  | case5 c d rest hc ih =>
    by_cases hlf : c = lf
    · subst hlf
      rw [lines_lf hne, ih, lines_lf hne]
    · rw [lines_cons hc hlf, ih, lines_cons hc hlf]

end Mocop.LineEnds
