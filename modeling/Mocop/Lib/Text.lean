import Mathlib.Data.List.Basic

/-!
# `Mocop.Lib.Text`: strip, split and join

The text operations of the scripting languages on Unicode texts. `pyStrip` drops the blanks
at both ends. `splitAt` cuts a text at every separator and `joinWith` puts the pieces
together again; `splitAt_joinWith` says that pieces without the separator come back.
-/

set_option autoImplicit false

namespace Mocop

/-- Whether `str.strip` removes a character. -/
def isPySpace (c : Char) : Bool :=
  let n := c.toNat
  (9 ≤ n && n ≤ 13) || (28 ≤ n && n ≤ 32) || n == 0x85 || n == 0xa0 || n == 0x1680
    || (0x2000 ≤ n && n ≤ 0x200a) || n == 0x2028 || n == 0x2029 || n == 0x202f || n == 0x205f
    || n == 0x3000

/-- `value.strip()`. -/
def pyStrip (value : String) : String :=
  String.ofList (((value.toList.dropWhile isPySpace).reverse.dropWhile isPySpace).reverse)

/-- A text without blanks is stripped. -/
theorem pyStrip_of_all {value : String} (h : ∀ c ∈ value.toList, isPySpace c = false) :
    pyStrip value = value := by
  have hdrop : ∀ l : List Char, (∀ c ∈ l, isPySpace c = false) → l.dropWhile isPySpace = l := by
    intro l hl
    cases l with
    | nil => rfl
    | cons c rest => rw [List.dropWhile_cons_of_neg (by simp [hl c List.mem_cons_self])]
  rw [pyStrip, hdrop _ h, hdrop _ fun c hc => h c (List.mem_reverse.mp hc), List.reverse_reverse,
    String.ofList_toList]

/-- `text.split(separator)` for a separator of one character: never the empty list. -/
def splitAt (separator : Char) (text : String) : List String :=
  (text.toList.splitOn separator).map String.ofList

/-- `separator.join(pieces)` for a separator of one character. -/
def joinWith (separator : Char) (pieces : List String) : String :=
  String.ofList ([separator].intercalate (pieces.map String.toList))

/-- Pieces without the separator come back from the joined text. -/
theorem splitAt_joinWith {separator : Char} {pieces : List String}
    (hclean : ∀ piece ∈ pieces, separator ∉ piece.toList) (hne : pieces ≠ []) :
    splitAt separator (joinWith separator pieces) = pieces := by
  have hpieces : ∀ l ∈ pieces.map String.toList, separator ∉ l := by
    intro l hl
    obtain ⟨piece, hpiece, rfl⟩ := List.mem_map.mp hl
    exact hclean piece hpiece
  have hsome : pieces.map String.toList ≠ [] := by simpa using hne
  have hback : String.ofList ∘ String.toList = id := by
    funext piece
    exact String.ofList_toList
  rw [splitAt, joinWith, String.toList_ofList, List.splitOn_intercalate _ hpieces hsome,
    List.map_map, hback, List.map_id]

/-- No piece of a split list holds the separator. -/
theorem not_mem_of_mem_splitOn {separator : Char} {chars : List Char} :
    ∀ piece ∈ chars.splitOn separator, separator ∉ piece := by
  induction chars with
  | nil =>
    intro piece hpiece
    rw [List.splitOn_nil, List.mem_singleton] at hpiece
    rw [hpiece]
    exact List.not_mem_nil
  | cons c rest ih =>
    intro piece hpiece
    rw [List.splitOn_cons_eq_if_modifyHead] at hpiece
    -- A separator starts a new piece, any other character joins the first one.
    by_cases hc : (c == separator) = true
    · rw [if_pos hc] at hpiece
      rcases List.mem_cons.mp hpiece with rfl | hmem
      · exact List.not_mem_nil
      · exact ih piece hmem
    · rw [if_neg hc] at hpiece
      cases hsplit : rest.splitOn separator with
      | nil => exact absurd hsplit (List.splitOn_ne_nil separator rest)
      | cons head tail =>
        rw [hsplit, List.modifyHead_cons] at hpiece
        rw [hsplit] at ih
        rcases List.mem_cons.mp hpiece with rfl | hmem
        · intro hin
          rcases List.mem_cons.mp hin with rfl | hin
          · exact hc (beq_self_eq_true separator)
          · exact ih head List.mem_cons_self hin
        · exact ih piece (List.mem_cons_of_mem _ hmem)

/-- No piece of a split text holds the separator. -/
theorem not_mem_of_mem_splitAt {separator : Char} {text piece : String}
    (h : piece ∈ splitAt separator text) : separator ∉ piece.toList := by
  obtain ⟨chars, hchars, rfl⟩ := List.mem_map.mp h
  rw [String.toList_ofList]
  exact not_mem_of_mem_splitOn chars hchars

/-- A split text has a first piece. -/
theorem splitAt_ne_nil (separator : Char) (text : String) : splitAt separator text ≠ [] := by
  intro hnil
  exact List.splitOn_ne_nil separator text.toList (List.map_eq_nil_iff.mp hnil)

end Mocop
