import Mocop.Lib.Json

/-!
# `Mocop.Lib.JsonText`: JSON values as texts on one line

`Json.text` is what `json.dumps` writes without blanks and with `ensure_ascii=False`: characters
beyond ASCII stand as they are, and control characters are escaped. `Json.text_visible` says that
no control character is left, so a text of JSON is one line.
-/

set_option autoImplicit false

namespace Mocop.Json

/-- The characters of a character inside a text. -/
def escapeChar (c : Char) : List Char :=
  if c = '"' then ['\\', '"']
  else if c = '\\' then ['\\', '\\']
  else if c = '\n' then ['\\', 'n']
  else if c = '\r' then ['\\', 'r']
  else if c = '\t' then ['\\', 't']
  else if c = '\x08' then ['\\', 'b']
  else if c = '\x0c' then ['\\', 'f']
  else if c.toNat < 32 then
    ['\\', 'u', '0', '0', Nat.digitChar (c.toNat / 16), Nat.digitChar (c.toNat % 16)]
  else [c]

/-- A text between quotes. -/
def quoted (text : String) : List Char := '"' :: (text.toList.flatMap escapeChar ++ ['"'])

variable (repr : ℚ → List Char)

mutual

/-- The text of a value. What a number with a fraction is spelled like is given. -/
def text : Json → List Char
  | null => "null".toList
  | bool value => if value then "true".toList else "false".toList
  | integer value => (toString value).toList
  | fraction value => repr value
  | string value => quoted value
  | array items => '[' :: (itemsText items ++ [']'])
  | object members => '{' :: (membersText members ++ ['}'])

/-- The texts of items, with commas between them. -/
def itemsText : List Json → List Char
  | [] => []
  | [item] => text item
  | item :: rest => text item ++ ',' :: itemsText rest

/-- The texts of members, with commas between them. -/
def membersText : List (String × Json) → List Char
  | [] => []
  | [(name, value)] => quoted name ++ ':' :: text value
  | (name, value) :: rest => quoted name ++ ':' :: (text value ++ ',' :: membersText rest)

end

/-- Whether a character is no control character. -/
def isVisible (c : Char) : Bool := 32 ≤ c.toNat

theorem digitChar_visible {n : ℕ} (h : n < 16) : isVisible (Nat.digitChar n) = true := by
  have hall : ∀ n < 16, isVisible (Nat.digitChar n) = true := by decide
  exact hall n h

theorem escapeChar_visible (c : Char) : (escapeChar c).all isVisible = true := by
  unfold escapeChar
  iterate 7
    split
    · decide
  split
  · next hcontrol =>
    have hhigh := digitChar_visible (show c.toNat / 16 < 16 by omega)
    have hlow := digitChar_visible (show c.toNat % 16 < 16 by omega)
    have hfront : ['\\', 'u', '0', '0'].all isVisible = true := by decide
    simp only [List.all_cons, List.all_nil, Bool.and_true, Bool.and_eq_true] at hfront ⊢
    exact ⟨hfront.1, hfront.2.1, hfront.2.2.1, hfront.2.2.2, hhigh, hlow⟩
  · next hvisible =>
    rw [List.all_cons, List.all_nil, Bool.and_true]
    exact decide_eq_true (Nat.le_of_not_lt hvisible)

theorem quoted_visible (value : String) : (quoted value).all isVisible = true := by
  have hmark : isVisible '"' = true := by decide
  have hchars : (value.toList.flatMap escapeChar).all isVisible = true := by
    refine List.all_eq_true.mpr fun c hc => ?_
    obtain ⟨d, -, hd⟩ := List.mem_flatMap.mp hc
    exact List.all_eq_true.mp (escapeChar_visible d) c hd
  simp only [quoted, List.all_cons, List.all_append, List.all_nil, hmark, hchars, Bool.and_true]

/-- The digits of a whole number are visible. -/
theorem toString_visible (value : ℤ) : (toString value).toList.all isVisible = true := by
  have hdigits : ∀ n : ℕ, (Nat.repr n).toList.all isVisible = true := by
    intro n
    refine List.all_eq_true.mpr fun c hc => ?_
    rw [Nat.repr_eq_ofList_toDigits, String.toList_ofList] at hc
    have hdigit := Nat.isDigit_of_mem_toDigits (by decide) (by decide) hc
    rw [Char.isDigit, Bool.and_eq_true, decide_eq_true_eq] at hdigit
    have hle : 48 ≤ c.toNat := hdigit.1
    exact decide_eq_true (by omega)
  have hminus : isVisible '-' = true := by decide
  cases value with
  | ofNat n => exact hdigits n
  | negSucc n =>
    show ("-" ++ Nat.repr (n + 1)).toList.all isVisible = true
    rw [String.toList_append, List.all_append, hdigits]
    decide

variable {repr}

theorem itemsText_cons (item : Json) {items : List Json} (h : items ≠ []) :
    itemsText repr (item :: items) = text repr item ++ ',' :: itemsText repr items := by
  cases items with
  | nil => exact absurd rfl h
  | cons next rest =>
    rw [itemsText]
    exact List.cons_ne_nil _ _

theorem membersText_cons (member : String × Json) {members : List (String × Json)}
    (h : members ≠ []) :
    membersText repr (member :: members)
      = quoted member.1 ++ ':' :: (text repr member.2 ++ ',' :: membersText repr members) := by
  cases members with
  | nil => exact absurd rfl h
  | cons next rest =>
    rw [membersText]
    exact List.cons_ne_nil _ _

/-- No control character is left in the text of a value. -/
theorem text_visible (hrepr : ∀ q, (repr q).all isVisible = true) (value : Json) :
    (text repr value).all isVisible = true := by
  have hsigns : "[]\x7b\x7d,:".toList.all isVisible = true := by decide +kernel
  have hsign : ∀ c ∈ "[]\x7b\x7d,:".toList, isVisible c = true := List.all_eq_true.mp hsigns
  -- Over the values, the items of an array, the members of an object and one member.
  refine @Json.rec (fun value => (text repr value).all isVisible = true)
    (fun items => (itemsText repr items).all isVisible = true)
    (fun members => (membersText repr members).all isVisible = true)
    (fun member => (text repr member.2).all isVisible = true)
    ?_ ?_ ?_ ?_ ?_ ?_ ?_ ?_ ?_ ?_ ?_ ?_ value
  · rw [text]
    decide +kernel
  · intro value
    rw [text]
    cases value <;> decide +kernel
  · exact toString_visible
  · exact hrepr
  · exact quoted_visible
  · intro items ih
    simp only [text, List.all_cons, List.all_append, List.all_nil, ih, Bool.and_true,
      hsign '[' (by decide), hsign ']' (by decide)]
  · intro members ih
    simp only [text, List.all_cons, List.all_append, List.all_nil, ih, Bool.and_true,
      hsign '\x7b' (by decide), hsign '\x7d' (by decide)]
  · rfl
  · intro item items hitem hitems
    by_cases hnil : items = []
    · rw [hnil, itemsText]
      exact hitem
    · rw [itemsText_cons item hnil]
      simp only [List.all_cons, List.all_append, hitem, hitems, Bool.and_true,
        hsign ',' (by decide)]
  · rfl
  · intro member members hmember hmembers
    by_cases hnil : members = []
    · rw [hnil, membersText]
      simp only [List.all_cons, List.all_append, hmember, quoted_visible, Bool.and_true,
        hsign ':' (by decide)]
    · rw [membersText_cons member hnil]
      simp only [List.all_cons, List.all_append, hmember, hmembers, quoted_visible, Bool.and_true,
        hsign ':' (by decide), hsign ',' (by decide)]
  · exact fun _ _ ih => ih

end Mocop.Json
