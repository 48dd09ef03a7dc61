import Mocop.Lib.Doubles

/-!
# `Mocop.Lib.PyValues`: values of dynamic type

The values that a program reads from dictionaries of unknown shape, with the reads it makes of
them: the value of a key, a dictionary or nothing, a truth value. Reading never leaves the values
that were there, so what holds of every number in a dictionary holds of what is read
(`InRange.get`).
-/

set_option autoImplicit false

namespace Mocop

/-- A value of dynamic type. -/
inductive PyValue where
  | none
  | bool (value : Bool)
  | int (value : ℤ)
  | float (value : Float64)
  | str (value : String)
  | list (items : List PyValue)
  | dict (members : List (String × PyValue))

/-- A dictionary. -/
abbrev PyDict := List (String × PyValue)

namespace PyValue

/-- `value if isinstance(value, Mapping) else {}` -/
def mapping : PyValue → PyDict
  | dict members => members
  | _ => []

/-- `value if isinstance(value, list) else []` -/
def items : PyValue → List PyValue
  | list items => items
  | _ => []

/-- `value is None` -/
def isNone : PyValue → Bool
  | none => true
  | _ => false

/-- `value is True` -/
def isTrue : PyValue → Bool
  | bool value => value
  | _ => false

/-- `bool(value)` -/
def truthy : PyValue → Bool
  | none => false
  | bool value => value
  | int value => value ≠ 0
  | float (.finite value) => value.value ≠ 0
  | float _ => true
  | str value => value ≠ ""
  | list items => !items.isEmpty
  | dict members => !members.isEmpty

/-- `value or default` -/
def orElse (value default : PyValue) : PyValue := if value.truthy then value else default

/-- `str(value)`: the text itself of a text, and `repr` of what is none. -/
def toStr (repr : PyValue → String) : PyValue → String
  | str value => value
  | value => repr value

/-- Whether the integers of a value and the lengths of its lists are in the range of a double. -/
inductive InRange : PyValue → Prop where
  | none : InRange .none
  | bool (value : Bool) : InRange (.bool value)
  | int (value : ℤ) (hvalue : (|value| : ℚ) ≤ doubleLimit / 2) : InRange (.int value)
  | float (value : Float64) : InRange (.float value)
  | str (value : String) : InRange (.str value)
  | list (items : List PyValue) (hlength : (items.length : ℚ) ≤ doubleLimit / 2)
      (hitems : ∀ item ∈ items, InRange item) : InRange (.list items)
  | dict (members : PyDict) (hmembers : ∀ entry ∈ members, InRange entry.2) :
      InRange (.dict members)

/-- The members of a dictionary in range. -/
theorem InRange.mapping {value : PyValue} (h : value.InRange) :
    ∀ entry ∈ value.mapping, entry.2.InRange := by
  cases h with
  | dict members hmembers => exact hmembers
  | _ => simp [PyValue.mapping]

/-- The items of a list in range. -/
theorem InRange.items {value : PyValue} (h : value.InRange) :
    ∀ item ∈ value.items, item.InRange := by
  cases h with
  | list items hlength hitems => exact hitems
  | _ => simp [PyValue.items]

end PyValue

namespace PyDict

/-- `members.get(name)` -/
def get (members : PyDict) (name : String) : PyValue := (members.lookup name).getD .none

/-- Whether every value of a dictionary is in range. -/
def InRange (members : PyDict) : Prop := ∀ entry ∈ members, entry.2.InRange

/-- A value that is read from a dictionary in range is in range. -/
theorem InRange.get {members : PyDict} (h : InRange members) (name : String) :
    (PyDict.get members name).InRange := by
  induction members with
  | nil => exact .none
  | cons entry members ih =>
    have hrest := ih fun later hlater => h later (List.mem_cons_of_mem _ hlater)
    obtain ⟨key, value⟩ := entry
    by_cases hkey : name = key
    · have hvalue : value.InRange := h (key, value) (by simp)
      simpa [PyDict.get, List.lookup_cons, hkey] using hvalue
    · have hne : (name == key) = false := by simpa using hkey
      simpa [PyDict.get, List.lookup_cons, hne] using hrest

end PyDict

end Mocop
