import Mathlib.Algebra.Order.Ring.Rat

/-!
# `Mocop.Lib.Json`: JSON values

A JSON value as a program reads it from a text. Whole numbers and numbers with a fraction are
different values: some readers tell them apart (`integer?`) and some do not (`number?`). The
names of the members of an object are distinct when the value comes from a parser.
-/

set_option autoImplicit false

namespace Mocop

/-- A JSON value. -/
inductive Json where
  | null
  | bool (value : Bool)
  | integer (value : ℤ)
  | fraction (value : ℚ)
  | string (value : String)
  | array (items : List Json)
  | object (members : List (String × Json))

namespace Json

/-- A truth value. -/
def bool? : Json → Option Bool
  | bool value => some value
  | _ => none

/-- A whole number. -/
def integer? : Json → Option ℤ
  | integer value => some value
  | _ => none

/-- A number. -/
def number? : Json → Option ℚ
  | integer value => some value
  | fraction value => some value
  | _ => none

/-- A text. -/
def string? : Json → Option String
  | string value => some value
  | _ => none

/-- The items of an array. -/
def array? : Json → Option (List Json)
  | array items => some items
  | _ => none

/-- The members of an object. -/
def object? : Json → Option (List (String × Json))
  | object members => some members
  | _ => none

/-- Whether a member is missing or null. -/
def isNullish : Option Json → Bool
  | none | some null => true
  | _ => false

/-- The member of an object by name. -/
def member (value : Json) (name : String) : Option Json :=
  (value.object?.getD []).lookup name

/-- A list of texts. -/
def strings (values : List String) : Json := array (values.map string)

end Json

end Mocop
