import Mathlib.Data.List.Basic

/-!
# `Mocop.Lib.Csv`: a CSV reader that can fail part of the way

The reader takes the text line by line and keeps, between two characters, where it stands in
the record. A record ends with a line, unless a quoted field is open: the field then goes on
in the next line. Doubled quotes stand for one, and text after a closing quote joins the
field.

Three things make it fail: a character the dialect refuses, a field over the limit, and a
character after a bare carriage return. The rows before the failure are already out, so
`rows` yields both: the completed rows, and the failure if there was one.
-/

set_option autoImplicit false

namespace Mocop.Csv

/-- The dialect: how fields are written and what the reader refuses. -/
structure Dialect where
  delimiter : Char := ','
  /-- The quotation mark, U+0022. -/
  quote : Char := Char.ofNat 34
  skipInitialSpace : Bool := false
  fieldLimit : ℕ := 131072
  refuses : Char → Bool := fun _ => false

/-- Why a line cannot be read. -/
inductive Failure where
  | refusedCharacter
  | strayNewline
  | oversizedField
  deriving DecidableEq, Repr

/-- Where the reader stands in a record. -/
inductive Position where
  | startRecord
  | startField
  | inField
  | inQuotedField
  | quoteInQuotedField
  | eatNewline
  deriving DecidableEq, Repr

/-- The reader between two characters: its position, the field so far and the fields before
it. -/
structure Reader where
  position : Position := .startRecord
  field : List Char := []
  fields : List String := []

/-- The field is complete. -/
def Reader.saveField (reader : Reader) (next : Position) : Reader :=
  { position := next, field := [], fields := reader.fields ++ [String.ofList reader.field] }

/-- One more character of the field. -/
def Reader.addChar (dialect : Dialect) (reader : Reader) (c : Char) (next : Position) :
    Except Failure Reader :=
  if dialect.fieldLimit ≤ reader.field.length then .error .oversizedField
  else .ok { reader with position := next, field := reader.field ++ [c] }

/-- One character at the start of a field. -/
def Reader.beginField (dialect : Dialect) (reader : Reader) (c : Char) : Except Failure Reader :=
  if c = '\n' ∨ c = '\r' then .ok (reader.saveField .eatNewline)
  else if c = dialect.quote then .ok { reader with position := .inQuotedField }
  else if c = ' ' ∧ dialect.skipInitialSpace then .ok { reader with position := .startField }
  else if c = dialect.delimiter then .ok (reader.saveField .startField)
  else reader.addChar dialect c .inField

/-- One character of a line. -/
def Reader.read (dialect : Dialect) (reader : Reader) (c : Char) : Except Failure Reader :=
  if dialect.refuses c then .error .refusedCharacter
  else match reader.position with
  | .startRecord =>
    if c = '\n' ∨ c = '\r' then .ok { reader with position := .eatNewline }
    else reader.beginField dialect c
  | .startField => reader.beginField dialect c
  | .inField =>
    if c = '\n' ∨ c = '\r' then .ok (reader.saveField .eatNewline)
    else if c = dialect.delimiter then .ok (reader.saveField .startField)
    else reader.addChar dialect c .inField
  | .inQuotedField =>
    if c = dialect.quote then .ok { reader with position := .quoteInQuotedField }
    else reader.addChar dialect c .inQuotedField
  | .quoteInQuotedField =>
    if c = dialect.quote then reader.addChar dialect c .inQuotedField
    else if c = dialect.delimiter then .ok (reader.saveField .startField)
    else if c = '\n' ∨ c = '\r' then .ok (reader.saveField .eatNewline)
    else reader.addChar dialect c .inField
  | .eatNewline => if c = '\n' ∨ c = '\r' then .ok reader else .error .strayNewline

/-- The end of a line. -/
def Reader.endLine (reader : Reader) : Reader :=
  match reader.position with
  | .startRecord => reader
  | .startField | .inField | .quoteInQuotedField => reader.saveField .startRecord
  | .inQuotedField => reader
  | .eatNewline => { reader with position := .startRecord }

/-- The rows of the lines, and the failure that ended the reading. -/
def rowsFrom (dialect : Dialect) : Reader → List (List Char) → List (List String) × Option Failure
  | reader, [] =>
    -- An open quoted field ends with the text.
    if reader.field ≠ [] ∨ reader.position = .inQuotedField then
      ([(reader.saveField .startRecord).fields], none)
    else ([], none)
  | reader, line :: rest =>
    match line.foldlM (Reader.read dialect) reader with
    | .error failure => ([], some failure)
    | .ok read =>
      let ended := read.endLine
      if ended.position = .startRecord then
        let following := rowsFrom dialect {} rest
        (ended.fields :: following.1, following.2)
      else rowsFrom dialect ended rest

/-- The lines of a text, each with its line feed. -/
def linesOf : List Char → List (List Char)
  | [] => []
  | c :: rest =>
    if c = '\n' then [c] :: linesOf rest
    else match linesOf rest with
      | [] => [[c]]
      | line :: lines => (c :: line) :: lines

/-- The rows of a text, and the failure that ended the reading. -/
def rows (dialect : Dialect) (text : String) : List (List String) × Option Failure :=
  rowsFrom dialect {} (linesOf text.toList)

end Mocop.Csv
