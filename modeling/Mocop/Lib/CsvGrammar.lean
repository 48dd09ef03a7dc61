import Mathlib.Data.List.Basic

/-!
# `Mocop.Lib.CsvGrammar`: the strict reader of comma-separated values

The grammar of RFC 4180: records end with a carriage return and a line feed, which the last
record may lack, fields are separated by commas, and a field is either plain or stands between
quotation marks, where a doubled mark stands for one. A plain field has no mark, comma or line
end; outside of quotation marks there is no lone carriage return or line feed. The reader walks
over the text and gives up where the grammar does (`parse`). It takes any character as text, not
only those of ASCII.

What is written with every field between quotation marks is read back (`parse_document`): an open
field takes every character, so nothing in a value can end it, and the mark after it cannot be
the first of a doubled one.
-/

set_option autoImplicit false

namespace Mocop.CsvGrammar

/-- The characters of the grammar. -/
structure Alphabet (α : Type*) where
  quote : α
  comma : α
  cr : α
  lf : α
  comma_ne_quote : comma ≠ quote
  cr_ne_quote : cr ≠ quote
  cr_ne_comma : cr ≠ comma

/-- Where the reader stands. -/
inductive Position where
  | startRecord
  | startField
  | plain
  | quoted
  /-- After a quotation mark in a quoted field: the field ends here, or the mark is doubled. -/
  | quoteSeen
  | crSeen
  deriving DecidableEq

/-- The reader between two characters: the field so far, the fields of the record before it, and
the records before. -/
structure Reader (α : Type*) where
  position : Position := .startRecord
  field : List α := []
  fields : List (List α) := []
  records : List (List (List α)) := []

variable {α : Type*}

namespace Reader

/-- The field is complete. -/
def endField (reader : Reader α) (next : Position) : Reader α :=
  { reader with position := next, field := [], fields := reader.fields ++ [reader.field] }

/-- The record is complete. -/
def endRecord (reader : Reader α) : Reader α :=
  { records := reader.records ++ [reader.fields] }

/-- One more character of the field. -/
def take (reader : Reader α) (c : α) (next : Position) : Reader α :=
  { reader with position := next, field := reader.field ++ [c] }

variable [DecidableEq α] (alphabet : Alphabet α)

/-- What ends a field. -/
def separate (reader : Reader α) (c : α) : Option (Reader α) :=
  if c = alphabet.comma then some (reader.endField .startField)
  else if c = alphabet.cr then some (reader.endField .crSeen)
  else none

/-- A character of a plain field, or what ends it. -/
def readPlain (reader : Reader α) (c : α) : Option (Reader α) :=
  if c = alphabet.comma ∨ c = alphabet.cr then reader.separate alphabet c
  else if c = alphabet.quote ∨ c = alphabet.lf then none
  else some (reader.take c .plain)

/-- One character. -/
def read (reader : Reader α) (c : α) : Option (Reader α) :=
  match reader.position with
  | .startRecord | .startField =>
    if c = alphabet.quote then some { reader with position := .quoted }
    else reader.readPlain alphabet c
  | .plain => reader.readPlain alphabet c
  | .quoted =>
    if c = alphabet.quote then some { reader with position := .quoteSeen }
    else some (reader.take c .quoted)
  | .quoteSeen =>
    if c = alphabet.quote then some (reader.take c .quoted)
    else reader.separate alphabet c
  | .crSeen => if c = alphabet.lf then some reader.endRecord else none

/-- The records at the end of the text. -/
def finish (reader : Reader α) : Option (List (List (List α))) :=
  match reader.position with
  | .startRecord => some reader.records
  | .startField | .plain | .quoteSeen => some (reader.endField .crSeen).endRecord.records
  | .quoted | .crSeen => none

end Reader

variable [DecidableEq α] (alphabet : Alphabet α)

/-- The records of a text. -/
def parse (text : List α) : Option (List (List (List α))) := do
  let reader ← text.foldlM (Reader.read alphabet) {}
  reader.finish

/-! ### Writing -/

/-- A value with its quotation marks doubled. -/
def escaped (value : List α) : List α :=
  value.flatMap fun c => if c = alphabet.quote then [c, c] else [c]

/-- A value between quotation marks. -/
def quotedField (value : List α) : List α :=
  alphabet.quote :: (escaped alphabet value ++ [alphabet.quote])

/-- The line of a record, without its end. -/
def recordText (row : List (List α)) : List α :=
  [alphabet.comma].intercalate (row.map (quotedField alphabet))

/-- The text of the records. -/
def document (rows : List (List (List α))) : List α :=
  rows.flatMap fun row => recordText alphabet row ++ [alphabet.cr, alphabet.lf]

/-! ### Reading back -/

variable {alphabet}

/-- A line after another one. -/
theorem recordText_cons (value : List α) {row : List (List α)} (hrow : row ≠ []) :
    recordText alphabet (value :: row)
      = quotedField alphabet value ++ alphabet.comma :: recordText alphabet row := by
  cases row with
  | nil => exact absurd rfl hrow
  | cons next row => simp [recordText]

/-- An open field takes the whole value. -/
theorem read_escaped (value field : List α) (fields : List (List α))
    (records : List (List (List α))) :
    (escaped alphabet value).foldlM (Reader.read alphabet) ⟨.quoted, field, fields, records⟩
      = some ⟨.quoted, field ++ value, fields, records⟩ := by
  induction value generalizing field with
  | nil => simp [escaped]
  | cons c value ih =>
    have hrest := ih (field ++ [c])
    rw [List.append_assoc, List.singleton_append] at hrest
    rw [← hrest]
    -- A quotation mark is read twice, any other character once.
    by_cases hc : c = alphabet.quote
    · simp [escaped, hc, List.foldlM_cons, Reader.read, Reader.take]
    · simp [escaped, hc, List.foldlM_cons, Reader.read, Reader.take]

/-- A quoted field is read to the mark that closes it. -/
theorem read_quotedField {position : Position}
    (hposition : position = .startRecord ∨ position = .startField) (value : List α)
    (fields : List (List α)) (records : List (List (List α))) :
    (quotedField alphabet value).foldlM (Reader.read alphabet) ⟨position, [], fields, records⟩
      = some ⟨.quoteSeen, value, fields, records⟩ := by
  have hopen : Reader.read alphabet ⟨position, [], fields, records⟩ alphabet.quote
      = some ⟨.quoted, [], fields, records⟩ := by
    rcases hposition with rfl | rfl <;> simp [Reader.read]
  have hclose : Reader.read alphabet ⟨.quoted, value, fields, records⟩ alphabet.quote
      = some ⟨.quoteSeen, value, fields, records⟩ := by
    simp [Reader.read]
  rw [quotedField, List.foldlM_cons, hopen]
  show (escaped alphabet value ++ [alphabet.quote]).foldlM (Reader.read alphabet)
    ⟨.quoted, [], fields, records⟩ = _
  rw [List.foldlM_append, read_escaped, List.nil_append]
  show [alphabet.quote].foldlM (Reader.read alphabet) ⟨.quoted, value, fields, records⟩ = _
  rw [List.foldlM_cons, hclose]
  rfl

/-- A line is read as its record. -/
theorem read_recordText {row : List (List α)} (hrow : row ≠ []) {position : Position}
    (hposition : position = .startRecord ∨ position = .startField) (fields : List (List α))
    (records : List (List (List α))) :
    (recordText alphabet row ++ [alphabet.cr, alphabet.lf]).foldlM (Reader.read alphabet)
        ⟨position, [], fields, records⟩
      = some ⟨.startRecord, [], [], records ++ [fields ++ row]⟩ := by
  induction row generalizing position fields with
  | nil => exact absurd rfl hrow
  | cons value row ih =>
    by_cases hlast : row = []
    · subst hlast
      -- The last field ends with the line.
      have hsingle : recordText alphabet [value] = quotedField alphabet value := by
        simp [recordText]
      rw [hsingle, List.foldlM_append, read_quotedField hposition]
      simp [Reader.read, Reader.separate, Reader.endField, Reader.endRecord,
        alphabet.cr_ne_quote, alphabet.cr_ne_comma]
    · -- Any other field ends with a comma.
      have hcomma : Reader.read alphabet ⟨.quoteSeen, value, fields, records⟩ alphabet.comma
          = some ⟨.startField, [], fields ++ [value], records⟩ := by
        simp [Reader.read, Reader.separate, Reader.endField, alphabet.comma_ne_quote]
      have hrest := ih hlast (Or.inr rfl) (fields ++ [value])
      rw [List.append_assoc, List.singleton_append] at hrest
      rw [recordText_cons value hlast, List.append_assoc, List.foldlM_append,
        read_quotedField hposition, List.cons_append]
      show (alphabet.comma :: (recordText alphabet row ++ _)).foldlM (Reader.read alphabet)
        ⟨.quoteSeen, value, fields, records⟩ = _
      rw [List.foldlM_cons, hcomma]
      exact hrest

/-- All lines are read as their records. -/
theorem read_document {rows : List (List (List α))} (hrows : ∀ row ∈ rows, row ≠ [])
    (records : List (List (List α))) :
    (document alphabet rows).foldlM (Reader.read alphabet) ⟨.startRecord, [], [], records⟩
      = some ⟨.startRecord, [], [], records ++ rows⟩ := by
  induction rows generalizing records with
  | nil => simp [document]
  | cons row rows ih =>
    have hrest := ih (fun later hlater => hrows later (List.mem_cons_of_mem _ hlater))
      (records ++ [row])
    rw [List.append_assoc, List.singleton_append] at hrest
    rw [document, List.flatMap_cons, List.foldlM_append,
      read_recordText (hrows row (by simp)) (Or.inl rfl), List.nil_append]
    exact hrest

/-- **What is written with quoted fields is read back.** -/
theorem parse_document {rows : List (List (List α))} (hrows : ∀ row ∈ rows, row ≠ []) :
    parse alphabet (document alphabet rows) = some rows := by
  have hread := @read_document α _ alphabet rows hrows []
  rw [List.nil_append] at hread
  rw [parse]
  show ((document alphabet rows).foldlM (Reader.read alphabet) ⟨.startRecord, [], [], []⟩).bind
    Reader.finish = some rows
  rw [hread]
  rfl

/-- Lines that are joined and ended are the text of their records. -/
theorem document_eq_intercalate {rows : List (List (List α))} (hrows : rows ≠ []) :
    document alphabet rows
      = [alphabet.cr, alphabet.lf].intercalate (rows.map (recordText alphabet))
        ++ [alphabet.cr, alphabet.lf] := by
  induction rows with
  | nil => exact absurd rfl hrows
  | cons row rows ih =>
    cases rows with
    | nil => simp [document]
    | cons next rows =>
      have hrest := ih (by simp)
      rw [document, List.flatMap_cons]
      show recordText alphabet row ++ [alphabet.cr, alphabet.lf]
        ++ document alphabet (next :: rows) = _
      rw [hrest]
      simp

end Mocop.CsvGrammar
