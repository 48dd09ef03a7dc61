import Mocop.Lib.Decimals

/-!
# `Mocop.Lib.Exposition`: the text of labelled samples

A text exposition is a list of lines. A line that starts with `#` is a comment; any other one is
a sample `name{label="value",label="value"} number`. `readSample` reads a sample line and
`readSamples` a whole text, and both read back what `sampleText` writes.

A value stands between quotes with its backslashes, quotes and line ends escaped. `readLabels` is
the automaton over these characters: the phase says where in a label set the reader is, and one
escaped value takes it from the opening quote to the closing one (`readLabels_escape`).
-/

set_option autoImplicit false

namespace Mocop

namespace Exposition

/-! ### Escaped values -/

/-- A text whose line ends `\r\n` and `\r` are replaced by `\n`. -/
def normalizeNewlines : List Char → List Char
  | '\r' :: '\n' :: text => '\n' :: normalizeNewlines text
  | '\r' :: text => '\n' :: normalizeNewlines text
  | c :: text => c :: normalizeNewlines text
  | [] => []

/-- A character that starts no line end stays. -/
theorem normalizeNewlines_cons {c : Char} (hc : c ≠ '\r') (text : List Char) :
    normalizeNewlines (c :: text) = c :: normalizeNewlines text := by
  rw [normalizeNewlines]
  · exact fun _ heq => absurd heq hc
  · exact hc

/-- A carriage return alone is a line end. -/
theorem normalizeNewlines_return {text : List Char} (htext : ∀ rest, text ≠ '\n' :: rest) :
    normalizeNewlines ('\r' :: text) = '\n' :: normalizeNewlines text := by
  rw [normalizeNewlines]
  exact htext

/-- The escape of one character. -/
def escapeChar (c : Char) : List Char :=
  if c = '\\' then ['\\', '\\'] else if c = '\n' then ['\\', 'n']
  else if c = '"' then ['\\', '"'] else [c]

/-- The escape of a text. -/
def escape (text : List Char) : List Char := text.flatMap escapeChar

/-! ### Samples -/

/-- A sample: a name, labels with their values, and a number. -/
structure Sample where
  name : String
  labels : List (String × String)
  number : ℚ
  deriving DecidableEq

/-- The text of a label. -/
def labelText (label : String × String) : List Char :=
  label.1.toList ++ '=' :: '"' :: (escape label.2.toList ++ ['"'])

/-- The text of a label set, nothing for no labels. -/
def labelSetText : List (String × String) → List Char
  | [] => []
  | labels => '{' :: ([','].intercalate (labels.map labelText) ++ ['}'])

/-- The text of a sample whose number is written as `number`. -/
def sampleText (name : String) (labels : List (String × String)) (number : List Char) :
    List Char :=
  name.toList ++ (labelSetText labels ++ ' ' :: number)

/-! ### Reading -/

/-- Whether a character may stand in a name. -/
def isNameChar (c : Char) : Bool := c.isAlphanum || c == '_' || c == ':'

/-- Whether a text is a name. -/
def isName (text : List Char) : Bool :=
  text != [] && text.all isNameChar && !text.head?.any Char.isDigit

/-- Where in a label set a reader is. -/
inductive Phase where
  /-- in a name, or in front of one -/
  | name (name : List Char)
  /-- behind the equality sign -/
  | equals (name : List Char)
  /-- between the quotes -/
  | value (name value : List Char)
  /-- behind a backslash -/
  | escaped (name value : List Char)
  /-- behind the closing quote -/
  | closed

/-- The labels up to the closing brace, and the text after it. -/
def readLabels : Phase → List (String × String) → List Char →
    Option (List (String × String) × List Char)
  | .name name, labels, c :: text =>
    if c = '=' then (if isName name then readLabels (.equals name) labels text else none)
    else if isNameChar c then readLabels (.name (name ++ [c])) labels text else none
  | .equals name, labels, c :: text =>
    if c = '"' then readLabels (.value name []) labels text else none
  | .value name value, labels, c :: text =>
    if c = '"' then
      readLabels .closed (labels ++ [(String.ofList name, String.ofList value)]) text
    else if c = '\\' then readLabels (.escaped name value) labels text
    else if c = '\n' then none
    else readLabels (.value name (value ++ [c])) labels text
  | .escaped name value, labels, c :: text =>
    if c = '\\' then readLabels (.value name (value ++ ['\\'])) labels text
    else if c = 'n' then readLabels (.value name (value ++ ['\n'])) labels text
    else if c = '"' then readLabels (.value name (value ++ ['"'])) labels text
    else none
  | .closed, labels, c :: text =>
    if c = ',' then readLabels (.name []) labels text
    else if c = '}' then some (labels, text) else none
  | _, _, [] => none

/-- A label set, empty where no brace opens one. -/
def readLabelSet : List Char → Option (List (String × String) × List Char)
  | '{' :: text => readLabels (.name []) [] text
  | text => some ([], text)

/-- A sample line. -/
def readSample (line : List Char) : Option Sample := do
  let name := line.takeWhile isNameChar
  if !isName name then none
  let (labels, rest) ← readLabelSet (line.dropWhile isNameChar)
  match rest with
  | ' ' :: number => return ⟨String.ofList name, labels, ← readNumber number⟩
  | _ => none

/-- Whether a line is a comment. -/
def isComment (line : List Char) : Bool := line.head? == some '#'

/-- The samples of a text whose lines end with `\n`. -/
def readSamples (text : List Char) : Option (List Sample) :=
  (((text.splitOn '\n').dropLast).filter fun line => !isComment line).mapM readSample

/-- The name that a line declares, if it is a `# TYPE` line. -/
def declares (line : List Char) : Option (List Char) :=
  if "# TYPE ".toList.isPrefixOf line then some ((line.drop 7).takeWhile isNameChar) else none

/-- The names that the `# TYPE` lines of a text declare. -/
def declaredNames (text : List Char) : List (List Char) := (text.splitOn '\n').filterMap declares

/-! ### A written sample is read back -/

/-- The characters of a name. -/
theorem isNameChar_of_isName {name : List Char} (hname : isName name = true) :
    ∀ c ∈ name, isNameChar c = true := by
  simp only [isName, Bool.and_eq_true, List.all_eq_true] at hname
  exact hname.1.2

/-- No name is empty. -/
theorem ne_nil_of_isName {name : List Char} (hname : isName name = true) : name ≠ [] := by
  rintro rfl
  exact absurd hname (by decide)

/-- An escaped value is read up to its closing quote. -/
theorem readLabels_escape (name : List Char) (labels : List (String × String))
    (text rest : List Char) : ∀ value : List Char,
    readLabels (.value name value) labels (escape text ++ '"' :: rest)
      = readLabels .closed
          (labels ++ [(String.ofList name, String.ofList (value ++ text))]) rest := by
  induction text with
  | nil => intro value; simp [escape, readLabels]
  | cons c text ih =>
    intro value
    have hvalue : value ++ c :: text = (value ++ [c]) ++ text := by simp
    rw [hvalue, ← ih (value ++ [c])]
    show readLabels _ _ ((escapeChar c ++ escape text) ++ '"' :: rest) = _
    rw [List.append_assoc]
    by_cases hbackslash : c = '\\'
    · subst hbackslash; simp [escapeChar, readLabels]
    by_cases hnewline : c = '\n'
    · subst hnewline; simp [escapeChar, readLabels]
    by_cases hquote : c = '"'
    · subst hquote; simp [escapeChar, readLabels]
    · simp [escapeChar, readLabels, hbackslash, hnewline, hquote]

/-- A name is read up to the equality sign. -/
theorem readLabels_name (labels : List (String × String)) (name rest : List Char) :
    ∀ prior : List Char, isName (prior ++ name) = true →
    readLabels (.name prior) labels (name ++ '=' :: rest)
      = readLabels (.equals (prior ++ name)) labels rest := by
  induction name with
  | nil =>
    intro prior hname
    rw [List.append_nil] at hname
    simp [readLabels, hname]
  | cons c name ih =>
    intro prior hname
    have hc : isNameChar c = true := isNameChar_of_isName hname c (by simp)
    have hne : c ≠ '=' := by
      rintro rfl
      exact absurd hc (by decide)
    have hsplit : prior ++ c :: name = (prior ++ [c]) ++ name := by simp
    rw [hsplit] at hname ⊢
    rw [← ih (prior ++ [c]) hname]
    simp [readLabels, hne, hc]

/-- A label is read up to its closing quote. -/
theorem readLabels_label (labels : List (String × String)) (label : String × String)
    (rest : List Char) (hname : isName label.1.toList = true) :
    readLabels (.name []) labels (labelText label ++ rest)
      = readLabels .closed (labels ++ [label]) rest := by
  have htext : labelText label ++ rest
      = label.1.toList ++ '=' :: '"' :: (escape label.2.toList ++ '"' :: rest) := by
    simp [labelText]
  rw [htext, readLabels_name labels _ _ [] (by simpa using hname)]
  simp [readLabels, readLabels_escape]

/-- A label set is read up to its closing brace. -/
theorem readLabels_labels (rest : List Char) (later : List (String × String)) :
    ∀ (label : String × String) (labels : List (String × String)),
    (∀ l ∈ label :: later, isName l.1.toList = true) →
    readLabels (.name []) labels
        ([','].intercalate ((label :: later).map labelText) ++ '}' :: rest)
      = some (labels ++ label :: later, rest) := by
  induction later with
  | nil =>
    intro label labels hnames
    have hlabel := readLabels_label labels label ('}' :: rest) (hnames label (by simp))
    simpa [List.intercalate, readLabels] using hlabel
  | cons next later ih =>
    intro label labels hnames
    -- The first label, a comma, and the others.
    have htext : [','].intercalate ((label :: next :: later).map labelText) ++ '}' :: rest
        = labelText label
          ++ ',' :: ([','].intercalate ((next :: later).map labelText) ++ '}' :: rest) := by
      simp [List.intercalate]
    rw [htext, readLabels_label labels label _ (hnames label (by simp))]
    have hlater := ih next (labels ++ [label]) (fun l hl => hnames l (by simp [hl]))
    simpa [readLabels] using hlater

/-- A label set is read back, with what follows it. -/
theorem readLabelSet_text (labels : List (String × String)) (number : List Char)
    (hnames : ∀ l ∈ labels, isName l.1.toList = true) :
    readLabelSet (labelSetText labels ++ ' ' :: number) = some (labels, ' ' :: number) := by
  cases labels with
  | nil => rfl
  | cons label later =>
    have hlabels := readLabels_labels (' ' :: number) later label [] hnames
    simpa [labelSetText, readLabelSet] using hlabels

/-- No name character starts what follows the name of a sample. -/
theorem takeWhile_labelSetText (labels : List (String × String)) (number : List Char) :
    (labelSetText labels ++ ' ' :: number).takeWhile isNameChar = [] := by
  cases labels with
  | nil => rfl
  | cons label later => rfl

/-- A sample is read back from its line. -/
theorem readSample_text (name : String) (labels : List (String × String)) {number : List Char}
    {value : ℚ} (hname : isName name.toList = true)
    (hnames : ∀ l ∈ labels, isName l.1.toList = true) (hnumber : readNumber number = some value) :
    readSample (sampleText name labels number) = some ⟨name, labels, value⟩ := by
  have hchars := isNameChar_of_isName hname
  have hrest := takeWhile_labelSetText labels number
  have htake : (sampleText name labels number).takeWhile isNameChar = name.toList := by
    rw [sampleText, List.takeWhile_append_of_pos hchars, hrest, List.append_nil]
  have hdrop : (sampleText name labels number).dropWhile isNameChar
      = labelSetText labels ++ ' ' :: number := by
    rw [sampleText, List.dropWhile_append_of_pos hchars]
    simpa [hrest] using List.takeWhile_append_dropWhile (p := isNameChar)
      (l := labelSetText labels ++ ' ' :: number)
  simp [readSample, htake, hdrop, hname, readLabelSet_text labels number hnames, hnumber]

/-- A sample is no comment. -/
theorem isComment_sampleText (name : String) (labels : List (String × String))
    (number : List Char) (hname : isName name.toList = true) :
    isComment (sampleText name labels number) = false := by
  cases hchars : name.toList with
  | nil => exact absurd hchars (ne_nil_of_isName hname)
  | cons c chars =>
    have hc : isNameChar c = true := isNameChar_of_isName hname c (by simp [hchars])
    have hne : c ≠ '#' := by
      rintro rfl
      exact absurd hc (by decide)
    simpa [isComment, sampleText, hchars] using hne

/-! ### One line for each sample -/

/-- No line end is left in an escaped text. -/
theorem newline_not_mem_escape (text : List Char) : '\n' ∉ escape text := by
  simp only [escape, List.mem_flatMap, not_exists, not_and]
  intro c _
  rw [escapeChar]
  split_ifs with hbackslash hnewline hquote
  · decide
  · decide
  · decide
  · simpa using fun h => hnewline h.symm

/-- No line end stands in a name. -/
theorem newline_not_mem_name {name : List Char} (hname : isName name = true) : '\n' ∉ name :=
  fun hmem => absurd (isNameChar_of_isName hname _ hmem) (by decide)

/-- A text with separators has the characters of its parts and of the separator. -/
theorem not_mem_intercalate {c : Char} (separator : List Char) {parts : List (List Char)}
    (hseparator : c ∉ separator) (hparts : ∀ part ∈ parts, c ∉ part) :
    c ∉ separator.intercalate parts := by
  induction parts with
  | nil => simp [List.intercalate]
  | cons part parts ih =>
    cases parts with
    | nil => simpa [List.intercalate] using hparts
    | cons next parts =>
      have hlater := ih fun p hp => hparts p (by simp [hp])
      have hpart := hparts part (by simp)
      simp only [List.intercalate, List.intersperse_cons_cons, List.flatten_cons, List.mem_append,
        not_or] at hlater ⊢
      exact ⟨hpart, hseparator, hlater⟩

/-- A sample takes one line. -/
theorem newline_not_mem_sampleText (name : String) (labels : List (String × String))
    {number : List Char} (hname : isName name.toList = true)
    (hnames : ∀ l ∈ labels, isName l.1.toList = true) (hnumber : '\n' ∉ number) :
    '\n' ∉ sampleText name labels number := by
  have hlabels : '\n' ∉ labelSetText labels := by
    cases labels with
    | nil => simp [labelSetText]
    | cons label later =>
      have hparts : ∀ part ∈ (label :: later).map labelText, '\n' ∉ part := by
        intro part hpart
        obtain ⟨l, hl, rfl⟩ := List.mem_map.mp hpart
        have hkey := newline_not_mem_name (hnames l hl)
        simpa [labelText, newline_not_mem_escape] using hkey
      have hinner := not_mem_intercalate [','] (by decide) hparts
      simpa [labelSetText] using hinner
  simpa [sampleText, newline_not_mem_name hname, hlabels] using hnumber

/-- The lines of a text. -/
theorem splitOn_lines {lines : List (List Char)} (hlines : ∀ line ∈ lines, '\n' ∉ line)
    (hne : lines ≠ []) :
    (['\n'].intercalate lines ++ ['\n']).splitOn '\n' = lines ++ [[]] := by
  have htext : ['\n'].intercalate lines ++ ['\n'] = ['\n'].intercalate (lines ++ [[]]) := by
    induction lines with
    | nil => exact absurd rfl hne
    | cons line lines ih =>
      cases lines with
      | nil => simp [List.intercalate]
      | cons next lines =>
        have hlater := ih (fun l hl => hlines l (by simp [hl])) (by simp)
        simpa [List.intercalate] using hlater
  rw [htext, List.splitOn_intercalate _ _ (by simp)]
  intro line hline
  rcases List.mem_append.mp hline with hmem | hlast
  · exact hlines line hmem
  · simp_all

end Exposition

end Mocop
