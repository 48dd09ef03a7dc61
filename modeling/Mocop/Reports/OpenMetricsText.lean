import Mocop.Reports.OpenMetrics

/-!
# `Mocop.Reports.OpenMetricsText`: the exposition text is read back

Every line that `familyLines` writes is a comment or a sample line that `readSample` reads back:
the name, the labels with normalised line ends, and the number that its text denotes
(`readSamples_familyLines`). The escape of labels is the escape of the format after the line ends
are normalised (`escapeLabel_eq`), in whatever order the escaped characters come.

The `# TYPE` lines declare the families that have samples (`declaredNames_familyLines`).
-/

set_option autoImplicit false

namespace Mocop.OpenMetrics

open Exposition (normalizeNewlines escape readSample readSamples isName isNameChar declares)

/-! ### Labels -/

/-- The labels with their line ends normalised. -/
def normalized (labels : Labels) : Labels :=
  labels.map fun (name, value) => (name, String.ofList (normalizeNewlines value.toList))

/-- Replacing `\r\n` and then `\r` normalises the line ends. -/
theorem replaceChar_replaceCrLf (text : List Char) :
    replaceChar '\r' ['\n'] (replaceCrLf text) = normalizeNewlines text := by
  induction text using replaceCrLf.induct with
  | case1 text ih =>
    rw [replaceCrLf, normalizeNewlines, ← ih]
    rfl
  | case2 c text hpair ih =>
    have hkept : replaceCrLf (c :: text) = c :: replaceCrLf text := by
      rw [replaceCrLf]
      exact hpair
    rw [hkept]
    by_cases hreturn : c = '\r'
    · subst hreturn
      have halone : ∀ rest, text ≠ '\n' :: rest := fun rest heq => hpair rest rfl heq
      rw [Exposition.normalizeNewlines_return halone, ← ih]
      rfl
    · rw [Exposition.normalizeNewlines_cons hreturn, ← ih]
      simp [replaceChar, hreturn]
  | case3 => rfl

/-- The three escapes, one after the other, escape each character once: the backslashes come
first, so that those of the other escapes are not escaped again. -/
theorem replaceChar_escapes (text : List Char) :
    replaceChar '"' ['\\', '"'] (replaceChar '\n' ['\\', 'n'] (replaceChar '\\' ['\\', '\\'] text))
      = escape text := by
  simp only [replaceChar, escape, List.flatMap_assoc]
  congr 1
  funext c
  by_cases hbackslash : c = '\\'
  · subst hbackslash
    rfl
  by_cases hnewline : c = '\n'
  · subst hnewline
    rfl
  by_cases hquote : c = '"'
  · subst hquote
    rfl
  · simp [Exposition.escapeChar, hbackslash, hnewline, hquote]

/-- A label value is the escape of its normalised text. -/
theorem escapeLabel_eq (value : String) :
    (escapeLabel value).toList = escape (normalizeNewlines value.toList) := by
  rw [escapeLabel, String.toList_ofList, replaceChar_escapes, replaceChar_replaceCrLf]

/-- A label set is written as the format writes the normalised labels. -/
theorem labelSet_eq (labels : Labels) :
    (labelSet labels).toList = Exposition.labelSetText (normalized labels) := by
  cases labels with
  | nil => rfl
  | cons label later =>
    have hlabel : ∀ l : String × String,
        (l.1 ++ "=\"" ++ escapeLabel l.2 ++ "\"").toList
          = Exposition.labelText
            (l.1, String.ofList (normalizeNewlines l.2.toList)) := by
      intro l
      simp [Exposition.labelText, escapeLabel_eq, String.toList_append]
    have hmap : ((label :: later).map fun (name, value) =>
          name ++ "=\"" ++ escapeLabel value ++ "\"").map String.toList
        = (normalized (label :: later)).map Exposition.labelText := by
      simp only [normalized, List.map_map]
      exact List.map_congr_left fun l _ => hlabel l
    have hset : labelSet (label :: later) = "\x7b" ++ String.intercalate ","
        ((label :: later).map fun (name, value) => name ++ "=\"" ++ escapeLabel value ++ "\"")
          ++ "\x7d" := rfl
    rw [hset, String.toList_append, String.toList_append, String.toList_intercalate, hmap,
      List.append_assoc]
    rfl

/-! ### Numbers -/

/-- A number rounded to 15 significant digits. -/
def rounded15 (value : ℚ) : ℚ :=
  (if value < 0 then -1 else 1) * ((significant value : ℚ) * (10 : ℚ) ^ lastDigit value)

/-- The number that the text of a number in double precision denotes. -/
def floatShown : Float64 → ℚ
  | .finite double => if double.value.isInt then double.value else rounded15 double.value
  | _ => 0

/-- The number that the text of a sample denotes. -/
def shown : PyNumber → ℚ
  | .bool value => if value then 1 else 0
  | .int value => floatShown (Float64.ofRat value)
  | .float value => floatShown value

/-- Whether a number is written: it is finite in double precision. -/
def Shows : PyNumber → Prop
  | .bool _ => True
  | .int value => (Float64.ofRat value).isFinite = true
  | .float value => value.isFinite = true

/-- Whether a text is one line that reads as a number. -/
def Reads (text : List Char) (value : ℚ) : Prop :=
  readNumber text = some value ∧ '\n' ∉ text

/-- No line end stands in a numeral. -/
theorem newline_not_mem_text (n : Numeral) : '\n' ∉ n.text := by
  intro hmem
  rcases n.text_chars _ hmem with hdigit | hother
  · exact absurd hdigit (by decide)
  · exact absurd hother (by decide)

/-- A numeral with the sign of a number. -/
theorem reads_signed (n : Numeral) (negative : Prop) [Decidable negative] :
    Reads (if negative then '-' :: n.text else n.text)
      ((if negative then -1 else 1) * n.value) := by
  have hline := newline_not_mem_text n
  split_ifs
  · exact ⟨by rw [n.readNumber_neg]; simp, by simpa using hline⟩
  · exact ⟨by rw [n.readNumber_text]; simp, hline⟩

private theorem toDigits_ten_ne_nil (n : ℕ) : Nat.toDigits 10 n ≠ [] := Nat.toDigits_ne_nil

private theorem isDigit_toDigits_ten (n : ℕ) : ∀ c ∈ Nat.toDigits 10 n, c.isDigit = true :=
  fun _ hc => Nat.isDigit_of_mem_toDigits (by omega) (by omega) hc

private theorem isDigit_nil : ∀ c ∈ ([] : List Char), c.isDigit = true := by simp

/-- The numeral of a natural number. -/
def natNumeral (n : ℕ) : Numeral where
  whole := Nat.toDigits 10 n
  fraction := []
  exponent := none
  whole_ne := toDigits_ten_ne_nil n
  whole_digits := isDigit_toDigits_ten n
  fraction_digits := isDigit_nil

/-- The text of an integer denotes it. -/
theorem reads_intText (value : ℤ) : Reads (intText value) value := by
  have htext : (natNumeral value.natAbs).text = Nat.toDigits 10 value.natAbs := by
    simp [natNumeral, Numeral.text, Numeral.fractionText, Numeral.exponentText]
  have hvalue : (natNumeral value.natAbs).value = (value.natAbs : ℚ) := by
    simp [natNumeral, Numeral.value]
  have hsigned := reads_signed (natNumeral value.natAbs) (value < 0)
  have habs : (if value < 0 then -1 else 1) * (natNumeral value.natAbs).value = (value : ℚ) := by
    rw [hvalue, Nat.cast_natAbs]
    split_ifs with hneg
    · rw [abs_of_neg hneg]
      simp
    · rw [abs_of_nonneg (by omega)]
      simp
  rw [habs, htext] at hsigned
  exact hsigned

/-- The text of zero. -/
theorem reads_zero : Reads ['0'] 0 := by
  have hreads := reads_intText 0
  rwa [Int.cast_zero] at hreads

/-- The text of one. -/
theorem reads_one : Reads ['1'] 1 := by
  have hreads := reads_intText 1
  rwa [Int.cast_one] at hreads

/-- A text of 15 significant digits denotes the rounded number. -/
theorem reads_format15g (value : ℚ) : Reads (format15g value) (rounded15 value) := by
  have hsigned :=
    reads_signed (Numeral.general 15 (significant value) (lastDigit value)) (value < 0)
  rw [Numeral.value_general] at hsigned
  exact hsigned

/-- A finite number is written, and its text denotes what is shown. -/
theorem floatText_reads {value : Float64} (hvalue : value.isFinite = true) :
    ∃ text, floatText value = .ok text ∧ Reads text (floatShown value) := by
  cases value with
  | finite double =>
    by_cases hzero : double.value = 0
    · have hshown : floatShown (.finite double) = 0 := by
        have hint : (0 : ℚ).isInt = true := rfl
        simp [floatShown, hzero, hint]
      exact ⟨['0'], by simp [floatText, hzero], hshown ▸ reads_zero⟩
    by_cases hint : double.value.isInt = true
    · have hnum : (double.value.num : ℚ) = double.value :=
        Rat.coe_int_num_of_den_eq_one (by simpa [Rat.isInt] using hint)
      refine ⟨intText double.value.num, by simp [floatText, hzero, hint], ?_⟩
      have hreads := reads_intText double.value.num
      rw [hnum] at hreads
      simpa [floatShown, hint] using hreads
    · refine ⟨format15g double.value, by simp [floatText, hzero, hint], ?_⟩
      simpa [floatShown, hint] using reads_format15g double.value
  | infinite negative => exact absurd hvalue (by simp [Float64.isFinite])
  | nan => exact absurd hvalue (by simp [Float64.isFinite])

/-- A number of a sample is written, and its text denotes what is shown. -/
theorem number_reads {value : PyNumber} (hvalue : Shows value) :
    ∃ text, number value = .ok text ∧ Reads text (shown value) := by
  cases value with
  | bool value =>
    cases value with
    | false => exact ⟨['0'], rfl, reads_zero⟩
    | true => exact ⟨['1'], rfl, reads_one⟩
  | int value =>
    have hfinite : (Float64.ofRat value).isFinite = true := hvalue
    obtain ⟨text, htext, hreads⟩ := floatText_reads hfinite
    have hfloat : toFloat value = .ok (Float64.ofRat value) := by simp [toFloat, hfinite]
    refine ⟨text, ?_, hreads⟩
    show (toFloat value >>= floatText) = .ok text
    rw [hfloat]
    exact htext
  | float value => exact floatText_reads hvalue

/-! ### Lines -/

/-- A sample as a reader finds it. -/
def readBack (name : String) (sample : Sample) : Exposition.Sample :=
  ⟨name, normalized sample.labels, shown sample.value⟩

/-- The samples of a family as a reader finds them. -/
def Family.readBack (family : Family) : List Exposition.Sample :=
  family.samples.map (OpenMetrics.readBack family.heading.sampleName)

/-- Whether the names of some labels are names. -/
def Named (labels : Labels) : Prop := ∀ label ∈ labels, isName label.1.toList = true

/-- Normalised labels keep their names. -/
theorem Named.normalized {labels : Labels} (h : Named labels) : Named (normalized labels) := by
  intro label hlabel
  obtain ⟨original, horiginal, rfl⟩ := List.mem_map.mp hlabel
  exact h original horiginal

/-- A heading whose texts stand on one line and whose names are names. -/
structure Heading.WellFormed (heading : Heading) : Prop where
  name : isName heading.name.toList = true
  sampleName : isName heading.sampleName.toList = true
  lines : ∀ line ∈ heading.lines, '\n' ∉ line.toList

/-- A family that can be written: named labels and finite numbers under a well-formed heading. -/
structure Family.WellFormed (family : Family) : Prop where
  heading : family.heading.WellFormed
  labels : ∀ sample ∈ family.samples, Named sample.labels
  values : ∀ sample ∈ family.samples, Shows sample.value

/-- A sample is written on one line that reads as the sample. -/
theorem sampleLine_reads {name : String} {sample : Sample} (hname : isName name.toList = true)
    (hlabels : Named sample.labels) (hvalue : Shows sample.value) :
    ∃ line, sampleLine name sample = .ok line
      ∧ readSample line.toList = some (readBack name sample)
      ∧ Exposition.isComment line.toList = false ∧ '\n' ∉ line.toList := by
  obtain ⟨text, htext, hreads, hline⟩ := number_reads hvalue
  have hnames := hlabels.normalized
  have hsample : (name ++ labelSet sample.labels ++ " " ++ String.ofList text).toList
      = Exposition.sampleText name (normalized sample.labels) text := by
    simp [Exposition.sampleText, labelSet_eq, String.toList_append]
  refine ⟨name ++ labelSet sample.labels ++ " " ++ String.ofList text, ?_, ?_, ?_, ?_⟩
  · rw [sampleLine, htext]
    rfl
  · rw [hsample]
    exact Exposition.readSample_text name _ hname hnames hreads
  · rw [hsample]
    exact Exposition.isComment_sampleText name _ text hname
  · rw [hsample]
    exact Exposition.newline_not_mem_sampleText name _ hname hnames hline

/-- The samples of a family are written one by one. -/
theorem sampleLines_read {name : String} (samples : List Sample)
    (hname : isName name.toList = true) (hlabels : ∀ sample ∈ samples, Named sample.labels)
    (hvalues : ∀ sample ∈ samples, Shows sample.value) :
    ∃ lines, samples.mapM (sampleLine name) = .ok lines
      ∧ List.Forall₂ (fun line sample => readSample line.toList = some (readBack name sample))
          lines samples
      ∧ ∀ line ∈ lines, Exposition.isComment line.toList = false ∧ '\n' ∉ line.toList := by
  induction samples with
  | nil => exact ⟨[], rfl, .nil, by simp⟩
  | cons sample samples ih =>
    obtain ⟨line, hline, hread, hshape⟩ :=
      sampleLine_reads hname (hlabels sample (by simp)) (hvalues sample (by simp))
    obtain ⟨lines, hlines, hreads, hshapes⟩ := ih
      (fun s hs => hlabels s (List.mem_cons_of_mem _ hs))
      (fun s hs => hvalues s (List.mem_cons_of_mem _ hs))
    refine ⟨line :: lines, ?_, .cons hread hreads, ?_⟩
    · rw [List.mapM_cons, hline, hlines]
      rfl
    · simpa using ⟨hshape, hshapes⟩

/-- The lines of a family: comments, then a line for each sample. -/
theorem familyLines_read {family : Family} (h : family.WellFormed) :
    ∃ header lines, familyLines family = .ok (header ++ lines)
      ∧ header = (if family.samples.isEmpty then [] else family.heading.lines)
      ∧ List.Forall₂ (fun line sample => readSample line.toList = some sample)
          lines family.readBack
      ∧ ∀ line ∈ lines, Exposition.isComment line.toList = false ∧ '\n' ∉ line.toList := by
  obtain ⟨lines, hlines, hreads, hshapes⟩ :=
    sampleLines_read family.samples h.heading.sampleName h.labels h.values
  refine ⟨_, lines, ?_, rfl, ?_, hshapes⟩
  · cases hsamples : family.samples with
    | nil =>
      have hnil : lines = [] := by
        rw [hsamples] at hreads
        exact List.forall₂_nil_right_iff.mp hreads
      simp [familyLines, hsamples, hnil]
    | cons sample samples =>
      rw [hsamples] at hlines
      simp only [familyLines, hsamples, List.isEmpty_cons, hlines]
      rfl
  · exact List.forall₂_map_right_iff.mpr hreads

/-! ### The whole text -/

/-- Reading lines one by one. -/
theorem mapM_readSample {lines : List String} {samples : List Exposition.Sample}
    (h : List.Forall₂ (fun line sample => readSample line.toList = some sample) lines samples) :
    (lines.map String.toList).mapM readSample = some samples := by
  induction h with
  | nil => rfl
  | cons hline _ ih =>
    rw [List.map_cons, List.mapM_cons, hline, ih]
    rfl

/-- The header lines are comments. -/
theorem isComment_heading (heading : Heading) :
    ∀ line ∈ heading.lines, Exposition.isComment line.toList = true := by
  intro line hline
  simp only [Heading.lines, List.mem_append, List.mem_singleton, List.mem_map] at hline
  rcases hline with (rfl | ⟨unit, -, rfl⟩) | rfl
  · simp [Exposition.isComment, String.toList_append]
  · simp [Exposition.isComment, String.toList_append]
  · simp [Exposition.isComment, String.toList_append]

/-- A sample line declares nothing. -/
theorem declares_sample {line : List Char} (h : Exposition.isComment line = false) :
    declares line = none := by
  cases line with
  | nil => rfl
  | cons c chars =>
    have hne : c ≠ '#' := by simpa [Exposition.isComment] using h
    have hchar : ('#' == c) = false := by simpa using hne.symm
    simp [declares, List.isPrefixOf, hchar]

/-- The header of a family declares its name. -/
theorem declares_heading {heading : Heading} (h : isName heading.name.toList = true) :
    (heading.lines.map String.toList).filterMap declares = [heading.name.toList] := by
  have htype : declares ("# TYPE " ++ heading.name ++ " " ++ heading.metricType).toList
      = some heading.name.toList := by
    have hchars := Exposition.isNameChar_of_isName h
    have htake : (heading.name.toList ++ ' ' :: heading.metricType.toList).takeWhile isNameChar
        = heading.name.toList := by
      rw [List.takeWhile_append_of_pos hchars]
      simp [isNameChar]
    simp [declares, String.toList_append, List.isPrefixOf, htake]
  have hunit : ∀ unit : String,
      declares ("# UNIT " ++ heading.name ++ " " ++ unit).toList = none := by
    intro unit
    simp [declares, String.toList_append, List.isPrefixOf]
  have hhelp : declares ("# HELP " ++ heading.name ++ " " ++ heading.help).toList = none := by
    simp [declares, String.toList_append, List.isPrefixOf]
  cases hheading : heading.unit with
  | none => simp [Heading.lines, hheading, htype, hhelp, -String.toList_append]
  | some unit => simp [Heading.lines, hheading, htype, hunit, hhelp, -String.toList_append]

/-- What a reader finds in the lines of a family. -/
theorem exists_familyLines {family : Family} (h : family.WellFormed) :
    ∃ lines, familyLines family = .ok lines
      ∧ ((lines.map String.toList).filter fun line => !Exposition.isComment line).mapM readSample
        = some family.readBack
      ∧ (lines.map String.toList).filterMap declares
        = (if family.samples.isEmpty then [] else [family.heading.name.toList])
      ∧ ∀ line ∈ lines, '\n' ∉ line.toList := by
  obtain ⟨header, lines, hlines, hheader, hreads, hshapes⟩ := familyLines_read h
  have hcomments : ∀ line ∈ header, Exposition.isComment line.toList = true := by
    intro line hline
    rw [hheader] at hline
    split_ifs at hline
    · simp at hline
    · exact isComment_heading family.heading line hline
  refine ⟨header ++ lines, hlines, ?_, ?_, ?_⟩
  · -- The comments are skipped, and each other line is a sample.
    have hskip :
        (header.map String.toList).filter (fun line => !Exposition.isComment line) = [] := by
      simpa [List.filter_eq_nil_iff] using hcomments
    have hkeep : (lines.map String.toList).filter (fun line => !Exposition.isComment line)
        = lines.map String.toList := by
      simpa [List.filter_eq_self] using fun line hline => (hshapes line hline).1
    rw [List.map_append, List.filter_append, hskip, hkeep, List.nil_append]
    exact mapM_readSample hreads
  · have hnone : (lines.map String.toList).filterMap declares = [] := by
      simp only [List.filterMap_eq_nil_iff, List.forall_mem_map]
      exact fun line hline => declares_sample (hshapes line hline).1
    rw [List.map_append, List.filterMap_append, hnone, List.append_nil, hheader]
    split_ifs
    · rfl
    · exact declares_heading h.heading.name
  · intro line hline
    rcases List.mem_append.mp hline with hmem | hmem
    · rw [hheader] at hmem
      split_ifs at hmem
      · simp at hmem
      · exact h.heading.lines line hmem
    · exact (hshapes line hmem).2

/-- The text of some lines and of the end mark. -/
def textOf (lines : List String) : String :=
  String.intercalate "\n" (lines ++ ["# EOF"]) ++ "\n"

/-- The lines of a text. -/
theorem splitOn_textOf {lines : List String} (h : ∀ line ∈ lines, '\n' ∉ line.toList) :
    (textOf lines).toList.splitOn '\n' = lines.map String.toList ++ ["# EOF".toList, []] := by
  have htext : (textOf lines).toList
      = ['\n'].intercalate ((lines ++ ["# EOF"]).map String.toList) ++ ['\n'] := by
    rw [textOf, String.toList_append, String.toList_intercalate]
    rfl
  rw [htext, Exposition.splitOn_lines _ (by simp)]
  · simp
  · intro line hline
    obtain ⟨text, htext, rfl⟩ := List.mem_map.mp hline
    rcases List.mem_append.mp htext with hmem | hlast
    · exact h text hmem
    · rw [List.mem_singleton.mp hlast]
      decide

/-- What a reader finds in the lines of some families. -/
theorem exists_lines (families : List Family) (h : ∀ family ∈ families, family.WellFormed) :
    ∃ lines, families.mapM familyLines = .ok lines
      ∧ ((lines.flatten.map String.toList).filter fun line => !Exposition.isComment line).mapM
          readSample = some (families.flatMap Family.readBack)
      ∧ (lines.flatten.map String.toList).filterMap declares
        = (families.filter fun family => !family.samples.isEmpty).map
          (fun family => family.heading.name.toList)
      ∧ ∀ line ∈ lines.flatten, '\n' ∉ line.toList := by
  induction families with
  | nil => exact ⟨[], rfl, rfl, rfl, by simp⟩
  | cons family families ih =>
    obtain ⟨first, hfirst, hread, hdeclared, hshape⟩ := exists_familyLines (h family (by simp))
    obtain ⟨lines, hlines, hreads, hnames, hshapes⟩ :=
      ih fun f hf => h f (List.mem_cons_of_mem _ hf)
    refine ⟨first :: lines, ?_, ?_, ?_, ?_⟩
    · rw [List.mapM_cons, hfirst, hlines]
      rfl
    · rw [List.flatten_cons, List.map_append, List.filter_append, List.mapM_append, hread, hreads]
      simp
    · rw [List.flatten_cons, List.map_append, List.filterMap_append, hdeclared, hnames]
      cases hsamples : family.samples.isEmpty with
      | true => simp [hsamples]
      | false => simp [hsamples]
    · intro line hline
      rcases List.mem_append.mp (List.flatten_cons ▸ hline) with hmem | hmem
      · exact hshape line hmem
      · exact hshapes line hmem

/-- A reader finds the samples of well-formed families in their text, and the families that have
samples declared. -/
theorem exists_text (families : List Family) (h : ∀ family ∈ families, family.WellFormed) :
    ∃ lines, families.mapM familyLines = .ok lines
      ∧ readSamples (textOf lines.flatten).toList = some (families.flatMap Family.readBack)
      ∧ Exposition.declaredNames (textOf lines.flatten).toList
        = (families.filter fun family => !family.samples.isEmpty).map
          fun family => family.heading.name.toList := by
  obtain ⟨lines, hlines, hreads, hnames, hshapes⟩ := exists_lines families h
  have hend : ["# EOF".toList].filter (fun line => !Exposition.isComment line) = [] := by decide
  have hnone : ["# EOF".toList, []].filterMap declares = [] := by decide
  refine ⟨lines, hlines, ?_, ?_⟩
  · have hlast : (lines.flatten.map String.toList ++ ["# EOF".toList, []]).dropLast
        = lines.flatten.map String.toList ++ ["# EOF".toList] := by
      rw [List.dropLast_append_of_ne_nil (by simp)]
      rfl
    rw [readSamples, splitOn_textOf hshapes, hlast, List.filter_append, hend, List.append_nil]
    exact hreads
  · rw [Exposition.declaredNames, splitOn_textOf hshapes, List.filterMap_append, hnames, hnone,
      List.append_nil]

end Mocop.OpenMetrics
