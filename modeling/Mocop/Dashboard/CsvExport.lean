import Mocop.Lib.CsvGrammar
import Mocop.Lib.JsValues

/-!
# `Mocop.Dashboard.CsvExport`: the table of the devices as comma-separated values

Every cell stands between quotation marks, with its own marks doubled. A cell that a spreadsheet
would take for a formula gets an apostrophe in front: one that begins with a sign of a formula,
after white space or control characters.

The table is read back as it was written, whatever the values contain (`parse_buildCsv`). Which
cells get the apostrophe is another matter. The class of skipped characters has the controls up
to U+001F only; the delete character and the controls after it end the search for a sign, and the
cell stays as it is. `safeExport_iff` says which tables are written as they should.
-/

set_option autoImplicit false

namespace Mocop.CsvExport

open JsText (ofString)

/-! ### Cells -/

/-- The byte order mark. -/
def byteOrderMark : UInt16 := 0xFEFF

/-- The apostrophe. -/
def apostrophe : UInt16 := 39

/-- The characters that stand for themselves in the grammar. -/
def alphabet : CsvGrammar.Alphabet UInt16 where
  quote := 34
  comma := 44
  cr := JsText.carriageReturn
  lf := JsText.lineFeed
  comma_ne_quote := by decide
  cr_ne_quote := by decide
  cr_ne_comma := by decide

/-- `[\s\u0000-\u001F]` -/
def isSkipped (c : UInt16) : Bool := JsText.isWhitespace c || c ≤ 0x1F

/-- `[=+\-@]` -/
def isSign (c : UInt16) : Bool := c == 61 || c == 43 || c == 45 || c == 64

/-- `/^[\s\u0000-\u001F]*[=+\-@]/.test(raw)`. No sign is skipped, so the match never goes back. -/
def startsFormula (raw : JsText) : Bool := (raw.dropWhile isSkipped).head?.any isSign

/-- The text of a value, before anything is done to it. -/
def rawText (value : JsScalar) : JsText := if value.isNullish then [] else value.text

/-- The text of a value that is no formula. -/
def safeText (raw : JsText) : JsText := if startsFormula raw then apostrophe :: raw else raw

/-- One cell. -/
def csvCell (value : JsScalar) : JsText :=
  alphabet.quote :: ((safeText (rawText value)).flatMap fun c =>
    if c = alphabet.quote then [alphabet.quote, alphabet.quote] else [c]) ++ [alphabet.quote]

/-! ### Records -/

/-- The system of a server. -/
structure SystemView where
  cpuUsagePct : JsScalar
  memoryUsedMib : JsScalar
  memoryTotalMib : JsScalar

/-- A server. What only the projections of the page read is left open. -/
structure ServerView (σ : Type) where
  host : JsScalar
  system : Option SystemView
  lastAttemptAt : JsScalar
  rest : σ

/-- A device. -/
structure GpuRecord (γ : Type) where
  index : JsScalar
  uuid : JsScalar
  name : JsScalar
  driverVersion : JsScalar
  pstate : JsScalar
  utilizationGpuPct : JsScalar
  memoryUsedMib : JsScalar
  memoryTotalMib : JsScalar
  temperatureC : JsScalar
  powerDrawW : JsScalar
  powerLimitW : JsScalar
  processesAvailable : JsScalar
  processesSampled : JsScalar
  processesObservedAt : JsScalar
  rest : γ

/-- A row of the table. -/
structure Record (σ γ : Type) where
  server : ServerView σ
  gpu : GpuRecord γ

/-- The processes of a device in numbers. -/
structure ProcessSummary where
  count : Float64
  knownMemoryCount : Float64
  knownMemoryMib : Float64

/-- The projections that the page hands over. -/
structure Projections (σ γ : Type) where
  ratio : JsScalar → JsScalar → Float64
  gpuProcessSummary : GpuRecord γ → ProcessSummary
  gpuState : GpuRecord γ → ServerView σ → List JsScalar

variable {σ γ : Type}

/-- `server.system?.[field]` -/
def ServerView.systemField (server : ServerView σ) (field : SystemView → JsScalar) : JsScalar :=
  server.system.elim .undefined field

/-- The columns with their labels. -/
def columns (projections : Projections σ γ) : List (JsText × (Record σ γ → JsScalar)) :=
  [ (ofString "主机", fun record => record.server.host),
    (ofString "GPU Index", fun record => record.gpu.index),
    (ofString "UUID", fun record => record.gpu.uuid),
    (ofString "型号", fun record => record.gpu.name),
    (ofString "驱动", fun record => record.gpu.driverVersion),
    (ofString "P-State", fun record => record.gpu.pstate),
    (ofString "GPU 利用率 %", fun record => record.gpu.utilizationGpuPct),
    (ofString "显存利用率 %", fun record =>
      .string ((projections.ratio record.gpu.memoryUsedMib record.gpu.memoryTotalMib).toFixed 2)),
    (ofString "显存已用 MiB", fun record => record.gpu.memoryUsedMib),
    (ofString "显存总量 MiB", fun record => record.gpu.memoryTotalMib),
    (ofString "温度 °C", fun record => record.gpu.temperatureC),
    (ofString "功耗 W", fun record => record.gpu.powerDrawW),
    (ofString "功耗上限 W", fun record => record.gpu.powerLimitW),
    (ofString "进程数", fun record =>
      if record.gpu.processesAvailable.isFalse then .null
      else .number (projections.gpuProcessSummary record.gpu).count),
    (ofString "进程已知分配显存 MiB", fun record =>
      let summary := projections.gpuProcessSummary record.gpu
      if record.gpu.processesAvailable.isFalse || !summary.knownMemoryCount.truthy then .null
      else .number summary.knownMemoryMib),
    (ofString "进程显存覆盖", fun record =>
      let summary := projections.gpuProcessSummary record.gpu
      if record.gpu.processesAvailable.isFalse then .null
      else
        .string (summary.knownMemoryCount.toJsText ++ ofString "/"
          ++ summary.count.toJsText)),
    (ofString "进程采样状态", fun record =>
      if record.gpu.processesAvailable.isFalse then .string (ofString "unavailable")
      else if record.gpu.processesSampled.isFalse then .string (ofString "cached")
      else .string (ofString "sampled")),
    (ofString "进程采样时间", fun record => record.gpu.processesObservedAt),
    (ofString "CPU 利用率 %", fun record => record.server.systemField (·.cpuUsagePct)),
    (ofString "系统内存利用率 %", fun record =>
      .string ((projections.ratio (record.server.systemField (·.memoryUsedMib))
        (record.server.systemField (·.memoryTotalMib))).toFixed 2)),
    (ofString "GPU 状态", fun record =>
      (projections.gpuState record.gpu record.server).headD .undefined),
    (ofString "采样时间", fun record => record.server.lastAttemptAt) ]

/-- `\r\n` -/
def lineEnd : JsText := [JsText.carriageReturn, JsText.lineFeed]

/-- `cells.join(",")` -/
def joinCells (cells : List JsText) : JsText := [alphabet.comma].intercalate cells

/-- The table. -/
def buildCsv (projections : Projections σ γ) (records : List (Record σ γ)) : JsText :=
  let lines :=
    joinCells ((columns projections).map fun column => csvCell (.string column.1)) ::
      records.map fun record =>
        joinCells ((columns projections).map fun column => csvCell (column.2 record))
  byteOrderMark :: (lineEnd.intercalate lines ++ lineEnd)

/-! ### Reading back -/

/-- The values of the table: the labels, then one row for each record. -/
def rawRows (projections : Projections σ γ) (records : List (Record σ γ)) :
    List (List JsText) :=
  ((columns projections).map fun column => column.1) ::
    records.map fun record => (columns projections).map fun column => rawText (column.2 record)

/-- A cell is the quoted field of its safe text. -/
theorem csvCell_eq (value : JsScalar) :
    csvCell value = CsvGrammar.quotedField alphabet (safeText (rawText value)) := by
  have hescaped : (fun c : UInt16 =>
        if c = alphabet.quote then [alphabet.quote, alphabet.quote] else [c])
      = fun c => if c = alphabet.quote then [c, c] else [c] := by
    funext c
    split <;> simp_all
  rw [csvCell, CsvGrammar.quotedField, CsvGrammar.escaped, hescaped]
  rfl

/-- The line of a record is the text of its safe values. -/
theorem joinCells_eq {ι : Type} (items : List ι) (value : ι → JsScalar) :
    joinCells (items.map fun item => csvCell (value item))
      = CsvGrammar.recordText alphabet
        ((items.map fun item => rawText (value item)).map safeText) := by
  rw [joinCells, CsvGrammar.recordText, List.map_map, List.map_map]
  exact congrArg _ (List.map_congr_left fun item _ => csvCell_eq (value item))

/-- No row of the table is empty. -/
theorem rawRows_ne_nil (projections : Projections σ γ) (records : List (Record σ γ)) :
    ∀ row ∈ (rawRows projections records).map (·.map safeText), row ≠ [] := by
  intro row hrow
  simp only [rawRows, List.map_cons, List.map_map, List.mem_cons, List.mem_map] at hrow
  rcases hrow with rfl | ⟨record, hrecord, rfl⟩
  · simp [columns]
  · simp [columns]

/-- The table is the byte order mark and the document of its safe values. -/
theorem buildCsv_eq (projections : Projections σ γ) (records : List (Record σ γ)) :
    buildCsv projections records
      = byteOrderMark :: CsvGrammar.document alphabet
        ((rawRows projections records).map (·.map safeText)) := by
  have hrows : (rawRows projections records).map (·.map safeText) ≠ [] := by simp [rawRows]
  rw [CsvGrammar.document_eq_intercalate hrows]
  show byteOrderMark :: (lineEnd.intercalate _ ++ lineEnd) = byteOrderMark :: (_ ++ lineEnd)
  have hheader := joinCells_eq (columns projections) fun column => .string column.1
  have hrecords := fun record : Record σ γ =>
    joinCells_eq (columns projections) fun column => column.2 record
  simp only [hheader, hrecords, rawRows, List.map_cons, List.map_map]
  rfl

/-- **The table is read back as its safe values.** -/
theorem parse_buildCsv (projections : Projections σ γ) (records : List (Record σ γ)) :
    CsvGrammar.parse alphabet (buildCsv projections records).tail
      = some ((rawRows projections records).map (·.map safeText)) := by
  rw [buildCsv_eq, List.tail_cons]
  exact CsvGrammar.parse_document (rawRows_ne_nil projections records)

/-! ### Formulas -/

/-- A control character: up to U+001F, or from the delete character to U+009F. -/
def isControl (c : UInt16) : Bool := c ≤ 0x1F || (0x7F ≤ c && c ≤ 0x9F)

/-- White space and control characters. -/
def isBlank (c : UInt16) : Bool := JsText.isWhitespace c || isControl c

/-- Whether a text begins with a sign of a formula, after white space and control characters. -/
def formulaLike (text : JsText) : Bool := (text.dropWhile isBlank).head?.any isSign

/-- What a cell should be. -/
def neutralised (raw : JsText) : JsText := if formulaLike raw then apostrophe :: raw else raw

/-- The delete character and the controls after it. -/
def isLateControl (c : UInt16) : Bool := 0x7F ≤ c && c ≤ 0x9F

/-- Whether the first character that is not skipped is a late control, and the text after it
begins with a sign of a formula. -/
def hidesSign (raw : JsText) : Bool :=
  match raw.dropWhile isSkipped with
  | [] => false
  | c :: rest => isLateControl c && formulaLike rest

/-- A table that is read back as it should: the labels and one row for each record, each with a
cell for every column, each cell with an apostrophe exactly when it would begin as a formula, and
no cell that begins as one. -/
def SafeExport (projections : Projections σ γ) (records : List (Record σ γ)) : Prop :=
  ∃ text rows, buildCsv projections records = byteOrderMark :: text
    ∧ CsvGrammar.parse alphabet text = some rows
    ∧ rows = (rawRows projections records).map (·.map neutralised)
    ∧ rows.length = records.length + 1
    ∧ (∀ row ∈ rows, row.length = (columns projections).length)
    ∧ ∀ row ∈ rows, ∀ cell ∈ row, formulaLike cell = false

/-- A blank is skipped, or a late control. -/
theorem isBlank_eq (c : UInt16) : isBlank c = (isSkipped c || isLateControl c) := by
  simp only [isBlank, isControl, isSkipped, isLateControl, Bool.or_assoc]

/-- No late control is a sign. -/
theorem isSign_of_isLateControl {c : UInt16} (h : isLateControl c = true) :
    isSign c = false := by
  simp only [isLateControl, Bool.and_eq_true, decide_eq_true_eq, UInt16.le_iff_toNat_le] at h
  simp only [isSign, Bool.or_eq_false_iff, beq_eq_false_iff_ne, ne_eq, ← UInt16.toNat_inj]
  simp only [UInt16.reduceToNat] at h ⊢
  omega

/-- A text begins as a formula when the test finds the sign, or when a late control hides it. -/
theorem formulaLike_eq (raw : JsText) : formulaLike raw = (startsFormula raw || hidesSign raw) := by
  -- The skipped characters are blank, so both searches go on behind them.
  have hskip : formulaLike raw = formulaLike (raw.dropWhile isSkipped) := by
    induction raw with
    | nil => rfl
    | cons c raw ih =>
      by_cases hc : isSkipped c = true
      · have hblank : isBlank c = true := by simp [isBlank_eq, hc]
        rw [List.dropWhile_cons_of_pos hc, ← ih, formulaLike,
          List.dropWhile_cons_of_pos hblank]
        rfl
      · rw [List.dropWhile_cons_of_neg hc]
  rw [hskip, startsFormula, hidesSign]
  cases hrest : raw.dropWhile isSkipped with
  | nil => rfl
  | cons c rest =>
    have hc : isSkipped c = false := by
      have hhead := List.head?_dropWhile_not isSkipped raw
      rw [hrest] at hhead
      simpa using hhead
    by_cases hlate : isLateControl c = true
    · have hblank : isBlank c = true := by simp [isBlank_eq, hlate]
      rw [formulaLike, List.dropWhile_cons_of_pos hblank]
      simp [hlate, isSign_of_isLateControl hlate, formulaLike]
    · have hblank : ¬isBlank c = true := by simp [isBlank_eq, hc, hlate]
      rw [formulaLike, List.dropWhile_cons_of_neg hblank]
      simp [hlate]

/-- No text begins as a formula and hides its sign. -/
theorem startsFormula_of_hidesSign {raw : JsText} (h : hidesSign raw = true) :
    startsFormula raw = false := by
  rw [hidesSign] at h
  rw [startsFormula]
  cases hrest : raw.dropWhile isSkipped with
  | nil => rfl
  | cons c rest =>
    simp only [hrest, Bool.and_eq_true] at h
    exact isSign_of_isLateControl h.1

/-- A cell is what it should be exactly when no late control hides a sign. -/
theorem safeText_eq_iff (raw : JsText) :
    safeText raw = neutralised raw ↔ hidesSign raw = false := by
  rw [safeText, neutralised, formulaLike_eq]
  cases hhidden : hidesSign raw with
  | false => simp
  | true => simp [startsFormula_of_hidesSign hhidden]

/-- A cell as it should be does not begin as a formula. -/
theorem formulaLike_neutralised (raw : JsText) : formulaLike (neutralised raw) = false := by
  rw [neutralised]
  cases hraw : formulaLike raw with
  | false => simpa using hraw
  | true => simp [formulaLike, isBlank, JsText.isWhitespace, isControl, apostrophe,
      isSign]

/-- No label hides a sign. -/
theorem hidesSign_label (projections : Projections σ γ) :
    ∀ column ∈ columns projections, hidesSign column.1 = false := by
  have hlabels : ∀ label ∈ (columns projections).map (·.1), hidesSign label = false := by
    show ∀ label ∈ _, hidesSign label = false
    simp only [columns, List.map_cons, List.map_nil]
    decide +kernel
  exact fun column hcolumn => hlabels column.1 (List.mem_map_of_mem hcolumn)

/-- The rows are what they should be exactly when no value hides a sign. -/
theorem safeRows_iff (projections : Projections σ γ) (records : List (Record σ γ)) :
    (rawRows projections records).map (·.map safeText)
        = (rawRows projections records).map (·.map neutralised)
      ↔ ∀ record ∈ records, ∀ column ∈ columns projections,
        hidesSign (rawText (column.2 record)) = false := by
  rw [List.map_inj_left]
  simp only [List.map_inj_left, safeText_eq_iff]
  constructor
  · intro h record hrecord column hcolumn
    have hrow : (columns projections).map (fun column => rawText (column.2 record))
        ∈ rawRows projections records :=
      List.mem_cons_of_mem _ (List.mem_map_of_mem hrecord)
    exact h _ hrow _ (List.mem_map_of_mem hcolumn)
  · intro h row hrow raw hraw
    simp only [rawRows, List.mem_cons, List.mem_map] at hrow
    rcases hrow with rfl | ⟨record, hrecord, rfl⟩
    · -- The labels hide nothing.
      obtain ⟨column, hcolumn, rfl⟩ := List.mem_map.mp hraw
      exact hidesSign_label projections column hcolumn
    · obtain ⟨column, hcolumn, rfl⟩ := List.mem_map.mp hraw
      exact h record hrecord column hcolumn

/-- A table is read back as it should exactly when its rows are what they should be. -/
theorem safeExport_iff_rows (projections : Projections σ γ) (records : List (Record σ γ)) :
    SafeExport projections records
      ↔ (rawRows projections records).map (·.map safeText)
        = (rawRows projections records).map (·.map neutralised) := by
  have hparse := parse_buildCsv projections records
  constructor
  · rintro ⟨text, rows, htext, hrows, hexpected, -⟩
    rw [htext, List.tail_cons, hrows, Option.some_inj] at hparse
    rw [← hparse, hexpected]
  · intro hequal
    refine ⟨_, _, buildCsv_eq projections records, ?_, hequal, ?_, ?_, ?_⟩
    · rw [buildCsv_eq, List.tail_cons] at hparse
      exact hparse
    · simp [rawRows]
    · intro row hrow
      simp only [rawRows, List.map_cons, List.map_map, List.mem_cons, List.mem_map] at hrow
      rcases hrow with rfl | ⟨record, hrecord, rfl⟩
      · simp
      · simp
    · intro row hrow cell hcell
      rw [hequal] at hrow
      obtain ⟨raws, -, rfl⟩ := List.mem_map.mp hrow
      obtain ⟨raw, -, rfl⟩ := List.mem_map.mp hcell
      exact formulaLike_neutralised raw

/-- **When the table is read back as it should.** No value of a cell may begin, after white space
and the controls up to U+001F, with a later control behind which white space and controls lead to
a sign of a formula. -/
theorem safeExport_iff (projections : Projections σ γ) (records : List (Record σ γ)) :
    SafeExport projections records
      ↔ ∀ record ∈ records, ∀ column ∈ columns projections,
        hidesSign (rawText (column.2 record)) = false :=
  (safeExport_iff_rows projections records).trans (safeRows_iff projections records)

/-- A device whose name is a formula behind a delete character. -/
def hiddenFormula : Record Unit Unit where
  server :=
    { host := .string (ofString "gpu-01"), system := none, lastAttemptAt := .null
      rest := () }
  gpu :=
    { index := .number (Float64.ofRat 0), uuid := .string (ofString "GPU-1")
      name := .string [0x7F, 61, 49], driverVersion := .null, pstate := .null
      utilizationGpuPct := .null, memoryUsedMib := .null, memoryTotalMib := .null
      temperatureC := .null, powerDrawW := .null, powerLimitW := .null
      processesAvailable := .bool false, processesSampled := .bool true
      processesObservedAt := .null, rest := () }

/-- Projections of a page without data. -/
def idleProjections : Projections Unit Unit where
  ratio := fun _ _ => Float64.ofRat 0
  gpuProcessSummary := fun _ => ⟨Float64.ofRat 0, Float64.ofRat 0, Float64.ofRat 0⟩
  gpuState := fun _ _ => [.string (ofString "空闲"), .string (ofString "idle")]

/-- The name is written without an apostrophe, and the table is not what it should be. -/
theorem not_safeExport_hiddenFormula :
    formulaLike [0x7F, 61, 49] = true
      ∧ csvCell hiddenFormula.gpu.name = CsvGrammar.quotedField alphabet [0x7F, 61, 49]
      ∧ ¬SafeExport idleProjections [hiddenFormula] := by
  refine ⟨by decide, by decide, fun hsafe => ?_⟩
  rw [safeExport_iff_rows, safeRows_iff] at hsafe
  have hname := hsafe hiddenFormula (by simp)
    (ofString "型号", fun record => record.gpu.name) (by simp [columns])
  exact absurd hname (by decide)

end Mocop.CsvExport
