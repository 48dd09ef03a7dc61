import Mocop.Lib.Returns
import Mocop.Probe.Payload

/-!
# `Mocop.Probe.Auxiliary`: the auxiliary sections and the system sample

The lines of the GPU, process and workload sections are replaced (`replaceSections`). Two scans
are compared: one of the old lines and one of the new. They agree on everything but the lines
of these sections (`retell`), which `foldlM_replaceSections` carries through the payload, one
line at a time. The system sample does not look at those lines, and the parsers of the
auxiliary sections only degrade their own part.

The exception is the look at the first GPU row. It runs the CSV reader outside every `try`, so
a failure of the reader before the first filled row rejects the whole payload. A failure after
it does not: `auxiliary_keeps_system_iff` is the exact condition.
-/

set_option autoImplicit false

namespace Mocop.Probe

variable {convert : Conversions} {dialect : Csv.Dialect}

/-! ### Payloads with other section lines -/

/-- The section after a marker. -/
def Marker.after : Marker → Option Section
  | .begins target => some target
  | .ends _ => none

/-- The section after a line. -/
def sectionAfter (inside : Option Section) (line : String) : Option Section :=
  match marker line with
  | some mark => mark.after
  | none => inside

/-- The lines of one section. -/
def sectionLines (target : Section) : Option Section → List String → List String
  | _, [] => []
  | inside, line :: rest =>
    match marker line with
    | some mark => sectionLines target mark.after rest
    | none =>
      if inside = some target then line :: sectionLines target inside rest
      else sectionLines target inside rest

/-- New lines for the auxiliary sections. -/
structure AuxiliaryLines where
  gpus : List String
  processes : List String
  workloads : List String

/-- The new lines of a section, if it gets any. -/
def AuxiliaryLines.lines (new : AuxiliaryLines) : Section → Option (List String)
  | .gpus => some new.gpus
  | .processes => some new.processes
  | .workloads => some new.workloads
  | .disks | .gpuHealth => none

/-- The payload lines with the new lines in place of the old. -/
def replaceSections (new : AuxiliaryLines) : Option Section → List String → List String
  | _, [] => []
  | inside, line :: rest =>
    match marker line with
    | some (.begins entered) =>
      line :: ((new.lines entered).getD [] ++ replaceSections new (some entered) rest)
    | some (.ends _) => line :: replaceSections new none rest
    | none =>
      if (inside.bind new.lines).isSome then replaceSections new inside rest
      else line :: replaceSections new inside rest

/-- The payload with the new lines. The line with the protocol version is in no section. -/
def replacePayload (new : AuxiliaryLines) (payload : String) : String :=
  match splitAt '\n' payload with
  | [] => payload
  | version :: rest => joinWith '\n' (version :: replaceSections new none rest)

/-- The new lines are lines, and none of them is a marker or the status of its section. -/
structure AuxiliaryLines.Ordinary (new : AuxiliaryLines) : Prop where
  line : ∀ target lines, new.lines target = some lines → ∀ line ∈ lines, '\n' ∉ line.toList
  marker : ∀ target lines, new.lines target = some lines →
    ∀ line ∈ lines, Probe.marker line = none
  gpus : ∀ line ∈ new.gpus, gpuStatus line = none
  processes : ∀ line ∈ new.processes, processStatus line = none

/-- The GPU and process sections hold no status line, and the health section holds nothing but
empty lines. -/
structure WithoutStatus (inside : Option Section) (lines : List String) : Prop where
  gpus : ∀ line ∈ sectionLines .gpus inside lines, gpuStatus line = none
  processes : ∀ line ∈ sectionLines .processes inside lines, processStatus line = none
  gpuHealth : ∀ line ∈ sectionLines .gpuHealth inside lines, line = ""

/-- The lines of a section in the first line, and in the lines after it. -/
theorem sectionLines_cons (target : Section) (inside : Option Section) (line : String)
    (rest : List String) :
    sectionLines target inside (line :: rest)
      = sectionLines target inside [line] ++ sectionLines target (sectionAfter inside line) rest := by
  unfold sectionAfter
  rw [sectionLines, sectionLines]
  cases marker line with
  | some mark => simp [sectionLines]
  | none =>
    by_cases hinside : inside = some target
    · simp [hinside, sectionLines]
    · simp [hinside, sectionLines]

variable {line : String} {target : Section} {new : AuxiliaryLines} {scan read : Scan}

/-- The section of the first line, and the sections of the lines after it. -/
theorem WithoutStatus.of_cons {inside : Option Section} {rest : List String}
    (h : WithoutStatus inside (line :: rest)) :
    WithoutStatus inside [line] ∧ WithoutStatus (sectionAfter inside line) rest := by
  have hgpus := h.gpus
  have hprocesses := h.processes
  have hhealth := h.gpuHealth
  rw [sectionLines_cons, List.forall_mem_append] at hgpus hprocesses hhealth
  exact ⟨⟨hgpus.1, hprocesses.1, hhealth.1⟩, ⟨hgpus.2, hprocesses.2, hhealth.2⟩⟩

/-- A line that is no marker belongs to its section. -/
theorem mem_sectionLines (hmark : marker line = none) :
    line ∈ sectionLines target (some target) [line] := by
  rw [sectionLines, hmark]
  show line ∈ if some target = some target then [line] else []
  rw [if_pos rfl]
  exact List.mem_singleton_self line

/-- The lines are replaced one after the other. -/
theorem replaceSections_cons (new : AuxiliaryLines) (inside : Option Section) (line : String)
    (rest : List String) :
    replaceSections new inside (line :: rest)
      = replaceSections new inside [line]
        ++ replaceSections new (sectionAfter inside line) rest := by
  unfold sectionAfter
  rw [replaceSections, replaceSections]
  cases marker line with
  | some mark => cases mark <;> simp [replaceSections, Marker.after]
  | none =>
    by_cases hnew : (inside.bind new.lines).isSome = true
    · simp [hnew, replaceSections]
    · simp [hnew, replaceSections]

/-! ### The two scans -/

/-- What is kept of the new lines of a section: nothing before the section has begun. -/
def collected (markers : List Marker) (target : Section) (lines : List String) : List String :=
  if .begins target ∈ markers then lines.filter (fun line => !isBlank line) else []

/-- The scan of the new lines where `scan` is that of the old ones. -/
def retell (new : AuxiliaryLines) (scan : Scan) : Scan :=
  { scan with
    gpuLines := collected scan.sectionMarkers .gpus new.gpus
    processLines := collected scan.sectionMarkers .processes new.processes
    workloadLines := collected scan.sectionMarkers .workloads new.workloads }

/-- A section that begins has all its lines. -/
theorem collected_begins (markers : List Marker) (target : Section) (lines : List String) :
    collected (.begins target :: markers) target lines = lines.filter fun line => !isBlank line :=
  if_pos List.mem_cons_self

/-- A section has no lines before it begins. -/
theorem collected_of_not_mem {markers : List Marker} (h : .begins target ∉ markers)
    (lines : List String) : collected markers target lines = [] :=
  if_neg h

/-- Another marker changes nothing. -/
theorem collected_cons_of_ne {mark : Marker} (h : mark ≠ .begins target) (markers : List Marker)
    (lines : List String) :
    collected (mark :: markers) target lines = collected markers target lines := by
  have hmem : (Marker.begins target ∈ mark :: markers) = (Marker.begins target ∈ markers) := by
    rw [List.mem_cons, eq_iff_iff, or_iff_right (Ne.symm h)]
  rw [collected, collected, if_congr (iff_of_eq hmem) rfl rfl]

/-- No status line was read so far, and no health line. -/
structure Scan.Clean (scan : Scan) : Prop where
  gpuMessage : scan.gpuMessage = none
  processStatusMarker : scan.processStatusMarker = none
  processesSampled : scan.processesSampled = true
  healthLines : scan.healthLines = []

/-- The lines of a section are collected when each line adds itself unless it is blank. -/
theorem foldlM_collect {put : List String → Scan} {lines : List String}
    (hstep : ∀ line ∈ lines, ∀ kept, scanLine convert (put kept) line
      = .ok (put (if isBlank line then kept else kept ++ [line]))) (kept : List String) :
    lines.foldlM (scanLine convert) (put kept)
      = .ok (put (kept ++ lines.filter fun line => !isBlank line)) := by
  induction lines generalizing kept with
  | nil =>
    rw [List.filter_nil, List.append_nil]
    rfl
  | cons line rest ih =>
    obtain ⟨hline, hrest⟩ := List.forall_mem_cons.mp hstep
    rw [List.foldlM_cons, hline]
    show rest.foldlM (scanLine convert) (put (if isBlank line then kept else kept ++ [line])) = _
    rw [ih hrest]
    by_cases hblank : isBlank line = true
    · simp [hblank]
    · simp [hblank]

/-- The new lines of a section are collected once the section has begun. -/
theorem foldlM_entered (hnew : new.Ordinary) {scan : Scan} (hclean : scan.Clean)
    (hfirst : .begins target ∉ scan.sectionMarkers) :
    ((new.lines target).getD []).foldlM (scanLine convert)
        { retell new scan with
          sectionMarkers := .begins target :: scan.sectionMarkers, inside := some target }
      = .ok (retell new { scan with
          sectionMarkers := .begins target :: scan.sectionMarkers, inside := some target }) := by
  -- The lines of the other sections are those of before, the section itself had none.
  have hother : ∀ other lines, target ≠ other →
      collected (.begins target :: scan.sectionMarkers) other lines
        = collected scan.sectionMarkers other lines := by
    intro other lines hne
    exact collected_cons_of_ne (fun heq => hne (Marker.begins.inj heq)) _ lines
  cases target with
  | gpus =>
    have hstep : ∀ line ∈ new.gpus, ∀ kept,
        scanLine convert { retell new scan with
          gpuLines := kept
          sectionMarkers := .begins .gpus :: scan.sectionMarkers, inside := some .gpus } line
        = .ok { retell new scan with
          gpuLines := if isBlank line then kept else kept ++ [line]
          sectionMarkers := .begins .gpus :: scan.sectionMarkers, inside := some .gpus } := by
      intro line hline kept
      rw [scanLine, hnew.marker .gpus _ rfl line hline]
      show Except.ok (Scan.gpuLine _ line) = _
      rw [Scan.gpuLine, hnew.gpus line hline]
      by_cases hblank : isBlank line = true
      · simp only [hblank, if_true]
      · simp only [hblank, if_false, Bool.false_eq_true]
    have hcollect := foldlM_collect hstep []
    simp only [retell, AuxiliaryLines.lines, Option.getD_some, collected_begins,
      collected_of_not_mem hfirst, List.nil_append, hother .processes _ (by decide),
      hother .workloads _ (by decide)] at hcollect ⊢
    exact hcollect
  | processes =>
    have hstep : ∀ line ∈ new.processes, ∀ kept,
        scanLine convert { retell new scan with
          processLines := kept
          sectionMarkers := .begins .processes :: scan.sectionMarkers
          inside := some .processes } line
        = .ok { retell new scan with
          processLines := if isBlank line then kept else kept ++ [line]
          sectionMarkers := .begins .processes :: scan.sectionMarkers
          inside := some .processes } := by
      intro line hline kept
      rw [scanLine, hnew.marker .processes _ rfl line hline]
      show Scan.processLine _ line = _
      rw [Scan.processLine, hnew.processes line hline]
      by_cases hblank : isBlank line = true
      · simp only [hblank, if_true]
      · simp only [hblank, if_false, Bool.false_eq_true, retell, hclean.processStatusMarker,
          ne_eq, not_true_eq_false]
    have hcollect := foldlM_collect hstep []
    simp only [retell, AuxiliaryLines.lines, Option.getD_some, collected_begins,
      collected_of_not_mem hfirst, List.nil_append, hother .gpus _ (by decide),
      hother .workloads _ (by decide)] at hcollect ⊢
    exact hcollect
  | workloads =>
    have hstep : ∀ line ∈ new.workloads, ∀ kept,
        scanLine convert { retell new scan with
          workloadLines := kept
          sectionMarkers := .begins .workloads :: scan.sectionMarkers
          inside := some .workloads } line
        = .ok { retell new scan with
          workloadLines := if isBlank line then kept else kept ++ [line]
          sectionMarkers := .begins .workloads :: scan.sectionMarkers
          inside := some .workloads } := by
      intro line hline kept
      rw [scanLine, hnew.marker .workloads _ rfl line hline]
      show Except.ok (Scan.workloadLine _ line) = _
      rw [Scan.workloadLine]
      by_cases hblank : isBlank line = true
      · simp only [hblank, if_true]
      · simp only [hblank, if_false, Bool.false_eq_true]
    have hcollect := foldlM_collect hstep []
    simp only [retell, AuxiliaryLines.lines, Option.getD_some, collected_begins,
      collected_of_not_mem hfirst, List.nil_append, hother .gpus _ (by decide),
      hother .processes _ (by decide)] at hcollect ⊢
    exact hcollect
  | disks | gpuHealth =>
    simp only [retell, AuxiliaryLines.lines, Option.getD_none, List.foldlM_nil,
      hother .gpus _ (by decide), hother .processes _ (by decide),
      hother .workloads _ (by decide)]
    rfl

/-- A marker is read at its place, and once. -/
theorem mark_eq_ok_iff {mark : Marker} :
    scan.mark mark = .ok read ↔
      (match mark with
        | .begins _ => scan.inside = none
        | .ends target => scan.inside = some target)
      ∧ mark ∉ scan.sectionMarkers
      ∧ read = { scan with
          sectionMarkers := mark :: scan.sectionMarkers, inside := mark.after } := by
  have hguard : ∀ {wrong : Prop} [Decidable wrong] {message : String} {next : Scan},
      (if wrong then Except.error message else .ok next) = Except.ok read
        ↔ ¬ wrong ∧ read = next := by
    intro wrong _ message next
    by_cases hwrong : wrong
    · simp [hwrong]
    · simp [hwrong, eq_comm]
  cases mark with
  | begins target => rw [Scan.mark, hguard, not_or, not_not, and_assoc]; rfl
  | ends target => rw [Scan.mark, hguard, not_or, not_not, and_assoc]; rfl

/-- A line outside the sections sets a value or adds a pressure row. -/
theorem valueLine_eq (scan : Scan) (line : String) :
    ∃ values psiRows, scan.valueLine line = { scan with values, psiRows } := by
  unfold Scan.valueLine
  dsimp only
  split_ifs
  · exact ⟨scan.values, scan.psiRows, rfl⟩
  · exact ⟨scan.values, _, rfl⟩
  · exact ⟨_, scan.psiRows, rfl⟩
  · exact ⟨scan.values, scan.psiRows, rfl⟩

/-- It says the same to both scans. -/
theorem retell_valueLine (new : AuxiliaryLines) (scan : Scan) (line : String) :
    (retell new scan).valueLine line = retell new (scan.valueLine line) := by
  unfold Scan.valueLine
  dsimp only
  split_ifs <;> rfl

/-- A line of the disk section adds a disk or nothing, and says the same to both scans. -/
theorem diskLine_eq (new : AuxiliaryLines) (h : scan.diskLine convert line = .ok read) :
    (∃ disks, read = { scan with disks })
      ∧ (retell new scan).diskLine convert line = .ok (retell new read) := by
  unfold Scan.diskLine at h ⊢
  dsimp only at h ⊢
  show _ ∧ (if _ then if maxDisksPerHost ≤ scan.disks.length then _ else _ else _) = _
  split_ifs at h ⊢ with hrow hmany hbound
  · cases h
    exact ⟨⟨scan.disks, rfl⟩, rfl⟩
  · cases hdisk : diskOfRow convert (splitAt '\t' line) with
    | ok disk =>
      rw [hdisk] at h
      cases h
      exact ⟨⟨scan.disks ++ [disk], rfl⟩, rfl⟩
    | error message =>
      rw [hdisk] at h
      cases h
      exact ⟨⟨scan.disks, rfl⟩, rfl⟩
  · cases h
    exact ⟨⟨scan.disks, rfl⟩, rfl⟩

/-- A GPU line that is no status only adds to the GPU lines. -/
theorem gpuLine_eq (scan : Scan) (hstatus : gpuStatus line = none) :
    ∃ gpuLines, scan.gpuLine line = { scan with gpuLines } := by
  rw [Scan.gpuLine, hstatus]
  show ∃ gpuLines, (if isBlank line then scan else _) = { scan with gpuLines }
  split
  · exact ⟨scan.gpuLines, rfl⟩
  · exact ⟨_, rfl⟩

/-- A process line that is no status only adds to the process lines. -/
theorem processLine_eq (hstatus : processStatus line = none)
    (h : scan.processLine line = .ok read) :
    ∃ processLines, read = { scan with processLines } := by
  rw [Scan.processLine, hstatus] at h
  dsimp only at h
  split_ifs at h
  · cases h
    exact ⟨scan.processLines, rfl⟩
  · cases h
    exact ⟨_, rfl⟩

/-- A workload line only adds to the workload lines. -/
theorem workloadLine_eq (scan : Scan) (line : String) :
    ∃ workloadLines, scan.workloadLine line = { scan with workloadLines } := by
  rw [Scan.workloadLine]
  split
  · exact ⟨scan.workloadLines, rfl⟩
  · exact ⟨_, rfl⟩

/-- An empty line of the health section says nothing. -/
theorem healthLine_empty (scan : Scan) : scan.healthLine "" = scan := by
  have hprefix : "GPU_HEALTH_ERROR\t".toList.isPrefixOf "".toList = false := by decide
  have hblank : isBlank "" = true := by decide
  simp only [Scan.healthLine, hprefix, hblank, Bool.false_eq_true, if_false, Bool.true_eq_false,
    false_and]

/-- A line that is no marker is read by the section that the scan is in. -/
theorem scanLine_of_unmarked {scan : Scan} {line : String} (hmark : marker line = none) :
    ∀ {inside : Option Section}, scan.inside = inside →
      scanLine convert scan line = match inside with
      | some .gpus => .ok (scan.gpuLine line)
      | some .processes => scan.processLine line
      | some .gpuHealth => .ok (scan.healthLine line)
      | some .workloads => .ok (scan.workloadLine line)
      | some .disks => scan.diskLine convert line
      | none => .ok (scan.valueLine line) := by
  intro inside hinside
  cases inside with
  | none => simp only [scanLine, hmark, hinside]
  | some target => cases target <;> simp only [scanLine, hmark, hinside]

/-- One line of the payload, and what stands in its place. -/
theorem foldlM_replace_line (hnew : new.Ordinary) (hclean : scan.Clean)
    (hwithout : WithoutStatus scan.inside [line]) (h : scanLine convert scan line = .ok read) :
    read.Clean ∧ read.inside = sectionAfter scan.inside line
      ∧ (replaceSections new scan.inside [line]).foldlM (scanLine convert) (retell new scan)
        = .ok (retell new read) := by
  obtain ⟨hmessage, hstatus, hsampled, hhealth⟩ := hclean
  cases hmark : marker line with
  | some mark =>
    rw [scanLine, hmark] at h
    obtain ⟨hplace, hfirst, rfl⟩ := mark_eq_ok_iff.mp h
    refine ⟨⟨hmessage, hstatus, hsampled, hhealth⟩, by rw [sectionAfter, hmark], ?_⟩
    -- The marker is read by the new scan as well, its section being at the same place.
    have hstep : scanLine convert (retell new scan) line = .ok { retell new scan with
        sectionMarkers := mark :: scan.sectionMarkers, inside := mark.after } := by
      rw [scanLine, hmark]
      exact mark_eq_ok_iff.mpr ⟨hplace, hfirst, rfl⟩
    rw [replaceSections, hmark]
    cases mark with
    | begins entered =>
      show List.foldlM (scanLine convert) (retell new scan)
        (line :: ((new.lines entered).getD [] ++ [])) = _
      rw [List.append_nil, List.foldlM_cons, hstep]
      exact foldlM_entered hnew ⟨hmessage, hstatus, hsampled, hhealth⟩ hfirst
    | ends left =>
      show List.foldlM (scanLine convert) (retell new scan) [line] = _
      rw [List.foldlM_cons, hstep]
      have hkept : ∀ other lines, collected (.ends left :: scan.sectionMarkers) other lines
          = collected scan.sectionMarkers other lines := by
        intro other lines
        exact collected_cons_of_ne (fun heq => by cases heq) _ lines
      simp only [retell, hkept]
      rfl
  | none =>
    have hafter : sectionAfter scan.inside line = scan.inside := by rw [sectionAfter, hmark]
    have hone : ∀ {next : Scan}, scanLine convert (retell new scan) line = .ok next →
        [line].foldlM (scanLine convert) (retell new scan) = .ok next := by
      intro next hnext
      rw [List.foldlM_cons, hnext]
      rfl
    rw [scanLine_of_unmarked hmark rfl] at h
    rw [hafter, replaceSections, hmark]
    have hnewscan := @scanLine_of_unmarked convert (retell new scan) line hmark scan.inside rfl
    cases hinside : scan.inside with
    | none =>
      rw [hinside] at h hnewscan
      cases h
      have hretold := retell_valueLine new scan line
      obtain ⟨values, psiRows, heq⟩ := valueLine_eq scan line
      rw [heq] at hretold ⊢
      refine ⟨⟨hmessage, hstatus, hsampled, hhealth⟩, hinside, hone ?_⟩
      rw [hnewscan, hretold]
    | some target =>
      rw [hinside] at h hwithout hnewscan
      cases target with
      | gpus =>
        cases h
        obtain ⟨gpuLines, heq⟩ :=
          gpuLine_eq scan (hwithout.gpus line (mem_sectionLines hmark))
        rw [heq]
        exact ⟨⟨hmessage, hstatus, hsampled, hhealth⟩, hinside, rfl⟩
      | processes =>
        obtain ⟨processLines, rfl⟩ :=
          processLine_eq (hwithout.processes line (mem_sectionLines hmark)) h
        exact ⟨⟨hmessage, hstatus, hsampled, hhealth⟩, hinside, rfl⟩
      | workloads =>
        cases h
        obtain ⟨workloadLines, heq⟩ := workloadLine_eq scan line
        rw [heq]
        exact ⟨⟨hmessage, hstatus, hsampled, hhealth⟩, hinside, rfl⟩
      | gpuHealth =>
        have hempty := hwithout.gpuHealth line (mem_sectionLines hmark)
        subst hempty
        cases h
        rw [healthLine_empty]
        refine ⟨⟨hmessage, hstatus, hsampled, hhealth⟩, hinside, hone ?_⟩
        rw [hnewscan]
        exact congrArg Except.ok (healthLine_empty _)
      | disks =>
        obtain ⟨⟨disks, rfl⟩, hretold⟩ := diskLine_eq new h
        refine ⟨⟨hmessage, hstatus, hsampled, hhealth⟩, hinside, hone ?_⟩
        rw [hnewscan, hretold]

/-- The whole payload: where the old lines are read, so are the new ones, and the scans differ
in the lines of the auxiliary sections only. -/
theorem foldlM_replaceSections (hnew : new.Ordinary) {lines : List String} :
    ∀ {scan read : Scan}, scan.Clean → WithoutStatus scan.inside lines →
      lines.foldlM (scanLine convert) scan = .ok read →
      read.Clean ∧ (replaceSections new scan.inside lines).foldlM (scanLine convert) (retell new scan)
        = .ok (retell new read) := by
  induction lines with
  | nil =>
    intro scan read hclean _ h
    cases h
    exact ⟨hclean, by rw [replaceSections]; rfl⟩
  | cons line rest ih =>
    intro scan read hclean hwithout h
    rw [List.foldlM_cons] at h
    obtain ⟨next, hline, hrest⟩ := bind_eq_ok.mp h
    obtain ⟨hfirst, hlater⟩ := hwithout.of_cons
    obtain ⟨hnext, hinside, hstep⟩ := foldlM_replace_line hnew hclean hfirst hline
    rw [← hinside] at hlater
    obtain ⟨hread, hfold⟩ := ih hnext hlater hrest
    refine ⟨hread, ?_⟩
    rw [replaceSections_cons, List.foldlM_append, hstep, ← hinside]
    exact hfold

/-! ### What the auxiliary lines can reject -/

/-- The CSV reader reaches the first filled row of the GPU lines, or their end, before it
fails. -/
def ReadsFirstRow (dialect : Csv.Dialect) (lines : List String) : Prop :=
  let read := Csv.rows dialect (joinWith '\n' (lines.filter fun line => !isBlank line))
  read.2 = none ∨ ∃ row ∈ read.1, blankRow row = false

/-- The look at the first row returns when the reader gets that far. -/
theorem returns_firstGpuRow_iff (dialect : Csv.Dialect) (payload : String) :
    Returns (firstGpuRow dialect payload) ↔
      (Csv.rows dialect payload).2 = none
        ∨ ∃ row ∈ (Csv.rows dialect payload).1, blankRow row = false := by
  unfold firstGpuRow
  dsimp only
  cases hfind : (Csv.rows dialect payload).1.find? (fun row => !blankRow row) with
  | some row =>
    have hrow := List.find?_some hfind
    have hmem := List.mem_of_find?_eq_some hfind
    rw [Bool.not_eq_true'] at hrow
    exact iff_of_true ⟨_, rfl⟩ (Or.inr ⟨row, hmem, hrow⟩)
  | none =>
    have hblank : ∀ row ∈ (Csv.rows dialect payload).1, blankRow row ≠ false := by
      intro row hrow
      simpa using List.find?_eq_none.mp hfind row hrow
    cases hfailure : (Csv.rows dialect payload).2 with
    | none => exact iff_of_true ⟨_, rfl⟩ (Or.inl rfl)
    | some failure =>
      refine iff_of_false (not_returns_error _) ?_
      rintro (hnone | ⟨row, hrow, hfilled⟩)
      · cases hnone
      · exact hblank row hrow hfilled

/-- A scan without health lines makes a sample when its sections are complete, its system
sample is, and the first GPU row can be looked at. Nothing else is outside a `try`. -/
theorem exists_finishScan_iff {scan : Scan} (hhealth : scan.healthLines = [])
    (system : RawSystemSample) :
    (∃ parsed, finishScan convert dialect scan = .ok parsed ∧ parsed.system = system) ↔
      checkSections scan = .ok () ∧ systemSample convert scan = .ok system
        ∧ Returns (firstGpuRow dialect (joinWith '\n' scan.gpuLines)) := by
  unfold finishScan
  constructor
  · rintro ⟨parsed, h, rfl⟩
    obtain ⟨_, hsections, h⟩ := bind_eq_ok.mp h
    obtain ⟨sample, hsystem, h⟩ := bind_eq_ok.mp h
    obtain ⟨first, hfirst, h⟩ := bind_eq_ok.mp h
    simp only [hhealth, ne_eq, not_true_eq_false, and_false, if_false] at h
    cases h
    exact ⟨hsections, hsystem, first, hfirst⟩
  · rintro ⟨hsections, hsystem, first, hfirst⟩
    simp only [hsections, hsystem, hfirst, hhealth, ne_eq, not_true_eq_false, and_false, if_false]
    exact ⟨_, rfl, rfl⟩

/-- A line in the changed payload is an old one or a new one. -/
theorem mem_replaceSections {lines : List String} :
    ∀ {inside : Option Section}, line ∈ replaceSections new inside lines →
      line ∈ lines ∨ ∃ target added, new.lines target = some added ∧ line ∈ added := by
  induction lines with
  | nil =>
    intro inside h
    rw [replaceSections] at h
    exact absurd h List.not_mem_nil
  | cons first rest ih =>
    intro inside h
    have hrest : ∀ {inside : Option Section}, line ∈ replaceSections new inside rest →
        line ∈ first :: rest ∨ ∃ target added, new.lines target = some added ∧ line ∈ added :=
      fun hin => (ih hin).imp_left (List.mem_cons_of_mem first)
    rw [replaceSections] at h
    split at h
    · rename_i entered _
      rcases List.mem_cons.mp h with rfl | h
      · exact .inl List.mem_cons_self
      · rcases List.mem_append.mp h with hadded | hin
        · cases hlines : new.lines entered with
          | none =>
            rw [hlines] at hadded
            exact absurd hadded List.not_mem_nil
          | some added =>
            rw [hlines] at hadded
            exact .inr ⟨entered, added, hlines, hadded⟩
        · exact hrest hin
    · rcases List.mem_cons.mp h with rfl | hin
      · exact .inl List.mem_cons_self
      · exact hrest hin
    · split at h
      · exact hrest h
      · rcases List.mem_cons.mp h with rfl | hin
        · exact .inl List.mem_cons_self
        · exact hrest hin

/-- Complete sections stay complete: the new lines bring neither a marker nor a status. -/
theorem checkSections_retell (new : AuxiliaryLines) {scan : Scan} (hclean : scan.Clean)
    (h : checkSections scan = .ok ()) :
    checkSections (retell new scan) = .ok ()
      ∧ ∀ mark ∈ expectedMarkers, mark ∈ scan.sectionMarkers := by
  unfold checkSections at h ⊢
  split_ifs at h with hincomplete
  have hmessage : (retell new scan).gpuMessage = none := hclean.gpuMessage
  have hsampled : (retell new scan).processesSampled = true := hclean.processesSampled
  have hsame : ¬ ((∃ mark ∈ expectedMarkers, mark ∉ (retell new scan).sectionMarkers)
      ∨ (retell new scan).inside ≠ none) := hincomplete
  refine ⟨?_, ?_⟩
  · rw [if_neg hsame, if_neg (by simp [hmessage]), if_neg (by simp [hsampled])]
  · intro mark hmark
    by_contra hnot
    exact hincomplete (.inl ⟨mark, hmark, hnot⟩)

/-- New lines in the auxiliary sections of an accepted payload leave it accepted with the same
system sample, unless the CSV reader fails before the first filled row of the GPU lines. -/
theorem auxiliary_keeps_system_iff {payload : String} {parsed : ParsedResource}
    (haccepted : parseResourcePayload convert dialect payload = .ok parsed)
    (hwithout : WithoutStatus none (splitAt '\n' payload).tail)
    {new : AuxiliaryLines} (hnew : new.Ordinary) :
    (∃ changed, parseResourcePayload convert dialect (replacePayload new payload) = .ok changed
        ∧ changed.system = parsed.system)
      ↔ ReadsFirstRow dialect new.gpus := by
  have hclean : ∀ line ∈ splitAt '\n' payload, '\n' ∉ line.toList :=
    fun line hline => not_mem_of_mem_splitAt hline
  unfold parseResourcePayload replacePayload at *
  cases hlines : splitAt '\n' payload with
  | nil => exact absurd hlines (splitAt_ne_nil _ _)
  | cons version rest =>
    rw [hlines] at haccepted hwithout hclean
    rw [parseLines] at haccepted
    split_ifs at haccepted with hversion
    obtain ⟨scan, hscan, hfinish⟩ := bind_eq_ok.mp haccepted
    have hstart : retell new {} = ({} : Scan) := by
      simp [retell, collected]
    obtain ⟨hread, hfold⟩ := foldlM_replaceSections hnew ⟨rfl, rfl, rfl, rfl⟩ hwithout hscan
    rw [hstart] at hfold
    -- The changed payload splits into the changed lines.
    have hchanged : splitAt '\n' (joinWith '\n' (version :: replaceSections new none rest))
        = version :: replaceSections new none rest := by
      refine splitAt_joinWith ?_ (List.cons_ne_nil _ _)
      intro line hline
      rcases List.mem_cons.mp hline with rfl | hline
      · exact hclean line List.mem_cons_self
      · rcases mem_replaceSections hline with hold | ⟨target, added, htarget, hadded⟩
        · exact hclean line (List.mem_cons_of_mem _ hold)
        · exact hnew.line target added htarget line hadded
    have hparse : parseLines convert dialect (version :: replaceSections new none rest)
        = finishScan convert dialect (retell new scan) := by
      rw [parseLines, if_neg hversion]
      show (replaceSections new none rest).foldlM (scanLine convert) {} >>= _ = _
      rw [hfold]
      rfl
    -- The old payload was accepted, so only the look at the first row is left.
    obtain ⟨hsections, hsystem, -⟩ :=
      (exists_finishScan_iff hread.healthLines parsed.system).mp ⟨parsed, hfinish, rfl⟩
    obtain ⟨hretold, hmarkers⟩ := checkSections_retell new hread hsections
    have hgpuLines : (retell new scan).gpuLines = new.gpus.filter fun line => !isBlank line :=
      if_pos (hmarkers _ (by decide))
    show (∃ changed, parseLines convert dialect
      (splitAt '\n' (joinWith '\n' (version :: replaceSections new none rest))) = .ok changed
        ∧ changed.system = parsed.system) ↔ _
    have hhealth : (retell new scan).healthLines = [] := hread.healthLines
    rw [hchanged, hparse, exists_finishScan_iff hhealth, hgpuLines, returns_firstGpuRow_iff]
    exact ⟨fun h => h.2.2, fun h => ⟨hretold, hsystem, h⟩⟩

/-- The number of a text of digits. -/
private def digitsOf (text : String) : Option ℕ :=
  if text ≠ "" ∧ text.toList.all Char.isDigit then
    some (text.toList.foldl (fun n c => 10 * n + (c.toNat - 48)) 0)
  else none

private def digits : Conversions where
  float := fun text => (digitsOf text).map fun n => (n : ℚ)
  int := digitsOf
  isoformat := toString

/-- The lines of a host without GPUs. -/
private def gpulessLines : List String :=
  ["MONITOR_V8", "HOST\tnode-a", "CPU\t100\t40", "CORES\t8",
    "MEM\t16384000\t8192000\t2097152\t1048576", "LOAD\t1\t1\t0", "UPTIME\t86400",
    "NET\t1000\t2000", "IO\t4096\t8192", "DISKS_BEGIN", "DISKS_END", "GPUS_BEGIN", "GPUS_END",
    "PROCESSES_BEGIN", "PROCESSES_END", "WORKLOADS_BEGIN", "WORKLOADS_END", "GPU_HEALTH_BEGIN",
    "GPU_HEALTH_END", ""]

/-- The payload of a host without GPUs. -/
private def gpulessPayload : String := joinWith '\n' gpulessLines

private theorem splitAt_gpuless : splitAt '\n' gpulessPayload = gpulessLines :=
  splitAt_joinWith (by decide +kernel) (by decide)

private theorem gpuless_accepted :
    Returns (parseResourcePayload digits nvidiaDialect gpulessPayload) := by
  rw [parseResourcePayload, splitAt_gpuless]
  decide +kernel

private theorem gpuless_withoutStatus :
    WithoutStatus none (splitAt '\n' gpulessPayload).tail := by
  rw [splitAt_gpuless]
  exact ⟨by decide +kernel, by decide +kernel, by decide +kernel⟩

/-- Lines that no parser reads, the first of them a filled CSV row. -/
private def garbage : AuxiliaryLines :=
  { gpus := ["no GPU", "1\rGPU-b"], processes := ["2\rGPU-c"], workloads := ["WORKLOAD"] }

private theorem garbage_ordinary : garbage.Ordinary := by
  refine ⟨?_, ?_, by decide, by decide⟩
  · intro target lines hlines
    cases target <;> cases hlines <;> decide
  · intro target lines hlines
    cases target <;> cases hlines <;> decide

/-- The host keeps its system sample under lines that degrade every auxiliary part. -/
theorem auxiliary_keeps_system_iff_garbage :
    ∃ parsed changed, parseResourcePayload digits nvidiaDialect gpulessPayload = .ok parsed
      ∧ parseResourcePayload digits nvidiaDialect (replacePayload garbage gpulessPayload)
        = .ok changed
      ∧ changed.system = parsed.system := by
  obtain ⟨parsed, hparsed⟩ := gpuless_accepted
  have hreads : ReadsFirstRow nvidiaDialect garbage.gpus := by
    refine .inr ⟨["no GPU"], by decide +kernel, by decide +kernel⟩
  obtain ⟨changed, hchanged, hsystem⟩ :=
    (auxiliary_keeps_system_iff hparsed gpuless_withoutStatus garbage_ordinary).mpr hreads
  exact ⟨parsed, changed, hparsed, hchanged, hsystem⟩

/-- A GPU line with a carriage return inside its first field. -/
private def strayReturn : AuxiliaryLines :=
  { gpus := ["0\rGPU-a, NVIDIA A100"], processes := [], workloads := [] }

private theorem strayReturn_ordinary : strayReturn.Ordinary := by
  refine ⟨?_, ?_, by decide, by decide⟩
  · intro target lines hlines
    cases target <;> cases hlines <;> decide
  · intro target lines hlines
    cases target <;> cases hlines <;> decide

private theorem splitAt_strayReturn :
    splitAt '\n' (replacePayload strayReturn gpulessPayload)
      = "MONITOR_V8" :: replaceSections strayReturn none gpulessLines.tail := by
  rw [replacePayload, splitAt_gpuless]
  show splitAt '\n' (joinWith '\n' ("MONITOR_V8" :: _)) = _
  exact splitAt_joinWith (by decide +kernel) (List.cons_ne_nil _ _)

private theorem strayReturn_rejected :
    ¬ Returns (parseResourcePayload digits nvidiaDialect
        (replacePayload strayReturn gpulessPayload)) := by
  rw [parseResourcePayload, splitAt_strayReturn]
  decide +kernel

/-- One GPU line rejects the payload: the reader fails on it before any row. -/
theorem strayReturn_rejects_payload :
    Returns (parseResourcePayload digits nvidiaDialect gpulessPayload)
      ∧ WithoutStatus none (splitAt '\n' gpulessPayload).tail ∧ strayReturn.Ordinary
      ∧ ¬ Returns (parseResourcePayload digits nvidiaDialect
          (replacePayload strayReturn gpulessPayload)) :=
  ⟨gpuless_accepted, gpuless_withoutStatus, strayReturn_ordinary, strayReturn_rejected⟩

end Mocop.Probe
