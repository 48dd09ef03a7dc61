import Mocop.Probe.Auxiliary

/-!
# `Mocop.Probe.Grammar`: the section grammar of a payload

The marker loop keeps one open section and the markers so far, and it refuses a marker out of
place. The lines it lets through have a declarative description: their markers are, in some
order of the five sections, the begin of each section followed by its end (`Sectioned`).
`Opened` is the invariant of the loop: the markers so far are those of the closed sections, and
the begin of the open one.

Two lines that are no markers are refused as well (`Scan.Refuses`): a disk record too many, and
a process row or a second status beside a process status. Where no such line comes first, an
error about the markers is raised exactly when the lines are not in sections, lines in sections
come through, and every section has the records of its own lines: `sections_iff`.
-/

set_option autoImplicit false

namespace Mocop.Probe

variable {convert : Conversions}

/-! ### The grammar -/

/-- The sections of a payload. -/
def allSections : List Section := [.disks, .gpus, .processes, .workloads, .gpuHealth]

/-- The markers of a section that holds no other marker. -/
def markersOf (target : Section) : List Marker := [.begins target, .ends target]

/-- Each section begins once and is closed by its own end, with no marker in between, and the
sections come in any order. -/
def Sectioned (lines : List String) : Prop :=
  ∃ order : List Section, order.Perm allSections ∧ lines.filterMap marker = order.flatMap markersOf

/-- The errors about the markers. -/
def markerErrors : List String :=
  "resource payload has incomplete metric sections"
    :: allSections.map fun target => "resource payload has an invalid " ++ target.label ++ " section"

/-- The errors about the rows of a section. -/
def contentErrors : List String :=
  ["resource payload has too many disk records",
    "resource payload has conflicting process telemetry"]

/-- The loop refuses a line that is no marker: a disk record when the host has its most disks, a
process status after a row or a status, and a process row after a status. -/
def Scan.Refuses (scan : Scan) (line : String) : Prop :=
  marker line = none
    ∧ match scan.inside with
      | some .disks => (splitAt '\t' line).getD 0 "" = "DISK" ∧ (splitAt '\t' line).length = 8
          ∧ maxDisksPerHost ≤ scan.disks.length
      | some .processes =>
        if processStatus line = none then isBlank line = false ∧ scan.processStatusMarker ≠ none
        else scan.processStatusMarker ≠ none ∨ scan.processLines ≠ []
      | _ => False

/-- The marker loop and the final check. -/
def readSections (convert : Conversions) (lines : List String) : Except String Scan := do
  let scan ← lines.foldlM (scanLine convert) {}
  checkSections scan
  return scan

/-! ### One line -/

theorem mem_allSections (target : Section) : target ∈ allSections := by
  cases target <;> decide

/-- A line that is no marker leaves the place alone. -/
theorem scanLine_of_not_marker {scan read : Scan} {line : String} (hmark : marker line = none)
    (hread : scanLine convert scan line = .ok read) :
    read.inside = scan.inside ∧ read.sectionMarkers = scan.sectionMarkers := by
  unfold scanLine at hread
  rw [hmark] at hread
  cases hinside : scan.inside with
  | none =>
    rw [hinside] at hread
    cases hread
    unfold Scan.valueLine
    dsimp only
    split_ifs <;> exact ⟨hinside, rfl⟩
  | some target =>
    rw [hinside] at hread
    cases target with
    | gpus =>
      cases hread
      unfold Scan.gpuLine
      split
      · exact ⟨hinside, rfl⟩
      · split <;> exact ⟨hinside, rfl⟩
    | disks =>
      unfold Scan.diskLine at hread
      dsimp only at hread
      split_ifs at hread
      · cases hread
        exact ⟨hinside, rfl⟩
      · split at hread <;> cases hread <;> exact ⟨hinside, rfl⟩
      · cases hread
        exact ⟨hinside, rfl⟩
    | processes =>
      unfold Scan.processLine at hread
      dsimp only at hread
      split at hread <;> split_ifs at hread <;> cases hread <;> exact ⟨hinside, rfl⟩
    | workloads =>
      cases hread
      unfold Scan.workloadLine
      split <;> exact ⟨hinside, rfl⟩
    | gpuHealth =>
      cases hread
      unfold Scan.healthLine
      split_ifs <;> exact ⟨hinside, rfl⟩

variable {message : String} {scan : Scan} {lines : List String} {inside : Option Section}

/-- A marker out of place raises an error about the markers. -/
theorem mark_error {mark : Marker} (h : scan.mark mark = .error message) :
    message ∈ markerErrors := by
  have hlabel : ∀ target : Section,
      "resource payload has an invalid " ++ target.label ++ " section" ∈ markerErrors :=
    fun target => List.mem_cons_of_mem _ (List.mem_map_of_mem (mem_allSections target))
  cases mark with
  | begins target =>
    unfold Scan.mark at h
    dsimp only at h
    split_ifs at h
    cases h
    exact hlabel target
  | ends target =>
    unfold Scan.mark at h
    dsimp only at h
    split_ifs at h
    cases h
    exact hlabel target

/-- An error of the loop is about a marker, or the line is one that it refuses. -/
theorem scanLine_error {line message : String} (h : scanLine convert scan line = .error message) :
    (marker line ≠ none ∧ message ∈ markerErrors)
      ∨ (scan.Refuses line ∧ message ∈ contentErrors) := by
  unfold scanLine at h
  cases hmark : marker line with
  | some mark =>
    rw [hmark] at h
    exact .inl ⟨Option.some_ne_none mark, mark_error h⟩
  | none =>
    rw [hmark] at h
    unfold Scan.Refuses
    refine .inr ?_
    cases hinside : scan.inside with
    | none =>
      rw [hinside] at h
      cases h
    | some target =>
      rw [hinside] at h
      cases target with
      | disks =>
        unfold Scan.diskLine at h
        dsimp only at h
        split_ifs at h with hrow hmany
        · cases h
          exact ⟨⟨hmark, hrow.1, hrow.2, hmany⟩, by decide⟩
        · split at h <;> cases h
      | processes =>
        unfold Scan.processLine at h
        dsimp only at h ⊢
        cases hstatus : processStatus line with
        | some status =>
          rw [hstatus] at h
          dsimp only at h
          split_ifs at h with hbefore
          cases h
          exact ⟨⟨hmark, by rwa [if_neg (Option.some_ne_none status)]⟩, by decide⟩
        | none =>
          rw [hstatus] at h
          dsimp only at h
          split_ifs at h with hblank hbefore
          cases h
          exact ⟨⟨hmark, by
            rw [if_pos rfl]
            exact ⟨Bool.eq_false_iff.mpr hblank, hbefore⟩⟩, by decide⟩
      | gpus => cases h
      | workloads => cases h
      | gpuHealth => cases h

/-- A line that the loop refuses raises its error. -/
theorem scanLine_of_refuses {scan : Scan} {line : String} (h : scan.Refuses line) :
    ∃ message ∈ contentErrors, scanLine convert scan line = .error message := by
  obtain ⟨hmark, hrow⟩ := h
  unfold scanLine
  rw [hmark]
  cases hinside : scan.inside with
  | none =>
    rw [hinside] at hrow
    exact hrow.elim
  | some target =>
    rw [hinside] at hrow
    cases target with
    | disks =>
      refine ⟨_, List.mem_cons_self, ?_⟩
      show Scan.diskLine convert scan line = _
      unfold Scan.diskLine
      dsimp only
      rw [if_pos ⟨hrow.1, hrow.2.1⟩, if_pos hrow.2.2]
    | processes =>
      refine ⟨_, List.mem_cons_of_mem _ List.mem_cons_self, ?_⟩
      show Scan.processLine scan line = _
      unfold Scan.processLine
      dsimp only at hrow
      cases hstatus : processStatus line with
      | some status =>
        rw [hstatus, if_neg (Option.some_ne_none status)] at hrow
        exact if_pos hrow
      | none =>
        rw [hstatus, if_pos rfl] at hrow
        dsimp only
        rw [if_neg (Bool.eq_false_iff.mp hrow.1), if_pos hrow.2]
    | gpus => exact hrow.elim
    | workloads => exact hrow.elim
    | gpuHealth => exact hrow.elim

/-- The two kinds of errors are different. -/
theorem not_mem_markerErrors (h : message ∈ contentErrors) :
    message ∉ markerErrors := by
  have hall : ∀ other ∈ contentErrors, other ∉ markerErrors := by decide
  exact hall message h

/-- An error of a loop is the error of its first step that fails. -/
theorem foldlM_eq_error_iff {σ α ε : Type} {step : σ → α → Except ε σ} {items : List α} {start : σ}
    {message : ε} :
    items.foldlM step start = .error message
      ↔ ∃ before item after state, items = before ++ item :: after
        ∧ before.foldlM step start = .ok state ∧ step state item = .error message := by
  induction items generalizing start with
  | nil =>
    refine ⟨fun h => (by cases h), ?_⟩
    rintro ⟨before, item, after, state, hitems, -, -⟩
    exact absurd hitems.symm (List.append_ne_nil_of_right_ne_nil _ (List.cons_ne_nil item after))
  | cons item rest ih =>
    rw [List.foldlM_cons]
    constructor
    · intro h
      cases hnext : step start item with
      | error other =>
        rw [hnext] at h
        cases h
        exact ⟨[], item, rest, start, rfl, rfl, hnext⟩
      | ok next =>
        rw [hnext] at h
        obtain ⟨before, bad, after, state, rfl, hbefore, hbad⟩ := ih.mp h
        refine ⟨item :: before, bad, after, state, rfl, ?_, hbad⟩
        rw [List.foldlM_cons, hnext]
        exact hbefore
    · rintro ⟨before, bad, after, state, hitems, hbefore, hbad⟩
      cases before with
      | nil =>
        obtain ⟨rfl, rfl⟩ := List.cons.inj hitems
        cases hbefore
        rw [hbad]
        rfl
      | cons first before =>
        obtain ⟨rfl, rfl⟩ := List.cons.inj hitems
        rw [List.foldlM_cons] at hbefore
        obtain ⟨next, hnext, hbefore⟩ := bind_eq_ok.mp hbefore
        rw [hnext]
        exact ih.mpr ⟨before, bad, after, state, rfl, hbefore, hbad⟩

/-! ### The place of the loop -/

/-- The markers so far are those of the closed sections and the begin of the open one, and no
section occurs twice. -/
structure Opened (scan : Scan) (order : List Section) (marks : List Marker) : Prop where
  nodup : (order ++ scan.inside.toList).Nodup
  marks_eq : marks = order.flatMap markersOf ++ scan.inside.toList.map .begins
  seen : ∀ mark, mark ∈ scan.sectionMarkers ↔ mark ∈ marks

theorem opened_start : Opened {} [] [] where
  nodup := List.nodup_nil
  marks_eq := rfl
  seen := fun _ => Iff.rfl

namespace Opened

variable {read : Scan} {order : List Section} {marks : List Marker}

/-- The begin of a section is among the markers when the section is closed or open. -/
theorem begins_mem_iff (h : Opened scan order marks) (target : Section) :
    .begins target ∈ scan.sectionMarkers ↔ target ∈ order ∨ scan.inside = some target := by
  rw [h.seen, h.marks_eq]
  simp [markersOf]

/-- Its end is when the section is closed. -/
theorem ends_mem_iff (h : Opened scan order marks) (target : Section) :
    .ends target ∈ scan.sectionMarkers ↔ target ∈ order := by
  rw [h.seen, h.marks_eq]
  simp [markersOf]

/-- A marker at its place opens a section, or closes the one that is open. -/
theorem mark (h : Opened scan order marks) {mark : Marker} (hread : scan.mark mark = .ok read) :
    Opened read
      (match mark with
        | .begins _ => order
        | .ends target => order ++ [target])
      (marks ++ [mark]) := by
  obtain ⟨hplace, hfirst, rfl⟩ := mark_eq_ok_iff.mp hread
  have hseen : ∀ other, other ∈ mark :: scan.sectionMarkers ↔ other ∈ marks ++ [mark] := by
    intro other
    rw [List.mem_cons, List.mem_append, List.mem_singleton, h.seen]
    exact or_comm
  have hmarks := h.marks_eq
  have hnodup := h.nodup
  cases mark with
  | begins target =>
    replace hplace : scan.inside = none := hplace
    rw [hplace] at hmarks hnodup
    refine ⟨?_, ?_, hseen⟩
    · show (order ++ [target]).Nodup
      rw [h.begins_mem_iff, not_or] at hfirst
      rw [Option.toList_none, List.append_nil] at hnodup
      exact hnodup.append (List.nodup_singleton target)
        (List.disjoint_singleton.mpr hfirst.1)
    · rw [hmarks]
      simp [Marker.after]
  | ends target =>
    replace hplace : scan.inside = some target := hplace
    rw [hplace] at hmarks hnodup
    refine ⟨?_, ?_, hseen⟩
    · show (order ++ [target] ++ []).Nodup
      rw [List.append_nil]
      exact hnodup
    · rw [hmarks]
      simp [Marker.after, markersOf]

/-- The loop keeps the invariant. -/
theorem run (h : Opened scan order marks)
    (hread : lines.foldlM (scanLine convert) scan = .ok read) :
    ∃ order', Opened read order' (marks ++ lines.filterMap marker) := by
  induction lines generalizing scan order marks with
  | nil =>
    cases hread
    rw [List.filterMap_nil, List.append_nil]
    exact ⟨order, h⟩
  | cons line rest ih =>
    rw [List.foldlM_cons] at hread
    obtain ⟨next, hnext, hrest⟩ := bind_eq_ok.mp hread
    cases hmark : marker line with
    | none =>
      obtain ⟨hinside, hmarkers⟩ := scanLine_of_not_marker hmark hnext
      rw [List.filterMap_cons_none hmark]
      exact ih ⟨hinside ▸ h.nodup, hinside ▸ h.marks_eq, hmarkers ▸ h.seen⟩ hrest
    | some mark =>
      rw [scanLine, hmark] at hnext
      obtain ⟨final, hfinal⟩ := ih (h.mark hnext) hrest
      rw [List.filterMap_cons_some hmark]
      rw [List.append_assoc, List.singleton_append] at hfinal
      exact ⟨final, hfinal⟩

end Opened

/-! ### Acceptance -/

/-- Lines in sections are let through: no error about the markers comes out of the loop. The
sections still to come are those of `rest`. -/
theorem Opened.not_markerError {scan : Scan} {order : List Section} {marks : List Marker}
    (h : Opened scan order marks) {lines : List String} {rest : List Section}
    (hnodup : (order ++ scan.inside.toList ++ rest).Nodup)
    (hlines : lines.filterMap marker = scan.inside.toList.map .ends ++ rest.flatMap markersOf)
    {message : String} (herror : lines.foldlM (scanLine convert) scan = .error message) :
    message ∉ markerErrors := by
  induction lines generalizing scan order marks rest with
  | nil => cases herror
  | cons line lines ih =>
    rw [List.foldlM_cons] at herror
    cases hmark : marker line with
    | none =>
      rw [List.filterMap_cons_none hmark] at hlines
      cases hnext : scanLine convert scan line with
      | error other =>
        rw [hnext] at herror
        cases herror
        obtain ⟨hmarker, -⟩ | ⟨-, hcontent⟩ := scanLine_error hnext
        · exact absurd hmark hmarker
        · exact not_mem_markerErrors hcontent
      | ok next =>
        rw [hnext] at herror
        obtain ⟨hinside, hmarkers⟩ := scanLine_of_not_marker hmark hnext
        refine @ih next order marks
          ⟨hinside ▸ h.nodup, hinside ▸ h.marks_eq, hmarkers ▸ h.seen⟩ rest ?_ ?_ herror
        · rw [hinside]
          exact hnodup
        · rw [hinside]
          exact hlines
    | some mark =>
      rw [List.filterMap_cons_some hmark] at hlines
      have hstep : ∀ next, scan.mark mark = .ok next →
          lines.foldlM (scanLine convert) next = .error message := by
        intro next hnext
        have hscan : scanLine convert scan line = .ok next := by
          rw [scanLine, hmark]
          exact hnext
        rw [hscan] at herror
        exact herror
      cases hinside : scan.inside with
      | some target =>
        -- The open section ends.
        rw [hinside] at hlines hnodup
        obtain ⟨rfl, hrest⟩ := List.cons.inj hlines
        have hfirst : Marker.ends target ∉ scan.sectionMarkers := by
          rw [h.ends_mem_iff]
          intro hmem
          have hdisjoint := List.disjoint_of_nodup_append (List.Nodup.of_append_left hnodup)
          exact hdisjoint hmem List.mem_cons_self
        have hnext := mark_eq_ok_iff.mpr ⟨hinside, hfirst, rfl⟩
        refine @ih _ _ _ (h.mark hnext) rest ?_ hrest (hstep _ hnext)
        show (order ++ [target] ++ [] ++ rest).Nodup
        rw [List.append_nil]
        exact hnodup
      | none =>
        rw [hinside] at hlines hnodup
        cases rest with
        | nil => cases hlines
        | cons target rest =>
          -- The next section begins.
          obtain ⟨rfl, hrest⟩ := List.cons.inj hlines
          have hfirst : Marker.begins target ∉ scan.sectionMarkers := by
            rw [h.begins_mem_iff, hinside]
            rintro (hmem | hopen)
            · rw [Option.toList_none, List.append_nil] at hnodup
              exact List.disjoint_of_nodup_append hnodup hmem List.mem_cons_self
            · cases hopen
          have hnext := mark_eq_ok_iff.mpr ⟨hinside, hfirst, rfl⟩
          refine @ih _ _ _ (h.mark hnext) rest ?_ hrest (hstep _ hnext)
          show (order ++ [target] ++ rest).Nodup
          rw [Option.toList_none, List.append_nil] at hnodup
          rw [List.append_assoc, List.singleton_append]
          exact hnodup

/-- The final check finds every marker and no open section exactly when the closed sections are
all of them. -/
theorem Opened.complete_iff {order : List Section} {marks : List Marker}
    (h : Opened scan order marks) :
    ¬ ((∃ mark ∈ expectedMarkers, mark ∉ scan.sectionMarkers) ∨ scan.inside ≠ none)
      ↔ order.Perm allSections ∧ scan.inside = none := by
  have hexpected : ∀ mark : Marker, mark ∈ expectedMarkers := by
    intro mark
    cases mark with
    | begins target => cases target <;> decide
    | ends target => cases target <;> decide
  rw [not_or, not_not, and_congr_left_iff]
  intro hinside
  have hnodup : order.Nodup := by
    have hall := h.nodup
    rw [hinside, Option.toList_none, List.append_nil] at hall
    exact hall
  have hsections : allSections.Nodup := by decide
  rw [List.perm_ext_iff_of_nodup hnodup hsections]
  constructor
  · intro hall target
    refine ⟨fun _ => mem_allSections target, fun _ => ?_⟩
    by_contra hnot
    exact hall ⟨.ends target, hexpected _, fun hmem => hnot ((h.ends_mem_iff target).mp hmem)⟩
  · rintro hall ⟨mark, -, hnot⟩
    refine hnot ?_
    cases mark with
    | begins target =>
      exact (h.begins_mem_iff target).mpr (.inl ((hall target).mpr (mem_allSections target)))
    | ends target =>
      exact (h.ends_mem_iff target).mpr ((hall target).mpr (mem_allSections target))

/-- The markers of closed sections tell which sections are closed, and an open section is told from
them. -/
theorem closed_of_markers {order other : List Section}
    (h : order.flatMap markersOf ++ inside.toList.map .begins = other.flatMap markersOf) :
    order = other ∧ inside = none := by
  induction order generalizing other with
  | nil =>
    cases inside with
    | none =>
      cases other with
      | nil => exact ⟨rfl, rfl⟩
      | cons target rest => cases h
    | some target =>
      cases other with
      | nil => cases h
      | cons first rest => cases h
  | cons target order ih =>
    cases other with
    | nil => cases h
    | cons first rest =>
      obtain ⟨hfirst, h⟩ := List.cons.inj h
      obtain ⟨-, h⟩ := List.cons.inj h
      obtain ⟨rfl, hinside⟩ := ih h
      cases hfirst
      exact ⟨rfl, hinside⟩

/-- Where the loop comes through, the final check raises no error about the markers exactly when
the lines are in sections. -/
theorem checkSections_markerError_iff (hread : lines.foldlM (scanLine convert) {} = .ok scan) :
    (∃ message ∈ markerErrors, checkSections scan = .error message) ↔ ¬ Sectioned lines := by
  obtain ⟨order, hopened⟩ := opened_start.run hread
  rw [List.nil_append] at hopened
  have hsectioned : Sectioned lines ↔ order.Perm allSections ∧ scan.inside = none := by
    constructor
    · rintro ⟨other, hperm, hmarks⟩
      obtain ⟨rfl, hinside⟩ := closed_of_markers (hopened.marks_eq.symm.trans hmarks)
      exact ⟨hperm, hinside⟩
    · rintro ⟨hperm, hinside⟩
      refine ⟨order, hperm, ?_⟩
      rw [hopened.marks_eq, hinside, Option.toList_none, List.map_nil, List.append_nil]
  rw [hsectioned, ← hopened.complete_iff, not_not]
  unfold checkSections
  constructor
  · rintro ⟨message, hmem, herror⟩
    by_contra hcomplete
    rw [if_neg hcomplete] at herror
    split_ifs at herror
    · cases herror
      exact absurd hmem (by decide)
    · cases herror
      exact absurd hmem (by decide)
  · intro hincomplete
    exact ⟨_, List.mem_cons_self, if_pos hincomplete⟩

/-! ### The records of a section -/

/-- A status line of the health section. -/
def isHealthError (line : String) : Bool := "GPU_HEALTH_ERROR\t".toList.isPrefixOf line.toList

/-- The filesystem of a line of the disk section, unless the line is malformed or the mount point is
one of a container runtime. -/
def diskOfLine (convert : Conversions) (line : String) : Option DiskMetrics :=
  let parts := splitAt '\t' line
  if parts.getD 0 "" = "DISK" ∧ parts.length = 8 ∧ parts.getD 7 "" ∉ containerFileBindMounts then
    match diskOfRow convert parts with
    | .ok disk => some disk
    | .error _ => none
  else none

/-- The records of a section are those of these lines: the lines that are neither blank nor a
status, none in the health section when it has a status, and the filesystems in the disk
section. -/
def RecordsOf (convert : Conversions) (scan : Scan) (lines : List String) : Section → Prop
  | .gpus => scan.gpuLines = lines.filter fun line => (gpuStatus line).isNone && !isBlank line
  | .processes =>
    scan.processLines = lines.filter fun line => (processStatus line).isNone && !isBlank line
  | .workloads => scan.workloadLines = lines.filter fun line => !isBlank line
  | .gpuHealth =>
    scan.healthAvailable = !lines.any isHealthError
      ∧ scan.healthLines = if lines.any isHealthError then []
        else lines.filter fun line => !isBlank line
  | .disks => scan.disks = lines.filterMap (diskOfLine convert)

variable {read : Scan} {line : String}

/-- A line of a section is a record of it or not, and it is no record of another section. -/
structure Adds (convert : Conversions) (scan read : Scan) (line : String) (inside : Section) :
    Prop where
  here : ∀ lines, RecordsOf convert scan lines inside →
    RecordsOf convert read (lines ++ [line]) inside
  elsewhere : ∀ target, target ≠ inside → ∀ lines, RecordsOf convert scan lines target →
    RecordsOf convert read lines target

theorem adds_gpuLine (scan : Scan) (line : String) :
    Adds convert scan (scan.gpuLine line) line .gpus := by
  unfold Scan.gpuLine
  constructor
  · intro lines h
    have hlines : scan.gpuLines = _ := h
    cases hstatus : gpuStatus line with
    | some message => simp [RecordsOf, hlines, hstatus]
    | none => cases hblank : isBlank line <;> simp [RecordsOf, hlines, hstatus, hblank]
  · intro target hne lines h
    cases target <;> first
      | exact absurd rfl hne
      | (split; exact h; split <;> exact h)

theorem adds_processLine (h : scan.processLine line = .ok read) :
    Adds convert scan read line .processes := by
  unfold Scan.processLine at h
  constructor
  · intro lines hlines
    replace hlines : scan.processLines = _ := hlines
    cases hstatus : processStatus line with
    | some status =>
      rw [hstatus] at h
      dsimp only at h
      split at h
      · cases h
      · cases h
        simp [RecordsOf, hlines, hstatus]
    | none =>
      rw [hstatus] at h
      dsimp only at h
      split_ifs at h with hblank
      · cases h
        simp [RecordsOf, hlines, hstatus, hblank]
      · cases h
        simp [RecordsOf, hlines, hstatus, hblank]
  · intro target hne lines hlines
    cases target <;> first
      | exact absurd rfl hne
      | (split at h <;> split_ifs at h <;> cases h <;> exact hlines)

theorem adds_workloadLine (scan : Scan) (line : String) :
    Adds convert scan (scan.workloadLine line) line .workloads := by
  unfold Scan.workloadLine
  constructor
  · intro lines h
    have hlines : scan.workloadLines = _ := h
    cases hblank : isBlank line <;> simp [RecordsOf, hlines, hblank]
  · intro target hne lines h
    cases target <;> first
      | exact absurd rfl hne
      | (split <;> exact h)

theorem adds_healthLine (scan : Scan) (line : String) :
    Adds convert scan (scan.healthLine line) line .gpuHealth := by
  have hstatus : "GPU_HEALTH_ERROR\t".toList.isPrefixOf line.toList = isHealthError line := rfl
  unfold Scan.healthLine
  rw [hstatus]
  constructor
  · rintro lines ⟨havailable, hlines⟩
    show _ ∧ _
    rw [List.any_append, List.filter_append]
    cases herror : isHealthError line with
    | true => simp [herror]
    | false =>
      cases hany : lines.any isHealthError with
      | true =>
        rw [hany] at havailable hlines
        simp [havailable, hlines, herror]
      | false =>
        rw [hany] at havailable hlines
        cases hblank : isBlank line <;> simp [havailable, hlines, herror, hblank]
  · intro target hne lines h
    cases target <;> first
      | exact absurd rfl hne
      | (split_ifs <;> exact h)

theorem adds_diskLine (h : scan.diskLine convert line = .ok read) :
    Adds convert scan read line .disks := by
  unfold Scan.diskLine at h
  dsimp only at h
  constructor
  · intro lines hlines
    replace hlines : scan.disks = _ := hlines
    show read.disks = _
    have hone : [line].filterMap (diskOfLine convert) = (diskOfLine convert line).toList := by
      cases hdisk : diskOfLine convert line <;> simp [hdisk]
    rw [List.filterMap_append, ← hlines, hone]
    unfold diskOfLine
    split_ifs at h with hrow hmany hbound
    · cases h
      rw [if_neg fun hall => hall.2.2 hbound]
      exact (List.append_nil _).symm
    · rw [if_pos ⟨hrow.1, hrow.2, hbound⟩]
      cases hdisk : diskOfRow convert (splitAt '\t' line) with
      | ok disk =>
        rw [hdisk] at h
        cases h
        rfl
      | error message =>
        rw [hdisk] at h
        cases h
        exact (List.append_nil _).symm
    · cases h
      rw [if_neg fun hall => hrow ⟨hall.1, hall.2.1⟩]
      exact (List.append_nil _).symm
  · intro target hne lines hlines
    cases target <;> first
      | exact absurd rfl hne
      | (split_ifs at h
         · cases h
           exact hlines
         · split at h <;> cases h <;> exact hlines
         · cases h
           exact hlines)

/-- A line outside the sections, and a marker, is a record of no section. -/
theorem recordsOf_frame (hsame : read.gpuLines = scan.gpuLines
      ∧ read.processLines = scan.processLines ∧ read.workloadLines = scan.workloadLines
      ∧ read.healthAvailable = scan.healthAvailable ∧ read.healthLines = scan.healthLines
      ∧ read.disks = scan.disks) (target : Section) (h : RecordsOf convert scan lines target) :
    RecordsOf convert read lines target := by
  obtain ⟨hgpus, hprocesses, hworkloads, havailable, hhealth, hdisks⟩ := hsame
  cases target with
  | gpus => exact hgpus.trans h
  | processes => exact hprocesses.trans h
  | workloads => exact hworkloads.trans h
  | gpuHealth => exact ⟨havailable.trans h.1, hhealth.trans h.2⟩
  | disks => exact hdisks.trans h

/-- A line adds to the records of the open section what is a record of it, and nothing to those of
another section. -/
theorem recordsOf_scanLine (hread : scanLine convert scan line = .ok read) (target : Section)
    (h : RecordsOf convert scan lines target) :
    RecordsOf convert read (lines ++ sectionLines target scan.inside [line]) target := by
  have hnothing : ∀ {inside : Option Section}, inside ≠ some target → marker line = none →
      sectionLines target inside [line] = [] := by
    intro inside hinside hmark
    simp [sectionLines, hmark, hinside]
  unfold scanLine at hread
  cases hmark : marker line with
  | some mark =>
    rw [hmark] at hread
    obtain ⟨-, -, rfl⟩ := mark_eq_ok_iff.mp hread
    have hlines : sectionLines target scan.inside [line] = [] := by
      simp [sectionLines, hmark]
    rw [hlines, List.append_nil]
    exact recordsOf_frame ⟨rfl, rfl, rfl, rfl, rfl, rfl⟩ target h
  | none =>
    rw [hmark] at hread
    dsimp only at hread
    cases hinside : scan.inside with
    | none =>
      rw [hinside] at hread
      cases hread
      rw [hnothing (by simp) hmark, List.append_nil]
      obtain ⟨values, psiRows, heq⟩ := valueLine_eq scan line
      rw [heq]
      exact recordsOf_frame ⟨rfl, rfl, rfl, rfl, rfl, rfl⟩ target h
    | some inside =>
      have hadds : Adds convert scan read line inside := by
        rw [hinside] at hread
        cases inside with
        | gpus =>
          cases hread
          exact adds_gpuLine scan line
        | disks => exact adds_diskLine hread
        | processes => exact adds_processLine hread
        | workloads =>
          cases hread
          exact adds_workloadLine scan line
        | gpuHealth =>
          cases hread
          exact adds_healthLine scan line
      by_cases hsame : target = inside
      · subst hsame
        have hlines : sectionLines target (some target) [line] = [line] := by
          simp [sectionLines, hmark]
        rw [hlines]
        exact hadds.here lines h
      · rw [hnothing (fun hsome => hsame (Option.some.inj hsome).symm) hmark, List.append_nil]
        exact hadds.elsewhere target hsame lines h

/-- The place after a line. -/
theorem inside_scanLine (hread : scanLine convert scan line = .ok read) :
    read.inside = sectionAfter scan.inside line := by
  unfold sectionAfter
  cases hmark : marker line with
  | none => exact (scanLine_of_not_marker hmark hread).1
  | some mark =>
    rw [scanLine, hmark] at hread
    obtain ⟨-, -, rfl⟩ := mark_eq_ok_iff.mp hread
    rfl

/-- The loop adds to the records of each section those of the lines of the section. -/
theorem recordsOf_run (hread : lines.foldlM (scanLine convert) scan = .ok read) (target : Section)
    {before : List String} (h : RecordsOf convert scan before target) :
    RecordsOf convert read (before ++ sectionLines target scan.inside lines) target := by
  induction lines generalizing scan before with
  | nil =>
    cases hread
    rw [sectionLines, List.append_nil]
    exact h
  | cons line rest ih =>
    rw [List.foldlM_cons] at hread
    obtain ⟨next, hnext, hrest⟩ := bind_eq_ok.mp hread
    have hrecords := ih hrest (recordsOf_scanLine hnext target h)
    rw [inside_scanLine hnext, List.append_assoc, ← sectionLines_cons] at hrecords
    exact hrecords

/-! ### A section between its markers -/

/-- Before its begin a section has no lines. -/
theorem sectionLines_before {target : Section} {first : String}
    (hfirst : marker first = some (.begins target)) {before : List String} (rest : List String)
    (hbefore : .begins target ∉ before.filterMap marker) (hinside : inside ≠ some target) :
    sectionLines target inside (before ++ first :: rest) = sectionLines target (some target) rest := by
  induction before generalizing inside with
  | nil =>
    rw [List.nil_append, sectionLines, hfirst]
    rfl
  | cons line before ih =>
    rw [List.cons_append, sectionLines]
    cases hmark : marker line with
    | none =>
      rw [List.filterMap_cons_none hmark] at hbefore
      dsimp only
      rw [if_neg hinside]
      exact ih hbefore hinside
    | some mark =>
      rw [List.filterMap_cons_some hmark, List.mem_cons, not_or] at hbefore
      refine ih hbefore.2 fun hafter => ?_
      cases mark with
      | begins entered => exact hbefore.1 (by rw [Option.some.inj hafter])
      | ends left => cases hafter

/-- In a section every line up to the next marker is one of it. -/
theorem sectionLines_body {target : Section} {last : String}
    (hlast : marker last = some (.ends target)) {body : List String} (rest : List String)
    (hbody : ∀ line ∈ body, marker line = none) :
    sectionLines target (some target) (body ++ last :: rest)
      = body ++ sectionLines target none rest := by
  induction body with
  | nil =>
    rw [List.nil_append, List.nil_append, sectionLines, hlast]
    rfl
  | cons line body ih =>
    rw [List.cons_append, sectionLines, hbody line List.mem_cons_self]
    dsimp only
    rw [if_pos rfl, ih fun other hother => hbody other (List.mem_cons_of_mem _ hother),
      List.cons_append]

/-- Without its begin a section has no lines. -/
theorem sectionLines_after {target : Section} (hinside : inside ≠ some target)
    (hlines : .begins target ∉ lines.filterMap marker) :
    sectionLines target inside lines = [] := by
  induction lines generalizing inside with
  | nil => rfl
  | cons line rest ih =>
    rw [sectionLines]
    cases hmark : marker line with
    | none =>
      rw [List.filterMap_cons_none hmark] at hlines
      dsimp only
      rw [if_neg hinside]
      exact ih hinside hlines
    | some mark =>
      rw [List.filterMap_cons_some hmark, List.mem_cons, not_or] at hlines
      refine ih (fun hafter => ?_) hlines.2
      cases mark with
      | begins entered => exact hlines.1 (by rw [Option.some.inj hafter])
      | ends left => cases hafter

/-- The lines of a section stand between its markers. -/
structure Between (lines : List String) (target : Section) (body : List String) : Prop where
  split : ∃ before first last after, lines = before ++ first :: (body ++ last :: after)
    ∧ marker first = some (.begins target) ∧ marker last = some (.ends target)
  plain : ∀ line ∈ body, marker line = none

/-- In sectioned lines every section has its lines between its markers. -/
theorem Sectioned.between (h : Sectioned lines) (target : Section) :
    Between lines target (sectionLines target none lines) := by
  obtain ⟨order, hperm, hmarks⟩ := h
  have hnodup : order.Nodup := hperm.nodup_iff.mpr (by decide)
  obtain ⟨earlier, later, rfl⟩ := List.append_of_mem (hperm.mem_iff.mpr (mem_allSections target))
  rw [List.flatMap_append, List.flatMap_cons, List.filterMap_eq_append_iff] at hmarks
  obtain ⟨before, rest, rfl, hbefore, hrest⟩ := hmarks
  obtain ⟨skipped, first, rest, rfl, hskipped, hfirst, hrest⟩ := List.filterMap_eq_cons_iff.mp hrest
  obtain ⟨body, last, after, rfl, hbody, hlast, hafter⟩ := List.filterMap_eq_cons_iff.mp hrest
  -- The section occurs once in the order, so its begin occurs once among the markers.
  have hnotEarlier : target ∉ earlier := fun hmem =>
    List.disjoint_of_nodup_append hnodup hmem List.mem_cons_self
  have hnotLater : target ∉ later := (List.nodup_cons.mp (List.Nodup.of_append_right hnodup)).1
  have hbegins : ∀ sections : List Section, target ∉ sections →
      Marker.begins target ∉ sections.flatMap markersOf := by
    intro sections hnot hmem
    obtain ⟨other, hother, hmark⟩ := List.mem_flatMap.mp hmem
    simp only [markersOf, List.mem_cons, Marker.begins.injEq, reduceCtorEq, List.not_mem_nil,
      or_false] at hmark
    exact hnot (hmark ▸ hother)
  have hskippedMarks : skipped.filterMap marker = [] := List.filterMap_eq_nil_iff.mpr hskipped
  have hlines : sectionLines target none
      (before ++ (skipped ++ first :: (body ++ last :: after))) = body := by
    rw [← List.append_assoc, sectionLines_before hfirst _ ?_ (by simp),
      sectionLines_body hlast _ hbody, sectionLines_after (by simp), List.append_nil]
    · rw [hafter]
      exact hbegins later hnotLater
    · rw [List.filterMap_append, hbefore, hskippedMarks, List.append_nil]
      exact hbegins earlier hnotEarlier
  rw [hlines]
  exact ⟨⟨before ++ skipped, first, last, after, by rw [List.append_assoc], hfirst, hlast⟩, hbody⟩

/-! ### The grammar of the payload -/

/-- The loop meets a line that it refuses before a marker out of place. -/
def Preempted (convert : Conversions) (lines : List String) : Prop :=
  ∃ before line after scan, lines = before ++ line :: after
    ∧ before.foldlM (scanLine convert) {} = .ok scan ∧ scan.Refuses line

/-- Then the error is about the rows of a section. -/
theorem Preempted.error (h : Preempted convert lines) :
    ∃ message ∈ contentErrors, lines.foldlM (scanLine convert) {} = .error message := by
  obtain ⟨before, line, after, scan, hlines, hbefore, hrefuses⟩ := h
  obtain ⟨message, hmem, hline⟩ := @scanLine_of_refuses convert _ _ hrefuses
  exact ⟨message, hmem, foldlM_eq_error_iff.mpr ⟨before, line, after, scan, hlines, hbefore, hline⟩⟩

/-- An error of the loop is about the markers unless it is preempted. -/
theorem markerError_of_loop (h : lines.foldlM (scanLine convert) {} = .error message)
    (hfirst : ¬ Preempted convert lines) :
    message ∈ markerErrors := by
  obtain ⟨before, line, after, scan, hlines, hbefore, hline⟩ := foldlM_eq_error_iff.mp h
  obtain ⟨-, hmarker⟩ | ⟨hrefuses, -⟩ := scanLine_error hline
  · exact hmarker
  · exact absurd ⟨before, line, after, scan, hlines, hbefore, hrefuses⟩ hfirst

/-- An error of the loop is the error of the parser. -/
theorem readSections_of_error (h : lines.foldlM (scanLine convert) {} = .error message) :
    readSections convert lines = .error message := by
  rw [readSections, h]
  rfl

/-- Where the loop comes through, the errors are those of the final check. -/
theorem readSections_error_iff (hread : lines.foldlM (scanLine convert) {} = .ok scan)
    (message : String) :
    readSections convert lines = .error message ↔ checkSections scan = .error message := by
  have hchecked : readSections convert lines = (checkSections scan >>= fun _ => pure scan) := by
    rw [readSections, hread]
    rfl
  rw [hchecked]
  cases checkSections scan with
  | error other => exact ⟨fun h => by cases h; rfl, fun h => by cases h; rfl⟩
  | ok _ => exact ⟨fun h => (by cases h), fun h => (by cases h)⟩

/-- Where the loop meets a line that it refuses first, it raises an error about the rows. Where it
does not, the markers raise an error exactly when the lines are not in sections, and the loop comes
through lines in sections. Lines in sections never raise an error about the markers, and where the
loop comes through them, each section has the records of the lines between its markers. -/
theorem sections_iff (convert : Conversions) (lines : List String) :
    (Preempted convert lines →
        ∃ message ∈ contentErrors, readSections convert lines = .error message)
      ∧ (¬ Preempted convert lines →
        ((∃ message ∈ markerErrors, readSections convert lines = .error message)
          ↔ ¬ Sectioned lines))
      ∧ (¬ Preempted convert lines → Sectioned lines →
        ∃ scan, lines.foldlM (scanLine convert) {} = .ok scan)
      ∧ (Sectioned lines → ∀ message, readSections convert lines = .error message →
        message ∉ markerErrors)
      ∧ ∀ scan, lines.foldlM (scanLine convert) {} = .ok scan → Sectioned lines →
        ∀ target, ∃ body, Between lines target body ∧ RecordsOf convert scan body target := by
  have hstart : ∀ target, RecordsOf convert {} [] target := by
    intro target
    cases target <;> first
      | rfl
      | exact ⟨rfl, rfl⟩
  have hloop : Sectioned lines → ∀ message, lines.foldlM (scanLine convert) {} = .error message →
      message ∉ markerErrors := by
    rintro ⟨order, hperm, hmarks⟩ message herror
    have hnodup : order.Nodup := hperm.nodup_iff.mpr (by decide)
    exact @Opened.not_markerError convert _ _ _ opened_start _ order hnodup hmarks _ herror
  refine ⟨fun hpreempted => ?_, fun hfirst => ?_, fun hfirst hsectioned => ?_,
    fun hsectioned message herror => ?_, fun scan hread hsectioned target =>
      ⟨_, hsectioned.between target, recordsOf_run hread target (hstart target)⟩⟩
  · obtain ⟨message, hmem, herror⟩ := hpreempted.error
    exact ⟨message, hmem, readSections_of_error herror⟩
  · cases hread : lines.foldlM (scanLine convert) {} with
    | error other =>
      have hmarker := markerError_of_loop hread hfirst
      exact ⟨fun _ hsectioned => hloop hsectioned other hread hmarker,
        fun _ => ⟨other, hmarker, readSections_of_error hread⟩⟩
    | ok scan =>
      rw [← checkSections_markerError_iff hread]
      exact exists_congr fun message => and_congr_right fun _ =>
        readSections_error_iff hread message
  · cases hread : lines.foldlM (scanLine convert) {} with
    | error other => exact absurd (markerError_of_loop hread hfirst) (hloop hsectioned other hread)
    | ok scan => exact ⟨scan, rfl⟩
  · cases hread : lines.foldlM (scanLine convert) {} with
    | error other =>
      rw [readSections_of_error hread] at herror
      cases herror
      exact hloop hsectioned message hread
    | ok scan =>
      intro hmarker
      have hcheck := (readSections_error_iff hread message).mp herror
      exact (checkSections_markerError_iff hread).mp ⟨message, hmarker, hcheck⟩ hsectioned

/-- No text is a number. -/
private def noNumbers : Conversions where
  float := fun _ => none
  int := fun _ => none
  isoformat := toString

/-- A process section with two status lines, which breaks off. -/
private def brokenOff : List String := ["PROCESSES_BEGIN", "PROCESS_SKIPPED", "PROCESS_SKIPPED"]

/-- A complete payload with a health row before the health status. -/
private def failedHealth : List String :=
  ["DISKS_BEGIN", "DISKS_END", "GPUS_BEGIN", "GPUS_END", "PROCESSES_BEGIN", "PROCESSES_END",
    "WORKLOADS_BEGIN", "WORKLOADS_END", "GPU_HEALTH_BEGIN", "GPU-a, 0", "GPU_HEALTH_ERROR\t9",
    "GPU_HEALTH_END"]

/-- Two sections that cross each other. -/
private def crossed : List String := ["DISKS_BEGIN", "GPUS_BEGIN", "DISKS_END", "GPUS_END"]

/-- No line of the crossed sections is refused, and they raise an error about the markers. The
complete payload comes through with the records of each of its sections. -/
theorem sections_iff_crossed :
    (¬ Sectioned crossed
        ∧ ∃ message ∈ markerErrors, readSections noNumbers crossed = .error message)
      ∧ ∃ scan, failedHealth.foldlM (scanLine noNumbers) {} = .ok scan ∧ ∀ target, ∃ body,
        Between failedHealth target body ∧ RecordsOf noNumbers scan body target := by
  have hfirst : ∀ lines, (∀ message ∈ contentErrors,
      (readSections noNumbers lines).map (fun scan => scan.gpuLines) ≠ .error message) →
      ¬ Preempted noNumbers lines := by
    intro lines hother hpreempted
    obtain ⟨message, hmem, herror⟩ := (sections_iff noNumbers lines).1 hpreempted
    exact hother message hmem (by rw [herror]; rfl)
  have hcrossed : ¬ Sectioned crossed := by
    rintro ⟨order, hperm, hmarks⟩
    have hlength := congrArg List.length hmarks
    have hfour : (crossed.filterMap marker).length = 4 := by decide +kernel
    have hten : (order.flatMap markersOf).length = 10 := by
      rw [(hperm.flatMap_right markersOf).length_eq]
      decide
    omega
  have hsectioned : Sectioned failedHealth := ⟨allSections, List.Perm.refl _, by decide +kernel⟩
  obtain ⟨-, hmarkers, -⟩ := sections_iff noNumbers crossed
  obtain ⟨-, -, hthrough, -, hrecords⟩ := sections_iff noNumbers failedHealth
  obtain ⟨scan, hscan⟩ := hthrough (hfirst failedHealth (by decide +kernel)) hsectioned
  exact ⟨⟨hcrossed, (hmarkers (hfirst crossed (by decide +kernel))).mpr hcrossed⟩,
    scan, hscan, hrecords scan hscan hsectioned⟩

/-- Lines without their markers can raise another error than one about the markers, and a health
section in place can lose its rows. -/
theorem otherError_first :
    (readSections noNumbers brokenOff = .error "resource payload has conflicting process telemetry"
        ∧ "resource payload has conflicting process telemetry" ∉ markerErrors
        ∧ ¬ Sectioned brokenOff)
      ∧ ∃ scan, readSections noNumbers failedHealth = .ok scan ∧ Sectioned failedHealth
        ∧ Between failedHealth .gpuHealth ["GPU-a, 0", "GPU_HEALTH_ERROR\t9"]
        ∧ scan.healthLines = [] := by
  refine ⟨⟨?_, by decide +kernel, ?_⟩, ?_⟩
  · have herror : (readSections noNumbers brokenOff).map (fun scan => scan.healthLines)
        = .error "resource payload has conflicting process telemetry" := by decide +kernel
    cases hscan : readSections noNumbers brokenOff with
    | error message =>
      rw [hscan] at herror
      cases herror
      rfl
    | ok scan =>
      rw [hscan] at herror
      cases herror
  · rintro ⟨order, hperm, hmarks⟩
    have hlength := congrArg List.length hmarks
    have hbegun : (brokenOff.filterMap marker).length = 1 := by decide +kernel
    have hten : (order.flatMap markersOf).length = 10 := by
      rw [(hperm.flatMap_right markersOf).length_eq]
      decide
    omega
  · have hread : (readSections noNumbers failedHealth).map (fun scan => scan.healthLines) = .ok [] := by
      decide +kernel
    cases hscan : readSections noNumbers failedHealth with
    | error message =>
      rw [hscan] at hread
      cases hread
    | ok scan =>
      rw [hscan] at hread
      have hsectioned : Sectioned failedHealth :=
        ⟨allSections, List.Perm.refl _, by decide +kernel⟩
      have hlines : sectionLines .gpuHealth none failedHealth
          = ["GPU-a, 0", "GPU_HEALTH_ERROR\t9"] := by decide +kernel
      exact ⟨scan, rfl, hsectioned, hlines ▸ hsectioned.between .gpuHealth, Except.ok.inj hread⟩

end Mocop.Probe
