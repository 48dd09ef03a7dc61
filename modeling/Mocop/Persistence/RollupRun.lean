import Mocop.Lib.Doubles
import Mocop.Persistence.Batches
import Mocop.Persistence.Rollup

/-!
# `Mocop.Persistence.RollupRun`: the rollup over whole runs

A run starts from a new database and takes batches (committed, failed or retried after a
prune), prunes and restarts, in any order and under any clock. Along the run the ledger
records the points of every committed batch that are not before the boundary of the batch,
and `lost` the hours that rollup retention deleted.

`RollupRun.Good.step` is the step lemma: the tables account for the ledger, and a point
before the boundary is touched by nothing. `run_counts_once` is the result. The sums of the rows
are exact (`HourlyRow`), as those of the code are while its doubles are whole numbers.
-/

set_option autoImplicit false

namespace Mocop

/-- The history of one database. `ledger` and `lost` only record what happened. -/
structure RollupRun where
  backend : Backend
  db : Database
  ledger : Ledger
  lost : List HourKey

/-- A new database, before the first start creates its companion tables. -/
def RollupRun.create : RollupRun where
  backend :=
    { companionsEnabled := false, rollupsEnabled := false, busyPct := 0, criteriaCache := ∅
      droppedWrites := 0, lastError := none }
  db := ⟨⟨∅, ∅⟩, ⟨∅, ∅, ∅, ∅, none⟩⟩
  ledger := ∅
  lost := []

/-- Records the points of a committed item that are not before the boundary. -/
def acceptItem (boundary : String) (busyPct : ℚ) (ledger : Ledger) : Write → Ledger
  | .gpuTelemetry host points => Ledger.record ledger host (filterGpuPoints points boundary) busyPct
  | _ => ledger

/-- The database on which the last attempt of a batch runs: pruned where the first one failed
for lack of space. -/
def BatchTrace.base (trace : BatchTrace) (backend : Backend) (db : Database)
    (writes : List Write) : Database :=
  match transact prepareIncidentWrite backend trace.first trace.firstNow db writes, trace.prune with
  | .error .failsFull, some clock => db.prune backend clock
  | _, _ => db

/-- The run after one step. The companion tables stay once they exist, so a start that finds
others is no step. -/
def RollupRun.step (run : RollupRun) : WriterStep → Option RollupRun
  | .batch writes trace =>
    let result := commitBatch prepareIncidentWrite run.backend trace run.db writes
    some
      { backend := result.2.1
        db := result.2.2
        ledger :=
          if result.1 then
            writes.foldl (acceptItem (result.2.2.gpu.retention.getD "") run.backend.busyPct)
              run.ledger
          else run.ledger
        lost := run.lost
          ++ GpuTables.lostHours run.db.gpu (trace.base run.backend run.db writes).gpu }
  | .prune clock =>
    let db := run.db.prune run.backend clock
    some { run with db, lost := run.lost ++ GpuTables.lostHours run.db.gpu db.gpu }
  | .restart start =>
    if start.companionsBefore = run.backend.companionsEnabled
        ∧ (start.companionsBefore = true → start.companionsEnabled = true) then
      let db := run.db.start start
      some
        { run with
          backend := start.backend, db
          lost := run.lost ++ GpuTables.lostHours run.db.gpu db.gpu }
    else none

/-- The run after some steps. -/
def RollupRun.steps (run : RollupRun) (steps : List WriterStep) : Option RollupRun :=
  steps.foldlM (fun run step => run.step step) run

namespace GpuTables

variable {tables : GpuTables} {ledger : Ledger} {lost : List HourKey}

/-- Fewer hours may be accounted for. -/
theorem Accounts.mono {more : List HourKey} (h : tables.Accounts ledger lost)
    (hsub : lost ⊆ more) : tables.Accounts ledger more where
  stored := h.stored
  expired := h.expired
  retired := fun hour hnot => h.retired hour fun hmem => hnot (hsub hmem)
  hasRow := fun hour hnot => h.hasRow hour fun hmem => hnot (hsub hmem)
  totals := fun hour hnot => h.totals hour fun hmem => hnot (hsub hmem)
  memory := fun hour hnot => h.memory hour fun hmem => hnot (hsub hmem)

/-- Writing a point leaves the boundary. -/
@[simp] theorem retention_writeGpuPoint (tables : GpuTables) (host : String)
    (busyPct : Option ℚ) (point : GpuPoint) :
    (tables.writeGpuPoint host busyPct point).retention = tables.retention := by
  unfold GpuTables.writeGpuPoint
  cases busyPct with
  | none => rfl
  | some busyPct =>
    dsimp only
    split
    · rfl
    · split <;> rfl

/-- Writing a point stores it and leaves the others. -/
@[simp] theorem history_writeGpuPoint (tables : GpuTables) (host : String)
    (busyPct : Option ℚ) (point : GpuPoint) :
    (tables.writeGpuPoint host busyPct point).history
      = tables.history.set (host, point.gpuId, point.observedAt) point := by
  unfold GpuTables.writeGpuPoint
  cases busyPct with
  | none => rfl
  | some busyPct =>
    dsimp only
    split
    · rfl
    · split <;> rfl

/-- The rows stay under an expiry of raw points. -/
@[simp] theorem hourly_pruneGpu (tables : GpuTables) (boundary : String) :
    (tables.pruneGpu boundary).hourly = tables.hourly
      ∧ (tables.pruneGpu boundary).retention = tables.retention
      ∧ (tables.pruneGpu boundary).history
        = tables.history.filterKeys (fun key => !(key.2.2 < boundary)) := by
  have hfold : ∀ (maxima : List (HourKey × Option ℚ)) (tables : GpuTables),
      (maxima.foldl (fun tables e => tables.retireMemory e.1 e.2) tables).hourly = tables.hourly
      ∧ (maxima.foldl (fun tables e => tables.retireMemory e.1 e.2) tables).retention
        = tables.retention
      ∧ (maxima.foldl (fun tables e => tables.retireMemory e.1 e.2) tables).history
        = tables.history := by
    intro maxima
    induction maxima with
    | nil => exact fun _ => ⟨rfl, rfl, rfl⟩
    | cons first rest ih => exact fun tables => ih (tables.retireMemory first.1 first.2)
  exact hfold _ _

/-- They stay under the expiry of a prune. -/
theorem hourly_pruneRaw (tables : GpuTables) (backend : Backend) (clock : PruneClock) :
    (tables.pruneRaw backend clock).hourly = tables.hourly := by
  unfold GpuTables.pruneRaw
  split
  · exact (hourly_pruneGpu _ _).1
  · unfold GpuTables.bootstrapGpuRetention
    split <;> rfl

end GpuTables

/-- What the operations on the GPU tables keep: a relation between the tables, the ledger and
the lost hours. Before the companion tables exist it has to be kept for an empty ledger
only. -/
structure Maintained (I : GpuTables → Ledger → List HourKey → Prop) : Prop where
  gpuCutoff : ∀ tables ledger lost cutoff, I tables ledger lost →
    I (tables.gpuCutoff cutoff).2 ledger lost
  writeGpuPoint : ∀ tables ledger lost boundary host (point : GpuPoint) busyPct,
    I tables ledger lost → tables.retention = some boundary → boundary ≤ point.observedAt →
    I (tables.writeGpuPoint host (some busyPct) point)
      (ledger.set (host, point.gpuId, point.observedAt) ⟨point, busyPct⟩) lost
  pruneGpu : ∀ tables ledger lost boundary, I tables ledger lost →
    tables.retention = some boundary → I (tables.pruneGpu boundary) ledger lost
  pruneRollups : ∀ tables ledger lost cutoff, I tables ledger lost →
    I (tables.pruneRollups cutoff) ledger
      (lost ++ GpuTables.lostHours tables (tables.pruneRollups cutoff))
  ensureRollups : ∀ tables ledger lost busyPct, I tables ledger lost →
    I (tables.ensureRollups busyPct) ledger lost
  bootstrap : ∀ tables lost cutoff fits, I tables ∅ lost →
    I (tables.bootstrapGpuRetention cutoff fits) ∅ lost
  baseline : ∀ tables lost, I tables ∅ lost → I tables.legacyMemoryBaseline ∅ lost
  mono : ∀ tables ledger lost more, I tables ledger lost → lost ⊆ more → I tables ledger more

/-- The account is kept by every operation. -/
theorem maintained_accounts : Maintained GpuTables.Accounts where
  gpuCutoff := fun _ _ _ cutoff h => h.gpuCutoff cutoff
  writeGpuPoint := fun _ _ _ _ host point busyPct h hboundary hafter =>
    h.writeGpuPoint host point busyPct hboundary hafter
  pruneGpu := fun _ _ _ _ h hboundary => h.pruneGpu hboundary
  pruneRollups := fun _ _ _ cutoff h => h.pruneRollups cutoff
  ensureRollups := fun _ _ _ busyPct h => h.ensureRollups busyPct
  bootstrap := fun _ _ cutoff fits h => h.bootstrapGpuRetention cutoff fits
  baseline := fun _ _ h => h.legacyMemoryBaseline
  mono := fun _ _ _ _ h hsub => h.mono hsub

/-- A recorded point is expired: it is before the boundary and not stored any more. -/
def Expired (key : PointKey) (entry : LedgerEntry) (tables : GpuTables) (ledger : Ledger)
    (_ : List HourKey) : Prop :=
  ledger.get? key = some entry ∧ tables.history.get? key = none
    ∧ ∃ boundary, tables.retention = some boundary ∧ key.2.2 < boundary

/-- An expired point stays expired. -/
theorem maintained_expired (key : PointKey) (entry : LedgerEntry) :
    Maintained (Expired key entry) where
  gpuCutoff := fun tables ledger lost cutoff h => by
    obtain ⟨hentry, hmissing, boundary, hboundary, hbefore⟩ := h
    refine ⟨hentry, hmissing, _, rfl, ?_⟩
    rw [hboundary]
    exact lt_of_lt_of_le hbefore (GpuTables.le_laterText boundary cutoff).1
  writeGpuPoint := fun tables ledger lost boundary host point busyPct h hretention hafter => by
    obtain ⟨hentry, hmissing, stored, hstored, hbefore⟩ := h
    obtain rfl := Option.some.inj (hretention.symm.trans hstored)
    have hne : key ≠ (host, point.gpuId, point.observedAt) := by
      rintro rfl
      exact absurd hbefore (not_lt.mpr hafter)
    refine ⟨?_, ?_, boundary, by simpa using hretention, hbefore⟩
    · rw [Dict.get?_set, if_neg hne, hentry]
    · rw [GpuTables.history_writeGpuPoint, Dict.get?_set, if_neg hne, hmissing]
  pruneGpu := fun tables ledger lost boundary h hboundary => by
    obtain ⟨hentry, hmissing, hbefore⟩ := h
    obtain ⟨-, hretention, hhistory⟩ := GpuTables.hourly_pruneGpu tables boundary
    refine ⟨hentry, ?_, by rwa [hretention]⟩
    rw [hhistory, Dict.get?_filterKeys, hmissing, ite_self]
  pruneRollups := fun _ _ _ _ h => h
  ensureRollups := fun _ _ _ _ h => h
  bootstrap := fun _ _ _ _ h => absurd h.1 (by simp)
  baseline := fun _ _ h => absurd h.1 (by simp)
  mono := fun _ _ _ _ h _ => h

variable {db : Database} {hour : HourKey}

namespace Maintained

variable {I : GpuTables → Ledger → List HourKey → Prop} (hI : Maintained I)
  {ledger : Ledger} {lost : List HourKey}
include hI

/-- Writing points that are not before the boundary. -/
theorem writeGpuPoints (host : String) (points : List GpuPoint) (busyPct : ℚ)
    {boundary : String} {tables : GpuTables} (h : I tables ledger lost)
    (hboundary : tables.retention = some boundary)
    (hafter : ∀ point ∈ points, boundary ≤ point.observedAt) :
    I (tables.writeGpuPoints host points (some busyPct)) (Ledger.record ledger host points busyPct)
        lost
      ∧ (tables.writeGpuPoints host points (some busyPct)).retention = some boundary := by
  induction points generalizing tables ledger with
  | nil => exact ⟨h, hboundary⟩
  | cons point rest ih =>
    exact ih (hI.writeGpuPoint _ _ _ _ host point busyPct h hboundary
        (hafter point List.mem_cons_self))
      (by simpa using hboundary) fun other hother => hafter other (List.mem_cons_of_mem _ hother)

/-- Moving the boundary and expiring what is before it. -/
theorem expire {tables : GpuTables} (h : I tables ledger lost) (cutoff : String) :
    I ((tables.gpuCutoff cutoff).2.pruneGpu (tables.gpuCutoff cutoff).1) ledger lost :=
  hI.pruneGpu _ _ _ _ (hI.gpuCutoff _ _ _ cutoff h) rfl

/-- Expiring the raw points in a prune. Without the companion tables no point was accepted. -/
theorem pruneRaw {tables : GpuTables} (h : I tables ledger lost) (backend : Backend)
    (clock : PruneClock) (hnone : backend.companionsEnabled = false → ledger = ∅) :
    I (tables.pruneRaw backend clock) ledger lost := by
  unfold GpuTables.pruneRaw
  cases hcompanions : backend.companionsEnabled with
  | true => exact hI.expire h clock.cutoff
  | false =>
    have hempty := hnone hcompanions
    subst hempty
    exact hI.bootstrap _ _ _ _ h

/-- A prune of the database. -/
theorem prune (h : I db.gpu ledger lost) (backend : Backend) (clock : PruneClock)
    (hnone : backend.companionsEnabled = false → ledger = ∅) :
    I (db.prune backend clock).gpu ledger
      (lost ++ GpuTables.lostHours db.gpu (db.prune backend clock).gpu) := by
  have hraw := hI.pruneRaw h backend clock hnone
  show I (if backend.rollupsEnabled then (db.gpu.pruneRaw backend clock).pruneRollups
      clock.rollupCutoff else db.gpu.pruneRaw backend clock) ledger
    (lost ++ GpuTables.lostHours db.gpu (if backend.rollupsEnabled then
      (db.gpu.pruneRaw backend clock).pruneRollups clock.rollupCutoff
      else db.gpu.pruneRaw backend clock))
  split
  · -- The hours lost are those that the deletion of old rows takes away.
    have hpruned := hI.pruneRollups _ _ _ clock.rollupCutoff hraw
    rw [GpuTables.lostHours, GpuTables.hourly_pruneRaw] at hpruned
    exact hpruned
  · exact hI.mono _ _ _ _ hraw (List.subset_append_left _ _)

/-- A start of the process, which finds the companion tables that were there before. -/
theorem start (h : I db.gpu ledger lost) (start : Startup)
    (hnone : start.companionsBefore = false → ledger = ∅) :
    I (db.start start).gpu ledger lost := by
  set backend : Backend :=
    { start.backend with companionsEnabled := start.companionsBefore, rollupsEnabled := false }
    with hbackend
  have hraw : I (db.prune backend start.clock).gpu ledger lost :=
    hI.pruneRaw h backend start.clock hnone
  have hensure : ∀ tables : GpuTables, I tables ledger lost →
      I (if start.rollupsEnabled then tables.ensureRollups start.busyPct else tables) ledger
        lost := by
    intro tables htables
    split
    · exact hI.ensureRollups _ _ _ _ htables
    · exact htables
  unfold Database.start
  split
  · refine hensure _ (hI.expire ?_ start.clock.cutoff)
    by_cases hbefore : start.companionsBefore = true
    · rw [if_pos hbefore]
      exact hraw
    · rw [if_neg hbefore]
      have hempty := hnone (by simpa using hbefore)
      subst hempty
      exact hI.baseline _ _ hraw
  · exact hraw

/-! ### Batches -/

/-- The items of a batch under a boundary: their points are written and recorded. -/
theorem writeItems (boundary : String) (busyPct : ℚ) (items : List Write) (state : Transaction)
    (h : I state.db.gpu ledger lost) (hboundary : state.db.gpu.retention = some boundary) :
    I (items.foldl (writeItem prepareIncidentWrite (some busyPct) (some boundary)) state).db.gpu
        (items.foldl (acceptItem boundary busyPct) ledger) lost
      ∧ (items.foldl (writeItem prepareIncidentWrite (some busyPct) (some boundary))
          state).db.gpu.retention = some boundary := by
  induction items generalizing state ledger with
  | nil => exact ⟨h, hboundary⟩
  | cons item rest ih =>
    have hwritten : (writeItem prepareIncidentWrite (some busyPct) (some boundary) state
        item).db.gpu = match item with
          | .gpuTelemetry host points =>
            state.db.gpu.writeGpuPoints host (filterGpuPoints points boundary) (some busyPct)
          | _ => state.db.gpu := by
      cases item <;> rfl
    rw [List.foldl_cons, List.foldl_cons]
    cases item with
    | gpuTelemetry host points =>
      obtain ⟨hpoints, hretention⟩ := hI.writeGpuPoints host (filterGpuPoints points boundary)
        busyPct h hboundary fun point hpoint => by
          simpa using (List.mem_filter.mp hpoint).2
      exact ih _ (hwritten ▸ hpoints) (hwritten ▸ hretention)
    | history host => exact ih _ (hwritten ▸ h) (hwritten ▸ hboundary)
    | incident event => exact ih _ (hwritten ▸ h) (hwritten ▸ hboundary)
    | incidentState host events criteria => exact ih _ (hwritten ▸ h) (hwritten ▸ hboundary)

omit hI in
/-- A batch without points leaves the GPU tables and the ledger. -/
theorem writeItems_of_noPoints (busyPct : Option ℚ) (boundary : String) (counted : ℚ)
    (items : List Write) (hnone : ∀ item ∈ items, item.hasPoints = false) (state : Transaction)
    (ledger : Ledger) :
    (items.foldl (writeItem prepareIncidentWrite busyPct none) state).db.gpu = state.db.gpu
      ∧ items.foldl (acceptItem boundary counted) ledger = ledger := by
  induction items generalizing state ledger with
  | nil => exact ⟨rfl, rfl⟩
  | cons item rest ih =>
    have hitem := hnone item List.mem_cons_self
    have hrest := fun other hother => hnone other (List.mem_cons_of_mem item hother)
    have hsame : (writeItem prepareIncidentWrite busyPct none state item).db.gpu = state.db.gpu
        ∧ acceptItem boundary counted ledger item = ledger := by
      cases item with
      | gpuTelemetry host points =>
        obtain rfl : points = [] := by simpa [Write.hasPoints] using hitem
        exact ⟨rfl, rfl⟩
      | history host => exact ⟨rfl, rfl⟩
      | incident event => exact ⟨rfl, rfl⟩
      | incidentState host events criteria => exact ⟨rfl, rfl⟩
    rw [List.foldl_cons, List.foldl_cons, hsame.2, (ih hrest _ ledger).1, hsame.1]
    exact ⟨rfl, (ih hrest state ledger).2⟩

/-- A transaction that succeeds records the points that are not before its boundary. Without
the companion tables it has no points. -/
theorem transact {backend : Backend} {attempt : Attempt} {now : String} {writes : List Write}
    {result : Transaction} (h : I db.gpu ledger lost)
    (hok : Mocop.transact prepareIncidentWrite backend attempt now db writes = .ok result) :
    I result.db.gpu
        (writes.foldl (acceptItem (result.db.gpu.retention.getD "") backend.busyPct) ledger) lost
      ∧ (backend.companionsEnabled = false →
        writes.foldl (acceptItem (result.db.gpu.retention.getD "") backend.busyPct) ledger
          = ledger) := by
  unfold Mocop.transact at hok
  split at hok
  · next body hbody =>
    obtain rfl : body = result := Except.ok.inj hok
    unfold attemptBatch at hbody
    split at hbody
    · exact absurd hbody (by simp)
    · next hcompanions =>
      split at hbody
      · exact absurd hbody (by simp)
      · next hrollups =>
        obtain rfl := Option.some.inj hbody
        by_cases hpoints : writes.any (·.hasPoints) = true
        · -- The batch moves the boundary before it writes.
          have henabled : backend.rollupsEnabled = true := by simpa [hpoints] using hrollups
          have hstart : db.boundary now writes = (some (db.gpu.gpuCutoff now).1,
              { db with gpu := (db.gpu.gpuCutoff now).2 }) := if_pos hpoints
          rw [hstart, if_pos henabled]
          obtain ⟨hwritten, hretention⟩ := hI.writeItems (db.gpu.gpuCutoff now).1
            backend.busyPct writes
            ⟨{ db with gpu := (db.gpu.gpuCutoff now).2 }, backend.criteriaCache, 0⟩
            (hI.gpuCutoff _ _ _ now h) rfl
          refine ⟨?_, fun hdisabled => ?_⟩
          · rw [hretention]
            exact hwritten
          · have hneeds : writes.any (·.needsCompanions) = true := by
              obtain ⟨item, hitem, hhas⟩ := List.any_eq_true.mp hpoints
              refine List.any_eq_true.mpr ⟨item, hitem, ?_⟩
              cases item <;> simp_all [Write.hasPoints, Write.needsCompanions]
            simp [hdisabled, hneeds] at hcompanions
        · have hnone : ∀ item ∈ writes, item.hasPoints = false := by
            simpa using hpoints
          have hstart : db.boundary now writes = (none, db) := if_neg hpoints
          rw [hstart]
          have hsame := fun boundary => writeItems_of_noPoints
            (if backend.rollupsEnabled = true then some backend.busyPct else none) boundary
            backend.busyPct writes hnone ⟨db, backend.criteriaCache, 0⟩ ledger
          refine ⟨?_, fun _ => (hsame _).2⟩
          rw [(hsame _).2, (hsame "").1]
          exact h
  · exact absurd hok (by simp)
  · exact absurd hok (by simp)

end Maintained

/-- What a run keeps: the relation, and before the companion tables exist an empty ledger. -/
structure RollupRun.Good (I : GpuTables → Ledger → List HourKey → Prop) (run : RollupRun) :
    Prop where
  keeps : I run.db.gpu run.ledger run.lost
  empty : run.backend.companionsEnabled = false → run.ledger = ∅

/-- A step keeps what the operations keep. -/
theorem RollupRun.Good.step {I : GpuTables → Ledger → List HourKey → Prop} (hI : Maintained I)
    {run next : RollupRun} (h : run.Good I) {step : WriterStep} (hstep : run.step step = some next) :
    next.Good I := by
  cases step with
  | batch writes trace =>
    obtain rfl := Option.some.inj hstep
    have hmono := List.subset_append_left run.lost
      (GpuTables.lostHours run.db.gpu (trace.base run.backend run.db writes).gpu)
    unfold commitBatch BatchTrace.base
    cases hfirst : transact prepareIncidentWrite run.backend trace.first trace.firstNow run.db
        writes with
    | ok result =>
      obtain ⟨hkeeps, hnone⟩ := hI.transact h.keeps hfirst
      exact ⟨hI.mono _ _ _ _ hkeeps (List.subset_append_left _ _),
        fun hdisabled => (hnone hdisabled).trans (h.empty hdisabled)⟩
    | error failure =>
      have hdropped : RollupRun.Good I
          { run with
            backend := run.backend.drop writes
            lost := run.lost ++ GpuTables.lostHours run.db.gpu run.db.gpu } :=
        ⟨hI.mono _ _ _ _ h.keeps (List.subset_append_left _ _), h.empty⟩
      cases failure with
      | succeeds => exact hdropped
      | failsOther => exact hdropped
      | failsFull =>
        cases hprune : trace.prune with
        | none => exact hdropped
        | some clock =>
          have hpruned := hI.prune h.keeps run.backend clock h.empty
          cases hsecond : transact prepareIncidentWrite run.backend trace.second
              trace.secondNow (run.db.prune run.backend clock) writes with
          | ok result =>
            obtain ⟨hkeeps, hnone⟩ := hI.transact hpruned hsecond
            simp only [hsecond]
            exact ⟨hkeeps, fun hdisabled => (hnone hdisabled).trans (h.empty hdisabled)⟩
          | error failure =>
            simp only [hsecond]
            exact ⟨hpruned, h.empty⟩
  | prune clock =>
    obtain rfl := Option.some.inj hstep
    exact ⟨hI.prune h.keeps run.backend clock h.empty, h.empty⟩
  | restart start =>
    rw [RollupRun.step] at hstep
    split at hstep
    · next hfits =>
      obtain rfl := Option.some.inj hstep
      obtain ⟨hsame, hstay⟩ := hfits
      have hempty : start.companionsBefore = false → run.ledger = ∅ :=
        fun hbefore => h.empty (hsame ▸ hbefore)
      refine ⟨hI.mono _ _ _ _ (hI.start h.keeps start hempty) (List.subset_append_left _ _),
        fun hdisabled => hempty ?_⟩
      cases hbefore : start.companionsBefore with
      | false => rfl
      | true => exact absurd ((hstay hbefore).symm.trans hdisabled) (by simp)
    · exact absurd hstep (by simp)

/-- A run keeps what the operations keep. -/
theorem RollupRun.Good.steps {I : GpuTables → Ledger → List HourKey → Prop} (hI : Maintained I)
    {run final : RollupRun} (h : run.Good I) {steps : List WriterStep}
    (hsteps : run.steps steps = some final) : final.Good I := by
  induction steps generalizing run with
  | nil => exact Option.some.inj hsteps ▸ h
  | cons step rest ih =>
    rw [RollupRun.steps, List.foldlM_cons] at hsteps
    obtain ⟨next, hstep, hrest⟩ := Option.bind_eq_some_iff.mp hsteps
    exact ih (h.step hI hstep) hrest

/-- A new database accounts for an empty ledger. -/
theorem RollupRun.create_good : RollupRun.create.Good GpuTables.Accounts :=
  ⟨GpuTables.accounts_empty, fun _ => rfl⟩

/-- Each sample is counted once. An hour that rollup retention did not delete is the aggregate
of the last written values of the points that were ever accepted in it, with a missing memory
maximum counted as zero. An expired point is never stored or recorded again. Where nothing
expired and the busy threshold never changed, a rollup rebuilt from the raw points has the
same rows, again with a missing memory maximum counted as zero. -/
structure RollupRun.CountsOnce (run : RollupRun) : Prop where
  hours : ∀ hour ∉ run.lost,
    (run.db.gpu.hourly.get? hour).map HourlyRow.nullAsZero = Ledger.row run.ledger hour
  expired : ∀ key entry, run.ledger.get? key = some entry →
    run.db.gpu.history.get? key = none → ∀ more final, run.steps more = some final →
    final.ledger.get? key = some entry ∧ final.db.gpu.history.get? key = none
  rebuild : ∀ busyPct, run.lost = [] →
    (∀ key entry, run.ledger.get? key = some entry →
      (run.db.gpu.history.get? key).isSome = true ∧ entry.busyPct = busyPct) →
    ∀ hour, ((run.db.gpu.rebuilt busyPct).hourly.get? hour).map HourlyRow.nullAsZero
      = (run.db.gpu.hourly.get? hour).map HourlyRow.nullAsZero

/-! ### The lost hours -/

/-- The clocks of the prunes of a step that may delete hours. -/
def WriterStep.prunes : WriterStep → List PruneClock
  | .batch _ trace => trace.prune.toList
  | .prune clock => [clock]
  | .restart _ => []

/-- An hour is lost when it has a row before and none after. -/
theorem GpuTables.mem_lostHours {before after : GpuTables} :
    hour ∈ before.lostHours after
      ↔ (before.hourly.get? hour).isSome = true ∧ (after.hourly.get? hour).isSome = false := by
  rw [GpuTables.lostHours, List.mem_filter, Dict.mem_keys, Dict.contains_eq, Bool.not_eq_true']

/-- A prune loses hours before its rollup cutoff only. -/
theorem lost_prune {backend : Backend} {clock : PruneClock}
    (h : hour ∈ db.gpu.lostHours (db.prune backend clock).gpu) :
    hour.2.2 < clock.rollupCutoff := by
  obtain ⟨hbefore, hafter⟩ := GpuTables.mem_lostHours.mp h
  by_contra hlate
  have hkept : (db.prune backend clock).gpu.hourly.get? hour = db.gpu.hourly.get? hour := by
    show (if backend.rollupsEnabled then (db.gpu.pruneRaw backend clock).pruneRollups
      clock.rollupCutoff else db.gpu.pruneRaw backend clock).hourly.get? hour = _
    split
    · rw [GpuTables.pruneRollups, Dict.get?_filterKeys, if_pos (by simpa using hlate),
        GpuTables.hourly_pruneRaw]
    · rw [GpuTables.hourly_pruneRaw]
  rw [hkept, hbefore] at hafter
  cases hafter

/-- A start loses no hour. -/
theorem lost_start (db : Database) (start : Startup) :
    db.gpu.lostHours (db.start start).gpu = [] := by
  rw [List.eq_nil_iff_forall_not_mem]
  intro hour h
  obtain ⟨hbefore, hafter⟩ := GpuTables.mem_lostHours.mp h
  obtain ⟨row, hrow⟩ := Option.isSome_iff_exists.mp hbefore
  have hkept : (db.start start).gpu.hourly.get? hour = some row := by
    have hraw : (db.prune { start.backend with
        companionsEnabled := start.companionsBefore, rollupsEnabled := false }
        start.clock).gpu.hourly = db.gpu.hourly := GpuTables.hourly_pruneRaw _ _ _
    unfold Database.start
    split
    · have hexpired : ∀ tables : GpuTables, tables.hourly = db.gpu.hourly →
          ((tables.gpuCutoff start.clock.cutoff).2.pruneGpu
            (tables.gpuCutoff start.clock.cutoff).1).hourly.get? hour = some row := by
        intro tables htables
        rw [(GpuTables.hourly_pruneGpu _ _).1]
        show tables.hourly.get? hour = some row
        rw [htables, hrow]
      have hlegacy := hexpired
        (if start.companionsBefore then _ else GpuTables.legacyMemoryBaseline _)
        (by split <;> exact hraw)
      dsimp only
      split
      · rw [GpuTables.ensureRollups, GpuTables.get?_rollupBackfill, hlegacy]
        rfl
      · exact hlegacy
    · rw [hraw, hrow]
  rw [hkept] at hafter
  cases hafter

/-- The hours that a step loses are before the rollup cutoff of one of its prunes. -/
theorem lost_step {run next : RollupRun} {step : WriterStep} (hstep : run.step step = some next)
    (h : hour ∈ next.lost) :
    hour ∈ run.lost ∨ ∃ clock ∈ step.prunes, hour.2.2 < clock.rollupCutoff := by
  cases step with
  | batch writes trace =>
    obtain rfl := Option.some.inj hstep
    refine (List.mem_append.mp h).imp_right fun hlost => ?_
    unfold BatchTrace.base at hlost
    split at hlost
    · next clock hfirst hprune =>
      exact ⟨clock, Option.mem_toList.mpr hprune, lost_prune hlost⟩
    · obtain ⟨hbefore, hafter⟩ := GpuTables.mem_lostHours.mp hlost
      rw [hbefore] at hafter
      cases hafter
  | prune clock =>
    obtain rfl := Option.some.inj hstep
    exact (List.mem_append.mp h).imp_right fun hlost =>
      ⟨clock, List.mem_cons_self, lost_prune hlost⟩
  | restart start =>
    rw [RollupRun.step] at hstep
    split at hstep
    · obtain rfl := Option.some.inj hstep
      refine (List.mem_append.mp h).imp_right fun hlost => ?_
      rw [lost_start] at hlost
      cases hlost
    · cases hstep

/-- The hours that a run loses are before the rollup cutoff of one of its prunes. -/
theorem lost_steps {run final : RollupRun} {steps : List WriterStep}
    (hsteps : run.steps steps = some final) (h : hour ∈ final.lost) :
    hour ∈ run.lost ∨ ∃ clock ∈ steps.flatMap WriterStep.prunes, hour.2.2 < clock.rollupCutoff := by
  induction steps generalizing run with
  | nil => exact .inl (Option.some.inj hsteps ▸ h)
  | cons step rest ih =>
    rw [RollupRun.steps, List.foldlM_cons] at hsteps
    obtain ⟨next, hstep, hrest⟩ := Option.bind_eq_some_iff.mp hsteps
    rw [List.flatMap_cons]
    obtain hnext | ⟨clock, hclock, hlt⟩ := ih hrest
    · exact (lost_step hstep hnext).imp_right fun hlost =>
        hlost.imp fun clock hclock => hclock.imp_left (List.mem_append_left _)
    · exact .inr ⟨clock, List.mem_append_right _ hclock, hlt⟩

/-- Every run from a new database counts each sample once, and the hours it lost are before the
rollup cutoff of a prune of the run. -/
theorem run_counts_once (steps : List WriterStep) (run : RollupRun)
    (hrun : RollupRun.create.steps steps = some run) :
    run.CountsOnce ∧ ∀ hour ∈ run.lost, ∃ clock ∈ steps.flatMap WriterStep.prunes,
      hour.2.2 < clock.rollupCutoff := by
  obtain ⟨haccounts, hempty⟩ := RollupRun.create_good.steps maintained_accounts hrun
  refine ⟨⟨fun hour hlost => haccounts.hourly_eq hlost,
    fun key entry hentry hmissing more final hmore => ?_,
    fun busyPct hlost hkept hour => ?_⟩,
    fun hour hlost => (lost_steps hrun hlost).resolve_left List.not_mem_nil⟩
  · have hexpired : run.Good (Expired key entry) :=
      ⟨⟨hentry, hmissing, haccounts.expired key entry hentry hmissing⟩, hempty⟩
    obtain ⟨hentry', hmissing', -⟩ := (hexpired.steps (maintained_expired key entry) hmore).keeps
    exact ⟨hentry', hmissing'⟩
  · rw [hlost] at haccounts
    have hrebuilt := haccounts.rebuild (fun key entry hentry => (hkept key entry hentry).1)
      fun key entry hentry => (hkept key entry hentry).2
    rw [hrebuilt.hourly_eq List.not_mem_nil, haccounts.hourly_eq List.not_mem_nil]

/-! ### Runs on fixed inputs -/

/-- A point of one device without a memory size. -/
private def bare (observedAt : String) (utilization : ℚ) : GpuPoint where
  gpuId := "g"
  index := 0
  observedAt := observedAt
  utilizationGpuPct := some utilization
  memoryUsedMib := none
  memoryTotalMib := none
  temperatureC := none
  powerDrawW := none

/-- The first start of a new database. -/
private def firstStart : WriterStep :=
  .restart
    { clock := ⟨"2026-01-01T00", "2025-10-01T00", true⟩
      companionsBefore := false, companionsEnabled := true, rollupsEnabled := true
      busyPct := 50 }

/-- A batch with the points of the host `a` under a clock. -/
private def measured (now : String) (points : List GpuPoint) : WriterStep :=
  .batch [.gpuTelemetry "a" points] ⟨.succeeds, now, none, .succeeds, now⟩

/-- A replaced point, an expiry under a later clock, an attempt to write the expired point
again under an earlier clock, and a restart. -/
theorem run_counts_once_replay :
    ∃ run, RollupRun.create.steps
        [firstStart, measured "2026-01-02T00" [bare "2026-01-03T04:05:06Z" 20],
          measured "2026-01-02T00" [bare "2026-01-03T04:05:06Z" 80, bare "2026-01-03T04:30:00Z" 10],
          .prune ⟨"2026-01-03T04:20", "2025-10-01T00", true⟩,
          measured "2026-01-01T00" [bare "2026-01-03T04:05:06Z" 20]] = some run
      ∧ run.CountsOnce
      ∧ run.db.gpu.hourly.get? ("a", "g", "2026-01-03T04:00:00Z")
        = some { samples := 2, utilizationSamples := 2, busySamples := 1, utilizationSum := 90
                 memorySamples := 0, memoryUsedSum := 0, memoryTotalMax := some 0 } := by
  have hread : (RollupRun.create.steps
      [firstStart, measured "2026-01-02T00" [bare "2026-01-03T04:05:06Z" 20],
        measured "2026-01-02T00" [bare "2026-01-03T04:05:06Z" 80, bare "2026-01-03T04:30:00Z" 10],
        .prune ⟨"2026-01-03T04:20", "2025-10-01T00", true⟩,
        measured "2026-01-01T00" [bare "2026-01-03T04:05:06Z" 20]]).map
      (fun run => run.db.gpu.hourly.get? ("a", "g", "2026-01-03T04:00:00Z"))
      = some (some
        { samples := 2, utilizationSamples := 2, busySamples := 1, utilizationSum := 90
          memorySamples := 0, memoryUsedSum := 0, memoryTotalMax := some 0 }) := by
    decide +kernel
  obtain ⟨run, hrun, hrow⟩ := Option.map_eq_some_iff.mp hread
  exact ⟨run, hrun, (run_counts_once _ run hrun).1, hrow⟩

/-- A column of doubles after some additions. -/
private def doubleSum (readings : List ℚ) : ℚ :=
  (readings.map nearest).foldl (fun sum reading => nearest (sum + reading)) 0

/-- Two points without a memory size. Counted one by one they leave the maximum zero, and
rebuilt from the raw points the maximum is missing. A column of doubles is no sum either: ten
readings of a tenth leave it below one. -/
theorem rebuild_shows_null :
    doubleSum (List.replicate 10 (1 / 10)) < 1
      ∧ ∃ run, RollupRun.create.steps [firstStart, measured "2026-01-02T00"
        [bare "2026-01-03T04:05:06Z" 20, bare "2026-01-03T04:30:00Z" 10]] = some run
      ∧ run.lost = []
      ∧ (run.ledger.entries.all fun e =>
          run.db.gpu.history.contains e.1 && e.2.busyPct == 50) = true
      ∧ run.db.gpu.hourly ≠ (run.db.gpu.rebuilt 50).hourly := by
  have hread : (RollupRun.create.steps [firstStart, measured "2026-01-02T00"
      [bare "2026-01-03T04:05:06Z" 20, bare "2026-01-03T04:30:00Z" 10]]).map
      (fun run => (run.lost.length,
        run.ledger.entries.all fun e =>
          run.db.gpu.history.contains e.1 && e.2.busyPct == 50,
        (run.db.gpu.hourly.get? ("a", "g", "2026-01-03T04:00:00Z")).map (·.memoryTotalMax),
        ((run.db.gpu.rebuilt 50).hourly.get? ("a", "g", "2026-01-03T04:00:00Z")).map
          (·.memoryTotalMax)))
      = some (0, true, some (some 0), some none) := by
    decide +kernel
  obtain ⟨run, hrun, hread⟩ := Option.map_eq_some_iff.mp hread
  simp only [Prod.mk.injEq] at hread
  obtain ⟨hlost, hstored, hcounted, hrebuilt⟩ := hread
  refine ⟨by decide +kernel, run, hrun, List.length_eq_zero_iff.mp hlost, hstored,
    fun heq => ?_⟩
  rw [heq, hrebuilt] at hcounted
  cases hcounted

end Mocop
