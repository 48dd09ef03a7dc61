import Mocop.Persistence.Incidents
import Mocop.Persistence.Gpu

/-!
# `Mocop.Persistence.Batches`: batch transactions and the criterion cache

The writer thread commits its queue in batches, one transaction a batch. Before an incident
write goes to the database, `prepareIncidentWrite` drops the criteria that the cache says
are already stored. The cache is batch-local until the transaction committed.

What SQLite makes of a transaction is not in the program: an `Attempt` says whether its
statements all succeed, or fail for lack of space, or fail otherwise. A failed transaction
changes nothing. After a failure for lack of space the writer prunes once and tries once
more.

A write of a plain history point and the process transitions of a telemetry write go to
tables of their own, which nothing here reads; such writes appear with the fields that the
batch itself reads.
-/

set_option autoImplicit false

namespace Mocop

attribute [local instance] lawfulBEq_identity

/-- The payloads of the write queue. -/
inductive Write where
  | history (host : String)
  | incident (event : IncidentEvent)
  | gpuTelemetry (host : String) (points : List GpuPoint)
  | incidentState (host : String) (events : List IncidentEvent)
      (criteria : List (String × Option ℚ))
  deriving DecidableEq

/-- The criterion that the cache holds for an open condition, by host and key. -/
abbrev CriteriaCache := Dict (String × String) (Option ℚ)

/-- The tables of the history database. -/
structure Database where
  incidents : IncidentTables
  gpu : GpuTables
  deriving DecidableEq

/-! ### Preparing an incident write -/

/-- The cache and the conditions resolved by the write, after one of its events. -/
def cacheEvent (state : CriteriaCache × List (String × String)) (event : IncidentEvent) :
    CriteriaCache × List (String × String) :=
  let identity := (event.host, event.condition.key)
  if event.state = .resolved then (state.1.erase identity, identity :: state.2)
  else (state.1.set identity event.condition.criticalAt, state.2.filter (· ≠ identity))

/-- What the database holds for one condition that the cache does not know:
`none` where the condition is not open. -/
def hydrate (tables : IncidentTables) (identity : String × String) :
    Option (Option (Option ℚ)) :=
  match tables.latest identity.1 identity.2 with
  | some (eventId, row) =>
    if row.state = .resolved then none else some (tables.criteria.get? eventId)
  | none => none

/-- Decides about one criterion: the cache afterwards, and whether it must be written. -/
def prepareCriterion (tables : IncidentTables) (host : String)
    (resolved : List (String × String)) (cache : CriteriaCache)
    (criterion : String × Option ℚ) : CriteriaCache × Bool :=
  let identity := (host, criterion.1)
  if identity ∈ resolved then (cache, false)
  else
    let hydrated : Option CriteriaCache :=
      if cache.contains identity then some cache
      else
        match hydrate tables identity with
        | none => none
        | some none => some cache
        | some (some stored) => some (cache.set identity stored)
    match hydrated with
    | none => (cache, false)
    | some cache =>
      if cache.get? identity ≠ some criterion.2 then
        (cache.set identity criterion.2, true)
      else (cache, false)

/-- The cache and the criteria to write, after one more criterion. -/
def prepareStep (tables : IncidentTables) (host : String)
    (resolved : List (String × String))
    (state : CriteriaCache × List (String × Option ℚ)) (criterion : String × Option ℚ) :
    CriteriaCache × List (String × Option ℚ) :=
  let decided := prepareCriterion tables host resolved state.1 criterion
  (decided.1, if decided.2 then state.2 ++ [criterion] else state.2)

/-- Drops the criteria of a write that are already stored. Only a batch-local cache is
changed. -/
def prepareIncidentWrite (tables : IncidentTables) (item : Write) (cache : CriteriaCache) :
    Write × CriteriaCache :=
  match item with
  | .incident event => (item, (cacheEvent (cache, []) event).1)
  | .incidentState host events criteria =>
    let afterEvents := events.foldl cacheEvent (cache, [])
    let prepared := criteria.foldl (prepareStep tables host afterEvents.2) (afterEvents.1, [])
    (.incidentState host events prepared.2, prepared.1)
  | _ => (item, cache)

/-! ### Writing -/

/-- Writes one item. -/
def Database.write (db : Database) (item : Write) (busyPct : Option ℚ) : Database :=
  match item with
  | .history _ => db
  | .incident event => { db with incidents := db.incidents.writeIncident event }
  | .gpuTelemetry host points =>
    { db with gpu := db.gpu.writeGpuPoints host points busyPct }
  | .incidentState host events criteria =>
    { db with
      incidents := (events.foldl (fun tables event => tables.writeIncident event)
        db.incidents).writeCriteria host criteria }

/-- The state of the backend outside the database. -/
structure Backend where
  companionsEnabled : Bool
  rollupsEnabled : Bool
  busyPct : ℚ
  criteriaCache : CriteriaCache
  droppedWrites : ℕ
  lastError : Option String

/-- Whether an item needs the companion tables. -/
def Write.needsCompanions : Write → Bool
  | .history _ => false
  | _ => true

/-- Whether an item carries GPU points. -/
def Write.hasPoints : Write → Bool
  | .gpuTelemetry _ points => points ≠ []
  | _ => false

/-- The item without the points before the expiry boundary, and whether any was dropped. A
batch without GPU points has no boundary. -/
def Write.retain (cutoff : Option String) (item : Write) : Write × Bool :=
  match item, cutoff with
  | .gpuTelemetry host points, some cutoff =>
    (.gpuTelemetry host (filterGpuPoints points cutoff), filterGpuPoints points cutoff ≠ points)
  | item, _ => (item, false)

/-- How an incident write is prepared. -/
abbrev Prepare := IncidentTables → Write → CriteriaCache → Write × CriteriaCache

/-- The state of a transaction: the database, the batch-local cache and the dropped writes. -/
structure Transaction where
  db : Database
  cache : CriteriaCache
  dropped : ℕ

/-- The transaction after one item. -/
def writeItem (prepare : Prepare) (busyPct : Option ℚ) (cutoff : Option String)
    (state : Transaction) (item : Write) : Transaction :=
  let retained := item.retain cutoff
  let prepared := prepare state.db.incidents retained.1 state.cache
  { db := state.db.write prepared.1 busyPct
    cache := prepared.2
    dropped := if retained.2 then state.dropped + 1 else state.dropped }

/-- The expiry boundary of a batch with GPU points, which moves with the clock. -/
def Database.boundary (db : Database) (now : String) (writes : List Write) :
    Option String × Database :=
  if writes.any (·.hasPoints) then
    (some (db.gpu.gpuCutoff now).1, { db with gpu := (db.gpu.gpuCutoff now).2 })
  else (none, db)

/-- What SQLite makes of one transaction. -/
inductive Attempt where
  | succeeds
  | failsFull
  | failsOther
  deriving DecidableEq, Repr

/-- The body of one transaction, where the guards let it run. `now` is the text of the
current time less the retention. -/
def attemptBatch (prepare : Prepare) (backend : Backend) (now : String) (db : Database)
    (writes : List Write) : Option Transaction :=
  if !backend.companionsEnabled && writes.any (·.needsCompanions) then none
  else if !backend.rollupsEnabled && writes.any (·.hasPoints) then none
  else
    let start := db.boundary now writes
    let busyPct := if backend.rollupsEnabled then some backend.busyPct else none
    some (writes.foldl (writeItem prepare busyPct start.1)
      { db := start.2, cache := backend.criteriaCache, dropped := 0 })

/-- What one prune reads from outside: the clock as the raw cutoff and the rollup cutoff, and
whether the raw retention fits before the companion tables exist. -/
structure PruneClock where
  cutoff : String
  rollupCutoff : String
  fits : Bool
  deriving DecidableEq

/-- Expires the raw GPU points. -/
def GpuTables.pruneRaw (gpu : GpuTables) (backend : Backend) (clock : PruneClock) : GpuTables :=
  if backend.companionsEnabled then
    (gpu.gpuCutoff clock.cutoff).2.pruneGpu (gpu.gpuCutoff clock.cutoff).1
  else gpu.bootstrapGpuRetention clock.cutoff clock.fits

/-- Deletes the expired records of every table. -/
def Database.prune (db : Database) (backend : Backend) (clock : PruneClock) : Database :=
  let incidents := db.incidents.pruneIncidents clock.cutoff backend.companionsEnabled
  let gpu := db.gpu.pruneRaw backend clock
  let gpu := if backend.rollupsEnabled then gpu.pruneRollups clock.rollupCutoff else gpu
  { incidents, gpu }

/-- What a start of the process reads from outside: the clock, whether the companion tables
exist before and after the migration, whether the rollup table could be created, and the
configured busy threshold. -/
structure Startup where
  clock : PruneClock
  companionsBefore : Bool
  companionsEnabled : Bool
  rollupsEnabled : Bool
  busyPct : ℚ
  deriving DecidableEq

/-- The backend of a new process: its cache is empty. -/
def Startup.backend (start : Startup) : Backend where
  companionsEnabled := start.companionsEnabled
  rollupsEnabled := start.companionsEnabled && start.rollupsEnabled
  busyPct := start.busyPct
  criteriaCache := ∅
  droppedWrites := 0
  lastError := if start.companionsEnabled && start.rollupsEnabled then none
    else some "hourly rollups wait for retention to free space"

/-- The database after the start of a process: pruned, migrated, with the raw hours that the
rollup lacks aggregated. -/
def Database.start (db : Database) (start : Startup) : Database :=
  let db := db.prune
    { start.backend with companionsEnabled := start.companionsBefore, rollupsEnabled := false }
    start.clock
  if start.companionsEnabled then
    let gpu := if start.companionsBefore then db.gpu else db.gpu.legacyMemoryBaseline
    let gpu := (gpu.gpuCutoff start.clock.cutoff).2.pruneGpu
      (gpu.gpuCutoff start.clock.cutoff).1
    { db with gpu := if start.rollupsEnabled then gpu.ensureRollups start.busyPct else gpu }
  else db

/-- What SQLite and the clock do during one batch: the first attempt, the prune after a
failure for lack of space (`none` where the prune fails), and the second attempt. -/
structure BatchTrace where
  first : Attempt
  firstNow : String
  prune : Option PruneClock
  second : Attempt
  secondNow : String
  deriving DecidableEq

/-- Counts the writes of a failed batch. -/
def Backend.drop (backend : Backend) (writes : List Write) : Backend :=
  { backend with
    droppedWrites := backend.droppedWrites + writes.length
    lastError := some "history database write failed" }

/-- Publishes the cache and the counters of a committed batch. -/
def Backend.publish (backend : Backend) (cache : CriteriaCache) (dropped : ℕ) : Backend :=
  { backend with
    criteriaCache := cache
    droppedWrites := backend.droppedWrites + dropped
    lastError := if dropped ≠ 0 then some "history write outside retention window" else none }

/-- One transaction: what it leaves, or how it fails. A guard fails like any other error. -/
def transact (prepare : Prepare) (backend : Backend) (attempt : Attempt) (now : String)
    (db : Database) (writes : List Write) : Except Attempt Transaction :=
  match attemptBatch prepare backend now db writes, attempt with
  | some result, .succeeds => .ok result
  | some _, failure => .error failure
  | none, _ => .error .failsOther

/-- Commits one batch and returns whether it is stored. Expired records may free enough
space, so a batch that failed for lack of it is tried once more after a prune. -/
def commitBatch (prepare : Prepare) (backend : Backend) (trace : BatchTrace) (db : Database)
    (writes : List Write) : Bool × Backend × Database :=
  match transact prepare backend trace.first trace.firstNow db writes with
  | .ok result => (true, backend.publish result.cache result.dropped, result.db)
  | .error .failsFull =>
    match trace.prune with
    | some clock =>
      let db := db.prune backend clock
      match transact prepare backend trace.second trace.secondNow db writes with
      | .ok result => (true, backend.publish result.cache result.dropped, result.db)
      | .error _ => (false, backend.drop writes, db)
    | none => (false, backend.drop writes, db)
  | .error _ => (false, backend.drop writes, db)

/-- One step of the history: a batch, a prune between two batches that succeeds, or the
start of a new process. -/
inductive WriterStep where
  | batch (writes : List Write) (trace : BatchTrace)
  | prune (clock : PruneClock)
  | restart (start : Startup)

/-- The backend and the database after one step. -/
def WriterStep.run (prepare : Prepare) (state : Backend × Database) :
    WriterStep → Backend × Database
  | .batch writes trace => (commitBatch prepare state.1 trace state.2 writes).2
  | .prune clock => (state.1, state.2.prune state.1 clock)
  | .restart start => (start.backend, state.2.start start)

end Mocop
