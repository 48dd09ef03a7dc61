import Mocop.Models
import Mocop.Lib.Dict
import Mathlib.Data.List.Dedup

/-!
# `Mocop.Persistence.Gpu`: the raw GPU points and their hourly rollup

The writer keeps the raw points of every device in `gpu_history` and aggregates them per
UTC hour in `gpu_hourly`, in the same transaction. `gpu_rollup_busy` remembers how each raw
point was counted, since the busy threshold can change between two runs.
`gpu_retired_memory` keeps the memory maximum of the points that expired, because a maximum
has no inverse. `gpu_retention` is the expiry boundary, which never moves backward.

`writeGpuPoints` replaces and aggregates points, `pruneGpu` expires raw points,
`pruneRollups` deletes old hours, and `ensureRollups` aggregates the raw hours that the
rollup has never seen.
-/

set_option autoImplicit false

namespace Mocop

/-- One GPU point of a telemetry write. The parser of the device query rejects a negative
memory size. -/
structure GpuPoint where
  gpuId : String
  index : ℕ
  observedAt : String
  utilizationGpuPct : Option ℚ
  memoryUsedMib : Option ℚ
  memoryTotalMib : Option ℚ
  temperatureC : Option ℚ
  powerDrawW : Option ℚ
  memoryTotal_nonneg : ∀ total ∈ memoryTotalMib, 0 ≤ total := by decide
  deriving DecidableEq

/-- The primary key of a raw point: host, device and time. -/
abbrev PointKey := String × String × String

/-- The primary key of an hour: host, device and the text of the hour. -/
abbrev HourKey := String × String × String

/-- `observed_at[:13]`, the UTC hour of a timestamp. -/
def hourPrefix (observedAt : String) : String := String.ofList (observedAt.toList.take 13)

/-- The text of the hour of a timestamp. -/
def hourOf (observedAt : String) : String := hourPrefix observedAt ++ ":00:00Z"

/-- The key of the hour of a raw point. -/
def PointKey.hour (key : PointKey) : HourKey := (key.1, key.2.1, hourOf key.2.2)

/-- A row of `gpu_hourly`, without its key. The code keeps the two sums as doubles; here they are
exact. -/
structure HourlyRow where
  samples : ℤ
  utilizationSamples : ℤ
  busySamples : ℤ
  utilizationSum : ℚ
  memorySamples : ℤ
  memoryUsedSum : ℚ
  memoryTotalMax : Option ℚ
  deriving DecidableEq

/-- The GPU tables. `history` also keeps the point itself under its key. -/
structure GpuTables where
  history : Dict PointKey GpuPoint
  busy : Dict PointKey ℤ
  hourly : Dict HourKey HourlyRow
  retiredMemory : Dict HourKey (Option ℚ)
  retention : Option String
  deriving DecidableEq

/-- The larger of two texts. -/
def laterText (a b : String) : String := if a < b then b else a

/-- `coalesce(value, 0)`. -/
def coalesce (value : Option ℚ) : ℚ := value.getD 0

/-- The two-argument `max` over `coalesce`. -/
def maxCoalesce (a b : Option ℚ) : Option ℚ := some (max (coalesce a) (coalesce b))

/-- The aggregate `max`, which skips NULL and is NULL without a value. -/
def sqlMax (values : List (Option ℚ)) : Option ℚ :=
  values.foldl
    (fun best value => match best, value with
      | some best, some value => some (max best value)
      | some best, none => some best
      | none, value => value) none

/-- An `UPDATE` of one row, which does nothing where the row is absent. -/
def Dict.modify {κ ν : Type} [DecidableEq κ] (d : Dict κ ν) (k : κ) (f : ν → ν) : Dict κ ν :=
  match d.get? k with
  | some value => d.set k (f value)
  | none => d

/-- What an `UPDATE` of one row leaves. -/
theorem Dict.get?_modify {κ ν : Type} [DecidableEq κ] (d : Dict κ ν) (k : κ) (f : ν → ν)
    (k' : κ) : (d.modify k f).get? k' = if k' = k then (d.get? k).map f else d.get? k' := by
  unfold Dict.modify
  cases h : d.get? k with
  | none =>
    dsimp only
    split
    · next heq => rw [heq, h, Option.map_none]
    · rfl
  | some value => rw [Dict.get?_set, Option.map_some]

/-- What one point contributes to its hour. -/
def rollupRow (point : GpuPoint) (busyPct : ℚ) : HourlyRow where
  samples := 1
  utilizationSamples := if point.utilizationGpuPct.isSome then 1 else 0
  busySamples := match point.utilizationGpuPct with
    | some utilization => if busyPct ≤ utilization then 1 else 0
    | none => 0
  utilizationSum := point.utilizationGpuPct.getD 0
  memorySamples := if point.memoryUsedMib.isSome then 1 else 0
  memoryUsedSum := point.memoryUsedMib.getD 0
  memoryTotalMax := point.memoryTotalMib

namespace HourlyRow

/-- The upsert of one contribution into an existing row. -/
def add (row contribution : HourlyRow) : HourlyRow where
  samples := row.samples + 1
  utilizationSamples := row.utilizationSamples + contribution.utilizationSamples
  busySamples := row.busySamples + contribution.busySamples
  utilizationSum := row.utilizationSum + contribution.utilizationSum
  memorySamples := row.memorySamples + contribution.memorySamples
  memoryUsedSum := row.memoryUsedSum + contribution.memoryUsedSum
  memoryTotalMax := maxCoalesce row.memoryTotalMax contribution.memoryTotalMax

/-- The removal of a replaced contribution, which was counted as `busy`. -/
def subtract (row contribution : HourlyRow) (busy : ℤ) : HourlyRow :=
  { row with
    samples := row.samples - 1
    utilizationSamples := row.utilizationSamples - contribution.utilizationSamples
    busySamples := row.busySamples - busy
    utilizationSum := row.utilizationSum - contribution.utilizationSum
    memorySamples := row.memorySamples - contribution.memorySamples
    memoryUsedSum := row.memoryUsedSum - contribution.memoryUsedSum }

end HourlyRow

namespace GpuTables

variable (tables : GpuTables)

/-- Moves the expiry boundary forward, never backward, and returns it. -/
def gpuCutoff (cutoff : String) : String × GpuTables :=
  let boundary := match tables.retention with
    | some stored => laterText stored cutoff
    | none => cutoff
  (boundary, { tables with retention := some boundary })

/-- The upsert of one point into its hour. -/
def upsertRollups (host : String) (point : GpuPoint) (busyPct : ℚ) : GpuTables :=
  let key := PointKey.hour (host, point.gpuId, point.observedAt)
  let contribution := rollupRow point busyPct
  { tables with
    hourly := tables.hourly.set key
      (match tables.hourly.get? key with
        | some row => row.add contribution
        | none => contribution) }

/-- The raw points of one device in one hour. -/
def pointsOf (key : HourKey) : List (PointKey × GpuPoint) :=
  tables.history.entries.filter
    (fun e => e.1.1 = key.1 && e.1.2.1 = key.2.1 && e.1.hour = key)

/-- The memory maximum of an hour, recomputed from its retained points and the maximum of
its expired ones. -/
def memoryMaximum (key : HourKey) : Option ℚ :=
  sqlMax (sqlMax ((tables.pointsOf key).map (fun e => e.2.memoryTotalMib))
    :: (match tables.retiredMemory.get? key with
      | some retired => [retired]
      | none => []))

/-- Writes one point. A point that replaces another one first takes the contribution of the
other one back, at the threshold under which it was counted. A replaced point without a
recorded threshold stays counted as it was. -/
def writeGpuPoint (host : String) (busyPct : Option ℚ) (point : GpuPoint) : GpuTables :=
  let key : PointKey := (host, point.gpuId, point.observedAt)
  let old := tables.history.get? key
  let stored := fun (tables : GpuTables) =>
    { tables with history := tables.history.set key point }
  match busyPct with
  | none => stored tables
  | some busyPct =>
    let aggregated := fun (tables : GpuTables) =>
      let tables := (stored tables).upsertRollups host point busyPct
      { tables with busy := tables.busy.set key (rollupRow point busyPct).busySamples }
    match old with
    | none => aggregated tables
    | some old =>
      match tables.busy.get? key with
      | none => stored tables
      | some busy =>
        let tables := { tables with
          hourly := tables.hourly.modify key.hour
            (fun row => row.subtract (rollupRow old busyPct) busy) }
        let tables := aggregated tables
        -- A maximum has no inverse, so it is computed anew.
        { tables with
          hourly := tables.hourly.modify key.hour
            (fun row => { row with memoryTotalMax := tables.memoryMaximum key.hour }) }

/-- Writes the points of one telemetry write. -/
def writeGpuPoints (host : String) (points : List GpuPoint) (busyPct : Option ℚ) :
    GpuTables :=
  points.foldl (fun tables point => tables.writeGpuPoint host busyPct point) tables

/-- Archives the memory maximum of the expired points of one hour. -/
def retireMemory (key : HourKey) (maximum : Option ℚ) : GpuTables :=
  { tables with
    retiredMemory := tables.retiredMemory.set key
      (match tables.retiredMemory.get? key with
        | some retired => maxCoalesce retired maximum
        | none => maximum) }

/-- Expires the raw points before the cutoff and archives their memory maxima. -/
def pruneGpu (cutoff : String) : GpuTables :=
  let expired := tables.history.entries.filter (fun e => e.1.2.2 < cutoff)
  let hours := (expired.map (fun e => e.1.hour)).dedup
  let maxima := hours.map (fun key =>
    (key, sqlMax ((expired.filter (fun e => e.1.hour = key)).map
      (fun e => e.2.memoryTotalMib))))
  let pruned := { tables with
    history := tables.history.filterKeys (fun key => !(key.2.2 < cutoff))
    busy := tables.busy.filterKeys (fun key => !(key.2.2 < cutoff)) }
  maxima.foldl (fun tables e => tables.retireMemory e.1 e.2) pruned

/-- Expires the raw points before the companion tables exist, where what remains fits. -/
def bootstrapGpuRetention (cutoff : String) (fits : Bool) : GpuTables :=
  if fits then
    let (boundary, tables) := tables.gpuCutoff cutoff
    { tables with history := tables.history.filterKeys (fun key => !(key.2.2 < boundary)) }
  else tables

/-- Takes the maxima of an older rollup over as those of its expired points. -/
def legacyMemoryBaseline : GpuTables :=
  { tables with
    retiredMemory := tables.hourly.entries.foldl
      (fun retired e => if retired.contains e.1 then retired
        else retired.set e.1 e.2.memoryTotalMax) tables.retiredMemory }

/-- Deletes the hours before the cutoff. -/
def pruneRollups (cutoff : String) : GpuTables :=
  { tables with
    retiredMemory := tables.retiredMemory.filterKeys (fun key => !(key.2.2 < cutoff))
    hourly := tables.hourly.filterKeys (fun key => !(key.2.2 < cutoff)) }

/-- The aggregate of the raw points of one hour. -/
def aggregate (points : List GpuPoint) (busyPct : ℚ) : HourlyRow where
  samples := points.length
  utilizationSamples := points.countP (fun point => point.utilizationGpuPct.isSome)
  busySamples := points.countP
    (fun point => point.utilizationGpuPct.any (fun utilization => busyPct ≤ utilization))
  utilizationSum := (points.map (fun point => point.utilizationGpuPct.getD 0)).sum
  memorySamples := points.countP (fun point => point.memoryUsedMib.isSome)
  memoryUsedSum := (points.map (fun point => point.memoryUsedMib.getD 0)).sum
  memoryTotalMax := sqlMax (points.map (·.memoryTotalMib))

/-- The raw points grouped by hour and aggregated, from a given time on. Hours that are
already there are left alone. -/
def rollupBackfill (busyPct : ℚ) (since : String) : GpuTables :=
  let rows := tables.history.entries.filter (fun e => since ≤ e.1.2.2)
  let hours := (rows.map (fun e => e.1.hour)).dedup
  { tables with
    hourly := hours.foldl
      (fun hourly key =>
        if hourly.contains key then hourly
        else hourly.set key
          (aggregate ((rows.filter (fun e => e.1.hour = key)).map Prod.snd) busyPct))
      tables.hourly }

/-- `SELECT max(hour) FROM gpu_hourly`. -/
def latestHour : Option String :=
  (tables.hourly.keys.map (fun key => key.2.2)).foldl
    (fun best hour => match best with
      | some best => some (laterText best hour)
      | none => some hour) none

/-- Aggregates at startup the raw hours that the rollup lacks. -/
def ensureRollups (busyPct : ℚ) : GpuTables :=
  tables.rollupBackfill busyPct (tables.latestHour.getD "")

end GpuTables

/-- The points that are not before the cutoff. -/
def filterGpuPoints (points : List GpuPoint) (cutoff : String) : List GpuPoint :=
  points.filter (fun point => cutoff ≤ point.observedAt)

end Mocop
