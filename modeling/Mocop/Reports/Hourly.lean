import Mocop.Reports.Usage
import Mocop.Persistence.Gpu

/-!
# `Mocop.Reports.Hourly`: the reports over the history database

`usageReport` aggregates the persisted transitions and classifies the runs by the hourly
rollup. `UtilizationDocument` is the hourly series of the fleet and of each subject. An hour
without utilization samples has no busy share.
-/

set_option autoImplicit false

namespace Mocop

/-! ### Classification by hours -/

/-- A bucket of one device: the start of the hour, its utilization samples and the busy
ones among them. -/
abbrev HourBucket := ℚ × ℤ × ℤ

/-- The order of the buckets of a device. -/
def bucketLe (a b : HourBucket) : Bool :=
  if a.1 ≠ b.1 then a.1 < b.1
  else if a.2.1 ≠ b.2.1 then a.2.1 < b.2.1 else a.2.2 ≤ b.2.2

/-- Adds the part of an interval inside one hour to its sampled and idle seconds. -/
def addBucket (interval : Interval) (seconds : ℚ × ℚ) (bucket : HourBucket) : ℚ × ℚ :=
  let overlap := min interval.end_ (bucket.1 + 3600) - max interval.start bucket.1
  if 0 < overlap ∧ 0 < bucket.2.1 then
    (seconds.1 + overlap, seconds.2 + overlap * (1 - bucket.2.2 / bucket.2.1))
  else seconds

/-- Fills the sampled and idle seconds from hourly buckets. -/
def classifyHourly (buckets : List HourBucket) (intervals : List Interval) : List Interval :=
  if buckets = [] then intervals
  else
    intervals.map fun interval =>
      -- The bucket before the first that starts inside may still reach into the interval.
      let position := bisectLeft (buckets.map (·.1)) interval.start - 1
      let seconds := ((buckets.drop position).takeWhile fun bucket =>
        decide (bucket.1 < interval.end_)).foldl (addBucket interval) (0, 0)
      { interval with sampledSeconds := seconds.1, idleSeconds := seconds.2 }

/-! ### Days -/

/-- The seconds of every owner by day. -/
abbrev DayTotals := Dict String (Dict (Option String) ℚ)

/-- Adds seconds of an owner to a day. -/
def DayTotals.add (days : DayTotals) (day : String) (owner : Option String) (seconds : ℚ) :
    DayTotals :=
  Dict.set days day
    ((Dict.getD days day ∅).set owner ((Dict.getD days day ∅).getD owner 0 + seconds))

/-- The end of the UTC day of a time. -/
def dayEnd (epoch : ℚ) : ℚ := (⌊epoch / 86400⌋ + 1) * 86400

/-- The next day starts where a day ends. -/
theorem floor_dayEnd (epoch : ℚ) : ⌊dayEnd epoch / 86400⌋ = ⌊epoch / 86400⌋ + 1 := by
  have hcast : ((⌊epoch / 86400⌋ : ℚ) + 1) = ((⌊epoch / 86400⌋ + 1 : ℤ) : ℚ) := by push_cast; rfl
  unfold dayEnd
  rw [mul_div_assoc, div_self (by norm_num), mul_one, hcast, Int.floor_intCast]

/-- Splits the seconds from a time on by day. -/
def splitSegment (dayOf : ℚ → String) (owner : Option String) (end_ : ℚ) (cursor : ℚ)
    (days : DayTotals) : DayTotals :=
  if cursor < end_ then
    let segmentEnd := min end_ (dayEnd cursor)
    splitSegment dayOf owner end_ segmentEnd
      (days.add (dayOf cursor) owner (segmentEnd - cursor))
  else days
termination_by
  ((⌊end_ / 86400⌋ - ⌊cursor / 86400⌋ + 1).toNat, if cursor < end_ then 1 else 0)
decreasing_by
  next h =>
    rcases le_or_gt end_ (dayEnd cursor) with hle | hgt
    · -- The last day: the rest of the interval is empty.
      have hfloor : ⌊cursor / 86400⌋ ≤ ⌊end_ / 86400⌋ :=
        Int.floor_le_floor (by
          rw [div_le_div_iff_of_pos_right (by norm_num)]
          exact h.le)
      rw [min_eq_left hle, if_pos h, if_neg (lt_irrefl _)]
      rcases Nat.lt_or_ge (⌊end_ / 86400⌋ - ⌊end_ / 86400⌋ + 1).toNat
          (⌊end_ / 86400⌋ - ⌊cursor / 86400⌋ + 1).toNat with hlt | hge
      · exact Prod.Lex.left _ _ hlt
      · have heq : (⌊end_ / 86400⌋ - ⌊end_ / 86400⌋ + 1).toNat
            = (⌊end_ / 86400⌋ - ⌊cursor / 86400⌋ + 1).toNat := by omega
        rw [heq]
        exact Prod.Lex.right _ Nat.zero_lt_one
    · have hfloor : ⌊cursor / 86400⌋ + 1 ≤ ⌊end_ / 86400⌋ := by
        rw [← floor_dayEnd]
        refine Int.floor_le_floor ?_
        rw [div_le_div_iff_of_pos_right (by norm_num)]
        exact hgt.le
      rw [min_eq_right hgt.le, floor_dayEnd]
      exact Prod.Lex.left _ _ (by omega)

/-- Splits the merged intervals of an owner by day. -/
def splitByDay (dayOf : ℚ → String) (days : DayTotals)
    (entry : Option String × List Interval) : DayTotals :=
  entry.2.foldl (fun days interval =>
    splitSegment dayOf entry.1 interval.end_ interval.start days) days

/-- Whether an owner of a day is listed before another. -/
def dayOwnerLe (a b : Option String × ℚ) : Bool :=
  if a.2 ≠ b.2 then b.2 < a.2
  else if a.1.isNone ≠ b.1.isNone then b.1.isNone
  else decide (a.1.getD "" ≤ b.1.getD "")

/-- One listed day. -/
def usageDay (entry : String × Dict (Option String) ℚ) : UsageDay where
  day := entry.1
  gpuSeconds := roundDigits entry.2.values.sum 1
  owners := (entry.2.entries.mergeSort dayOwnerLe).map fun owner =>
    (owner.1, roundDigits owner.2 1)

/-! ### The usage report -/

/-- A row of `gpu_hourly` with its key. -/
abbrev KeyedHourlyRow := HourKey × HourlyRow

/-- What the history database contributes to a report. -/
structure ReportInputs where
  transitions : Dict GpuKey (List ProcessTransition)
  hourly : List KeyedHourlyRow
  retentionHours : ℕ

/-- The buckets of one device, sorted by hour. -/
def deviceBuckets (epochSeconds : String → Option ℚ) (rows : List KeyedHourlyRow)
    (key : GpuKey) : List HourBucket :=
  (rows.filterMap fun row =>
    if (row.1.1, row.1.2.1) = key then
      (epochSeconds row.1.2.2).map fun epoch =>
        (epoch, row.2.utilizationSamples, row.2.busySamples)
    else none).mergeSort bucketLe

section Report

variable (epochSeconds : String → Option ℚ) (iso dayOf : ℚ → String)
variable (now : ℚ) (windowHours : ℕ)

/-- The devices of a history report: the persisted transitions and the live tables. -/
def reportDevices (inputs : ReportInputs)
    (activeByGpu : Dict GpuKey (Dict ProcessKey GpuProcess))
    (observedUntilByGpu : Dict GpuKey String) : Dict GpuKey DeviceUsage :=
  Dict.ofList ((inputs.transitions.keys ++ activeByGpu.keys).map fun key =>
    (key,
      { events := inputs.transitions.getD key []
        active := activeByGpu.getD key ∅
        observedUntil := observedUntilByGpu.get? key
        utilization := [] }))

/-- Per-owner occupancy from persisted transitions and hourly rollups. -/
def usageReport (ownerLimit : ℕ) (busyPct : ℚ) (inputs : ReportInputs)
    (activeByGpu : Dict GpuKey (Dict ProcessKey GpuProcess))
    (observedUntilByGpu : Dict GpuKey String) : Except Raised UsageDocument := do
  let totals ← usageTotals epochSeconds now windowHours busyPct none
    (some fun intervals key =>
      classifyHourly (deviceBuckets epochSeconds inputs.hourly key) intervals)
    (reportDevices inputs activeByGpu observedUntilByGpu)
  let report := usageDocument iso now windowHours ownerLimit busyPct "hour" totals
  let days := totals.merged.foldl (splitByDay dayOf) ∅
  return { report with
    source := some "history"
    retentionHours := some inputs.retentionHours
    coveredFromAt :=
      some (iso (max (now - windowHours * 3600) (now - inputs.retentionHours * 3600)))
    days := some ((days.entries.mergeSort fun a b => a.1 ≤ b.1).map usageDay) }

end Report

/-! ### The document of the utilization report -/

/-- One hour of the report. -/
structure HourPoint where
  hour : String
  gpus : ℕ
  samples : ℤ
  busyShare : Option ℚ
  utilizationAvgPct : Option ℚ
  memoryUsedAvgMib : Option ℚ
  memoryTotalMib : Option ℚ

/-- The utilization report. `subjects` are the hosts, or the devices of one host. -/
structure UtilizationDocument where
  generatedAt : String
  sinceAt : String
  windowHours : ℕ
  resolution : String
  host : Option String
  fleet : List HourPoint
  subjects : List (String × List HourPoint)

end Mocop
