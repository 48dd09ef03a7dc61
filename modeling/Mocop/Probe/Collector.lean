import Mocop.Config
import Mocop.Probe.Payload

/-!
# `Mocop.Probe.Collector`: what the collector remembers of a host

`OpenSshLinuxResourceProbe` keeps four tables by host: the counters of the last sample, from
which rates are computed; the last process sample, which is shown until the next one is due;
whether a device was active since; and whether a process query has to be repeated.
`retainHosts` drops the records of other hosts.

A record is kept together with the incarnation of the host that it was made for. No function
of the collector reads the incarnation: it is there to say whose record a table holds.
-/

set_option autoImplicit false

namespace Mocop.Probe

/-- A record, and the incarnation of the host that it was made for. -/
structure Recorded (α : Type) where
  value : α
  origin : ℕ

/-- The counters of the last sample. -/
structure Baseline where
  observedMonotonic : ℚ
  cpuTotalTicks : ℚ
  cpuIdleTicks : ℚ
  networkRxBytes : ℚ
  networkTxBytes : ℚ
  diskReadBytes : ℚ
  diskWriteBytes : ℚ

/-- The last sample of the GPU processes. -/
structure ProcessSample where
  sampledAtMonotonic : ℚ
  observedAt : String
  workloadMode : String
  processesByGpu : Dict String (List GpuProcess)
  idleStreak : ℕ := 0

/-- The tables of the collector. -/
structure Collector where
  baselines : Dict String (Recorded Baseline) := ∅
  processSamples : Dict String (Recorded ProcessSample) := ∅
  activityHints : Dict String (Recorded Bool) := ∅
  processRetryForced : Dict String (Recorded Unit) := ∅
  attended : Bool := true

/-- The system metrics of one sample. -/
structure SystemMetrics where
  hostname : String
  uptimeSeconds : ℚ
  load1m : ℚ
  load5m : ℚ
  load15m : ℚ
  cpuCores : ℕ
  cpuUsagePct : Option ℚ
  memoryTotalMib : ℚ
  memoryUsedMib : ℚ
  memoryAvailableMib : ℚ
  swapTotalMib : ℚ
  swapUsedMib : ℚ
  diskTotalMib : ℚ
  diskUsedMib : ℚ
  networkRxBps : Option ℚ
  networkTxBps : Option ℚ
  diskReadBps : Option ℚ
  diskWriteBps : Option ℚ
  disks : List DiskMetrics
  pressure : Option PressureStallMetrics

/-- The result of one probe. -/
structure ProbeResult where
  host : String
  status : ProbeStatus
  latencyMs : ℤ
  gpus : List GpuMetrics := []
  message : Option String := none
  system : Option SystemMetrics := none
  transportRetries : ℕ := 0

def maxProcessIntervalStretch : ℕ := 4
def unattendedProcessIntervalStretch : ℕ := 16

namespace Collector

/-- Whether every record is of one of the hosts. -/
def within {α : Type} (table : Dict String (Recorded α)) (hosts : List String) : Bool :=
  table.keys.all (· ∈ hosts)

/-- Drops the records of the hosts that are not listed. -/
def retainHosts (collector : Collector) (hosts : List String) : Collector :=
  if within collector.baselines hosts ∧ within collector.processSamples hosts
      ∧ within collector.activityHints hosts ∧ within collector.processRetryForced hosts then
    collector
  else
    { collector with
      baselines := collector.baselines.filterKeys (· ∈ hosts)
      processSamples := collector.processSamples.filterKeys (· ∈ hosts)
      activityHints := collector.activityHints.filterKeys (· ∈ hosts)
      processRetryForced := collector.processRetryForced.filterKeys (· ∈ hosts) }

/-- Follows whether a dashboard is open. A viewer who comes back makes every cached host due. -/
def setAttended (collector : Collector) (attended : Bool) : Collector :=
  { collector with
    attended
    processRetryForced :=
      if attended ∧ collector.attended = false then
        collector.processSamples.entries.foldl
          (fun forced entry => forced.set entry.1 ⟨(), entry.2.origin⟩)
          collector.processRetryForced
      else collector.processRetryForced }

/-- The rate of a counter between two samples. -/
def rate (elapsed delta : ℚ) : Option ℚ :=
  if 0 < elapsed ∧ 0 ≤ delta then some (roundDigits (delta / elapsed) 1) else none

/-- The filesystems by device: of several mounts of one device the first counts. -/
def uniqueDisks (disks : List DiskMetrics) : Dict String DiskMetrics :=
  disks.foldl (fun unique disk =>
    if unique.contains disk.device then unique else unique.set disk.device disk) ∅

/-- The system metrics of a sample, with the rates since the host's last sample. -/
def systemMetrics (collector : Collector) (host : String) (origin : ℕ) (raw : RawSystemSample)
    (observedMonotonic : ℚ) : SystemMetrics × Collector :=
  let current : Baseline := {
    observedMonotonic
    cpuTotalTicks := raw.cpuTotalTicks
    cpuIdleTicks := raw.cpuIdleTicks
    networkRxBytes := raw.networkRxBytes
    networkTxBytes := raw.networkTxBytes
    diskReadBytes := raw.diskReadBytes
    diskWriteBytes := raw.diskWriteBytes }
  let previous := (collector.baselines.get? host).map (·.value)
  let since := fun counter : Baseline → ℚ => previous.bind fun last =>
    rate (current.observedMonotonic - last.observedMonotonic) (counter current - counter last)
  let cpuUsagePct := previous.bind fun last =>
    let totalDelta := current.cpuTotalTicks - last.cpuTotalTicks
    let idleDelta := current.cpuIdleTicks - last.cpuIdleTicks
    if 0 < totalDelta ∧ 0 ≤ idleDelta ∧ idleDelta ≤ totalDelta then
      some (roundDigits ((1 - idleDelta / totalDelta) * 100) 2)
    else none
  let memoryTotal := raw.memoryTotalKib / 1024
  let memoryAvailable := min memoryTotal (raw.memoryAvailableKib / 1024)
  let swapTotal := raw.swapTotalKib / 1024
  let swapFree := min swapTotal (raw.swapFreeKib / 1024)
  let disks := (uniqueDisks raw.disks).values
  ({ hostname := raw.hostname
     uptimeSeconds := roundDigits raw.uptimeSeconds 1
     load1m := raw.load1m
     load5m := raw.load5m
     load15m := raw.load15m
     cpuCores := raw.cpuCores
     cpuUsagePct
     memoryTotalMib := roundDigits memoryTotal 1
     memoryUsedMib := roundDigits (memoryTotal - memoryAvailable) 1
     memoryAvailableMib := roundDigits memoryAvailable 1
     swapTotalMib := roundDigits swapTotal 1
     swapUsedMib := roundDigits (swapTotal - swapFree) 1
     diskTotalMib := roundDigits (disks.map (·.totalMib)).sum 1
     diskUsedMib := roundDigits (disks.map (·.usedMib)).sum 1
     networkRxBps := since (·.networkRxBytes)
     networkTxBps := since (·.networkTxBytes)
     diskReadBps := since (·.diskReadBytes)
     diskWriteBps := since (·.diskWriteBytes)
     disks := raw.disks
     pressure := raw.pressure },
   { collector with baselines := collector.baselines.set host ⟨current, origin⟩ })

/-- Whether the next probe of a host asks for its processes. -/
def processesDue (collector : Collector) (host : String) (now intervalSeconds : ℚ)
    (workloadMode : String) : Bool :=
  let active := ((collector.activityHints.get? host).map (·.value)).getD false
  match (collector.processSamples.get? host).map (·.value) with
  | none => true
  | some sample =>
    if collector.processRetryForced.contains host ∨ sample.workloadMode ≠ workloadMode then true
    else if collector.attended = false then
      intervalSeconds * unattendedProcessIntervalStretch ≤ now - sample.sampledAtMonotonic
    else
      let stretch : ℕ :=
        if sample.idleStreak ≠ 0 ∧ active = false then
          min (2 ^ sample.idleStreak) maxProcessIntervalStretch
        else 1
      intervalSeconds * stretch ≤ now - sample.sampledAtMonotonic

/-- Whether a device shows activity. Unknown values count as activity. -/
def gpuActivity (gpus : List GpuMetrics) (thresholds : ThresholdConfig) : Bool :=
  gpus.any fun gpu =>
    gpu.processes ≠ [] ||
    gpu.utilizationGpuPct.all (fun utilization => thresholds.gpuBusyPct ≤ utilization) ||
    match gpu.memoryUsedMib, gpu.memoryTotalMib with
    | some used, some total =>
      total == 0 || decide (thresholds.gpuIdleMemoryPct ≤ used / total * 100)
    | _, _ => true

/-- A GPU of a sample without processes of its own, while nothing is cached for it. -/
def withoutProcesses (gpu : GpuMetrics) : GpuMetrics :=
  { gpu with
    processes := []
    processesAvailable := false
    processesSampled := false
    processesObservedAt := none }

/-- Takes in the processes of a sample, or shows the cached ones. -/
def mergeProcessSample (collector : Collector) (host : String) (origin : ℕ)
    (gpus : List GpuMetrics) (processSampled processesAvailable : Bool)
    (sampledAtMonotonic : ℚ) (observedAt workloadMode : String) (thresholds : ThresholdConfig) :
    List GpuMetrics × Collector :=
  let activity := gpuActivity gpus thresholds
  let hint := ((collector.activityHints.get? host).map (·.value)).getD false
  if processSampled ∧ processesAvailable then
    let processesByGpu := Dict.ofList (gpus.map fun gpu => (gpu.uuid, gpu.processes))
    let sampledIdle := processesByGpu.values.all (· == [])
    let previous := (collector.processSamples.get? host).map (·.value)
    let idleStreak := match previous with
      | some last => if sampledIdle then last.idleStreak + 1 else 0
      | none => if sampledIdle then 1 else 0
    (gpus.map fun gpu => { gpu with processesObservedAt := some observedAt },
      { collector with
        processSamples := collector.processSamples.set host
          ⟨{ sampledAtMonotonic, observedAt, workloadMode, processesByGpu, idleStreak }, origin⟩
        activityHints := collector.activityHints.set host ⟨activity, origin⟩
        processRetryForced := collector.processRetryForced.erase host })
  else if processSampled then
    (gpus.map fun gpu => { gpu with processesObservedAt := none },
      { collector with
        activityHints := collector.activityHints.set host ⟨hint || activity, origin⟩
        processRetryForced := collector.processRetryForced.set host ⟨(), origin⟩ })
  else
    let collector := { collector with
      activityHints := collector.activityHints.set host ⟨hint || activity, origin⟩ }
    match (collector.processSamples.get? host).map (·.value) with
    | none => (gpus.map withoutProcesses, collector)
    | some sample =>
      (gpus.map fun gpu =>
        match sample.processesByGpu.get? gpu.uuid with
        | none => withoutProcesses gpu
        | some processes =>
          { gpu with
            processes
            processesAvailable := true
            processesSampled := false
            processesObservedAt := some sample.observedAt }, collector)

/-! ### Whose records a table holds -/

/-- The incarnations that a table has records of a host for. -/
def originsIn {α : Type} (table : Dict String (Recorded α)) (host : String) : List ℕ :=
  ((table.get? host).map (·.origin)).toList

/-- The incarnations that the collector has records of a host for. -/
def origins (collector : Collector) (host : String) : List ℕ :=
  originsIn collector.baselines host ++ originsIn collector.processSamples host
    ++ originsIn collector.activityHints host ++ originsIn collector.processRetryForced host

section
variable {α : Type} {table : Dict String (Recorded α)} {host other : String} {n origin : ℕ}

theorem mem_originsIn : n ∈ originsIn table host ↔ ∃ record, table.get? host = some record
    ∧ record.origin = n := by
  rw [originsIn, Option.mem_toList, Option.map_eq_some_iff]

/-- A record that is written is of its writer, the others are those of before. -/
theorem mem_originsIn_set {value : α} (h : n ∈ originsIn (table.set host ⟨value, origin⟩) other) :
    (other = host ∧ n = origin) ∨ n ∈ originsIn table other := by
  obtain ⟨record, hget, rfl⟩ := mem_originsIn.mp h
  rw [Dict.get?_set] at hget
  split at hget
  · rename_i heq
    cases hget
    exact .inl ⟨heq, rfl⟩
  · exact .inr (mem_originsIn.mpr ⟨record, hget, rfl⟩)

/-- A filtered table has records of the hosts that pass. -/
theorem mem_originsIn_filterKeys {p : String → Bool}
    (h : n ∈ originsIn (table.filterKeys p) other) : p other = true ∧ n ∈ originsIn table other := by
  obtain ⟨record, hget, rfl⟩ := mem_originsIn.mp h
  rw [Dict.get?_filterKeys] at hget
  split at hget
  · rename_i hp
    exact ⟨hp, mem_originsIn.mpr ⟨record, hget, rfl⟩⟩
  · cases hget

/-- A table without the record of one host. -/
theorem mem_originsIn_erase (h : n ∈ originsIn (table.erase host) other) :
    other ≠ host ∧ n ∈ originsIn table other := by
  obtain ⟨record, hget, rfl⟩ := mem_originsIn.mp h
  rw [Dict.get?_erase] at hget
  split at hget
  · cases hget
  · rename_i hne
    exact ⟨hne, mem_originsIn.mpr ⟨record, hget, rfl⟩⟩

/-- A table within the hosts has records of these only. -/
theorem mem_of_within {hosts : List String} (hwithin : within table hosts = true)
    (h : n ∈ originsIn table other) : other ∈ hosts := by
  obtain ⟨record, hget, -⟩ := mem_originsIn.mp h
  have hkey : other ∈ table.keys := (Dict.mem_keys table other).mpr (by rw [hget]; rfl)
  exact of_decide_eq_true (List.all_eq_true.mp hwithin other hkey)

end

section
variable {collector : Collector} {host other : String} {n origin : ℕ}

theorem mem_origins : n ∈ collector.origins host ↔
    n ∈ originsIn collector.baselines host ∨ n ∈ originsIn collector.processSamples host
      ∨ n ∈ originsIn collector.activityHints host
      ∨ n ∈ originsIn collector.processRetryForced host := by
  rw [origins, List.mem_append, List.mem_append, List.mem_append, or_assoc, or_assoc]

/-- Only records of the listed hosts are retained. -/
theorem mem_origins_retainHosts {hosts : List String}
    (h : n ∈ (collector.retainHosts hosts).origins host) :
    host ∈ hosts ∧ n ∈ collector.origins host := by
  unfold retainHosts at h
  split at h
  · rename_i hwithin
    obtain ⟨hbaselines, hsamples, hhints, hforced⟩ := hwithin
    refine ⟨?_, h⟩
    rcases mem_origins.mp h with hin | hin | hin | hin
    · exact mem_of_within hbaselines hin
    · exact mem_of_within hsamples hin
    · exact mem_of_within hhints hin
    · exact mem_of_within hforced hin
  · rcases mem_origins.mp h with hin | hin | hin | hin
    · obtain ⟨hhost, hin⟩ := mem_originsIn_filterKeys hin
      exact ⟨of_decide_eq_true hhost, mem_origins.mpr (.inl hin)⟩
    · obtain ⟨hhost, hin⟩ := mem_originsIn_filterKeys hin
      exact ⟨of_decide_eq_true hhost, mem_origins.mpr (.inr (.inl hin))⟩
    · obtain ⟨hhost, hin⟩ := mem_originsIn_filterKeys hin
      exact ⟨of_decide_eq_true hhost, mem_origins.mpr (.inr (.inr (.inl hin)))⟩
    · obtain ⟨hhost, hin⟩ := mem_originsIn_filterKeys hin
      exact ⟨of_decide_eq_true hhost, mem_origins.mpr (.inr (.inr (.inr hin)))⟩

/-- A forced refresh is of a host with a cached sample, for the same incarnation. -/
theorem mem_origins_setAttended {attended : Bool}
    (h : n ∈ (collector.setAttended attended).origins host) : n ∈ collector.origins host := by
  have hfold : ∀ (entries : List (String × Recorded ProcessSample))
      (forced : Dict String (Recorded Unit)),
      n ∈ originsIn (entries.foldl
        (fun forced entry => forced.set entry.1 ⟨(), entry.2.origin⟩) forced) host →
      (∃ record, (host, record) ∈ entries ∧ record.origin = n) ∨ n ∈ originsIn forced host := by
    intro entries
    induction entries with
    | nil => exact fun forced hin => .inr hin
    | cons entry rest ih =>
      intro forced hin
      rcases ih _ hin with ⟨record, hmem, horigin⟩ | hin
      · exact .inl ⟨record, List.mem_cons_of_mem _ hmem, horigin⟩
      · rcases mem_originsIn_set hin with ⟨rfl, rfl⟩ | hin
        · exact .inl ⟨entry.2, List.mem_cons_self, rfl⟩
        · exact .inr hin
  rcases mem_origins.mp h with hin | hin | hin | hin
  · exact mem_origins.mpr (.inl hin)
  · exact mem_origins.mpr (.inr (.inl hin))
  · exact mem_origins.mpr (.inr (.inr (.inl hin)))
  · unfold setAttended at hin
    dsimp only at hin
    split at hin
    · rcases hfold _ _ hin with ⟨record, hmem, horigin⟩ | hin
      · have hget := (Dict.get?_eq_some_iff collector.processSamples host record).mpr hmem
        exact mem_origins.mpr (.inr (.inl (mem_originsIn.mpr ⟨record, hget, horigin⟩)))
      · exact mem_origins.mpr (.inr (.inr (.inr hin)))
    · exact mem_origins.mpr (.inr (.inr (.inr hin)))

/-- A system sample records its counters for its own incarnation. -/
theorem mem_origins_systemMetrics {raw : RawSystemSample} {observedMonotonic : ℚ}
    (h : n ∈ (collector.systemMetrics host origin raw observedMonotonic).2.origins other) :
    (other = host ∧ n = origin) ∨ n ∈ collector.origins other := by
  rcases mem_origins.mp h with hin | hin | hin | hin
  · exact (mem_originsIn_set hin).imp_right fun hin => mem_origins.mpr (.inl hin)
  · exact .inr (mem_origins.mpr (.inr (.inl hin)))
  · exact .inr (mem_origins.mpr (.inr (.inr (.inl hin))))
  · exact .inr (mem_origins.mpr (.inr (.inr (.inr hin))))

/-- So does a process sample. -/
theorem mem_origins_mergeProcessSample {gpus : List GpuMetrics} {sampled available : Bool}
    {sampledAt : ℚ} {observedAt mode : String} {thresholds : ThresholdConfig}
    (h : n ∈ (collector.mergeProcessSample host origin gpus sampled available sampledAt observedAt
      mode thresholds).2.origins other) :
    (other = host ∧ n = origin) ∨ n ∈ collector.origins other := by
  have hhint : ∀ {value : Bool}, n ∈ originsIn (collector.activityHints.set host
      ⟨value, origin⟩) other → (other = host ∧ n = origin) ∨ n ∈ collector.origins other := by
    intro value hin
    exact (mem_originsIn_set hin).imp_right fun hin => mem_origins.mpr (.inr (.inr (.inl hin)))
  unfold mergeProcessSample at h
  dsimp only at h
  split at h
  · rcases mem_origins.mp h with hin | hin | hin | hin
    · exact .inr (mem_origins.mpr (.inl hin))
    · exact (mem_originsIn_set hin).imp_right fun hin => mem_origins.mpr (.inr (.inl hin))
    · exact hhint hin
    · exact .inr (mem_origins.mpr (.inr (.inr (.inr (mem_originsIn_erase hin).2))))
  · split at h
    · rcases mem_origins.mp h with hin | hin | hin | hin
      · exact .inr (mem_origins.mpr (.inl hin))
      · exact .inr (mem_origins.mpr (.inr (.inl hin)))
      · exact hhint hin
      · exact (mem_originsIn_set hin).imp_right fun hin =>
          mem_origins.mpr (.inr (.inr (.inr hin)))
    · -- Without a query only the hint changes, whatever is cached.
      have hcollector : n ∈ ({ collector with
          activityHints := collector.activityHints.set host
            ⟨((collector.activityHints.get? host).map (·.value)).getD false
              || gpuActivity gpus thresholds, origin⟩ } : Collector).origins other := by
        split at h
        · exact h
        · exact h
      rcases mem_origins.mp hcollector with hin | hin | hin | hin
      · exact .inr (mem_origins.mpr (.inl hin))
      · exact .inr (mem_origins.mpr (.inr (.inl hin)))
      · exact hhint hin
      · exact .inr (mem_origins.mpr (.inr (.inr (.inr hin))))

end

end Collector

end Mocop.Probe
