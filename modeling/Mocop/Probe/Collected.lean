import Mocop.Probe.Collector
import Mocop.Probe.Grammar

/-!
# `Mocop.Probe.Collected`: what an accepted payload can say

The end of `probe` makes a result of an accepted payload (`acceptedResult`): the counters and
the processes of the host are taken in, and the records are those that the state store and the
incident policy read. The records of this directory hold every field of the payload, those of
`Mocop.Models` the ones that are read later (`observed`).

The parser bounds what it accepts. A text is cut or refused, a number outside its range is
refused, and so is a GPU row too many. Each bound is carried through the loop that reads the
rows, as an invariant of what has been read so far, and `within_acceptedResult` collects them
for the result.
-/

set_option autoImplicit false

namespace Mocop.Probe

/-! ### The result of a probe -/

/-- The health block that the policy reads. -/
def GpuHealthMetrics.observed (health : GpuHealthMetrics) : Mocop.GpuHealthMetrics where
  eccUncorrectedVolatile := health.eccUncorrectedVolatile
  retiredPagesPending := health.retiredPagesPending
  remappedRowsPending := health.remappedRowsPending
  thermalSlowdown := health.thermalSlowdown
  powerBrakeSlowdown := health.powerBrakeSlowdown

/-- The metrics of a GPU that are read later. -/
def GpuMetrics.observed (gpu : GpuMetrics) : Mocop.GpuMetrics where
  index := gpu.index
  uuid := gpu.uuid
  name := gpu.name
  temperatureC := gpu.temperatureC
  utilizationGpuPct := gpu.utilizationGpuPct
  memoryTotalMib := gpu.memoryTotalMib
  memoryUsedMib := gpu.memoryUsedMib
  powerDrawW := gpu.powerDrawW
  processes := gpu.processes
  processesAvailable := gpu.processesAvailable
  processesSampled := gpu.processesSampled
  processesObservedAt := gpu.processesObservedAt
  health := gpu.health.map (·.observed)

/-- The averages that the policy reads. -/
def PressureStallMetrics.observed (pressure : PressureStallMetrics) :
    Mocop.PressureStallMetrics where
  memory := pressure.memory.map fun sample => ⟨sample.someAvg60⟩
  io := pressure.io.map fun sample => ⟨sample.someAvg60⟩

/-- The fields of a filesystem that the policy reads. -/
def DiskMetrics.observed (disk : DiskMetrics) : Mocop.DiskMetrics where
  device := disk.device
  filesystemType := disk.filesystemType
  mountpoint := disk.mountpoint
  availableMib := disk.availableMib
  usedPct := disk.usedPct

/-- The system metrics that the policy reads. -/
def SystemMetrics.observed (system : SystemMetrics) : Mocop.SystemMetrics where
  cpuUsagePct := system.cpuUsagePct
  memoryTotalMib := system.memoryTotalMib
  memoryUsedMib := system.memoryUsedMib
  swapTotalMib := system.swapTotalMib
  swapUsedMib := system.swapUsedMib
  disks := system.disks.map (·.observed)
  pressure := system.pressure.map (·.observed)

/-- The end of `probe`: the result of a host whose output is accepted. -/
def acceptedResult (collector : Collector) (host : String) (origin : ℕ) (parsed : ParsedResource)
    (started observedMonotonic : ℚ) (processSampled : Bool) (observedAt workloadMode : String)
    (thresholds : ThresholdConfig) (transportRetries : ℕ) : Mocop.ProbeResult :=
  let system := collector.systemMetrics host origin parsed.system observedMonotonic
  let merged := system.2.mergeProcessSample host origin parsed.gpus processSampled
    parsed.processesAvailable started observedAt workloadMode thresholds
  { host
    status := .online
    latencyMs := (roundHalfEven ((observedMonotonic - started) * 1000)).toNat
    gpus := merged.1.map (·.observed)
    message := parsed.gpuMessage
    observedAt
    system := some system.1.observed
    transportRetries }

/-! ### Bounds -/

/-- A share in percent. -/
def IsShare (value : ℚ) : Prop := 0 ≤ value ∧ value ≤ 100

/-- What the parser cuts a filesystem to. -/
structure DiskMetrics.Within (disk : DiskMetrics) : Prop where
  device : disk.device.length ≤ 255
  filesystemType : disk.filesystemType.length ≤ 64
  mountpoint : disk.mountpoint.length ≤ 512

/-- What the parser demands of a GPU row. -/
structure GpuMetrics.Within (gpu : GpuMetrics) : Prop where
  index : gpu.index ≤ 65535
  uuid : gpu.uuid.length ≤ 128
  utilization : ∀ value, gpu.utilizationGpuPct = some value → IsShare value

/-- What the parser demands of the GPU rows together. -/
structure GpusWithin (gpus : List GpuMetrics) : Prop where
  length_le : gpus.length ≤ maxGpusPerHost
  each : ∀ gpu ∈ gpus, gpu.Within

/-- The longest message about a GPU query. -/
def maxGpuMessage : ℕ := 64

variable {convert : Conversions} {dialect : Csv.Dialect}

/-! ### Values -/

/-- A number within a range. -/
theorem optionalNumber_within {value label : String} {minimum maximum result : ℚ}
    (h : optionalNumber convert value label minimum (some maximum) = .ok (some result)) :
    minimum ≤ result ∧ result ≤ maximum := by
  unfold optionalNumber at h
  split at h
  · cases h
  · split at h
    · next read _ =>
      split at h
      · cases h
      · next hrange =>
        cases h
        simpa [not_or] using hrange
    · cases h

/-- A text without a fallback is as long as its bound at most. -/
theorem boundedText_length_le {value label result : String} {maximum : ℕ}
    (h : boundedText value label maximum = .ok result) : result.length ≤ maximum := by
  unfold boundedText at h
  dsimp only at h
  split at h
  · cases h
  · next hlength =>
    cases h
    split
    · exact Nat.zero_le maximum
    · exact Nat.le_of_not_lt hlength

/-- A whole number below its bound. -/
theorem boundedInteger_le {value message : String} {minimum maximum result : ℕ}
    (h : boundedInteger convert value minimum maximum message = .ok result) :
    result ≤ maximum := by
  unfold boundedInteger at h
  split at h
  · next read _ =>
    split at h
    · next hrange =>
      cases h
      obtain ⟨hinteger, -, hmaximum⟩ := hrange
      have hone : read.den = 1 := of_decide_eq_true hinteger
      have hnum : read.num ≤ (maximum : ℤ) := by
        have hread : (read.num : ℚ) = read := Rat.coe_int_num_of_den_eq_one hone
        rw [← hread] at hmaximum
        exact_mod_cast hmaximum
      omega
    · cases h
  · cases h

/-! ### GPU rows -/

/-- A row of the base query is within its bounds. -/
theorem within_of_row {row : List String} {rowNumber : ℕ} {gpu : GpuMetrics}
    (h : parseNvidiaSmiRow convert row rowNumber = .ok gpu) : gpu.Within := by
  unfold parseNvidiaSmiRow at h
  dsimp only at h
  split at h
  · cases h
  · obtain ⟨index, hindex, h⟩ := bind_eq_ok.mp h
    obtain ⟨uuid, huuid, h⟩ := bind_eq_ok.mp h
    obtain ⟨name, -, h⟩ := bind_eq_ok.mp h
    obtain ⟨driverVersion, -, h⟩ := bind_eq_ok.mp h
    -- Both branches of the performance state go on in the same way.
    split at h
    all_goals
      obtain ⟨pstate, -, h⟩ := bind_eq_ok.mp h
      obtain ⟨temperatureC, -, h⟩ := bind_eq_ok.mp h
      obtain ⟨utilizationGpuPct, hutilization, h⟩ := bind_eq_ok.mp h
      iterate 6 obtain ⟨_, -, h⟩ := bind_eq_ok.mp h
      cases h
      exact
        { index := boundedInteger_le hindex
          uuid := boundedText_length_le huuid
          utilization := fun value hvalue => by
            subst hvalue
            exact optionalNumber_within hutilization }

/-- One more GPU within its bounds, where there is room for one. -/
theorem GpusWithin.addGpu {gpus added : List GpuMetrics} {gpu : GpuMetrics} (h : GpusWithin gpus)
    (hroom : gpus.length < maxGpusPerHost) (hgpu : gpu.Within)
    (hadded : addGpu gpus gpu = .ok added) : GpusWithin added := by
  unfold Probe.addGpu at hadded
  split at hadded
  · cases hadded
  · cases hadded
    refine ⟨?_, fun other hother => ?_⟩
    · rw [List.length_append, List.length_singleton]
      omega
    · rcases List.mem_append.mp hother with hold | hnew
      · exact h.each other hold
      · rw [List.mem_singleton.mp hnew]
        exact hgpu

theorem gpusWithin_nil : GpusWithin [] :=
  ⟨Nat.zero_le _, fun _ hgpu => absurd hgpu List.not_mem_nil⟩

variable {payload line : String} {gpus : List GpuMetrics} {parsed : ParsedResource}

/-- What every step of a loop over the rows keeps holds of its result. -/
theorem eachRow_invariant {α : Type} {step : α → List String → ℕ → Except String α}
    {start result : α} (p : α → Prop)
    (hstep : ∀ acc row rowNumber next, p acc → step acc row rowNumber = .ok next → p next)
    (hstart : p start) (h : eachRow dialect payload step start = .ok result) : p result := by
  obtain ⟨read, hread, h⟩ := bind_eq_ok.mp h
  have hp : p read := by
    refine foldlM_invariant p (fun acc row _ next hacc hnext => ?_) hstart hread
    -- A blank row is no row.
    split at hnext
    · cases hnext
      exact hacc
    · exact hstep acc row.1 row.2 next hacc hnext
  split at h
  · cases h
    exact hp
  · cases h

/-- The GPUs of the base query are within their bounds. -/
theorem within_of_smiCsv (h : parseNvidiaSmiCsv convert dialect payload = .ok gpus) :
    GpusWithin gpus := by
  refine eachRow_invariant GpusWithin (fun acc row rowNumber next hacc hnext => ?_) gpusWithin_nil h
  split at hnext
  · cases hnext
  · next hroom =>
    obtain ⟨gpu, hgpu, hadded⟩ := bind_eq_ok.mp hnext
    exact hacc.addGpu (Nat.lt_of_not_le hroom) (within_of_row hgpu) hadded

/-- The GPUs of the combined query are within their bounds. -/
theorem within_of_combinedCsv {read : List GpuMetrics × Dict String GpuHealthMetrics}
    (h : parseNvidiaCombinedCsv convert dialect payload = .ok read) : GpusWithin read.1 := by
  obtain ⟨combined, hcombined, h⟩ := bind_eq_ok.mp h
  cases h
  refine eachRow_invariant (fun acc : Combined => GpusWithin acc.gpus)
    (fun acc row rowNumber next hacc hnext => ?_) gpusWithin_nil hcombined
  dsimp only at hnext
  split at hnext
  · cases hnext
  · next hroom =>
    split at hnext
    · cases hnext
    · obtain ⟨gpu, hgpu, hnext⟩ := bind_eq_ok.mp hnext
      obtain ⟨gpus, hadded, hnext⟩ := bind_eq_ok.mp hnext
      have hgpus := hacc.addGpu (Nat.lt_of_not_le hroom) (within_of_row hgpu) hadded
      -- What becomes of the health records does not touch the GPUs.
      split at hnext
      · split at hnext
        · cases hnext
          exact hgpus
        · cases hnext
          exact hgpus
      · cases hnext
        exact hgpus

/-! ### Lines -/

/-- What the lines so far are bounded by. -/
structure Scan.Within (scan : Scan) : Prop where
  disks : ∀ disk ∈ scan.disks, disk.Within
  gpuMessage : ∀ message, scan.gpuMessage = some message → message.length ≤ maxGpuMessage

/-- A filesystem is cut to its bounds. -/
theorem within_of_diskRow {parts : List String} {disk : DiskMetrics}
    (h : diskOfRow convert parts = .ok disk) : disk.Within := by
  have hcut : ∀ (text : String) (bound : ℕ),
      (String.ofList (text.toList.take bound)).length ≤ bound := by
    intro text bound
    rw [String.length_ofList]
    exact List.length_take_le _ _
  unfold diskOfRow at h
  dsimp only at h
  iterate 4 obtain ⟨_, -, h⟩ := bind_eq_ok.mp h
  cases h
  exact ⟨hcut _ _, hcut _ _, hcut _ _⟩

/-- A line of the disk section keeps the bounds. -/
theorem Scan.Within.diskLine {scan read : Scan} (h : scan.Within)
    (hread : scan.diskLine convert line = .ok read) : read.Within := by
  unfold Scan.diskLine at hread
  dsimp only at hread
  split_ifs at hread
  · cases hread
    exact h
  · split at hread
    · next disk hdisk =>
      cases hread
      refine ⟨fun other hother => ?_, h.gpuMessage⟩
      rcases List.mem_append.mp hother with hold | hnew
      · exact h.disks other hold
      · rw [List.mem_singleton.mp hnew]
        exact within_of_diskRow hdisk
    · cases hread
      exact h
  · cases hread
    exact h

/-- A line of the GPU section leaves one of two messages. -/
theorem Scan.Within.gpuLine {scan : Scan} (h : scan.Within) (line : String) :
    (scan.gpuLine line).Within := by
  unfold Scan.gpuLine gpuStatus
  split
  · next message hmessage =>
    refine ⟨h.disks, fun other hother => ?_⟩
    cases hother
    split_ifs at hmessage
    · cases hmessage
      decide
    · cases hmessage
      decide
  · split
    · exact h
    · exact ⟨h.disks, h.gpuMessage⟩

/-- Every line of a payload keeps the bounds. -/
theorem Scan.Within.scanLine {scan read : Scan} (h : scan.Within)
    (hread : scanLine convert scan line = .ok read) : read.Within := by
  unfold Probe.scanLine at hread
  split at hread
  · next mark _ =>
    -- A marker opens or closes a section.
    unfold Scan.mark at hread
    split at hread <;> split_ifs at hread <;> cases hread <;> exact ⟨h.disks, h.gpuMessage⟩
  · split at hread
    · cases hread
      exact h.gpuLine line
    · unfold Scan.processLine at hread
      split at hread <;> split_ifs at hread <;> cases hread <;>
        first | exact h | exact ⟨h.disks, h.gpuMessage⟩
    · cases hread
      unfold Scan.healthLine
      split_ifs <;> first | exact h | exact ⟨h.disks, h.gpuMessage⟩
    · cases hread
      unfold Scan.workloadLine
      split_ifs <;> first | exact h | exact ⟨h.disks, h.gpuMessage⟩
    · exact h.diskLine hread
    · cases hread
      unfold Scan.valueLine
      dsimp only
      split_ifs <;> first | exact h | exact ⟨h.disks, h.gpuMessage⟩

/-! ### The payload -/

/-- An average of a pressure row. -/
theorem psiPercentage_within {value label : String} {required : Bool} {average : ℚ}
    (h : psiPercentage convert value label required = .ok (some average)) : IsShare average := by
  unfold psiPercentage at h
  dsimp only at h
  split at h
  · split at h <;> cases h
  · split at h
    · split at h
      · next hrange =>
        cases h
        exact hrange
      · cases h
    · cases h

/-- The averages of the pressure rows are shares. -/
theorem psiRecords_within {rows : List (List String)} {pressure : PressureStallMetrics}
    (h : parsePsiRecords convert rows = .ok (some pressure)) (sample : PressureStallSample)
    (hsample : pressure.memory = some sample ∨ pressure.io = some sample) :
    IsShare sample.someAvg60 := by
  unfold parsePsiRecords at h
  split at h
  · cases h
  · obtain ⟨samples, hsamples, h⟩ := bind_eq_ok.mp h
    cases h
    have hall : ∀ key sample, samples.get? key = some sample → IsShare sample.someAvg60 := by
      refine foldlM_invariant
        (fun samples : Dict String PressureStallSample =>
          ∀ key sample, samples.get? key = some sample → IsShare sample.someAvg60)
        (fun samples row _ next hkept hnext => ?_) (fun key sample hget => by simp at hget) hsamples
      unfold addPsiRow at hnext
      dsimp only at hnext
      split at hnext
      · cases hnext
      · obtain ⟨someAvg10, -, hnext⟩ := bind_eq_ok.mp hnext
        obtain ⟨someAvg60, haverage, hnext⟩ := bind_eq_ok.mp hnext
        iterate 2 obtain ⟨_, -, hnext⟩ := bind_eq_ok.mp hnext
        cases hnext
        intro key sample hget
        rw [Dict.get?_set] at hget
        split at hget
        · obtain rfl := Option.some.inj hget
          cases someAvg60 with
          | none => exact ⟨le_refl (0 : ℚ), (by decide : (0 : ℚ) ≤ 100)⟩
          | some average => exact psiPercentage_within haverage
        · exact hkept key sample hget
    rcases hsample with hmemory | hio
    · exact hall "memory" sample hmemory
    · exact hall "io" sample hio

/-- What passes a guard is the rest. -/
theorem of_guard {α : Type} {wrong : Prop} [Decidable wrong] {message : String}
    {rest : PUnit → Except String α} {checked : Except String α} {result : α}
    (h : (if wrong then (throw message : Except String PUnit) >>= rest else checked)
      = .ok result) : checked = .ok result := by
  split at h
  · cases h
  · exact h

/-- The system sample has the filesystems of the lines, and its pressure is a share. -/
theorem within_of_systemSample {scan : Scan} {raw : RawSystemSample}
    (h : systemSample convert scan = .ok raw) :
    raw.disks = scan.disks
      ∧ ∀ pressure, raw.pressure = some pressure → ∀ sample,
        pressure.memory = some sample ∨ pressure.io = some sample → IsShare sample.someAvg60 := by
  unfold systemSample at h
  iterate 3 replace h := of_guard h
  obtain ⟨cores, -, h⟩ := bind_eq_ok.mp h
  replace h := of_guard h
  iterate 14 obtain ⟨_, -, h⟩ := bind_eq_ok.mp h
  rw [← Except.ok.inj h]
  refine ⟨rfl, fun pressure hpressure => ?_⟩
  dsimp only at hpressure
  split at hpressure
  · next hrecords => exact psiRecords_within (hpressure ▸ hrecords)
  · cases hpressure

/-- What an accepted payload says is within its bounds. -/
structure ParsedResource.Within (parsed : ParsedResource) : Prop where
  disks : ∀ disk ∈ parsed.system.disks, disk.Within
  pressure : ∀ pressure, parsed.system.pressure = some pressure → ∀ sample,
    pressure.memory = some sample ∨ pressure.io = some sample → IsShare sample.someAvg60
  gpus : GpusWithin parsed.gpus
  gpuMessage : ∀ message, parsed.gpuMessage = some message → message.length ≤ maxGpuMessage

/-- The GPUs of the GPU rows are within their bounds, and so is the message. -/
theorem within_of_gpuSection {scan : Scan} (h : scan.Within) (payload : String)
    (first : Option (List String)) :
    GpusWithin (gpuSection convert dialect scan payload first).1
      ∧ ∀ message, (gpuSection convert dialect scan payload first).2.2 = some message →
        message.length ≤ maxGpuMessage := by
  unfold gpuSection
  dsimp only
  split
  · next gpus inlineHealth hparsed =>
    refine ⟨?_, h.gpuMessage⟩
    split at hparsed
    · exact within_of_combinedCsv hparsed
    · cases hgpus : parseNvidiaSmiCsv convert dialect payload with
      | ok read =>
        rw [hgpus] at hparsed
        cases hparsed
        exact within_of_smiCsv hgpus
      | error message =>
        rw [hgpus] at hparsed
        cases hparsed
  · refine ⟨gpusWithin_nil, fun message hmessage => ?_⟩
    cases hmessage
    decide

/-- The bounds of GPUs are about their rows only. -/
theorem GpusWithin.map (h : GpusWithin gpus) (update : GpuMetrics → GpuMetrics)
    (hrow : ∀ gpu, (update gpu).index = gpu.index ∧ (update gpu).uuid = gpu.uuid
      ∧ (update gpu).utilizationGpuPct = gpu.utilizationGpuPct) :
    GpusWithin (gpus.map update) := by
  refine ⟨by rw [List.length_map]; exact h.length_le, fun updated hupdated => ?_⟩
  obtain ⟨gpu, hgpu, rfl⟩ := List.mem_map.mp hupdated
  obtain ⟨hindex, huuid, hutilization⟩ := hrow gpu
  have hwithin := h.each gpu hgpu
  exact ⟨hindex ▸ hwithin.index, huuid ▸ hwithin.uuid, hutilization ▸ hwithin.utilization⟩

/-- A payload that the parser accepts is within its bounds. -/
theorem within_of_payload (h : parseResourcePayload convert dialect payload = .ok parsed) :
    parsed.Within := by
  unfold parseResourcePayload parseLines at h
  split at h
  · cases h
  · split at h
    · cases h
    · obtain ⟨scan, hscan, h⟩ := bind_eq_ok.mp h
      have hwithin : scan.Within :=
        foldlM_invariant Scan.Within (fun acc _ _ next hacc hnext => hacc.scanLine hnext)
          ⟨fun _ hdisk => absurd hdisk List.not_mem_nil, fun _ hmessage => by cases hmessage⟩ hscan
      unfold finishScan at h
      obtain ⟨_, -, h⟩ := bind_eq_ok.mp h
      obtain ⟨system, hsystem, h⟩ := bind_eq_ok.mp h
      obtain ⟨first, -, h⟩ := bind_eq_ok.mp h
      obtain ⟨hdisks, hpressure⟩ := within_of_systemSample hsystem
      obtain ⟨hgpus, hmessage⟩ := @within_of_gpuSection convert dialect _ hwithin
        (joinWith '\n' scan.gpuLines) first
      dsimp only at h
      split at h
      · cases h
      · cases h
        exact ⟨hdisks ▸ hwithin.disks, hpressure, hgpus.map _ fun _ => ⟨rfl, rfl, rfl⟩, hmessage⟩

/-! ### The result -/

/-- What the result of a probe is bounded by. -/
structure ResultWithin (result : Mocop.ProbeResult) : Prop where
  message : ∀ message, result.message = some message → message.length ≤ maxGpuMessage
  length_gpus_le : result.gpus.length ≤ maxGpusPerHost
  gpus : ∀ gpu ∈ result.gpus, gpu.index ≤ 65535 ∧ gpu.uuid.length ≤ 128
    ∧ ∀ value, gpu.utilizationGpuPct = some value → IsShare value
  disks : ∀ system, result.system = some system → ∀ disk ∈ system.disks,
    disk.device.length ≤ 255 ∧ disk.filesystemType.length ≤ 64 ∧ disk.mountpoint.length ≤ 512
  pressure : ∀ system, result.system = some system → ∀ pressure, system.pressure = some pressure →
    ∀ sample, pressure.memory = some sample ∨ pressure.io = some sample →
      IsShare sample.someAvg60

/-- Taking in the processes touches nothing else of a GPU. -/
theorem GpusWithin.mergeProcessSample (h : GpusWithin gpus) (collector : Collector) (host : String)
    (origin : ℕ) (sampled available : Bool) (sampledAt : ℚ) (observedAt mode : String)
    (thresholds : ThresholdConfig) :
    GpusWithin (collector.mergeProcessSample host origin gpus sampled available sampledAt
      observedAt mode thresholds).1 := by
  unfold Collector.mergeProcessSample
  dsimp only
  split
  · exact h.map _ fun _ => ⟨rfl, rfl, rfl⟩
  · split
    · exact h.map _ fun _ => ⟨rfl, rfl, rfl⟩
    · split
      · exact h.map _ fun _ => ⟨rfl, rfl, rfl⟩
      · refine h.map _ fun gpu => ?_
        split <;> exact ⟨rfl, rfl, rfl⟩

/-- The result of an accepted payload is within its bounds. -/
theorem within_acceptedResult (h : parseResourcePayload convert dialect payload = .ok parsed)
    (collector : Collector) (host : String) (origin : ℕ) (started observedMonotonic : ℚ)
    (processSampled : Bool) (observedAt workloadMode : String) (thresholds : ThresholdConfig)
    (transportRetries : ℕ) :
    ResultWithin (acceptedResult collector host origin parsed started observedMonotonic
      processSampled observedAt workloadMode thresholds transportRetries) := by
  have hwithin := within_of_payload h
  have hgpus := hwithin.gpus.mergeProcessSample
    (collector.systemMetrics host origin parsed.system observedMonotonic).2 host origin
    processSampled parsed.processesAvailable started observedAt workloadMode thresholds
  refine
    { message := hwithin.gpuMessage
      length_gpus_le := by
        show (List.map _ _).length ≤ _
        rw [List.length_map]
        exact hgpus.length_le
      gpus := fun gpu hgpu => ?_
      disks := fun system hsystem disk hdisk => ?_
      pressure := fun system hsystem pressure hpressure sample hsample => ?_ }
  · obtain ⟨raw, hraw, rfl⟩ := List.mem_map.mp hgpu
    have hrow := hgpus.each raw hraw
    exact ⟨hrow.index, hrow.uuid, hrow.utilization⟩
  · cases hsystem
    obtain ⟨raw, hraw, rfl⟩ := List.mem_map.mp hdisk
    have hrow := hwithin.disks raw hraw
    exact ⟨hrow.device, hrow.filesystemType, hrow.mountpoint⟩
  · cases hsystem
    obtain ⟨raw, hraw, rfl⟩ := Option.map_eq_some_iff.mp hpressure
    rcases hsample with hmemory | hio
    · obtain ⟨average, haverage, rfl⟩ := Option.map_eq_some_iff.mp hmemory
      exact hwithin.pressure raw hraw average (.inl haverage)
    · obtain ⟨average, haverage, rfl⟩ := Option.map_eq_some_iff.mp hio
      exact hwithin.pressure raw hraw average (.inr haverage)

/-! ### A filesystem more -/

/-- Where the first computation returns a value the second returns its image. -/
structure Follows {α β : Type} (f : α → β) (first : Except String α)
    (second : Except String β) : Prop where
  eq_ok : ∀ {value}, first = .ok value → second = .ok (f value)

namespace Follows

variable {α β γ : Type} {f : α → β}

theorem pure (value : α) {image : β} (h : image = f value) :
    Follows f (Pure.pure value) (Pure.pure image) := by
  constructor
  intro other hother
  rw [← Except.ok.inj hother, h]
  rfl

theorem bind {δ : Type} {g : γ → δ} {step : Except String γ} {step' : Except String δ}
    {rest : γ → Except String α} {rest' : δ → Except String β} (h : Follows g step step')
    (hrest : ∀ value, Follows f (rest value) (rest' (g value))) :
    Follows f (step >>= rest) (step' >>= rest') := by
  constructor
  intro value hvalue
  obtain ⟨read, hread, hvalue⟩ := bind_eq_ok.mp hvalue
  exact bind_eq_ok.mpr ⟨g read, h.eq_ok hread, (hrest read).eq_ok hvalue⟩

/-- The two may take the same first step. -/
theorem step (step : Except String γ) {rest : γ → Except String α} {rest' : γ → Except String β}
    (hrest : ∀ value, Follows f (rest value) (rest' value)) :
    Follows f (step >>= rest) (step >>= rest') :=
  bind ⟨id⟩ hrest

theorem guard {wrong : Prop} [Decidable wrong] {message : String}
    {skipped : PUnit → Except String α} {skipped' : PUnit → Except String β}
    {first : Except String α} {second : Except String β} (h : Follows f first second) :
    Follows f (if wrong then (throw message : Except String PUnit) >>= skipped else first)
      (if wrong then (throw message : Except String PUnit) >>= skipped' else second) := by
  split
  · exact ⟨fun hvalue => by cases hvalue⟩
  · exact h

end Follows

/-- The filesystems of a sample are those of the lines, and nothing else of it depends on them. -/
theorem systemSample_disks (disks : List DiskMetrics) (scan : Scan) :
    Follows (fun raw => { raw with disks }) (systemSample convert scan)
      (systemSample convert { scan with disks }) := by
  unfold systemSample
  iterate 3 refine Follows.guard ?_
  refine Follows.step _ fun cores => Follows.guard ?_
  iterate 14 refine Follows.step _ fun _ => ?_
  exact Follows.pure _ (by dsimp only)

theorem finishScan_disks (disks : List DiskMetrics) (scan : Scan) :
    Follows (fun parsed => { parsed with system := { parsed.system with disks } })
      (finishScan convert dialect scan) (finishScan convert dialect { scan with disks }) := by
  unfold finishScan
  refine Follows.step _ fun _ => ?_
  refine (systemSample_disks disks scan).bind fun system => ?_
  refine Follows.step _ fun first => Follows.guard ?_
  exact Follows.pure _ rfl

/-- A line outside the disk section, and a marker, is read whatever the filesystems so far. -/
theorem scanLine_disks (disks : List DiskMetrics) {scan : Scan}
    (houtside : (marker line).isSome = true ∨ scan.inside ≠ some .disks) :
    Follows (fun read => { read with disks }) (scanLine convert scan line)
      (scanLine convert { scan with disks } line) := by
  suffices h : scanLine convert { scan with disks } line
      = (fun read => { read with disks }) <$> scanLine convert scan line from
    ⟨fun hread => by rw [h, hread]; rfl⟩
  obtain ⟨values, old, psiRows, gpuLines, processLines, healthLines, workloadLines, gpuMessage,
    available, sampled, status, healthAvailable, inside, markers⟩ := scan
  unfold scanLine
  cases hmark : marker line with
  | some mark =>
    dsimp only
    cases mark <;> simp only [Scan.mark] <;> split_ifs <;> rfl
  | none =>
    rw [hmark] at houtside
    dsimp only
    cases inside with
    | none =>
      simp only [Scan.valueLine]
      split_ifs <;> rfl
    | some target =>
      cases target with
      | gpus =>
        simp only [Scan.gpuLine]
        cases gpuStatus line with
        | some message => rfl
        | none =>
          dsimp only
          split_ifs <;> rfl
      | disks => exact absurd rfl (houtside.resolve_left (by simp))
      | processes =>
        simp only [Scan.processLine]
        cases processStatus line with
        | some status =>
          dsimp only
          split_ifs <;> rfl
        | none =>
          dsimp only
          split_ifs <;> rfl
      | workloads =>
        simp only [Scan.workloadLine]
        split_ifs <;> rfl
      | gpuHealth =>
        simp only [Scan.healthLine]
        split_ifs <;> rfl

/-- The disk section begins once: after it no line is inside it. -/
theorem outside_scanLine {scan read : Scan} (hbegun : .begins .disks ∈ scan.sectionMarkers)
    (houtside : scan.inside ≠ some .disks) (hread : scanLine convert scan line = .ok read) :
    .begins .disks ∈ read.sectionMarkers ∧ read.inside ≠ some .disks := by
  cases hmark : marker line with
  | none =>
    obtain ⟨hinside, hmarkers⟩ := scanLine_of_not_marker hmark hread
    exact ⟨hmarkers ▸ hbegun, hinside ▸ houtside⟩
  | some mark =>
    rw [scanLine, hmark] at hread
    obtain ⟨-, hfirst, rfl⟩ := mark_eq_ok_iff.mp hread
    refine ⟨List.mem_cons_of_mem _ hbegun, fun hopen => ?_⟩
    cases mark with
    | begins target =>
      obtain rfl := Option.some.inj hopen
      exact hfirst hbegun
    | ends target => cases hopen

/-- After the disk section the filesystems are left alone. -/
theorem foldlM_disks (disks : List DiskMetrics) {lines : List String} {scan : Scan}
    (hbegun : .begins .disks ∈ scan.sectionMarkers) (houtside : scan.inside ≠ some .disks) :
    Follows (fun read => { read with disks }) (lines.foldlM (scanLine convert) scan)
      (lines.foldlM (scanLine convert) { scan with disks }) := by
  induction lines generalizing scan with
  | nil => exact Follows.pure _ rfl
  | cons line rest ih =>
    constructor
    intro read hread
    rw [List.foldlM_cons] at hread ⊢
    obtain ⟨next, hnext, hrest⟩ := bind_eq_ok.mp hread
    obtain ⟨hbegun, hinside⟩ := outside_scanLine hbegun houtside hnext
    exact bind_eq_ok.mpr
      ⟨_, (scanLine_disks disks (.inr houtside)).eq_ok hnext, (ih hbegun hinside).eq_ok hrest⟩

/-- A payload whose disk section is empty is accepted with a filesystem in the section, and says the
same of the host but for the filesystem. -/
theorem parseLines_disk {version row : String} {before after : List String} {opened : Scan}
    {disk : DiskMetrics} (hopened : before.foldlM (scanLine convert) {} = .ok opened)
    (hinside : opened.inside = some .disks) (hempty : opened.disks = [])
    (hbegun : .begins .disks ∈ opened.sectionMarkers) (hmark : marker row = none)
    (hrow : (splitAt '\t' row).getD 0 "" = "DISK" ∧ (splitAt '\t' row).length = 8)
    (hmount : (splitAt '\t' row).getD 7 "" ∉ containerFileBindMounts)
    (hdisk : diskOfRow convert (splitAt '\t' row) = .ok disk)
    (hparsed : parseLines convert dialect (version :: (before ++ "DISKS_END" :: after))
      = .ok parsed) :
    parseLines convert dialect (version :: (before ++ row :: "DISKS_END" :: after))
      = .ok { parsed with system := { parsed.system with disks := [disk] } } := by
  rw [parseLines] at hparsed ⊢
  split at hparsed
  · cases hparsed
  · next hversion =>
    rw [if_neg hversion]
    obtain ⟨scan, hscan, hfinish⟩ := bind_eq_ok.mp hparsed
    rw [List.foldlM_append, hopened] at hscan
    obtain ⟨closed, hclosed, hscan⟩ := bind_eq_ok.mp
      (show List.foldlM (scanLine convert) opened ("DISKS_END" :: after) = .ok scan from hscan)
    refine bind_eq_ok.mpr ⟨_, ?_, (finishScan_disks [disk] scan).eq_ok hfinish⟩
    have hline : scanLine convert opened row = .ok { opened with disks := [disk] } := by
      have hread : scanLine convert opened row = opened.diskLine convert row := by
        rw [scanLine, hmark]
        dsimp only
        rw [hinside]
      rw [hread]
      unfold Scan.diskLine
      dsimp only
      rw [if_pos hrow, hempty, if_neg (by decide), if_neg hmount, hdisk]
      rfl
    rw [List.foldlM_append, hopened]
    refine bind_eq_ok.mpr ⟨opened, rfl, bind_eq_ok.mpr ⟨_, hline, ?_⟩⟩
    have hends : marker "DISKS_END" = some (.ends .disks) := rfl
    refine bind_eq_ok.mpr ⟨_, (scanLine_disks [disk] (.inl (by rw [hends]; rfl))).eq_ok hclosed,
      (foldlM_disks [disk] ?_ ?_).eq_ok hscan⟩
    all_goals
      rw [scanLine, hends] at hclosed
      obtain ⟨-, -, rfl⟩ := mark_eq_ok_iff.mp hclosed
    · exact List.mem_cons_of_mem _ hbegun
    · exact fun hopen => by cases hopen

end Mocop.Probe
