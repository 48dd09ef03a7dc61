import Mocop.Config
import Mocop.Incidents.Domains

/-!
# `Mocop.Incidents.Policy`: the threshold policy

`ThresholdIncidentPolicy.conditions` derives the incident conditions of one probe result,
and `observedDomains` the telemetry domains the result carries. `toIncidentPolicy` shows
that every condition of this policy satisfies the laws of an `IncidentPolicy`
(`conditions_derived`): each addition to the condition dictionary keeps them
(`AllDerived.addCondition`).

The per-host memo of effective thresholds is left out: `thresholdsFor` and
`excludedDiskMounts` compute the value the memo holds.
-/

set_option autoImplicit false

namespace Mocop

/-- The probe messages that mean that the sample cannot speak for the GPUs. -/
def gpuQueryFailureMessages : List String :=
  ["nvidia-smi is unavailable", "nvidia-smi query failed",
    "nvidia-smi output was malformed"]

/-- Whether the message of the result is a GPU query failure. -/
def gpuQueryFailed (result : ProbeResult) : Bool :=
  match result.message with
  | some message => message ∈ gpuQueryFailureMessages
  | none => false

/-- Stores a condition under its own key. -/
def addCondition (conditions : Dict String IncidentCondition)
    (condition : IncidentCondition) : Dict String IncidentCondition :=
  conditions.set condition.key condition

/-- A positive count, absent counting as zero. -/
def isPositive (count : Option ℕ) : Bool := 0 < count.getD 0

/-- The hardware-health conditions of one GPU: ECC, pending memory repair, slowdown. -/
def gpuHealthConditions (gpu : GpuMetrics) (identity observedAt : String)
    (incidents : IncidentConfig) : List IncidentCondition :=
  match gpu.health with
  | none => []
  | some health =>
    let ecc : List IncidentCondition :=
      if isPositive health.eccUncorrectedVolatile then
        [{ key := "gpu_ecc" ++ ":" ++ identity
           category := "gpu_ecc"
           resource := "GPU " ++ toString gpu.index ++ " ECC"
           severity := .critical
           value := some (health.eccUncorrectedVolatile.getD 0 : ℕ)
           threshold := some 0
           observedAt := observedAt
           detail := some "Volatile uncorrected ECC errors detected"
           openAfterCycles := incidents.resourceOpenCycles
           openAfterSeconds := incidents.resourceOpenSeconds
           recoveryCycles := incidents.recoveryCycles }]
      else []
    let repair : List IncidentCondition :=
      if health.retiredPagesPending = some true ∨ health.remappedRowsPending = some true then
        [{ key := "gpu_memory_repair" ++ ":" ++ identity
           category := "gpu_memory_repair"
           resource := "GPU " ++ toString gpu.index ++ " memory"
           severity := .critical
           value := none
           threshold := none
           observedAt := observedAt
           detail := some "GPU memory repair is pending"
           openAfterCycles := incidents.resourceOpenCycles
           openAfterSeconds := incidents.resourceOpenSeconds
           recoveryCycles := incidents.recoveryCycles }]
      else []
    let thermal := health.thermalSlowdown = some true
    let powerBrake := health.powerBrakeSlowdown = some true
    let causes := (if thermal then ["thermal"] else [])
      ++ (if powerBrake then ["power brake"] else [])
    let slowdown : List IncidentCondition :=
      if thermal ∨ powerBrake then
        [{ key := "gpu_slowdown" ++ ":" ++ identity
           category := "gpu_slowdown"
           resource := "GPU " ++ toString gpu.index
           severity := if thermal then .critical else .warning
           value := none
           threshold := none
           observedAt := observedAt
           detail := some ("Hardware slowdown active: " ++ ", ".intercalate causes)
           openAfterCycles := incidents.resourceOpenCycles
           openAfterSeconds := incidents.resourceOpenSeconds
           recoveryCycles := incidents.recoveryCycles }]
      else []
    ecc ++ repair ++ slowdown

/-- The policy that compares each sample with the configured thresholds. -/
structure ThresholdIncidentPolicy where
  thresholdValues : Dict ThresholdName ℚ
  expectedGpuCounts : Dict String ℕ
  incidents : IncidentConfig
  hostOverrides : Dict String IncidentScopeOverrideConfig
  groupOverrides : Dict String IncidentScopeOverrideConfig
  hostGroups : Dict String String

namespace ThresholdIncidentPolicy

variable (policy : ThresholdIncidentPolicy)

/-- The override of the group of the host, if it has a group with an override. -/
def groupOverride (host : String) : Option IncidentScopeOverrideConfig :=
  match policy.hostGroups.get? host with
  | some group => if group = "" then none else policy.groupOverrides.get? group
  | none => none

/-- The thresholds of a host: the base values, then the group override, then the host
override. -/
def thresholdsFor (host : String) : Dict ThresholdName ℚ :=
  let values := policy.thresholdValues
  let values := match policy.groupOverride host with
    | some override => override.thresholds.foldl (fun d e => d.set e.1 e.2) values
    | none => values
  match policy.hostOverrides.get? host with
  | some override => override.thresholds.foldl (fun d e => d.set e.1 e.2) values
  | none => values

/-- The mount points of a host that raise no disk condition. -/
def excludedDiskMounts (host : String) : List String :=
  let group := match policy.groupOverride host with
    | some override => override.excludeDiskMounts
    | none => []
  match policy.hostOverrides.get? host with
  | some override => group ++ override.excludeDiskMounts
  | none => group

/-- The share of `used` in `total`, in percent with two digits. -/
def percentage (used total : ℚ) : ℚ :=
  if 0 < total then roundDigits (used / total * 100) 2 else 0

/-- Critical from the critical line on. -/
def severityOf (value criticalAt : ℚ) : IncidentSeverity :=
  if criticalAt ≤ value then .critical else .warning

/-- The key under which the conditions of one network filesystem are grouped. -/
def networkDiskGroupKey (device filesystemType : String) : Option String :=
  let filesystem := filesystemType.toLower
  let isNetwork :=
    filesystem ∈ ["nfs", "nfs4", "cifs", "smb3", "sshfs", "ceph", "glusterfs"]
    ∨ filesystem.startsWith "fuse.sshfs" ∨ filesystem.startsWith "fuse.glusterfs"
    ∨ device.startsWith "//"
    ∨ (':' ∈ device.toList ∧ ¬ device.startsWith "/")
  if isNetwork then some (filesystem ++ "|" ++ device) else none

/-- Derives a numeric condition, down to the recovery margin below its threshold, so that
the tracker can hold an open condition through a dip. The key is `category`, or
`category:identity` where an identity is given. -/
def addPercentage (conditions : Dict String IncidentCondition) (category : String)
    (identity : Option String) (resource : String) (value : Option ℚ) (threshold : ℚ)
    (observedAt : String) (criticalAt : ℚ := 95) (groupKey : Option String := none)
    (detail : Option String := none) : Dict String IncidentCondition :=
  match value with
  | none => conditions
  | some value =>
    if value < threshold - policy.incidents.recoveryMargin then conditions
    else
      let rounded := roundDigits value 2
      addCondition conditions
        { key := match identity with
            | some identity => category ++ ":" ++ identity
            | none => category
          category := category
          resource := resource
          severity := severityOf rounded criticalAt
          value := some rounded
          threshold := some threshold
          observedAt := observedAt
          detail := detail
          openAfterCycles := policy.incidents.resourceOpenCycles
          openAfterSeconds := policy.incidents.resourceOpenSeconds
          recoveryCycles := policy.incidents.recoveryCycles
          groupKey := groupKey
          belowThreshold := rounded < threshold
          criticalAt := some criticalAt
          recoveryMargin := policy.incidents.recoveryMargin }

/-- The condition of a host that could not be probed. -/
def connectivityCondition (result : ProbeResult) : IncidentCondition where
  key := "connectivity"
  category := "connectivity"
  resource := "SSH"
  severity := .critical
  value := none
  threshold := none
  observedAt := result.observedAt
  detail := result.message
  openAfterCycles := 1
  recoveryCycles := policy.incidents.recoveryCycles

/-- The condition of a sample whose GPU query failed. -/
def gpuAvailabilityCondition (result : ProbeResult) : IncidentCondition where
  key := "gpu_availability"
  category := "gpu_availability"
  resource := "NVIDIA telemetry"
  severity := .critical
  value := none
  threshold := none
  observedAt := result.observedAt
  detail := result.message
  openAfterCycles := 1
  recoveryCycles := policy.incidents.recoveryCycles

/-- The condition of a host with another number of GPUs than expected. -/
def gpuCountCondition (result : ProbeResult) (expected : ℕ) : IncidentCondition where
  key := "gpu_count"
  category := "gpu_count"
  resource := "GPU inventory"
  severity := if result.gpus.length < expected then .critical else .warning
  value := some (result.gpus.length : ℕ)
  threshold := some expected
  observedAt := result.observedAt
  detail := some ("Expected " ++ toString expected ++ " GPUs; observed "
    ++ toString result.gpus.length)
  openAfterCycles := 1
  recoveryCycles := policy.incidents.recoveryCycles

/-- The condition of a host whose GPU process list is unavailable. -/
def gpuProcessesCondition (result : ProbeResult) : IncidentCondition where
  key := "gpu_processes"
  category := "gpu_processes"
  resource := "GPU processes"
  severity := .warning
  value := none
  threshold := none
  observedAt := result.observedAt
  detail := some "GPU process telemetry is unavailable"
  openAfterCycles := policy.incidents.resourceOpenCycles
  openAfterSeconds := policy.incidents.resourceOpenSeconds
  recoveryCycles := policy.incidents.recoveryCycles

/-- The conditions of the GPU inventory as a whole. -/
def inventoryConditions (result : ProbeResult) : Dict String IncidentCondition :=
  let failed := gpuQueryFailed result
  let conditions : Dict String IncidentCondition :=
    if failed then addCondition ∅ (policy.gpuAvailabilityCondition result) else ∅
  match policy.expectedGpuCounts.get? result.host with
  | some expected =>
    if !failed ∧ result.gpus.length ≠ expected then
      addCondition conditions (policy.gpuCountCondition result expected)
    else conditions
  | none => conditions

variable (threshold : ThresholdName → ℚ)

/-- One pressure-stall condition. -/
def addPressure (result : ProbeResult) (conditions : Dict String IncidentCondition)
    (resource : String) (sample : Option PressureStallSample) (thresholdName : ThresholdName)
    (label : String) : Dict String IncidentCondition :=
  match sample with
  | none => conditions
  | some sample =>
    let psiThreshold := threshold thresholdName
    policy.addPercentage conditions "pressure" (some resource) (label ++ " pressure")
      (some sample.someAvg60) psiThreshold result.observedAt (min 100 (psiThreshold * 2))
      none
      (some ("Tasks stalled on " ++ resource ++ " for " ++ round2Text sample.someAvg60
        ++ "% of the last minute"))

/-- The condition of one filesystem. Absolute headroom decides how urgent it is. -/
def addDisk (result : ProbeResult) (conditions : Dict String IncidentCondition)
    (disk : DiskMetrics) : Dict String IncidentCondition :=
  if disk.mountpoint ∈ policy.excludedDiskMounts result.host then conditions
  else
    let starved := disk.availableMib < threshold .diskMinFreeGib * 1024
    policy.addPercentage conditions "disk" (some (disk.device ++ ":" ++ disk.mountpoint))
      disk.mountpoint (some disk.usedPct) (threshold .diskWarningPct) result.observedAt
      (if starved then 0 else 95) (networkDiskGroupKey disk.device disk.filesystemType)

/-- The conditions of the host itself. -/
def systemConditions (result : ProbeResult) (system : SystemMetrics)
    (conditions : Dict String IncidentCondition) : Dict String IncidentCondition :=
  let conditions := policy.addPercentage conditions "cpu" none "CPU" system.cpuUsagePct
    (threshold .cpuWarningPct) result.observedAt
  let conditions := policy.addPercentage conditions "memory" none "RAM"
    (some (percentage system.memoryUsedMib system.memoryTotalMib))
    (threshold .memoryWarningPct) result.observedAt
  let conditions :=
    if 0 < system.swapTotalMib then
      policy.addPercentage conditions "swap" none "Swap"
        (some (percentage system.swapUsedMib system.swapTotalMib))
        (threshold .swapWarningPct) result.observedAt 90
    else conditions
  let conditions := match system.pressure with
    | some pressure =>
      let conditions := policy.addPressure threshold result conditions "memory"
        pressure.memory .psiMemorySomePct "Memory"
      policy.addPressure threshold result conditions "io" pressure.io .psiIoSomePct "I/O"
    | none => conditions
  system.disks.foldl (policy.addDisk threshold result) conditions

/-- The share of used VRAM, where the device reports both numbers and a positive total. -/
def gpuMemoryPct (gpu : GpuMetrics) : Option ℚ :=
  match gpu.memoryUsedMib, gpu.memoryTotalMib with
  | some used, some total => if 0 < total then some (percentage used total) else none
  | _, _ => none

/-- The condition of a device that holds memory without computing. Both sides of the claim
carry the margin. -/
def addIdleMemory (result : ProbeResult) (gpu : GpuMetrics)
    (conditions : Dict String IncidentCondition) : Dict String IncidentCondition :=
  let margin := policy.incidents.recoveryMargin
  match gpuMemoryPct gpu, gpu.utilizationGpuPct with
  | some memoryPct, some utilization =>
    if threshold .gpuIdleMemoryPct - margin ≤ memoryPct
        ∧ utilization < threshold .gpuBusyPct + margin
        ∧ 0 < gpu.memoryUsedMib.getD 0 then
      addCondition conditions
        { key := "gpu_idle_memory" ++ ":" ++ gpu.identity
          category := "gpu_idle_memory"
          resource := "GPU " ++ toString gpu.index ++ " VRAM"
          severity := .warning
          value := some memoryPct
          threshold := some (threshold .gpuIdleMemoryPct)
          observedAt := result.observedAt
          detail := some ("GPU utilization is " ++ round2Text utilization ++ "%")
          openAfterCycles := policy.incidents.gpuIdleMemoryCycles
          openAfterSeconds := policy.incidents.gpuIdleMemorySeconds
          recoveryCycles := policy.incidents.recoveryCycles
          belowThreshold := memoryPct < threshold .gpuIdleMemoryPct
            ∨ threshold .gpuBusyPct ≤ utilization
          recoveryMargin := margin }
    else conditions
  | _, _ => conditions

/-- The conditions of one device. -/
def gpuConditions (result : ProbeResult) (conditions : Dict String IncidentCondition)
    (gpu : GpuMetrics) : Dict String IncidentCondition :=
  let temperatureThreshold := threshold .gpuTemperatureWarningC
  let conditions := policy.addPercentage conditions "gpu_temperature" (some gpu.identity)
    ("GPU " ++ toString gpu.index) gpu.temperatureC temperatureThreshold result.observedAt
    (temperatureThreshold + 5)
  let conditions := policy.addPercentage conditions "gpu_memory" (some gpu.identity)
    ("GPU " ++ toString gpu.index ++ " VRAM") (gpuMemoryPct gpu)
    (threshold .gpuMemoryWarningPct) result.observedAt
  let conditions := policy.addIdleMemory threshold result gpu conditions
  (gpuHealthConditions gpu gpu.identity result.observedAt policy.incidents).foldl
    addCondition conditions

/-- Whether the process list of some device was sampled and is unavailable. -/
def processesUnavailable (result : ProbeResult) : Bool :=
  result.gpus.any (fun gpu => gpu.processesSampled && !gpu.processesAvailable)

/-- The incident conditions of one probe result. -/
def conditions (result : ProbeResult) : Dict String IncidentCondition :=
  let threshold := fun name => (policy.thresholdsFor result.host).getD name 0
  if result.status ≠ .online then
    addCondition ∅ (policy.connectivityCondition result)
  else
    let conditions := policy.inventoryConditions result
    let conditions := match result.system with
      | some system => policy.systemConditions threshold result system conditions
      | none => conditions
    let conditions :=
      if processesUnavailable result then
        addCondition conditions (policy.gpuProcessesCondition result)
      else conditions
    result.gpus.foldl (policy.gpuConditions threshold result) conditions

omit policy in
/-- The telemetry domains of one device. -/
def gpuDomains (gpu : GpuMetrics) : List String :=
  let identity := gpu.identity
  ["gpu_present:" ++ identity]
    ++ (if gpu.temperatureC.isSome then ["gpu_temperature:" ++ identity] else [])
    ++ (if (gpuMemoryPct gpu).isSome then ["gpu_memory:" ++ identity] else [])
    ++ (if gpu.utilizationGpuPct.isSome then ["gpu_utilization:" ++ identity] else [])
    ++ (match gpu.health with
      | some health => ["gpu_health:" ++ identity]
        ++ (if health.eccUncorrectedVolatile.isSome then ["gpu_ecc:" ++ identity] else [])
      | none => [])

omit policy in
/-- Telemetry domains for which this sample carries fresh, valid data. -/
def observedDomains (result : ProbeResult) : List String :=
  if result.status ≠ .online then []
  else
    (match result.system with
      | some system => ["system"]
        ++ (if system.cpuUsagePct.isSome then ["system_cpu"] else [])
        ++ (match system.pressure with
          | some pressure =>
            (if pressure.memory.isSome then ["pressure:memory"] else [])
              ++ (if pressure.io.isSome then ["pressure:io"] else [])
          | none => [])
      | none => [])
    ++ (if gpuQueryFailed result then []
      else
        ["gpu_query", "gpu_inventory"]
          ++ (if result.gpus.all (·.processesSampled) then ["gpu_processes"] else [])
          ++ result.gpus.flatMap gpuDomains)

/-! ### The laws of the derived conditions -/

/-- Every condition of the dictionary satisfies the laws of a policy. -/
def AllDerived (result : ProbeResult) (conditions : Dict String IncidentCondition) : Prop :=
  ∀ key condition, conditions.get? key = some condition →
    condition.DerivedFrom result key

section
variable {result : ProbeResult} {conditions : Dict String IncidentCondition}

omit policy threshold in
theorem AllDerived.empty : AllDerived result ∅ := fun key condition h => by simp at h

omit policy threshold in
theorem AllDerived.ite {other : Dict String IncidentCondition} (p : Prop) [Decidable p]
    (h : AllDerived result conditions) (h' : AllDerived result other) :
    AllDerived result (if p then conditions else other) := by
  split
  · exact h
  · exact h'

omit policy threshold in
/-- A condition of a category that is not numeric satisfies the laws under its own key. -/
theorem derivedFrom_of_not_numeric {condition : IncidentCondition} (category : String)
    (hobserved : condition.observedAt = result.observedAt)
    (hcategory : condition.category = category)
    (hhead : partitionHead condition.key = category) (hnot : category ∉ numericCategories) :
    condition.DerivedFrom result condition.key :=
  ⟨rfl, hobserved, by rw [hcategory, hhead], fun h => absurd (hcategory ▸ h) hnot⟩

omit policy threshold in
/-- Adding a condition that satisfies the laws under its own key keeps them. -/
theorem AllDerived.addCondition (h : AllDerived result conditions)
    {condition : IncidentCondition} (hc : condition.DerivedFrom result condition.key) :
    AllDerived result (addCondition conditions condition) := by
  intro key stored hget
  rw [Mocop.addCondition, Dict.get?_set] at hget
  split at hget
  · next hkey =>
    obtain rfl := Option.some.inj hget
    exact hkey ▸ hc
  · exact h key stored hget

omit policy threshold in
/-- Adding the conditions of a list keeps the laws. -/
theorem AllDerived.addConditions (h : AllDerived result conditions)
    (added : List IncidentCondition)
    (hadded : ∀ condition ∈ added, condition.DerivedFrom result condition.key) :
    AllDerived result (added.foldl Mocop.addCondition conditions) := by
  induction added generalizing conditions with
  | nil => exact h
  | cons condition rest ih =>
    exact ih (h.addCondition (hadded condition List.mem_cons_self))
      fun c hc => hadded c (List.mem_cons_of_mem condition hc)

omit threshold in
/-- A numeric condition carries its critical line, so it satisfies the laws. -/
theorem AllDerived.addPercentage (h : AllDerived result conditions) (category : String)
    (hcategory : ':' ∉ category.toList) (identity : Option String) (resource : String)
    (value : Option ℚ) (limit criticalAt : ℚ) (groupKey detail : Option String) :
    AllDerived result (policy.addPercentage conditions category identity resource value
      limit result.observedAt criticalAt groupKey detail) := by
  unfold ThresholdIncidentPolicy.addPercentage
  cases value with
  | none => exact h
  | some value =>
    dsimp only
    split
    · exact h
    · refine h.addCondition ⟨rfl, rfl, ?_, fun _ => rfl⟩
      cases identity with
      | none => exact (partitionHead_of_not_mem category hcategory).symm
      | some identity => exact (partitionHead_append category identity hcategory).symm

omit policy threshold in
/-- A hardware-health condition satisfies the laws: its category is not numeric. -/
theorem gpuHealthConditions_derived (gpu : GpuMetrics) (identity : String)
    (incidents : IncidentConfig) (condition : IncidentCondition)
    (h : condition ∈ gpuHealthConditions gpu identity result.observedAt incidents) :
    condition.DerivedFrom result condition.key := by
  unfold gpuHealthConditions at h
  cases hhealth : gpu.health with
  | none => simp [hhealth] at h
  | some health =>
    simp only [hhealth, List.mem_append, List.mem_ite_nil_right, List.mem_singleton] at h
    rcases h with (⟨-, rfl⟩ | ⟨-, rfl⟩) | ⟨-, rfl⟩
    · exact derivedFrom_of_not_numeric "gpu_ecc" rfl rfl
        (partitionHead_append _ identity (by decide)) (by decide)
    · exact derivedFrom_of_not_numeric "gpu_memory_repair" rfl rfl
        (partitionHead_append _ identity (by decide)) (by decide)
    · exact derivedFrom_of_not_numeric "gpu_slowdown" rfl rfl
        (partitionHead_append _ identity (by decide)) (by decide)

/-- The inventory conditions satisfy the laws. -/
theorem inventoryConditions_derived (result : ProbeResult) :
    AllDerived result (policy.inventoryConditions result) := by
  have havailability : AllDerived result
      (if gpuQueryFailed result then
        Mocop.addCondition ∅ (policy.gpuAvailabilityCondition result) else ∅) :=
    AllDerived.ite _ (AllDerived.empty.addCondition
      (derivedFrom_of_not_numeric "gpu_availability" rfl rfl
        (partitionHead_of_not_mem "gpu_availability" (by decide)) (by decide)))
      AllDerived.empty
  unfold inventoryConditions
  cases policy.expectedGpuCounts.get? result.host with
  | none => exact havailability
  | some expected =>
    exact AllDerived.ite _ (havailability.addCondition
      (derivedFrom_of_not_numeric "gpu_count" rfl rfl
        (partitionHead_of_not_mem "gpu_count" (by decide)) (by decide))) havailability

/-- A pressure condition keeps the laws. -/
theorem AllDerived.addPressure (h : AllDerived result conditions) (resource : String)
    (sample : Option PressureStallSample) (thresholdName : ThresholdName) (label : String) :
    AllDerived result
      (policy.addPressure threshold result conditions resource sample thresholdName label) := by
  unfold ThresholdIncidentPolicy.addPressure
  cases sample with
  | none => exact h
  | some sample => exact h.addPercentage policy _ (by decide) _ _ _ _ _ _ _

/-- A filesystem condition keeps the laws. -/
theorem AllDerived.addDisk (h : AllDerived result conditions) (disk : DiskMetrics) :
    AllDerived result (policy.addDisk threshold result conditions disk) := by
  unfold ThresholdIncidentPolicy.addDisk
  split
  · exact h
  · exact h.addPercentage policy _ (by decide) _ _ _ _ _ _ _

/-- The conditions of the host itself keep the laws. -/
theorem AllDerived.systemConditions (h : AllDerived result conditions)
    (system : SystemMetrics) :
    AllDerived result (policy.systemConditions threshold result system conditions) := by
  have hdisks : ∀ (disks : List DiskMetrics) (d : Dict String IncidentCondition),
      AllDerived result d →
      AllDerived result (disks.foldl (policy.addDisk threshold result) d) := by
    intro disks
    induction disks with
    | nil => exact fun d hd => hd
    | cons disk rest ih => exact fun d hd => ih _ (hd.addDisk policy threshold disk)
  refine hdisks _ _ ?_
  have hmemory := (h.addPercentage policy "cpu" (by decide) none "CPU" system.cpuUsagePct
    (threshold .cpuWarningPct) 95 none none).addPercentage policy "memory" (by decide) none
    "RAM" (some (percentage system.memoryUsedMib system.memoryTotalMib))
    (threshold .memoryWarningPct) 95 none none
  have hswap := AllDerived.ite (0 < system.swapTotalMib)
    (hmemory.addPercentage policy "swap" (by decide) none "Swap"
      (some (percentage system.swapUsedMib system.swapTotalMib))
      (threshold .swapWarningPct) 90 none none) hmemory
  cases system.pressure with
  | none => exact hswap
  | some pressure =>
    exact (hswap.addPressure policy threshold _ _ _ _).addPressure policy threshold _ _ _ _

/-- The idle-memory condition keeps the laws. -/
theorem AllDerived.addIdleMemory (h : AllDerived result conditions) (gpu : GpuMetrics) :
    AllDerived result (policy.addIdleMemory threshold result gpu conditions) := by
  unfold ThresholdIncidentPolicy.addIdleMemory
  dsimp only
  split
  · exact AllDerived.ite _ (h.addCondition
      (derivedFrom_of_not_numeric "gpu_idle_memory" rfl rfl
        (partitionHead_append _ gpu.identity (by decide)) (by decide))) h
  · exact h

/-- The conditions of one device keep the laws. -/
theorem AllDerived.gpuConditions (h : AllDerived result conditions) (gpu : GpuMetrics) :
    AllDerived result (policy.gpuConditions threshold result conditions gpu) := by
  have hmemory := (h.addPercentage policy "gpu_temperature" (by decide)
    (some gpu.identity) ("GPU " ++ toString gpu.index) gpu.temperatureC
    (threshold .gpuTemperatureWarningC) (threshold .gpuTemperatureWarningC + 5)
    none none).addPercentage policy "gpu_memory" (by decide) (some gpu.identity)
    ("GPU " ++ toString gpu.index ++ " VRAM") (gpuMemoryPct gpu)
    (threshold .gpuMemoryWarningPct) 95 none none
  exact (hmemory.addIdleMemory policy threshold gpu).addConditions _ fun condition hc =>
    gpuHealthConditions_derived gpu gpu.identity policy.incidents condition hc

omit threshold in
/-- Every condition this policy derives satisfies the laws of a policy. -/
theorem conditions_derived (result : ProbeResult) :
    AllDerived result (policy.conditions result) := by
  unfold ThresholdIncidentPolicy.conditions
  dsimp only
  split
  · exact AllDerived.empty.addCondition
      (derivedFrom_of_not_numeric "connectivity" rfl rfl
        (partitionHead_of_not_mem "connectivity" (by decide)) (by decide))
  · have hsystem : AllDerived result
        (match result.system with
          | some system => policy.systemConditions
              (fun name => (policy.thresholdsFor result.host).getD name 0) result system
              (policy.inventoryConditions result)
          | none => policy.inventoryConditions result) := by
      cases result.system with
      | none => exact policy.inventoryConditions_derived result
      | some system =>
        exact (policy.inventoryConditions_derived result).systemConditions policy _ system
    have hgpus : ∀ (gpus : List GpuMetrics) (d : Dict String IncidentCondition),
        AllDerived result d →
        AllDerived result (gpus.foldl (policy.gpuConditions
          (fun name => (policy.thresholdsFor result.host).getD name 0) result) d) := by
      intro gpus
      induction gpus with
      | nil => exact fun d hd => hd
      | cons gpu rest ih => exact fun d hd => ih _ (hd.gpuConditions policy _ gpu)
    refine hgpus _ _ ?_
    exact AllDerived.ite _ (hsystem.addCondition
      (derivedFrom_of_not_numeric "gpu_processes" rfl rfl
        (partitionHead_of_not_mem "gpu_processes" (by decide)) (by decide))) hsystem

end

/-- The threshold policy as a policy of the tracker. -/
def toIncidentPolicy : IncidentPolicy where
  conditions := policy.conditions
  observedDomains := observedDomains
  recoveryCycles := policy.incidents.recoveryCycles
  derived := policy.conditions_derived

end ThresholdIncidentPolicy

end Mocop
