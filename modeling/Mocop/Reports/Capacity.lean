import Mocop.Incidents.Types

/-!
# `Mocop.Reports.Capacity`: ranking device groups against a demand

`matchCapacity` groups the devices of every current host by model, keeps the devices that
are free for the request, and ranks the groups. A device without a free-memory reading is
never free (`matchCapacity_freeVram`), so every listed device has one.
-/

set_option autoImplicit false

namespace Mocop

/-! ### The projections the matcher reads -/

/-- A device as the snapshot serves it. -/
structure GpuView where
  index : ℕ
  uuid : String
  name : String
  utilizationGpuPct : Option ℚ
  memoryFreeMib : Option ℚ
  temperatureC : Option ℚ

/-- The maintenance window of a host. -/
structure MaintenanceView where
  reason : String
  until_ : String

/-- A host as the snapshot serves it. -/
structure ServerView where
  host : String
  status : String
  stale : Bool
  maintenance : Option MaintenanceView
  cpuUsagePct : Option ℚ
  gpus : List GpuView

/-- An active condition of the decorated feed. -/
structure ActiveItem where
  host : String
  conditionKey : String
  groupKey : Option String
  category : String
  resource : String
  severity : IncidentSeverity
  value : Option ℚ
  threshold : Option ℚ
  detail : Option String
  belowThreshold : Bool
  firstObservedAt : String
  actionable : Bool
  diagnosisTitle : Option String

/-! ### The matcher -/

/-- The categories that exclude a host. -/
def hostBlockers : List String := ["connectivity", "gpu_availability", "gpu_count"]

/-- The categories that exclude a device. -/
def gpuBlockers : List String :=
  ["gpu_ecc", "gpu_memory_repair", "gpu_slowdown", "gpu_temperature"]

/-- The model of a device without a name. -/
def unknownModel : String := "Unknown NVIDIA GPU"

/-- The request for any model. -/
def anyModel : String := "any"

/-- The utilization of a group without a free device: it sorts behind the measured ones. -/
def noAvailableUtilization : ℚ := 101

/-- A demand for devices of one host and one model. -/
structure CapacityRequest where
  gpuCount : ℕ
  minVramGib : ℕ
  model : String := anyModel

/-- Whether a condition of the host is about this device. -/
def gpuHasBlocker (gpu : GpuView) (conditions : List ActiveItem) : Bool :=
  let identity := if gpu.uuid = "" then toString gpu.index else gpu.uuid
  let resourcePrefix := "GPU " ++ toString gpu.index
  conditions.any fun condition =>
    gpuBlockers.contains condition.category
      && ((":" ++ identity).toList.isSuffixOf condition.conditionKey.toList
        || condition.resource == resourcePrefix
        || (resourcePrefix ++ " ").toList.isPrefixOf condition.resource.toList)

/-- A free device as it is listed. -/
structure AvailableGpu where
  index : ℕ
  uuid : String
  freeVramMib : Option ℚ
  utilizationPct : Option ℚ
  temperatureC : Option ℚ

/-- The listed form of a free device. -/
def availableGpu (gpu : GpuView) : AvailableGpu where
  index := gpu.index
  uuid := gpu.uuid
  freeVramMib := gpu.memoryFreeMib
  utilizationPct := gpu.utilizationGpuPct
  temperatureC := gpu.temperatureC

/-- The devices of one host and one model. -/
structure CapacityCandidate where
  host : String
  model : String
  total : ℕ
  available : List AvailableGpu
  satisfies : Bool
  deficit : ℕ
  minimumFreeMib : ℚ
  averageUtilization : ℚ
  cpuUsagePct : Option ℚ

/-- The ranked answer. -/
structure CapacityDocument where
  request : CapacityRequest
  candidates : List CapacityCandidate
  satisfying : ℕ
  excludedMaintenance : ℕ
  excludedHealth : ℕ

section Match

variable (request : CapacityRequest) (busyPct temperatureC : ℚ)

/-- Whether a device is free for the request. -/
def isAvailable (conditions : List ActiveItem) (gpu : GpuView) : Bool :=
  (gpu.utilizationGpuPct.any fun pct => decide (pct < busyPct))
    && (gpu.memoryFreeMib.any fun free => decide ((request.minVramGib * 1024 : ℚ) ≤ free))
    && (gpu.temperatureC.all fun temperature => decide (temperature < temperatureC))
    && !gpuHasBlocker gpu conditions

/-- The devices of a host by model, the requested model alone when there is one. -/
def gpuGroups (gpus : List GpuView) : Dict String (List GpuView) :=
  gpus.foldl (fun groups gpu =>
    let model := if gpu.name = "" then unknownModel else gpu.name
    if request.model ≠ anyModel ∧ model ≠ request.model then groups
    else groups.set model (groups.getD model [] ++ [gpu])) ∅

/-- The smallest value of a list, zero without one. -/
def minimumOrZero : List ℚ → ℚ
  | [] => 0
  | first :: rest => rest.foldl min first

/-- The candidate of one host and one model. -/
def capacityCandidate (server : ServerView) (conditions : List ActiveItem)
    (group : String × List GpuView) : CapacityCandidate :=
  let available := group.2.filter (isAvailable request busyPct temperatureC conditions)
  let utilizations := available.filterMap (·.utilizationGpuPct)
  { host := server.host
    model := group.1
    total := group.2.length
    available := available.map availableGpu
    satisfies := request.gpuCount ≤ available.length
    deficit := request.gpuCount - available.length
    minimumFreeMib := minimumOrZero (available.filterMap (·.memoryFreeMib))
    averageUtilization :=
      if utilizations = [] then noAvailableUtilization
      else utilizations.sum / utilizations.length
    cpuUsagePct := server.cpuUsagePct }

/-- The progress over the hosts. -/
structure CapacityScan where
  candidates : List CapacityCandidate := []
  excludedMaintenance : ℕ := 0
  excludedHealth : ℕ := 0

/-- Adds the candidates of one host. Stale and offline hosts are skipped; hosts in
maintenance or with a blocking condition are counted as excluded. -/
def scanServer (active : List ActiveItem) (scan : CapacityScan) (server : ServerView) :
    CapacityScan :=
  if server.status ≠ "online" ∨ server.stale then scan
  else if server.maintenance.isSome then
    { scan with excludedMaintenance := scan.excludedMaintenance + 1 }
  else
    let conditions := active.filter fun condition => condition.host = server.host
    if conditions.any fun condition => hostBlockers.contains condition.category then
      { scan with excludedHealth := scan.excludedHealth + 1 }
    else
      { scan with
        candidates := scan.candidates
          ++ (gpuGroups request server.gpus).entries.map
            (capacityCandidate request busyPct temperatureC server conditions) }

/-- The ranking order of the candidates. -/
def candidateLe (a b : CapacityCandidate) : Bool :=
  if a.satisfies ≠ b.satisfies then a.satisfies
  else if a.deficit ≠ b.deficit then a.deficit < b.deficit
  else if a.available.length ≠ b.available.length then b.available.length < a.available.length
  else if a.minimumFreeMib ≠ b.minimumFreeMib then b.minimumFreeMib < a.minimumFreeMib
  else if a.averageUtilization ≠ b.averageUtilization then
    a.averageUtilization < b.averageUtilization
  else decide (a.host ≤ b.host)

/-- The candidates for a request, ranked. -/
def matchCapacity (servers : List ServerView) (active : List ActiveItem) : CapacityDocument :=
  let scan := servers.foldl (scanServer request busyPct temperatureC active) {}
  { request := request
    candidates := scan.candidates.mergeSort candidateLe
    satisfying := (scan.candidates.filter (·.satisfies)).length
    excludedMaintenance := scan.excludedMaintenance
    excludedHealth := scan.excludedHealth }

variable {request busyPct temperatureC}

/-- A listed device has a free-memory reading. -/
theorem freeVram_isSome {server : ServerView} {conditions : List ActiveItem}
    {group : String × List GpuView} {gpu : AvailableGpu}
    (h : gpu ∈ (capacityCandidate request busyPct temperatureC server conditions group).available) :
    gpu.freeVramMib.isSome = true := by
  obtain ⟨view, hview, rfl⟩ := List.mem_map.mp h
  have havailable := (List.mem_filter.mp hview).2
  cases hfree : view.memoryFreeMib with
  | none => simp [isAvailable, hfree] at havailable
  | some free => simp [availableGpu, hfree]

/-- Scanning a host adds candidates of its own groups. -/
theorem mem_scanServer {active : List ActiveItem} {scan : CapacityScan} {server : ServerView}
    {candidate : CapacityCandidate}
    (h : candidate ∈ (scanServer request busyPct temperatureC active scan server).candidates) :
    candidate ∈ scan.candidates ∨ ∃ conditions group,
      candidate = capacityCandidate request busyPct temperatureC server conditions group := by
  unfold scanServer at h
  split at h
  · exact .inl h
  · split at h
    · exact .inl h
    · dsimp only at h
      split at h
      · exact .inl h
      · rcases List.mem_append.mp h with hold | hnew
        · exact .inl hold
        · obtain ⟨group, _, rfl⟩ := List.mem_map.mp hnew
          exact .inr ⟨_, group, rfl⟩

/-- Every device that an answer lists has a free-memory reading. -/
theorem matchCapacity_freeVram {servers : List ServerView} {active : List ActiveItem}
    {candidate : CapacityCandidate} {gpu : AvailableGpu}
    (hcandidate : candidate
      ∈ (matchCapacity request busyPct temperatureC servers active).candidates)
    (hgpu : gpu ∈ candidate.available) : gpu.freeVramMib.isSome = true := by
  -- Every candidate of the scan is the candidate of one host and one group.
  have hscan : ∀ (l : List ServerView) (scan : CapacityScan),
      (∀ c ∈ scan.candidates, ∀ g ∈ c.available, g.freeVramMib.isSome = true) →
      ∀ c ∈ (l.foldl (scanServer request busyPct temperatureC active) scan).candidates,
        ∀ g ∈ c.available, g.freeVramMib.isSome = true := by
    intro l
    induction l with
    | nil => exact fun _ h => h
    | cons server rest ih =>
      intro scan h
      refine ih _ fun c hc g hg => ?_
      rcases mem_scanServer hc with hold | ⟨conditions, group, rfl⟩
      · exact h c hold g hg
      · exact freeVram_isSome hg
  have hmem := List.mem_mergeSort.mp hcandidate
  exact hscan servers {} (by simp) candidate hmem gpu hgpu

end Match

end Mocop
