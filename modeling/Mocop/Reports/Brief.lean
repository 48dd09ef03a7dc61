import Mocop.Reports.Capacity
import Mocop.Reports.Hourly

/-!
# `Mocop.Reports.Brief`: the situation brief

`buildBrief` composes one document from projections that other modules produced: the
snapshot, the incident feed, the capacity answer, the usage document and the utilization
report. Conversions of missing numbers and lookups of missing keys raise.

`buildBrief_returns_iff` says exactly on which documents the brief returns: `UsageReady`, the
listed owners all have an idle share and every hour that is weighed has a busy share.
-/

set_option autoImplicit false

namespace Mocop

/-- How many attention items, recurring conditions and owners are listed. -/
def itemLimit : ℕ := 10

/-- How many openings make a condition recurring. -/
def recurringOpenings : ℕ := 3

/-- The idle share and the hours from which an owner is flagged. -/
def idleHeavyShare : ℚ := 1 / 2

@[inherit_doc idleHeavyShare] def idleHeavyGpuHours : ℚ := 8

/-- How many hosts with capacity are listed. -/
def capacityHostLimit : ℕ := 5

/-! ### The inputs -/

/-- The counts of the snapshot that the brief reads. -/
structure FleetStats where
  servers : ℕ
  onlineServers : ℕ
  staleServers : ℕ
  maintenanceServers : ℕ
  actionableIssueServers : ℕ
  actionableCriticalIncidents : ℕ
  gpus : ℕ
  busyGpus : ℕ
  memoryTotalMib : ℚ
  memoryUsedMib : ℚ

/-- The fleet snapshot. -/
structure FleetSnapshot where
  stats : FleetStats
  servers : List ServerView

/-- A transition of the feed, newest first. -/
structure FeedEvent where
  host : String
  conditionKey : String
  category : String
  resource : String
  state : IncidentState
  observedAt : String

/-- A correlated group of hosts. -/
structure FeedCorrelation where
  kind : String
  anchor : Option String
  hosts : List String
  detail : String

/-- The decorated incident feed. -/
structure IncidentFeed where
  active : List ActiveItem
  events : List FeedEvent
  eventCapacity : ℕ
  correlations : List FeedCorrelation

/-! ### Primitives -/

/-- `float(value)`. -/
def toFloat : Option ℚ → Except Raised ℚ
  | some value => .ok value
  | none => .error .typeError

/-- `min(values)`. -/
def minOf {α : Type} (lt : α → α → Bool) : List α → Except Raised α
  | [] => .error .valueError
  | first :: rest => .ok (rest.foldl (fun best value => if lt value best then value else best) first)

/-- `Counter(values).most_common()`: counts by first occurrence, the larger ones first. -/
def mostCommon {α : Type} [DecidableEq α] (values : List α) : List (α × ℕ) :=
  (values.foldl (fun counts value => Dict.set counts value (Dict.getD counts value 0 + 1))
    (∅ : Dict α ℕ)).entries.mergeSort fun a b => b.2 ≤ a.2

/-! ### Fleet -/

/-- The badge of the summary card. -/
def fleetStatus (stats : FleetStats) : String :=
  if stats.servers = 0 then "unconfigured"
  else if 0 < stats.actionableCriticalIncidents then "critical"
  else if 0 < stats.actionableIssueServers then "attention"
  else if 0 < stats.maintenanceServers then "maintenance"
  else "healthy"

/-- The fleet section. -/
structure BriefFleet where
  hosts : ℕ
  online : ℕ
  offline : List String
  stale : ℕ
  maintenance : ℕ
  gpus : ℕ
  busyGpus : ℕ
  idleGpus : ℤ
  gpuMemoryUsedPct : Option ℚ

/-- Composes the fleet section. -/
def briefFleet (stats : FleetStats) (servers : List ServerView) : BriefFleet where
  hosts := stats.servers
  online := stats.onlineServers
  offline :=
    ((servers.filter fun server => server.status ≠ "online").map (·.host)).mergeSort (· ≤ ·)
  stale := stats.staleServers
  maintenance := stats.maintenanceServers
  gpus := stats.gpus
  busyGpus := stats.busyGpus
  idleGpus := stats.gpus - stats.busyGpus
  gpuMemoryUsedPct :=
    if 0 < stats.memoryTotalMib then
      some (roundDigits (stats.memoryUsedMib / stats.memoryTotalMib * 100) 1)
    else none

/-! ### Attention -/

/-- One entry of the attention list: a condition, or the conditions that share a group. -/
structure AttentionEntry where
  hosts : List String
  conditionKey : Option String
  groupKey : Option String
  category : String
  resource : String
  severity : IncidentSeverity
  value : Option ℚ
  threshold : Option ℚ
  detail : Option String
  belowThreshold : Bool
  firstObservedAt : String
  title : Option String
  deriving DecidableEq

/-- The entry of one condition. -/
def attentionItem (item : ActiveItem) : AttentionEntry where
  hosts := [item.host]
  conditionKey := some item.conditionKey
  groupKey := item.groupKey
  category := item.category
  resource := item.resource
  severity := item.severity
  value := item.value
  threshold := item.threshold
  detail := item.detail
  belowThreshold := item.belowThreshold
  firstObservedAt := item.firstObservedAt
  title := item.diagnosisTitle

/-- The worse of two readings. -/
def worseValue (group : Option ℚ) (value : Option ℚ) : Option ℚ :=
  match value, group with
  | some new, some old => if old < new then some new else some old
  | some new, none => some new
  | none, group => group

/-- Adds a condition to the entry of its group. -/
def AttentionEntry.absorb (group : AttentionEntry) (item : ActiveItem) : AttentionEntry :=
  { group with
    hosts := (group.hosts.insert item.host).mergeSort (· ≤ ·)
    conditionKey := none
    detail := none
    belowThreshold := group.belowThreshold && item.belowThreshold
    value := worseValue group.value item.value
    firstObservedAt :=
      if item.firstObservedAt < group.firstObservedAt then item.firstObservedAt
      else group.firstObservedAt }

/-- Adds one condition. `groups` holds the position of the entry of each group. -/
def addAttention (state : List AttentionEntry × Dict String ℕ) (item : ActiveItem) :
    List AttentionEntry × Dict String ℕ :=
  match item.groupKey with
  | none => (state.1 ++ [attentionItem item], state.2)
  | some key =>
    match state.2.get? key with
    | some position => (state.1.modify position (·.absorb item), state.2)
    | none => (state.1 ++ [attentionItem item], state.2.set key state.1.length)

/-- One entry per condition, the conditions of one group collapsed. -/
def attentionEntries (actionable : List ActiveItem) : List AttentionEntry :=
  (actionable.foldl addAttention ([], ∅)).1

/-- The attention section. -/
structure BriefAttention where
  active : ℕ
  critical : ℕ
  actionable : ℕ
  actionableCritical : ℕ
  silenced : ℕ
  hosts : ℕ
  byCategory : List (String × ℕ)
  correlations : List FeedCorrelation
  entries : ℕ
  items : List AttentionEntry

/-- Composes the attention section. -/
def briefAttention (active : List ActiveItem) (correlations : List FeedCorrelation) :
    BriefAttention :=
  let actionable := active.filter (·.actionable)
  let entries := attentionEntries actionable
  { active := active.length
    critical := (active.filter fun item => item.severity = .critical).length
    actionable := actionable.length
    actionableCritical := (actionable.filter fun item => item.severity = .critical).length
    silenced := active.length - actionable.length
    hosts := (actionable.map (·.host)).dedup.length
    byCategory := mostCommon (actionable.map (·.category))
    correlations := correlations
    entries := entries.length
    items := entries.take itemLimit }

/-! ### Changes -/

/-- A condition of a host. -/
abbrev ConditionKey := String × String

/-- A condition that keeps coming back. -/
structure RecurringCondition where
  host : String
  conditionKey : String
  category : String
  resource : String
  openings : ℕ
  lastState : IncidentState

/-- The changes section. -/
structure BriefChanges where
  coveredFromAt : String
  opened : ℕ
  resolved : ℕ
  escalated : ℕ
  recurring : List RecurringCondition

/-- The latest transition of every condition of a feed that lists the newest first. -/
def latestEvents (inside : List FeedEvent) : Dict ConditionKey FeedEvent :=
  Dict.ofList (inside.reverse.map fun event => ((event.host, event.conditionKey), event))

/-- The conditions of the openings inside the window. -/
def openingKeys (inside : List FeedEvent) : List ConditionKey :=
  (inside.filter fun event => event.state = .opened).map fun event =>
    (event.host, event.conditionKey)

/-- One recurring condition, with its latest transition. -/
def recurringCondition (latest : Dict ConditionKey FeedEvent) (entry : ConditionKey × ℕ) :
    Except Raised RecurringCondition :=
  match latest.get? entry.1 with
  | some event =>
    .ok
      { host := entry.1.1
        conditionKey := entry.1.2
        category := event.category
        resource := event.resource
        openings := entry.2
        lastState := event.state }
  | none => .error .keyError

/-- How far back the feed reaches. It covers the window when it still has room or when its
oldest entry predates the window. -/
def coveredFrom (events inside : List FeedEvent) (eventCapacity : ℕ) (sinceAt : String) :
    Except Raised String :=
  if events ≠ [] ∧ eventCapacity ≤ events.length ∧ inside.length = events.length then
    minOf (fun a b => decide (a < b)) (events.map (·.observedAt))
  else .ok sinceAt

/-- Composes the changes section. -/
def briefChanges (epochSeconds : String → Option ℚ) (events : List FeedEvent)
    (eventCapacity : ℕ) (sinceAt : String) : Except Raised BriefChanges := do
  let since := (epochSeconds sinceAt).getD 0
  let inside := events.filter fun event => since ≤ (epochSeconds event.observedAt).getD 0
  let coveredFromAt ← coveredFrom events inside eventCapacity sinceAt
  let recurring ←
    ((mostCommon (openingKeys inside)).filter fun entry => recurringOpenings ≤ entry.2).mapM
      (recurringCondition (latestEvents inside))
  return {
    coveredFromAt := coveredFromAt
    opened := (openingKeys inside).length
    resolved := (inside.filter fun event => event.state = .resolved).length
    escalated := (inside.filter fun event => event.state = .escalated).length
    recurring := recurring.take itemLimit }

/-! ### Capacity -/

/-- A host with free devices. -/
structure CapacityHost where
  host : String
  model : String
  available : ℕ
  total : ℕ
  minFreeVramGib : ℚ

/-- The capacity section. -/
structure BriefCapacity where
  idleGpus : ℕ
  hosts : ℕ
  excludedMaintenance : ℕ
  excludedHealth : ℕ
  topHosts : List CapacityHost

/-- One host with free devices. -/
def capacityHost (candidate : CapacityCandidate) : Except Raised CapacityHost := do
  let free ← candidate.available.mapM fun gpu => toFloat gpu.freeVramMib
  let smallest ← minOf (fun a b => decide (a < b)) free
  return {
    host := candidate.host
    model := candidate.model
    available := candidate.available.length
    total := candidate.total
    minFreeVramGib := roundDigits (smallest / 1024) 1 }

/-- The candidates with a free device, those with more of them first. -/
def freeCandidates (capacity : CapacityDocument) : List CapacityCandidate :=
  (capacity.candidates.filter fun candidate => !candidate.available.isEmpty).mergeSort fun a b =>
    if a.available.length ≠ b.available.length then b.available.length < a.available.length
    else decide (a.host ≤ b.host)

/-- Composes the capacity section. -/
def briefCapacity (capacity : CapacityDocument) : Except Raised BriefCapacity := do
  let candidates := freeCandidates capacity
  let topHosts ← (candidates.take capacityHostLimit).mapM capacityHost
  return {
    idleGpus := (candidates.map (·.available.length)).sum
    hosts := candidates.length
    excludedMaintenance := capacity.excludedMaintenance
    excludedHealth := capacity.excludedHealth
    topHosts := topHosts }

/-! ### Usage -/

/-- One listed owner. -/
structure BriefOwner where
  owner : Option String
  gpuHours : ℚ
  idleSharePct : ℚ
  gpus : ℕ
  hosts : ℕ
  idleHeavy : Bool

/-- The usage section. -/
structure BriefUsage where
  source : String
  coveredFromAt : String
  busySharePct : Option ℚ
  totalGpuHours : ℚ
  owners : List BriefOwner
  idleHeavyOwners : List (Option String)

/-- One listed owner. -/
def briefOwner (owner : OwnerEntry) : Except Raised BriefOwner := do
  let gpuHours := owner.gpuSeconds / 3600
  let idleShare ← toFloat owner.idleShare
  return {
    owner := owner.owner
    gpuHours := roundDigits gpuHours 1
    idleSharePct := roundDigits (idleShare * 100) 1
    gpus := owner.gpus
    hosts := owner.hosts.length
    idleHeavy := decide (idleHeavyShare ≤ idleShare ∧ idleHeavyGpuHours ≤ gpuHours) }

/-- The samples of a report. -/
def fleetSamples (hours : List HourPoint) : ℤ := (hours.map (·.samples)).sum

/-- The busy share of one hour, weighed by its samples. -/
def weighedShare (hour : HourPoint) : Except Raised ℚ := do
  return (← toFloat hour.busyShare) * hour.samples

/-- The busy share of the whole window. -/
def busySharePct (utilization : Option UtilizationDocument) : Except Raised (Option ℚ) :=
  match utilization with
  | none => .ok none
  | some report =>
    if 0 < fleetSamples report.fleet then do
      let shares ← report.fleet.mapM weighedShare
      return some (roundDigits (shares.sum / fleetSamples report.fleet * 100) 1)
    else .ok none

/-- Composes the usage section. -/
def briefUsage (usage : UsageDocument) (utilization : Option UtilizationDocument) :
    Except Raised BriefUsage := do
  let busyShare ← busySharePct utilization
  let owners ← (usage.owners.take itemLimit).mapM briefOwner
  return {
    source := usage.source.getD "memory"
    coveredFromAt := usage.coveredFromAt.getD usage.sinceAt
    busySharePct := busyShare
    totalGpuHours := roundDigits (usage.totalGpuSeconds / 3600) 1
    owners := owners
    idleHeavyOwners := (owners.filter (·.idleHeavy)).map (·.owner) }

/-! ### The brief -/

/-- A host in maintenance. -/
structure BriefMaintenance where
  host : String
  reason : String
  until_ : String

/-- The hosts in maintenance, by name. -/
def briefMaintenance (servers : List ServerView) : List BriefMaintenance :=
  (servers.mergeSort fun a b => a.host ≤ b.host).filterMap fun server =>
    server.maintenance.map fun window =>
      { host := server.host, reason := window.reason, until_ := window.until_ }

/-- The brief. -/
structure Brief where
  generatedAt : String
  sinceAt : String
  windowHours : ℕ
  status : String
  fleet : BriefFleet
  attention : BriefAttention
  changes : BriefChanges
  capacity : BriefCapacity
  usage : BriefUsage
  maintenance : List BriefMaintenance

section Build

variable (epochSeconds : String → Option ℚ) (iso : ℚ → String)

/-- The timestamp some seconds later. -/
def shift (timestamp : String) (seconds : ℚ) : Except Raised String :=
  match epochSeconds timestamp with
  | some base => .ok (iso (base + seconds))
  | none => .error .assertionError

/-- Composes the brief. -/
def buildBrief (snapshot : FleetSnapshot) (incidents : IncidentFeed)
    (capacity : CapacityDocument) (usage : UsageDocument)
    (utilization : Option UtilizationDocument) (windowHours : ℕ) (generatedAt : String) :
    Except Raised Brief := do
  let sinceAt ← shift epochSeconds iso generatedAt (-(windowHours * 3600))
  let changes ← briefChanges epochSeconds incidents.events incidents.eventCapacity sinceAt
  let capacity ← briefCapacity capacity
  let usage ← briefUsage usage utilization
  return {
    generatedAt := generatedAt
    sinceAt := sinceAt
    windowHours := windowHours
    status := fleetStatus snapshot.stats
    fleet := briefFleet snapshot.stats snapshot.servers
    attention := briefAttention incidents.active incidents.correlations
    changes := changes
    capacity := capacity
    usage := usage
    maintenance := briefMaintenance snapshot.servers }

/-- The brief of a store: the capacity for one device of any model on the same snapshot and
the same feed. -/
def briefFromState (snapshot : FleetSnapshot) (incidents : IncidentFeed) (busyPct temperatureC : ℚ)
    (usage : UsageDocument) (utilization : Option UtilizationDocument) (windowHours : ℕ)
    (generatedAt : String) : Except Raised Brief :=
  buildBrief epochSeconds iso snapshot incidents
    (matchCapacity { gpuCount := 1, minVramGib := 0 } busyPct temperatureC snapshot.servers
      incidents.active)
    usage utilization windowHours generatedAt

end Build

/-! ### Which documents the brief accepts -/

/-- A missing number does not convert. -/
@[simp] theorem returns_toFloat_iff (value : Option ℚ) :
    Returns (toFloat value) ↔ value.isSome = true := by
  cases value <;> simp [toFloat]

/-- A nonempty list has a minimum. -/
theorem returns_minOf {α : Type} (lt : α → α → Bool) {values : List α} (h : values ≠ []) :
    Returns (minOf lt values) := by
  cases values with
  | nil => exact absurd rfl h
  | cons first rest => exact ⟨_, rfl⟩

/-- The counted values are values of the list. -/
theorem mem_of_mem_mostCommon {α : Type} [DecidableEq α] {values : List α} {entry : α × ℕ}
    (h : entry ∈ mostCommon values) : entry.1 ∈ values := by
  -- Counting a list into a table adds no key but its own values.
  have hfold : ∀ (l : List α) (counts : Dict α ℕ), ∀ key ∈ (l.foldl
      (fun counts value => Dict.set counts value (Dict.getD counts value 0 + 1)) counts).keys,
      key ∈ counts.keys ∨ key ∈ l := by
    intro l
    induction l with
    | nil => exact fun _ _ hkey => .inl hkey
    | cons value rest ih =>
      intro counts key hkey
      rcases ih _ key hkey with hset | hrest
      · rcases (Dict.mem_keys_assign value _ counts.entries key).mp hset with rfl | hold
        · exact .inr List.mem_cons_self
        · exact .inl hold
      · exact .inr (List.mem_cons_of_mem _ hrest)
  have hentry := List.mem_mergeSort.mp h
  rcases hfold values ∅ entry.1 (List.mem_map_of_mem hentry) with hempty | hmem
  · cases hempty
  · exact hmem

/-- A condition with a transition inside the window has a latest one. -/
theorem latestEvents_isSome {inside : List FeedEvent} {event : FeedEvent} (h : event ∈ inside) :
    ((latestEvents inside).get? (event.host, event.conditionKey)).isSome = true := by
  rw [latestEvents, Dict.get?_ofList, Option.isSome_iff_ne_none]
  intro hnone
  rw [Dict.lookup_eq_none_iff] at hnone
  refine hnone ?_
  simp only [List.map_reverse, List.reverse_reverse, List.map_map, List.mem_map]
  exact ⟨event, h, rfl⟩

/-- The feed always tells how far back it reaches. -/
theorem returns_coveredFrom (events inside : List FeedEvent) (eventCapacity : ℕ)
    (sinceAt : String) : Returns (coveredFrom events inside eventCapacity sinceAt) := by
  unfold coveredFrom
  split
  · next h => exact returns_minOf _ (by simpa using h.1)
  · exact returns_ok _

/-- The changes section always returns: every counted opening has a latest transition. -/
theorem returns_briefChanges (epochSeconds : String → Option ℚ) (events : List FeedEvent)
    (eventCapacity : ℕ) (sinceAt : String) :
    Returns (briefChanges epochSeconds events eventCapacity sinceAt) := by
  unfold briefChanges
  dsimp only
  rw [returns_bind_iff]
  obtain ⟨coveredFromAt, hcovered⟩ := returns_coveredFrom events (events.filter fun event =>
    decide ((epochSeconds sinceAt).getD 0 ≤ (epochSeconds event.observedAt).getD 0))
    eventCapacity sinceAt
  refine ⟨coveredFromAt, hcovered, ?_⟩
  rw [returns_bind_of_forall fun _ => returns_pure _, returns_mapM_iff]
  intro entry hentry
  have hkey := mem_of_mem_mostCommon (List.mem_filter.mp hentry).1
  obtain ⟨event, hevent, heq⟩ := List.mem_map.mp hkey
  have hlatest := latestEvents_isSome (List.mem_filter.mp hevent).1
  rw [heq] at hlatest
  obtain ⟨latest, hget⟩ := Option.isSome_iff_exists.mp hlatest
  rw [recurringCondition, hget]
  exact returns_ok _

/-- A candidate with free devices, each with a reading, is listed. -/
theorem returns_capacityHost {candidate : CapacityCandidate} (hfree : candidate.available ≠ [])
    (hread : ∀ gpu ∈ candidate.available, gpu.freeVramMib.isSome = true) :
    Returns (capacityHost candidate) := by
  have hmap : Returns (candidate.available.mapM fun gpu => toFloat gpu.freeVramMib) := by
    rw [returns_mapM_iff]
    exact fun gpu hgpu => (returns_toFloat_iff _).mpr (hread gpu hgpu)
  obtain ⟨free, hmap⟩ := hmap
  have hne : free ≠ [] := by
    intro hnil
    have hlength := length_of_mapM hmap
    rw [hnil] at hlength
    exact hfree (List.length_eq_zero_iff.mp hlength.symm)
  rw [capacityHost, returns_bind_iff]
  refine ⟨free, hmap, ?_⟩
  rw [returns_bind_of_forall fun _ => returns_pure _]
  exact returns_minOf _ hne

/-- The capacity section returns on every answer of the matcher. -/
theorem returns_briefCapacity (request : CapacityRequest) (busyPct temperatureC : ℚ)
    (servers : List ServerView) (active : List ActiveItem) :
    Returns (briefCapacity (matchCapacity request busyPct temperatureC servers active)) := by
  unfold briefCapacity
  dsimp only
  rw [returns_bind_of_forall fun _ => returns_pure _, returns_mapM_iff]
  intro candidate hcandidate
  have hmem := List.mem_filter.mp (List.mem_mergeSort.mp (List.mem_of_mem_take hcandidate))
  refine returns_capacityHost (by simpa using hmem.2) fun gpu hgpu => ?_
  exact matchCapacity_freeVram hmem.1 hgpu

/-- What the usage section needs of its two documents: the listed owners have an idle share,
and where samples are weighed every hour has a busy share. -/
def UsageReady (usage : UsageDocument) (utilization : Option UtilizationDocument) : Prop :=
  (∀ owner ∈ usage.owners.take itemLimit, owner.idleShare.isSome = true)
    ∧ ∀ report ∈ utilization, 0 < fleetSamples report.fleet →
        ∀ hour ∈ report.fleet, hour.busyShare.isSome = true

/-- An owner is listed exactly when it has an idle share. -/
theorem returns_briefOwner_iff (owner : OwnerEntry) :
    Returns (briefOwner owner) ↔ owner.idleShare.isSome = true := by
  unfold briefOwner
  dsimp only
  rw [returns_bind_of_forall fun _ => returns_pure _, returns_toFloat_iff]

/-- An hour is weighed exactly when it has a busy share. -/
theorem returns_weighedShare_iff (hour : HourPoint) :
    Returns (weighedShare hour) ↔ hour.busyShare.isSome = true := by
  unfold weighedShare
  rw [returns_bind_of_forall fun _ => returns_pure _, returns_toFloat_iff]

/-- The busy share of the window is computed exactly when every weighed hour has one. -/
theorem returns_busySharePct_iff (utilization : Option UtilizationDocument) :
    Returns (busySharePct utilization) ↔ ∀ report ∈ utilization,
      0 < fleetSamples report.fleet → ∀ hour ∈ report.fleet, hour.busyShare.isSome = true := by
  cases utilization with
  | none => simp [busySharePct]
  | some report =>
    simp only [Option.mem_def, Option.some.injEq, forall_eq', busySharePct]
    split
    · next hpos =>
      rw [returns_bind_of_forall fun _ => returns_pure _, returns_mapM_iff]
      simp only [returns_weighedShare_iff, hpos, forall_const]
    · next hzero => simp [hzero]

/-- The usage section returns exactly on the documents that are ready. -/
theorem returns_briefUsage_iff (usage : UsageDocument) (utilization : Option UtilizationDocument) :
    Returns (briefUsage usage utilization) ↔ UsageReady usage utilization := by
  have howners : Returns ((usage.owners.take itemLimit).mapM briefOwner)
      ↔ ∀ owner ∈ usage.owners.take itemLimit, owner.idleShare.isSome = true := by
    simp only [returns_mapM_iff, returns_briefOwner_iff]
  unfold briefUsage UsageReady
  rw [returns_bind_iff, ← howners, ← returns_busySharePct_iff]
  constructor
  · rintro ⟨share, hshare, hrest⟩
    exact ⟨(returns_bind_of_forall fun _ => returns_pure _).mp hrest, share, hshare⟩
  · rintro ⟨hrest, share, hshare⟩
    exact ⟨share, hshare, (returns_bind_of_forall fun _ => returns_pure _).mpr hrest⟩

section Build

variable (epochSeconds : String → Option ℚ) (iso : ℚ → String)

/-- The brief of a store returns exactly on the usage documents that are ready, on every
snapshot and every feed. It is generated at a time that the monitor wrote. -/
theorem briefFromState_returns_iff (snapshot : FleetSnapshot) (incidents : IncidentFeed)
    (busyPct temperatureC : ℚ) (usage : UsageDocument) (utilization : Option UtilizationDocument)
    (windowHours : ℕ) (generatedAt : String)
    (hgenerated : (epochSeconds generatedAt).isSome = true) :
    Returns (briefFromState epochSeconds iso snapshot incidents busyPct temperatureC usage
        utilization windowHours generatedAt)
      ↔ UsageReady usage utilization := by
  obtain ⟨base, hbase⟩ := Option.isSome_iff_exists.mp hgenerated
  have hshift : ∀ seconds, shift epochSeconds iso generatedAt seconds
      = .ok (iso (base + seconds)) := fun seconds => by rw [shift, hbase]
  obtain ⟨changes, hchanges⟩ := returns_briefChanges epochSeconds incidents.events
    incidents.eventCapacity (iso (base + -(windowHours * 3600)))
  obtain ⟨capacity, hcapacity⟩ := returns_briefCapacity { gpuCount := 1, minVramGib := 0 }
    busyPct temperatureC snapshot.servers incidents.active
  rw [← returns_briefUsage_iff, briefFromState, buildBrief, hshift]
  show Returns (briefChanges _ _ _ _ >>= _) ↔ _
  rw [hchanges]
  show Returns (briefCapacity _ >>= _) ↔ _
  rw [hcapacity]
  exact returns_bind_of_forall fun _ => returns_pure _

end Build

/-! ### Two documents of the producers -/

/-- The three times of the examples, in seconds. -/
private def clockTimes : List (String × ℚ) :=
  [("2026-09-06T09:00:00Z", 1788685200), ("2026-09-07T08:59:30Z", 1788771570),
    ("2026-09-07T09:00:00Z", 1788771600)]

/-- The parser on the times of the examples. -/
private def clockSeconds (text : String) : Option ℚ :=
  (clockTimes.find? fun time => time.1 = text).map (·.2)

/-- The formatter on the times of the examples. -/
private def clockText (epoch : ℚ) : String :=
  ((clockTimes.find? fun time => time.2 = epoch).map (·.1)).getD ""

/-- One device with one live process and these utilization samples. -/
private def liveDevice (utilization : List (String × Option ℚ)) : Dict GpuKey DeviceUsage :=
  Dict.ofList
    [(("gpu-01", "GPU-1"),
      { events := []
        active := Dict.ofList
          [((4242, "python"),
            { pid := 4242, name := "python", usedMemoryMib := none
              firstSeenAt := some "2026-09-07T08:59:30Z" })]
        observedUntil := none
        utilization := utilization })]

/-- The usage document of one device. -/
private def liveUsage (utilization : List (String × Option ℚ)) : Except Raised UsageDocument :=
  aggregateUsage clockSeconds clockText 1788771600 24 10 10 (some 720) none "sample"
    (liveDevice utilization)

/-- A fleet without hosts. -/
private def emptyFleet : FleetSnapshot :=
  ⟨⟨0, 0, 0, 0, 0, 0, 0, 0, 0, 0⟩, []⟩

/-- With two samples the only owner has an idle share, and the brief returns. -/
theorem briefFromState_returns_sampled :
    ∃ usage, liveUsage [("2026-09-07T08:59:30Z", some 50), ("2026-09-07T09:00:00Z", some 50)]
        = .ok usage
      ∧ Returns (briefFromState clockSeconds clockText emptyFleet ⟨[], [], 500, []⟩ 10 80 usage
          none 24 "2026-09-07T09:00:00Z") := by
  have hready : (match liveUsage
      [("2026-09-07T08:59:30Z", some 50), ("2026-09-07T09:00:00Z", some 50)] with
      | .ok usage => (usage.owners.take itemLimit).all (·.idleShare.isSome)
      | .error _ => false) = true := by
    decide +kernel
  cases hrun : liveUsage
      [("2026-09-07T08:59:30Z", some 50), ("2026-09-07T09:00:00Z", some 50)] with
  | error e =>
    rw [hrun] at hready
    cases hready
  | ok usage =>
    rw [hrun] at hready
    refine ⟨usage, rfl, (briefFromState_returns_iff clockSeconds clockText _ _ 10 80 usage none
      24 _ (by decide)).mpr ⟨List.all_eq_true.mp hready, ?_⟩⟩
    intro report hreport
    cases hreport

/-- A process observed once and a device without a utilization reading: the owner has no idle
share, and the brief raises. -/
theorem unsampled_owner_raises :
    ∃ usage, liveUsage [("2026-09-07T08:59:30Z", none)] = .ok usage
      ∧ ¬ Returns (briefFromState clockSeconds clockText emptyFleet ⟨[], [], 500, []⟩ 10 80 usage
          none 24 "2026-09-07T09:00:00Z") := by
  have hraise : (match liveUsage [("2026-09-07T08:59:30Z", none)] with
      | .ok usage => decide (¬ Returns (briefFromState clockSeconds clockText emptyFleet
          ⟨[], [], 500, []⟩ 10 80 usage none 24 "2026-09-07T09:00:00Z"))
      | .error _ => false) = true := by
    decide +kernel
  cases hrun : liveUsage [("2026-09-07T08:59:30Z", none)] with
  | error e =>
    rw [hrun] at hraise
    cases hraise
  | ok usage =>
    rw [hrun] at hraise
    exact ⟨usage, rfl, of_decide_eq_true hraise⟩

end Mocop
