import Mocop.Inventory.Document
import Mocop.Lib.Sorting
import Mocop.Service.Delivery
import Mathlib.Data.Prod.Lex
import Mathlib.Data.String.Basic

/-!
# `Mocop.Service.Snapshots`: the versions of the snapshot

What the store shows to its readers, and how it numbers it. Every change that a reader can see
is followed by `publish`, which raises the version. The snapshot is cached under the version and
the incident revision. It also depends on the clock and on the status of the adapters: before a
snapshot is built, the active maintenance windows, the active incident actions and the statuses
are compared with the last ones, and a difference raises the version too.

The counts of the incidents and the statistics block are functions of what `ProjectionContent`
holds. An operation takes the clock readings that it makes, and `waitForUpdate` is what it does
before, during and after it waits: other operations come in between.
-/

set_option autoImplicit false

namespace Mocop

deriving instance DecidableEq for IncidentScopeOverrideConfig

/-- How often a window recurs. -/
inductive MaintenanceCadence where
  | weekly
  | daily
  deriving DecidableEq, Repr

/-- How a maintenance window is shown: until a second, and how often it recurs. -/
structure WindowView where
  until_ : ℤ
  reason : String
  cadence : Option MaintenanceCadence
  deriving DecidableEq

/-- The shown form of a window. -/
def MaintenanceWindowConfig.toDict (window : MaintenanceWindowConfig) (now : ℚ) : WindowView :=
  match window.schedule with
  | .once until_ => ⟨⌊until_⌋, window.reason, none⟩
  | .weekly weekday startMinutes durationMinutes =>
    ⟨⌊instanceEnd now ((weekdayOf now - weekday) % 7) (7 * daySeconds) startMinutes
      durationMinutes⌋, window.reason, some .weekly⟩
  | .daily startMinutes durationMinutes =>
    ⟨⌊instanceEnd now 0 daySeconds startMinutes durationMinutes⌋, window.reason, some .daily⟩

/-- What the store knows of a server. A server without a status is pending. -/
structure ServerRecord where
  status : Option ProbeStatus := none
  polling : Bool := false
  latencyMs : Option ℕ := none
  gpus : List GpuMetrics := []
  system : Option SystemMetrics := none
  message : Option String := none
  lastAttemptAt : Option String := none
  lastSuccessAt : Option String := none
  nextRetryAt : Option String := none
  consecutiveFailures : ℕ := 0
  transportRetried : Bool := false

/-- Applies a sample. `gpus` are its GPUs with the first observations of their processes. -/
def ServerRecord.apply (server : ServerRecord) (result : ProbeResult) (gpus : List GpuMetrics)
    (nextRetryAt : Option String) : ServerRecord :=
  let server :=
    { server with
      status := some result.status
      polling := false
      latencyMs := some result.latencyMs
      message := result.message
      lastAttemptAt := some result.observedAt
      transportRetried := decide (0 < result.transportRetries) }
  if result.status = .online then
    { server with
      gpus := gpus
      system := result.system
      lastSuccessAt := some result.observedAt
      nextRetryAt := none
      consecutiveFailures := 0 }
  else
    { server with
      nextRetryAt := nextRetryAt
      consecutiveFailures := server.consecutiveFailures + 1 }

/-- A server as it is shown. -/
structure ServerEntry where
  host : String
  record : ServerRecord
  maintenance : Option WindowView
  group : Option String
  displayName : Option String

/-- An active incident, as far as it is counted. -/
structure ShownIncident where
  host : String
  severity : IncidentSeverity
  actionable : Bool

/-- What a snapshot shows, apart from its numbers. -/
structure ProjectionContent where
  pollIntervalSeconds : ℚ
  collectionStaleAfterSeconds : ℚ
  lastPollCompletedAt : Option String
  lastPollDurationMs : Option ℕ
  collectorError : Option String
  adapterStatuses : String × String
  servers : List ServerEntry
  incidents : List ShownIncident
  maintenanceHosts : List String

/-- A snapshot. -/
structure Projection where
  version : ℕ
  incidentVersion : ℕ
  generatedAt : String
  content : ProjectionContent

/-- Two snapshots differ at most in the time of their generation. -/
def Projection.SameBody (p q : Projection) : Prop :=
  p.version = q.version ∧ p.incidentVersion = q.incidentVersion ∧ p.content = q.content

/-- The store with what its snapshots show. -/
structure SnapshotStore where
  state : StateStore
  servers : Dict String ServerRecord := ∅
  hostGroups : Dict String String
  displayNames : Dict String String
  hostIncidentOverrides : List (String × IncidentScopeOverrideConfig)
  groupIncidentOverrides : List (String × IncidentScopeOverrideConfig)
  topology : Option TopologyDocument
  pollIntervalSeconds : ℚ
  collectionStaleCycles : ℕ
  collectorError : Option String := none
  lastPollCompletedAt : Option String := none
  lastPollDurationMs : Option ℕ := none
  adapterStatuses : String × String
  version : ℕ := 0
  incidentRevision : ℕ
  trackerVersion : ℕ
  activeMaintenanceSignature : List (String × ℤ × String)
  activeActionSignature :
    List ((String × String) × IncidentActionKind × ℤ × Option String)
  snapshotCache : Option ((ℕ × ℕ) × Projection) := none

/-- What a snapshot store is started from. -/
structure SnapshotConfig where
  start : StartConfig
  hostGroups : List (String × String)
  displayNames : List (String × String)
  hostIncidentOverrides : List (String × IncidentScopeOverrideConfig)
  groupIncidentOverrides : List (String × IncidentScopeOverrideConfig)
  topology : Option TopologyDocument
  pollIntervalSeconds : ℚ
  collectionStaleCycles : ℕ

/-- A monitor with default settings that restores open incidents. -/
def SnapshotConfig.restoring (openIncidents : List OpenIncident) : SnapshotConfig where
  start :=
    { policy := ThresholdIncidentPolicy.toIncidentPolicy
        ⟨({} : ThresholdConfig).toDict, ∅, {}, ∅, ∅, ∅⟩
      incidentHistoryPoints := 20
      historicalEvents := []
      openIncidents
      maintenanceWindows := []
      incidentActions := [] }
  hostGroups := []
  displayNames := []
  hostIncidentOverrides := []
  groupIncidentOverrides := []
  topology := none
  pollIntervalSeconds := 5
  collectionStaleCycles := 3

/-- A sample with what the store makes of it: the GPUs with the first observations of their
processes, the time of the next retry, and the poll cycle that it completes. -/
structure SampleInput where
  setOrder : SetOrder
  clock : ClockReadings
  result : ProbeResult
  gpus : List GpuMetrics
  nextRetryAt : Option String
  pollCycle : Option (String × ℕ)
  expectedIncarnation : Option ℕ

namespace StateStore

/-- The windows in force with their ends and reasons, by host. -/
def maintenanceSignature (store : StateStore) (now : ℚ) : List (String × ℤ × String) :=
  sortBy Prod.fst ((store.maintenanceWindows.entries.filter (fun entry => entry.2.isActive now)).map
    (fun entry => (entry.1, (entry.2.toDict now).until_, entry.2.reason)))

/-- The actions in force, by host and condition. -/
def actionSignature (store : StateStore) (now : ℚ) :
    List ((String × String) × IncidentActionKind × ℤ × Option String) :=
  sortBy (fun entry => toLex entry.1)
    ((store.incidentActions.entries.filter (fun entry => entry.2.isActive now)).map
      (fun entry => (entry.1, entry.2.action, ⌊entry.2.until_⌋, entry.2.incidentStartedAt)))

end StateStore

/-- What is live of an active condition. -/
structure ConditionSignature where
  key : String
  severity : IncidentSeverity
  value : Option ℚ
  threshold : Option ℚ
  detail : Option String
  resource : String
  deriving DecidableEq

/-- The values of the active conditions of a host. -/
def IncidentTracker.activeSignature (tracker : IncidentTracker) (host : String) :
    List ConditionSignature :=
  sortBy ConditionSignature.key ((rowOf tracker.active host).entries.map (fun entry =>
    { key := entry.1
      severity := entry.2.severity
      value := entry.2.value
      threshold := entry.2.threshold
      detail := entry.2.detail
      resource := entry.2.resource }))

namespace SnapshotStore

/-- A store at the start of a process. -/
def start (config : SnapshotConfig) (adapterStatuses : String × String)
    (maintenanceAt actionAt : ℚ) : SnapshotStore :=
  let state := StateStore.start config.start
  { state := state
    hostGroups := Dict.ofList config.hostGroups
    displayNames := Dict.ofList config.displayNames
    hostIncidentOverrides := config.hostIncidentOverrides
    groupIncidentOverrides := config.groupIncidentOverrides
    topology := config.topology
    pollIntervalSeconds := config.pollIntervalSeconds
    collectionStaleCycles := config.collectionStaleCycles
    adapterStatuses := adapterStatuses
    incidentRevision := state.incidents.log.version
    trackerVersion := state.incidents.log.version
    activeMaintenanceSignature := state.maintenanceSignature maintenanceAt
    activeActionSignature := state.actionSignature actionAt }

/-! ### What a snapshot shows -/

/-- A server as it is shown. -/
def serverEntry (store : SnapshotStore) (now : ℚ) (host : String) : ServerEntry where
  host := host
  record := store.servers.getD host {}
  maintenance := ((store.state.maintenanceWindows.get? host).filter (·.isActive now)).map
    (·.toDict now)
  group := store.hostGroups.get? host
  displayName := store.displayNames.get? host

/-- The active incidents as they are counted. -/
def shownIncidents (state : StateStore) (now : ℚ) : List ShownIncident :=
  state.incidents.active.entries.flatMap (fun row => row.2.entries.map (fun condition =>
    { host := row.1
      severity := condition.2.severity
      actionable := (state.decorateIncident now (row.1, condition.1)).actionable }))

/-- What a snapshot built now shows. -/
def content (store : SnapshotStore) (now : ℚ) : ProjectionContent where
  pollIntervalSeconds := store.pollIntervalSeconds
  collectionStaleAfterSeconds := store.pollIntervalSeconds * store.collectionStaleCycles
  lastPollCompletedAt := store.lastPollCompletedAt
  lastPollDurationMs := store.lastPollDurationMs
  collectorError := store.collectorError
  adapterStatuses := store.adapterStatuses
  servers := store.state.servers.map (store.serverEntry now)
  incidents := shownIncidents store.state now
  maintenanceHosts :=
    (store.state.maintenanceWindows.filter (fun _ window => window.isActive now)).keys

/-! ### Versions -/

/-- Raises the version if the windows in force changed. -/
def refreshMaintenance (store : SnapshotStore) (now : ℚ) : SnapshotStore :=
  if store.state.maintenanceWindows.entries.isEmpty then store
  else
    let signature := store.state.maintenanceSignature now
    if signature = store.activeMaintenanceSignature then store
    else
      { store with
        activeMaintenanceSignature := signature
        incidentRevision := store.incidentRevision + 1
        version := store.version + 1 }

/-- Raises the version if the actions in force changed. -/
def refreshActions (store : SnapshotStore) (now : ℚ) : SnapshotStore :=
  if store.state.incidentActions.entries.isEmpty then store
  else
    let signature := store.state.actionSignature now
    if signature = store.activeActionSignature then store
    else
      { store with
        activeActionSignature := signature
        incidentRevision := store.incidentRevision + 1
        version := store.version + 1 }

/-- Raises the version if the status of an adapter changed. -/
def refreshAdapterStatus (store : SnapshotStore) (statuses : String × String) : SnapshotStore :=
  if statuses = store.adapterStatuses then store
  else
    { store with
      adapterStatuses := statuses
      version := store.version + 1
      snapshotCache := none }

/-- Makes a change visible. -/
def publish (store : SnapshotStore) (now : ℚ) : SnapshotStore :=
  let store := store.refreshMaintenance now
  { store with version := store.version + 1 }

/-- Takes the version of the tracker over into the incident revision. -/
def syncTrackerRevision (store : SnapshotStore) : SnapshotStore :=
  if store.state.incidents.log.version = store.trackerVersion then store
  else
    { store with
      trackerVersion := store.state.incidents.log.version
      incidentRevision := store.incidentRevision + 1 }

/-- The snapshot of the current version: the cached one, or a new one. -/
def snapshotLocked (store : SnapshotStore) (statuses : String × String) (now : ℚ)
    (generatedAt : String) : SnapshotStore × Projection :=
  let store := store.refreshAdapterStatus statuses
  let key := (store.version, store.incidentRevision)
  match store.snapshotCache.filter (·.1 = key) with
  | some (_, projection) => (store, projection)
  | none =>
    let projection :=
      { version := store.version
        incidentVersion := store.incidentRevision
        generatedAt := generatedAt
        content := store.content now }
    ({ store with snapshotCache := some (key, projection) }, projection)

/-! ### Operations -/

/-- Whether an inventory changes the server list. -/
def changesServers (store : SnapshotStore) (hosts : List String) : Bool :=
  store.state.servers.any (· ∉ hosts) || hosts.any (· ∉ store.state.servers)

/-- Installs the monitored hosts. -/
def setHosts (store : SnapshotStore) (hosts : List String) (now : ℚ) : SnapshotStore :=
  let updated :=
    { store with
      state := store.state.setHosts hosts
      servers := store.servers.filterKeys (· ∈ hosts) }.syncTrackerRevision
  if store.changesServers hosts then updated.publish now else updated

/-- Records a completed poll cycle. -/
def recordPollCycle (store : SnapshotStore) (cycle : String × ℕ) : SnapshotStore :=
  { store with lastPollCompletedAt := some cycle.1, lastPollDurationMs := some cycle.2 }

/-- Marks hosts as being polled. -/
def beginPoll (store : SnapshotStore) (hosts : List String) (now : ℚ) : SnapshotStore :=
  let pending := hosts.filter (fun host => host ∈ store.state.servers
    && !(store.servers.getD host {}).polling)
  if pending = [] then store
  else
    { store with
      servers := pending.foldl (fun servers host =>
        servers.set host { servers.getD host {} with polling := true }) store.servers }.publish now

/-- Installs the maintenance windows. -/
def setMaintenanceWindows (store : SnapshotStore)
    (windows : List (String × MaintenanceWindowConfig)) (signatureAt now : ℚ) : SnapshotStore :=
  let updated := store.state.setMaintenanceWindows windows
  if (updated.maintenanceWindows.keys ++ store.state.maintenanceWindows.keys).all (fun host =>
      updated.maintenanceWindows.get? host = store.state.maintenanceWindows.get? host) then store
  else
    { store with
      state := updated
      activeMaintenanceSignature := updated.maintenanceSignature signatureAt
      incidentRevision := store.incidentRevision + 1 }.publish now

/-- Installs the incident actions. -/
def setIncidentActions (store : SnapshotStore) (actions : List IncidentActionConfig)
    (signatureAt now : ℚ) : SnapshotStore :=
  if StateStore.sameActions (actionTable actions) store.state.incidentActions then store
  else
    let updated := store.state.setIncidentActions actions
    { store with
      state := updated
      activeActionSignature := updated.actionSignature signatureAt
      incidentRevision := store.incidentRevision + 1 }.publish now

/-- Whether two tables of names are the same, in whatever order. -/
def sameNames (names others : Dict String String) : Bool :=
  (names.keys ++ others.keys).all (fun host => names.get? host = others.get? host)

/-- Takes a sample in. One for an unknown host or for another incarnation is ignored, apart from
the poll cycle that it completes. -/
def apply (epochSeconds : String → Option ℚ) (store : SnapshotStore) (input : SampleInput)
    (now : ℚ) : Except KeyError SnapshotStore := do
  let host := input.result.host
  let polled :=
    match input.pollCycle with
    | some cycle => store.recordPollCycle cycle
    | none => store
  if host ∉ store.state.servers ∨ (input.expectedIncarnation ≠ none
      ∧ store.state.hostIncarnations.get? host ≠ input.expectedIncarnation) then
    return if input.pollCycle.isSome then polled.publish now else store
  let (_, state) ← store.state.apply epochSeconds input.setOrder input.clock input.result
    input.expectedIncarnation
  let synced :=
    { polled with
      state := state
      servers := store.servers.set host
        ((store.servers.getD host {}).apply input.result input.gpus input.nextRetryAt)
      }.syncTrackerRevision
  let previous := store.state.incidents.activeSignature host
  -- The values of active conditions are live data, even without a transition.
  let synced :=
    if previous ≠ [] ∧ state.incidents.activeSignature host ≠ previous
        ∧ state.incidents.log.version = store.state.incidents.log.version then
      { synced with incidentRevision := synced.incidentRevision + 1 }
    else synced
  return synced.publish now

/-- An operation on the store. `snapshotView` returns a snapshot, and so does `waitForUpdate`
once it has waited for a version above the one that its reader holds; `refreshClock` and
`refreshAdapters` are what it does before and while it waits. -/
inductive Operation where
  | setHosts (hosts : List String) (now : ℚ)
  | setCollectorError (message : Option String) (now : ℚ)
  | setPollInterval (interval now : ℚ)
  | setPolicy (policy : IncidentPolicy)
  | setMaintenanceWindows (windows : List (String × MaintenanceWindowConfig))
      (signatureAt now : ℚ)
  | setIncidentActions (actions : List IncidentActionConfig) (signatureAt now : ℚ)
  | setHostDisplayNames (names : List (String × String)) (now : ℚ)
  | setHostGroups (groups : List (String × String)) (policy : IncidentPolicy) (now : ℚ)
  | setIncidentOverrides (hostOverrides groupOverrides :
      List (String × IncidentScopeOverrideConfig)) (policy : IncidentPolicy) (now : ℚ)
  | setTopology (topology : Option TopologyDocument) (now : ℚ)
  | beginPoll (hosts : List String) (now : ℚ)
  | apply (input : SampleInput) (now : ℚ)
  | rescheduleRetry (host nextRetryAt : String) (now : ℚ)
  | recordPollCycle (cycle : String × ℕ) (now : ℚ)
  | refreshClock (maintenanceAt actionAt : ℚ)
  | refreshAdapters (statuses : String × String)
  | snapshotView (maintenanceAt actionAt : ℚ) (statuses : String × String) (now : ℚ)
      (generatedAt : String)
  | waitForUpdate (afterVersion : ℕ) (statuses : String × String) (now : ℚ)
      (generatedAt : String)

/-- One operation, with the snapshot that it returns. -/
def step (epochSeconds : String → Option ℚ) (store : SnapshotStore) :
    Operation → Except KeyError (SnapshotStore × Option Projection)
  | .setHosts hosts now => .ok (store.setHosts hosts now, none)
  | .setCollectorError message now =>
    .ok (if message = store.collectorError then store
      else { store with collectorError := message }.publish now, none)
  | .setPollInterval interval now =>
    .ok (if interval = store.pollIntervalSeconds then store
      else { store with pollIntervalSeconds := interval }.publish now, none)
  | .setPolicy policy =>
    .ok ({ store with state := { store.state with incidentPolicy := policy } }, none)
  | .setMaintenanceWindows windows signatureAt now =>
    .ok (store.setMaintenanceWindows windows signatureAt now, none)
  | .setIncidentActions actions signatureAt now =>
    .ok (store.setIncidentActions actions signatureAt now, none)
  | .setHostDisplayNames names now =>
    .ok (if sameNames (Dict.ofList names) store.displayNames then store
      else { store with displayNames := Dict.ofList names }.publish now, none)
  | .setHostGroups groups policy now =>
    .ok (if sameNames (Dict.ofList groups) store.hostGroups then store
      else { store with
        hostGroups := Dict.ofList groups
        state := { store.state with incidentPolicy := policy } }.publish now, none)
  | .setIncidentOverrides hostOverrides groupOverrides policy now =>
    .ok (if hostOverrides = store.hostIncidentOverrides
        ∧ groupOverrides = store.groupIncidentOverrides then store
      else { store with
        hostIncidentOverrides := hostOverrides
        groupIncidentOverrides := groupOverrides
        state := { store.state with incidentPolicy := policy }
        incidentRevision := store.incidentRevision + 1 }.publish now, none)
  | .setTopology topology now =>
    .ok (if topology = store.topology then store
      else { store with
        topology := topology
        incidentRevision := store.incidentRevision + 1 }.publish now, none)
  | .beginPoll hosts now => .ok (store.beginPoll hosts now, none)
  | .apply input now => do
    let store ← store.apply epochSeconds input now
    return (store, none)
  | .rescheduleRetry host nextRetryAt now =>
    .ok (if host ∉ store.state.servers
        ∨ (store.servers.getD host {}).status = some .online then store
      else { store with
        servers := store.servers.set host
          { store.servers.getD host {} with nextRetryAt := some nextRetryAt } }.publish now, none)
  | .recordPollCycle cycle now => .ok ((store.recordPollCycle cycle).publish now, none)
  | .refreshClock maintenanceAt actionAt =>
    .ok ((store.refreshMaintenance maintenanceAt).refreshActions actionAt, none)
  | .refreshAdapters statuses => .ok (store.refreshAdapterStatus statuses, none)
  | .snapshotView maintenanceAt actionAt statuses now generatedAt =>
    let store := (store.refreshMaintenance maintenanceAt).refreshActions actionAt
    let (store, projection) := store.snapshotLocked statuses now generatedAt
    .ok (store, some projection)
  | .waitForUpdate afterVersion statuses now generatedAt =>
    if store.version ≤ afterVersion then .ok (store, none)
    else
      let (store, projection) := store.snapshotLocked statuses now generatedAt
      .ok (store, some projection)

/-- A run, with the snapshots that it returns, each with the store after its operation. -/
def run (epochSeconds : String → Option ℚ) (store : SnapshotStore) :
    List Operation → Except KeyError (SnapshotStore × List (Projection × SnapshotStore))
  | [] => .ok (store, [])
  | operation :: rest => do
    let (next, returned) ← store.step epochSeconds operation
    let (final, later) ← next.run epochSeconds rest
    return (final, (returned.map (·, next)).toList ++ later)

end SnapshotStore

end Mocop
