import Mocop.Processes.Store
import Mocop.Incidents.Tracker
import Mocop.Lib.KeyedFold
import Mocop.Lib.Sorting
import Mathlib.Data.List.Dedup
import Mathlib.Data.Prod.Lex
import Mathlib.Data.String.Basic

/-!
# `Mocop.Processes.Identities`: the GPU identities of the state store

`ProcessStore` reads the tables of the store device by device, without their bounds. Here are the
tables themselves: the GPU samples, the process timelines, the live processes and the last
process samples by device, the rings cut to their capacities, and the identities of each host
from the one observed longest ago to the latest. A device that a sample lists is read out of the
tables as a `GpuDevice`, and `putProcesses` writes back what `GpuDevice.observeGpu` makes of it.

A sample that leaves a host with more than `maxGpuIdentitiesPerHost` identities evicts the
oldest ones. The eviction clears one key in all tables, and the loops that close the devices
which the sample does not list come after it. `Aligned` is the invariant of all these loops:
what the tables hold and what is initialized is a named identity. `closeRestored` edits devices
that may be evicted, and `holds_of_closeRestored` says why it brings none of them back: it only
extends a timeline that is there.

`identities_aligned` is the result over runs. The restored tables may hold hosts that are not
monitored until the first inventory is installed, so the hosts are right from that call on
(`restored_host_is_unconfigured`).
-/

set_option autoImplicit false

namespace Mocop

/-- Mirrors the probe-side GPU cap. The proofs use no value of it. -/
@[irreducible] def maxGpuIdentitiesPerHost : ℕ := 256

/-- The time of the latest restored entry, seen so far, for each device. -/
def recordLatest (latest : Dict DeviceKey String) (entry : DeviceKey × List String) :
    Dict DeviceKey String :=
  latest.set entry.1 (max (latest.getD entry.1 "") (entry.2.foldl max ""))

/-- The time of the latest restored entry of each device. -/
def RestoredTelemetry.latest (restored : RestoredTelemetry) : Dict DeviceKey String :=
  let latest := (restored.gpuHistory.entries.map
    (fun entry => (entry.1, entry.2.map (·.observedAt)))).foldl recordLatest ∅
  (restored.processEvents.entries.map
    (fun entry => (entry.1, entry.2.map (·.observedAt)))).foldl recordLatest latest

/-- The restored devices of a host that are kept: the most recently observed ones. -/
def retainedOfHost (latest : Dict DeviceKey String) (host : String) : List DeviceKey :=
  (sortBy (fun key => toLex (latest.getD key "", key.2))
    (latest.keys.filter (fun key => key.1 = host))).reverse.take maxGpuIdentitiesPerHost

/-- The restored devices that are kept. -/
def boundedRestoredGpuKeys (restored : RestoredTelemetry) : List DeviceKey :=
  (restored.latest.keys.map Prod.fst).dedup.flatMap (retainedOfHost restored.latest)

/-- Enters a restored identity of a host. -/
def rememberIdentity (identities : Dict String (List String)) (key : DeviceKey) :
    Dict String (List String) :=
  let known := identities.getD key.1 []
  identities.set key.1 (if known.contains key.2 then known else known ++ [key.2])

/-- `deque.extend` on a deque of the given capacity. -/
def extendBounded {α : Type} (capacity : ℕ) (items more : List α) : List α :=
  more.foldl (pushBounded capacity) items

/-- Adds a key to a set, or discards it. -/
def markKey (keys : List DeviceKey) (key : DeviceKey) (member : Bool) : List DeviceKey :=
  if member then if keys.contains key then keys else keys ++ [key]
  else keys.filter (· ≠ key)

/-- The GPU tables of the state store, with the hosts that decide about them. The sets of
initialized devices are one set of keys. -/
structure GpuIdentityTables where
  servers : Dict String ServerState := ∅
  nextHostIncarnation : ℕ := 1
  inventoryInitialized : Bool := false
  collectionStaleCycles : ℕ
  historyPoints : ℕ
  processEventPoints : ℕ
  gpuHistory : Dict DeviceKey (List GpuHistoryPoint)
  processEvents : Dict DeviceKey (List GpuProcessTransition)
  activeGpuProcesses : Dict DeviceKey (Dict ProcessKey GpuProcess) := ∅
  processLastObservedAt : Dict DeviceKey String := ∅
  gpuIdentities : Dict String (List String)
  processInventoryInitialized : List DeviceKey := []
  processReconciliationPending : List DeviceKey

namespace GpuIdentityTables

/-- The tables at the start of a process. The identities of a host are entered from the one
observed longest ago to the latest. -/
def start (restored : RestoredTelemetry)
    (collectionStaleCycles historyPoints incidentHistoryPoints : ℕ) : GpuIdentityTables :=
  let retained := boundedRestoredGpuKeys restored
  let latest := restored.latest
  let processEvents := (restored.processEvents.filterKeys retained.contains).mapValues
    (fun _ points => extendBounded incidentHistoryPoints [] points)
  { collectionStaleCycles
    historyPoints
    processEventPoints := incidentHistoryPoints
    gpuHistory := (restored.gpuHistory.filterKeys retained.contains).mapValues
      (fun _ points => extendBounded historyPoints [] points)
    processEvents
    gpuIdentities := (sortBy (fun key => toLex (key.1, toLex (latest.getD key "", key.2)))
      retained).foldl rememberIdentity ∅
    processReconciliationPending := processEvents.keys }

/-- The identities of a host, from the one observed longest ago to the latest. -/
def identitiesOf (tables : GpuIdentityTables) (host : String) : List String :=
  tables.gpuIdentities.getD host []

/-- What the tables hold for a device. -/
def device (tables : GpuIdentityTables) (key : DeviceKey) : GpuDevice where
  history := tables.gpuHistory.getD key []
  events := tables.processEvents.getD key []
  active := tables.activeGpuProcesses.getD key ∅
  initialized := tables.processInventoryInitialized.contains key
  lastObservedAt := tables.processLastObservedAt.get? key
  pending := tables.processReconciliationPending.contains key

/-- Writes the process tables of a device, and appends the transitions to its timeline. A device
without transitions gets no timeline, and one without processes no live table. -/
def putProcesses (tables : GpuIdentityTables) (key : DeviceKey)
    (outcome : GpuDevice × List GpuProcessTransition) : GpuIdentityTables :=
  { tables with
    processEvents :=
      if outcome.2 = [] then tables.processEvents
      else tables.processEvents.set key (extendBounded tables.processEventPoints
        (tables.processEvents.getD key []) outcome.2)
    activeGpuProcesses :=
      if outcome.1.active.entries = [] then tables.activeGpuProcesses.erase key
      else tables.activeGpuProcesses.set key outcome.1.active
    processLastObservedAt :=
      match outcome.1.lastObservedAt with
      | some observedAt => tables.processLastObservedAt.set key observedAt
      | none => tables.processLastObservedAt.erase key
    processInventoryInitialized :=
      markKey tables.processInventoryInitialized key outcome.1.initialized
    processReconciliationPending :=
      markKey tables.processReconciliationPending key outcome.1.pending }

/-- Takes one GPU of a sample in. Its identity becomes the latest of the host. -/
def observeGpu (host observedAt : String) (tables : GpuIdentityTables) (gpu : GpuMetrics) :
    GpuIdentityTables :=
  let gpuId := gpu.trackedId
  let key := (host, gpuId)
  { tables.putProcesses key ((tables.device key).observeGpu gpu observedAt) with
    gpuIdentities := tables.gpuIdentities.set host
      ((tables.identitiesOf host).filter (· ≠ gpuId) ++ [gpuId])
    gpuHistory := tables.gpuHistory.set key
      (pushBounded tables.historyPoints (tables.gpuHistory.getD key [])
        ⟨observedAt, gpu.index⟩) }

/-- Clears an evicted identity in all tables. -/
def evict (host : String) (tables : GpuIdentityTables) (gpuId : String) : GpuIdentityTables :=
  { tables with
    gpuHistory := tables.gpuHistory.erase (host, gpuId)
    processEvents := tables.processEvents.erase (host, gpuId)
    activeGpuProcesses := tables.activeGpuProcesses.erase (host, gpuId)
    processLastObservedAt := tables.processLastObservedAt.erase (host, gpuId)
    processInventoryInitialized :=
      tables.processInventoryInitialized.filter (· ≠ (host, gpuId)) }

/-- How many identities a host has over the limit. -/
def excess (tables : GpuIdentityTables) (host : String) : ℕ :=
  (tables.identitiesOf host).length - maxGpuIdentitiesPerHost

/-- Evicts the oldest identities of a host until it is within the limit. -/
def evictOldest (tables : GpuIdentityTables) (host : String) : GpuIdentityTables :=
  let identities := tables.identitiesOf host
  { (identities.take (tables.excess host)).foldl (evict host) tables with
    gpuIdentities := tables.gpuIdentities.set host (identities.drop (tables.excess host)) }

/-- Closes the confirmed occupancy of a device whose process table is gone. -/
def closeUnobservable (tables : GpuIdentityTables) (key : DeviceKey) : GpuIdentityTables :=
  tables.putProcesses key ((tables.device key).closeUnobservable key.2 none)

/-- Closes the restored open starts of a device. -/
def closeRestored (tables : GpuIdentityTables) (key : DeviceKey) : GpuIdentityTables :=
  tables.putProcesses key (tables.device key).closeRestored

/-- Closes the restored timelines of a host that the listed devices will not reconcile. -/
def closeRestoredInventory (tables : GpuIdentityTables) (host : String)
    (observedGpuIds : List String) : GpuIdentityTables :=
  (tables.processReconciliationPending.filter
    (fun key => key.1 = host && !(observedGpuIds.contains key.2))).foldl closeRestored tables

/-- Closes the initialized devices of a host that its sample does not list. -/
def closeVanishedInventory (tables : GpuIdentityTables) (host : String)
    (observedGpuIds : List String) : GpuIdentityTables :=
  (tables.processInventoryInitialized.filter
    (fun key => key.1 = host && !(observedGpuIds.contains key.2))).foldl closeUnobservable tables

/-- Takes the GPUs of an online sample in. -/
def trackGpuTelemetry (tables : GpuIdentityTables) (result : ProbeResult) : GpuIdentityTables :=
  let observed := result.observedGpuIds
  let tables := (result.gpus.foldl (observeGpu result.host result.observedAt) tables).evictOldest
    result.host
  let tables := (tables.closeVanishedInventory result.host observed).closeRestoredInventory
    result.host observed
  { tables with
    processInventoryInitialized := tables.processInventoryInitialized.filter
      (fun key => !(key.1 = result.host && !(observed.contains key.2))) }

/-- Closes what the devices of a stale host leave behind. -/
def invalidateProcessInventory (tables : GpuIdentityTables) (host : String) : GpuIdentityTables :=
  let initialized := tables.processInventoryInitialized.filter (·.1 = host)
  let tables := { tables with
    processInventoryInitialized :=
      tables.processInventoryInitialized.filter (fun key => key.1 ≠ host) }
  (initialized.foldl closeUnobservable tables).closeRestoredInventory host []

/-- Adds a host under a new incarnation. -/
def addServer (tables : GpuIdentityTables) (host : String) : GpuIdentityTables :=
  if tables.servers.contains host then tables
  else
    { tables with
      servers := tables.servers.set host { incarnation := tables.nextHostIncarnation }
      nextHostIncarnation := tables.nextHostIncarnation + 1 }

/-- Whether the tables of a host are forgotten: the first inventory forgets the hosts that it
does not list, and a later one those that it removes. -/
def isStale (tables : GpuIdentityTables) (hosts : List String) (host : String) : Bool :=
  if tables.inventoryInitialized then tables.servers.contains host && !(hosts.contains host)
  else !(hosts.contains host)

/-- Forgets what the tables hold for some hosts. -/
def forgetHosts (tables : GpuIdentityTables) (stale : String → Bool) : GpuIdentityTables :=
  { tables with
    gpuHistory := tables.gpuHistory.filterKeys (fun key => !stale key.1)
    processEvents := tables.processEvents.filterKeys (fun key => !stale key.1)
    activeGpuProcesses := tables.activeGpuProcesses.filterKeys (fun key => !stale key.1)
    processLastObservedAt := tables.processLastObservedAt.filterKeys (fun key => !stale key.1)
    gpuIdentities := tables.gpuIdentities.filterKeys (fun host => !stale host)
    processInventoryInitialized :=
      tables.processInventoryInitialized.filter (fun key => !stale key.1)
    processReconciliationPending :=
      tables.processReconciliationPending.filter (fun key => !stale key.1) }

/-- Installs the monitored hosts. -/
def setHosts (tables : GpuIdentityTables) (hosts : List String) : GpuIdentityTables :=
  hosts.foldl addServer
    { tables.forgetHosts (tables.isStale hosts) with
      servers := tables.servers.filterKeys hosts.contains
      inventoryInitialized := true }

/-- Takes a sample in, for a known host of the expected incarnation. -/
def apply (tables : GpuIdentityTables) (result : ProbeResult) (expectedIncarnation : Option ℕ) :
    GpuIdentityTables :=
  match tables.servers.get? result.host with
  | none => tables
  | some state =>
    if expectedIncarnation ≠ none ∧ some state.incarnation ≠ expectedIncarnation then tables
    else if result.status = .online then
      { tables.trackGpuTelemetry result with
        servers := tables.servers.set result.host { state with consecutiveFailures := 0 } }
    else
      { (if tables.collectionStaleCycles ≤ state.consecutiveFailures + 1 then
          tables.invalidateProcessInventory result.host
        else tables) with
        servers := tables.servers.set result.host
          { state with consecutiveFailures := state.consecutiveFailures + 1 } }

/-- One call. -/
def step (tables : GpuIdentityTables) : ProcessStore.Operation → GpuIdentityTables
  | .setHosts hosts => tables.setHosts hosts
  | .apply result expectedIncarnation => tables.apply result expectedIncarnation

/-- A run of calls. -/
def run (tables : GpuIdentityTables) (calls : List ProcessStore.Operation) : GpuIdentityTables :=
  calls.foldl step tables

/-- Whether a table holds an entry of a device: its GPU history, its process events, its live
processes, or the time of its last process sample. -/
def Holds (tables : GpuIdentityTables) (key : DeviceKey) : Prop :=
  tables.gpuHistory.contains key ∨ tables.processEvents.contains key
    ∨ tables.activeGpuProcesses.contains key ∨ tables.processLastObservedAt.contains key

instance (tables : GpuIdentityTables) (key : DeviceKey) : Decidable (tables.Holds key) :=
  inferInstanceAs (Decidable (_ ∨ _))

/-- Whether a device is a kept identity of its host. -/
def Names (tables : GpuIdentityTables) (key : DeviceKey) : Prop := key.2 ∈ tables.identitiesOf key.1

instance (tables : GpuIdentityTables) (key : DeviceKey) : Decidable (tables.Names key) :=
  inferInstanceAs (Decidable (_ ∈ _))

end GpuIdentityTables

/-- Whether a call takes a new sample of a device in: an online sample of its host lists it. -/
def ProcessStore.Operation.Lists : ProcessStore.Operation → DeviceKey → Prop
  | .setHosts _, _ => False
  | .apply result _, key =>
    result.host = key.1 ∧ result.status = .online ∧ key.2 ∈ result.observedGpuIds

namespace GpuIdentityTables

/-- What the tables hold and what is initialized is a kept identity. -/
structure Aligned (tables : GpuIdentityTables) : Prop where
  kept : ∀ key, tables.Holds key → tables.Names key
  initialized : ∀ key ∈ tables.processInventoryInitialized, tables.Names key

variable {tables : GpuIdentityTables} {key other : DeviceKey} {host : String}

/-- The members of a set after one key was added or discarded. -/
theorem mem_markKey {keys : List DeviceKey} {member : Bool} :
    other ∈ markKey keys key member ↔ if other = key then member = true else other ∈ keys := by
  unfold markKey
  by_cases hkey : other = key
  · subst hkey
    cases member with
    | false => simp
    | true =>
      by_cases hmem : other ∈ keys
      · simp [hmem]
      · simp [hmem]
  · cases member with
    | false => simp [hkey]
    | true =>
      by_cases hmem : key ∈ keys
      · simp [hmem, hkey]
      · simp [hmem, hkey]

/-! ### One device -/

variable {outcome : GpuDevice × List GpuProcessTransition}

/-- The devices with a timeline after one device was written back. -/
theorem processEvents_putProcesses :
    (tables.putProcesses key outcome).processEvents.contains other = true ↔
      tables.processEvents.contains other = true ∨ other = key ∧ outcome.2 ≠ [] := by
  show (if outcome.2 = [] then tables.processEvents else _ : Dict _ _).contains other = true ↔ _
  by_cases hnone : outcome.2 = []
  · simp [hnone]
  · by_cases hkey : other = key
    · simp [hnone, hkey]
    · simp [hnone, hkey]

/-- The devices with a live table after one device was written back. -/
theorem active_putProcesses :
    (tables.putProcesses key outcome).activeGpuProcesses.contains other = true ↔
      if other = key then outcome.1.active.entries ≠ []
      else tables.activeGpuProcesses.contains other = true := by
  show (if outcome.1.active.entries = [] then _ else _ : Dict _ _).contains other = true ↔ _
  by_cases hnone : outcome.1.active.entries = []
  · by_cases hkey : other = key
    · simp [hnone, hkey]
    · simp [hnone, hkey]
  · by_cases hkey : other = key
    · simp [hnone, hkey]
    · simp [hnone, hkey]

/-- The devices with a last process sample after one device was written back. -/
theorem lastObserved_putProcesses :
    (tables.putProcesses key outcome).processLastObservedAt.get? other
      = if other = key then outcome.1.lastObservedAt
        else tables.processLastObservedAt.get? other := by
  unfold putProcesses
  cases htime : outcome.1.lastObservedAt with
  | none => simp
  | some time => simp

/-- A device that was written back is held as before unless it is the written one. -/
theorem holds_of_putProcesses (h : (tables.putProcesses key outcome).Holds other) :
    other = key ∨ tables.Holds other := by
  by_cases hkey : other = key
  · exact Or.inl hkey
  · right
    rcases h with h | h | h | h
    · exact Or.inl h
    · rcases processEvents_putProcesses.mp h with h | ⟨h, -⟩
      · exact Or.inr (Or.inl h)
      · exact absurd h hkey
    · rw [active_putProcesses, if_neg hkey] at h
      exact Or.inr (Or.inr (Or.inl h))
    · rw [Dict.contains_eq, lastObserved_putProcesses, if_neg hkey] at h
      exact Or.inr (Or.inr (Or.inr h))

/-- The initialized devices after one device was written back. -/
theorem initialized_of_putProcesses
    (h : other ∈ (tables.putProcesses key outcome).processInventoryInitialized) :
    other = key ∧ outcome.1.initialized = true
      ∨ other ∈ tables.processInventoryInitialized := by
  have hmem : other ∈ markKey tables.processInventoryInitialized key outcome.1.initialized := h
  rw [mem_markKey] at hmem
  by_cases hkey : other = key
  · rw [if_pos hkey] at hmem
    exact Or.inl ⟨hkey, hmem⟩
  · rw [if_neg hkey] at hmem
    exact Or.inr hmem

/-- Writing a named device back keeps the tables aligned. -/
theorem Aligned.putProcesses (h : tables.Aligned) (hkey : tables.Names key)
    (outcome : GpuDevice × List GpuProcessTransition) :
    (tables.putProcesses key outcome).Aligned where
  kept := fun other hholds => by
    rcases holds_of_putProcesses hholds with rfl | hholds
    · exact hkey
    · exact h.kept other hholds
  initialized := fun other hmem => by
    rcases initialized_of_putProcesses hmem with ⟨rfl, -⟩ | hmem
    · exact hkey
    · exact h.initialized other hmem

/-- Closing a restored timeline leaves the live processes alone, and it emits transitions only
for a timeline that is there. -/
theorem closeRestored_spec (device : GpuDevice) :
    device.closeRestored.1.active = device.active
      ∧ device.closeRestored.1.lastObservedAt = device.lastObservedAt
      ∧ device.closeRestored.1.initialized = device.initialized
      ∧ (device.closeRestored.2 ≠ [] → device.events ≠ []) := by
  unfold GpuDevice.closeRestored
  split
  · split
    · exact ⟨rfl, rfl, rfl, fun h => absurd rfl h⟩
    · rename_i last hlast
      refine ⟨rfl, rfl, rfl, fun _ hnone => ?_⟩
      rw [hnone] at hlast
      simp at hlast
  · exact ⟨rfl, rfl, rfl, fun h => absurd rfl h⟩

/-- Closing a restored timeline, also one of an evicted identity, brings no entry back. -/
theorem holds_of_closeRestored (h : (tables.closeRestored key).Holds other) :
    tables.Holds other := by
  obtain ⟨hactive, hlast, -, hevents⟩ := closeRestored_spec (tables.device key)
  by_cases hkey : other = key
  · subst hkey
    rcases h with h | h | h | h
    · exact Or.inl h
    · rcases processEvents_putProcesses.mp h with h | ⟨-, hnew⟩
      · exact Or.inr (Or.inl h)
      · -- a timeline with transitions has an entry of its own
        have hfilled : tables.processEvents.getD other [] ≠ [] := hevents hnew
        refine Or.inr (Or.inl ?_)
        rw [Dict.contains_eq]
        rw [Dict.getD_eq] at hfilled
        cases hget : tables.processEvents.get? other with
        | none => simp [hget] at hfilled
        | some events => rfl
    · have hfilled : (tables.device other).active.entries ≠ [] := by
        rw [closeRestored, active_putProcesses, if_pos rfl, hactive] at h
        exact h
      refine Or.inr (Or.inr (Or.inl ?_))
      rw [Dict.contains_eq]
      cases hget : tables.activeGpuProcesses.get? other with
      | none => simp [device, Dict.getD_eq, hget] at hfilled; exact absurd rfl hfilled
      | some processes => rfl
    · rw [closeRestored, Dict.contains_eq, lastObserved_putProcesses, if_pos rfl, hlast] at h
      exact Or.inr (Or.inr (Or.inr h))
  · exact (holds_of_putProcesses h).resolve_left hkey

/-- Closing a restored timeline keeps the tables aligned, whatever its device is. -/
theorem Aligned.closeRestored (h : tables.Aligned) (key : DeviceKey) :
    (tables.closeRestored key).Aligned where
  kept := fun other hholds => h.kept other (holds_of_closeRestored hholds)
  initialized := fun other hmem => by
    obtain ⟨-, -, hinitialized, -⟩ := closeRestored_spec (tables.device key)
    rcases initialized_of_putProcesses hmem with ⟨rfl, hset⟩ | hmem
    · rw [hinitialized] at hset
      exact h.initialized other (List.contains_iff_mem.mp hset)
    · exact h.initialized other hmem

/-! ### One sample -/

/-- The identities after a GPU was taken in: its own, and those there were. -/
theorem names_observeGpu {observedAt : String} {gpu : GpuMetrics} :
    (observeGpu host observedAt tables gpu).Names key ↔
      key = (host, gpu.trackedId) ∨ tables.Names key := by
  show key.2 ∈ (tables.gpuIdentities.set host _).getD key.1 [] ↔ _
  rw [Dict.getD_eq, Dict.get?_set]
  by_cases hhost : key.1 = host
  · have hnames : tables.Names key ↔ key.2 ∈ tables.identitiesOf host := by rw [Names, hhost]
    rw [if_pos hhost, Option.getD_some, List.mem_append, List.mem_filter, List.mem_singleton, hnames,
      Prod.ext_iff]
    by_cases hid : key.2 = gpu.trackedId
    · simp [hid, hhost]
    · simp [hid]
  · rw [if_neg hhost]
    have hne : key ≠ (host, gpu.trackedId) := fun h => hhost (h ▸ rfl)
    simp only [hne, false_or]
    exact Iff.rfl

/-- A GPU of a sample keeps the tables aligned. -/
theorem Aligned.observeGpu (h : tables.Aligned) (observedAt : String) (gpu : GpuMetrics) :
    (observeGpu host observedAt tables gpu).Aligned where
  kept := fun other hholds => by
    rw [names_observeGpu]
    rcases hholds with hheld | hheld
    · by_cases hother : other = (host, gpu.trackedId)
      · exact Or.inl hother
      · have hbefore : tables.gpuHistory.contains other = true := by
          have hset : (tables.gpuHistory.set _ _).contains other = true := hheld
          rwa [Dict.contains_eq, Dict.get?_set, if_neg hother] at hset
        exact Or.inr (h.kept other (Or.inl hbefore))
    · exact (holds_of_putProcesses (Or.inr hheld)).imp id (h.kept other)
  initialized := fun other hmem => by
    rw [names_observeGpu]
    rcases initialized_of_putProcesses hmem with ⟨hother, -⟩ | hmem
    · exact Or.inl hother
    · exact Or.inr (h.initialized other hmem)

/-- An eviction clears what the tables hold for its device. -/
theorem device_evict (gpuId : String) : (evict host tables gpuId).device other
    = if other = (host, gpuId) then (tables.device other).evict else tables.device other := by
  by_cases hother : other = (host, gpuId)
  · simp [device, evict, GpuDevice.evict, hother, Dict.getD]
  · simp [device, evict, hother, Dict.getD]

/-- What the tables hold after some identities of a host were cleared. -/
theorem holds_evictAll (gpuIds : List String) :
    (gpuIds.foldl (evict host) tables).Holds other ↔
      tables.Holds other ∧ ¬ (other.1 = host ∧ other.2 ∈ gpuIds) := by
  induction gpuIds generalizing tables with
  | nil => simp
  | cons gpuId rest ih =>
    have hevict : (evict host tables gpuId).Holds other ↔
        tables.Holds other ∧ other ≠ (host, gpuId) := by
      by_cases hother : other = (host, gpuId)
      · simp [Holds, evict, hother]
      · simp [Holds, evict, hother]
    rw [List.foldl_cons, ih, hevict, ne_eq, Prod.ext_iff, List.mem_cons]
    tauto

/-- The initialized devices after some identities of a host were cleared. -/
theorem initialized_evictAll (gpuIds : List String) :
    other ∈ (gpuIds.foldl (evict host) tables).processInventoryInitialized ↔
      other ∈ tables.processInventoryInitialized
        ∧ ¬ (other.1 = host ∧ other.2 ∈ gpuIds) := by
  induction gpuIds generalizing tables with
  | nil => simp
  | cons gpuId rest ih =>
    have hevict : other ∈ (evict host tables gpuId).processInventoryInitialized ↔
        other ∈ tables.processInventoryInitialized ∧ other ≠ (host, gpuId) := by
      simp [evict]
    rw [List.foldl_cons, ih, hevict, ne_eq, Prod.ext_iff, List.mem_cons]
    tauto

/-- The identities after the oldest ones were evicted. -/
theorem identitiesOf_evictOldest (name : String) :
    (tables.evictOldest host).identitiesOf name
      = if name = host then (tables.identitiesOf host).drop (tables.excess host)
        else tables.identitiesOf name := by
  show (tables.gpuIdentities.set host _).getD name [] = _
  rw [Dict.getD_eq, Dict.get?_set]
  by_cases hname : name = host
  · rw [if_pos hname, if_pos hname, Option.getD_some]
  · rw [if_neg hname, if_neg hname]
    rfl

/-- A device that is not evicted stays a kept identity. -/
theorem names_evictOldest (hnames : tables.Names key)
    (hkept : ¬ (key.1 = host ∧ key.2 ∈ (tables.identitiesOf host).take (tables.excess host))) :
    (tables.evictOldest host).Names key := by
  rw [Names, identitiesOf_evictOldest]
  by_cases hhost : key.1 = host
  · rw [if_pos hhost]
    have hmem : key.2 ∈ tables.identitiesOf host := hhost ▸ hnames
    rw [← List.take_append_drop (tables.excess host) (tables.identitiesOf host),
      List.mem_append] at hmem
    exact hmem.resolve_left (fun htaken => hkept ⟨hhost, htaken⟩)
  · rw [if_neg hhost]
    exact hnames

/-- Clearing some identities of a host keeps the tables aligned with what is left of them. -/
theorem Aligned.evictAll (h : tables.Aligned) {gpuIds : List String}
    {identities : Dict String (List String)}
    (hleft : ∀ key, tables.Names key → ¬ (key.1 = host ∧ key.2 ∈ gpuIds) →
      key.2 ∈ identities.getD key.1 []) :
    { gpuIds.foldl (evict host) tables with
        gpuIdentities := identities : GpuIdentityTables }.Aligned where
  kept := fun other hholds => by
    have hheld : (gpuIds.foldl (evict host) tables).Holds other := hholds
    obtain ⟨hbefore, hkept⟩ := (holds_evictAll gpuIds).mp hheld
    exact hleft other (h.kept other hbefore) hkept
  initialized := fun other hmem => by
    obtain ⟨hbefore, hkept⟩ := (initialized_evictAll gpuIds).mp hmem
    exact hleft other (h.initialized other hbefore) hkept

/-- Evicting the oldest identities keeps the tables aligned. -/
theorem Aligned.evictOldest (h : tables.Aligned) (host : String) :
    (tables.evictOldest host).Aligned :=
  h.evictAll (fun _ hnames hkept => names_evictOldest hnames hkept)

/-- Evicting identities leaves the inventory alone. -/
theorem inventory_evictOldest (host : String) :
    (tables.evictOldest host).inventoryInitialized = tables.inventoryInitialized := by
  unfold evictOldest
  exact @foldl_keeps _ _ _ (evict host) GpuIdentityTables.inventoryInitialized
    (fun _ _ => rfl) _ tables

/-- After the eviction the host is within the limit. -/
theorem length_evictOldest :
    ((tables.evictOldest host).identitiesOf host).length ≤ maxGpuIdentitiesPerHost := by
  rw [identitiesOf_evictOldest, if_pos rfl, List.length_drop, excess]
  omega

/-- Closing named devices keeps the tables aligned. -/
theorem Aligned.closeAll (h : tables.Aligned) (keys : List DeviceKey)
    (hkeys : ∀ key ∈ keys, tables.Names key) :
    (keys.foldl closeUnobservable tables).Aligned := by
  induction keys generalizing tables with
  | nil => exact h
  | cons key rest ih =>
    have hfirst : tables.Names key := hkeys key List.mem_cons_self
    -- the identities stay, so the later devices are still named
    exact ih (h.putProcesses hfirst _)
      (fun other hother => hkeys other (List.mem_cons_of_mem _ hother))

/-- Closing restored timelines keeps the tables aligned. -/
theorem Aligned.closeRestoredInventory (h : tables.Aligned) (host : String)
    (observedGpuIds : List String) :
    (tables.closeRestoredInventory host observedGpuIds).Aligned := by
  unfold GpuIdentityTables.closeRestoredInventory
  exact List.foldlRecOn _ _ h (fun _ haligned key _ => haligned.closeRestored key)

/-- Discarding initialized devices keeps the tables aligned. -/
theorem Aligned.uninitialize (h : tables.Aligned) (keep : DeviceKey → Bool) :
    { tables with
      processInventoryInitialized :=
        tables.processInventoryInitialized.filter keep : GpuIdentityTables }.Aligned where
  kept := h.kept
  initialized := fun key hmem => h.initialized key (List.mem_of_mem_filter hmem)

/-- The tables once the GPUs of a sample were taken in. -/
theorem observeAll_spec (h : tables.Aligned) (host observedAt : String) (gpus : List GpuMetrics) :
    (gpus.foldl (GpuIdentityTables.observeGpu host observedAt) tables).Aligned
      ∧ (gpus.foldl (GpuIdentityTables.observeGpu host observedAt) tables).inventoryInitialized
          = tables.inventoryInitialized
      ∧ ∀ key, (gpus.foldl (GpuIdentityTables.observeGpu host observedAt) tables).Names key ↔
          tables.Names key ∨ key.1 = host ∧ key.2 ∈ gpus.map GpuMetrics.trackedId := by
  induction gpus generalizing tables with
  | nil => exact ⟨h, rfl, fun key => by simp⟩
  | cons gpu rest ih =>
    obtain ⟨haligned, hinventory, hnames⟩ := ih (h.observeGpu observedAt gpu)
    refine ⟨haligned, hinventory, fun key => ?_⟩
    rw [List.foldl_cons, hnames key, names_observeGpu, Prod.ext_iff, List.map_cons,
      List.mem_cons]
    tauto

/-- The GPUs of a sample leave the identities of other hosts alone. -/
theorem identitiesOf_observeAll {name observedAt : String} (hname : name ≠ host)
    (gpus : List GpuMetrics) :
    (gpus.foldl (GpuIdentityTables.observeGpu host observedAt) tables).identitiesOf name
      = tables.identitiesOf name := by
  refine foldl_keeps (fun tables : GpuIdentityTables => tables.identitiesOf name)
    (fun tables gpu => ?_)
    gpus tables
  show (tables.gpuIdentities.set host _).getD name [] = _
  rw [Dict.getD_eq, Dict.get?_set, if_neg hname]
  rfl

/-- Closing the devices of a host touches neither the identities nor the inventory. -/
theorem closings_frame (keys : List DeviceKey) (host : String) (observedGpuIds : List String) :
    ((keys.foldl closeUnobservable tables).closeRestoredInventory host
        observedGpuIds).gpuIdentities = tables.gpuIdentities
      ∧ ((keys.foldl closeUnobservable tables).closeRestoredInventory host
          observedGpuIds).inventoryInitialized = tables.inventoryInitialized := by
  unfold closeRestoredInventory
  constructor
  · rw [@foldl_keeps _ _ _ closeRestored GpuIdentityTables.gpuIdentities (fun _ _ => rfl),
      @foldl_keeps _ _ _ closeUnobservable GpuIdentityTables.gpuIdentities (fun _ _ => rfl)]
  · rw [@foldl_keeps _ _ _ closeRestored GpuIdentityTables.inventoryInitialized (fun _ _ => rfl),
      @foldl_keeps _ _ _ closeUnobservable GpuIdentityTables.inventoryInitialized (fun _ _ => rfl)]

/-- The loops that close the devices which a sample does not list. What is initialized is a kept
identity, also after an eviction. -/
theorem closeUnlisted_spec (h : tables.Aligned) (host : String) (observedGpuIds : List String) :
    ((tables.closeVanishedInventory host observedGpuIds).closeRestoredInventory host
        observedGpuIds).Aligned
      ∧ ((tables.closeVanishedInventory host observedGpuIds).closeRestoredInventory host
          observedGpuIds).gpuIdentities = tables.gpuIdentities
      ∧ ((tables.closeVanishedInventory host observedGpuIds).closeRestoredInventory host
          observedGpuIds).inventoryInitialized = tables.inventoryInitialized := by
  have hclosed : (tables.closeVanishedInventory host observedGpuIds).Aligned :=
    h.closeAll _ (fun key hkey => h.initialized key (List.mem_of_mem_filter hkey))
  exact ⟨hclosed.closeRestoredInventory host observedGpuIds, closings_frame _ host observedGpuIds⟩

/-- An online sample keeps the tables aligned. Its host ends within the limit, with no identities
but the former and the listed ones, and the other hosts keep theirs. -/
theorem trackGpuTelemetry_spec (h : tables.Aligned) (result : ProbeResult) :
    (tables.trackGpuTelemetry result).Aligned
      ∧ (tables.trackGpuTelemetry result).inventoryInitialized = tables.inventoryInitialized
      ∧ ((tables.trackGpuTelemetry result).identitiesOf result.host).length
          ≤ maxGpuIdentitiesPerHost
      ∧ (∀ name, name ≠ result.host →
          (tables.trackGpuTelemetry result).identitiesOf name = tables.identitiesOf name)
      ∧ ∀ key, (tables.trackGpuTelemetry result).Names key →
          tables.Names key ∨ key.1 = result.host ∧ key.2 ∈ result.observedGpuIds := by
  obtain ⟨hobserved, hinventory, hnames⟩ :=
    observeAll_spec h result.host result.observedAt result.gpus
  obtain ⟨hclosed, hidentities, hflag⟩ := closeUnlisted_spec
    (hobserved.evictOldest result.host) result.host result.observedGpuIds
  have hsame : ∀ name, (tables.trackGpuTelemetry result).identitiesOf name
      = ((result.gpus.foldl (GpuIdentityTables.observeGpu result.host result.observedAt)
          tables).evictOldest result.host).identitiesOf name :=
    fun name => congrArg (fun identities => identities.getD name []) hidentities
  refine ⟨hclosed.uninitialize _, ?_, ?_, ?_, ?_⟩
  · show _ = tables.inventoryInitialized
    rw [← hinventory]
    exact hflag.trans (inventory_evictOldest result.host)
  · rw [hsame]
    exact length_evictOldest
  · intro name hname
    rw [hsame, identitiesOf_evictOldest, if_neg hname, identitiesOf_observeAll hname]
  · intro key hkey
    rw [Names, hsame, identitiesOf_evictOldest] at hkey
    rw [ProbeResult.observedGpuIds, ← hnames key]
    by_cases hhost : key.1 = result.host
    · rw [if_pos hhost] at hkey
      rw [Names, hhost]
      exact List.mem_of_mem_drop hkey
    · rw [if_neg hhost] at hkey
      exact hkey

/-- A host that turns stale keeps the tables aligned, and its identities. -/
theorem invalidateProcessInventory_spec (h : tables.Aligned) (host : String) :
    (tables.invalidateProcessInventory host).Aligned
      ∧ (tables.invalidateProcessInventory host).gpuIdentities = tables.gpuIdentities
      ∧ (tables.invalidateProcessInventory host).inventoryInitialized
          = tables.inventoryInitialized := by
  have hclosed := (h.uninitialize (fun key => key.1 ≠ host)).closeAll
    (tables.processInventoryInitialized.filter (·.1 = host))
    (fun key hkey => h.initialized key (List.mem_of_mem_filter hkey))
  exact ⟨hclosed.closeRestoredInventory host [], closings_frame _ host []⟩

/-! ### A run -/

/-- The invariant of a run: the tables are aligned, every host is within the limit, and from the
first inventory on the identities are those of monitored hosts. -/
structure Bounded (tables : GpuIdentityTables) : Prop where
  aligned : tables.Aligned
  limit : ∀ host, (tables.identitiesOf host).length ≤ maxGpuIdentitiesPerHost
  configured : tables.inventoryInitialized = true →
    ∀ key, tables.Names key → tables.servers.contains key.1 = true

/-- Which hosts are monitored after some were added. -/
theorem servers_addServers (hosts : List String) :
    (hosts.foldl addServer tables).servers.contains host = true ↔
      tables.servers.contains host = true ∨ host ∈ hosts := by
  induction hosts generalizing tables with
  | nil => simp
  | cons first rest ih =>
    have hadd : (tables.addServer first).servers.contains host = true ↔
        tables.servers.contains host = true ∨ host = first := by
      unfold addServer
      by_cases hknown : tables.servers.contains first = true
      · rw [if_pos hknown]
        exact ⟨Or.inl, fun h => h.elim id (fun h => h ▸ hknown)⟩
      · rw [if_neg hknown]
        by_cases hhost : host = first
        · simp [hhost]
        · simp [hhost]
    rw [List.foldl_cons, ih, hadd, List.mem_cons, or_assoc]

/-- What only reads the tables by device does not see the hosts. -/
theorem addServers_frame {β : Type} (read : GpuIdentityTables → β)
    (hread : ∀ (tables : GpuIdentityTables) servers nextHostIncarnation,
      read { tables with servers, nextHostIncarnation } = read tables)
    (hosts : List String) : read (hosts.foldl addServer tables) = read tables := by
  refine foldl_keeps read (fun tables host => ?_) hosts tables
  unfold addServer
  split
  · rfl
  · exact hread tables _ _

/-- What the tables hold of the hosts that are not forgotten. -/
theorem holds_forgetHosts {stale : String → Bool} :
    (tables.forgetHosts stale).Holds key ↔ tables.Holds key ∧ stale key.1 = false := by
  unfold Holds forgetHosts
  cases hstale : stale key.1 with
  | true => simp [hstale]
  | false => simp [hstale]

/-- The identities of the hosts that are not forgotten. -/
theorem identitiesOf_forgetHosts {stale : String → Bool} (name : String) :
    (tables.forgetHosts stale).identitiesOf name
      = if stale name then [] else tables.identitiesOf name := by
  unfold identitiesOf forgetHosts
  rw [Dict.getD_eq, Dict.get?_filterKeys]
  cases hstale : stale name with
  | true => simp
  | false => simp [Dict.getD_eq]

/-- Installing hosts forgets the tables of the hosts that are not monitored any more. -/
theorem identitiesOf_setHosts (hosts : List String) (name : String) :
    (tables.setHosts hosts).identitiesOf name
      = if tables.isStale hosts name then [] else tables.identitiesOf name := by
  unfold setHosts
  rw [addServers_frame (fun tables => tables.identitiesOf name) (fun _ _ _ => rfl)]
  exact identitiesOf_forgetHosts name

/-- Installing hosts keeps the tables aligned. -/
theorem Aligned.setHosts (h : tables.Aligned) (hosts : List String) :
    (tables.setHosts hosts).Aligned where
  kept := fun key hholds => by
    unfold GpuIdentityTables.setHosts at hholds
    rw [addServers_frame (fun tables => tables.Holds key) (fun _ _ _ => rfl)] at hholds
    obtain ⟨hbefore, hstale⟩ : tables.Holds key ∧ tables.isStale hosts key.1 = false :=
      holds_forgetHosts.mp hholds
    rw [Names, identitiesOf_setHosts, hstale]
    exact h.kept key hbefore
  initialized := fun key hmem => by
    unfold GpuIdentityTables.setHosts at hmem
    rw [addServers_frame GpuIdentityTables.processInventoryInitialized (fun _ _ _ => rfl)] at hmem
    obtain ⟨hbefore, hstale⟩ := List.mem_filter.mp hmem
    rw [Names, identitiesOf_setHosts, if_neg (by simpa using hstale)]
    exact h.initialized key hbefore

/-- Installing hosts keeps the invariant, and afterwards the inventory is initialized. -/
theorem Bounded.setHosts (h : tables.Bounded) (hosts : List String) :
    (tables.setHosts hosts).Bounded where
  aligned := h.aligned.setHosts hosts
  limit := fun host => by
    rw [identitiesOf_setHosts]
    cases tables.isStale hosts host with
    | true => exact Nat.zero_le _
    | false => exact h.limit host
  configured := fun _ key hnames => by
    rw [Names, identitiesOf_setHosts] at hnames
    unfold GpuIdentityTables.setHosts
    rw [servers_addServers]
    cases hstale : tables.isStale hosts key.1 with
    | true => simp [hstale] at hnames
    | false =>
      right
      rw [hstale] at hnames
      unfold isStale at hstale
      by_cases hinventory : tables.inventoryInitialized = true
      · have hknown := h.configured hinventory key hnames
        rw [if_pos hinventory, hknown] at hstale
        simpa using hstale
      · simpa [hinventory] using hstale

/-- What a sample makes of the tables. -/
theorem apply_cases (tables : GpuIdentityTables) (result : ProbeResult)
    (expectedIncarnation : Option ℕ) :
    tables.apply result expectedIncarnation = tables ∨
      ∃ state, tables.servers.contains result.host = true ∧
        (result.status = .online ∧ tables.apply result expectedIncarnation
            = { tables.trackGpuTelemetry result with
                servers := tables.servers.set result.host state } ∨
          tables.apply result expectedIncarnation
            = { tables.invalidateProcessInventory result.host with
                servers := tables.servers.set result.host state } ∨
          tables.apply result expectedIncarnation
            = { tables with servers := tables.servers.set result.host state }) := by
  unfold apply
  cases hserver : tables.servers.get? result.host with
  | none => exact Or.inl rfl
  | some state =>
    have hknown : tables.servers.contains result.host = true := by
      rw [Dict.contains_eq, hserver]
      rfl
    dsimp only
    split
    · exact Or.inl rfl
    · split
      · rename_i honline
        exact Or.inr ⟨_, hknown, Or.inl ⟨honline, rfl⟩⟩
      · split
        · exact Or.inr ⟨_, hknown, Or.inr (Or.inl rfl)⟩
        · exact Or.inr ⟨_, hknown, Or.inr (Or.inr rfl)⟩

/-- What the servers of a known host read after its state was replaced. -/
theorem contains_set_server {state : ServerState} {name : String}
    (h : tables.servers.contains name = true) :
    (tables.servers.set host state).contains name = true := by
  rw [Dict.contains_eq, Dict.get?_set]
  split
  · rfl
  · exact h

/-- A call keeps the invariant, and the only identities that it adds are those that it lists. -/
theorem step_spec (h : tables.Bounded) (call : ProcessStore.Operation) :
    (tables.step call).Bounded
      ∧ ∀ key, (tables.step call).Names key → tables.Names key ∨ call.Lists key := by
  cases call with
  | setHosts hosts =>
    refine ⟨h.setHosts hosts, fun key hnames => ?_⟩
    have hread : key.2 ∈ (tables.setHosts hosts).identitiesOf key.1 := hnames
    rw [identitiesOf_setHosts] at hread
    cases hstale : tables.isStale hosts key.1 with
    | true => simp [hstale] at hread
    | false =>
      rw [hstale] at hread
      exact Or.inl hread
  | apply result expectedIncarnation =>
    show (tables.apply result expectedIncarnation).Bounded ∧ ∀ key,
      (tables.apply result expectedIncarnation).Names key → _
    rcases apply_cases tables result expectedIncarnation with
      heq | ⟨state, hknown, ⟨honline, heq⟩ | heq | heq⟩
    · rw [heq]
      exact ⟨h, fun key hnames => Or.inl hnames⟩
    · rw [heq]
      obtain ⟨haligned, hinventory, hlimit, hothers, hnames⟩ :=
        trackGpuTelemetry_spec h.aligned result
      refine ⟨⟨⟨haligned.kept, haligned.initialized⟩, fun name => ?_, fun hflag key hkey => ?_⟩,
        fun key hkey => (hnames key hkey).imp id (fun ⟨hhost, hlisted⟩ =>
          ⟨hhost.symm, honline, hlisted⟩)⟩
      · show ((tables.trackGpuTelemetry result).identitiesOf name).length ≤ _
        by_cases hname : name = result.host
        · rw [hname]
          exact hlimit
        · rw [hothers name hname]
          exact h.limit name
      · rcases hnames key hkey with hbefore | ⟨hhost, -⟩
        · exact contains_set_server (h.configured (hinventory ▸ hflag) key hbefore)
        · exact contains_set_server (hhost ▸ hknown)
    · rw [heq]
      obtain ⟨haligned, hidentities, hinventory⟩ :=
        invalidateProcessInventory_spec h.aligned result.host
      have hsame : ∀ name, (tables.invalidateProcessInventory result.host).identitiesOf name
          = tables.identitiesOf name :=
        fun name => congrArg (fun identities => identities.getD name []) hidentities
      have hnames : ∀ key, (tables.invalidateProcessInventory result.host).Names key →
          tables.Names key := fun key hkey => by rwa [Names, hsame] at hkey
      exact ⟨⟨⟨haligned.kept, haligned.initialized⟩,
        fun name => (congrArg List.length (hsame name)).le.trans (h.limit name),
        fun hflag key hkey =>
          contains_set_server (h.configured (hinventory ▸ hflag) key (hnames key hkey))⟩,
        fun key hkey => Or.inl (hnames key hkey)⟩
    · rw [heq]
      exact ⟨⟨⟨h.aligned.kept, h.aligned.initialized⟩, h.limit,
        fun hflag key hkey => contains_set_server (h.configured hflag key hkey)⟩,
        fun key hkey => Or.inl hkey⟩

/-- The inventory is initialized by the first installed hosts, and stays so. -/
theorem inventory_step (h : tables.Bounded) (call : ProcessStore.Operation)
    (hset : tables.inventoryInitialized = true ∨ ∃ hosts, call = .setHosts hosts) :
    (tables.step call).inventoryInitialized = true := by
  cases call with
  | setHosts hosts =>
    exact addServers_frame GpuIdentityTables.inventoryInitialized (fun _ _ _ => rfl) hosts
  | apply result expectedIncarnation =>
    have hbefore : tables.inventoryInitialized = true :=
      hset.resolve_right (fun ⟨_, hcall⟩ => ProcessStore.Operation.noConfusion hcall)
    show (tables.apply result expectedIncarnation).inventoryInitialized = true
    rcases apply_cases tables result expectedIncarnation with
      heq | ⟨state, -, ⟨-, heq⟩ | heq | heq⟩
    · rw [heq]
      exact hbefore
    · rw [heq]
      exact (trackGpuTelemetry_spec h.aligned result).2.1.trans hbefore
    · rw [heq]
      exact (invalidateProcessInventory_spec h.aligned result.host).2.2.trans hbefore
    · rw [heq]
      exact hbefore

/-- A run keeps the invariant, the identities that it adds are those of its samples, and it
initializes the inventory when it installs hosts. -/
theorem run_spec (h : tables.Bounded) (calls : List ProcessStore.Operation) :
    (tables.run calls).Bounded
      ∧ (∀ key, (tables.run calls).Names key →
          tables.Names key ∨ ∃ call ∈ calls, call.Lists key)
      ∧ ((tables.inventoryInitialized = true ∨ ∃ hosts, .setHosts hosts ∈ calls) →
          (tables.run calls).inventoryInitialized = true) := by
  induction calls generalizing tables with
  | nil =>
    exact ⟨h, fun key hkey => Or.inl hkey, fun hset => hset.resolve_right (by simp)⟩
  | cons call rest ih =>
    obtain ⟨hstep, hnames⟩ := step_spec h call
    obtain ⟨hrun, hadded, hinventory⟩ := ih hstep
    refine ⟨hrun, fun key hkey => ?_, fun hset => hinventory ?_⟩
    · rcases hadded key hkey with hbefore | ⟨later, hlater, hlists⟩
      · rcases hnames key hbefore with hbefore | hlists
        · exact Or.inl hbefore
        · exact Or.inr ⟨call, List.mem_cons_self, hlists⟩
      · exact Or.inr ⟨later, List.mem_cons_of_mem _ hlater, hlists⟩
    · rcases hset with hset | ⟨hosts, hmem⟩
      · exact Or.inl (inventory_step h call (Or.inl hset))
      · rcases List.mem_cons.mp hmem with hcall | hmem
        · exact Or.inl (inventory_step h call (Or.inr ⟨hosts, hcall.symm⟩))
        · exact Or.inr ⟨hosts, hmem⟩

/-! ### The start of a process -/

/-- The identities of a host after some were entered. -/
theorem mem_rememberAll (keys : List DeviceKey) (identities : Dict String (List String))
    (gpuId : String) :
    gpuId ∈ (keys.foldl rememberIdentity identities).getD host [] ↔
      gpuId ∈ identities.getD host [] ∨ (host, gpuId) ∈ keys := by
  induction keys generalizing identities with
  | nil => simp
  | cons key rest ih =>
    have hfirst : gpuId ∈ (rememberIdentity identities key).getD host [] ↔
        gpuId ∈ identities.getD host [] ∨ (host, gpuId) = key := by
      unfold rememberIdentity
      rw [Dict.getD_eq, Dict.get?_set, Prod.ext_iff]
      by_cases hhost : host = key.1
      · subst hhost
        by_cases hknown : key.2 ∈ identities.getD key.1 []
        · simp [hknown]
          exact fun h => h ▸ hknown
        · simp [hknown]
      · simp [hhost, Dict.getD_eq]
    rw [List.foldl_cons, ih, hfirst, List.mem_cons, or_assoc]

/-- A host gets at most one identity for each key that is entered for it. -/
theorem length_rememberAll (keys : List DeviceKey) (identities : Dict String (List String)) :
    ((keys.foldl rememberIdentity identities).getD host []).length
      ≤ (identities.getD host []).length + (keys.filter (·.1 = host)).length := by
  induction keys generalizing identities with
  | nil => simp
  | cons key rest ih =>
    have hfirst : ((rememberIdentity identities key).getD host []).length
        ≤ (identities.getD host []).length + if key.1 = host then 1 else 0 := by
      unfold rememberIdentity
      rw [Dict.getD_eq, Dict.get?_set]
      by_cases hhost : host = key.1
      · subst hhost
        by_cases hknown : key.2 ∈ identities.getD key.1 []
        · simp [hknown]
        · simp [hknown]
      · simp [hhost, Ne.symm hhost, Dict.getD_eq]
    have hcount : ((key :: rest).filter (·.1 = host)).length
        = (rest.filter (·.1 = host)).length + if key.1 = host then 1 else 0 := by
      by_cases hhost : key.1 = host
      · simp [hhost]
      · simp [hhost]
    have hrest := ih (rememberIdentity identities key)
    rw [List.foldl_cons]
    omega

/-- The retained devices of one host are at most the limit. -/
theorem length_restored (restored : RestoredTelemetry) (host : String) :
    ((boundedRestoredGpuKeys restored).filter (·.1 = host)).length
      ≤ maxGpuIdentitiesPerHost := by
  have hown : ∀ name, ∀ key ∈ retainedOfHost restored.latest name, key.1 = name := by
    intro name key hkey
    have hmem := List.mem_reverse.mp (List.mem_of_mem_take hkey)
    simpa using (List.mem_filter.mp (mem_sortBy.mp hmem)).2
  have hlimit : ∀ name, (retainedOfHost restored.latest name).length
      ≤ maxGpuIdentitiesPerHost := fun name => List.length_take_le _ _
  have hblocks : ∀ hosts : List String, hosts.Nodup →
      ((hosts.flatMap (retainedOfHost restored.latest)).filter (·.1 = host)).length
        ≤ if host ∈ hosts then maxGpuIdentitiesPerHost else 0 := by
    intro hosts
    induction hosts with
    | nil => simp
    | cons name rest ih =>
      intro hnodup
      obtain ⟨hnew, hnodup⟩ := List.nodup_cons.mp hnodup
      have hrest := ih hnodup
      rw [List.flatMap_cons, List.filter_append, List.length_append]
      by_cases hname : name = host
      · -- the other blocks hold no device of this host
        subst hname
        rw [if_neg hnew] at hrest
        have hfirst := (List.length_filter_le (fun key : DeviceKey => decide (key.1 = name))
          (retainedOfHost restored.latest name)).trans (hlimit name)
        rw [if_pos List.mem_cons_self]
        omega
      · have hnone : (retainedOfHost restored.latest name).filter (·.1 = host) = [] :=
          List.filter_eq_nil_iff.mpr (fun key hkey => by
            simpa using fun h => hname ((hown name key hkey).symm.trans h))
        rw [hnone, List.length_nil, Nat.zero_add]
        refine hrest.trans ?_
        by_cases hmem : host ∈ rest
        · rw [if_pos hmem, if_pos (List.mem_cons_of_mem _ hmem)]
        · rw [if_neg hmem]
          exact Nat.zero_le _
  refine (hblocks _ (List.nodup_dedup _)).trans ?_
  split
  · exact le_rfl
  · exact Nat.zero_le _

/-- The tables start within the limit, with the devices that were retained. -/
theorem bounded_start (restored : RestoredTelemetry)
    (collectionStaleCycles historyPoints incidentHistoryPoints : ℕ) :
    (start restored collectionStaleCycles historyPoints incidentHistoryPoints).Bounded where
  aligned :=
    { kept := fun key hholds => by
        refine (mem_rememberAll _ _ _).mpr (Or.inr (mem_sortBy.mpr ?_))
        rcases hholds with h | h | h | h
        · simp only [start, Dict.contains_eq, Dict.get?_mapValues, Dict.get?_filterKeys] at h
          by_contra hkey
          simp [hkey] at h
        · simp only [start, Dict.contains_eq, Dict.get?_mapValues, Dict.get?_filterKeys] at h
          by_contra hkey
          simp [hkey] at h
        · simp [start] at h
        · simp [start] at h
      initialized := fun _ hmem => by simp [start] at hmem }
  limit := fun host => by
    have hlength := @length_rememberAll host
      (sortBy (fun key => toLex (key.1, toLex (restored.latest.getD key "", key.2)))
        (boundedRestoredGpuKeys restored)) ∅
    have hperm := ((sortBy_perm (fun key : DeviceKey =>
      toLex (key.1, toLex (restored.latest.getD key "", key.2)))
        (boundedRestoredGpuKeys restored)).filter (·.1 = host)).length_eq
    have hcount := length_restored restored host
    rw [hperm] at hlength
    simp only [Dict.getD_eq, Dict.get?_emptyc, Option.getD_none, List.length_nil] at hlength
    exact (hlength.trans (Nat.zero_add _).le).trans hcount
  configured := fun hinventory => by simp [start] at hinventory

end GpuIdentityTables

open GpuIdentityTables

/-- What is promised of the tables after some calls. No host has more identities than the limit,
and every device of the tables is a kept identity. Once hosts were installed, the kept identities
are those of monitored hosts. And a device that is no kept identity, because it was evicted or
because its host was removed, gets no entry before a new sample of it. -/
structure KeepsIdentities (calls : List ProcessStore.Operation)
    (tables : GpuIdentityTables) : Prop where
  limit : ∀ host, (tables.identitiesOf host).length ≤ maxGpuIdentitiesPerHost
  kept : ∀ key, tables.Holds key → tables.Names key
  configured : (∃ hosts, .setHosts hosts ∈ calls) →
    ∀ key, tables.Names key → tables.servers.contains key.1 = true
  sampled : ∀ key later, ¬ tables.Names key → (∀ call ∈ later, ¬ call.Lists key) →
    ¬ (tables.run later).Holds key

/-- After every run of calls from every restored telemetry, the tables are bounded, and aligned
with the identities that are kept. -/
theorem identities_aligned (restored : RestoredTelemetry)
    (collectionStaleCycles historyPoints incidentHistoryPoints : ℕ)
    (calls : List ProcessStore.Operation) :
    KeepsIdentities calls ((start restored collectionStaleCycles historyPoints
      incidentHistoryPoints).run calls) := by
  have hstart := bounded_start restored collectionStaleCycles historyPoints incidentHistoryPoints
  obtain ⟨hbounded, -, hinventory⟩ := run_spec hstart calls
  refine ⟨hbounded.limit, hbounded.aligned.kept, fun hset =>
    hbounded.configured (hinventory (Or.inr hset)), fun key later hnot hlater hholds => ?_⟩
  obtain ⟨hafter, hadded, -⟩ := run_spec hbounded later
  rcases hadded key (hafter.aligned.kept key hholds) with hbefore | ⟨call, hcall, hlists⟩
  · exact hnot hbefore
  · exact hlater call hcall hlists

/-- Tables that were restored with one device of a host. -/
private def restoredGpu : RestoredTelemetry where
  gpuHistory := Dict.ofList [(("b", "GPU-1"), [⟨"2026-01-01T00:00:00Z", 0⟩])]
  processEvents := ∅

/-- A failed probe of another host. -/
private def earlyProbe : ProbeResult where
  host := "a"
  status := .unreachable
  latencyMs := 1
  observedAt := "2026-01-01T01:00:00Z"

/-- A sample that comes before the first hosts is ignored, and the restored device of a host
that is not monitored is still there. -/
theorem restored_host_is_unconfigured :
    ((start restoredGpu 3 720 500).run [.apply earlyProbe none]).Holds ("b", "GPU-1")
      ∧ ((start restoredGpu 3 720 500).run [.apply earlyProbe none]).servers.contains "b"
          = false := by
  decide +kernel

end Mocop
