import Mocop.Processes.LiveTable

/-!
# `Mocop.Processes.Store`: the process tables over a run of the store

The process tables of all devices, with what decides when they are edited: the monitored hosts
with their consecutive failures, and whether the first inventory was installed. `setHosts` and
`apply` are the operations that edit the tables.

Every operation acts on each device on its own: it leaves the device alone, takes the GPUs of a
sample in, lets it vanish, or forgets it. So the invariant of one device carries over a whole
run (`soundDevices_run`), and after every run the live process table of a device that waits for
no reconciliation is the open part of its timeline (`liveTable_is_open`).
-/

set_option autoImplicit false

namespace Mocop

/-- A device: its host and its identity. -/
abbrev DeviceKey := String × String

/-- A monitored host: its incarnation, and its failed probes since the last online sample. -/
structure ServerState where
  incarnation : ℕ
  consecutiveFailures : ℕ := 0

/-- What a process restores of the GPU telemetry. -/
structure RestoredTelemetry where
  gpuHistory : Dict DeviceKey (List GpuHistoryPoint)
  processEvents : Dict DeviceKey (List GpuProcessTransition)

/-- The state store, as far as the process tables go. -/
structure ProcessStore where
  servers : Dict String ServerState := ∅
  nextHostIncarnation : ℕ := 1
  inventoryInitialized : Bool := false
  collectionStaleCycles : ℕ
  devices : DeviceKey → GpuDevice

/-- The devices that a sample lists. -/
def ProbeResult.observedGpuIds (result : ProbeResult) : List String :=
  result.gpus.map GpuMetrics.trackedId

namespace ProcessStore

/-- A store at the start of a process. The restored timelines wait for reconciliation. -/
def start (restored : RestoredTelemetry) (collectionStaleCycles : ℕ) : ProcessStore where
  collectionStaleCycles := collectionStaleCycles
  devices := fun key =>
    { history := restored.gpuHistory.getD key []
      events := restored.processEvents.getD key []
      pending := restored.processEvents.contains key }

/-- Adds a host under a new incarnation. -/
def addServer (store : ProcessStore) (host : String) : ProcessStore :=
  if store.servers.contains host then store
  else
    { store with
      servers := store.servers.set host { incarnation := store.nextHostIncarnation }
      nextHostIncarnation := store.nextHostIncarnation + 1 }

/-- Whether the tables of a host are forgotten: the first inventory forgets the hosts that it
does not list, and a later one those that it removes. -/
def isStale (store : ProcessStore) (hosts : List String) (host : String) : Bool :=
  if store.inventoryInitialized then store.servers.contains host && decide (host ∉ hosts)
  else decide (host ∉ hosts)

/-- Installs the monitored hosts. -/
def setHosts (store : ProcessStore) (hosts : List String) : ProcessStore :=
  hosts.foldl addServer
    { store with
      servers := store.servers.filterKeys (fun host => decide (host ∈ hosts))
      devices := fun key => if store.isStale hosts key.1 then {} else store.devices key
      inventoryInitialized := true }

/-- Takes one GPU of a sample in. -/
def observeDevice (host observedAt : String) (devices : DeviceKey → GpuDevice)
    (gpu : GpuMetrics) : DeviceKey → GpuDevice :=
  Function.update devices (host, gpu.trackedId)
    ((devices (host, gpu.trackedId)).observeGpu gpu observedAt).1

/-- Takes the GPUs of an online sample in. The other devices of the host vanish. -/
def trackGpuTelemetry (devices : DeviceKey → GpuDevice) (result : ProbeResult) :
    DeviceKey → GpuDevice :=
  let devices := result.gpus.foldl (observeDevice result.host result.observedAt) devices
  fun key =>
    if key.1 = result.host ∧ key.2 ∉ result.observedGpuIds then ((devices key).vanish key.2).1
    else devices key

/-- Closes what the devices of a stale host leave behind. -/
def invalidateProcessInventory (devices : DeviceKey → GpuDevice) (host : String) :
    DeviceKey → GpuDevice :=
  fun key => if key.1 = host then ((devices key).vanish key.2).1 else devices key

/-- Takes a sample in, for a known host of the expected incarnation. A failed probe is a blind
spot: the tables stay until the host is stale. -/
def apply (store : ProcessStore) (result : ProbeResult) (expectedIncarnation : Option ℕ) :
    ProcessStore :=
  match store.servers.get? result.host with
  | none => store
  | some state =>
    if expectedIncarnation ≠ none ∧ some state.incarnation ≠ expectedIncarnation then store
    else if result.status = .online then
      { store with
        servers := store.servers.set result.host { state with consecutiveFailures := 0 }
        devices := trackGpuTelemetry store.devices result }
    else
      { store with
        servers := store.servers.set result.host
          { state with consecutiveFailures := state.consecutiveFailures + 1 }
        devices :=
          if store.collectionStaleCycles ≤ state.consecutiveFailures + 1 then
            invalidateProcessInventory store.devices result.host
          else store.devices }

/-- An operation that edits the process tables. -/
inductive Operation where
  | setHosts (hosts : List String)
  | apply (result : ProbeResult) (expectedIncarnation : Option ℕ)

/-- One operation. -/
def step (store : ProcessStore) : Operation → ProcessStore
  | .setHosts hosts => store.setHosts hosts
  | .apply result expectedIncarnation => store.apply result expectedIncarnation

/-- A run. -/
def run (store : ProcessStore) (operations : List Operation) : ProcessStore :=
  operations.foldl step store

end ProcessStore

/-- What a restored timeline is: its transitions take turns from a start on, and its starts have
a time. -/
structure RestoredTimeline (events : List GpuProcessTransition) : Prop where
  turns : TakesTurns events
  begins : ∀ key, BeginsWithStart events key
  times : ∀ event ∈ events, event.isStart = true → event.observedAt ≠ ""

/-- What a sample is promised to be: it has a time, and the processes that a GPU lists under one
key belong to one workload. -/
structure ProbeResult.Listed (result : ProbeResult) : Prop where
  time : result.observedAt ≠ ""
  gpus : ∀ gpu ∈ result.gpus, gpu.Listed

/-- An operation that takes a sample in takes a promised one in. -/
def ProcessStore.Operation.Listed : ProcessStore.Operation → Prop
  | .setHosts _ => True
  | .apply result _ => result.Listed

/-- The live process table of a device is the set of open starts of its timeline. -/
structure GpuDevice.LiveTableIsOpen (device : GpuDevice) : Prop where
  turns : TakesTurns device.events
  begins : ∀ key, BeginsWithStart device.events key
  keys : ∀ key, key ∈ (openTransitions device.events).keys ↔ key ∈ device.active.keys
  firstSeen : ∀ key process, device.active.get? key = some process →
    ∃ start, (openTransitions device.events).get? key = some start
      ∧ process.firstSeenAt = some start.observedAt
  initialized : device.active.keys ≠ [] →
    device.initialized = true ∧ device.lastObservedAt.isSome

namespace ProcessStore

/-- Every device keeps the invariant. -/
def SoundDevices (devices : DeviceKey → GpuDevice) : Prop :=
  ∀ key, (devices key).Sound (fun _ => True)

/-- A device without entries. -/
theorem sound_empty : ({} : GpuDevice).Sound (fun _ => True) where
  turns := fun _ => List.isChain_nil
  begins := fun _ _ _ h => by simp [Toggles.edgesOf] at h
  times := fun _ h => by simp at h
  keyed := fun _ _ h => by simp at h
  waiting := fun h => by simp at h
  settled := fun _ => ⟨fun _ => rfl, fun _ _ _ h => by simp at h, fun _ _ h => by simp at h⟩

variable {devices : DeviceKey → GpuDevice} {store : ProcessStore} {restored : RestoredTelemetry}

/-- A store starts with sound devices. -/
theorem soundDevices_start
    (h : ∀ key events, restored.processEvents.get? key = some events → RestoredTimeline events)
    (collectionStaleCycles : ℕ) :
    SoundDevices (start restored collectionStaleCycles).devices := by
  intro key
  unfold start
  dsimp only
  rw [Dict.getD_eq restored.processEvents, Dict.contains_eq]
  cases hevents : restored.processEvents.get? key with
  | none =>
    exact sound_empty.withHistory (restored.gpuHistory.getD key [])
  | some events =>
    obtain ⟨hturns, hbegins, htimes⟩ := h key events hevents
    exact ⟨hturns, fun k _ => hbegins k, htimes, fun _ _ h => by simp at h,
      fun _ => ⟨rfl, rfl⟩, fun h => by simp at h⟩

/-- Adding hosts does not touch the devices. -/
theorem devices_addServers (hosts : List String) (store : ProcessStore) :
    (hosts.foldl addServer store).devices = store.devices := by
  induction hosts generalizing store with
  | nil => rfl
  | cons host rest ih =>
    rw [List.foldl_cons, ih, addServer]
    split
    · rfl
    · rfl

/-- Installing hosts keeps the devices sound. -/
theorem soundDevices_setHosts (h : SoundDevices store.devices) (hosts : List String) :
    SoundDevices (store.setHosts hosts).devices := by
  rw [setHosts, devices_addServers]
  intro key
  show (if store.isStale hosts key.1 then {} else store.devices key : GpuDevice).Sound _
  split
  · exact sound_empty
  · exact h key

/-- The GPUs of a sample keep the devices sound. -/
theorem soundDevices_observe {host observedAt : String} (htime : observedAt ≠ "")
    (gpus : List GpuMetrics) (hlisted : ∀ gpu ∈ gpus, gpu.Listed) (h : SoundDevices devices) :
    SoundDevices (gpus.foldl (observeDevice host observedAt) devices) := by
  induction gpus generalizing devices with
  | nil => exact h
  | cons gpu rest ih =>
    rw [List.foldl_cons]
    refine ih (fun other hother => hlisted other (List.mem_cons_of_mem _ hother)) ?_
    intro key
    rw [observeDevice]
    by_cases hkey : key = (host, gpu.trackedId)
    · rw [hkey, Function.update_self]
      exact (h _).observeGpu (hlisted gpu List.mem_cons_self) htime
    · rw [Function.update_of_ne hkey]
      exact h key

/-- An online sample keeps the devices sound. -/
theorem soundDevices_track (h : SoundDevices devices) {result : ProbeResult}
    (hlisted : result.Listed) : SoundDevices (trackGpuTelemetry devices result) := by
  intro key
  have hobserved : ((result.gpus.foldl (observeDevice result.host result.observedAt)
      devices) key).Sound (fun _ => True) :=
    soundDevices_observe hlisted.time result.gpus hlisted.gpus h key
  unfold trackGpuTelemetry
  split
  · exact (hobserved.vanish key.2).1
  · exact hobserved

/-- A host that turns stale keeps the devices sound. -/
theorem soundDevices_invalidate (h : SoundDevices devices) (host : String) :
    SoundDevices (invalidateProcessInventory devices host) := by
  intro key
  unfold invalidateProcessInventory
  split
  · exact ((h key).vanish key.2).1
  · exact h key

/-- A sample keeps the devices sound. -/
theorem soundDevices_apply (h : SoundDevices store.devices) {result : ProbeResult}
    (hlisted : result.Listed) (expectedIncarnation : Option ℕ) :
    SoundDevices (store.apply result expectedIncarnation).devices := by
  unfold apply
  split
  · exact h
  · split
    · exact h
    · split
      · exact soundDevices_track h hlisted
      · show SoundDevices (if _ then _ else _)
        split
        · exact soundDevices_invalidate h result.host
        · exact h

/-- A run keeps the devices sound. -/
theorem soundDevices_run (operations : List Operation)
    (hlisted : ∀ operation ∈ operations, operation.Listed) (h : SoundDevices store.devices) :
    SoundDevices (store.run operations).devices := by
  induction operations generalizing store with
  | nil => exact h
  | cons operation rest ih =>
    have hfirst := hlisted operation List.mem_cons_self
    refine ih (fun other hother => hlisted other (List.mem_cons_of_mem _ hother)) ?_
    cases operation with
    | setHosts hosts => exact soundDevices_setHosts h hosts
    | apply result expectedIncarnation => exact soundDevices_apply h hfirst expectedIncarnation

end ProcessStore

/-- A sound device that waits for no reconciliation. -/
theorem GpuDevice.Sound.liveTableIsOpen {device : GpuDevice}
    (h : device.Sound (fun _ => True)) (hsettled : device.pending = false) :
    device.LiveTableIsOpen where
  turns := h.turns
  begins := fun key => h.begins key trivial
  keys := fun key => by
    rw [Dict.mem_keys, Dict.mem_keys, (h.settled hsettled).open_eq key]
  firstSeen := fun key process hprocess => by
    rcases (h.settled hsettled).cases key with ⟨-, hnone⟩ | ⟨start, live, hopen, hlive, hseen⟩
    · rw [hnone] at hprocess
      simp at hprocess
    · rw [hlive] at hprocess
      exact ⟨start, hopen, Option.some.inj hprocess ▸ hseen⟩
  initialized := fun hkeys => by
    obtain ⟨key, hkey⟩ := List.exists_mem_of_ne_nil _ hkeys
    obtain ⟨process, hprocess⟩ := Option.isSome_iff_exists.mp ((Dict.mem_keys _ _).mp hkey)
    exact (h.settled hsettled).live key process hprocess

/-- After every run from restored timelines that take turns, the live process table of every
device that waits for no reconciliation is the set of open starts of its timeline. -/
theorem liveTable_is_open (restored : RestoredTelemetry) (collectionStaleCycles : ℕ)
    (hrestored : ∀ key events, restored.processEvents.get? key = some events →
      RestoredTimeline events)
    (operations : List ProcessStore.Operation)
    (hlisted : ∀ operation ∈ operations, operation.Listed) (key : DeviceKey)
    (hsettled : (((ProcessStore.start restored collectionStaleCycles).run operations).devices
      key).pending = false) :
    (((ProcessStore.start restored collectionStaleCycles).run operations).devices
      key).LiveTableIsOpen :=
  (ProcessStore.soundDevices_run operations hlisted
    (ProcessStore.soundDevices_start hrestored collectionStaleCycles) key).liveTableIsOpen hsettled

/-- A process of one host. -/
private def trainer : GpuProcess where
  pid := 7
  name := "python"
  usedMemoryMib := none

/-- A restored timeline with one open start. -/
private def interrupted : List GpuProcessTransition :=
  [processTransition "2026-01-01T00:00:00Z" "GPU-1" 0 .started trainer true]

/-- One restored device, and a sample that still lists its process. -/
private def restoredDevice : RestoredTelemetry where
  gpuHistory := ∅
  processEvents := Dict.ofList [(("a", "GPU-1"), interrupted)]

private def continuedTable : ProbeResult where
  host := "a"
  status := .online
  latencyMs := 1
  gpus := [{
    index := 0
    uuid := "GPU-1"
    name := "L4"
    temperatureC := none
    utilizationGpuPct := none
    memoryTotalMib := none
    memoryUsedMib := none
    powerDrawW := none
    processes := [trainer] }]
  observedAt := "2026-01-01T01:00:00Z"

private theorem interrupted_restored : RestoredTimeline interrupted where
  turns := fun key => by
    unfold Toggles.TakeTurns Toggles.edgesOf interrupted
    by_cases hkey : trainer.key = key
    · simp [hkey]
    · simp [hkey]
  begins := fun key event hhead => by
    obtain ⟨hmem, -⟩ := List.mem_filter.mp (List.mem_of_head? hhead)
    rw [List.mem_singleton.mp hmem]
    rfl
  times := fun event hmem _ => by
    rw [List.mem_singleton.mp hmem]
    decide

theorem liveTable_is_open_continued :
    (((ProcessStore.start restoredDevice 3).run
      [.setHosts ["a"], .apply continuedTable none]).devices ("a", "GPU-1")).LiveTableIsOpen :=
  liveTable_is_open restoredDevice 3
    (fun key events hevents => by
      obtain ⟨rfl, rfl⟩ : key = ("a", "GPU-1") ∧ events = interrupted := by
        have hentry := (Dict.get?_eq_some_iff _ _ _).mp hevents
        simpa using List.mem_singleton.mp hentry
      exact interrupted_restored)
    [.setHosts ["a"], .apply continuedTable none]
    (fun operation hmem => by
      rcases List.mem_pair.mp hmem with rfl | rfl
      · exact trivial
      · refine ⟨by decide, fun gpu hgpu => ⟨fun process hprocess other hother _ => ?_⟩⟩
        obtain rfl := List.mem_singleton.mp hgpu
        rw [List.mem_singleton.mp hprocess, List.mem_singleton.mp hother])
    ("a", "GPU-1") rfl

end Mocop
