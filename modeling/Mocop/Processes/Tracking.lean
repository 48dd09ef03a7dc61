import Mocop.Processes.Transitions

/-!
# `Mocop.Processes.Tracking`: the process tables of the state store

The store keeps several tables by device: the GPU samples, the process timeline, the live
processes, the devices whose process inventory is initialized, the time of the last process
sample, and the devices whose restored timeline waits for the first live process table. A
`GpuDevice` is what these tables hold for one device; a device without entries is empty.

`observeGpu` takes one GPU of a sample in, `GpuDevice.vanish` closes what a device leaves
behind when it is gone or its host turned stale. Both return the transitions that they emit,
which are also the ones they append to the timeline. `GpuDevice.evict` is what the eviction of an
identity leaves of its device. The rings are not bounded here.
-/

set_option autoImplicit false

namespace Mocop

/-- What a GPU sample leaves in the history, as far as the process tables read it. -/
structure GpuHistoryPoint where
  observedAt : String
  index : ℕ
  deriving DecidableEq

/-- The identity of a device in the tables: its UUID, or a name made of its index. -/
def GpuMetrics.trackedId (gpu : GpuMetrics) : String :=
  if gpu.uuid = "" then "index:" ++ toString gpu.index else gpu.uuid

/-- What the tables hold for one device. -/
structure GpuDevice where
  history : List GpuHistoryPoint := []
  events : List GpuProcessTransition := []
  active : Dict ProcessKey GpuProcess := ∅
  initialized : Bool := false
  lastObservedAt : Option String := none
  pending : Bool := false

/-- The tables of a device after the eviction of its identity. It stays among the devices that wait
for reconciliation. -/
def GpuDevice.evict (device : GpuDevice) : GpuDevice := { pending := device.pending }

/-- The progress of the loop over the processes of a sample: the live table, and the keys of the
instances that were replaced. -/
structure LiveScan where
  current : Dict ProcessKey GpuProcess := ∅
  replaced : List ProcessKey := []

/-- A process with the time of its first observation. -/
def GpuProcess.seenSince (process : GpuProcess) (time : String) : GpuProcess :=
  { process with firstSeenAt := some time }

/-- Whether a listed process is another instance behind a reused PID. -/
def isReplaced (previous : Dict ProcessKey GpuProcess) (process : GpuProcess) : Bool :=
  match previous.get? process.key with
  | some prior => !sameProcessInstance prior process
  | none => false

/-- The first observation of a listed process: a process that continues keeps its own, and a
newcomer or another instance gets the time of the sample. -/
def firstObservation (previous : Dict ProcessKey GpuProcess) (observedAt : String)
    (process : GpuProcess) : String :=
  match previous.get? process.key with
  | some prior =>
    if sameProcessInstance prior process then timeOr prior.firstSeenAt observedAt else observedAt
  | none => observedAt

/-- Takes one listed process in. -/
def LiveScan.addProcess (previous : Dict ProcessKey GpuProcess) (observedAt : String)
    (scan : LiveScan) (process : GpuProcess) : LiveScan where
  current := scan.current.set process.key
    (process.seenSince (firstObservation previous observedAt process))
  replaced :=
    if isReplaced previous process && !scan.replaced.contains process.key then
      scan.replaced ++ [process.key]
    else scan.replaced

/-- The live table of a sample. -/
def scanProcesses (previous : Dict ProcessKey GpuProcess) (observedAt : String)
    (processes : List GpuProcess) : LiveScan :=
  processes.foldl (LiveScan.addProcess previous observedAt) {}

namespace GpuDevice

/-- Transitions of the processes that a table holds under some keys. -/
def transitionsFor (observedAt gpuId : String) (gpuIndex : ℕ) (event : ProcessEvent)
    (visible : Bool) (table : Dict ProcessKey GpuProcess) (keys : List ProcessKey) :
    List GpuProcessTransition :=
  (sortedKeys keys).filterMap (fun key =>
    (table.get? key).map (processTransition observedAt gpuId gpuIndex event · visible))

/-- Appends transitions to the timeline, and returns them. -/
def emit (device : GpuDevice) (transitions : List GpuProcessTransition) :
    GpuDevice × List GpuProcessTransition :=
  ({ device with events := device.events ++ transitions }, transitions)

/-- The stops of the live processes, at their last process sample. -/
def closeProcessInventory (device : GpuDevice) (gpuId : String) (gpuIndex : ℕ) :
    List GpuProcessTransition :=
  match device.lastObservedAt with
  | some observedAt =>
    transitionsFor observedAt gpuId gpuIndex .stopped false device.active device.active.keys
  | none => []

/-- The index that the last sample of a device had. -/
def lastIndex (device : GpuDevice) : ℕ := (device.history.getLast?.map (·.index)).getD 0

/-- Closes the confirmed occupancy of a device once its process table is gone, at its last
process sample. Nothing was observed to stop, so the stops are hidden. -/
def closeUnobservable (device : GpuDevice) (gpuId : String) (gpuIndex : Option ℕ) :
    GpuDevice × List GpuProcessTransition :=
  { device with lastObservedAt := none, active := ∅ }.emit
    (device.closeProcessInventory gpuId (gpuIndex.getD device.lastIndex))

/-- Closes the restored open starts that no live sample will reconcile, at the last GPU
sample. -/
def closeRestored (device : GpuDevice) : GpuDevice × List GpuProcessTransition :=
  if device.pending then
    match device.events.getLast? with
    | none => ({ device with pending := false }, [])
    | some last =>
      let closeAt := (device.history.getLast?.map (·.observedAt)).getD last.observedAt
      let openEvents := openTransitions device.events
      { device with pending := false }.emit
        ((sortedKeys openEvents.keys).filterMap (fun key =>
          (openEvents.get? key).map (closeRestoredStart · closeAt (some false))))
  else (device, [])

/-- What happens to a device that an online sample of its host does not list, or whose host
turned stale: an initialized inventory closes, and so do restored open starts. -/
def vanish (device : GpuDevice) (gpuId : String) : GpuDevice × List GpuProcessTransition :=
  let (device, closed) :=
    if device.initialized then device.closeUnobservable gpuId none else (device, [])
  let (device, restoredClosed) := device.closeRestored
  ({ device with initialized := false }, closed ++ restoredClosed)

/-- The first live process table of a device: a restored timeline is reconciled with it,
otherwise its processes are seeded as hidden starts. -/
def initialize_ (device : GpuDevice) (gpuId : String) (gpuIndex : ℕ)
    (current : Dict ProcessKey GpuProcess) (observedAt : String)
    (previousGpuObservedAt : Option String) : GpuDevice × List GpuProcessTransition :=
  if device.pending then
    let (current, transitions) := reconcileRestoredProcesses device.events gpuId gpuIndex
      current observedAt previousGpuObservedAt
    { device with active := current, initialized := true, pending := false }.emit transitions
  else
    { device with active := current, initialized := true }.emit
      (transitionsFor observedAt gpuId gpuIndex .started false current current.keys)

/-- A process table that follows another one: newcomers start, missing processes stop, and a
replaced instance stops and starts. -/
def compare (device : GpuDevice) (gpuId : String) (gpuIndex : ℕ) (scan : LiveScan)
    (observedAt : String) : GpuDevice × List GpuProcessTransition :=
  let previous := device.active
  let current := scan.current
  let started := transitionsFor observedAt gpuId gpuIndex .started true current
    (current.keys.filter (fun key => !previous.contains key))
  let stopped := transitionsFor observedAt gpuId gpuIndex .stopped true previous
    (previous.keys.filter (fun key => !current.contains key))
  let replaced := (sortedKeys scan.replaced).flatMap (fun key =>
    ((previous.get? key).map
      (processTransition observedAt gpuId gpuIndex .stopped · true)).toList
    ++ ((current.get? key).map
      (processTransition observedAt gpuId gpuIndex .started · true)).toList)
  { device with active := current }.emit (started ++ stopped ++ replaced)

/-- Takes a process table in. -/
def observeTable (device : GpuDevice) (gpu : GpuMetrics) (observedAt : String)
    (previousGpuObservedAt : Option String) : GpuDevice × List GpuProcessTransition :=
  let gpuId := gpu.trackedId
  if gpu.processes = [] then
    if !device.initialized then
      if device.pending then
        { device with initialized := true, pending := false }.emit
          (reconcileRestoredProcesses device.events gpuId gpu.index ∅ observedAt
            previousGpuObservedAt).2
      else ({ device with initialized := true }, [])
    else
      { device with active := ∅ }.emit
        (transitionsFor observedAt gpuId gpu.index .stopped true device.active
          device.active.keys)
  else
    let scan := scanProcesses device.active observedAt gpu.processes
    if !device.initialized then
      device.initialize_ gpuId gpu.index scan.current observedAt previousGpuObservedAt
    else device.compare gpuId gpu.index scan observedAt

/-- Takes one GPU of a sample in. A sample without a process query leaves the comparison
baseline alone, and one whose query failed invalidates it. -/
def observeGpu (device : GpuDevice) (gpu : GpuMetrics) (observedAt : String) :
    GpuDevice × List GpuProcessTransition :=
  let previousGpuObservedAt := device.history.getLast?.map (·.observedAt)
  let device := { device with history := device.history ++ [⟨observedAt, gpu.index⟩] }
  if !gpu.processesSampled then (device, [])
  else if !gpu.processesAvailable then
    let (device, closed) := device.closeUnobservable gpu.trackedId (some gpu.index)
    ({ device with initialized := false }, closed)
  else
    { device with lastObservedAt := some observedAt }.observeTable gpu observedAt
      previousGpuObservedAt

end GpuDevice

end Mocop
