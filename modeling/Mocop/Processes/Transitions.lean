import Mocop.Lib.Toggles
import Mocop.Reports.Occupancy

/-!
# `Mocop.Processes.Transitions`: arithmetic over process transitions

The pure pieces that the state store applies to the process timelines: building a transition,
deciding whether two samples show the same process instance, listing the starts that a timeline
leaves open, and reconciling the open starts that a restart restored with the first live
process table.

Loops over sorted keys are loops over `sortedKeys`. The results use only that it permutes its
argument.
-/

set_option autoImplicit false

namespace Mocop

/-- The kind of a process transition. -/
inductive ProcessEvent where
  | started
  | stopped
  deriving DecidableEq, Repr

/-- A `started` or `stopped` edge of a GPU process. A hidden one is bookkeeping: nothing was
observed to start or stop. `firstSeenAt` is the first observation of the process. -/
structure GpuProcessTransition where
  observedAt : String
  gpuId : String
  index : ℕ
  event : ProcessEvent
  pid : ℕ
  name : String
  usedMemoryMib : Option ℚ
  workload : Option WorkloadDict
  visible : Bool := true
  firstSeenAt : Option String := none
  deriving DecidableEq

/-- The process that a transition is about. -/
def GpuProcessTransition.processKey (event : GpuProcessTransition) : ProcessKey :=
  (event.pid, event.name)

/-- Whether a transition is a start. -/
def GpuProcessTransition.isStart (event : GpuProcessTransition) : Bool := event.event = .started

/-- The key of a process in a live table. -/
def GpuProcess.key (process : GpuProcess) : ProcessKey := (process.pid, process.name)

/-- The start time of the workload of a process. -/
def GpuProcess.workloadStartedAt (process : GpuProcess) : Option String :=
  process.workload.bind (·.startedAt)

/-- The order of process keys: by PID, then by name. -/
def processKeyLe (a b : ProcessKey) : Bool := a.1 < b.1 || (a.1 = b.1 && a.2 ≤ b.2)

/-- Process keys in order. -/
def sortedKeys (keys : List ProcessKey) : List ProcessKey := keys.mergeSort processKeyLe

theorem mem_sortedKeys {keys : List ProcessKey} {key : ProcessKey} :
    key ∈ sortedKeys keys ↔ key ∈ keys := List.mem_mergeSort

theorem nodup_sortedKeys {keys : List ProcessKey} (h : keys.Nodup) :
    (sortedKeys keys).Nodup := (List.mergeSort_perm keys _).nodup_iff.mpr h

/-- A transition of a process. -/
def processTransition (observedAt gpuId : String) (gpuIndex : ℕ) (event : ProcessEvent)
    (process : GpuProcess) (visible : Bool) : GpuProcessTransition where
  observedAt := observedAt
  gpuId := gpuId
  index := gpuIndex
  event := event
  pid := process.pid
  name := process.name
  usedMemoryMib := process.usedMemoryMib
  workload := process.workload.map WorkloadMetadata.toDict
  visible := visible
  firstSeenAt := process.firstSeenAt

/-- Whether two samples show one process instance: only two different start times of their
workloads say that they do not. -/
def sameProcessInstance (previous current : GpuProcess) : Bool :=
  match previous.workloadStartedAt, current.workloadStartedAt with
  | some previousStarted, some currentStarted => previousStarted = currentStarted
  | _, _ => true

/-- Whether a transition may be about the instance that a sample shows. -/
def transitionMatchesProcess (event : GpuProcessTransition) (process : GpuProcess) : Bool :=
  match workloadText event.workload "started_at",
      process.workloadStartedAt.filter (· ≠ "") with
  | some eventStart, some processStart => eventStart = processStart
  | _, _ => true

/-- The starts of a timeline that no later stop closed. -/
def openTransitions (events : List GpuProcessTransition) : Dict ProcessKey GpuProcessTransition :=
  Toggles.openStarts GpuProcessTransition.processKey GpuProcessTransition.isStart events

/-- `first or second` for a time that may be missing or empty. -/
def timeOr (first : Option String) (second : String) : String :=
  match first with
  | some time => if time = "" then second else time
  | none => second

/-- The stop that ends a restored open start. -/
def closeRestoredStart (event : GpuProcessTransition) (closeAt : String) (visible : Option Bool) :
    GpuProcessTransition :=
  { event with
    observedAt := closeAt
    event := .stopped
    firstSeenAt := some (timeOr event.firstSeenAt event.observedAt)
    visible := visible.getD event.visible }

/-- Whether a live process continues the open start of its key. -/
def continuesRun (openEvents : Dict ProcessKey GpuProcessTransition)
    (current : Dict ProcessKey GpuProcess) (key : ProcessKey) : Bool :=
  match openEvents.get? key, current.get? key with
  | some event, some process => transitionMatchesProcess event process
  | _, _ => false

/-- The live table after the restored runs were continued: a process that continues a run
inherits the time of its start. -/
def inheritRuns (openEvents : Dict ProcessKey GpuProcessTransition)
    (current : Dict ProcessKey GpuProcess) : Dict ProcessKey GpuProcess :=
  current.mapValues (fun key process =>
    match openEvents.get? key with
    | some event =>
      if transitionMatchesProcess event process then
        { process with firstSeenAt := some event.observedAt }
      else process
    | none => process)

/-- Reconciles the open starts of a restored timeline with the first live process table. A run
whose process is still listed continues; another one stopped in the blind spot and closes at
the last GPU sample before this one; and a process without a run starts now. -/
def reconcileRestoredProcesses (events : List GpuProcessTransition) (gpuId : String)
    (gpuIndex : ℕ) (current : Dict ProcessKey GpuProcess) (observedAt : String)
    (previousGpuObservedAt : Option String) :
    Dict ProcessKey GpuProcess × List GpuProcessTransition :=
  let openEvents := openTransitions events
  let closeAt := timeOr previousGpuObservedAt observedAt
  let closed := (sortedKeys openEvents.keys).filterMap (fun key =>
    if continuesRun openEvents current key then none
    else (openEvents.get? key).map (closeRestoredStart · closeAt none))
  let current := inheritRuns openEvents current
  let begun := (sortedKeys current.keys).filterMap (fun key =>
    if continuesRun openEvents current key then none
    else (current.get? key).map (processTransition observedAt gpuId gpuIndex .started · true))
  (current, closed ++ begun)

end Mocop
