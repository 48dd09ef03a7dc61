import Mocop.Processes.Store

/-!
# `Mocop.Processes.Runs`: the run of one device

What a device goes through: its host delivers a sample that lists it, or the device vanishes. A
run of such steps returns the transitions that it emits, and these are what it appends to the
timeline (`events_run`).

`devices_apply` is the link to the store: a sample of a host takes each device through such a
run. Neither has the evictions of identities: `Processes.Restart` adds them to the run, and
`Processes.Identities` to the store.
-/

set_option autoImplicit false

namespace Mocop

/-- What a device goes through. -/
inductive DeviceStep where
  | observed (gpu : GpuMetrics) (observedAt : String)
  | vanished

/-- The process table that a step delivers. -/
def DeviceStep.table? : DeviceStep → Option (List GpuProcess)
  | .observed gpu _ =>
    if gpu.processesSampled && gpu.processesAvailable then some gpu.processes else none
  | .vanished => none

/-- A step with a process table is a sample with an answered process query. -/
theorem DeviceStep.of_table? {step : DeviceStep} {table : List GpuProcess}
    (h : step.table? = some table) : ∃ gpu observedAt, step = .observed gpu observedAt
      ∧ (gpu.processesSampled && gpu.processesAvailable) = true ∧ table = gpu.processes := by
  cases step with
  | vanished => cases h
  | observed gpu observedAt =>
    rw [table?, Option.ite_none_right_eq_some] at h
    exact ⟨gpu, observedAt, rfl, h.1, (Option.some.inj h.2).symm⟩

/-- The time of a sample. -/
def DeviceStep.time? : DeviceStep → Option String
  | .observed _ observedAt => some observedAt
  | .vanished => none

namespace GpuDevice

/-- One step of a device. -/
def step (gpuId : String) (device : GpuDevice) :
    DeviceStep → GpuDevice × List GpuProcessTransition
  | .observed gpu observedAt => device.observeGpu gpu observedAt
  | .vanished => device.vanish gpuId

/-- A run of a device, with the transitions that it emits. -/
def run (gpuId : String) (device : GpuDevice) :
    List DeviceStep → GpuDevice × List GpuProcessTransition
  | [] => (device, [])
  | first :: rest =>
    let (device, emitted) := device.step gpuId first
    let (device, later) := device.run gpuId rest
    (device, emitted ++ later)

variable (gpuId : String) (device : GpuDevice)

@[simp] theorem run_nil : device.run gpuId [] = (device, []) := rfl

theorem run_cons (first : DeviceStep) (rest : List DeviceStep) :
    device.run gpuId (first :: rest)
      = (((device.step gpuId first).1.run gpuId rest).1,
        (device.step gpuId first).2 ++ ((device.step gpuId first).1.run gpuId rest).2) := rfl

theorem run_append (steps more : List DeviceStep) :
    device.run gpuId (steps ++ more)
      = (((device.run gpuId steps).1.run gpuId more).1,
        (device.run gpuId steps).2 ++ ((device.run gpuId steps).1.run gpuId more).2) := by
  induction steps generalizing device with
  | nil => rfl
  | cons first rest ih => simp [run_cons, ih]

/-! ### What is emitted is what the timeline gains -/

@[simp] theorem emit_snd (transitions : List GpuProcessTransition) :
    (device.emit transitions).2 = transitions := rfl

theorem events_closeUnobservable (gpuIndex : Option ℕ) :
    (device.closeUnobservable gpuId gpuIndex).1.events
      = device.events ++ (device.closeUnobservable gpuId gpuIndex).2 := rfl

theorem events_closeRestored :
    device.closeRestored.1.events = device.events ++ device.closeRestored.2 := by
  unfold closeRestored
  split
  · split
    · simp
    · rfl
  · simp

theorem events_vanish :
    (device.vanish gpuId).1.events = device.events ++ (device.vanish gpuId).2 := by
  unfold vanish
  cases hinitialized : device.initialized with
  | true =>
    simp only [if_true]
    rw [events_closeRestored, events_closeUnobservable, List.append_assoc]
  | false =>
    simp only [Bool.false_eq_true, if_false]
    rw [events_closeRestored, List.nil_append]

theorem events_observeTable (gpu : GpuMetrics) (observedAt : String)
    (previousGpuObservedAt : Option String) :
    (device.observeTable gpu observedAt previousGpuObservedAt).1.events
      = device.events ++ (device.observeTable gpu observedAt previousGpuObservedAt).2 := by
  unfold observeTable
  dsimp only
  split
  · split
    · split
      · rfl
      · simp
    · rfl
  · split
    · unfold initialize_
      split
      · rfl
      · rfl
    · rfl

theorem events_observeGpu (gpu : GpuMetrics) (observedAt : String) :
    (device.observeGpu gpu observedAt).1.events
      = device.events ++ (device.observeGpu gpu observedAt).2 := by
  unfold observeGpu
  dsimp only
  split
  · simp
  · split
    · rfl
    · exact events_observeTable _ gpu observedAt _

theorem events_step (first : DeviceStep) :
    (device.step gpuId first).1.events = device.events ++ (device.step gpuId first).2 := by
  cases first with
  | observed gpu observedAt => exact events_observeGpu device gpu observedAt
  | vanished => exact events_vanish gpuId device

/-- A run appends what it emits to the timeline. -/
theorem events_run (steps : List DeviceStep) :
    (device.run gpuId steps).1.events = device.events ++ (device.run gpuId steps).2 := by
  induction steps generalizing device with
  | nil => simp
  | cons first rest ih => rw [run_cons, ih, events_step, List.append_assoc]

end GpuDevice

/-! ### The samples of a host -/

namespace ProcessStore

/-- The GPUs of a sample that are a device. -/
def samplesOf (result : ProbeResult) (gpuId : String) : List DeviceStep :=
  (result.gpus.filter (fun gpu => gpu.trackedId = gpuId)).map (.observed · result.observedAt)

/-- What a sample of a host means for a device. -/
def deviceSteps (store : ProcessStore) (result : ProbeResult) (expectedIncarnation : Option ℕ)
    (key : DeviceKey) : List DeviceStep :=
  match store.servers.get? result.host with
  | none => []
  | some state =>
    if key.1 ≠ result.host then []
    else if expectedIncarnation ≠ none ∧ some state.incarnation ≠ expectedIncarnation then []
    else if result.status = .online then
      if key.2 ∈ result.observedGpuIds then samplesOf result key.2 else [.vanished]
    else if store.collectionStaleCycles ≤ state.consecutiveFailures + 1 then [.vanished]
    else []

/-- The GPUs of a sample take each device through its own part of the sample. -/
theorem observe_run (host observedAt : String) (gpus : List GpuMetrics)
    (devices : DeviceKey → GpuDevice) (key : DeviceKey) :
    gpus.foldl (observeDevice host observedAt) devices key
      = ((devices key).run key.2 (if key.1 = host then
          (gpus.filter (fun gpu => gpu.trackedId = key.2)).map (.observed · observedAt)
          else [])).1 := by
  induction gpus generalizing devices with
  | nil => simp
  | cons gpu rest ih =>
    rw [List.foldl_cons, ih, observeDevice]
    by_cases hhost : key.1 = host
    · rw [if_pos hhost, if_pos hhost]
      by_cases hgpu : gpu.trackedId = key.2
      · have hkey : (host, gpu.trackedId) = key := Prod.ext hhost.symm hgpu
        rw [hkey, Function.update_self, List.filter_cons_of_pos (by simpa using hgpu),
          List.map_cons, GpuDevice.run_cons]
        rfl
      · rw [Function.update_of_ne (fun hkey => hgpu (by rw [hkey])),
          List.filter_cons_of_neg (by simpa using hgpu)]
    · rw [if_neg hhost, if_neg hhost, Function.update_of_ne (fun hkey => hhost (by rw [hkey]))]

/-- A sample of a host takes each device through its run. -/
theorem devices_apply (store : ProcessStore) (result : ProbeResult)
    (expectedIncarnation : Option ℕ) (key : DeviceKey) :
    (store.apply result expectedIncarnation).devices key
      = ((store.devices key).run key.2
          (store.deviceSteps result expectedIncarnation key)).1 := by
  unfold apply deviceSteps
  cases hstate : store.servers.get? result.host with
  | none => rfl
  | some state =>
    dsimp only
    by_cases hignored : expectedIncarnation ≠ none
        ∧ some state.incarnation ≠ expectedIncarnation
    · rw [if_pos hignored, if_pos hignored, ite_self]
      rfl
    rw [if_neg hignored, if_neg hignored]
    by_cases honline : result.status = .online
    · rw [if_pos honline, if_pos honline]
      show trackGpuTelemetry store.devices result key = _
      unfold trackGpuTelemetry
      by_cases hhost : key.1 = result.host
      · rw [observe_run, if_pos hhost, if_neg (not_not.mpr hhost)]
        by_cases hlisted : key.2 ∈ result.observedGpuIds
        · rw [if_neg (fun hgone => hgone.2 hlisted), if_pos hlisted]
          rfl
        · have hnone : result.gpus.filter (fun gpu => gpu.trackedId = key.2) = [] :=
            List.filter_eq_nil_iff.mpr fun gpu hgpu hsame => hlisted
              (List.mem_map.mpr ⟨gpu, hgpu, of_decide_eq_true hsame⟩)
          rw [if_pos ⟨hhost, hlisted⟩, if_neg hlisted, hnone]
          rfl
      · rw [if_neg (fun hgone => hhost hgone.1), if_pos hhost, observe_run, if_neg hhost]
    · rw [if_neg honline, if_neg honline]
      show (if store.collectionStaleCycles ≤ state.consecutiveFailures + 1 then
        invalidateProcessInventory store.devices result.host else store.devices) key = _
      by_cases hstale : store.collectionStaleCycles ≤ state.consecutiveFailures + 1
      · rw [if_pos hstale, if_pos hstale]
        show (if key.1 = result.host then ((store.devices key).vanish key.2).1
          else store.devices key) = _
        by_cases hhost : key.1 = result.host
        · rw [if_pos hhost, if_neg (not_not.mpr hhost)]
          rfl
        · rw [if_neg hhost, if_pos hhost]
          rfl
      · rw [if_neg hstale, if_neg hstale, ite_self]
        rfl

end ProcessStore

end Mocop
