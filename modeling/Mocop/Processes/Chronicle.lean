import Mocop.Processes.RestoredOrder

/-!
# `Mocop.Processes.Chronicle`: the emitted transitions and their restored order

A run of one device emits transitions, its samples write them, and a restart restores them. A
step does one of three things to a device: nothing but a GPU sample, a process table
(`tableEffect`, read off process by process), or a closing at the last process sample.

With samples at increasing times, the only two stops of one process at one time come from a PID
reuse whose new instance is closed at the same sample. `closesReplaced` looks for that: a table
that replaces an instance, and a closing before the next table. The transitions survive exactly
if it finds none (`transitions_survive_iff`).
-/

set_option autoImplicit false

namespace Mocop

open Toggles

/-- Whether a step closes the live table of a device: its process query failed, or the device
vanished. -/
def DeviceStep.closes : DeviceStep → Bool
  | .observed gpu _ => gpu.processesSampled && !gpu.processesAvailable
  | .vanished => true

/-- What a step of a device is promised to be: a sample of the device, with a short time text,
that lists one workload for a process, and no workload with an empty start time. -/
def DeviceStep.Promised (gpuId : String) : DeviceStep → Prop
  | .observed gpu observedAt => gpu.Listed ∧ gpu.trackedId = gpuId
    ∧ (0 < observedAt.length ∧ observedAt.length ≤ 64)
    ∧ ∀ process ∈ gpu.processes, process.workloadStartedAt ≠ some ""
  | .vanished => True

/-- Whether a step closes the live table before the table that follows one that replaced an
instance behind a reused PID. `replaced` tells of the last table. -/
def closesReplaced (gpuId : String) : GpuDevice → Bool → List DeviceStep → Bool
  | _, _, [] => false
  | device, replaced, step :: rest =>
    (replaced && step.closes)
      || closesReplaced gpuId (device.step gpuId step).1
        (match step.table? with
        | some processes => processes.any (isReplaced device.active)
        | none => replaced && !step.closes) rest

/-- The transitions that the samples of a run write, one batch for each. -/
def batches (gpuId : String) : GpuDevice → List DeviceStep → List (List GpuProcessTransition)
  | _, [] => []
  | device, step :: rest =>
    (device.step gpuId step).2 :: batches gpuId (device.step gpuId step).1 rest

theorem flatten_batches (gpuId : String) (device : GpuDevice) (steps : List DeviceStep) :
    (batches gpuId device steps).flatten = (device.run gpuId steps).2 := by
  induction steps generalizing device with
  | nil => rfl
  | cons step rest ih => rw [batches, List.flatten_cons, ih, GpuDevice.run_cons]

/-! ### The workload of a transition -/

variable {process : GpuProcess}

/-- The start time that the transition of a process carries. -/
theorem workloadStart_processTransition (h : process.workloadStartedAt ≠ some "")
    (observedAt gpuId : String) (index : ℕ) (event : ProcessEvent) (visible : Bool) :
    (processTransition observedAt gpuId index event process visible).workloadStart
      = process.workloadStartedAt := by
  rw [GpuProcess.workloadStartedAt] at h ⊢
  show workloadText (process.workload.map WorkloadMetadata.toDict) "started_at" = _
  cases hworkload : process.workload with
  | none => rfl
  | some workload =>
    rw [hworkload] at h
    have hget : workload.toDict.get? "started_at" = some workload.startedAt := by
      simp [WorkloadMetadata.toDict, Dict.get?_ofList, Dict.lookup]
    unfold workloadText
    simp only [Option.map_some, Option.bind_some, hget, Option.join_some]
    cases hstarted : workload.startedAt with
    | none => rfl
    | some text =>
      have hnonempty : text ≠ "" := by
        rintro rfl
        exact h hstarted
      simp [hnonempty]

/-- Two start times show a reused PID exactly if the instances differ. -/
theorem showsReuse_eq (prior process : GpuProcess) :
    showsReuse prior.workloadStartedAt process.workloadStartedAt
      = !sameProcessInstance prior process := by
  unfold showsReuse sameProcessInstance
  cases prior.workloadStartedAt with
  | none => rfl
  | some first =>
    cases process.workloadStartedAt with
    | none => rfl
    | some second => simp

/-- The row of a process transition keeps it. -/
theorem storable_processTransition {text : String} (hseen : process.firstSeenAt = some text)
    (htext : 0 < text.length ∧ text.length ≤ 64) (observedAt gpuId : String) (index : ℕ)
    (event : ProcessEvent) (visible : Bool) :
    (processTransition observedAt gpuId index event process visible).Storable where
  fields := fun fields hfields => by
    obtain ⟨workload, -, rfl⟩ := Option.map_eq_some_iff.mp hfields
    have hkeys : workload.toDict.keys = ["kind", "workload_id", "name", "owner", "queue",
        "namespace", "command", "started_at", "cpu_seconds", "rss_mib"] := rfl
    constructor
    · intro hnone
      rw [Dict.keys, hnone] at hkeys
      simp at hkeys
    · rw [hkeys]
      decide
  seen := by
    show checkedFirstSeen process.firstSeenAt = process.firstSeenAt
    rw [hseen, checkedFirstSeen, Option.filter_some, if_pos (by simpa using htext)]

/-! ### The effect of one step on one process -/

/-- What a process table makes of one process, and the transitions that it emits for it. -/
inductive TableEffect (observedAt gpuId : String) (index : ℕ) :
    Option GpuProcess → Option GpuProcess → List GpuProcessTransition → Prop where
  | absent : TableEffect observedAt gpuId index none none []
  | starts (process : GpuProcess) (visible : Bool) :
    TableEffect observedAt gpuId index none (some process)
      [processTransition observedAt gpuId index .started process visible]
  | stops (prior : GpuProcess) :
    TableEffect observedAt gpuId index (some prior) none
      [processTransition observedAt gpuId index .stopped prior true]
  | goesOn (prior process : GpuProcess) (h : sameProcessInstance prior process = true) :
    TableEffect observedAt gpuId index (some prior) (some process) []
  | restarts (prior process : GpuProcess) (h : sameProcessInstance prior process = false) :
    TableEffect observedAt gpuId index (some prior) (some process)
      [processTransition observedAt gpuId index .stopped prior true,
        processTransition observedAt gpuId index .started process true]

namespace GpuDevice

variable {device : GpuDevice} {gpu : GpuMetrics}

/-- A sample with a process table. -/
theorem observeGpu_table (h : (gpu.processesSampled && gpu.processesAvailable) = true)
    (observedAt : String) :
    device.observeGpu gpu observedAt
      = ({ device with
          history := device.history ++ [⟨observedAt, gpu.index⟩]
          lastObservedAt := some observedAt } : GpuDevice).observeTable gpu observedAt
        (device.history.getLast?.map (·.observedAt)) := by
  rw [Bool.and_eq_true] at h
  simp [observeGpu, h.1, h.2]

/-- The table that follows another one. -/
theorem tableEffect_compare (h : device.Sound (fun _ => True)) (hlisted : gpu.Listed)
    (observedAt : String) (key : ProcessKey) :
    TableEffect observedAt gpu.trackedId gpu.index (device.active.get? key)
      ((scanProcesses device.active observedAt gpu.processes).current.get? key)
      (processEdges (device.compare gpu.trackedId gpu.index
        (scanProcesses device.active observedAt gpu.processes) observedAt).2 key) := by
  obtain ⟨hcurrent, hpresent, hreplaced, hnodup⟩ :=
    scanProcesses_spec device.active observedAt gpu.processes
  have hkeyed := keyed_scanProcesses device.active observedAt gpu.processes
  unfold GpuDevice.compare
  rw [emit_snd]
  generalize scanProcesses device.active observedAt gpu.processes = scan at *
  rw [edges_compare hkeyed h.keyed hnodup]
  cases hprior : device.active.get? key with
  | none =>
    have hnot : key ∉ scan.replaced := fun hmem => by
      obtain ⟨listed, -, hkey, hother⟩ := (hreplaced key).mp hmem
      rw [isReplaced, hkey, hprior] at hother
      simp at hother
    cases hlive : scan.current.get? key with
    | none => simpa [hnot] using TableEffect.absent
    | some process => simpa [hnot] using TableEffect.starts process true
  | some prior =>
    cases hlive : scan.current.get? key with
    | none =>
      have hnot : key ∉ scan.replaced := fun hmem => by
        obtain ⟨listed, hlisted, hkey, -⟩ := (hreplaced key).mp hmem
        have hsome := hpresent listed hlisted
        rw [hkey, hlive] at hsome
        simp at hsome
      simpa [hnot] using TableEffect.stops prior
    | some process =>
      obtain ⟨listed, hmem, hkey, rfl⟩ := hcurrent key process hlive
      have hinstance : ∀ time, sameProcessInstance prior (listed.seenSince time)
          = sameProcessInstance prior listed := fun _ => rfl
      by_cases hother : key ∈ scan.replaced
      · obtain ⟨other, hothermem, hotherkey, hdiffers⟩ := (hreplaced key).mp hother
        have hsame := hlisted.workload listed hmem other hothermem (hkey.trans hotherkey.symm)
        rw [isReplaced, hotherkey, hprior] at hdiffers
        have hnot : sameProcessInstance prior listed = false := by
          rw [sameProcessInstance, hsame]
          simpa [sameProcessInstance] using hdiffers
        simpa [hother] using TableEffect.restarts prior _ ((hinstance _).trans hnot)
      · have hgoes : sameProcessInstance prior listed = true := by
          by_contra hdiffers
          refine hother ((hreplaced key).mpr ⟨listed, hmem, hkey, ?_⟩)
          rw [isReplaced, hkey, hprior]
          simpa using hdiffers
        simpa [hother] using TableEffect.goesOn prior _ ((hinstance _).trans hgoes)

/-- A process table, read off process by process. -/
theorem tableEffect (h : device.Sound (fun _ => True)) (hpending : device.pending = false)
    (hlisted : gpu.Listed) (htable : (gpu.processesSampled && gpu.processesAvailable) = true)
    (observedAt : String) (key : ProcessKey) :
    (device.observeGpu gpu observedAt).1.active.get? key
        = (scanProcesses device.active observedAt gpu.processes).current.get? key
      ∧ TableEffect observedAt gpu.trackedId gpu.index (device.active.get? key)
        ((scanProcesses device.active observedAt gpu.processes).current.get? key)
        (processEdges (device.observeGpu gpu observedAt).2 key) := by
  have hsound := (h.withHistory (device.history ++ [GpuHistoryPoint.mk observedAt
    gpu.index])).sampled observedAt
  rw [observeGpu_table htable]
  unfold observeTable
  dsimp only
  by_cases hinitialized : device.initialized = true
  · have hnot : ¬ (!device.initialized) = true := by simp [hinitialized]
    by_cases hnone : gpu.processes = []
    · rw [if_pos hnone, if_neg hnot, hnone]
      refine ⟨rfl, ?_⟩
      rw [emit_snd, edges_transitionsFor _ _ _ _ _ h.keyed device.active.nodup_keys]
      show TableEffect _ _ _ _ none _
      cases hprior : device.active.get? key with
      | none => simpa using TableEffect.absent
      | some prior =>
        rw [if_pos ((Dict.mem_keys _ _).mpr (by rw [hprior]; rfl))]
        exact TableEffect.stops prior
    · rw [if_neg hnone, if_neg hnot]
      exact ⟨rfl, tableEffect_compare hsound hlisted observedAt key⟩
  · rw [Bool.not_eq_true] at hinitialized
    have hfirst : (!device.initialized) = true := by simp [hinitialized]
    have hwait : ¬ device.pending = true := by simp [hpending]
    have hempty := h.active_eq_empty hinitialized key
    by_cases hnone : gpu.processes = []
    · rw [if_pos hnone, if_pos hfirst, if_neg hwait, hnone, hempty]
      exact ⟨rfl, TableEffect.absent⟩
    · rw [if_neg hnone, if_pos hfirst, initialize_, if_neg hwait]
      refine ⟨rfl, ?_⟩
      rw [emit_snd, edges_transitionsFor _ _ _ _ _
        (keyed_scanProcesses device.active observedAt gpu.processes) (Dict.nodup_keys _), hempty]
      cases hlive : (scanProcesses device.active observedAt gpu.processes).current.get? key with
      | none => simpa using TableEffect.absent
      | some process =>
        rw [if_pos ((Dict.mem_keys _ _).mpr (by rw [hlive]; rfl))]
        exact TableEffect.starts process false

/-- What a process table makes of the other tables. -/
theorem settled_observeGpu (hpending : device.pending = false)
    (htable : (gpu.processesSampled && gpu.processesAvailable) = true) (observedAt : String) :
    (device.observeGpu gpu observedAt).1.lastObservedAt = some observedAt
      ∧ (device.observeGpu gpu observedAt).1.pending = false := by
  rw [observeGpu_table htable]
  unfold observeTable
  dsimp only
  split
  · split
    · split
      · exact ⟨rfl, rfl⟩
      · exact ⟨rfl, hpending⟩
    · exact ⟨rfl, hpending⟩
  · split
    · unfold initialize_
      split
      · exact ⟨rfl, rfl⟩
      · exact ⟨rfl, hpending⟩
    · exact ⟨rfl, hpending⟩

/-- A step without a process table that closes nothing adds a GPU sample. -/
theorem quiet_step {gpuId : String} {step : DeviceStep} (htable : step.table? = none)
    (hcloses : step.closes = false) :
    ∃ history, device.step gpuId step = ({ device with history := history }, []) := by
  cases step with
  | vanished => simp [DeviceStep.closes] at hcloses
  | observed gpu observedAt =>
    refine ⟨device.history ++ [⟨observedAt, gpu.index⟩], ?_⟩
    show device.observeGpu gpu observedAt = _
    unfold observeGpu
    have hsampled : gpu.processesSampled = false := by
      by_contra hsampled
      rw [Bool.not_eq_false] at hsampled
      cases havailable : gpu.processesAvailable with
      | true => simp [DeviceStep.table?, hsampled, havailable] at htable
      | false => simp [DeviceStep.closes, hsampled, havailable] at hcloses
    simp [hsampled]

variable {observedAt : String} {steps : List DeviceStep} {replaced : Bool}

/-- The stops of a closing, read off process by process. -/
theorem edges_close (h : device.Sound (fun _ => True)) (gpuId : String) (index : ℕ)
    (key : ProcessKey) (hlast : device.lastObservedAt = some observedAt) :
    processEdges (device.closeProcessInventory gpuId index) key
      = ((device.active.get? key).map
          (processTransition observedAt gpuId index .stopped · false)).toList := by
  unfold closeProcessInventory
  rw [hlast]
  dsimp only
  rw [edges_transitionsFor _ _ _ _ _ h.keyed device.active.nodup_keys]
  by_cases hmem : key ∈ device.active.keys
  · rw [if_pos hmem]
  · rw [if_neg hmem, (Dict.get?_eq_none_iff _ _).mpr hmem]
    rfl

/-- A step that closes the live table. -/
theorem closing_step {gpuId : String} {step : DeviceStep} (h : device.Sound (fun _ => True))
    (hpending : device.pending = false) (hpromised : step.Promised gpuId)
    (hcloses : step.closes = true) :
    ∃ index, (device.step gpuId step).2 = device.closeProcessInventory gpuId index
      ∧ (∀ key, (device.step gpuId step).1.active.get? key = none)
      ∧ (device.step gpuId step).1.pending = false
      ∧ ∀ observedAt, (device.step gpuId step).1.lastObservedAt = some observedAt →
        device.lastObservedAt = some observedAt ∧ (device.step gpuId step).2 = [] := by
  cases step with
  | observed gpu observedAt =>
    rw [DeviceStep.closes, Bool.and_eq_true, Bool.not_eq_true'] at hcloses
    obtain ⟨-, hid, -⟩ := hpromised
    refine ⟨gpu.index, ?_⟩
    show (device.observeGpu gpu observedAt).2 = _ ∧ (∀ key,
      (device.observeGpu gpu observedAt).1.active.get? key = none)
      ∧ (device.observeGpu gpu observedAt).1.pending = false ∧ ∀ time,
      (device.observeGpu gpu observedAt).1.lastObservedAt = some time → _
    unfold observeGpu
    simp only [hcloses.1, hcloses.2, Bool.not_true, Bool.not_false, Bool.false_eq_true, if_false,
      if_true]
    refine ⟨?_, fun _ => rfl, hpending, fun time htime => ?_⟩
    · rw [hid]
      rfl
    · simp [closeUnobservable, emit] at htime
  | vanished =>
    refine ⟨device.lastIndex, ?_⟩
    show (device.vanish gpuId).2 = _ ∧ (∀ key, (device.vanish gpuId).1.active.get? key = none)
      ∧ (device.vanish gpuId).1.pending = false ∧ ∀ time,
      (device.vanish gpuId).1.lastObservedAt = some time → _ ∧ (device.vanish gpuId).2 = []
    have hrestored : ∀ other : GpuDevice, other.pending = false →
        other.closeRestored = (other, []) := by
      intro other hother
      simp [closeRestored, hother]
    unfold vanish
    cases hinitialized : device.initialized with
    | true =>
      simp only [if_true]
      rw [hrestored (device.closeUnobservable gpuId none).1 hpending]
      refine ⟨by simp [closeUnobservable, emit], fun _ => rfl, hpending,
        fun time htime => ?_⟩
      simp [closeUnobservable, emit] at htime
    | false =>
      have hempty := eq_empty_of_get? (h.active_eq_empty hinitialized)
      simp only [Bool.false_eq_true, if_false]
      rw [hrestored device hpending]
      refine ⟨?_, fun key => by rw [hempty]; rfl, hpending,
        fun time htime => ⟨htime, rfl⟩⟩
      unfold closeProcessInventory
      cases device.lastObservedAt with
      | none => rfl
      | some time =>
        dsimp only
        rw [hempty, transitionsFor, sortedKeys, show (∅ : Dict ProcessKey GpuProcess).keys
          = [] from rfl, List.mergeSort_nil, List.filterMap_nil]
        rfl

/-! ### What a run keeps -/

/-- The invariant of a device that restored nothing. -/
structure Tracked (gpuId : String) (device : GpuDevice) : Prop where
  sound : device.Sound (fun _ => True)
  settled : device.pending = false
  storable : ∀ event ∈ device.events, event.Storable ∧ event.gpuId = gpuId
  stamped : ∀ key process, device.active.get? key = some process →
    ∃ text, process.firstSeenAt = some text ∧ 0 < text.length ∧ text.length ≤ 64
  started : ∀ key process, device.active.get? key = some process →
    process.workloadStartedAt ≠ some ""

theorem tracked_empty (gpuId : String) : ({} : GpuDevice).Tracked gpuId where
  sound := ProcessStore.sound_empty
  settled := rfl
  storable := fun _ h => by simp at h
  stamped := fun _ _ h => by simp at h
  started := fun _ _ h => by simp at h

variable {gpuId : String} {step : DeviceStep}

/-- What a step leaves sound. -/
theorem Tracked.sound_step (h : device.Tracked gpuId) (hpromised : step.Promised gpuId) :
    (device.step gpuId step).1.Sound (fun _ => True) := by
  cases step with
  | observed gpu observedAt =>
    obtain ⟨hlisted, -, htime, -⟩ := hpromised
    refine h.sound.observeGpu hlisted ?_
    rintro rfl
    simp at htime
  | vanished => exact (h.sound.vanish gpuId).1

/-- A process of a sample was first observed at a time with a text, and its start time is no
empty text. -/
theorem Tracked.scanned (h : device.Tracked gpuId) {gpu : GpuMetrics}
    (hpromised : (DeviceStep.observed gpu observedAt).Promised gpuId) {key : ProcessKey}
    (hprocess : (scanProcesses device.active observedAt gpu.processes).current.get? key
      = some process) :
    (∃ text, process.firstSeenAt = some text ∧ 0 < text.length ∧ text.length ≤ 64)
      ∧ process.workloadStartedAt ≠ some "" := by
  obtain ⟨-, -, htime, hstarted⟩ := hpromised
  obtain ⟨listed, hmem, -, rfl⟩ :=
    (scanProcesses_spec device.active observedAt gpu.processes).1 key process hprocess
  refine ⟨⟨_, rfl, ?_⟩, hstarted listed hmem⟩
  unfold firstObservation
  cases hprior : device.active.get? listed.key with
  | none => exact htime
  | some prior =>
    dsimp only
    split
    · obtain ⟨text, htext, hlength⟩ := h.stamped _ prior hprior
      rw [htext, timeOr, if_neg]
      · exact hlength
      · rintro rfl
        simp at hlength
    · exact htime

/-- The transitions that a process table emits for a process are storable. -/
theorem storable_of_tableEffect {index : ℕ} {prior current : Option GpuProcess}
    {edges : List GpuProcessTransition} (h : TableEffect observedAt gpuId index prior current edges)
    (hstamped : ∀ process, prior = some process ∨ current = some process →
      ∃ text, process.firstSeenAt = some text ∧ 0 < text.length ∧ text.length ≤ 64) :
    ∀ event ∈ edges, (event.Storable ∧ event.gpuId = gpuId) ∧ event.observedAt = observedAt := by
  intro event hevent
  have hof : ∀ (process : GpuProcess) (kind : ProcessEvent) (visible : Bool),
      (prior = some process ∨ current = some process) →
      ((processTransition observedAt gpuId index kind process visible).Storable
        ∧ (processTransition observedAt gpuId index kind process visible).gpuId = gpuId)
      ∧ (processTransition observedAt gpuId index kind process visible).observedAt
        = observedAt := by
    intro process kind visible hprocess
    obtain ⟨text, hseen, htext⟩ := hstamped process hprocess
    exact ⟨⟨storable_processTransition hseen htext _ _ _ _ _, rfl⟩, rfl⟩
  cases h with
  | absent => simp at hevent
  | starts process visible =>
    rw [List.mem_singleton.mp hevent]
    exact hof process .started visible (Or.inr rfl)
  | stops prior =>
    rw [List.mem_singleton.mp hevent]
    exact hof prior .stopped true (Or.inl rfl)
  | goesOn prior process _ => simp at hevent
  | restarts prior process _ =>
    rcases List.mem_pair.mp hevent with rfl | rfl
    · exact hof prior .stopped true (Or.inl rfl)
    · exact hof process .started true (Or.inr rfl)

/-- A step keeps the device tracked. -/
theorem Tracked.after_step (h : device.Tracked gpuId) (hpromised : step.Promised gpuId) :
    (device.step gpuId step).1.Tracked gpuId := by
  have hsound := h.sound_step hpromised
  have hevents := events_step gpuId device step
  by_cases htable : step.table?.isSome = true
  · obtain ⟨table, htable⟩ := Option.isSome_iff_exists.mp htable
    obtain ⟨gpu, observedAt, rfl, hboth, -⟩ := DeviceStep.of_table? htable
    have heffect := tableEffect h.sound h.settled hpromised.1 hboth observedAt
    have hid := hpromised.2.1
    refine ⟨hsound, (settled_observeGpu h.settled hboth observedAt).2, ?_, ?_, ?_⟩
    · intro event hevent
      rw [hevents] at hevent
      rcases List.mem_append.mp hevent with hevent | hevent
      · exact h.storable event hevent
      · have hedge : event ∈ processEdges (device.observeGpu gpu observedAt).2
            event.processKey := mem_processEdges.mpr ⟨hevent, rfl⟩
        have htransitions := (heffect event.processKey).2
        rw [hid] at htransitions
        refine (storable_of_tableEffect htransitions ?_ event hedge).1
        rintro process (hprior | hcurrent)
        · exact h.stamped _ process hprior
        · exact (h.scanned hpromised hcurrent).1
    · intro key process hprocess
      exact (h.scanned hpromised ((heffect key).1.symm.trans hprocess)).1
    · intro key process hprocess
      exact (h.scanned hpromised ((heffect key).1.symm.trans hprocess)).2
  · have hnone : step.table? = none := by simpa using htable
    cases hcloses : step.closes with
    | false =>
      obtain ⟨history, hstep⟩ := @quiet_step device gpuId step hnone hcloses
      rw [hstep]
      exact ⟨h.sound.withHistory history, h.settled, h.storable, h.stamped, h.started⟩
    | true =>
      obtain ⟨index, hemitted, hactive, hpending, -⟩ :=
        closing_step h.sound h.settled hpromised hcloses
      refine ⟨hsound, hpending, ?_, fun key process hprocess => ?_,
        fun key process hprocess => ?_⟩
      · intro event hevent
        rw [hevents] at hevent
        rcases List.mem_append.mp hevent with hevent | hevent
        · exact h.storable event hevent
        · rw [hemitted] at hevent
          cases hlast : device.lastObservedAt with
          | none => simp [closeProcessInventory, hlast] at hevent
          | some observedAt =>
            have hedge := mem_processEdges.mpr ⟨hevent, rfl⟩
            rw [edges_close h.sound gpuId index event.processKey hlast,
              Option.mem_toList, Option.map_eq_some_iff] at hedge
            obtain ⟨process, hprocess, hmade⟩ := hedge
            obtain ⟨text, hseen, htext⟩ := h.stamped _ process hprocess
            rw [← hmade]
            exact ⟨storable_processTransition hseen htext _ _ _ _ _, rfl⟩
      · rw [hactive] at hprocess
        simp at hprocess
      · rw [hactive] at hprocess
        simp at hprocess

/-- A run keeps the device tracked. -/
theorem Tracked.run (h : device.Tracked gpuId) (hpromised : ∀ step ∈ steps, step.Promised gpuId) :
    (device.run gpuId steps).1.Tracked gpuId := by
  induction steps generalizing device with
  | nil => exact h
  | cons first rest ih =>
    rw [run_cons]
    exact ih (h.after_step (hpromised first List.mem_cons_self))
      (fun step hmem => hpromised step (List.mem_cons_of_mem _ hmem))

/-! ### A run whose transitions are in order -/

/-- The transitions of a device are in order, and those of its last process sample are the
starts of live processes, unless the sample replaced an instance. -/
structure InOrder (latest : String) (replaced : Bool) (device : GpuDevice) : Prop where
  past : ∀ event ∈ device.events, event.observedAt ≤ latest
  last : ∀ observedAt, device.lastObservedAt = some observedAt →
    observedAt ≤ latest ∧ ∀ event ∈ device.events, event.observedAt ≤ observedAt
  ordered : ∀ key, (processEdges device.events key).Pairwise Precedes
  fresh : replaced = false → ∀ observedAt, device.lastObservedAt = some observedAt →
    ∀ key process, device.active.get? key = some process →
      ∀ event ∈ processEdges device.events key, event.observedAt = observedAt →
        event.event = .started ∧ event.workloadStart = process.workloadStartedAt

/-- The transitions of one process after a table are in order among themselves. -/
theorem ordered_of_tableEffect {index : ℕ} {prior current : Option GpuProcess}
    {edges : List GpuProcessTransition} (h : TableEffect observedAt gpuId index prior current edges)
    (hstarted : ∀ process, prior = some process ∨ current = some process →
      process.workloadStartedAt ≠ some "") : edges.Pairwise Precedes := by
  cases h with
  | absent => exact List.Pairwise.nil
  | starts process visible => exact List.pairwise_singleton _ _
  | stops prior => exact List.pairwise_singleton _ _
  | goesOn prior process _ => exact List.Pairwise.nil
  | restarts prior process hother =>
    rw [List.pairwise_pair]
    refine Or.inr ⟨rfl, by simp [processTransition], ?_⟩
    rw [workloadStart_processTransition (hstarted prior (Or.inl rfl)),
      workloadStart_processTransition (hstarted process (Or.inr rfl)), showsReuse_eq, hother]
    exact ⟨fun _ => rfl, fun _ => rfl⟩

/-- A process table at a later time keeps the order. -/
theorem InOrder.table {latest observedAt : String} {gpu : GpuMetrics}
    (h : device.InOrder latest replaced) (htracked : device.Tracked gpuId)
    (hpromised : (DeviceStep.observed gpu observedAt).Promised gpuId)
    (hboth : (gpu.processesSampled && gpu.processesAvailable) = true)
    (hlater : latest < observedAt) :
    (device.observeGpu gpu observedAt).1.InOrder observedAt
      (gpu.processes.any (isReplaced device.active)) := by
  have heffect := tableEffect htracked.sound htracked.settled hpromised.1 hboth observedAt
  have hevents := events_observeGpu device gpu observedAt
  have hlast := (settled_observeGpu htracked.settled hboth observedAt).1
  have hstarted : ∀ key process, device.active.get? key = some process
      ∨ (scanProcesses device.active observedAt gpu.processes).current.get? key = some process →
      process.workloadStartedAt ≠ some "" := by
    rintro key process (hprior | hcurrent)
    · exact htracked.started key process hprior
    · exact (htracked.scanned hpromised hcurrent).2
  have hnew : ∀ event ∈ (device.observeGpu gpu observedAt).2, event.observedAt = observedAt := by
    intro event hevent
    have hedge : event ∈ processEdges (device.observeGpu gpu observedAt).2 event.processKey :=
      mem_processEdges.mpr ⟨hevent, rfl⟩
    have hid := hpromised.2.1
    have htransitions := (heffect event.processKey).2
    rw [hid] at htransitions
    refine (storable_of_tableEffect htransitions ?_ event hedge).2
    rintro process (hprior | hcurrent)
    · exact htracked.stamped _ process hprior
    · exact (htracked.scanned hpromised hcurrent).1
  have hall : ∀ event ∈ (device.observeGpu gpu observedAt).1.events,
      event.observedAt ≤ observedAt := by
    intro event hevent
    rw [hevents] at hevent
    rcases List.mem_append.mp hevent with hevent | hevent
    · exact le_of_lt (lt_of_le_of_lt (h.past event hevent) hlater)
    · exact le_of_eq (hnew event hevent)
  refine ⟨hall, fun time htime => ?_, fun key => ?_, fun hkept time htime key process hprocess
    event hevent hat => ?_⟩
  · rw [hlast] at htime
    obtain rfl := Option.some.inj htime
    exact ⟨le_refl _, hall⟩
  · rw [hevents, processEdges, edgesOf_append, List.pairwise_append]
    refine ⟨h.ordered key, ordered_of_tableEffect (heffect key).2 (hstarted key), ?_⟩
    intro a ha b hb
    refine Or.inl ?_
    rw [hnew b (mem_processEdges.mp hb).1]
    exact lt_of_le_of_lt (h.past a (mem_processEdges.mp ha).1) hlater
  · rw [hlast] at htime
    obtain rfl := Option.some.inj htime
    rw [(heffect key).1] at hprocess
    have htransitions := (heffect key).2
    rw [hprocess] at htransitions
    have hedge : event ∈ processEdges (device.observeGpu gpu observedAt).2 key := by
      rw [hevents, processEdges, edgesOf_append] at hevent
      rcases List.mem_append.mp hevent with hevent | hevent
      · have hpast := h.past event (mem_processEdges.mp hevent).1
        rw [hat] at hpast
        exact absurd hlater (not_lt.mpr hpast)
      · exact hevent
    generalize processEdges (device.observeGpu gpu observedAt).2 key = edges at htransitions hedge
    generalize hprior : device.active.get? key = prior at htransitions
    cases htransitions with
    | starts _ visible =>
      rw [List.mem_singleton.mp hedge]
      exact ⟨rfl, workloadStart_processTransition (hstarted key process (Or.inr hprocess))
        _ _ _ _ _⟩
    | goesOn _ _ _ => simp at hedge
    | restarts former _ hother =>
      -- The sample would have replaced an instance.
      exfalso
      obtain ⟨listed, hmem, hkey, rfl⟩ :=
        (scanProcesses_spec device.active observedAt gpu.processes).1 key process hprocess
      have hreplaced : isReplaced device.active listed = true := by
        rw [isReplaced, hkey, hprior]
        show (!sameProcessInstance former listed) = true
        rw [show sameProcessInstance former listed = false from hother]
        rfl
      have hany : gpu.processes.any (isReplaced device.active) = true :=
        List.any_eq_true.mpr ⟨listed, hmem, hreplaced⟩
      rw [hkept] at hany
      simp at hany

/-- A closing keeps the order, unless the last process sample replaced an instance. -/
theorem InOrder.close {latest : String} (h : device.InOrder latest false)
    (htracked : device.Tracked gpuId) (hpromised : step.Promised gpuId)
    (hcloses : step.closes = true) : (device.step gpuId step).1.InOrder latest false := by
  obtain ⟨index, hemitted, hactive, -, hlast⟩ :=
    closing_step htracked.sound htracked.settled hpromised hcloses
  have hevents := events_step gpuId device step
  cases hobserved : device.lastObservedAt with
  | none =>
    have hnone : (device.step gpuId step).2 = [] := by
      rw [hemitted, closeProcessInventory, hobserved]
    rw [hnone, List.append_nil] at hevents
    refine ⟨?_, fun time htime => ?_, ?_, fun _ time _ key process hprocess => ?_⟩
    · rw [hevents]
      exact h.past
    · have hold := (hlast time htime).1
      rw [hobserved] at hold
      simp at hold
    · rw [hevents]
      exact h.ordered
    · rw [hactive] at hprocess
      simp at hprocess
  | some observedAt =>
    have hedges := fun key => edges_close htracked.sound gpuId index key hobserved
    have hnew : ∀ event ∈ (device.step gpuId step).2, event.observedAt = observedAt := by
      intro event hevent
      rw [hemitted] at hevent
      have hedge := mem_processEdges.mpr ⟨hevent, rfl⟩
      rw [hedges event.processKey, Option.mem_toList, Option.map_eq_some_iff] at hedge
      obtain ⟨process, -, hmade⟩ := hedge
      rw [← hmade]
      rfl
    have hold := h.last observedAt hobserved
    refine ⟨?_, fun time htime => ?_, fun key => ?_, fun _ time _ key process hprocess => ?_⟩
    · intro event hevent
      rw [hevents] at hevent
      rcases List.mem_append.mp hevent with hevent | hevent
      · exact h.past event hevent
      · rw [hnew event hevent]
        exact hold.1
    · obtain ⟨hsame, hnone⟩ := hlast time htime
      rw [hnone, List.append_nil] at hevents
      rw [hevents]
      exact h.last time hsame
    · rw [hevents, processEdges, edgesOf_append, List.pairwise_append]
      refine ⟨h.ordered key, ?_, ?_⟩
      · rw [hemitted]
        show (processEdges (device.closeProcessInventory gpuId index) key).Pairwise Precedes
        rw [hedges key]
        cases device.active.get? key with
        | none => exact List.Pairwise.nil
        | some process => exact List.pairwise_singleton _ _
      · intro a ha b hb
        rw [hemitted] at hb
        have hbedge : b ∈ processEdges (device.closeProcessInventory gpuId index) key := hb
        rw [hedges key, Option.mem_toList, Option.map_eq_some_iff] at hbedge
        obtain ⟨process, hprocess, rfl⟩ := hbedge
        rcases lt_or_eq_of_le (hold.2 a (mem_processEdges.mp ha).1) with hlt | heq
        · exact Or.inl hlt
        · -- The start of the same sample: the closing ends that run.
          obtain ⟨hstart, hworkload⟩ := h.fresh rfl observedAt hobserved key process hprocess a
            ha heq
          refine Or.inr ⟨heq, by rw [hstart]; simp [processTransition], ?_⟩
          rw [hworkload, workloadStart_processTransition
            (htracked.started key process hprocess), showsReuse_eq]
          have hsame : sameProcessInstance process process = true := by
            unfold sameProcessInstance
            cases process.workloadStartedAt with
            | none => rfl
            | some text => simp
          rw [hsame]
          simp [processTransition]
    · rw [hactive] at hprocess
      simp at hprocess

/-- A step without a process table that closes nothing keeps the order. -/
theorem InOrder.withHistory {latest : String} (h : device.InOrder latest replaced)
    (history : List GpuHistoryPoint) :
    ({ device with history := history } : GpuDevice).InOrder latest replaced :=
  ⟨h.past, h.last, h.ordered, h.fresh⟩

theorem InOrder.later {latest observedAt : String} (h : device.InOrder latest replaced)
    (hlater : latest ≤ observedAt) :
    device.InOrder observedAt replaced :=
  ⟨fun event hevent => (h.past event hevent).trans hlater,
    fun time htime => ⟨(h.last time htime).1.trans hlater, (h.last time htime).2⟩,
    h.ordered, h.fresh⟩

/-- A run with samples at increasing times that closes no replaced instance keeps the order. -/
theorem InOrder.run {latest : String} (h : device.InOrder latest replaced)
    (htracked : device.Tracked gpuId) (hpromised : ∀ step ∈ steps, step.Promised gpuId)
    (hlater : (latest :: steps.filterMap DeviceStep.time?).Pairwise (· < ·))
    (hkept : closesReplaced gpuId device replaced steps = false) :
    ∀ key, (processEdges (device.run gpuId steps).1.events key).Pairwise Precedes := by
  induction steps generalizing device latest replaced with
  | nil => exact h.ordered
  | cons first rest ih =>
    have hfirst := hpromised first List.mem_cons_self
    have hrest : ∀ step ∈ rest, step.Promised gpuId :=
      fun step hmem => hpromised step (List.mem_cons_of_mem _ hmem)
    rw [closesReplaced, Bool.or_eq_false_iff] at hkept
    obtain ⟨hclosing, hkept⟩ := hkept
    rw [run_cons]
    cases htable : first.table? with
    | some processes =>
      obtain ⟨gpu, observedAt, rfl, hboth, hprocesses⟩ := DeviceStep.of_table? htable
      rw [htable, hprocesses] at hkept
      have hcons : (latest :: observedAt
          :: rest.filterMap DeviceStep.time?).Pairwise (· < ·) := hlater
      rw [List.pairwise_cons] at hcons
      exact ih (h.table htracked hfirst hboth (hcons.1 observedAt List.mem_cons_self))
        (htracked.after_step hfirst) hrest hcons.2 hkept
    | none =>
      rw [htable] at hkept
      -- The time of the sample, if the step is one, is later than the latest one.
      have htimes : ∃ now, latest ≤ now
          ∧ (now :: rest.filterMap DeviceStep.time?).Pairwise (· < ·) := by
        cases first with
        | vanished => exact ⟨latest, le_refl _, hlater⟩
        | observed gpu observedAt =>
          have hcons : (latest :: observedAt
              :: rest.filterMap DeviceStep.time?).Pairwise (· < ·) := hlater
          rw [List.pairwise_cons] at hcons
          exact ⟨observedAt, le_of_lt (hcons.1 observedAt List.mem_cons_self), hcons.2⟩
      obtain ⟨now, hnow, hafter⟩ := htimes
      cases hcloses : first.closes with
      | false =>
        obtain ⟨history, hstep⟩ := @quiet_step device gpuId first htable hcloses
        have htracked' := htracked.after_step hfirst
        rw [hcloses, Bool.not_false, Bool.and_true] at hkept
        rw [hstep] at hkept htracked' ⊢
        exact ih ((h.withHistory history).later hnow) htracked' hrest hafter hkept
      | true =>
        rw [hcloses, Bool.and_true] at hclosing
        rw [hcloses, Bool.not_true, Bool.and_false] at hkept
        rw [hclosing] at h
        exact ih ((h.close htracked hfirst hcloses).later hnow)
          (htracked.after_step hfirst) hrest hafter hkept

/-! ### A run that closes a replaced instance -/

/-- The last process sample replaced an instance: the stop of the former one, and the start of
the one that is live. -/
def Replaced (device : GpuDevice) : Prop :=
  ∃ key process stop start, device.active.get? key = some process
    ∧ device.lastObservedAt = some start.observedAt
    ∧ stop ∈ device.events ∧ start ∈ device.events
    ∧ (stop.event = .stopped ∧ stop.visible = true)
    ∧ (start.event = .started ∧ start.visible = true)
    ∧ (stop.observedAt = start.observedAt ∧ stop.processKey = start.processKey)
    ∧ start.processKey = key
    ∧ showsReuse start.workloadStart stop.workloadStart = true
    ∧ start.workloadStart = process.workloadStartedAt

/-- A stop, a start and a hidden stop of one process at one time. -/
def HasTie (emitted : List GpuProcessTransition) : Prop :=
  ∃ stop start close : GpuProcessTransition, stop ∈ emitted ∧ [start, close].Sublist emitted
    ∧ (stop.event = .stopped ∧ stop.visible = true)
    ∧ (start.event = .started ∧ start.visible = true)
    ∧ (close.event = .stopped ∧ close.visible = false)
    ∧ (stop.observedAt = start.observedAt ∧ stop.processKey = start.processKey)
    ∧ (close.observedAt = start.observedAt ∧ close.processKey = start.processKey)
    ∧ showsReuse start.workloadStart stop.workloadStart = true
    ∧ close.workloadStart = start.workloadStart

/-- A table that replaces an instance. -/
theorem replaced_table {gpu : GpuMetrics} (htracked : device.Tracked gpuId)
    (hpromised : (DeviceStep.observed gpu observedAt).Promised gpuId)
    (hboth : (gpu.processesSampled && gpu.processesAvailable) = true)
    (hany : gpu.processes.any (isReplaced device.active) = true) :
    (device.observeGpu gpu observedAt).1.Replaced := by
  obtain ⟨listed, hmem, hreplaced⟩ := List.any_eq_true.mp hany
  have heffect := tableEffect htracked.sound htracked.settled hpromised.1 hboth observedAt
    listed.key
  have hlast := (settled_observeGpu htracked.settled hboth observedAt).1
  have hevents := events_observeGpu device gpu observedAt
  obtain ⟨process, hprocess⟩ := Option.isSome_iff_exists.mp
    ((scanProcesses_spec device.active observedAt gpu.processes).2.1 listed hmem)
  obtain ⟨hafter, htransitions⟩ := heffect
  have hshown := (htracked.scanned hpromised hprocess).2
  -- The process of the table and the listed one belong to one workload.
  have hworkload : process.workloadStartedAt = listed.workloadStartedAt := by
    obtain ⟨other, hother, hkey, rfl⟩ :=
      (scanProcesses_spec device.active observedAt gpu.processes).1 _ process hprocess
    exact hpromised.1.workload other hother listed hmem hkey
  rw [isReplaced] at hreplaced
  cases hprior : device.active.get? listed.key with
  | none =>
    rw [hprior] at hreplaced
    simp at hreplaced
  | some prior =>
    rw [hprior] at hreplaced
    have hother : sameProcessInstance prior process = false := by
      have hsame : sameProcessInstance prior process = sameProcessInstance prior listed := by
        rw [sameProcessInstance, sameProcessInstance, hworkload]
      rw [hsame]
      simpa using hreplaced
    have hstarted := htracked.started listed.key prior hprior
    have hkeyprior := htracked.sound.keyed listed.key prior hprior
    have hkey := keyed_scanProcesses device.active observedAt gpu.processes _ process hprocess
    rw [hprior, hprocess] at htransitions
    generalize hedges : processEdges (device.observeGpu gpu observedAt).2 listed.key = edges
      at htransitions
    cases htransitions with
    | goesOn _ _ hsame =>
      rw [hother] at hsame
      simp at hsame
    | restarts _ _ _ =>
      have hin : ∀ event, event ∈ processEdges (device.observeGpu gpu observedAt).2
          listed.key → event ∈ (device.observeGpu gpu observedAt).1.events := by
        intro event hevent
        rw [hevents]
        exact List.mem_append_right _ (mem_processEdges.mp hevent).1
      rw [hedges] at hin
      refine ⟨listed.key, process, _, _, hafter.trans hprocess, hlast,
        hin _ List.mem_cons_self, hin _ (List.mem_cons_of_mem _ List.mem_cons_self),
        ⟨rfl, rfl⟩, ⟨rfl, rfl⟩, ⟨rfl, hkeyprior.trans hkey.symm⟩, hkey, ?_,
        workloadStart_processTransition hshown _ _ _ _ _⟩
      rw [workloadStart_processTransition hstarted, workloadStart_processTransition hshown,
        showsReuse_comm, showsReuse_eq, hother]
      rfl

/-- A run that closes a replaced instance emits a tie. -/
theorem hasTie_run (htracked : device.Tracked gpuId)
    (hpromised : ∀ step ∈ steps, step.Promised gpuId)
    (hreplaced : replaced = true → device.Replaced)
    (h : closesReplaced gpuId device replaced steps = true) :
    HasTie (device.run gpuId steps).1.events := by
  induction steps generalizing device replaced with
  | nil => simp [closesReplaced] at h
  | cons first rest ih =>
    have hfirst := hpromised first List.mem_cons_self
    have hrest : ∀ step ∈ rest, step.Promised gpuId :=
      fun step hmem => hpromised step (List.mem_cons_of_mem _ hmem)
    have hafter := htracked.after_step hfirst
    rw [run_cons]
    rw [closesReplaced] at h
    by_cases hnow : (replaced && first.closes) = true
    · -- The closing of the new instance is dated back to its start.
      rw [Bool.and_eq_true] at hnow
      obtain ⟨key, process, stop, start, hprocess, hlast, hstop, hstart, hstopped, hstarted,
        hidentity, hkey, hreuse, hworkload⟩ := hreplaced hnow.1
      obtain ⟨index, hemitted, -, -, -⟩ :=
        closing_step htracked.sound htracked.settled hfirst hnow.2
      have hclose : processTransition start.observedAt gpuId index .stopped process false
          ∈ (device.step gpuId first).2 := by
        rw [hemitted]
        refine ((@mem_processEdges key _ _).mp ?_).1
        rw [edges_close htracked.sound gpuId index key hlast, hprocess]
        exact List.mem_cons_self
      rw [events_run, events_step]
      refine ⟨stop, start,
        processTransition start.observedAt gpuId index .stopped process false,
        List.mem_append_left _ (List.mem_append_left _ hstop), ?_,
        hstopped, hstarted, ⟨rfl, rfl⟩, hidentity, ⟨rfl, ?_⟩, hreuse, ?_⟩
      · have hpair : [start, processTransition start.observedAt gpuId index .stopped process
            false].Sublist (device.events ++ (device.step gpuId first).2) :=
          List.Sublist.append (List.singleton_sublist.mpr hstart)
            (List.singleton_sublist.mpr hclose)
        exact hpair.trans (List.sublist_append_left _ _)
      · rw [hkey]
        exact htracked.sound.keyed key process hprocess
      · rw [workloadStart_processTransition (htracked.started key process hprocess), hworkload]
    · rw [Bool.not_eq_true] at hnow
      rw [hnow, Bool.false_or] at h
      refine ih hafter hrest ?_ h
      cases htable : first.table? with
      | some processes =>
        intro hany
        obtain ⟨gpu, observedAt, rfl, hboth, rfl⟩ := DeviceStep.of_table? htable
        exact replaced_table htracked hfirst hboth hany
      | none =>
        intro hold
        dsimp only at hold
        rw [Bool.and_eq_true, Bool.not_eq_true'] at hold
        obtain ⟨history, hstep⟩ := @quiet_step device gpuId first htable hold.2
        rw [hstep]
        exact hreplaced hold.1

end GpuDevice

open GpuDevice

/-- The table after a run holds rows of the device. -/
theorem holds_batches {internalUsageGpuKey : String → String → String} {host gpuId : String}
    {table : ProcessTable} (written : List (List GpuProcessTransition))
    (htable : Holds internalUsageGpuKey host gpuId table)
    (h : ∀ event ∈ written.flatten, event.Storable ∧ event.gpuId = gpuId) :
    Holds internalUsageGpuKey host gpuId
      (written.foldl (writeProcessEvents internalUsageGpuKey host) table) := by
  induction written generalizing table with
  | nil => exact htable
  | cons events rest ih =>
    rw [List.flatten_cons] at h
    exact ih (htable.write fun event hmem => h event (List.mem_append_left _ hmem))
      (fun event hmem => h event (List.mem_append_right _ hmem))

section
variable (internalUsageGpuKey : String → String → String) (host gpuId : String) (limit : ℕ)
  (steps : List DeviceStep) (hpromised : ∀ step ∈ steps, step.Promised gpuId)
include hpromised

/-- The timeline of a run from an empty device is what the run emits, and its rows keep it. -/
theorem emitted_run :
    (({} : GpuDevice).run gpuId steps).1.events = (({} : GpuDevice).run gpuId steps).2
      ∧ ∀ event ∈ (({} : GpuDevice).run gpuId steps).2, event.Storable ∧ event.gpuId = gpuId := by
  have hevents : (({} : GpuDevice).run gpuId steps).1.events
      = (({} : GpuDevice).run gpuId steps).2 := by
    rw [events_run]
    rfl
  have hstorable := ((tracked_empty gpuId).run hpromised).storable
  rw [hevents] at hstorable
  exact ⟨hevents, hstorable⟩

/-- A run that closes a replaced instance does not survive. -/
theorem lost_of_closesReplaced (hdevice : DeviceKey.Storable (host, gpuId))
    (hlimit : (({} : GpuDevice).run gpuId steps).2.length < limit)
    (hcloses : closesReplaced gpuId {} false steps = true) :
    ¬ SurvivesRestart (({} : GpuDevice).run gpuId steps).2
        (restoreProcessEvents ((batches gpuId {} steps).foldl
          (writeProcessEvents internalUsageGpuKey host) ∅) limit (host, gpuId)) := by
  obtain ⟨hemitted, hstorable⟩ := emitted_run gpuId steps hpromised
  have htie := hasTie_run (tracked_empty gpuId) hpromised (fun h => by simp at h) hcloses
  rw [hemitted] at htie
  obtain ⟨stop, start, close, hstop, hpair, hstopped, hstarted, hclosed, hidentity, hclosing,
    hreuse, hsame⟩ := htie
  have htable : Holds internalUsageGpuKey host gpuId ((batches gpuId {} steps).foldl
      (writeProcessEvents internalUsageGpuKey host) ∅) :=
    holds_batches _ (fun _ h => absurd h List.not_mem_nil)
      (by rw [flatten_batches]; exact hstorable)
  exact lost_of_reuse hdevice htable hlimit hstop hpair hstopped hstarted hclosed hidentity
    hclosing hreuse hsame

end

/-- The transitions that a run of one device emits survive a restart exactly if no step closes an
instance that the last process sample put in the place of another one. -/
theorem transitions_survive_iff (internalUsageGpuKey : String → String → String)
    (host gpuId : String) (limit : ℕ) (steps : List DeviceStep)
    (hdevice : DeviceKey.Storable (host, gpuId))
    (hpromised : ∀ step ∈ steps, step.Promised gpuId)
    (hlater : (steps.filterMap DeviceStep.time?).Pairwise (· < ·))
    (hlimit : (({} : GpuDevice).run gpuId steps).2.length < limit) :
    SurvivesRestart (({} : GpuDevice).run gpuId steps).2
        (restoreProcessEvents ((batches gpuId {} steps).foldl
          (writeProcessEvents internalUsageGpuKey host) ∅) limit (host, gpuId))
      ↔ closesReplaced gpuId {} false steps = false := by
  obtain ⟨hemitted, hstorable⟩ := emitted_run gpuId steps hpromised
  constructor
  · intro hsurvives
    by_contra hcloses
    rw [Bool.not_eq_false] at hcloses
    exact lost_of_closesReplaced internalUsageGpuKey host gpuId limit steps hpromised hdevice
      hlimit hcloses hsurvives
  · intro hkept
    have hstart : ({} : GpuDevice).InOrder "" false :=
      ⟨fun _ h => by simp at h, fun _ h => by simp at h, fun _ => List.Pairwise.nil,
        fun _ _ h => by simp at h⟩
    have htimes : ("" :: steps.filterMap DeviceStep.time?).Pairwise (· < ·) := by
      refine List.pairwise_cons.mpr ⟨fun time htime => ?_, hlater⟩
      obtain ⟨step, hmem, hstep⟩ := List.mem_filterMap.mp htime
      cases step with
      | vanished => simp [DeviceStep.time?] at hstep
      | observed gpu observedAt =>
        obtain rfl := Option.some.inj hstep
        have hlength := (hpromised _ hmem).2.2.1.1
        refine lt_of_le_of_ne (not_lt.mp fun hlt => ?_) ?_
        · rw [String.lt_iff_toList_lt] at hlt
          exact absurd hlt (List.not_lt_nil _)
        · rintro rfl
          simp at hlength
    have hordered := hstart.run (tracked_empty gpuId) hpromised htimes hkept
    rw [hemitted] at hordered
    have hsurvives := @survives_of_precedes internalUsageGpuKey host gpuId limit hdevice
      (batches gpuId {} steps) (by rw [flatten_batches]; exact hstorable)
      (by rw [flatten_batches]; exact hlimit) (by rw [flatten_batches]; exact hordered)
    rw [flatten_batches] at hsurvives
    exact hsurvives

/-- A table with one process, whose workload started at a time. -/
private def tableSince (started : String) : GpuMetrics where
  index := 0
  uuid := "GPU-1"
  name := "L4"
  temperatureC := none
  utilizationGpuPct := none
  memoryTotalMib := none
  memoryUsedMib := none
  powerDrawW := none
  processes := [{
    pid := 7
    name := "python"
    usedMemoryMib := none
    workload := some { kind := .process, startedAt := some started } }]

/-- A process, and another one behind its PID. -/
private def reusedPid : List DeviceStep :=
  [.observed (tableSince "2026-01-01T00:00:00Z") "2026-01-01T00:01:00Z",
    .observed (tableSince "2026-01-01T00:01:30Z") "2026-01-01T00:02:00Z"]

private theorem promised_tableSince {started observedAt : String} (hstarted : started ≠ "")
    (htime : 0 < observedAt.length ∧ observedAt.length ≤ 64) :
    (DeviceStep.observed (tableSince started) observedAt).Promised "GPU-1" := by
  refine ⟨⟨fun process hprocess other hother _ => ?_⟩, rfl, htime, fun process hprocess => ?_⟩
  · rw [List.mem_singleton.mp hprocess, List.mem_singleton.mp hother]
  · rw [List.mem_singleton.mp hprocess]
    exact fun h => hstarted (Option.some.inj h)

private theorem promised_reusedPid : ∀ step ∈ reusedPid, step.Promised "GPU-1" := by
  intro step hstep
  rcases List.mem_pair.mp hstep with rfl | rfl
  · exact promised_tableSince (by decide) (by decide)
  · exact promised_tableSince (by decide) (by decide)

private theorem increasing_reusedPid (more : List DeviceStep)
    (h : more.filterMap DeviceStep.time? = []) :
    ((reusedPid ++ more).filterMap DeviceStep.time?).Pairwise (· < ·) := by
  rw [List.filterMap_append, h, List.append_nil]
  show ["2026-01-01T00:01:00Z", "2026-01-01T00:02:00Z"].Pairwise (· < ·)
  rw [List.pairwise_pair]
  decide +kernel

private theorem storable_gpu : DeviceKey.Storable ("a", "GPU-1") :=
  ⟨by decide, by decide⟩

theorem transitions_survive_iff_reusedPid :
    SurvivesRestart (({} : GpuDevice).run "GPU-1" reusedPid).2
        (restoreProcessEvents ((batches "GPU-1" {} reusedPid).foldl
          (writeProcessEvents (· ++ ·) "a") ∅)
          ((({} : GpuDevice).run "GPU-1" reusedPid).2.length + 1) ("a", "GPU-1"))
      ↔ closesReplaced "GPU-1" {} false reusedPid = false :=
  transitions_survive_iff (· ++ ·) "a" "GPU-1" _ reusedPid storable_gpu promised_reusedPid
    (by
      have h := increasing_reusedPid [] rfl
      rw [List.append_nil] at h
      exact h)
    (Nat.lt_succ_self _)

/-- The device vanishes after the sample that showed the reused PID: the stop of the new process
comes back before its start. -/
theorem reused_pid_is_reordered : ¬ ∀ (internalUsageGpuKey : String → String → String)
    (host gpuId : String) (limit : ℕ) (steps : List DeviceStep),
    DeviceKey.Storable (host, gpuId) → (∀ step ∈ steps, step.Promised gpuId) →
    (steps.filterMap DeviceStep.time?).Pairwise (· < ·) →
    (({} : GpuDevice).run gpuId steps).2.length < limit →
    SurvivesRestart (({} : GpuDevice).run gpuId steps).2
      (restoreProcessEvents ((batches gpuId {} steps).foldl
        (writeProcessEvents internalUsageGpuKey host) ∅) limit (host, gpuId)) := by
  intro h
  have hpromised : ∀ step ∈ reusedPid ++ [.vanished], step.Promised "GPU-1" := by
    intro step hstep
    rcases List.mem_append.mp hstep with hstep | hstep
    · exact promised_reusedPid step hstep
    · rw [List.mem_singleton.mp hstep]
      exact trivial
  refine lost_of_closesReplaced (· ++ ·) "a" "GPU-1" _ (reusedPid ++ [.vanished]) hpromised
    storable_gpu (Nat.lt_succ_self _) ?_
    (h (· ++ ·) "a" "GPU-1" _ (reusedPid ++ [.vanished]) storable_gpu hpromised
      (increasing_reusedPid [.vanished] rfl) (Nat.lt_succ_self _))
  rfl

end Mocop
