import Mocop.Processes.Tracking

/-!
# `Mocop.Processes.LiveTable`: the live table is the open part of the timeline

`GpuDevice.Sound` is the invariant of one device. Its timeline takes turns, and unless the
device waits for its first live process table, the open starts of the timeline are the keys of
the live table, each live process was first observed when its open start was, and a live table
that is not empty belongs to an initialized device with a process sample. `Sound.observeGpu`
and `Sound.vanish` are the step lemmas.

What a step appends is read off key by key: nothing, a start, a stop, or a stop and a start.
`Sound.emit` is the common part of the step lemmas: whatever is appended fits the timeline, and
the new live table agrees with it.
-/

set_option autoImplicit false

namespace Mocop

open Toggles

/-- The transitions of one process of a timeline. -/
abbrev processEdges (events : List GpuProcessTransition) (key : ProcessKey) :
    List GpuProcessTransition :=
  edgesOf GpuProcessTransition.processKey events key

/-- The transitions of every process take turns: started, stopped, started, and so on. -/
def TakesTurns (events : List GpuProcessTransition) : Prop :=
  Alternates GpuProcessTransition.processKey GpuProcessTransition.isStart events

/-- The first transition of a process, if there is one, is a start. -/
def BeginsWithStart (events : List GpuProcessTransition) (key : ProcessKey) : Prop :=
  ∀ event, (processEdges events key).head? = some event → event.isStart = true

/-- What a device sample is promised to be: the processes that it lists under one key belong to one
workload. -/
structure GpuMetrics.Listed (gpu : GpuMetrics) : Prop where
  workload : ∀ process ∈ gpu.processes, ∀ other ∈ gpu.processes, process.key = other.key →
    process.workloadStartedAt = other.workloadStartedAt

namespace GpuDevice

/-- The live table agrees with the timeline. -/
structure Agrees (device : GpuDevice) : Prop where
  open_eq : ∀ key, ((openTransitions device.events).get? key).isSome
    = (device.active.get? key).isSome
  firstSeen : ∀ key process start, device.active.get? key = some process →
    (openTransitions device.events).get? key = some start →
    process.firstSeenAt = some start.observedAt
  live : ∀ key process, device.active.get? key = some process →
    device.initialized = true ∧ device.lastObservedAt.isSome

/-- The invariant of a device, for the processes whose restored timeline began with a start. -/
structure Sound (began : ProcessKey → Prop) (device : GpuDevice) : Prop where
  turns : TakesTurns device.events
  begins : ∀ key, began key → BeginsWithStart device.events key
  times : ∀ event ∈ device.events, event.isStart = true → event.observedAt ≠ ""
  keyed : ∀ key process, device.active.get? key = some process → process.key = key
  waiting : device.pending = true → device.active = ∅ ∧ device.initialized = false
  settled : device.pending = false → device.Agrees

variable {began : ProcessKey → Prop} {device : GpuDevice}

/-- A process transition is about its process. -/
@[simp] theorem processKey_processTransition (observedAt gpuId : String) (gpuIndex : ℕ)
    (event : ProcessEvent) (process : GpuProcess) (visible : Bool) :
    (processTransition observedAt gpuId gpuIndex event process visible).processKey
      = process.key := rfl

@[simp] theorem isStart_started (observedAt gpuId : String) (gpuIndex : ℕ)
    (process : GpuProcess) (visible : Bool) :
    (processTransition observedAt gpuId gpuIndex .started process visible).isStart = true := rfl

@[simp] theorem isStart_stopped (observedAt gpuId : String) (gpuIndex : ℕ)
    (process : GpuProcess) (visible : Bool) :
    (processTransition observedAt gpuId gpuIndex .stopped process visible).isStart = false := rfl

@[simp] theorem isStart_closeRestoredStart (event : GpuProcessTransition) (closeAt : String)
    (visible : Option Bool) : (closeRestoredStart event closeAt visible).isStart = false := rfl

@[simp] theorem processKey_closeRestoredStart (event : GpuProcessTransition) (closeAt : String)
    (visible : Option Bool) :
    (closeRestoredStart event closeAt visible).processKey = event.processKey := rfl

/-- The transitions for some keys of a table, read off for one key. -/
theorem edges_transitionsFor (observedAt gpuId : String) (gpuIndex : ℕ) (event : ProcessEvent)
    (visible : Bool) {table : Dict ProcessKey GpuProcess}
    (hkeyed : ∀ key process, table.get? key = some process → process.key = key)
    {keys : List ProcessKey} (hnodup : keys.Nodup) (key : ProcessKey) :
    processEdges (transitionsFor observedAt gpuId gpuIndex event visible table keys) key
      = if key ∈ keys then ((table.get? key).map
          (processTransition observedAt gpuId gpuIndex event · visible)).toList else [] := by
  rw [transitionsFor, processEdges, edgesOf_filterMap (nodup_sortedKeys hnodup)]
  · simp only [mem_sortedKeys]
  · intro k _ transition htransition
    obtain ⟨process, hprocess, rfl⟩ := Option.map_eq_some_iff.mp htransition
    exact hkeyed k process hprocess

/-- What is open after transitions were appended. -/
theorem open_append (events more : List GpuProcessTransition) (key : ProcessKey) :
    (openTransitions (events ++ more)).get? key
      = if processEdges more key = [] then (openTransitions events).get? key
        else lastOpen GpuProcessTransition.isStart (processEdges more key) :=
  get?_openStarts_append events more key

/-- What one step makes of one process: the edges it appends, and the live process after it.
The edges fit, and the live process agrees with what is open after them. -/
structure StepFits (openBefore : Option GpuProcessTransition)
    (edges : List GpuProcessTransition) (liveAfter : Option GpuProcess) : Prop where
  fits : Fits GpuProcessTransition.isStart openBefore.isSome edges
  isSome_eq : (if edges = [] then openBefore
    else lastOpen GpuProcessTransition.isStart edges).isSome = liveAfter.isSome
  firstSeen : ∀ process start, liveAfter = some process →
    (if edges = [] then openBefore else lastOpen GpuProcessTransition.isStart edges)
      = some start →
    process.firstSeenAt = some start.observedAt

/-- A step that appends transitions and installs a live table keeps the device sound. -/
theorem Sound.emit (h : device.Sound began) (transitions : List GpuProcessTransition)
    (active : Dict ProcessKey GpuProcess) (initialized : Bool) (lastObservedAt : Option String)
    (hkeyed : ∀ key process, active.get? key = some process → process.key = key)
    (htimes : ∀ event ∈ transitions, event.isStart = true → event.observedAt ≠ "")
    (hlive : ∀ key process, active.get? key = some process →
      initialized = true ∧ lastObservedAt.isSome)
    (hsteps : ∀ key, StepFits ((openTransitions device.events).get? key)
      (processEdges transitions key) (active.get? key)) :
    Sound began { device with
      events := device.events ++ transitions
      active := active
      initialized := initialized
      lastObservedAt := lastObservedAt
      pending := false } where
  turns := h.turns.append_fits (fun key => (hsteps key).fits)
  begins := fun key hbegan => begins_append (h.begins key hbegan) (hsteps key).fits
  times := fun event hmem hstart => by
    rcases List.mem_append.mp hmem with hmem | hmem
    · exact h.times event hmem hstart
    · exact htimes event hmem hstart
  keyed := hkeyed
  waiting := fun hpending => by simp at hpending
  settled := fun _ =>
    { open_eq := fun key => by
        dsimp only
        rw [open_append]
        exact (hsteps key).isSome_eq
      firstSeen := fun key process start hprocess hstart => by
        dsimp only at hprocess hstart
        rw [open_append] at hstart
        exact (hsteps key).firstSeen process start hprocess hstart
      live := hlive }

/-- A step of a device that is not waiting. -/
theorem Sound.emit_settled (h : device.Sound began) (hpending : device.pending = false)
    (transitions : List GpuProcessTransition) (active : Dict ProcessKey GpuProcess)
    (initialized : Bool) (lastObservedAt : Option String)
    (hkeyed : ∀ key process, active.get? key = some process → process.key = key)
    (htimes : ∀ event ∈ transitions, event.isStart = true → event.observedAt ≠ "")
    (hlive : ∀ key process, active.get? key = some process →
      initialized = true ∧ lastObservedAt.isSome)
    (hsteps : ∀ key, StepFits ((openTransitions device.events).get? key)
      (processEdges transitions key) (active.get? key)) :
    Sound began { device with
      events := device.events ++ transitions
      active := active
      initialized := initialized
      lastObservedAt := lastObservedAt } := by
  have hemit := h.emit transitions active initialized lastObservedAt hkeyed htimes hlive hsteps
  rw [← hpending] at hemit
  exact hemit

/-- Nothing happens to a process that is neither open nor live. -/
theorem stepFits_absent : StepFits none [] none :=
  ⟨fits_nil _, rfl, fun _ _ h => by simp at h⟩

/-- A process stops. -/
theorem stepFits_stop {start stop : GpuProcessTransition} (h : stop.isStart = false) :
    StepFits (some start) [stop] none :=
  ⟨fits_stop h, by simp [lastOpen, h], fun _ _ h => by simp at h⟩

variable {process : GpuProcess} {current : Dict ProcessKey GpuProcess}
  {events : List GpuProcessTransition} {observedAt : String}

/-- A process starts. -/
theorem stepFits_start {start : GpuProcessTransition} (h : start.isStart = true)
    (hseen : process.firstSeenAt = some start.observedAt) :
    StepFits none [start] (some process) :=
  ⟨fits_start h, by simp [lastOpen, h], fun process' start' hprocess hstart => by
    simp only [lastOpen, List.getLast?_singleton, h, if_true] at hstart
    rw [if_neg (by simp)] at hstart
    rw [← Option.some.inj hprocess, ← Option.some.inj hstart, hseen]⟩

/-- A process stops, and another one starts under its key. -/
theorem stepFits_restart {old start stop : GpuProcessTransition} (hstop : stop.isStart = false)
    (hstart : start.isStart = true) (hseen : process.firstSeenAt = some start.observedAt) :
    StepFits (some old) [stop, start] (some process) :=
  ⟨fits_restart hstop hstart, by simp [lastOpen, hstart], fun process' start' hprocess hopen => by
    rw [if_neg (by simp)] at hopen
    simp only [lastOpen, List.getLast?_cons_cons, List.getLast?_singleton, hstart, if_true]
      at hopen
    rw [← Option.some.inj hprocess, ← Option.some.inj hopen, hseen]⟩

/-- A process goes on. -/
theorem stepFits_continue {start : GpuProcessTransition}
    (hseen : process.firstSeenAt = some start.observedAt) :
    StepFits (some start) [] (some process) :=
  ⟨fits_nil _, rfl, fun process' start' hprocess hopen => by
    rw [if_pos rfl] at hopen
    rw [← Option.some.inj hprocess, ← Option.some.inj hopen, hseen]⟩

/-! ### Closing -/

/-- A process is either open and live, first observed when it started, or neither. -/
theorem Agrees.cases (h : device.Agrees) (key : ProcessKey) :
    ((openTransitions device.events).get? key = none ∧ device.active.get? key = none)
      ∨ ∃ start process, (openTransitions device.events).get? key = some start
        ∧ device.active.get? key = some process
        ∧ process.firstSeenAt = some start.observedAt := by
  have hsame := h.open_eq key
  cases hopen : (openTransitions device.events).get? key with
  | none =>
    rw [hopen] at hsame
    exact Or.inl ⟨rfl, by simpa using hsame.symm⟩
  | some start =>
    rw [hopen] at hsame
    obtain ⟨process, hprocess⟩ := Option.isSome_iff_exists.mp hsame.symm
    exact Or.inr ⟨start, process, rfl, hprocess, h.firstSeen key process start hprocess hopen⟩

/-- The history does not matter. -/
theorem Sound.withHistory (h : device.Sound began) (history : List GpuHistoryPoint) :
    Sound began { device with history := history } :=
  ⟨h.turns, h.begins, h.times, h.keyed, h.waiting, fun hpending =>
    ⟨(h.settled hpending).open_eq, (h.settled hpending).firstSeen, (h.settled hpending).live⟩⟩

/-- A process sample was taken. -/
theorem Sound.sampled (h : device.Sound began) (observedAt : String) :
    Sound began { device with lastObservedAt := some observedAt } :=
  ⟨h.turns, h.begins, h.times, h.keyed, h.waiting, fun hpending =>
    ⟨(h.settled hpending).open_eq, (h.settled hpending).firstSeen, fun key process hprocess =>
      ⟨((h.settled hpending).live key process hprocess).1, rfl⟩⟩⟩

/-- A device without live processes may lose its initialization. -/
theorem Sound.uninitialize (h : device.Sound began) (hempty : device.active = ∅) :
    Sound began { device with initialized := false } :=
  ⟨h.turns, h.begins, h.times, h.keyed, fun _ => ⟨hempty, rfl⟩, fun hpending =>
    ⟨(h.settled hpending).open_eq, (h.settled hpending).firstSeen, fun key process hprocess => by
      dsimp only at hprocess
      rw [hempty] at hprocess
      simp at hprocess⟩⟩

/-- An uninitialized device has no live process. -/
theorem Sound.active_eq_empty (h : device.Sound began) (hinitialized : device.initialized = false)
    (key : ProcessKey) : device.active.get? key = none := by
  cases hpending : device.pending with
  | true =>
    rw [(h.waiting hpending).1]
    rfl
  | false =>
    refine Option.eq_none_iff_forall_ne_some.mpr fun process hprocess => ?_
    have hlive := ((h.settled hpending).live key process hprocess).1
    rw [hinitialized] at hlive
    simp at hlive

/-- A table whose keys read nothing is empty. -/
theorem eq_empty_of_get? {table : Dict ProcessKey GpuProcess}
    (h : ∀ key, table.get? key = none) : table = ∅ := by
  obtain ⟨entries, hnodup⟩ := table
  cases entries with
  | nil => rfl
  | cons entry rest =>
    have hfirst := h entry.1
    simp [Dict.get?, Dict.lookup] at hfirst

/-- The stops of the live processes, read off for one key. -/
theorem Sound.edges_closeProcessInventory (h : device.Sound began)
    (hpending : device.pending = false) (gpuId : String) (gpuIndex : ℕ) (key : ProcessKey) :
    ∃ observedAt, processEdges (device.closeProcessInventory gpuId gpuIndex) key
      = ((device.active.get? key).map
          (processTransition observedAt gpuId gpuIndex .stopped · false)).toList := by
  unfold closeProcessInventory
  cases hlast : device.lastObservedAt with
  | some observedAt =>
    refine ⟨observedAt, ?_⟩
    dsimp only
    rw [edges_transitionsFor _ _ _ _ _ h.keyed device.active.nodup_keys]
    by_cases hmem : key ∈ device.active.keys
    · rw [if_pos hmem]
    · rw [if_neg hmem, (Dict.get?_eq_none_iff _ _).mpr hmem]
      rfl
  | none =>
    have hnone : device.active.get? key = none :=
      Option.eq_none_iff_forall_ne_some.mpr fun process hprocess => by
        have hlive := ((h.settled hpending).live key process hprocess).2
        rw [hlast] at hlive
        simp at hlive
    exact ⟨"", by rw [hnone]; rfl⟩

/-- Closing what cannot be observed keeps the device sound and leaves no live process. -/
theorem Sound.closeUnobservable (h : device.Sound began) (gpuId : String)
    (gpuIndex : Option ℕ) :
    (device.closeUnobservable gpuId gpuIndex).1.Sound began
      ∧ (device.closeUnobservable gpuId gpuIndex).1.active = ∅
      ∧ (device.closeUnobservable gpuId gpuIndex).1.initialized = device.initialized
      ∧ (device.closeUnobservable gpuId gpuIndex).1.pending = device.pending := by
  refine ⟨?_, rfl, rfl, rfl⟩
  unfold GpuDevice.closeUnobservable GpuDevice.emit
  dsimp only
  generalize gpuIndex.getD device.lastIndex = index
  cases hpending : device.pending with
  | true =>
    -- A waiting device has no live process, so nothing is closed.
    obtain ⟨hactive, hinitialized⟩ := h.waiting hpending
    have hnone : device.closeProcessInventory gpuId index = [] := by
      unfold closeProcessInventory
      cases device.lastObservedAt with
      | none => rfl
      | some observedAt =>
        dsimp only
        rw [hactive, transitionsFor, sortedKeys, show (∅ : Dict ProcessKey GpuProcess).keys
          = [] from rfl, List.mergeSort_nil, List.filterMap_nil]
    rw [hnone, List.append_nil]
    exact ⟨h.turns, h.begins, h.times, fun key process hprocess => by simp at hprocess,
      fun _ => ⟨rfl, hinitialized⟩, fun hnot => by simp at hnot⟩
  | false =>
    refine h.emit _ ∅ device.initialized none (fun key process hprocess => by simp at hprocess)
      (fun event hevent hstart => ?_) (fun key process hprocess => by simp at hprocess)
      (fun key => ?_)
    · unfold closeProcessInventory at hevent
      split at hevent
      · obtain ⟨k, -, hk⟩ := List.mem_filterMap.mp hevent
        obtain ⟨process, -, rfl⟩ := Option.map_eq_some_iff.mp hk
        simp at hstart
      · simp at hevent
    · obtain ⟨observedAt, hedges⟩ := h.edges_closeProcessInventory hpending gpuId index key
      rw [Dict.get?_emptyc, hedges]
      rcases (h.settled hpending).cases key with ⟨hopen, hactive⟩ | ⟨start, process, hopen,
        hactive, -⟩
      · rw [hopen, hactive]
        exact stepFits_absent
      · rw [hopen, hactive]
        exact stepFits_stop rfl

/-- Closing the restored starts settles a waiting device. -/
theorem Sound.closeRestored (h : device.Sound began) :
    device.closeRestored.1.Sound began ∧ device.closeRestored.1.pending = false
      ∧ device.closeRestored.1.active = device.active
      ∧ device.closeRestored.1.initialized = device.initialized := by
  unfold GpuDevice.closeRestored
  cases hpending : device.pending with
  | false => exact ⟨by simpa using h, by simpa using hpending, by simp, by simp⟩
  | true =>
    rw [if_pos rfl]
    obtain ⟨hactive, hinitialized⟩ := h.waiting hpending
    cases hlast : device.events.getLast? with
    | none =>
      have hevents : device.events = [] := List.getLast?_eq_none_iff.mp hlast
      refine ⟨⟨h.turns, h.begins, h.times, h.keyed, fun hnot => by simp at hnot, fun _ =>
        ⟨fun key => ?_, fun key process start hprocess => ?_, fun key process hprocess => ?_⟩⟩,
        rfl, rfl, rfl⟩
      · dsimp only
        rw [hevents, hactive]
        rfl
      · dsimp only at hprocess
        rw [hactive] at hprocess
        simp at hprocess
      · dsimp only at hprocess
        rw [hactive] at hprocess
        simp at hprocess
    | some last =>
      refine ⟨?_, rfl, rfl, rfl⟩
      refine h.emit _ device.active device.initialized device.lastObservedAt h.keyed
        (fun event hevent hstart => ?_)
        (fun key process hprocess => by rw [hactive] at hprocess; simp at hprocess)
        (fun key => ?_)
      · obtain ⟨k, -, hk⟩ := List.mem_filterMap.mp hevent
        obtain ⟨start, -, rfl⟩ := Option.map_eq_some_iff.mp hk
        simp at hstart
      · rw [processEdges, edgesOf_filterMap (nodup_sortedKeys (Dict.nodup_keys _)), hactive,
          Dict.get?_emptyc]
        · simp only [mem_sortedKeys, Dict.mem_keys]
          cases hopen : (openTransitions device.events).get? key with
          | none => exact stepFits_absent
          | some start => exact stepFits_stop rfl
        · intro k _ transition htransition
          obtain ⟨start, hstart, rfl⟩ := Option.map_eq_some_iff.mp htransition
          exact (mem_of_openStarts hstart).2.1

/-- A device that vanishes stays sound, and is settled. -/
theorem Sound.vanish (h : device.Sound began) (gpuId : String) :
    (device.vanish gpuId).1.Sound began ∧ (device.vanish gpuId).1.pending = false := by
  unfold GpuDevice.vanish
  cases hinitialized : device.initialized with
  | true =>
    obtain ⟨hclosed, hactive, -, -⟩ := h.closeUnobservable gpuId none
    obtain ⟨hrestored, hpending, hsame, -⟩ := hclosed.closeRestored
    simp only [if_true]
    exact ⟨hrestored.uninitialize (hsame.trans hactive), hpending⟩
  | false =>
    obtain ⟨hrestored, hpending, hsame, -⟩ := h.closeRestored
    have hactive := eq_empty_of_get? (h.active_eq_empty hinitialized)
    simp only [Bool.false_eq_true, if_false]
    exact ⟨hrestored.uninitialize (hsame.trans hactive), hpending⟩

/-! ### The live table of a sample -/

/-- The live table holds the listed processes, each with its first observation, and the replaced
keys are those of the listed processes that are another instance. -/
theorem scanProcesses_spec (previous : Dict ProcessKey GpuProcess) (observedAt : String)
    (processes : List GpuProcess) :
    (∀ key process, (scanProcesses previous observedAt processes).current.get? key = some process →
      ∃ listed ∈ processes, listed.key = key
        ∧ process = listed.seenSince (firstObservation previous observedAt listed))
    ∧ (∀ listed ∈ processes,
      ((scanProcesses previous observedAt processes).current.get? listed.key).isSome)
    ∧ (∀ key, key ∈ (scanProcesses previous observedAt processes).replaced ↔
      ∃ listed ∈ processes, listed.key = key ∧ isReplaced previous listed = true)
    ∧ (scanProcesses previous observedAt processes).replaced.Nodup := by
  induction processes using List.reverseRecOn with
  | nil => exact ⟨fun key process h => by simp [scanProcesses] at h, fun _ h => by simp at h,
      fun key => by simp [scanProcesses], List.nodup_nil⟩
  | append_singleton processes last ih =>
    obtain ⟨hcurrent, hlisted, hreplaced, hnodup⟩ := ih
    have hscan : scanProcesses previous observedAt (processes ++ [last])
        = (scanProcesses previous observedAt processes).addProcess previous observedAt last := by
      simp [scanProcesses, List.foldl_append]
    rw [hscan, LiveScan.addProcess]
    refine ⟨fun key process hget => ?_, fun listed hmem => ?_, fun key => ?_, ?_⟩
    · dsimp only at hget
      rw [Dict.get?_set] at hget
      split at hget
      · next hkey =>
        exact ⟨last, by simp, hkey.symm, (Option.some.inj hget).symm⟩
      · obtain ⟨listed, hmem, hkey, hsame⟩ := hcurrent key process hget
        exact ⟨listed, List.mem_append_left _ hmem, hkey, hsame⟩
    · dsimp only
      rw [Dict.get?_set]
      split
      · rfl
      · next hkey =>
        rcases List.mem_append.mp hmem with hmem | hmem
        · exact hlisted listed hmem
        · rw [List.mem_singleton.mp hmem] at hkey
          exact absurd rfl hkey
    · dsimp only
      have hold := hreplaced key
      simp only [List.mem_append, List.mem_singleton, or_and_right, exists_or,
        exists_eq_left]
      split
      · next hnew =>
        rw [Bool.and_eq_true] at hnew
        rw [List.mem_append, List.mem_singleton, hold]
        constructor
        · rintro (hmem | rfl)
          · exact Or.inl hmem
          · exact Or.inr ⟨rfl, hnew.1⟩
        · rintro (hmem | ⟨hkey, -⟩)
          · exact Or.inl hmem
          · exact Or.inr hkey.symm
      · next hknown =>
        rw [hold]
        constructor
        · exact Or.inl
        · rintro (hmem | ⟨rfl, hlast⟩)
          · exact hmem
          · rw [hlast, Bool.true_and, Bool.not_eq_true, Bool.not_eq_false',
              List.contains_iff_mem] at hknown
            exact hold.mp hknown
    · dsimp only
      split
      · next hnew =>
        rw [Bool.and_eq_true, Bool.not_eq_true', ← Bool.not_eq_true,
          List.contains_iff_mem] at hnew
        rw [List.nodup_append]
        refine ⟨hnodup, List.nodup_singleton _, fun a ha b hb => ?_⟩
        rw [List.mem_singleton.mp hb]
        exact fun hab => hnew.2 (hab ▸ ha)
      · exact hnodup

/-- A process of a live table is stored under its own key. -/
theorem keyed_scanProcesses (previous : Dict ProcessKey GpuProcess) (observedAt : String)
    (processes : List GpuProcess) (key : ProcessKey) (process : GpuProcess)
    (h : (scanProcesses previous observedAt processes).current.get? key = some process) :
    process.key = key := by
  obtain ⟨listed, -, hkey, rfl⟩ := (scanProcesses_spec previous observedAt processes).1 key process h
  exact hkey

/-! ### Reconciliation -/

/-- The live table after the runs were continued. -/
theorem get?_inheritRuns (openEvents : Dict ProcessKey GpuProcessTransition)
    (current : Dict ProcessKey GpuProcess) (key : ProcessKey) :
    (inheritRuns openEvents current).get? key = (current.get? key).map (fun process =>
      match openEvents.get? key with
      | some event =>
        if transitionMatchesProcess event process then process.seenSince event.observedAt
        else process
      | none => process) := by
  rw [inheritRuns, Dict.get?_mapValues]
  rfl

/-- A process that inherits a run still continues it. -/
theorem continuesRun_inheritRuns (openEvents : Dict ProcessKey GpuProcessTransition)
    (current : Dict ProcessKey GpuProcess) (key : ProcessKey) :
    continuesRun openEvents (inheritRuns openEvents current) key
      = continuesRun openEvents current key := by
  rw [continuesRun, continuesRun, get?_inheritRuns]
  cases openEvents.get? key with
  | none => rfl
  | some event =>
    cases current.get? key with
    | none => rfl
    | some process =>
      dsimp only [Option.map_some]
      split
      · rfl
      · rfl

/-- What the reconciliation appends for one key: nothing for a run that continues, otherwise a
stop for an open start and a start for a live process. -/
theorem edges_reconcile
    (hkeyed : ∀ key process, current.get? key = some process → process.key = key) (gpuId : String)
    (gpuIndex : ℕ) (observedAt : String) (previousGpuObservedAt : Option String)
    (key : ProcessKey) :
    processEdges (reconcileRestoredProcesses events gpuId gpuIndex current observedAt
        previousGpuObservedAt).2 key
      = if continuesRun (openTransitions events) current key then []
        else (((openTransitions events).get? key).map
            (closeRestoredStart · (timeOr previousGpuObservedAt observedAt) none)).toList
          ++ (((inheritRuns (openTransitions events) current).get? key).map
            (processTransition observedAt gpuId gpuIndex .started · true)).toList := by
  have hinherit : ∀ key process, (inheritRuns (openTransitions events) current).get? key
      = some process → process.key = key := by
    intro key process hprocess
    rw [get?_inheritRuns] at hprocess
    obtain ⟨live, hlive, rfl⟩ := Option.map_eq_some_iff.mp hprocess
    have hkey := hkeyed key live hlive
    split
    · split
      · exact hkey
      · exact hkey
    · exact hkey
  rw [reconcileRestoredProcesses]
  dsimp only
  rw [processEdges, edgesOf_append, edgesOf_filterMap (nodup_sortedKeys (Dict.nodup_keys _)),
    edgesOf_filterMap (nodup_sortedKeys (Dict.nodup_keys _))]
  · simp only [mem_sortedKeys, Dict.mem_keys, continuesRun_inheritRuns]
    cases continuesRun (openTransitions events) current key with
    | true => simp
    | false =>
      cases (openTransitions events).get? key <;>
        cases (inheritRuns (openTransitions events) current).get? key <;> simp
  · intro k _ transition htransition
    split at htransition
    · simp at htransition
    · obtain ⟨process, hprocess, rfl⟩ := Option.map_eq_some_iff.mp htransition
      exact hinherit k process hprocess
  · intro k _ transition htransition
    split at htransition
    · simp at htransition
    · obtain ⟨start, hstart, rfl⟩ := Option.map_eq_some_iff.mp htransition
      exact (mem_of_openStarts hstart).2.1

/-- The reconciliation fits, provided that every live process was first observed now. -/
theorem stepFits_reconcile
    (hkeyed : ∀ key process, current.get? key = some process → process.key = key)
    (hnew : ∀ key process, current.get? key = some process →
      process.firstSeenAt = some observedAt) (gpuId : String) (gpuIndex : ℕ)
    (previousGpuObservedAt : Option String) (key : ProcessKey) :
    StepFits ((openTransitions events).get? key)
      (processEdges (reconcileRestoredProcesses events gpuId gpuIndex current observedAt
        previousGpuObservedAt).2 key)
      ((inheritRuns (openTransitions events) current).get? key) := by
  rw [edges_reconcile hkeyed, get?_inheritRuns, continuesRun]
  cases hopen : (openTransitions events).get? key with
  | none =>
    cases hcurrent : current.get? key with
    | none => exact stepFits_absent
    | some process => exact stepFits_start rfl (hnew key process hcurrent)
  | some start =>
    cases hcurrent : current.get? key with
    | none => exact stepFits_stop rfl
    | some process =>
      dsimp only
      by_cases hmatch : transitionMatchesProcess start process = true
      · simp only [hmatch, if_true, Option.map_some]
        exact stepFits_continue rfl
      · simp only [hmatch, if_false, Option.map_some, Bool.false_eq_true]
        exact stepFits_restart rfl rfl (hnew key process hcurrent)

/-- The starts that a reconciliation appends carry the time of the sample. -/
theorem time_of_reconcile {gpuId observedAt : String} {gpuIndex : ℕ}
    {previousGpuObservedAt : Option String} {event : GpuProcessTransition}
    (h : event ∈ (reconcileRestoredProcesses events gpuId gpuIndex current observedAt
      previousGpuObservedAt).2) (hstart : event.isStart = true) :
    event.observedAt = observedAt := by
  rw [reconcileRestoredProcesses] at h
  rcases List.mem_append.mp h with h | h
  · obtain ⟨k, -, hk⟩ := List.mem_filterMap.mp h
    split at hk
    · simp at hk
    · obtain ⟨start, -, rfl⟩ := Option.map_eq_some_iff.mp hk
      simp at hstart
  · obtain ⟨k, -, hk⟩ := List.mem_filterMap.mp h
    split at hk
    · simp at hk
    · obtain ⟨process, -, rfl⟩ := Option.map_eq_some_iff.mp hk
      rfl

/-! ### Samples -/

/-- The first table of a device, when nothing is restored: its processes are seeded. -/
theorem Sound.seed (h : device.Sound began) (hpending : device.pending = false)
    (hinitialized : device.initialized = false) (htime : observedAt ≠ "")
    (hlast : device.lastObservedAt.isSome)
    (hkeyed : ∀ key process, current.get? key = some process → process.key = key)
    (hnew : ∀ key process, current.get? key = some process →
      process.firstSeenAt = some observedAt) (gpuId : String) (gpuIndex : ℕ) :
    Sound began { device with
      events := device.events
        ++ transitionsFor observedAt gpuId gpuIndex .started false current current.keys
      active := current, initialized := true } := by
  refine h.emit_settled hpending _ current true device.lastObservedAt hkeyed
    (fun event hevent _ => ?_)
    (fun _ _ _ => ⟨rfl, hlast⟩) (fun key => ?_)
  · obtain ⟨k, -, hk⟩ := List.mem_filterMap.mp hevent
    obtain ⟨process, -, rfl⟩ := Option.map_eq_some_iff.mp hk
    exact htime
  · have hopen : (openTransitions device.events).get? key = none := by
      have hsame := (h.settled hpending).open_eq key
      rw [h.active_eq_empty hinitialized] at hsame
      simpa using hsame
    rw [hopen, edges_transitionsFor _ _ _ _ _ hkeyed current.nodup_keys]
    cases hcurrent : current.get? key with
    | none => simpa using stepFits_absent
    | some process =>
      rw [if_pos ((Dict.mem_keys _ _).mpr (by rw [hcurrent]; rfl))]
      exact stepFits_start rfl (hnew key process hcurrent)

/-- The first table of a waiting device. -/
theorem Sound.reconcile (h : device.Sound began) {current : Dict ProcessKey GpuProcess}
    {observedAt : String} (htime : observedAt ≠ "") (hlast : device.lastObservedAt.isSome)
    (hkeyed : ∀ key process, current.get? key = some process → process.key = key)
    (hnew : ∀ key process, current.get? key = some process →
      process.firstSeenAt = some observedAt) (gpuId : String) (gpuIndex : ℕ)
    (previousGpuObservedAt : Option String) :
    Sound began { device with
      events := device.events ++ (reconcileRestoredProcesses device.events gpuId gpuIndex current
        observedAt previousGpuObservedAt).2
      active := inheritRuns (openTransitions device.events) current
      initialized := true, pending := false } := by
  refine h.emit _ _ true device.lastObservedAt (fun key process hprocess => ?_)
    (fun event hevent hstart => ?_) (fun _ _ _ => ⟨rfl, hlast⟩)
    (fun key => stepFits_reconcile hkeyed hnew gpuId gpuIndex previousGpuObservedAt key)
  · rw [get?_inheritRuns] at hprocess
    obtain ⟨live, hlive, rfl⟩ := Option.map_eq_some_iff.mp hprocess
    have hkey := hkeyed key live hlive
    split
    · split
      · exact hkey
      · exact hkey
    · exact hkey
  · rw [time_of_reconcile hevent hstart]
    exact htime

/-- A table that follows another one, read off for one key. -/
theorem edges_compare {current previous : Dict ProcessKey GpuProcess}
    (hcurrent : ∀ key process, current.get? key = some process → process.key = key)
    (hprevious : ∀ key process, previous.get? key = some process → process.key = key)
    {replaced : List ProcessKey} (hnodup : replaced.Nodup) (observedAt gpuId : String)
    (gpuIndex : ℕ) (key : ProcessKey) :
    processEdges (transitionsFor observedAt gpuId gpuIndex .started true current
          (current.keys.filter (fun key => !previous.contains key))
        ++ transitionsFor observedAt gpuId gpuIndex .stopped true previous
          (previous.keys.filter (fun key => !current.contains key))
        ++ (sortedKeys replaced).flatMap (fun key =>
          ((previous.get? key).map
            (processTransition observedAt gpuId gpuIndex .stopped · true)).toList
          ++ ((current.get? key).map
            (processTransition observedAt gpuId gpuIndex .started · true)).toList)) key
      = (if (current.get? key).isSome ∧ previous.get? key = none then
          ((current.get? key).map
            (processTransition observedAt gpuId gpuIndex .started · true)).toList else [])
        ++ (if (previous.get? key).isSome ∧ current.get? key = none then
          ((previous.get? key).map
            (processTransition observedAt gpuId gpuIndex .stopped · true)).toList else [])
        ++ (if key ∈ replaced then
          ((previous.get? key).map
            (processTransition observedAt gpuId gpuIndex .stopped · true)).toList
          ++ ((current.get? key).map
            (processTransition observedAt gpuId gpuIndex .started · true)).toList else []) := by
  rw [processEdges, edgesOf_append, edgesOf_append]
  refine congrArg₂ (· ++ ·) (congrArg₂ (· ++ ·) ?_ ?_) ?_
  · refine (edges_transitionsFor _ _ _ _ _ hcurrent
      (current.nodup_keys.filter _) key).trans ?_
    simp [List.mem_filter, Dict.mem_keys]
  · refine (edges_transitionsFor _ _ _ _ _ hprevious
      (previous.nodup_keys.filter _) key).trans ?_
    simp [List.mem_filter, Dict.mem_keys]
  · refine (edgesOf_flatMap (nodup_sortedKeys hnodup) _ ?_ key).trans ?_
    · intro k _ event hevent
      rcases List.mem_append.mp hevent with hevent | hevent
      · obtain ⟨process, hprocess, rfl⟩ := Option.map_eq_some_iff.mp (Option.mem_toList.mp hevent)
        exact hprevious k process hprocess
      · obtain ⟨process, hprocess, rfl⟩ := Option.map_eq_some_iff.mp (Option.mem_toList.mp hevent)
        exact hcurrent k process hprocess
    · simp only [mem_sortedKeys]

/-- A table that follows another one keeps the device sound. -/
theorem Sound.compare (h : device.Sound began) (hpending : device.pending = false)
    (hinitialized : device.initialized = true) {gpu : GpuMetrics} (hlisted : gpu.Listed)
    (htime : observedAt ≠ "") (hlast : device.lastObservedAt.isSome) (gpuId : String)
    (gpuIndex : ℕ) :
    (device.compare gpuId gpuIndex
      (scanProcesses device.active observedAt gpu.processes) observedAt).1.Sound began := by
  obtain ⟨hcurrent, hpresent, hreplaced, hnodup⟩ :=
    scanProcesses_spec device.active observedAt gpu.processes
  have hkeyed := keyed_scanProcesses device.active observedAt gpu.processes
  unfold GpuDevice.compare GpuDevice.emit
  generalize hscan : scanProcesses device.active observedAt gpu.processes = scan at *
  dsimp only
  refine h.emit_settled hpending _ scan.current device.initialized device.lastObservedAt hkeyed
    (fun event hevent _ => ?_) (fun _ _ _ => ⟨hinitialized, hlast⟩) (fun key => ?_)
  · -- Every transition carries the time of the sample.
    have hat : event.observedAt = observedAt := by
      rcases List.mem_append.mp hevent with hevent | hevent
      · rcases List.mem_append.mp hevent with hevent | hevent
        all_goals
          obtain ⟨k, -, hk⟩ := List.mem_filterMap.mp hevent
          obtain ⟨process, -, rfl⟩ := Option.map_eq_some_iff.mp hk
          rfl
      · obtain ⟨k, -, hk⟩ := List.mem_flatMap.mp hevent
        rcases List.mem_append.mp hk with hk | hk
        all_goals
          obtain ⟨process, -, rfl⟩ := Option.map_eq_some_iff.mp (Option.mem_toList.mp hk)
          rfl
    rw [hat]
    exact htime
  · rw [edges_compare hkeyed h.keyed hnodup]
    rcases (h.settled hpending).cases key with ⟨hopen, hprevious⟩ | ⟨start, prior, hopen, hprevious,
      hseen⟩
    · -- The process was not live: it may start.
      have hnot : key ∉ scan.replaced := fun hmem => by
        obtain ⟨listed, -, hkey, hother⟩ := (hreplaced key).mp hmem
        rw [isReplaced, hkey, hprevious] at hother
        simp at hother
      cases hlive : scan.current.get? key with
      | none => simpa [hopen, hprevious, hnot] using stepFits_absent
      | some process =>
        obtain ⟨listed, -, hkey, rfl⟩ := hcurrent key process hlive
        have hfirst : firstObservation device.active observedAt listed = observedAt := by
          rw [firstObservation, hkey, hprevious]
        rw [hopen, hprevious, hfirst]
        simpa [hnot] using stepFits_start rfl rfl
    · cases hlive : scan.current.get? key with
      | none =>
        -- The process is gone.
        have hnot : key ∉ scan.replaced := fun hmem => by
          obtain ⟨listed, hlisted, hkey, -⟩ := (hreplaced key).mp hmem
          have hsome := hpresent listed hlisted
          rw [hkey, hlive] at hsome
          simp at hsome
        rw [hopen, hprevious]
        simpa [hnot] using stepFits_stop rfl
      | some process =>
        obtain ⟨listed, hmem, hkey, rfl⟩ := hcurrent key process hlive
        rw [hopen, hprevious]
        by_cases hother : key ∈ scan.replaced
        · -- Another instance runs behind the PID.
          obtain ⟨other, hothermem, hotherkey, hdiffers⟩ := (hreplaced key).mp hother
          have hsame := hlisted.workload listed hmem other hothermem (hkey.trans hotherkey.symm)
          rw [isReplaced, hotherkey, hprevious] at hdiffers
          have hfirst : firstObservation device.active observedAt listed = observedAt := by
            rw [firstObservation, hkey, hprevious]
            dsimp only
            rw [if_neg]
            rw [sameProcessInstance, hsame]
            simpa [sameProcessInstance] using hdiffers
          rw [hfirst]
          simpa [hother] using stepFits_restart rfl rfl rfl
        · -- The process goes on.
          have hinstance : sameProcessInstance prior listed = true := by
            by_contra hdiffers
            refine hother ((hreplaced key).mpr ⟨listed, hmem, hkey, ?_⟩)
            rw [isReplaced, hkey, hprevious]
            simpa using hdiffers
          have hfirst : firstObservation device.active observedAt listed = start.observedAt := by
            have hstarttime : start.observedAt ≠ "" := by
              obtain ⟨hin, -, hstart⟩ := mem_of_openStarts hopen
              exact h.times start hin hstart
            rw [firstObservation, hkey, hprevious]
            dsimp only
            rw [if_pos hinstance, hseen]
            exact if_neg hstarttime
          rw [hfirst]
          simpa [hother] using stepFits_continue rfl

/-- A process table keeps the device sound. -/
theorem Sound.observeTable (h : device.Sound began) {gpu : GpuMetrics} (hlisted : gpu.Listed)
    (htime : observedAt ≠ "") (hlast : device.lastObservedAt = some observedAt)
    (previousGpuObservedAt : Option String) :
    (device.observeTable gpu observedAt previousGpuObservedAt).1.Sound began := by
  have hsome : device.lastObservedAt.isSome := by rw [hlast]; rfl
  unfold GpuDevice.observeTable
  dsimp only
  by_cases hinitialized : device.initialized = true
  · have hpending : device.pending = false := by
      by_contra hwait
      rw [Bool.not_eq_false] at hwait
      rw [(h.waiting hwait).2] at hinitialized
      simp at hinitialized
    have hnot : ¬ (!device.initialized) = true := by simp [hinitialized]
    by_cases hnone : gpu.processes = []
    · -- Every live process stops.
      rw [if_pos hnone, if_neg hnot]
      refine h.emit_settled hpending _ ∅ device.initialized device.lastObservedAt
        (fun key process hprocess => by simp at hprocess) (fun event hevent hstart => ?_)
        (fun key process hprocess => by simp at hprocess) (fun key => ?_)
      · obtain ⟨k, -, hk⟩ := List.mem_filterMap.mp hevent
        obtain ⟨process, -, rfl⟩ := Option.map_eq_some_iff.mp hk
        simp at hstart
      · rw [Dict.get?_emptyc, edges_transitionsFor _ _ _ _ _ h.keyed device.active.nodup_keys]
        rcases (h.settled hpending).cases key with ⟨hopen, hactive⟩ | ⟨start, process, hopen,
          hactive, -⟩
        · rw [hopen, hactive]
          simpa using stepFits_absent
        · rw [hopen, hactive, if_pos ((Dict.mem_keys _ _).mpr (by rw [hactive]; rfl))]
          exact stepFits_stop rfl
    · rw [if_neg hnone, if_neg hnot]
      exact h.compare hpending hinitialized hlisted htime hsome gpu.trackedId gpu.index
  · rw [Bool.not_eq_true] at hinitialized
    have hfirst : (!device.initialized) = true := by simp [hinitialized]
    have hempty := eq_empty_of_get? (h.active_eq_empty hinitialized)
    have hkeyed := keyed_scanProcesses device.active observedAt gpu.processes
    have hnew : ∀ key process, (scanProcesses device.active observedAt
        gpu.processes).current.get? key = some process →
        process.firstSeenAt = some observedAt := by
      intro key process hprocess
      obtain ⟨listed, -, -, rfl⟩ :=
        (scanProcesses_spec device.active observedAt gpu.processes).1 key process hprocess
      rw [hempty]
      rfl
    by_cases hpending : device.pending = true
    · by_cases hnone : gpu.processes = []
      · rw [if_pos hnone, if_pos hfirst, if_pos hpending]
        have hreconcile := @Sound.reconcile began device h ∅ observedAt htime hsome
          (fun key process hprocess => by simp at hprocess)
          (fun key process hprocess => by simp at hprocess) gpu.trackedId gpu.index
          previousGpuObservedAt
        have hinherit : inheritRuns (openTransitions device.events) ∅ = device.active := by
          rw [hempty]
          rfl
        rw [hinherit] at hreconcile
        exact hreconcile
      · rw [if_neg hnone, if_pos hfirst, GpuDevice.initialize_, if_pos hpending]
        exact h.reconcile htime hsome hkeyed hnew gpu.trackedId gpu.index previousGpuObservedAt
    · have hsettled : device.pending = false := by simpa using hpending
      by_cases hnone : gpu.processes = []
      · rw [if_pos hnone, if_pos hfirst, if_neg hpending]
        exact ⟨h.turns, h.begins, h.times, h.keyed, fun hwait => absurd hwait hpending,
          fun _ => ⟨(h.settled hsettled).open_eq, (h.settled hsettled).firstSeen,
            fun _ _ _ => ⟨rfl, hsome⟩⟩⟩
      · rw [if_neg hnone, if_pos hfirst, GpuDevice.initialize_, if_neg hpending]
        exact h.seed hsettled hinitialized htime hsome hkeyed hnew gpu.trackedId gpu.index

/-- A GPU of a sample keeps the device sound. -/
theorem Sound.observeGpu (h : device.Sound began) {gpu : GpuMetrics} (hlisted : gpu.Listed)
    (htime : observedAt ≠ "") :
    (device.observeGpu gpu observedAt).1.Sound began := by
  have hdevice := h.withHistory (device.history ++ [GpuHistoryPoint.mk observedAt gpu.index])
  unfold GpuDevice.observeGpu
  dsimp only
  split
  · exact hdevice
  · split
    · obtain ⟨hclosed, hactive, -, -⟩ :=
        hdevice.closeUnobservable gpu.trackedId (some gpu.index)
      exact hclosed.uninitialize hactive
    · exact (hdevice.sampled observedAt).observeTable hlisted htime rfl _

end GpuDevice

end Mocop
