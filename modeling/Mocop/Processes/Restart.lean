import Mocop.Processes.Runs

/-!
# `Mocop.Processes.Restart`: what a restart leaves open

A device restored with open starts waits for its first live process table. Until then its
samples change the GPU history only (`life_quiet`), and the step that settles it closes the open
starts that the table does not continue: the first table at the GPU sample before its own, and
a device that vanishes at its last GPU sample. `life_settled` reads off the transition that
ends such a start. An eviction of the identity drops the restored tables, and what is emitted
after it is dated in the new life (`Dated.life`).

The times of the closing are read from tables that the samples of the new life write to. So a
start is closed inside the old life exactly when the first step of the new life settles the device
and, if that step is a table, a GPU history was restored (`closedInOldLife_iff`).
-/

set_option autoImplicit false

namespace Mocop

open Toggles

/-- A device as a restart restores it. -/
def restoredDeviceOf (history : List GpuHistoryPoint) (events : List GpuProcessTransition) :
    GpuDevice where
  history := history
  events := events
  pending := true

/-- Whether a step settles a device that waits for its first live process table. -/
def DeviceStep.settles (step : DeviceStep) : Bool :=
  match step with
  | .observed _ _ => step.table?.isSome
  | .vanished => true

/-- What a device of the new life goes through. A sample of the host evicts the identity when it
leaves the host with too many of them, before the restored timelines are closed. -/
inductive LifeEvent where
  | seen (step : DeviceStep)
  | evicted

namespace LifeEvent

/-- The process table that a step delivers. -/
def table? : LifeEvent → Option (List GpuProcess)
  | .seen step => step.table?
  | .evicted => none

/-- The time of a sample. -/
def time? : LifeEvent → Option String
  | .seen step => step.time?
  | .evicted => none

/-- Whether a step leaves a waiting device waiting, with its timeline. -/
def quiet : LifeEvent → Bool
  | .seen step => !step.settles
  | .evicted => false

end LifeEvent

/-- One step of a device of the new life. -/
def GpuDevice.lifeStep (gpuId : String) (device : GpuDevice) :
    LifeEvent → GpuDevice × List GpuProcessTransition
  | .seen step => device.step gpuId step
  | .evicted => (device.evict, [])

/-- The new life of a device, with the transitions that it emits. -/
def GpuDevice.life (gpuId : String) (device : GpuDevice) :
    List LifeEvent → GpuDevice × List GpuProcessTransition
  | [] => (device, [])
  | first :: rest =>
    let (device, emitted) := device.lifeStep gpuId first
    let (device, later) := device.life gpuId rest
    (device, emitted ++ later)

/-- The first live process table of a life. -/
def firstTable (steps : List LifeEvent) : Option (List GpuProcess) :=
  steps.findSome? LifeEvent.table?

/-- A start is left open, and its process is absent from the first live process table, or there
is no such table. -/
def IsInterrupted (events : List GpuProcessTransition) (steps : List LifeEvent)
    (key : ProcessKey) : Prop :=
  ((openTransitions events).get? key).isSome
    ∧ ∀ table, firstTable steps = some table → key ∉ table.map GpuProcess.key

/-- The times of what was restored. -/
def restoredTimes (history : List GpuHistoryPoint) (events : List GpuProcessTransition) :
    List String :=
  history.map (·.observedAt) ++ events.map (·.observedAt)

/-- Every interrupted start is closed: the first transition that the new life emits for its
process is a stop, no later than what was restored. -/
def ClosedInOldLife (clock : String → ℚ) (gpuId : String) (history : List GpuHistoryPoint)
    (events : List GpuProcessTransition) (steps : List LifeEvent) : Prop :=
  ∀ key, IsInterrupted events steps key →
    ∃ stop, (processEdges ((restoredDeviceOf history events).life gpuId steps).2 key).head?
        = some stop
      ∧ stop.isStart = false
      ∧ ∃ time ∈ restoredTimes history events, clock stop.observedAt ≤ clock time

/-- The first step of the new life settles the device, and if it is a table then a GPU history
was restored. -/
def settledAtOnce (history : List GpuHistoryPoint) : List LifeEvent → Bool
  | .seen first :: _ => first.settles && (first.table?.isNone || !history.isEmpty)
  | _ => false

namespace GpuDevice

variable (gpuId : String)

/-- A step that does not settle a waiting device adds to the GPU history only. -/
theorem step_quiet {step : DeviceStep} (h : step.settles = false)
    (history : List GpuHistoryPoint) (events : List GpuProcessTransition) :
    ∃ point, step.time? = some point.observedAt
      ∧ (restoredDeviceOf history events).step gpuId step
        = (restoredDeviceOf (history ++ [point]) events, []) := by
  cases step with
  | vanished => simp [DeviceStep.settles] at h
  | observed gpu observedAt =>
    refine ⟨⟨observedAt, gpu.index⟩, rfl, ?_⟩
    show (restoredDeviceOf history events).observeGpu gpu observedAt = _
    unfold observeGpu
    by_cases hsampled : gpu.processesSampled = true
    · by_cases havailable : gpu.processesAvailable = true
      · simp [DeviceStep.settles, DeviceStep.table?, hsampled, havailable] at h
      · -- A failed query closes nothing: there is no live process yet.
        simp only [hsampled, havailable, Bool.not_true, Bool.false_eq_true, if_false,
          Bool.not_false, if_true]
        simp [restoredDeviceOf, closeUnobservable, closeProcessInventory, emit]
    · simp [hsampled, restoredDeviceOf]

/-- Steps that leave a waiting device waiting add to the GPU history only. -/
theorem life_quiet {steps : List LifeEvent} (h : ∀ step ∈ steps, step.quiet = true)
    (history : List GpuHistoryPoint) (events : List GpuProcessTransition) (rest : List LifeEvent) :
    ∃ points, points.map (fun point => some point.observedAt) = steps.map LifeEvent.time?
      ∧ ((restoredDeviceOf history events).life gpuId (steps ++ rest)).2
        = ((restoredDeviceOf (history ++ points) events).life gpuId rest).2 := by
  induction steps generalizing history with
  | nil => exact ⟨[], rfl, by rw [List.append_nil, List.nil_append]⟩
  | cons first later ih =>
    have hfirst := h first List.mem_cons_self
    cases first with
    | evicted => cases hfirst
    | seen step =>
      obtain ⟨point, htime, hstep⟩ := step_quiet gpuId (Bool.not_eq_true' _ ▸ hfirst) history
        events
      obtain ⟨points, htimes, hrun⟩ :=
        ih (fun step hmem => h step (List.mem_cons_of_mem _ hmem)) (history ++ [point])
      refine ⟨point :: points, ?_, ?_⟩
      · rw [List.map_cons, List.map_cons, htimes, ← htime]
        rfl
      · rw [List.cons_append, life, lifeStep, hstep]
        dsimp only
        rw [List.nil_append, hrun, List.append_assoc, List.singleton_append]

/-- When the step that settles a waiting device closes what it closes. -/
def closingTime (history : List GpuHistoryPoint) (events : List GpuProcessTransition)
    (step : DeviceStep) : String :=
  match step with
  | .observed _ observedAt => timeOr (history.getLast?.map (·.observedAt)) observedAt
  | .vanished => ((history.getLast?.map (·.observedAt)).or
      (events.getLast?.map (·.observedAt))).getD ""

/-- The edges of an open start that the settling step does not continue: one stop, at the
closing time. -/
theorem edges_settle {step : DeviceStep} (h : step.settles = true)
    (history : List GpuHistoryPoint) {events : List GpuProcessTransition} {key : ProcessKey}
    {start : GpuProcessTransition} (hopen : (openTransitions events).get? key = some start)
    (habsent : ∀ table, step.table? = some table → key ∉ table.map GpuProcess.key) :
    ∃ visible, processEdges ((restoredDeviceOf history events).step gpuId step).2 key
      = [closeRestoredStart start (closingTime history events step) visible] := by
  cases step with
  | vanished =>
    obtain ⟨last, hlast⟩ : ∃ last, events.getLast? = some last := by
      cases hlast : events.getLast? with
      | some last => exact ⟨last, rfl⟩
      | none =>
        rw [List.getLast?_eq_none_iff.mp hlast] at hopen
        simp [openTransitions, openStarts] at hopen
    refine ⟨some false, ?_⟩
    show processEdges ((restoredDeviceOf history events).vanish gpuId).2 key = _
    unfold vanish
    have hinitialized : (restoredDeviceOf history events).initialized = false := rfl
    simp only [hinitialized, Bool.false_eq_true, if_false, List.nil_append]
    have htime : ((history.getLast?.map (·.observedAt)).getD last.observedAt)
        = closingTime history events .vanished := by
      rw [closingTime, hlast]
      cases history.getLast? <;> rfl
    have hclosed : (restoredDeviceOf history events).closeRestored.2
        = (sortedKeys (openTransitions events).keys).filterMap (fun key =>
          ((openTransitions events).get? key).map (closeRestoredStart ·
            (closingTime history events .vanished) (some false))) := by
      rw [← htime]
      simp [closeRestored, restoredDeviceOf, hlast]
    rw [hclosed]
    rw [processEdges, edgesOf_filterMap (nodup_sortedKeys (Dict.nodup_keys _)), hopen,
      if_pos (mem_sortedKeys.mpr ((Dict.mem_keys _ _).mpr (by rw [hopen]; rfl)))]
    · rfl
    · intro k _ transition htransition
      obtain ⟨other, hother, rfl⟩ := Option.map_eq_some_iff.mp htransition
      exact (mem_of_openStarts hother).2.1
  | observed gpu observedAt =>
    refine ⟨none, ?_⟩
    have hboth : gpu.processesSampled = true ∧ gpu.processesAvailable = true := by
      by_contra hnot
      simp [DeviceStep.settles, DeviceStep.table?] at h
      exact hnot h
    have hkey : key ∉ gpu.processes.map GpuProcess.key :=
      habsent gpu.processes (by simp [DeviceStep.table?, hboth.1, hboth.2])
    -- Both kinds of table are reconciled with the restored timeline.
    have hreconciled : ∃ current : Dict ProcessKey GpuProcess,
        (∀ k process, current.get? k = some process → process.key = k)
        ∧ current.get? key = none
        ∧ ((restoredDeviceOf history events).step gpuId (.observed gpu observedAt)).2
          = (reconcileRestoredProcesses events gpu.trackedId gpu.index current observedAt
            (history.getLast?.map (·.observedAt))).2 := by
      by_cases hnone : gpu.processes = []
      · refine ⟨∅, fun _ _ hget => by simp at hget, rfl, ?_⟩
        show ((restoredDeviceOf history events).observeGpu gpu observedAt).2 = _
        simp [observeGpu, hboth.1, hboth.2, observeTable, hnone, restoredDeviceOf]
      · refine ⟨(scanProcesses ∅ observedAt gpu.processes).current,
          keyed_scanProcesses ∅ observedAt gpu.processes, ?_, ?_⟩
        · refine Option.eq_none_iff_forall_ne_some.mpr fun process hprocess => ?_
          obtain ⟨listed, hmem, hlisted, -⟩ :=
            (scanProcesses_spec ∅ observedAt gpu.processes).1 key process hprocess
          exact hkey (List.mem_map.mpr ⟨listed, hmem, hlisted⟩)
        · show ((restoredDeviceOf history events).observeGpu gpu observedAt).2 = _
          simp [observeGpu, hboth.1, hboth.2, observeTable, hnone, restoredDeviceOf,
            initialize_]
    obtain ⟨current, hkeyed, hget, hstep⟩ := hreconciled
    rw [hstep, edges_reconcile hkeyed, continuesRun, hopen, hget, get?_inheritRuns, hget]
    rfl

/-! ### The times after an eviction -/

/-- The times in the tables of a device are new. -/
structure Dated (new : String → Prop) (device : GpuDevice) : Prop where
  history : ∀ point ∈ device.history, new point.observedAt
  events : ∀ event ∈ device.events, new event.observedAt
  last : ∀ time, device.lastObservedAt = some time → new time

variable {gpuId} {new : String → Prop} {device : GpuDevice}

theorem Dated.emit (h : device.Dated new) {transitions : List GpuProcessTransition}
    (hnew : ∀ event ∈ transitions, new event.observedAt) : (device.emit transitions).1.Dated new :=
  ⟨h.history, fun event hevent => (List.mem_append.mp hevent).elim (h.events event) (hnew event),
    h.last⟩

variable {now : String} {previous : Option String}

theorem dated_transitionsFor (hnow : new now) {index : ℕ} {event : ProcessEvent} {visible : Bool}
    {table : Dict ProcessKey GpuProcess} {keys : List ProcessKey} :
    ∀ transition ∈ transitionsFor now gpuId index event visible table keys,
      new transition.observedAt := by
  intro transition hmem
  obtain ⟨key, -, hkey⟩ := List.mem_filterMap.mp hmem
  obtain ⟨process, -, rfl⟩ := Option.map_eq_some_iff.mp hkey
  exact hnow

theorem dated_timeOr (hprevious : ∀ time, previous = some time → new time) (hnow : new now) :
    new (timeOr previous now) := by
  unfold timeOr
  split
  · split
    · exact hnow
    · exact hprevious _ rfl
  · exact hnow

theorem dated_reconcile {events : List GpuProcessTransition} {index : ℕ}
    {current : Dict ProcessKey GpuProcess} (hprevious : ∀ time, previous = some time → new time)
    (hnow : new now) :
    ∀ transition ∈ (reconcileRestoredProcesses events gpuId index current now previous).2,
      new transition.observedAt := by
  intro transition hmem
  obtain hclosed | hbegun := List.mem_append.mp hmem
  · obtain ⟨key, -, hkey⟩ := List.mem_filterMap.mp hclosed
    split at hkey
    · cases hkey
    · obtain ⟨start, -, rfl⟩ := Option.map_eq_some_iff.mp hkey
      exact dated_timeOr hprevious hnow
  · obtain ⟨key, -, hkey⟩ := List.mem_filterMap.mp hbegun
    split at hkey
    · cases hkey
    · obtain ⟨process, -, rfl⟩ := Option.map_eq_some_iff.mp hkey
      exact hnow

theorem Dated.closeUnobservable (h : device.Dated new) (index : Option ℕ) :
    (device.closeUnobservable gpuId index).1.Dated new := by
  have hempty : Dated new { device with lastObservedAt := none, active := ∅ } :=
    ⟨h.history, h.events, fun time htime => by cases htime⟩
  refine hempty.emit ?_
  unfold closeProcessInventory
  cases hlast : device.lastObservedAt with
  | none => exact fun transition hmem => absurd hmem List.not_mem_nil
  | some time => exact dated_transitionsFor (h.last time hlast)

theorem Dated.closeRestored (h : device.Dated new) : device.closeRestored.1.Dated new := by
  have hsettled : Dated new { device with pending := false } := ⟨h.history, h.events, h.last⟩
  unfold GpuDevice.closeRestored
  split
  · cases hlast : device.events.getLast? with
    | none => exact hsettled
    | some last =>
      refine hsettled.emit fun transition hmem => ?_
      obtain ⟨key, -, hkey⟩ := List.mem_filterMap.mp hmem
      obtain ⟨start, -, rfl⟩ := Option.map_eq_some_iff.mp hkey
      show new ((device.history.getLast?.map (·.observedAt)).getD last.observedAt)
      cases hpoint : device.history.getLast? with
      | none => exact h.events last (List.mem_of_getLast? hlast)
      | some point => exact h.history point (List.mem_of_getLast? hpoint)
  · exact h

theorem Dated.vanish (h : device.Dated new) : (device.vanish gpuId).1.Dated new := by
  have hclosed : Dated new (if device.initialized then device.closeUnobservable gpuId none
      else (device, [])).1 := by
    split
    · exact h.closeUnobservable none
    · exact h
  have hrestored := hclosed.closeRestored
  exact ⟨hrestored.history, hrestored.events, hrestored.last⟩

theorem Dated.observeTable (h : device.Dated new) (gpu : GpuMetrics) (hnow : new now)
    (hprevious : ∀ time, previous = some time → new time) :
    (device.observeTable gpu now previous).1.Dated new := by
  have hsame : ∀ active initialized pending, Dated new { device with
      active := active, initialized := initialized, pending := pending } :=
    fun _ _ _ => ⟨h.history, h.events, h.last⟩
  unfold GpuDevice.observeTable
  dsimp only
  split
  · split
    · split
      · exact (hsame _ _ _).emit (dated_reconcile hprevious hnow)
      · exact hsame _ _ _
    · exact (hsame _ _ _).emit (dated_transitionsFor hnow)
  · split
    · unfold initialize_
      split
      · exact (hsame _ _ _).emit (dated_reconcile hprevious hnow)
      · exact (hsame _ _ _).emit (dated_transitionsFor hnow)
    · refine (hsame _ _ _).emit fun transition hmem => ?_
      rcases List.mem_append.mp hmem with hmem | hmem
      · exact (List.mem_append.mp hmem).elim (dated_transitionsFor hnow transition)
          (dated_transitionsFor hnow transition)
      · obtain ⟨key, -, hkey⟩ := List.mem_flatMap.mp hmem
        rcases List.mem_append.mp hkey with hkey | hkey
        all_goals
          obtain ⟨process, -, rfl⟩ := Option.map_eq_some_iff.mp (Option.mem_toList.mp hkey)
          exact hnow

theorem Dated.lifeStep (h : device.Dated new) {step : LifeEvent}
    (hnow : ∀ now, step.time? = some now → new now) : (device.lifeStep gpuId step).1.Dated new := by
  cases step with
  | evicted => exact ⟨fun _ hmem => absurd hmem List.not_mem_nil,
      fun _ hmem => absurd hmem List.not_mem_nil, fun _ htime => by cases htime⟩
  | seen step =>
    cases step with
    | vanished => exact h.vanish
    | observed gpu now =>
      replace hnow : new now := hnow now rfl
      have hpoint : Dated new { device with history := device.history ++ [⟨now, gpu.index⟩] } :=
        ⟨fun point hmem => (List.mem_append.mp hmem).elim (h.history point)
          fun hmem => List.mem_singleton.mp hmem ▸ hnow, h.events, h.last⟩
      show (device.observeGpu gpu now).1.Dated new
      unfold observeGpu
      dsimp only
      split
      · exact hpoint
      · split
        · have hclosed := @Dated.closeUnobservable gpu.trackedId _ _ hpoint (some gpu.index)
          exact ⟨hclosed.history, hclosed.events, hclosed.last⟩
        · have hsampled : Dated new { device with
              history := device.history ++ [⟨now, gpu.index⟩], lastObservedAt := some now } :=
            ⟨hpoint.history, hpoint.events, fun time htime => Option.some.inj htime ▸ hnow⟩
          refine hsampled.observeTable gpu hnow fun time htime => ?_
          obtain ⟨point, hlast, rfl⟩ := Option.map_eq_some_iff.mp htime
          exact h.history point (List.mem_of_getLast? hlast)

/-- What a device with new times emits is dated at new times. -/
theorem Dated.life (h : device.Dated new) {steps : List LifeEvent}
    (hnow : ∀ step ∈ steps, ∀ now, step.time? = some now → new now) :
    ∀ event ∈ (device.life gpuId steps).2, new event.observedAt := by
  induction steps generalizing device with
  | nil => exact fun event hmem => absurd hmem List.not_mem_nil
  | cons first rest ih =>
    have hstep : (device.lifeStep gpuId first).1.Dated new :=
      h.lifeStep (hnow first List.mem_cons_self)
    intro event hmem
    obtain hemitted | hlater := List.mem_append.mp hmem
    · refine hstep.events event ?_
      cases first with
      | evicted => exact absurd hemitted List.not_mem_nil
      | seen step =>
        show event ∈ (device.step gpuId step).1.events
        rw [events_step]
        exact List.mem_append_right _ hemitted
    · exact ih hstep (fun step hmem => hnow step (List.mem_cons_of_mem _ hmem)) event hlater

end GpuDevice

open GpuDevice

variable {history : List GpuHistoryPoint} {events : List GpuProcessTransition}
  {steps : List LifeEvent} (gpuId : String)

/-- A step that leaves a device waiting delivers no table. -/
theorem table_of_quiet {step : LifeEvent} (h : step.quiet = true) : step.table? = none := by
  cases step with
  | evicted => rfl
  | seen step =>
    cases step with
    | observed gpu observedAt =>
      simpa [LifeEvent.quiet, DeviceStep.settles, LifeEvent.table?] using h
    | vanished => cases h

/-- The first transition that ends an interrupted start is dated at the closing time of the step
that settles the device. -/
theorem life_settled {quiet rest : List LifeEvent} {step : DeviceStep}
    (hsteps : steps = quiet ++ .seen step :: rest) (hstep : step.settles = true)
    (hquiet : ∀ other ∈ quiet, other.quiet = true) {key : ProcessKey}
    (h : IsInterrupted events steps key) :
    ∃ points start visible, points.map (fun point : GpuHistoryPoint => some point.observedAt)
        = quiet.map LifeEvent.time?
      ∧ (processEdges ((restoredDeviceOf history events).life gpuId steps).2 key).head?
        = some (closeRestoredStart start
          (closingTime (history ++ points) events step) visible) := by
  obtain ⟨points, htimes, hlife⟩ := life_quiet gpuId hquiet history events (.seen step :: rest)
  obtain ⟨start, hopen⟩ := Option.isSome_iff_exists.mp h.1
  have hbefore : quiet.findSome? LifeEvent.table? = none :=
    List.findSome?_eq_none_iff.mpr (fun other hmem => table_of_quiet (hquiet other hmem))
  have habsent : ∀ table, step.table? = some table → key ∉ table.map GpuProcess.key := by
    intro table htable
    refine h.2 table ?_
    rw [firstTable, hsteps, List.findSome?_append, hbefore, List.findSome?_cons, LifeEvent.table?,
      htable]
    rfl
  obtain ⟨visible, hedges⟩ := edges_settle gpuId hstep (history ++ points) hopen habsent
  refine ⟨points, start, visible, htimes, ?_⟩
  rw [hsteps, hlife, life]
  dsimp only
  rw [processEdges, edgesOf_append]
  show (processEdges ((restoredDeviceOf (history ++ points) events).step gpuId step).2 key
    ++ _).head? = _
  rw [hedges]
  rfl

/-- A closing that reads what was restored is dated inside the old life. -/
theorem closingTime_restored {step : DeviceStep} (hevents : events ≠ [])
    (htimes : ∀ point ∈ history, point.observedAt ≠ "")
    (h : step.table?.isNone = true ∨ history ≠ []) (hstep : step.settles = true) :
    closingTime history events step ∈ restoredTimes history events := by
  rw [restoredTimes, List.mem_append]
  cases hlast : history.getLast? with
  | some point =>
    have hmem : point ∈ history := List.mem_of_getLast? hlast
    left
    refine List.mem_map.mpr ⟨point, hmem, ?_⟩
    cases step with
    | observed gpu observedAt =>
      simp [closingTime, hlast, timeOr, htimes point hmem]
    | vanished => simp [closingTime, hlast]
  | none =>
    have hempty : history = [] := List.getLast?_eq_none_iff.mp hlast
    right
    cases step with
    | observed gpu observedAt =>
      -- A table needs a restored GPU history.
      rcases h with h | h
      · rw [DeviceStep.settles, ← Option.not_isNone, h] at hstep
        simp at hstep
      · exact absurd hempty h
    | vanished =>
      obtain ⟨last, hevent⟩ := Option.isSome_iff_exists.mp
        (List.getLast?_isSome.mpr hevents)
      exact List.mem_map.mpr ⟨last, List.mem_of_getLast? hevent, by
        simp [closingTime, hlast, hevent]⟩

/-- A closing that reads a sample of the new life is dated there. -/
theorem closingTime_new {points : List GpuHistoryPoint} {step : DeviceStep}
    (h : points ≠ [] ∨ (history = [] ∧ step.table?.isSome = true)) :
    (∃ point ∈ points, point.observedAt = closingTime (history ++ points) events step)
      ∨ step.time? = some (closingTime (history ++ points) events step) := by
  cases hlast : points.getLast? with
  | some point =>
    have hmem : point ∈ points := List.mem_of_getLast? hlast
    have hend : (history ++ points).getLast? = some point := by
      rw [List.getLast?_append, hlast]
      rfl
    cases step with
    | vanished => exact Or.inl ⟨point, hmem, by simp [closingTime, hend]⟩
    | observed gpu observedAt =>
      by_cases hempty : point.observedAt = ""
      · exact Or.inr (by simp [DeviceStep.time?, closingTime, hend, timeOr, hempty])
      · exact Or.inl ⟨point, hmem, by simp [closingTime, hend, timeOr, hempty]⟩
  | none =>
    have hnone : points = [] := List.getLast?_eq_none_iff.mp hlast
    rcases h with h | ⟨hempty, htable⟩
    · exact absurd hnone h
    · cases step with
      | vanished => simp [DeviceStep.table?] at htable
      | observed gpu observedAt =>
        right
        simp [DeviceStep.time?, closingTime, hempty, hnone, timeOr]

section
variable {clock : String → ℚ}
  (hlater : ∀ time ∈ restoredTimes history events, ∀ step ∈ steps, ∀ now,
    step.time? = some now → clock time < clock now)
include hlater

/-- A start that is closed in the old life was settled at once. -/
theorem settledAtOnce_of_closed {key : ProcessKey} (hinterrupted : IsInterrupted events steps key)
    (hclosed : ClosedInOldLife clock gpuId history events steps) :
    settledAtOnce history steps = true := by
  obtain ⟨stop, hstop, -, time, htime, hle⟩ := hclosed key hinterrupted
  -- No transition in the old life is dated at the time of a step of the new one.
  have hnew : ∀ step ∈ steps, ∀ now, step.time? = some now → stop.observedAt ≠ now := by
    rintro step hstep now hnow rfl
    exact absurd hle (not_le.mpr (hlater time htime step hstep _ hnow))
  have hquiet : ∀ step ∈ steps.takeWhile LifeEvent.quiet, step.quiet = true :=
    List.all_eq_true.mp List.all_takeWhile
  have hsplit := List.takeWhile_append_dropWhile (p := LifeEvent.quiet) (l := steps)
  have hearly : ∀ step ∈ steps.takeWhile LifeEvent.quiet, step ∈ steps :=
    fun step hmem => List.takeWhile_subset _ hmem
  cases hloud : steps.dropWhile LifeEvent.quiet with
  | nil =>
    -- A device that never settles emits nothing.
    rw [hloud] at hsplit
    obtain ⟨points, -, hlife⟩ := life_quiet gpuId hquiet history events []
    rw [hsplit] at hlife
    rw [hlife] at hstop
    cases hstop
  | cons loud rest =>
    rw [hloud] at hsplit
    have hmem : ∀ step ∈ loud :: rest, step ∈ steps := fun step hstep => by
      rw [← hsplit]
      exact List.mem_append_right _ hstep
    cases loud with
    | evicted =>
      obtain ⟨points, -, hlife⟩ := life_quiet gpuId hquiet history events (.evicted :: rest)
      rw [hsplit] at hlife
      rw [hlife] at hstop
      have hdated : GpuDevice.Dated (stop.observedAt ≠ ·)
          (restoredDeviceOf (history ++ points) events).evict :=
        ⟨fun _ hmem => absurd hmem List.not_mem_nil,
          fun _ hmem => absurd hmem List.not_mem_nil, fun _ htime => by cases htime⟩
      have hlate := @GpuDevice.Dated.life gpuId _ _ hdated rest
        fun step hstep => hnew step (hmem step (List.mem_cons_of_mem _ hstep))
      refine absurd rfl (hlate stop ?_)
      exact (List.mem_filter.mp (List.mem_of_mem_head? hstop)).1
    | seen step =>
      have hstep : step.settles = true := by
        have hnot := List.head_dropWhile_not LifeEvent.quiet (l := steps) (by rw [hloud]; simp)
        simpa [hloud, LifeEvent.quiet] using hnot
      obtain ⟨points, start, visible, htimes, hedge⟩ :=
        life_settled gpuId hsplit.symm hstep hquiet hinterrupted
      rw [hedge] at hstop
      have hdate : stop.observedAt = closingTime (history ++ points) events step := by
        rw [← Option.some.inj hstop]
        rfl
      have hread : ¬ (points ≠ [] ∨ (history = [] ∧ step.table?.isSome = true)) := by
        intro hlate
        rcases @closingTime_new history events _ _ hlate with ⟨point, hpoint, hat⟩ | hat
        · have hpointTime : some point.observedAt
              ∈ (steps.takeWhile LifeEvent.quiet).map LifeEvent.time? := by
            rw [← htimes]
            exact List.mem_map_of_mem hpoint
          obtain ⟨late, hlate, hsame⟩ := List.mem_map.mp hpointTime
          exact hnew late (hearly late hlate) _ hsame (hdate.trans hat.symm)
        · exact hnew (.seen step) (hmem _ List.mem_cons_self) _ hat hdate
      rw [not_or, not_not, not_and] at hread
      have hquietnil : steps.takeWhile LifeEvent.quiet = [] := by
        have hlength := congrArg List.length htimes
        rw [List.length_map, List.length_map, hread.1] at hlength
        exact List.length_eq_zero_iff.mp hlength.symm
      rw [← hsplit, hquietnil, List.nil_append, settledAtOnce, hstep, Bool.true_and]
      by_cases hempty : history = []
      · have hnone := hread.2 hempty
        rw [Bool.not_eq_true, Option.isSome_eq_false_iff] at hnone
        simp [hnone]
      · simp [hempty]

end

/-- An interrupted start of a device that is settled at once is closed in the old life. -/
theorem closed_of_settledAtOnce (clock : String → ℚ)
    (htimes : ∀ point ∈ history, point.observedAt ≠ "") (h : settledAtOnce history steps = true) :
    ClosedInOldLife clock gpuId history events steps := by
  intro key hinterrupted
  cases steps with
  | nil => cases h
  | cons first rest =>
    cases first with
    | evicted => cases h
    | seen step =>
      rw [settledAtOnce, Bool.and_eq_true, Bool.or_eq_true, Bool.not_eq_true',
        List.isEmpty_eq_false_iff] at h
      obtain ⟨hstep, hreads⟩ := h
      obtain ⟨points, start, visible, hpoints, hedge⟩ := @life_settled history events
        (.seen step :: rest) gpuId [] rest step rfl hstep (fun _ hmem => by simp at hmem) key
        hinterrupted
      have hnil : points = [] := by simpa using hpoints
      rw [hnil, List.append_nil] at hedge
      have hevents : events ≠ [] := by
        intro hnone
        have hopen := hinterrupted.1
        rw [hnone] at hopen
        simp [openTransitions, openStarts] at hopen
      exact ⟨_, hedge, rfl, closingTime history events step,
        closingTime_restored hevents htimes hreads hstep, le_refl _⟩

/-- The samples of the new life are later than what was restored, and the restored samples have
a time. Then the interrupted starts are closed in the old life exactly when there is none or the
first step of the new life settles the device, with a restored GPU history if that step is a
table. -/
theorem closedInOldLife_iff (clock : String → ℚ) (gpuId : String)
    (history : List GpuHistoryPoint) (events : List GpuProcessTransition)
    (steps : List LifeEvent) (htimes : ∀ point ∈ history, point.observedAt ≠ "")
    (hlater : ∀ time ∈ restoredTimes history events, ∀ step ∈ steps, ∀ now,
      step.time? = some now → clock time < clock now) :
    ClosedInOldLife clock gpuId history events steps
      ↔ ((∃ key, IsInterrupted events steps key) → settledAtOnce history steps) := by
  constructor
  · rintro hclosed ⟨key, hinterrupted⟩
    exact settledAtOnce_of_closed gpuId hlater hinterrupted hclosed
  · intro h key hinterrupted
    exact closed_of_settledAtOnce gpuId clock htimes (h ⟨key, hinterrupted⟩) key hinterrupted

/-- A process of the old life. -/
private def formerProcess : GpuProcess where
  pid := 7
  name := "python"
  usedMemoryMib := none

/-- Its start, left open by the restart. -/
private def formerStart : List GpuProcessTransition :=
  [processTransition "2026-01-01T00:00:00Z" "GPU-1" 0 .started formerProcess true]

/-- The last GPU sample of the old life. -/
private def formerSample : List GpuHistoryPoint := [⟨"2026-01-01T00:01:00Z", 0⟩]

/-- A sample of the GPU without a process, with or without a process query. -/
private def emptyGpu (sampled : Bool) : GpuMetrics where
  index := 0
  uuid := "GPU-1"
  name := "L4"
  temperatureC := none
  utilizationGpuPct := none
  memoryTotalMib := none
  memoryUsedMib := none
  powerDrawW := none
  processesSampled := sampled

/-- The hours of the sample times. -/
private def sampleHour (text : String) : ℚ :=
  if text = "2026-01-01T05:00:00Z" then 5 else if text = "2026-01-01T06:00:00Z" then 6 else 0

private theorem formerStart_open : IsInterrupted formerStart
    [.seen (.observed (emptyGpu true) "2026-01-01T06:00:00Z")] (7, "python") :=
  ⟨rfl, fun table htable => by
    obtain rfl : [] = table := Option.some.inj htable
    simp⟩

/-- The first table of the new life closes a start in the old life. -/
theorem closedInOldLife_iff_table : ClosedInOldLife sampleHour "GPU-1" formerSample formerStart
      [.seen (.observed (emptyGpu true) "2026-01-01T06:00:00Z")]
    ∧ IsInterrupted formerStart [.seen (.observed (emptyGpu true) "2026-01-01T06:00:00Z")]
      (7, "python") := by
  refine ⟨(closedInOldLife_iff sampleHour "GPU-1" formerSample formerStart
    [.seen (.observed (emptyGpu true) "2026-01-01T06:00:00Z")] ?_ ?_).mpr fun _ => rfl,
    formerStart_open⟩
  · intro point hpoint
    rw [List.mem_singleton.mp hpoint]
    decide
  · intro time htime step hstep now hnow
    rw [List.mem_singleton.mp hstep] at hnow
    rw [← Option.some.inj hnow]
    have hold : time = "2026-01-01T00:01:00Z" ∨ time = "2026-01-01T00:00:00Z" := by
      simpa [restoredTimes, formerSample, formerStart, processTransition] using htime
    rcases hold with rfl | rfl
    · decide +kernel
    · decide +kernel

/-- A sample that skips the process query comes before the first table, and the start is closed
at that sample, after the gap between the two lives. -/
theorem gap_is_billed : ¬ ∀ (clock : String → ℚ) (gpuId : String)
    (history : List GpuHistoryPoint) (events : List GpuProcessTransition)
    (steps : List LifeEvent), (∀ point ∈ history, point.observedAt ≠ "") →
    (∀ time ∈ restoredTimes history events, ∀ step ∈ steps, ∀ now,
      step.time? = some now → clock time < clock now) →
    ClosedInOldLife clock gpuId history events steps := by
  intro h
  have hlater : ∀ time ∈ restoredTimes formerSample formerStart,
      ∀ step ∈ [LifeEvent.seen (.observed (emptyGpu false) "2026-01-01T05:00:00Z"),
        .seen (.observed (emptyGpu true) "2026-01-01T06:00:00Z")], ∀ now, step.time? = some now →
      sampleHour time < sampleHour now := by
    intro time htime step hstep now hnow
    have hold : time = "2026-01-01T00:01:00Z" ∨ time = "2026-01-01T00:00:00Z" := by
      simpa [restoredTimes, formerSample, formerStart, processTransition] using htime
    rcases List.mem_pair.mp hstep with rfl | rfl
    all_goals
      rw [← Option.some.inj hnow]
      rcases hold with rfl | rfl
      · decide +kernel
      · decide +kernel
  have hclosed := h sampleHour "GPU-1" formerSample formerStart
    [.seen (.observed (emptyGpu false) "2026-01-01T05:00:00Z"),
      .seen (.observed (emptyGpu true) "2026-01-01T06:00:00Z")]
    (fun point hpoint => by
      rw [List.mem_singleton.mp hpoint]
      decide) hlater
  have hsettled := @settledAtOnce_of_closed formerSample formerStart _ "GPU-1" sampleHour hlater
    (7, "python") ⟨rfl, formerStart_open.2⟩ hclosed
  simp [settledAtOnce, DeviceStep.settles, DeviceStep.table?, emptyGpu] at hsettled

end Mocop
