import Mocop.Reports.Occupancy

/-!
# `Mocop.Reports.Pairing`: the runs that the pairing clips

Which runs a device had does not depend on the window (`deviceRuns`): those that a transition
closes, those of the starts that are still live, and those of the live processes without a
start. `pairIntervals` clips each of them to the window (`pairIntervals_eq`).

The open start of a live process is extended under the workload of the start alone, and its stop
closes it under the workload of the start or else of the stop. `stop_keeps_attribution_iff`
says when the two agree.
-/

set_option autoImplicit false

namespace Mocop

/-- A run of a process on a device, before it is clipped. -/
structure Run where
  start : ℚ
  end_ : ℚ
  workload : Option WorkloadDict

section Pairing

variable (epochSeconds : String → Option ℚ) (windowStart nowEpoch : ℚ)

/-- The run clipped to the window, if something of it is left. -/
def Run.clip (run : Run) : Option Interval :=
  if min run.end_ nowEpoch ≤ max run.start windowStart then none
  else
    some {
      start := max run.start windowStart
      end_ := min run.end_ nowEpoch
      owner := (attribution run.workload).1
      kind := (attribution run.workload).2 }

/-- The open starts, by process. -/
abbrev OpenStarts := Dict ProcessKey (ℚ × Option WorkloadDict)

/-- The run that a transition closes. -/
def closedRun (open_ : OpenStarts) (event : ProcessTransition) : Option Run :=
  (epochSeconds event.observedAt).bind fun observed =>
    match open_.get? (event.pid, event.name) with
    | some (started, workload) =>
      some ⟨started, observed,
        if event.event = "started" then workload else workloadOr workload event.workload⟩
    | none =>
      if event.event = "started" then none
      else
        (event.firstSeenAt.bind epochSeconds).bind fun anchored =>
          if anchored ≤ observed then some ⟨anchored, observed, event.workload⟩ else none

/-- The open starts after a transition. -/
def nextOpen (open_ : OpenStarts) (event : ProcessTransition) : OpenStarts :=
  match epochSeconds event.observedAt with
  | none => open_
  | some observed =>
    let rest := open_.erase (event.pid, event.name)
    if event.event = "started" then rest.set (event.pid, event.name) (observed, event.workload)
    else rest

/-- The runs that transitions close. -/
def closedRuns (open_ : OpenStarts) : List ProcessTransition → List Run
  | [] => []
  | event :: rest =>
    (closedRun epochSeconds open_ event).toList
      ++ closedRuns (nextOpen epochSeconds open_ event) rest

/-- The first element's value, if it has one, comes first. -/
theorem filterMap_cons_toList {α β : Type*} (f : α → Option β) (x : α) (l : List α) :
    (x :: l).filterMap f = (f x).toList ++ l.filterMap f := by
  cases hx : f x <;> simp [hx]

theorem filterMap_toList {α β : Type*} (f : α → Option β) (x : Option α) :
    x.toList.filterMap f = (x.bind f).toList := by
  cases x with
  | none => rfl
  | some a => rw [Option.toList_some, filterMap_cons_toList, List.filterMap_nil, List.append_nil,
      Option.bind_some]

/-- A close appends the clipped run. -/
theorem Pairing.close_spec (p : Pairing) (start end_ : ℚ) (workload : Option WorkloadDict) :
    (p.close windowStart nowEpoch start end_ workload).intervals
        = p.intervals ++ ((Run.mk start end_ workload).clip windowStart nowEpoch).toList
      ∧ (p.close windowStart nowEpoch start end_ workload).open_ = p.open_ := by
  by_cases hempty : min end_ nowEpoch ≤ max start windowStart
  · simp [Pairing.close, Run.clip, hempty]
  · simp [Pairing.close, Run.clip, hempty]

/-- A transition appends the run that it closes. -/
theorem Pairing.transition_spec (p : Pairing) (event : ProcessTransition) :
    (p.transition epochSeconds windowStart nowEpoch event).intervals
        = p.intervals
          ++ ((closedRun epochSeconds p.open_ event).bind
              (Run.clip windowStart nowEpoch)).toList
      ∧ (p.transition epochSeconds windowStart nowEpoch event).open_
        = nextOpen epochSeconds p.open_ event := by
  unfold Pairing.transition closedRun nextOpen
  cases epochSeconds event.observedAt with
  | none => simp [Pairing.drop]
  | some observed =>
    cases hopened : p.open_.get? (event.pid, event.name) with
    | some opened =>
      by_cases hstarted : event.event = "started"
      · simp [hopened, hstarted, Pairing.close_spec]
      · simp [hopened, hstarted, Pairing.close_spec]
    | none =>
      by_cases hstarted : event.event = "started"
      · simp [hopened, hstarted]
      · cases hanchor : event.firstSeenAt.bind epochSeconds with
        | none => simp [hopened, hstarted, Pairing.drop]
        | some anchored =>
          by_cases hanchored : anchored ≤ observed
          · simp [hopened, hstarted, hanchored, Pairing.close_spec]
          · simp [hopened, hstarted, hanchored, Pairing.drop]

/-- The transitions of a device, paired. -/
abbrev paired (events : List ProcessTransition) : Pairing :=
  events.foldl (Pairing.transition epochSeconds windowStart nowEpoch) Pairing.init

/-- The transitions append the runs that they close. -/
theorem paired_spec (events : List ProcessTransition) :
    (paired epochSeconds windowStart nowEpoch events).intervals
        = (closedRuns epochSeconds ∅ events).filterMap (Run.clip windowStart nowEpoch)
      ∧ (paired epochSeconds windowStart nowEpoch events).open_
        = events.foldl (nextOpen epochSeconds) ∅ := by
  have hfold : ∀ (events : List ProcessTransition) (p : Pairing),
      (events.foldl (Pairing.transition epochSeconds windowStart nowEpoch) p).intervals
          = p.intervals
            ++ (closedRuns epochSeconds p.open_ events).filterMap (Run.clip windowStart nowEpoch)
        ∧ (events.foldl (Pairing.transition epochSeconds windowStart nowEpoch) p).open_
          = events.foldl (nextOpen epochSeconds) p.open_ := by
    intro events
    induction events with
    | nil => simp [closedRuns]
    | cons event rest ih =>
      intro p
      obtain ⟨hintervals, hopen⟩ :=
        p.transition_spec epochSeconds windowStart nowEpoch event
      obtain ⟨hrest, hopens⟩ := ih (p.transition epochSeconds windowStart nowEpoch event)
      rw [List.foldl_cons, hrest, hopens, hintervals, hopen, closedRuns, List.filterMap_append,
        List.append_assoc, filterMap_toList]
      exact ⟨rfl, rfl⟩
  exact hfold events Pairing.init

variable (activeUntil : ℚ) (active : Dict ProcessKey GpuProcess)

/-- The run of a start without a stop. -/
def openRun (entry : ProcessKey × ℚ × Option WorkloadDict) : Option Run :=
  if active.contains entry.1 then some ⟨entry.2.1, activeUntil, entry.2.2⟩ else none

/-- The run of a live process without a start. -/
def seedRun (open_ : OpenStarts) (entry : ProcessKey × GpuProcess) : Option Run :=
  if open_.contains entry.1 then none
  else
    (entry.2.firstSeenAt.bind epochSeconds).map fun anchored =>
      ⟨anchored, activeUntil, entry.2.workload.map (·.toDict)⟩

theorem Pairing.extendOpen_spec (p : Pairing) (entry : ProcessKey × ℚ × Option WorkloadDict) :
    (p.extendOpen windowStart nowEpoch activeUntil active entry).intervals
        = p.intervals
          ++ ((openRun activeUntil active entry).bind (Run.clip windowStart nowEpoch)).toList
      ∧ (p.extendOpen windowStart nowEpoch activeUntil active entry).open_ = p.open_ := by
  by_cases hlive : active.contains entry.1 = true
  · simp only [Pairing.extendOpen, openRun, if_pos hlive]
    exact Pairing.close_spec ..
  · simp only [Pairing.extendOpen, openRun, if_neg hlive]
    exact ⟨(List.append_nil _).symm, rfl⟩

theorem Pairing.seed_spec (p : Pairing) (entry : ProcessKey × GpuProcess) :
    (p.seed epochSeconds windowStart nowEpoch activeUntil entry).intervals
        = p.intervals
          ++ ((seedRun epochSeconds activeUntil p.open_ entry).bind
              (Run.clip windowStart nowEpoch)).toList
      ∧ (p.seed epochSeconds windowStart nowEpoch activeUntil entry).open_ = p.open_ := by
  unfold Pairing.seed seedRun
  split
  · exact ⟨(List.append_nil _).symm, rfl⟩
  · cases entry.2.firstSeenAt.bind epochSeconds with
    | some anchored => exact Pairing.close_spec ..
    | none => exact ⟨(List.append_nil _).symm, rfl⟩

/-- Steps that append the runs of their entries append them in order. -/
theorem Pairing.foldl_spec {α : Type*} {step : Pairing → α → Pairing}
    {run : OpenStarts → α → Option Run}
    (hstep : ∀ p entry, (step p entry).intervals
        = p.intervals ++ ((run p.open_ entry).bind (Run.clip windowStart nowEpoch)).toList
      ∧ (step p entry).open_ = p.open_) (entries : List α) (p : Pairing) :
    (entries.foldl step p).intervals
        = p.intervals
          ++ (entries.filterMap (run p.open_)).filterMap (Run.clip windowStart nowEpoch)
      ∧ (entries.foldl step p).open_ = p.open_ := by
  induction entries generalizing p with
  | nil => exact ⟨(List.append_nil _).symm, rfl⟩
  | cons entry rest ih =>
    obtain ⟨hintervals, hopen⟩ := hstep p entry
    obtain ⟨hrest, hopen'⟩ := ih (step p entry)
    rw [List.foldl_cons, hrest, hopen', hopen, hintervals, List.append_assoc]
    rw [filterMap_cons_toList, List.filterMap_append, filterMap_toList]
    exact ⟨rfl, rfl⟩

/-- How long the processes of the live table are known to have held the device. -/
def confirmedUntil (observedUntil : Option ℚ) : ℚ :=
  match observedUntil with
  | some until_ => min nowEpoch until_
  | none => nowEpoch

/-- The runs for which the live table is evidence: of the starts without a stop and of the
processes without a start. -/
def liveRuns (events : List ProcessTransition) : List Run :=
  (events.foldl (nextOpen epochSeconds) ∅).entries.filterMap (openRun activeUntil active)
    ++ active.entries.filterMap
        (seedRun epochSeconds activeUntil (events.foldl (nextOpen epochSeconds) ∅))

/-- The runs of a device. -/
def deviceRuns (events : List ProcessTransition) : List Run :=
  closedRuns epochSeconds ∅ events ++ liveRuns epochSeconds activeUntil active events

/-- The pairing yields the runs of the device clipped to the window. -/
theorem pairIntervals_eq (events : List ProcessTransition) (observedUntil : Option ℚ) :
    (pairIntervals epochSeconds windowStart nowEpoch events active observedUntil).1
      = (deviceRuns epochSeconds (confirmedUntil nowEpoch observedUntil) active events).filterMap
          (Run.clip windowStart nowEpoch) := by
  obtain ⟨hclosed, hopens⟩ := paired_spec epochSeconds windowStart nowEpoch events
  obtain ⟨hopen, hsame⟩ := @Pairing.foldl_spec windowStart nowEpoch _ _
    (fun _ => openRun (confirmedUntil nowEpoch observedUntil) active)
    (fun p entry => p.extendOpen_spec windowStart nowEpoch
      (confirmedUntil nowEpoch observedUntil) active entry)
    (paired epochSeconds windowStart nowEpoch events).open_.entries
    (paired epochSeconds windowStart nowEpoch events)
  obtain ⟨hseed, -⟩ := Pairing.foldl_spec windowStart nowEpoch
    (fun p entry => p.seed_spec epochSeconds windowStart nowEpoch
      (confirmedUntil nowEpoch observedUntil) entry)
    active.entries
    ((paired epochSeconds windowStart nowEpoch events).open_.entries.foldl
      (Pairing.extendOpen windowStart nowEpoch (confirmedUntil nowEpoch observedUntil) active)
      (paired epochSeconds windowStart nowEpoch events))
  rw [hopen, hsame, hclosed] at hseed
  rw [deviceRuns, liveRuns, ← hopens, List.filterMap_append, List.filterMap_append,
    ← List.append_assoc]
  exact hseed

/-! ### A process that stops now -/

variable {epochSeconds windowStart nowEpoch active}

/-- The stop of a live process, observed now and with the workload that the live entry has. -/
structure ProcessTransition.StopsNow (epochSeconds : String → Option ℚ) (nowEpoch : ℚ)
    (key : ProcessKey) (process : GpuProcess) (stop : ProcessTransition) : Prop where
  event : stop.event = "stopped"
  pid : stop.pid = key.1
  name : stop.name = key.2
  observedAt : epochSeconds stop.observedAt = some nowEpoch
  workload : stop.workload = process.workload.map (·.toDict)

variable {events : List ProcessTransition} {key : ProcessKey} {process : GpuProcess}
  {stop : ProcessTransition} {started : ℚ} {workload : Option WorkloadDict} {open_ : OpenStarts}

/-- The stop closes the open start. -/
theorem closedRun_stop (hopen : open_.get? key = some (started, workload))
    (hstop : stop.StopsNow epochSeconds nowEpoch key process) :
    closedRun epochSeconds open_ stop
        = some ⟨started, nowEpoch, workloadOr workload (process.workload.map (·.toDict))⟩
      ∧ nextOpen epochSeconds open_ stop = open_.erase key := by
  have hkey : ((stop.pid, stop.name) : ProcessKey) = key := Prod.ext hstop.pid hstop.name
  have hstopped : ¬ "stopped" = "started" := by decide
  simp [closedRun, nextOpen, hstop.observedAt, hkey, hopen, hstop.event, hstop.workload]

/-- The runs that more transitions close come after those before. -/
theorem closedRuns_append (events : List ProcessTransition) (stop : ProcessTransition)
    (open_ : OpenStarts) :
    closedRuns epochSeconds open_ (events ++ [stop])
      = closedRuns epochSeconds open_ events
        ++ (closedRun epochSeconds (events.foldl (nextOpen epochSeconds) open_) stop).toList := by
  induction events generalizing open_ with
  | nil => simp [closedRuns]
  | cons event rest ih =>
    rw [List.cons_append, closedRuns, ih, closedRuns, List.append_assoc, List.foldl_cons]

/-- A live process with an open start has one live run, of the start. -/
theorem liveRuns_perm (hactive : active.get? key = some process)
    (hopen : (events.foldl (nextOpen epochSeconds) ∅).get? key = some (started, workload))
    (hstop : stop.StopsNow epochSeconds nowEpoch key process) :
    (liveRuns epochSeconds nowEpoch active events).Perm
      (⟨started, nowEpoch, workload⟩
        :: liveRuns epochSeconds nowEpoch (active.erase key) (events ++ [stop])) := by
  have hother : ∀ {ν : Type} (d : Dict ProcessKey ν) (entry : ProcessKey × ν),
      entry ∈ (d.erase key).entries → entry.1 ≠ key := by
    intro ν d entry hentry
    simpa [Dict.erase] using (List.mem_filter.mp hentry).2
  have hnext : (events ++ [stop]).foldl (nextOpen epochSeconds) ∅
      = (events.foldl (nextOpen epochSeconds) ∅).erase key := by
    rw [List.foldl_append, List.foldl_cons, List.foldl_nil]
    exact (closedRun_stop hopen hstop).2
  rw [liveRuns, liveRuns, hnext]
  generalize events.foldl (nextOpen epochSeconds) ∅ = open_ at hopen
  have hopens : (open_.erase key).entries.filterMap (openRun nowEpoch (active.erase key))
      = (open_.erase key).entries.filterMap (openRun nowEpoch active) :=
    List.filterMap_congr fun entry hentry => by
      rw [openRun, openRun, Dict.contains_eq, Dict.contains_eq, Dict.get?_erase,
        if_neg (hother open_ entry hentry)]
  have hseeds : (active.erase key).entries.filterMap
        (seedRun epochSeconds nowEpoch (open_.erase key))
      = (active.erase key).entries.filterMap (seedRun epochSeconds nowEpoch open_) :=
    List.filterMap_congr fun entry hentry => by
      rw [seedRun, seedRun, Dict.contains_eq, Dict.contains_eq, Dict.get?_erase,
        if_neg (hother active entry hentry)]
  have hlive : openRun nowEpoch active (key, started, workload)
      = some ⟨started, nowEpoch, workload⟩ := by
    rw [openRun, Dict.contains_eq, hactive]
    rfl
  have hseed : seedRun epochSeconds nowEpoch open_ (key, process) = none := by
    rw [seedRun, Dict.contains_eq, hopen]
    rfl
  have hopenPerm := (open_.entries_perm_erase hopen).filterMap (openRun nowEpoch active)
  have hseedPerm := (active.entries_perm_erase hactive).filterMap
    (seedRun epochSeconds nowEpoch open_)
  rw [List.filterMap_cons_some hlive] at hopenPerm
  rw [List.filterMap_cons_none hseed] at hseedPerm
  rw [hopens, hseeds, ← List.cons_append]
  exact hopenPerm.append hseedPerm

/-- Two clipped runs of one time are the same when nothing is left of them or they have the
same attribution. -/
theorem clip_perm_iff (first second : Option WorkloadDict) :
    ((Run.mk started nowEpoch first).clip windowStart nowEpoch).toList.Perm
        ((Run.mk started nowEpoch second).clip windowStart nowEpoch).toList
      ↔ nowEpoch ≤ max started windowStart ∨ attribution first = attribution second := by
  unfold Run.clip
  rw [min_self]
  by_cases hempty : nowEpoch ≤ max started windowStart
  · simp only [hempty, true_or, iff_true]
    exact List.Perm.refl _
  · simp [hempty, Prod.ext_iff]

/-- Only the workload of the stop decides whether the fallback changes the attribution. -/
theorem attribution_workloadOr_iff (first second : Option WorkloadDict) :
    attribution first = attribution (workloadOr first second)
      ↔ (∃ fields, first = some fields ∧ fields.entries ≠ [])
        ∨ attribution second = (none, "process") := by
  cases first with
  | none => simp [workloadOr, attribution, workloadText, eq_comm]
  | some fields =>
    by_cases hempty : fields.entries = []
    · have hnone : attribution (some fields) = (none, "process") := by
        simp [attribution, workloadText, Dict.get?, hempty, Dict.lookup]
      simp [workloadOr, hempty, hnone, eq_comm]
    · simp [workloadOr, hempty]

/-- A process with an open start holds the device for the same intervals under the same owner
and workload kind, whether it is still live or stops now with the workload of its live entry,
exactly when nothing of its run is left in the window, its start has a workload, or its live
entry's workload attributes nothing. -/
theorem stop_keeps_attribution_iff (observedUntil : Option ℚ)
    (hconfirmed : ∀ until_ ∈ observedUntil, nowEpoch ≤ until_)
    (hopen : (paired epochSeconds windowStart nowEpoch events).open_.get? key
      = some (started, workload))
    (hactive : active.get? key = some process)
    (hstop : stop.StopsNow epochSeconds nowEpoch key process) :
    (pairIntervals epochSeconds windowStart nowEpoch events active observedUntil).1.Perm
        (pairIntervals epochSeconds windowStart nowEpoch (events ++ [stop]) (active.erase key)
          observedUntil).1
      ↔ nowEpoch ≤ max started windowStart
        ∨ (∃ fields, workload = some fields ∧ fields.entries ≠ [])
        ∨ attribution (process.workload.map (·.toDict)) = (none, "process") := by
  have huntil : confirmedUntil nowEpoch observedUntil = nowEpoch := by
    cases observedUntil with
    | none => rfl
    | some until_ => exact min_eq_left (hconfirmed until_ rfl)
  rw [(paired_spec epochSeconds windowStart nowEpoch events).2] at hopen
  have hlive := liveRuns_perm hactive hopen hstop
  have hclosed := (closedRun_stop hopen hstop).1
  rw [pairIntervals_eq, pairIntervals_eq, huntil, ← attribution_workloadOr_iff, ← clip_perm_iff]
  rw [deviceRuns, deviceRuns, closedRuns_append, hclosed]
  have hfirst := (hlive.append_left (closedRuns epochSeconds ∅ events)).filterMap
    (Run.clip windowStart nowEpoch)
  rw [hfirst.congr_left, Option.toList_some, List.append_assoc, List.singleton_append,
    List.filterMap_append, List.filterMap_append, List.perm_append_left_iff,
    filterMap_cons_toList, filterMap_cons_toList, List.perm_append_right_iff]

/-- A process whose workload was not known yet when it started. -/
private def anonymousStart : ProcessTransition where
  observedAt := "start"
  event := "started"
  pid := 7
  name := "python"
  workload := none
  firstSeenAt := none

/-- The process in the live table, whose workload is known by now. -/
private def knownByNow : GpuProcess where
  pid := 7
  name := "python"
  usedMemoryMib := none
  workload := some { kind := .slurm, owner := some "ada" }

/-- The stop of the process. -/
private def knownStop : ProcessTransition where
  observedAt := "now"
  event := "stopped"
  pid := 7
  name := "python"
  workload := knownByNow.workload.map (·.toDict)
  firstSeenAt := none

/-- The process starts at zero and is looked at after one hour. -/
private def startToNow (text : String) : Option ℚ := if text = "start" then some 0 else some 3600

private theorem knownStop_stopsNow :
    knownStop.StopsNow startToNow 3600 (7, "python") knownByNow :=
  ⟨rfl, rfl, rfl, rfl, rfl⟩

theorem stop_keeps_attribution_iff_knownByNow :
    (pairIntervals startToNow 0 3600 [anonymousStart]
        (Dict.ofList [((7, "python"), knownByNow)]) none).1.Perm
      (pairIntervals startToNow 0 3600 ([anonymousStart] ++ [knownStop])
        ((Dict.ofList [((7, "python"), knownByNow)]).erase (7, "python")) none).1
      ↔ (3600 : ℚ) ≤ max 0 0
        ∨ (∃ fields : WorkloadDict, none = some fields ∧ fields.entries ≠ [])
        ∨ attribution (knownByNow.workload.map (·.toDict)) = (none, "process") :=
  stop_keeps_attribution_iff none (by simp) (by decide +kernel) rfl knownStop_stopsNow

/-- Stopping a process moves its run to the owner that the start did not know. -/
theorem stop_attributes_late :
    knownStop.StopsNow startToNow 3600 (7, "python") knownByNow
      ∧ (paired startToNow 0 3600 [anonymousStart]).open_.get? (7, "python") = some (0, none)
      ∧ ¬ (pairIntervals startToNow 0 3600 [anonymousStart]
            (Dict.ofList [((7, "python"), knownByNow)]) none).1.Perm
          (pairIntervals startToNow 0 3600 ([anonymousStart] ++ [knownStop])
            ((Dict.ofList [((7, "python"), knownByNow)]).erase (7, "python")) none).1 := by
  refine ⟨knownStop_stopsNow, by decide +kernel, by decide +kernel⟩

end Pairing

end Mocop
