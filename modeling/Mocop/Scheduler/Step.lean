import Mocop.Lib.Runs
import Mocop.Scheduler.State

/-!
# `Mocop.Scheduler.Step`: the steps of the service

An `Event` is what one thread does between two points where another may come in: a locked
section of the scheduler's round, the whole locked part of a configuration update, a manual
request, or one use of the tables of the collector by a worker. `step` is none where the event
cannot happen. What the code reads from outside (clocks, discovered hosts, probe outputs) is
part of the event, so a run is any interleaving with any readings.

A completed probe goes through three steps of the scheduler. It is taken out of flight and
compared with the host table (`complete`), its outcome is recorded or its late records are
dropped (`settle`), and the store takes the sample in (`applyResult`). An update may come in
between.
-/

set_option autoImplicit false

namespace Mocop.Scheduler

open Probe (ParsedResource)

/-- What a thread does. -/
inductive Event where
  /-- `update_config`. Without found hosts the discovery failed, and the known ones stay. -/
  | updateConfig (config : MonitorConfig) (found : Option HostList)
  /-- The poll interval is set at runtime. -/
  | setPollInterval (seconds : ℚ)
  /-- `request_probe`. -/
  | requestProbe (host : String) (now : ℚ)
  /-- The top of a round: the configuration, the clock, and whether a dashboard is open. -/
  | snapshot (now : ℚ) (attended : Bool)
  /-- The inventory section, with the hosts that this round discovered. -/
  | adoptHosts (found : Option HostList)
  /-- The deadlines of failing hosts. -/
  | rebase
  /-- The manual requests. -/
  | takeRequests
  /-- The deadlines of healthy hosts. -/
  | repace
  /-- A completed probe is taken out of flight. -/
  | complete (future : ℕ)
  /-- Its outcome is recorded. -/
  | settle (completedAt : ℚ)
  /-- Its sample is handed to the store. -/
  | applyResult
  /-- The submissions of the round. -/
  | submit (startedAt : ℚ)
  /-- A worker starts and asks whether processes are due. -/
  | startProbe (future : ℕ) (now : ℚ)
  /-- A worker returns a failure, or raises. -/
  | failProbe (future : ℕ) (failure : Option Probe.ProbeResult)
  /-- A worker has parsed a payload and computes the system metrics. -/
  | sampleSystem (future : ℕ) (parsed : ParsedResource) (observedMonotonic : ℚ)
  /-- A worker takes in the processes and returns its sample. -/
  | mergeProcesses (future : ℕ) (observedAt : String) (latencyMs : ℤ) (transportRetries : ℕ)

/-- `unexpected_probe_result`. -/
def unexpectedProbeResult (host : String) : Probe.ProbeResult :=
  { host, status := .error, latencyMs := 0, message := some "Unexpected collector error" }

namespace State

/-- `update_config`: the whole section under the configuration lock. -/
def updateConfig (state : State) (config : MonitorConfig) (found : Option HostList) : State :=
  let discovered := ((found.map (·.1)).getD state.discovered).filter
    fun host => decide (host ∉ config.excludeHosts)
  { state.install discovered with
    pollIntervalSeconds := config.pollIntervalSeconds
    runtimeHosts := state.runtimeHosts.filter (· ∈ discovered)
    manualProbeRequests := state.manualProbeRequests.filter (· ∈ discovered)
    config
    generation := state.generation + 1 }

/-- `request_probe`: queued when the host is known, idle, not queued and not too soon. -/
def requestProbe (state : State) (host : String) (now : ℚ) : State :=
  if host ∉ state.runtimeHosts ∨ host ∈ state.runtimeInFlight
      ∨ host ∈ state.manualProbeRequests then state
  else if ((state.lastManualProbeAt.get? host).any fun last =>
      decide (now - last < state.config.manualProbeCooldownSeconds)) then state
  else
    { state with
      manualProbeRequests := state.manualProbeRequests ++ [host]
      lastManualProbeAt := state.lastManualProbeAt.set host now }

/-- The inventory section of a round. A round whose configuration was replaced starts over. -/
def adoptHosts (state : State) (round : Round) (found : Option HostList) : State :=
  if round.generation ≠ state.generation then { state with phase := .waiting }
  else
    let installed := match found with
      | none => state
      | some hosts =>
        state.install (hosts.1.filter fun host => decide (host ∉ round.config.excludeHosts))
    { installed.activate with phase := .admitted round }

/-- The probe in flight with a number. -/
def flight (state : State) (future : ℕ) : Option Flight :=
  state.inFlight.find? fun flight => flight.task.future == future

/-- A worker moves on. -/
def advance (state : State) (future : ℕ) (stage : Stage) : State :=
  { state with
    inFlight := state.inFlight.map fun flight =>
      if flight.task.future = future then { flight with stage } else flight }

/-- A completed probe is taken out of flight. It applies to an active host that still has the
incarnation it was submitted for. -/
def complete (state : State) (round : Round) (task : Task) (outcome : Option Probe.ProbeResult) :
    State :=
  { state with
    inFlight := state.inFlight.eraseP fun flight => flight.task.future == task.future
    inFlightHosts := state.inFlightHosts.filter (· ≠ task.host)
    runtimeInFlight := state.runtimeInFlight.filter (· ≠ task.host)
    phase := .settling round task (outcome.getD (unexpectedProbeResult task.host))
      (decide (task.host ∈ state.activeHosts)
        && decide (state.hosts.incarnation task.host = some task.incarnation)) }

/-- The submissions of a round. A round whose configuration was replaced submits nothing. -/
def submit (state : State) (round : Round) (startedAt : ℚ) : State :=
  if round.generation ≠ state.generation then { state with phase := .waiting }
  else
    { (state.dueHosts round).foldl (submitHost round startedAt) state with phase := .waiting }

end State

/-- The sample that a worker returns. -/
def sampleOf (task : Task) (parsed : ParsedResource) (system : Probe.SystemMetrics)
    (gpus : List Probe.GpuMetrics) (latencyMs : ℤ) (transportRetries : ℕ) : Probe.ProbeResult :=
  { host := task.host
    status := .online
    latencyMs
    gpus
    message := parsed.gpuMessage
    system := some system
    transportRetries }

section
variable (jitterUnit : String → ℕ → ℚ)

/-- One step of the scheduler thread, in the phases where it takes it. -/
def scheduleStep (state : State) : Event → Option State
  | .snapshot now attended =>
    match state.phase with
    | .waiting => some { state with
        collector := state.collector.setAttended attended
        phase := .discovering { config := state.config, generation := state.generation, now } }
    | _ => none
  | .adoptHosts found =>
    match state.phase with
    | .discovering round => some (state.adoptHosts round found)
    | _ => none
  | .rebase =>
    match state.phase with
    | .admitted round =>
      some { state.rebaseFailureBackoff jitterUnit round with phase := .rebased round }
    | _ => none
  | .takeRequests =>
    match state.phase with
    | .rebased round =>
      some { state.manuallyDue.foldl State.dueNow state with phase := .requested round }
    | _ => none
  | .repace =>
    match state.phase with
    | .requested round => some { state.repace round with phase := .draining round }
    | _ => none
  | .complete future =>
    match state.phase, state.flight future with
    | .draining round, some ⟨task, .finished outcome⟩ =>
      some (state.complete round task outcome)
    | _, _ => none
  | .settle completedAt =>
    match state.phase with
    | .settling round task result true =>
      let recorded := state.recordOutcome jitterUnit task result completedAt
      some { recorded.1 with phase := .applying round task result recorded.2 }
    | .settling round _ _ false =>
      -- A late probe may have left records of a removed host.
      some { state with
        collector := state.collector.retainHosts state.activeHosts
        phase := .draining round }
    | _ => none
  | .applyResult =>
    match state.phase with
    | .applying round task result retryAfterSeconds =>
      some { state with
        hosts := state.hosts.apply ⟨task.host, task.incarnation, result⟩ retryAfterSeconds
        phase := .draining round }
    | _ => none
  | .submit startedAt =>
    match state.phase with
    | .draining round => some (state.submit round startedAt)
    | _ => none
  | _ => none

/-- One step of a worker. -/
def workerStep (state : State) : Event → Option State
  | .startProbe future now =>
    match state.flight future with
    | some ⟨task, .submitted⟩ =>
      let due := state.collector.processesDue task.host now
        task.config.gpuProcessPollIntervalSeconds task.config.workloadsMode
      some (state.advance future (.collecting now due))
    | _ => none
  | .failProbe future failure =>
    match state.flight future with
    | some ⟨_, .finished _⟩ => none
    | some ⟨task, _⟩ =>
      if failure.all fun result => result.host == task.host && result.status != .online then
        some (state.advance future (.finished failure))
      else none
    | _ => none
  | .sampleSystem future parsed observedMonotonic =>
    match state.flight future with
    | some ⟨task, .collecting started sampled⟩ =>
      let metrics := state.collector.systemMetrics task.host task.incarnation parsed.system
        observedMonotonic
      some { state.advance future (.merging started sampled parsed metrics.1) with
        collector := metrics.2 }
    | _ => none
  | .mergeProcesses future observedAt latencyMs transportRetries =>
    match state.flight future with
    | some ⟨task, .merging started sampled parsed system⟩ =>
      let merged := state.collector.mergeProcessSample task.host task.incarnation parsed.gpus
        sampled parsed.processesAvailable started observedAt task.config.workloadsMode
        task.config.thresholds
      let result := sampleOf task parsed system merged.1 latencyMs transportRetries
      some { state.advance future (.finished (some result)) with collector := merged.2 }
    | _ => none
  | _ => none

/-- One step of the service. A scheduler that crashed takes no further step. -/
def step (state : State) (event : Event) : Option State :=
  match event with
  | .updateConfig config found => some (state.updateConfig config found)
  | .setPollInterval seconds => some { state with pollIntervalSeconds := seconds }
  | .requestProbe host now => some (state.requestProbe host now)
  | .startProbe .. | .failProbe .. | .sampleSystem .. | .mergeProcesses .. =>
    workerStep state event
  | _ => if state.crashed then none else scheduleStep jitterUnit state event

/-- The states that a run of the service reaches by steps that are allowed where they
happen. -/
abbrev RunWhere (allowed : State → Event → Prop) (start : State) : List Event → State → Prop :=
  Mocop.RunWhere (step jitterUnit) allowed start

/-- The states that a run of the service reaches. -/
abbrev Run : State → List Event → State → Prop := RunWhere jitterUnit fun _ _ => True

end

/-- The steps of the service, one constructor for what a thread does at a time: the phase that it
needs and the state that it leaves. -/
inductive Stepped (jitterUnit : String → ℕ → ℚ) (state : State) : Event → State → Prop
  | updateConfig (config : MonitorConfig) (found : Option HostList) :
      Stepped jitterUnit state (.updateConfig config found) (state.updateConfig config found)
  | setPollInterval (seconds : ℚ) :
      Stepped jitterUnit state (.setPollInterval seconds)
        { state with pollIntervalSeconds := seconds }
  | requestProbe (host : String) (now : ℚ) :
      Stepped jitterUnit state (.requestProbe host now) (state.requestProbe host now)
  | worker {event : Event} {next : State} : workerStep state event = some next →
      Stepped jitterUnit state event next
  | snapshot (now : ℚ) (attended : Bool) : state.phase = .waiting →
      Stepped jitterUnit state (.snapshot now attended) { state with
        collector := state.collector.setAttended attended
        phase := .discovering { config := state.config, generation := state.generation, now } }
  | adoptHosts {round : Round} (found : Option HostList) : state.phase = .discovering round →
      Stepped jitterUnit state (.adoptHosts found) (state.adoptHosts round found)
  | rebase {round : Round} : state.phase = .admitted round →
      Stepped jitterUnit state .rebase
        { state.rebaseFailureBackoff jitterUnit round with phase := .rebased round }
  | takeRequests {round : Round} : state.phase = .rebased round →
      Stepped jitterUnit state .takeRequests
        { state.manuallyDue.foldl State.dueNow state with phase := .requested round }
  | repace {round : Round} : state.phase = .requested round →
      Stepped jitterUnit state .repace { state.repace round with phase := .draining round }
  | complete {round : Round} {future : ℕ} {task : Task} {outcome : Option Probe.ProbeResult} :
      state.phase = .draining round → state.flight future = some ⟨task, .finished outcome⟩ →
      Stepped jitterUnit state (.complete future) (state.complete round task outcome)
  | settle {round : Round} {task : Task} {result : Probe.ProbeResult} (completedAt : ℚ) :
      state.phase = .settling round task result true →
      Stepped jitterUnit state (.settle completedAt)
        { (state.recordOutcome jitterUnit task result completedAt).1 with
          phase := .applying round task result
            (state.recordOutcome jitterUnit task result completedAt).2 }
  | dropLate {round : Round} {task : Task} {result : Probe.ProbeResult} (completedAt : ℚ) :
      state.phase = .settling round task result false →
      Stepped jitterUnit state (.settle completedAt) { state with
        collector := state.collector.retainHosts state.activeHosts
        phase := .draining round }
  | applyResult {round : Round} {task : Task} {result : Probe.ProbeResult}
      {retryAfterSeconds : Option ℚ} :
      state.phase = .applying round task result retryAfterSeconds →
      Stepped jitterUnit state .applyResult { state with
        hosts := state.hosts.apply ⟨task.host, task.incarnation, result⟩ retryAfterSeconds
        phase := .draining round }
  | submit {round : Round} (startedAt : ℚ) : state.phase = .draining round →
      Stepped jitterUnit state (.submit startedAt) (state.submit round startedAt)

/-- What a step of the service can be. -/
theorem stepped_of_step {jitterUnit : String → ℕ → ℚ} {state next : State} {event : Event}
    (h : step jitterUnit state event = some next) : Stepped jitterUnit state event next := by
  -- A crashed scheduler takes no step, so the steps of the round are those of `scheduleStep`.
  have hscheduled : (if state.crashed then none else scheduleStep jitterUnit state event)
      = some next → scheduleStep jitterUnit state event = some next := by
    intro h
    split at h
    · cases h
    · exact h
  have hworker : workerStep state event = some next → Stepped jitterUnit state event next :=
    Stepped.worker
  cases event with
  | updateConfig config found =>
    cases h
    exact .updateConfig config found
  | setPollInterval seconds =>
    cases h
    exact .setPollInterval seconds
  | requestProbe host now =>
    cases h
    exact .requestProbe host now
  | startProbe | failProbe | sampleSystem | mergeProcesses => exact hworker h
  | snapshot now attended =>
    have h := hscheduled h
    dsimp only [scheduleStep] at h
    split at h
    · next hphase => cases h; exact .snapshot now attended hphase
    · cases h
  | adoptHosts found =>
    have h := hscheduled h
    dsimp only [scheduleStep] at h
    split at h
    · next hphase => cases h; exact .adoptHosts found hphase
    · cases h
  | rebase =>
    have h := hscheduled h
    dsimp only [scheduleStep] at h
    split at h
    · next hphase => cases h; exact .rebase hphase
    · cases h
  | takeRequests =>
    have h := hscheduled h
    dsimp only [scheduleStep] at h
    split at h
    · next hphase => cases h; exact .takeRequests hphase
    · cases h
  | repace =>
    have h := hscheduled h
    dsimp only [scheduleStep] at h
    split at h
    · next hphase => cases h; exact .repace hphase
    · cases h
  | complete future =>
    have h := hscheduled h
    dsimp only [scheduleStep] at h
    split at h
    · next hphase hflight => cases h; exact .complete hphase hflight
    · cases h
  | settle completedAt =>
    have h := hscheduled h
    dsimp only [scheduleStep] at h
    split at h
    · next hphase => cases h; exact .settle completedAt hphase
    · next hphase => cases h; exact .dropLate completedAt hphase
    · cases h
  | applyResult =>
    have h := hscheduled h
    dsimp only [scheduleStep] at h
    split at h
    · next hphase => cases h; exact .applyResult hphase
    · cases h
  | submit startedAt =>
    have h := hscheduled h
    dsimp only [scheduleStep] at h
    split at h
    · next hphase => cases h; exact .submit startedAt hphase
    · cases h

/-- A probe in flight is in flight, under its number. -/
theorem State.flight_eq {state : State} {future : ℕ} {found : Flight}
    (h : state.flight future = some found) :
    found ∈ state.inFlight ∧ found.task.future = future :=
  ⟨List.mem_of_find?_eq_some h, by simpa using List.find?_some h⟩

/-- The probe that is taken out of flight is the one that was found. -/
theorem State.perm_flight {state : State} {future : ℕ} {found : Flight}
    (h : state.flight future = some found) :
    state.inFlight.Perm
      (found :: state.inFlight.eraseP fun flight => flight.task.future == found.task.future) := by
  rw [(flight_eq h).2]
  obtain ⟨hfuture, before, after, heq, hbefore⟩ := List.find?_eq_some_iff_append.mp h
  have hskip : ∀ flight ∈ before, ¬ (flight.task.future == future) = true := by
    intro flight hflight
    simpa using hbefore flight hflight
  have hfirst : (found :: after).eraseP (fun flight => flight.task.future == future) = after :=
    List.eraseP_cons_of_pos hfuture
  have herase : state.inFlight.eraseP (fun flight => flight.task.future == future)
      = before ++ after := by
    rw [heq, List.eraseP_append_right _ hskip, hfirst]
  rw [herase, heq]
  exact List.perm_middle

end Mocop.Scheduler
