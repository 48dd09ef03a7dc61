import Mocop.Lib.Sorting
import Mocop.Probe.Collector

/-!
# `Mocop.Scheduler.State`: the state of the scheduler

`MonitorService` of `service_scheduler.py` runs one scheduler thread and a pool of probe
workers. Configuration updates, manual requests and the workers run beside the scheduler, and
each of them takes its locks in between the steps of a round. The state holds what these
threads share, the locals of the scheduler thread, and where the thread stands in its round.

The store appears as its host table: the monitored hosts with their incarnations and the
samples taken in for each. A host that is added again gets a new incarnation, and a sample
is only taken in for the incarnation that it was probed for.

The records of the failure counts, of the deadlines and of the healthy starts carry the
incarnation that they were made for, as those of the collector do. Nothing reads it.
-/

set_option autoImplicit false

namespace Mocop.Scheduler

open Probe (Recorded Collector ParsedResource)

/-- The hosts of a discovery: the sorted members of a set. -/
abbrev HostList := { hosts : List String // hosts.Nodup }

/-- The settings that the scheduler and the collector read. `hostPollIntervals` are the host
overrides with a poll interval. -/
structure MonitorConfig where
  excludeHosts : List String := []
  maxWorkers : ℕ
  retryJitterPct : ℚ := 0
  pollIntervalSeconds : ℚ
  hostPollIntervals : Dict String ℚ := ∅
  gpuProcessPollIntervalSeconds : ℚ := 15
  workloadsMode : String := "basic"
  thresholds : ThresholdConfig := {}
  manualProbeCooldownSeconds : ℚ := 0

/-! ### The host table of the store -/

/-- A completed probe: the host and the incarnation that it was submitted for. -/
structure Completed where
  host : String
  incarnation : ℕ
  result : Probe.ProbeResult

/-- A monitored host: its incarnation, the samples taken in for it and the announced retry. -/
structure ServerRecord where
  incarnation : ℕ
  applied : List Completed := []
  retryAfterSeconds : Option ℚ := none

/-- The monitored hosts. -/
structure HostTable where
  servers : Dict String ServerRecord := ∅
  nextIncarnation : ℕ := 1

namespace HostTable

/-- The incarnation of a host. -/
def incarnation (table : HostTable) (host : String) : Option ℕ :=
  (table.servers.get? host).map (·.incarnation)

/-- Adds a host under a new incarnation. -/
def addServer (table : HostTable) (host : String) : HostTable :=
  if table.servers.contains host then table
  else
    { servers := table.servers.set host { incarnation := table.nextIncarnation }
      nextIncarnation := table.nextIncarnation + 1 }

/-- Installs the monitored hosts. -/
def setHosts (table : HostTable) (hosts : List String) : HostTable :=
  hosts.foldl addServer { table with servers := table.servers.filterKeys (· ∈ hosts) }

/-- Takes a sample in, for the incarnation it was probed for. -/
def apply (table : HostTable) (sample : Completed) (retryAfterSeconds : Option ℚ) : HostTable :=
  match table.servers.get? sample.result.host with
  | none => table
  | some server =>
    if server.incarnation ≠ sample.incarnation then table
    else
      { table with
        servers := table.servers.set sample.result.host
          { server with applied := server.applied ++ [sample], retryAfterSeconds } }

/-- Announces another retry for a host whose last sample failed. -/
def rescheduleRetry (table : HostTable) (host : String) (seconds : ℚ) : HostTable :=
  match table.servers.get? host with
  | none => table
  | some server =>
    if server.applied.getLast?.any (fun sample => sample.result.status = .online) then table
    else
      { table with
        servers := table.servers.set host { server with retryAfterSeconds := some seconds } }

end HostTable

/-! ### Probes in flight -/

/-- A submitted probe. -/
structure Task where
  future : ℕ
  host : String
  startedAt : ℚ
  incarnation : ℕ
  config : MonitorConfig

/-- How far the worker of a probe is: it has asked whether processes are due, it has computed
the system metrics, or it has returned or raised. -/
inductive Stage where
  | submitted
  | collecting (started : ℚ) (processSampled : Bool)
  | merging (started : ℚ) (processSampled : Bool) (parsed : ParsedResource)
      (system : Probe.SystemMetrics)
  | finished (result : Option Probe.ProbeResult)

/-- A probe in flight. -/
structure Flight where
  task : Task
  stage : Stage := .submitted

/-- What a round read at its start. -/
structure Round where
  config : MonitorConfig
  generation : ℕ
  now : ℚ

/-- Where the scheduler stands in its round. -/
inductive Phase where
  | waiting
  | discovering (round : Round)
  | admitted (round : Round)
  | rebased (round : Round)
  | requested (round : Round)
  | draining (round : Round)
  | settling (round : Round) (task : Task) (result : Probe.ProbeResult) (applies : Bool)
  | applying (round : Round) (task : Task) (result : Probe.ProbeResult) (retryAfterSeconds : Option ℚ)

/-- The state of the service. -/
structure State where
  config : MonitorConfig
  generation : ℕ := 0
  discovered : List String := []
  hosts : HostTable := {}
  pollIntervalSeconds : ℚ
  failureCounts : Dict String (Recorded ℕ) := ∅
  nextProbeAt : Dict String (Recorded ℚ) := ∅
  backoffPolicies : Dict String (Recorded (ℚ × ℚ)) := ∅
  runtimeHosts : List String := []
  runtimeInFlight : List String := []
  manualProbeRequests : List String := []
  lastManualProbeAt : Dict String ℚ := ∅
  inFlight : List Flight := []
  inFlightHosts : List String := []
  activeHosts : List String := []
  healthyStartedAt : Dict String (Recorded ℚ) := ∅
  healthyIntervals : Dict String (Recorded ℚ) := ∅
  nextFuture : ℕ := 0
  collector : Collector := {}
  phase : Phase := .waiting
  /-- The scheduler thread ended with an exception. -/
  crashed : Bool := false

/-- The service before its first round. -/
def State.start (config : MonitorConfig) : State :=
  { config, pollIntervalSeconds := config.pollIntervalSeconds }

def maxFailureBackoffSeconds : ℚ := 60

section
variable (jitterUnit : String → ℕ → ℚ)

/-- The delay after a number of failures. `jitterUnit` is the checksum of the host and the
number, as a share of its range. -/
def backoffDelay (intervalSeconds : ℚ) (failures : ℕ) (host : String) (jitterPct : ℚ) : ℚ :=
  let baseDelay := min maxFailureBackoffSeconds (intervalSeconds * 2 ^ min (failures - 1) 10)
  if jitterPct ≤ 0 then baseDelay
  else baseDelay * (1 - jitterPct / 100 * jitterUnit host failures)

namespace State

/-- The poll interval of a host. -/
def hostPollInterval (state : State) (host : String) (config : MonitorConfig) : ℚ :=
  (config.hostPollIntervals.get? host).getD state.pollIntervalSeconds

/-- Moves the deadline of a failing host to its present interval and jitter. -/
def rebaseHost (round : Round) (state : State) (entry : String × Recorded ℕ) : State :=
  let host := entry.1
  let policy := (state.hostPollInterval host round.config, round.config.retryJitterPct)
  match state.nextProbeAt.get? host with
  | none => state
  | some deadline =>
    let previous := ((state.backoffPolicies.get? host).map (·.value)).getD policy
    if policy = previous then state
    else
      let failedAt := deadline.value
        - backoffDelay jitterUnit previous.1 entry.2.value host previous.2
      let moved := failedAt + backoffDelay jitterUnit policy.1 entry.2.value host policy.2
      { state with
        nextProbeAt := state.nextProbeAt.set host ⟨moved, deadline.origin⟩
        backoffPolicies := state.backoffPolicies.set host ⟨policy, entry.2.origin⟩
        hosts := state.hosts.rescheduleRetry host (max 0 (moved - round.now)) }

/-- `_rebase_failure_backoff`. -/
def rebaseFailureBackoff (state : State) (round : Round) : State :=
  state.failureCounts.entries.foldl (rebaseHost jitterUnit round) state

/-- A requested host is due at once. -/
def dueNow (state : State) (host : String) : State :=
  { state with
    nextProbeAt := state.nextProbeAt.set host ⟨0, (state.hosts.incarnation host).getD 0⟩ }

/-- The hosts whose manual requests are taken up in this round. -/
def manuallyDue (state : State) : List String :=
  state.manualProbeRequests.filter fun host =>
    decide (host ∈ state.activeHosts) && decide (host ∉ state.runtimeInFlight)

/-- Moves the deadline of a healthy host to its present interval. -/
def repaceHost (round : Round) (state : State) (entry : String × Recorded ℚ) : State :=
  let host := entry.1
  if state.failureCounts.contains host ∨ host ∈ state.inFlightHosts then state
  else
    let interval := state.hostPollInterval host round.config
    if (state.healthyIntervals.get? host).map (·.value) = some interval then state
    else
      { state with
        nextProbeAt := state.nextProbeAt.set host ⟨entry.2.value + interval, entry.2.origin⟩
        healthyIntervals := state.healthyIntervals.set host ⟨interval, entry.2.origin⟩ }

/-- Moves the deadlines of the healthy hosts. -/
def repace (state : State) (round : Round) : State :=
  state.healthyStartedAt.entries.foldl (repaceHost round) state

/-- Drops the schedules of the hosts that are not active. -/
def pruneSchedules (state : State) (activeHosts : List String) : State :=
  { state with
    failureCounts := state.failureCounts.filterKeys (· ∈ activeHosts)
    nextProbeAt := state.nextProbeAt.filterKeys (· ∈ activeHosts)
    backoffPolicies := state.backoffPolicies.filterKeys (· ∈ activeHosts)
    manualProbeRequests := state.manualProbeRequests.filter (· ∈ activeHosts)
    lastManualProbeAt := state.lastManualProbeAt.filterKeys (· ∈ activeHosts)
    healthyStartedAt := state.healthyStartedAt.filterKeys (· ∈ activeHosts)
    healthyIntervals := state.healthyIntervals.filterKeys (· ∈ activeHosts) }

/-- Whether two lists have the same members. -/
def sameHosts (hosts others : List String) : Bool :=
  hosts.all (· ∈ others) && others.all (· ∈ hosts)

/-- Installs discovered hosts. -/
def install (state : State) (hosts : List String) : State :=
  { state with discovered := hosts, hosts := state.hosts.setHosts hosts }

/-- The discovered hosts become the active ones. Only when the members change are the records
of the others dropped. -/
def activate (state : State) : State :=
  let active := state.discovered
  let activated := { state with
    activeHosts := active
    runtimeHosts := active
    manualProbeRequests := state.manualProbeRequests.filter (· ∈ active) }
  if sameHosts active state.activeHosts then activated
  else
    { activated with collector := state.collector.retainHosts active }.pruneSchedules active

/-- The deadline of a host. -/
def deadline (state : State) (host : String) : ℚ :=
  ((state.nextProbeAt.get? host).map (·.value)).getD 0

/-- The hosts that a round probes: the earliest deadlines first, as many as workers are free. -/
def dueHosts (state : State) (round : Round) : List String :=
  (sortBy state.deadline (state.activeHosts.filter fun host =>
      decide (host ∉ state.inFlightHosts) && decide (state.deadline host ≤ round.now))).take
    (round.config.maxWorkers - state.inFlight.length)

/-- Submits the probe of one host. A host without an incarnation ends the scheduler. -/
def submitHost (round : Round) (startedAt : ℚ) (state : State) (host : String) : State :=
  if state.crashed then state
  else
    let state := { state with
      inFlightHosts := state.inFlightHosts.insert host
      runtimeInFlight := state.runtimeInFlight.insert host
      manualProbeRequests := state.manualProbeRequests.filter (· ≠ host)
      nextFuture := state.nextFuture + 1 }
    match state.hosts.incarnation host with
    | none => { state with crashed := true }
    | some incarnation =>
      let task : Task :=
        { future := state.nextFuture - 1, host, startedAt, incarnation, config := round.config }
      { state with inFlight := state.inFlight ++ [{ task := task }] }

/-- Notes how a completed probe of an active host ended, and when the host is due again. -/
def recordOutcome (state : State) (task : Task) (result : Probe.ProbeResult) (completedAt : ℚ) :
    State × Option ℚ :=
  let host := task.host
  let interval := state.hostPollInterval host state.config
  if result.status = .online then
    ({ state with
        failureCounts := state.failureCounts.erase host
        backoffPolicies := state.backoffPolicies.erase host
        nextProbeAt := state.nextProbeAt.set host
          ⟨max (task.startedAt + interval) completedAt, task.incarnation⟩
        healthyStartedAt := state.healthyStartedAt.set host ⟨task.startedAt, task.incarnation⟩
        healthyIntervals := state.healthyIntervals.set host ⟨interval, task.incarnation⟩ },
      none)
  else
    let failures := ((state.failureCounts.get? host).map (·.value)).getD 0 + 1
    let delay := backoffDelay jitterUnit interval failures host state.config.retryJitterPct
    ({ state with
        healthyStartedAt := state.healthyStartedAt.erase host
        healthyIntervals := state.healthyIntervals.erase host
        failureCounts := state.failureCounts.set host ⟨failures, task.incarnation⟩
        nextProbeAt := state.nextProbeAt.set host ⟨completedAt + delay, task.incarnation⟩
        backoffPolicies := state.backoffPolicies.set host
          ⟨(interval, state.config.retryJitterPct), task.incarnation⟩ },
      some delay)

end State

end

end Mocop.Scheduler
