import Mocop.Lib.KeyedFold
import Mocop.Scheduler.Step

/-!
# `Mocop.Scheduler.Schedules`: the schedule of one host

The scheduler keeps five tables by host: the failures in a row, the deadline, the policy of the
last backoff, and for a healthy host the start of its last probe and the interval it is paced
with. `State.schedule` reads the row of one host.

`step_schedule` says once what a step of the service can do to that row. Every other statement
about deadlines is derived from it.
-/

set_option autoImplicit false

namespace Mocop.Scheduler

open Probe (Recorded)

/-- The row of one host in the tables of the scheduler. -/
structure Schedule where
  failures : Option ℕ := none
  dueAt : Option ℚ := none
  policy : Option (ℚ × ℚ) := none
  startedAt : Option ℚ := none
  interval : Option ℚ := none
  deriving DecidableEq

section
variable (jitterUnit : String → ℕ → ℚ)

/-- The delay that a policy, an interval with a jitter, assigns to a number of failures. -/
abbrev policyDelay (host : String) (policy : ℚ × ℚ) (failures : ℕ) : ℚ :=
  backoffDelay jitterUnit policy.1 failures host policy.2

namespace Schedule

/-- The row after a new backoff policy: the time of the last failure is read off the deadline
and the old policy. -/
def rebased (host : String) (policy : ℚ × ℚ) (row : Schedule) : Schedule :=
  match row.failures, row.dueAt with
  | some failures, some dueAt =>
    let previous := row.policy.getD policy
    if policy = previous then row
    else { row with
      dueAt := some (dueAt - policyDelay jitterUnit host previous failures
        + policyDelay jitterUnit host policy failures)
      policy := some policy }
  | _, _ => row

/-- The row of a host that is due at once. -/
def dueNow (row : Schedule) : Schedule := { row with dueAt := some 0 }

/-- The row of an idle host after a new poll interval. -/
def repaced (interval : ℚ) (row : Schedule) : Schedule :=
  match row.startedAt with
  | some startedAt =>
    if row.failures.isSome ∨ row.interval = some interval then row
    else { row with dueAt := some (startedAt + interval), interval := some interval }
  | none => row

/-- The row after a completed probe. -/
def settled (host : String) (policy : ℚ × ℚ) (online : Bool) (startedAt completedAt : ℚ)
    (row : Schedule) : Schedule :=
  if online then
    { failures := none
      dueAt := some (max (startedAt + policy.1) completedAt)
      policy := none
      startedAt := some startedAt
      interval := some policy.1 }
  else
    let failures := row.failures.getD 0 + 1
    { failures := some failures
      dueAt := some (completedAt + policyDelay jitterUnit host policy failures)
      policy := some policy
      startedAt := none
      interval := none }

end Schedule

namespace State

/-- The row of a host. -/
def schedule (state : State) (host : String) : Schedule where
  failures := (state.failureCounts.get? host).map (·.value)
  dueAt := (state.nextProbeAt.get? host).map (·.value)
  policy := (state.backoffPolicies.get? host).map (·.value)
  startedAt := (state.healthyStartedAt.get? host).map (·.value)
  interval := (state.healthyIntervals.get? host).map (·.value)

/-- The backoff policy of a host under a configuration. -/
def policy (state : State) (config : MonitorConfig) (host : String) : ℚ × ℚ :=
  (state.hostPollInterval host config, config.retryJitterPct)

theorem deadline_eq (state : State) (host : String) :
    state.deadline host = (state.schedule host).dueAt.getD 0 := rfl

variable {jitterUnit}

/-! ### The loops over the tables -/

/-- One failing host is rebased; the rows of the others stay. -/
theorem schedule_rebaseHost {state : State} {round : Round} {entry : String × Recorded ℕ}
    (hentry : state.failureCounts.get? entry.1 = some entry.2) :
    (state.rebaseHost jitterUnit round entry).schedule entry.1
        = (state.schedule entry.1).rebased jitterUnit entry.1 (state.policy round.config entry.1)
      ∧ ∀ host, host ≠ entry.1 →
        (state.rebaseHost jitterUnit round entry).schedule host = state.schedule host := by
  have hfailures : (state.schedule entry.1).failures = some entry.2.value := by
    rw [schedule, hentry]
    rfl
  have hdefined : state.policy round.config entry.1
      = (state.hostPollInterval entry.1 round.config, round.config.retryJitterPct) := rfl
  rw [hdefined, Schedule.rebased, hfailures]
  unfold rebaseHost
  dsimp only
  generalize hpresent : (state.hostPollInterval entry.1 round.config, round.config.retryJitterPct)
    = present
  cases hdue : state.nextProbeAt.get? entry.1 with
  | none =>
    have hnone : (state.schedule entry.1).dueAt = none := by
      rw [schedule, hdue]
      rfl
    rw [hnone]
    exact ⟨rfl, fun _ _ => rfl⟩
  | some deadline =>
    have hsome : (state.schedule entry.1).dueAt = some deadline.value := by
      rw [schedule, hdue]
      rfl
    have hpolicy : (state.schedule entry.1).policy
        = (state.backoffPolicies.get? entry.1).map (·.value) := rfl
    rw [hsome, hpolicy]
    by_cases hsame : present = ((state.backoffPolicies.get? entry.1).map (·.value)).getD present
    · simp only [if_pos hsame]
      exact ⟨trivial, fun _ _ => trivial⟩
    · simp only [if_neg hsame]
      constructor
      · simp only [schedule, hentry, Dict.get?_set, if_true, Option.map_some, ← hpresent]
      · intro host hne
        simp [schedule, hne]

/-- The loop over the failing hosts. -/
theorem schedule_rebaseFailureBackoff (state : State) (round : Round) (host : String) :
    (state.rebaseFailureBackoff jitterUnit round).schedule host
      = (state.schedule host).rebased jitterUnit host (state.policy round.config host) := by
  -- No iteration changes the counts that it runs over or the poll interval.
  have hkept : ∀ (s : State) (entry : String × Recorded ℕ),
      (s.rebaseHost jitterUnit round entry).failureCounts = s.failureCounts
        ∧ (s.rebaseHost jitterUnit round entry).pollIntervalSeconds = s.pollIntervalSeconds := by
    intro s entry
    unfold rebaseHost
    dsimp only
    split
    · exact ⟨rfl, rfl⟩
    · split
      · exact ⟨rfl, rfl⟩
      · exact ⟨rfl, rfl⟩
  have hfold := @Dict.foldl_cell _ _ _ _ schedule
    (fun s => s.failureCounts = state.failureCounts
      ∧ s.pollIntervalSeconds = state.pollIntervalSeconds)
    (fun host _ row => row.rebased jitterUnit host (state.policy round.config host))
    (rebaseHost jitterUnit round) _ state.failureCounts ?_ state ⟨rfl, rfl⟩ host
  · unfold rebaseFailureBackoff
    rw [hfold]
    cases hget : state.failureCounts.get? host with
    | some failures => rfl
    | none =>
      -- A host without failures is not rebased.
      have hfailures : (state.schedule host).failures = none := by
        rw [schedule, hget]
        rfl
      dsimp only
      rw [Schedule.rebased, hfailures]
  · rintro s host failures hget ⟨hcounts, hseconds⟩
    obtain ⟨hown, hothers⟩ := @schedule_rebaseHost jitterUnit s round (host, failures)
      (hcounts ▸ hget)
    obtain ⟨hcounts', hseconds'⟩ := hkept s (host, failures)
    refine ⟨⟨hcounts'.trans hcounts, hseconds'.trans hseconds⟩, ?_, hothers⟩
    rw [hown]
    unfold State.policy hostPollInterval
    rw [hseconds]

/-- The loop over the manual requests. -/
theorem schedule_takeRequests (state : State) (host : String) :
    (state.manuallyDue.foldl dueNow state).schedule host
      = if host ∈ state.manuallyDue then (state.schedule host).dueNow else state.schedule host := by
  have hfold : ∀ (hosts : List String) (state : State),
      (hosts.foldl dueNow state).schedule host
        = if host ∈ hosts then (state.schedule host).dueNow else state.schedule host := by
    intro hosts
    induction hosts with
    | nil => exact fun _ => rfl
    | cons first rest ih =>
      intro state
      rw [List.foldl_cons, ih]
      by_cases hfirst : host = first
      · subst hfirst
        simp [schedule, dueNow, Schedule.dueNow]
      · simp [schedule, dueNow, hfirst]
  exact hfold _ state

/-- One healthy host is repaced unless it is in flight; the rows of the others stay. -/
theorem schedule_repaceHost {state : State} {round : Round} {entry : String × Recorded ℚ}
    (hentry : state.healthyStartedAt.get? entry.1 = some entry.2) :
    (repaceHost round state entry).schedule entry.1
        = (if entry.1 ∈ state.inFlightHosts then state.schedule entry.1
          else (state.schedule entry.1).repaced (state.hostPollInterval entry.1 round.config))
      ∧ ∀ host, host ≠ entry.1 →
        (repaceHost round state entry).schedule host = state.schedule host := by
  have hstarted : (state.schedule entry.1).startedAt = some entry.2.value := by
    rw [schedule, hentry]
    rfl
  have hfailures : (state.schedule entry.1).failures.isSome
      = state.failureCounts.contains entry.1 := Option.isSome_map
  have hinterval : (state.schedule entry.1).interval
      = (state.healthyIntervals.get? entry.1).map (·.value) := rfl
  rw [Schedule.repaced, hstarted]
  dsimp only
  rw [hfailures, hinterval]
  unfold repaceHost
  dsimp only
  by_cases hflight : entry.1 ∈ state.inFlightHosts
  · simp [hflight]
  · by_cases hfails : state.failureCounts.contains entry.1 = true
    · simp only [hflight, hfails, true_or, or_false, if_true, if_false]
      exact ⟨trivial, fun _ _ => trivial⟩
    · by_cases hsame : (state.healthyIntervals.get? entry.1).map (·.value)
          = some (state.hostPollInterval entry.1 round.config)
      · simp only [hflight, hfails, hsame, Bool.false_eq_true, or_true, or_false, if_true,
          if_false]
        exact ⟨trivial, fun _ _ => trivial⟩
      · simp only [hflight, hfails, hsame, Bool.false_eq_true, or_self, if_false]
        constructor
        · simp only [schedule, hentry, Dict.get?_set, if_true, Option.map_some]
        · intro host hne
          simp [schedule, hne]

/-- The loop over the healthy hosts. -/
theorem schedule_repace (state : State) (round : Round) (host : String) :
    (state.repace round).schedule host
      = if host ∈ state.inFlightHosts then state.schedule host
        else (state.schedule host).repaced (state.hostPollInterval host round.config) := by
  have hkept : ∀ (s : State) (entry : String × Recorded ℚ),
      (repaceHost round s entry).healthyStartedAt = s.healthyStartedAt
        ∧ (repaceHost round s entry).inFlightHosts = s.inFlightHosts
        ∧ (repaceHost round s entry).pollIntervalSeconds = s.pollIntervalSeconds := by
    intro s entry
    unfold repaceHost
    dsimp only
    split
    · exact ⟨rfl, rfl, rfl⟩
    · split
      · exact ⟨rfl, rfl, rfl⟩
      · exact ⟨rfl, rfl, rfl⟩
  have hfold := @Dict.foldl_cell _ _ _ _ schedule
    (fun s => s.healthyStartedAt = state.healthyStartedAt
      ∧ s.inFlightHosts = state.inFlightHosts
      ∧ s.pollIntervalSeconds = state.pollIntervalSeconds)
    (fun host _ row => if host ∈ state.inFlightHosts then row
      else row.repaced (state.hostPollInterval host round.config))
    (repaceHost round) _ state.healthyStartedAt ?_ state ⟨rfl, rfl, rfl⟩ host
  · unfold repace
    rw [hfold]
    cases hget : state.healthyStartedAt.get? host with
    | some started => rfl
    | none =>
      -- A host without a healthy start is not repaced.
      have hstarted : (state.schedule host).startedAt = none := by
        rw [schedule, hget]
        rfl
      dsimp only
      rw [Schedule.repaced, hstarted]
      exact (ite_self _).symm
  · rintro s host started hget ⟨hstarts, hflights, hseconds⟩
    obtain ⟨hown, hothers⟩ := @schedule_repaceHost s round (host, started) (hstarts ▸ hget)
    obtain ⟨hstarts', hflights', hseconds'⟩ := hkept s (host, started)
    refine ⟨⟨hstarts'.trans hstarts, hflights'.trans hflights, hseconds'.trans hseconds⟩, ?_,
      hothers⟩
    rw [hown]
    unfold hostPollInterval
    rw [hseconds, hflights]

/-- A completed probe changes the row of its host. -/
theorem schedule_recordOutcome (state : State) (task : Task) (result : Probe.ProbeResult)
    (completedAt : ℚ) (host : String) :
    (state.recordOutcome jitterUnit task result completedAt).1.schedule host
      = if host = task.host then
          (state.schedule host).settled jitterUnit host (state.policy state.config host)
            (decide (result.status = .online)) task.startedAt completedAt
        else state.schedule host := by
  unfold recordOutcome
  dsimp only
  by_cases honline : result.status = .online
  · simp only [if_pos honline]
    by_cases hhost : host = task.host
    · subst hhost
      simp [schedule, Schedule.settled, honline, policy]
    · simp [schedule, hhost]
  · simp only [if_neg honline]
    by_cases hhost : host = task.host
    · subst hhost
      simp only [schedule, Schedule.settled, honline, policy, decide_false, Dict.get?_set,
        Dict.get?_erase, if_true, Option.map_some, Option.map_none, Bool.false_eq_true, if_false]
    · simp [schedule, hhost]

/-- The inventory section keeps the row of a host or drops it. -/
theorem schedule_activate (state : State) (host : String) :
    state.activate.schedule host = state.schedule host ∨ state.activate.schedule host = {} := by
  unfold activate
  dsimp only
  split
  · exact .inl rfl
  · by_cases hactive : host ∈ state.discovered
    · left
      simp [schedule, pruneSchedules, hactive]
    · right
      simp [schedule, pruneSchedules, hactive]

/-- The submissions leave every row. -/
theorem schedule_submit (state : State) (round : Round) (startedAt : ℚ) (host : String) :
    (state.submit round startedAt).schedule host = state.schedule host := by
  unfold submit
  split
  · rfl
  · refine foldl_keeps (fun state => state.schedule host) (fun state submitted => ?_) _ state
    unfold submitHost
    dsimp only
    split
    · rfl
    · split
      · rfl
      · rfl

/-- A worker leaves every row. -/
theorem schedule_workerStep {state next : State} {event : Event}
    (hstep : workerStep state event = some next) (host : String) :
    next.schedule host = state.schedule host := by
  cases event with
  | startProbe | sampleSystem | mergeProcesses =>
    dsimp only [workerStep] at hstep
    split at hstep
    · cases hstep
      rfl
    · cases hstep
  | failProbe =>
    dsimp only [workerStep] at hstep
    split at hstep
    · cases hstep
    · split at hstep
      · cases hstep
        rfl
      · cases hstep
    · cases hstep
  | _ => cases hstep

/-! ### The steps of the service -/

/-- Whether a completed probe of a host is about to be recorded. -/
def settles (state : State) (host : String) : Prop :=
  ∃ round task result, state.phase = .settling round task result true ∧ task.host = host

/-- What a step does to the row of a host. Only the inventory section, the three loops of the
round and the outcome of the host's own probe touch it. -/
theorem step_schedule {state next : State} {event : Event}
    (hstep : Scheduler.step jitterUnit state event = some next) (host : String) :
    match event with
    | .adoptHosts _ => next.schedule host = state.schedule host ∨ next.schedule host = {}
    | .rebase => ∃ round, state.phase = .admitted round ∧ next.phase = .rebased round
        ∧ next.schedule host
          = (state.schedule host).rebased jitterUnit host (state.policy round.config host)
    | .takeRequests => next.schedule host
        = if host ∈ state.manuallyDue then (state.schedule host).dueNow else state.schedule host
    | .repace => ∃ round, state.phase = .requested round
        ∧ next.schedule host
          = if host ∈ state.inFlightHosts then state.schedule host
            else (state.schedule host).repaced (state.hostPollInterval host round.config)
    | .settle completedAt => ¬ state.settles host ∧ next.schedule host = state.schedule host
        ∨ ∃ round task result, state.phase = .settling round task result true ∧ task.host = host
          ∧ next.schedule host
            = (state.schedule host).settled jitterUnit host (state.policy state.config host)
              (decide (result.status = .online)) task.startedAt completedAt
    | _ => next.schedule host = state.schedule host := by
  cases stepped_of_step hstep with
  | updateConfig config found => rfl
  | setPollInterval seconds => rfl
  | requestProbe requested now =>
    dsimp only
    unfold requestProbe
    split
    · rfl
    · split
      · rfl
      · rfl
  | worker h =>
    have hkept := schedule_workerStep h host
    cases event with
    | startProbe | failProbe | sampleSystem | mergeProcesses => exact hkept
    | _ => cases h
  | snapshot now attended hphase => rfl
  | @adoptHosts round found hphase =>
    dsimp only
    unfold adoptHosts
    split
    · exact .inl rfl
    · cases found with
      | none => exact schedule_activate state host
      | some hosts => exact schedule_activate (state.install _) host
  | @rebase round hphase =>
    exact ⟨round, hphase, rfl, schedule_rebaseFailureBackoff state round host⟩
  | takeRequests hphase => exact schedule_takeRequests state host
  | @repace round hphase => exact ⟨round, hphase, schedule_repace state round host⟩
  | complete hphase hflight => rfl
  | @settle round task result completedAt hphase =>
    have hrecorded := @schedule_recordOutcome jitterUnit state task result completedAt host
    by_cases hhost : host = task.host
    · rw [if_pos hhost] at hrecorded
      exact .inr ⟨round, task, result, hphase, hhost.symm, hrecorded⟩
    · rw [if_neg hhost] at hrecorded
      refine .inl ⟨?_, hrecorded⟩
      rintro ⟨_, other, _, hsettling, hother⟩
      rw [hphase] at hsettling
      cases hsettling
      exact hhost hother.symm
  | dropLate completedAt hphase =>
    refine .inl ⟨?_, rfl⟩
    rintro ⟨_, _, _, hsettling, -⟩
    rw [hphase] at hsettling
    cases hsettling
  | applyResult hphase => rfl
  | submit startedAt hphase => exact schedule_submit state _ startedAt host

end State

end

end Mocop.Scheduler
