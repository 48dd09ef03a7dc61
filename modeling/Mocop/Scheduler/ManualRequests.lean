import Mocop.Scheduler.Schedules
import Mocop.Scheduler.SingleFlight

/-!
# `Mocop.Scheduler.ManualRequests`: when a requested host is due

A round takes up the manual requests by setting the deadlines of the hosts to zero. The loop over
the healthy hosts comes after it, and moves the deadline of a host whose poll interval is new to
the start of its last probe plus the new interval. So an accepted request is undone when the
interval has changed since the last round.

`manual_request_due_iff` says, for every round of every run and any steps of the other threads in
between, when a host that was taken up is due at the selection: exactly when that loop leaves its
deadline alone or moves it to the past. `manual_request_undone` is a run in which it is not due.
-/

set_option autoImplicit false

namespace Mocop.Scheduler

/-- An event of another thread than the scheduler's. -/
def Event.outside : Event → Bool
  | .updateConfig .. | .setPollInterval _ | .requestProbe .. => true
  | .startProbe .. | .failProbe .. | .sampleSystem .. | .mergeProcesses .. => true
  | _ => false

/-- An event of `drain_completed`. -/
def Event.drains : Event → Bool
  | .complete _ | .settle _ | .applyResult => true
  | _ => false

variable {events : List Event}

namespace State

section
variable {jitterUnit : String → ℕ → ℚ} {state next : State} {event : Event} {host : String}

/-! ### Hosts in flight -/

/-- No probe of a host is left: none is in flight, and none is being recorded. -/
structure Idle (state : State) (host : String) : Prop where
  landed : host ∉ state.inFlightHosts
  handed : ∀ task result, state.phase.handed = some (task, result) → task.host ≠ host

/-- The submissions tell the requests of every host in flight. -/
theorem runtimeInFlight_submit {round : Round} {startedAt : ℚ}
    (h : state.runtimeInFlight = state.inFlightHosts) :
    (state.submit round startedAt).runtimeInFlight
      = (state.submit round startedAt).inFlightHosts := by
  have hfold : ∀ (hosts : List String) (state : State),
      state.runtimeInFlight = state.inFlightHosts →
      (hosts.foldl (submitHost round startedAt) state).runtimeInFlight
        = (hosts.foldl (submitHost round startedAt) state).inFlightHosts := by
    intro hosts
    induction hosts with
    | nil => exact fun _ h => h
    | cons host rest ih =>
      intro state h
      rw [List.foldl_cons]
      refine ih _ ?_
      unfold submitHost
      split
      · exact h
      · dsimp only
        split
        · exact congrArg (List.insert host) h
        · exact congrArg (List.insert host) h
  unfold submit
  split
  · exact h
  · exact hfold _ state h

/-- A worker touches neither the hosts in flight nor the phase. -/
theorem workerStep_frame (hstep : workerStep state event = some next) :
    next.runtimeInFlight = state.runtimeInFlight ∧ next.inFlightHosts = state.inFlightHosts
      ∧ next.phase = state.phase := by
  cases event with
  | startProbe | sampleSystem | mergeProcesses =>
    dsimp only [workerStep] at hstep
    split at hstep
    · cases hstep
      exact ⟨rfl, rfl, rfl⟩
    · cases hstep
  | failProbe =>
    dsimp only [workerStep] at hstep
    split at hstep
    · cases hstep
    · split at hstep
      · cases hstep
        exact ⟨rfl, rfl, rfl⟩
      · cases hstep
    · cases hstep
  | _ => cases hstep

theorem runtimeInFlight_rebaseFailureBackoff (state : State) (round : Round) :
    (state.rebaseFailureBackoff jitterUnit round).runtimeInFlight = state.runtimeInFlight := by
  refine foldl_keeps runtimeInFlight (fun state entry => ?_) _ state
  unfold rebaseHost
  dsimp only
  split
  · rfl
  · split
    · rfl
    · rfl

theorem runtimeInFlight_takeRequests (state : State) :
    (state.manuallyDue.foldl dueNow state).runtimeInFlight = state.runtimeInFlight :=
  @foldl_keeps _ _ _ dueNow runtimeInFlight (fun _ _ => rfl) _ state

theorem runtimeInFlight_repace (state : State) (round : Round) :
    (state.repace round).runtimeInFlight = state.runtimeInFlight := by
  refine foldl_keeps runtimeInFlight (fun state entry => ?_) _ state
  unfold repaceHost
  dsimp only
  split
  · rfl
  · split
    · rfl
    · rfl

theorem runtimeInFlight_recordOutcome (state : State) (task : Task) (result : Probe.ProbeResult)
    (completedAt : ℚ) :
    (state.recordOutcome jitterUnit task result completedAt).1.runtimeInFlight
      = state.runtimeInFlight := by
  unfold recordOutcome
  dsimp only
  split
  · rfl
  · rfl

/-- The hosts in flight of the requests are those of the scheduler. -/
theorem runtimeInFlight_step (hstep : Scheduler.step jitterUnit state event = some next)
    (h : state.runtimeInFlight = state.inFlightHosts) :
    next.runtimeInFlight = next.inFlightHosts := by
  -- A loop over the deadlines leaves both.
  have hloop : ∀ after : State, Kept state after → after.runtimeInFlight = state.runtimeInFlight →
      after.runtimeInFlight = after.inFlightHosts := by
    intro after hkept hruntime
    rw [hruntime, hkept.inFlightHosts, h]
  have hactivate : ∀ installed : State, installed.runtimeInFlight = installed.inFlightHosts →
      installed.activate.runtimeInFlight = installed.activate.inFlightHosts := by
    intro installed hinstalled
    obtain ⟨_, _, _, _, _, _, _, _, _, heq⟩ := activate_eq installed
    rw [heq]
    exact hinstalled
  cases stepped_of_step hstep with
  | updateConfig | setPollInterval | snapshot | dropLate | applyResult => exact h
  | requestProbe requested now =>
    unfold requestProbe
    split
    · exact h
    · split
      · exact h
      · exact h
  | worker hworker =>
    obtain ⟨hruntime, hflights, -⟩ := workerStep_frame hworker
    rw [hruntime, hflights, h]
  | @adoptHosts round found hphase =>
    unfold adoptHosts
    split
    · exact h
    · cases found with
      | none => exact hactivate state h
      | some hosts => exact hactivate (state.install _) h
  | @rebase round hphase =>
    have hsame := hloop _ (@kept_rebaseFailureBackoff jitterUnit state round)
      (runtimeInFlight_rebaseFailureBackoff state round)
    exact hsame
  | takeRequests hphase =>
    have hsame := hloop _ (kept_takeRequests state) (runtimeInFlight_takeRequests state)
    exact hsame
  | @repace round hphase =>
    have hsame := hloop _ (kept_repace state round) (runtimeInFlight_repace state round)
    exact hsame
  | complete hphase hflight =>
    show state.runtimeInFlight.filter _ = state.inFlightHosts.filter _
    rw [h]
  | @settle round task result completedAt hphase =>
    have hsame := hloop _ (@kept_recordOutcome jitterUnit state task result completedAt)
      (runtimeInFlight_recordOutcome state task result completedAt)
    exact hsame
  | submit startedAt hphase => exact runtimeInFlight_submit h

/-- While the scheduler submits nothing, a host that is idle stays idle. -/
theorem Idle.step (h : state.Idle host) (hsound : state.Sound)
    (hstep : Scheduler.step jitterUnit state event = some next)
    (hevent : event.outside = true ∨ event.drains = true) : next.Idle host := by
  cases stepped_of_step hstep with
  | updateConfig | setPollInterval => exact ⟨h.landed, h.handed⟩
  | requestProbe requested now =>
    unfold requestProbe
    split
    · exact h
    · split
      · exact h
      · exact ⟨h.landed, h.handed⟩
  | worker hworker =>
    obtain ⟨-, hflights, hphase⟩ := workerStep_frame hworker
    exact ⟨hflights ▸ h.landed, hphase ▸ h.handed⟩
  | @complete round future task outcome hphase hflight =>
    -- The probe that is recorded next was in flight, and the host was not.
    have hflying := hsound.flights.flying _ (flight_eq hflight).1
    refine ⟨fun hmem => h.landed (List.mem_of_mem_filter hmem), ?_⟩
    rintro _ result hhanded hhost
    cases hhanded
    exact h.landed (hhost ▸ hflying)
  | @settle round task result completedAt hphase =>
    have hkept := @kept_recordOutcome jitterUnit state task result completedAt
    refine ⟨?_, ?_⟩
    · show host ∉ (state.recordOutcome jitterUnit task result completedAt).1.inFlightHosts
      rw [hkept.inFlightHosts]
      exact h.landed
    · rintro _ _ hhanded
      cases hhanded
      exact h.handed task result (by rw [hphase]; rfl)
  | dropLate | applyResult => exact ⟨h.landed, fun _ _ hhanded => by cases hhanded⟩
  | _ => rcases hevent with hevent | hevent <;> cases hevent

/-- While the scheduler submits nothing and its loops do not run, the row of an idle host
stays. -/
theorem Idle.schedule_step (h : state.Idle host)
    (hstep : Scheduler.step jitterUnit state event = some next)
    (hevent : event.outside = true ∨ event.drains = true) :
    next.schedule host = state.schedule host := by
  have hchange := step_schedule hstep host
  cases event with
  | settle completedAt =>
    rcases hchange with ⟨-, hkept⟩ | ⟨round, task, result, hphase, hhost, -⟩
    · exact hkept
    · exact absurd hhost (h.handed task result (by rw [hphase]; rfl))
  | snapshot | adoptHosts | rebase | takeRequests | repace | submit =>
    rcases hevent with hevent | hevent <;> cases hevent
  | _ => exact hchange

/-- Over a run of such steps. -/
theorem Idle.run (h : state.Idle host) (hsound : state.Sound)
    (hrun : RunWhere jitterUnit (fun _ event => event.outside = true ∨ event.drains = true) state
      events next) :
    next.Sound ∧ next.Idle host ∧ next.schedule host = state.schedule host := by
  induction hrun with
  | nil => exact ⟨hsound, h, rfl⟩
  | snoc _ hevent hstep ih =>
    obtain ⟨hsound', hidle, hrow⟩ := ih
    exact ⟨(hsound'.step hstep).sound, hidle.step hsound' hstep hevent,
      (hidle.schedule_step hstep hevent).trans hrow⟩

/-- Other threads leave the phase. -/
theorem phase_of_outside
    (hrun : RunWhere jitterUnit (fun _ event => event.outside = true) state events next) :
    next.phase = state.phase := by
  induction hrun with
  | nil => rfl
  | snoc _ hevent hstep ih =>
    rw [← ih]
    cases stepped_of_step hstep with
    | updateConfig | setPollInterval => rfl
    | requestProbe requested now =>
      unfold requestProbe
      split
      · rfl
      · split
        · rfl
        · rfl
    | worker hworker => exact (workerStep_frame hworker).2.2
    | _ => cases hevent

/-- A host that is taken up is idle. -/
theorem idle_of_manuallyDue {round : Round} (hsame : state.runtimeInFlight = state.inFlightHosts)
    (hphase : state.phase = .rebased round) (h : host ∈ state.manuallyDue) : state.Idle host := by
  have hfree := (List.mem_filter.mp h).2
  rw [Bool.and_eq_true, decide_eq_true_eq, decide_eq_true_eq, hsame] at hfree
  refine ⟨hfree.2, fun task result hhanded => ?_⟩
  rw [hphase] at hhanded
  cases hhanded

end

end State

/-! ### The round -/

section
variable {jitterUnit : String → ℕ → ℚ} {config : MonitorConfig}

theorem runtimeInFlight_of_run {state : State}
    (hrun : Run jitterUnit (State.start config) events state) :
    state.runtimeInFlight = state.inFlightHosts := by
  induction hrun with
  | nil => rfl
  | snoc _ _ hstep ih => exact State.runtimeInFlight_step hstep ih

/-- Whether the loop over the healthy hosts moves the deadline of a host to a time: the host has
not failed, and its interval is not the one that it was paced with. -/
def State.RepacesTo (state : State) (round : Round) (host : String) (dueAt : ℚ) : Prop :=
  (state.schedule host).failures = none
    ∧ (state.schedule host).interval ≠ some (state.hostPollInterval host round.config)
    ∧ ∃ startedAt, (state.schedule host).startedAt = some startedAt
      ∧ dueAt = startedAt + state.hostPollInterval host round.config

/-- When a requested host is due. A round takes the request of a host up; other threads take
steps; the loop over the healthy hosts runs; probes complete and other threads take steps; and the
round selects. Then the host is not in flight, and it is due exactly when the loop moved its
deadline to a time that is not after the clock of the round, or left it at zero and the clock is
not negative. -/
theorem manual_request_due_iff {events between drained : List Event}
    {state taken middle paced selecting : State} {round : Round} {host : String}
    (hrun : Run jitterUnit (State.start config) events state)
    (hphase : state.phase = .rebased round) (hrequest : host ∈ state.manuallyDue)
    (htake : step jitterUnit state .takeRequests = some taken)
    (hbetween : RunWhere jitterUnit (fun _ event => event.outside = true) taken between middle)
    (hpace : step jitterUnit middle .repace = some paced)
    (hdrain : RunWhere jitterUnit (fun _ event => event.outside = true ∨ event.drains = true)
      paced drained selecting) :
    host ∉ selecting.inFlightHosts
      ∧ (selecting.deadline host ≤ round.now
        ↔ (∀ dueAt, middle.RepacesTo round host dueAt → dueAt ≤ round.now)
          ∧ ((∀ dueAt, ¬ middle.RepacesTo round host dueAt) → 0 ≤ round.now)) := by
  have hidle := State.idle_of_manuallyDue (runtimeInFlight_of_run hrun) hphase hrequest
  have hsound := State.sound_of_run hrun
  -- The request sets the deadline to zero.
  have htaken : taken.Idle host ∧ taken.phase = .requested round
      ∧ taken.schedule host = (state.schedule host).dueNow := by
    have hrow := State.step_schedule htake host
    dsimp only at hrow
    rw [if_pos hrequest] at hrow
    cases stepped_of_step htake with
    | worker hworker => cases hworker
    | @takeRequests other hother =>
      obtain rfl : other = round := by
        rw [hphase] at hother
        cases hother
        rfl
      refine ⟨⟨?_, fun _ _ hhanded => by cases hhanded⟩, rfl, hrow⟩
      show host ∉ (state.manuallyDue.foldl State.dueNow state).inFlightHosts
      rw [(State.kept_takeRequests state).inFlightHosts]
      exact hidle.landed
  obtain ⟨htakenIdle, htakenPhase, htakenRow⟩ := htaken
  obtain ⟨hmiddleSound, hmiddleIdle, hmiddleRow⟩ := htakenIdle.run (hsound.step htake).sound
    (hbetween.mono fun _ _ => Or.inl)
  have hmiddlePhase := (State.phase_of_outside hbetween).trans htakenPhase
  -- The loop over the healthy hosts may move it.
  have hpaced : paced.Idle host ∧ paced.schedule host
      = ((state.schedule host).dueNow).repaced (middle.hostPollInterval host round.config) := by
    obtain ⟨other, hother, hrow⟩ := State.step_schedule hpace host
    obtain rfl : other = round := by
      rw [hmiddlePhase] at hother
      cases hother
      rfl
    rw [if_neg hmiddleIdle.landed, hmiddleRow, htakenRow] at hrow
    refine ⟨?_, hrow⟩
    cases stepped_of_step hpace with
    | worker hworker => cases hworker
    | @repace other' hother' =>
      refine ⟨?_, fun _ _ hhanded => by cases hhanded⟩
      show host ∉ (middle.repace other').inFlightHosts
      rw [(State.kept_repace middle other').inFlightHosts]
      exact hmiddleIdle.landed
  obtain ⟨hpacedIdle, hpacedRow⟩ := hpaced
  obtain ⟨-, hselectingIdle, hselectingRow⟩ := hpacedIdle.run (hmiddleSound.step hpace).sound hdrain
  refine ⟨hselectingIdle.landed, ?_⟩
  rw [State.deadline_eq, hselectingRow, hpacedRow]
  have hrow := hmiddleRow.trans htakenRow
  unfold State.RepacesTo
  rw [hrow]
  generalize middle.hostPollInterval host round.config = interval
  generalize state.schedule host = row
  unfold Schedule.repaced Schedule.dueNow
  cases hstarted : row.startedAt with
  | none => simp
  | some startedAt =>
    cases hfailures : row.failures with
    | some failures => simp
    | none =>
      by_cases hsame : row.interval = some interval
      · simp [hsame]
      · simp [hsame]

end

/-- A machine without GPUs. -/
private def idleMachine : Probe.ParsedResource where
  system :=
    { hostname := "node-a", cpuTotalTicks := 100, cpuIdleTicks := 100, cpuCores := 1
      memoryTotalKib := 1, memoryAvailableKib := 1, swapTotalKib := 0, swapFreeKib := 0
      load1m := 0, load5m := 0, load15m := 0, uptimeSeconds := 1, networkRxBytes := 0
      networkTxBytes := 0, diskReadBytes := 0, diskWriteBytes := 0, disks := [], pressure := none }
  gpus := []
  gpuMessage := none
  processesAvailable := true
  processesSampled := true

/-- A host answers its first probe and is paced with five seconds. At second 2 a probe of it is
requested, and the poll interval may have been changed before; then a round begins. -/
private def requested (change : List Event) : List Event :=
  [.updateConfig { maxWorkers := 1, pollIntervalSeconds := 5 }
      (some ⟨["node-a"], List.nodup_singleton _⟩),
    .snapshot 0 true, .adoptHosts none, .rebase, .takeRequests, .repace, .submit 0, .startProbe 0 0,
    .sampleSystem 0 idleMachine 0, .mergeProcesses 0 "1970-01-01T00:00:00Z" 0 0,
    .snapshot 1 true, .adoptHosts none, .rebase, .takeRequests, .repace, .complete 0, .settle 1,
    .applyResult, .submit 1] ++ change
    ++ [.requestProbe "node-a" 2, .snapshot 2 true, .adoptHosts none, .rebase]

/-- The round whose failing hosts have been rebased. -/
private def rebasedRound (state : State) : Option Round :=
  match state.phase with
  | .rebased round => some round
  | _ => none

/-- Performs the run and the loops of the round, up to the deadline at the selection. -/
private def deadlineAtSelection (change : List Event) : Option (ℚ × Bool × ℚ) := do
  let state ← execute (step fun _ _ => 0) (fun _ _ => True)
    (.start { maxWorkers := 1, pollIntervalSeconds := 5 }) (requested change)
  let round ← rebasedRound state
  let taken ← step (fun _ _ => 0) state .takeRequests
  let selecting ← step (fun _ _ => 0) taken .repace
  return (round.now, decide ("node-a" ∈ state.manuallyDue), selecting.deadline "node-a")

/-- The round is one of a run of the service. -/
private theorem takenUp {change : List Event} {now dueAt : ℚ}
    (h : deadlineAtSelection change = some (now, true, dueAt)) :
    ∃ (state taken selecting : State) (round : Round),
      Run (fun _ _ => 0) (.start { maxWorkers := 1, pollIntervalSeconds := 5 })
          (requested change) state
        ∧ state.phase = .rebased round ∧ round.now = now ∧ "node-a" ∈ state.manuallyDue
        ∧ step (fun _ _ => 0) state .takeRequests = some taken
        ∧ step (fun _ _ => 0) taken .repace = some selecting
        ∧ selecting.deadline "node-a" = dueAt := by
  obtain ⟨state, hstate, h⟩ := Option.bind_eq_some_iff.mp h
  obtain ⟨round, hround, h⟩ := Option.bind_eq_some_iff.mp h
  obtain ⟨taken, htaken, h⟩ := Option.bind_eq_some_iff.mp h
  obtain ⟨selecting, hselecting, h⟩ := Option.bind_eq_some_iff.mp h
  obtain ⟨hnow, hrest⟩ := Prod.mk.inj (Option.some.inj h)
  obtain ⟨hdue, hdeadline⟩ := Prod.mk.inj hrest
  refine ⟨state, taken, selecting, round, runWhere_of_execute hstate, ?_, hnow,
    of_decide_eq_true hdue, htaken, hselecting, hdeadline⟩
  unfold rebasedRound at hround
  split at hround
  · next other hphase =>
    obtain rfl := Option.some.inj hround
    exact hphase
  · cases hround

/-- A request is undone: the host was paced with five seconds, the poll interval is a hundred
seconds now, and the round that takes the request up finds the host due at second 100 only. -/
theorem manual_request_undone :
    ∃ (events : List Event) (state taken selecting : State) (round : Round),
      Run (fun _ _ => 0) (.start { maxWorkers := 1, pollIntervalSeconds := 5 }) events state
        ∧ state.phase = .rebased round ∧ "node-a" ∈ state.manuallyDue
        ∧ step (fun _ _ => 0) state .takeRequests = some taken
        ∧ step (fun _ _ => 0) taken .repace = some selecting
        ∧ ¬ selecting.deadline "node-a" ≤ round.now := by
  obtain ⟨state, taken, selecting, round, hrun, hphase, hnow, hrequest, htaken, hselecting, hdue⟩ :=
    @takenUp [.setPollInterval 100] 2 100 (by decide +kernel)
  refine ⟨_, state, taken, selecting, round, hrun, hphase, hrequest, htaken, hselecting, ?_⟩
  rw [hdue, hnow]
  norm_num

/-- With the interval that it was paced with, the host is due. -/
theorem manual_request_due_iff_unchanged :
    ∃ (events : List Event) (state taken selecting : State) (round : Round),
      Run (fun _ _ => 0) (.start { maxWorkers := 1, pollIntervalSeconds := 5 }) events state
        ∧ state.phase = .rebased round ∧ "node-a" ∈ state.manuallyDue
        ∧ selecting.deadline "node-a" ≤ round.now
        ∧ "node-a" ∉ selecting.inFlightHosts
        ∧ ∀ dueAt, taken.RepacesTo round "node-a" dueAt → dueAt ≤ round.now := by
  obtain ⟨state, taken, selecting, round, hrun, hphase, hnow, hrequest, htaken, hselecting, hdue⟩ :=
    @takenUp [] 2 0 (by decide +kernel)
  have hle : selecting.deadline "node-a" ≤ round.now := by
    rw [hdue, hnow]
    norm_num
  obtain ⟨hlanded, hiff⟩ :=
    manual_request_due_iff hrun hphase hrequest htaken .nil hselecting .nil
  exact ⟨_, state, taken, selecting, round, hrun, hphase, hrequest, hle, hlanded, (hiff.mp hle).1⟩

end Mocop.Scheduler
