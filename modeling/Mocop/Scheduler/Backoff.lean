import Mocop.Scheduler.Schedules

/-!
# `Mocop.Scheduler.Backoff`: the backoff remembers when a host failed

The deadline of a failing host is the time of its last failure plus the delay of the policy in
force. A new policy recovers the time of the failure from the deadline and the old policy.

`watchedStep` runs the service together with the time of a host's last failure, which a manual
request of the host makes void. `anchored_of_run` says that in every run the deadline stays that
time plus the delay of the last applied policy. Hence policies can be changed any number of times
(`backoff_path_independent`): the deadline depends on the last one alone.
-/

set_option autoImplicit false

namespace Mocop.Scheduler

section
variable (jitterUnit : String → ℕ → ℚ) (host : String)

/-! ### One row -/

/-- The deadline of a failing host is the time of the failure plus the delay of its policy. -/
def Schedule.Anchored (row : Schedule) (failedAt : ℚ) : Prop :=
  ∀ failures, row.failures = some failures → ∃ policy, row.policy = some policy
    ∧ row.dueAt = some (failedAt + policyDelay jitterUnit host policy failures)

variable {jitterUnit host}

variable {failedAt : ℚ} {row : Schedule}

/-- A new policy on an anchored row: the time of the failure is recovered, whatever the policy
before was. -/
theorem Schedule.rebased_eq {failures : ℕ} (hrow : row.Anchored jitterUnit host failedAt)
    (hfailing : row.failures = some failures) (policy : ℚ × ℚ) :
    row.rebased jitterUnit host policy = { row with
      dueAt := some (failedAt + policyDelay jitterUnit host policy failures)
      policy := some policy } := by
  obtain ⟨previous, hprevious, hdue⟩ := hrow failures hfailing
  unfold Schedule.rebased
  simp only [hfailing, hdue, hprevious, Option.getD_some]
  split
  · next hsame =>
    subst hsame
    rw [← hprevious, ← hdue, hfailing.symm]
  · rw [add_sub_cancel_right]

theorem Schedule.rebased_of_healthy (h : row.failures = none) (policy : ℚ × ℚ) :
    row.rebased jitterUnit host policy = row := by
  rw [Schedule.rebased, h]

/-- A new policy keeps an anchored row anchored. -/
theorem Schedule.Anchored.rebased (hrow : row.Anchored jitterUnit host failedAt) (policy : ℚ × ℚ) :
    (row.rebased jitterUnit host policy).Anchored jitterUnit host failedAt := by
  cases hfailing : row.failures with
  | none =>
    rw [Schedule.rebased_of_healthy hfailing]
    exact hrow
  | some failures =>
    intro n hn
    rw [Schedule.rebased_eq hrow hfailing policy] at hn ⊢
    obtain rfl := Option.some.inj (hfailing.symm.trans hn)
    exact ⟨policy, rfl, rfl⟩

/-- The interval of a healthy host does not concern a failing one. -/
theorem Schedule.Anchored.repaced (hrow : row.Anchored jitterUnit host failedAt) (interval : ℚ) :
    (row.repaced interval).Anchored jitterUnit host failedAt := by
  unfold Schedule.repaced
  split
  · split
    · exact hrow
    · next hhealthy =>
      intro failures hfailing
      exact absurd (Or.inl (Option.isSome_of_eq_some hfailing)) hhealthy
  · exact hrow

/-- A failure anchors the row at its time. -/
theorem Schedule.settled_anchored (row : Schedule) (policy : ℚ × ℚ) (startedAt completedAt : ℚ) :
    (row.settled jitterUnit host policy false startedAt completedAt).Anchored jitterUnit host
      completedAt := by
  intro failures hfailing
  obtain rfl := Option.some.inj hfailing
  exact ⟨policy, rfl, rfl⟩

/-! ### Runs -/

variable (jitterUnit host)

/-- The time of the last failure of a host, unless a manual request of the host has been taken up
since. A request that arrives before the failed probe is recorded is taken up afterwards. -/
def failureSince (state : State) (event : Event) (failedAt : Option ℚ) : Option ℚ :=
  match event, state.phase with
  | .settle completedAt, .settling _ task result true =>
    if task.host = host then
      if result.status = .online then none else some completedAt
    else failedAt
  | .takeRequests, _ => if host ∈ state.manuallyDue then none else failedAt
  | _, _ => failedAt

/-- One step of the service and of the time of a host's last failure. -/
def watchedStep (watched : State × Option ℚ) (event : Event) : Option (State × Option ℚ) :=
  (step jitterUnit watched.1 event).map fun next =>
    (next, failureSince host watched.1 event watched.2)

variable {jitterUnit host}

/-- A step keeps the row anchored at the last failure. -/
theorem anchored_step {state next : State} {event : Event}
    (hstep : step jitterUnit state event = some next) {before : Option ℚ}
    (hrow : ∀ t ∈ before, (state.schedule host).Anchored jitterUnit host t) :
    ∀ t ∈ failureSince host state event before,
      (next.schedule host).Anchored jitterUnit host t := by
  have hchange := State.step_schedule hstep host
  intro t ht
  cases event with
  | adoptHosts found =>
    rcases hchange with hkept | hdropped
    · rw [hkept]
      exact hrow t ht
    · rw [hdropped]
      intro failures hfailing
      cases hfailing
  | rebase =>
    obtain ⟨round, -, -, hrebased⟩ := hchange
    rw [hrebased]
    exact (hrow t ht).rebased _
  | takeRequests =>
    dsimp only [failureSince] at ht hchange
    by_cases hdue : host ∈ state.manuallyDue
    · rw [if_pos hdue] at ht
      cases ht
    · rw [if_neg hdue] at ht hchange
      rw [hchange]
      exact hrow t ht
  | repace =>
    obtain ⟨round, -, hrepaced⟩ := hchange
    rw [hrepaced]
    split
    · exact hrow t ht
    · exact (hrow t ht).repaced _
  | settle completedAt =>
    rcases hchange with ⟨hother, hkept⟩ | ⟨round, task, result, hphase, hhost, hsettled⟩
    · rw [hkept]
      refine hrow t ?_
      unfold failureSince at ht
      split at ht
      · next heq hphase =>
        have hne : ¬ _ = host := fun hhost => hother ⟨_, _, _, hphase, hhost⟩
        rw [if_neg hne] at ht
        exact ht
      · next heq => cases heq
      · exact ht
    · simp only [failureSince, hphase, if_pos hhost] at ht
      rw [hsettled]
      by_cases honline : result.status = .online
      · rw [if_pos honline] at ht
        cases ht
      · rw [if_neg honline] at ht
        obtain rfl := Option.some.inj ht
        rw [decide_eq_false honline]
        exact Schedule.settled_anchored _ _ _ _
  | _ =>
    dsimp only at hchange
    rw [hchange]
    exact hrow t ht

/-- In every run the row of a host is anchored at its last failure. -/
theorem anchored_of_run {config : MonitorConfig} {events : List Event} {state : State}
    {failedAt : Option ℚ}
    (hrun : Mocop.RunWhere (watchedStep jitterUnit host) (fun _ _ => True) (.start config, none) events
      (state, failedAt)) :
    ∀ t ∈ failedAt, (state.schedule host).Anchored jitterUnit host t := by
  have hstep : ∀ (watched : State × Option ℚ) (event : Event) (next : State × Option ℚ),
      (∀ t ∈ watched.2, (watched.1.schedule host).Anchored jitterUnit host t) → True →
      watchedStep jitterUnit host watched event = some next →
      ∀ t ∈ next.2, (next.1.schedule host).Anchored jitterUnit host t := by
    intro watched event next hrow _ hstep
    obtain ⟨reached, hreached, heq⟩ := Option.map_eq_some_iff.mp hstep
    cases heq
    exact anchored_step hreached hrow
  exact hrun.invariant (fun t ht => by cases ht) hstep

/-! ### Changes of the policy -/

variable (jitterUnit) in
/-- The poll interval is set and the failing hosts are rebased to the policy of a round. -/
def State.applyPolicy (state : State) (change : Round × ℚ) : State :=
  State.rebaseFailureBackoff jitterUnit { state with pollIntervalSeconds := change.2 } change.1

/-- The policy that a change assigns to a host. -/
def changedPolicy (host : String) (change : Round × ℚ) : ℚ × ℚ :=
  ((change.1.config.hostPollIntervals.get? host).getD change.2, change.1.config.retryJitterPct)

theorem schedule_applyPolicy (state : State) (change : Round × ℚ) :
    (state.applyPolicy jitterUnit change).schedule host
      = (state.schedule host).rebased jitterUnit host (changedPolicy host change) :=
  State.schedule_rebaseFailureBackoff _ _ host

/-- Any number of changes leave a failing row anchored and count the same failures. -/
theorem anchored_applyPolicies {failures : ℕ} (changes : List (Round × ℚ)) {state : State}
    (hrow : (state.schedule host).Anchored jitterUnit host failedAt)
    (hfailing : (state.schedule host).failures = some failures) :
    ∃ dueAt policy, (changes.foldl (State.applyPolicy jitterUnit) state).schedule host
        = { state.schedule host with dueAt, policy }
      ∧ ((changes.foldl (State.applyPolicy jitterUnit) state).schedule host).Anchored jitterUnit
        host failedAt := by
  induction changes generalizing state with
  | nil => exact ⟨_, _, rfl, hrow⟩
  | cons change rest ih =>
    have hnext := @schedule_applyPolicy jitterUnit host state change
    have hrebased := Schedule.rebased_eq hrow hfailing (changedPolicy host change)
    obtain ⟨dueAt, policy, heq, hanchored⟩ := @ih (state.applyPolicy jitterUnit change)
      (hnext ▸ hrow.rebased _) (by rw [hnext, hrebased]; exact hfailing)
    refine ⟨dueAt, policy, ?_, hanchored⟩
    rw [List.foldl_cons, heq, hnext, hrebased]

/-- Backoff rebasing is path independent. In every state of every run, for a host that fails and
whose last failure no manual request has made void: the deadline is the time of that failure plus
the delay of the policy last applied; once the round has rebased it, that is the policy of the
moment; and after any sequence of policies the row is the one that the last policy alone gives. -/
theorem backoff_path_independent {config : MonitorConfig} {events : List Event} {state : State}
    {failedAt : ℚ} {failures : ℕ}
    (hrun : Mocop.RunWhere (watchedStep jitterUnit host) (fun _ _ => True) (.start config, none) events
      (state, some failedAt))
    (hfailing : (state.schedule host).failures = some failures) :
    (∃ policy, (state.schedule host).policy = some policy
        ∧ (state.schedule host).dueAt
          = some (failedAt + policyDelay jitterUnit host policy failures))
      ∧ (∀ next, step jitterUnit state .rebase = some next →
        ∃ round, next.phase = .rebased round
          ∧ (next.schedule host).dueAt = some (failedAt
            + policyDelay jitterUnit host (state.policy round.config host) failures))
      ∧ ∀ (changes : List (Round × ℚ)) (last : Round × ℚ),
        ((changes ++ [last]).foldl (State.applyPolicy jitterUnit) state).schedule host
            = (state.applyPolicy jitterUnit last).schedule host
          ∧ ((state.applyPolicy jitterUnit last).schedule host).dueAt = some (failedAt
            + policyDelay jitterUnit host (changedPolicy host last) failures) := by
  have hrow := anchored_of_run hrun failedAt rfl
  refine ⟨hrow failures hfailing, ?_, ?_⟩
  · intro next hstep
    obtain ⟨round, -, hphase, hrebased⟩ := State.step_schedule hstep host
    refine ⟨round, hphase, ?_⟩
    rw [hrebased, Schedule.rebased_eq hrow hfailing]
  · intro changes last
    obtain ⟨dueAt, policy, heq, hanchored⟩ := anchored_applyPolicies changes hrow hfailing
    have hfailing' : ((changes.foldl (State.applyPolicy jitterUnit) state).schedule host).failures
        = some failures := by
      rw [heq]
      exact hfailing
    constructor
    · rw [List.foldl_append, List.foldl_cons, List.foldl_nil, schedule_applyPolicy,
        schedule_applyPolicy, Schedule.rebased_eq hanchored hfailing', heq,
        Schedule.rebased_eq hrow hfailing]
    · rw [schedule_applyPolicy, Schedule.rebased_eq hrow hfailing]

end

/-- A probe fails at second 1, and the poll interval doubles before the next round. -/
private def slowedDown : List Event :=
  [.updateConfig { maxWorkers := 1, pollIntervalSeconds := 5 }
      (some ⟨["node-a"], List.nodup_singleton _⟩),
    .snapshot 0 true, .adoptHosts none, .rebase, .takeRequests, .repace, .submit 0, .startProbe 0 0,
    .failProbe 0 (some { host := "node-a", status := .unreachable, latencyMs := 0 }),
    .snapshot 1 true, .adoptHosts none, .rebase, .takeRequests, .repace, .complete 0, .settle 1,
    .applyResult, .submit 1, .setPollInterval 10, .snapshot 2 true, .adoptHosts none]

/-- The rebase moves the deadline to ten seconds after the failure. -/
theorem backoff_path_independent_slowedDown :
    ∃ state, Mocop.RunWhere (watchedStep (fun _ _ => 0) "node-a") (fun _ _ => True)
        (.start { maxWorkers := 1, pollIntervalSeconds := 5 }, none) slowedDown (state, some 1)
      ∧ (state.schedule "node-a").failures = some 1
      ∧ (state.schedule "node-a").dueAt = some 6
      ∧ ∀ next, step (fun _ _ => 0) state .rebase = some next →
        ∃ round, next.phase = .rebased round ∧ (next.schedule "node-a").dueAt
          = some (1 + policyDelay (fun _ _ => 0) "node-a"
            (state.policy round.config "node-a") 1) := by
  have hreached : (execute (watchedStep (fun _ _ => 0) "node-a") (fun _ _ => True)
      (.start { maxWorkers := 1, pollIntervalSeconds := 5 }, none) slowedDown).any (fun watched =>
        decide (watched.2 = some 1 ∧ (watched.1.schedule "node-a").failures = some 1
          ∧ (watched.1.schedule "node-a").dueAt = some 6)) = true := by
    decide +kernel
  obtain ⟨⟨state, failedAt⟩, hstate, hcheck⟩ := (Option.any_eq_true _ _).mp hreached
  obtain ⟨hfailedAt, hfailing, hdue⟩ := of_decide_eq_true hcheck
  obtain rfl : failedAt = some 1 := hfailedAt
  have hrun := runWhere_of_execute hstate
  exact ⟨state, hrun, hfailing, hdue, (backoff_path_independent hrun hfailing).2.1⟩

end Mocop.Scheduler
