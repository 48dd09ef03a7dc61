import Mocop.Scheduler.Hosts
import Mocop.Scheduler.Step

/-!
# `Mocop.Scheduler.CleanStart`: whose records a host starts with

A host that is removed and added again has another incarnation. `State.Clean` says that every
record of a monitored host, in the scheduler or in the collector, was made for the incarnation
that it has now.

The records of a removed host are dropped in two places only: by a round whose active hosts
differ from those of the round before, and when a probe completes for a host that is gone.
Hence a host that is added again between two rounds, or while its old probe is in flight,
finds the old records. `State.AddsUnseen` is the condition on a step that rules this out, and
`clean_of_run` says that it is enough, whatever the threads do.
-/

set_option autoImplicit false

namespace Mocop.Scheduler

open Probe (Recorded)
open Probe.Collector (originsIn mem_originsIn mem_originsIn_set mem_originsIn_filterKeys
  mem_originsIn_erase)

/-! ### Records and tasks -/

namespace State

/-- The incarnations that the scheduler has records of a host for. -/
def scheduleOrigins (state : State) (host : String) : List ℕ :=
  originsIn state.failureCounts host ++ originsIn state.nextProbeAt host
    ++ originsIn state.backoffPolicies host ++ originsIn state.healthyStartedAt host
    ++ originsIn state.healthyIntervals host

/-- The incarnations that there are records of a host for. -/
def origins (state : State) (host : String) : List ℕ :=
  state.scheduleOrigins host ++ state.collector.origins host

/-- Every record of a monitored host was made for its present incarnation. -/
def Clean (state : State) : Prop :=
  ∀ host incarnation, state.hosts.incarnation host = some incarnation →
    ∀ n ∈ state.origins host, n = incarnation

/-- The probes that have not been settled: those in flight and the one being settled. -/
def tasks (state : State) : List Task :=
  state.inFlight.map (·.task) ++
    match state.phase with
    | .settling _ task _ _ => [task]
    | _ => []

/-- The hosts that an event installs. -/
def installs (state : State) (event : Event) : List String :=
  match event, state.phase with
  | .updateConfig config found, _ =>
    ((found.map (·.1)).getD state.discovered).filter
      fun host => decide (host ∉ config.excludeHosts)
  | .adoptHosts (some hosts), .discovering round =>
    if round.generation ≠ state.generation then []
    else hosts.1.filter fun host => decide (host ∉ round.config.excludeHosts)
  | _, _ => []

/-- A host that the event adds was not active in the last round, and no probe of it is left. -/
def AddsUnseen (state : State) (event : Event) : Prop :=
  ∀ host ∈ state.installs event, state.hosts.incarnation host = none →
    host ∉ state.activeHosts ∧ ∀ task ∈ state.tasks, task.host ≠ host

instance (state : State) (event : Event) : Decidable (state.AddsUnseen event) := by
  unfold AddsUnseen
  infer_instance

variable {host : String} {state : State}

theorem mem_scheduleOrigins {n : ℕ} :
    n ∈ state.scheduleOrigins host ↔
      n ∈ originsIn state.failureCounts host ∨ n ∈ originsIn state.nextProbeAt host
        ∨ n ∈ originsIn state.backoffPolicies host ∨ n ∈ originsIn state.healthyStartedAt host
        ∨ n ∈ originsIn state.healthyIntervals host := by
  simp only [scheduleOrigins, List.mem_append, or_assoc]

theorem mem_origins {n : ℕ} :
    n ∈ state.origins host ↔
      n ∈ state.scheduleOrigins host ∨ n ∈ state.collector.origins host := List.mem_append

/-- Records belong to the present incarnation of their host. The scheduler has records of active
hosts only; the collector has records of active hosts and of those with a probe left. A probe
that is left is of the present incarnation of its host, if the host is there. -/
structure Accounted (state : State) : Prop where
  clean : state.Clean
  scheduled : ∀ host, ∀ n ∈ state.scheduleOrigins host, host ∈ state.activeHosts
  collected : ∀ host, ∀ n ∈ state.collector.origins host,
    host ∈ state.activeHosts ∨ ∃ task ∈ state.tasks, task.host = host
  current : ∀ task ∈ state.tasks, ∀ incarnation,
    state.hosts.incarnation task.host = some incarnation → incarnation = task.incarnation
  settles : ∀ round task result, state.phase = .settling round task result true →
    task.host ∈ state.activeHosts

/-- A step that adds no records, and changes neither the incarnations nor the active hosts nor
the probes that are left. -/
theorem Accounted.of_frame {state next : State} (h : state.Accounted)
    (hhosts : ∀ host, next.hosts.incarnation host = state.hosts.incarnation host)
    (hactive : next.activeHosts = state.activeHosts)
    (htasks : ∀ task, task ∈ next.tasks ↔ task ∈ state.tasks)
    (hscheduled : ∀ host, ∀ n ∈ next.scheduleOrigins host, n ∈ state.scheduleOrigins host)
    (hcollected : ∀ host, ∀ n ∈ next.collector.origins host, n ∈ state.collector.origins host)
    (hsettles : ∀ round task result, next.phase = .settling round task result true →
      task.host ∈ state.activeHosts) : next.Accounted where
  clean := by
    intro host incarnation hget n hn
    rw [hhosts] at hget
    refine h.clean host incarnation hget n (mem_origins.mpr ?_)
    exact (mem_origins.mp hn).imp (hscheduled host n) (hcollected host n)
  scheduled := by
    intro host n hn
    rw [hactive]
    exact h.scheduled host n (hscheduled host n hn)
  collected := by
    intro host n hn
    rw [hactive]
    refine (h.collected host n (hcollected host n hn)).imp_right ?_
    rintro ⟨task, htask, heq⟩
    exact ⟨task, (htasks task).mpr htask, heq⟩
  current := by
    intro task htask incarnation hget
    rw [hhosts] at hget
    exact h.current task ((htasks task).mp htask) incarnation hget
  settles := by
    rw [hactive]
    exact hsettles

/-- A service that starts has no records. -/
theorem accounted_start (config : MonitorConfig) : (State.start config).Accounted where
  clean := by
    intro host incarnation hget
    cases hget
  scheduled := by
    intro host n hn
    cases hn
  collected := by
    intro host n hn
    cases hn
  current := by
    intro task htask
    cases htask
  settles := by
    intro round task result hphase
    cases hphase

/-- Installing hosts, when those that are added have no record and no probe. -/
theorem Accounted.install (h : state.Accounted) {hosts : List String}
    (hunseen : ∀ host ∈ hosts, state.hosts.incarnation host = none →
      host ∉ state.activeHosts ∧ ∀ task ∈ state.tasks, task.host ≠ host) :
    (state.install hosts).Accounted where
  clean := by
    intro host incarnation hget n hn
    rcases HostTable.incarnation_setHosts hget with hkept | ⟨hmem, hnone⟩
    · exact h.clean host incarnation hkept n hn
    · -- An added host has no records at all.
      obtain ⟨hinactive, hidle⟩ := hunseen host hmem hnone
      rcases mem_origins.mp hn with hn | hn
      · exact absurd (h.scheduled host n hn) hinactive
      · rcases h.collected host n hn with hactive | ⟨task, htask, heq⟩
        · exact absurd hactive hinactive
        · exact absurd heq (hidle task htask)
  scheduled := h.scheduled
  collected := h.collected
  current := by
    intro task htask incarnation hget
    rcases HostTable.incarnation_setHosts hget with hkept | ⟨hmem, hnone⟩
    · exact h.current task htask incarnation hkept
    · exact absurd rfl ((hunseen task.host hmem hnone).2 task htask)
  settles := h.settles

/-- The pruned schedules have records of the listed hosts. -/
theorem mem_scheduleOrigins_pruneSchedules {active : List String} {n : ℕ}
    (h : n ∈ (state.pruneSchedules active).scheduleOrigins host) :
    host ∈ active ∧ n ∈ state.scheduleOrigins host := by
  have hkept : ∀ {α : Type} {table : Dict String (Recorded α)},
      n ∈ originsIn (table.filterKeys (· ∈ active)) host →
      host ∈ active ∧ n ∈ originsIn table host :=
    fun hin => (mem_originsIn_filterKeys hin).imp_left of_decide_eq_true
  rw [mem_scheduleOrigins]
  rcases mem_scheduleOrigins.mp h with hin | hin | hin | hin | hin
  · exact (hkept hin).imp_right .inl
  · exact (hkept hin).imp_right fun hin => .inr (.inl hin)
  · exact (hkept hin).imp_right fun hin => .inr (.inr (.inl hin))
  · exact (hkept hin).imp_right fun hin => .inr (.inr (.inr (.inl hin)))
  · exact (hkept hin).imp_right fun hin => .inr (.inr (.inr (.inr hin)))

/-- Lists with the same members. -/
theorem mem_iff_of_sameHosts {hosts others : List String} (h : sameHosts hosts others = true)
    (host : String) : host ∈ hosts ↔ host ∈ others := by
  obtain ⟨hsub, hsup⟩ := Bool.and_eq_true_iff.mp h
  constructor
  · intro hin
    exact of_decide_eq_true (List.all_eq_true.mp hsub host hin)
  · intro hin
    exact of_decide_eq_true (List.all_eq_true.mp hsup host hin)

/-- The discovered hosts become active. Either they were the active ones before, or the records
of all others are dropped. -/
theorem Accounted.activate (h : state.Accounted)
    (hphase : ∀ round task result, state.phase ≠ .settling round task result true) :
    state.activate.Accounted := by
  unfold State.activate
  dsimp only
  split
  · rename_i hsame
    have hmem := mem_iff_of_sameHosts hsame
    exact {
      clean := h.clean
      scheduled := fun host n hn => (hmem host).mpr (h.scheduled host n hn)
      collected := fun host n hn => (h.collected host n hn).imp_left (hmem host).mpr
      current := h.current
      settles := fun round task result heq => absurd heq (hphase round task result) }
  · have hscheduled : ∀ {host n}, n ∈ ({ state with
          activeHosts := state.discovered
          runtimeHosts := state.discovered
          manualProbeRequests := state.manualProbeRequests.filter (· ∈ state.discovered)
          collector := state.collector.retainHosts state.discovered
          : State }.pruneSchedules state.discovered).scheduleOrigins host →
        host ∈ state.discovered ∧ n ∈ state.scheduleOrigins host :=
      fun hn => mem_scheduleOrigins_pruneSchedules hn
    exact {
      clean := by
        intro host incarnation hget n hn
        refine h.clean host incarnation hget n (mem_origins.mpr ?_)
        rcases mem_origins.mp hn with hn | hn
        · exact .inl (hscheduled hn).2
        · exact .inr (Probe.Collector.mem_origins_retainHosts hn).2
      scheduled := fun host n hn => (hscheduled hn).1
      collected := fun host n hn => .inl (Probe.Collector.mem_origins_retainHosts hn).1
      current := h.current
      settles := fun round task result heq => absurd heq (hphase round task result) }

/-! ### Deadlines -/

section
variable {jitterUnit : String → ℕ → ℚ}

/-- What moving deadlines leaves as it is: everything but deadlines, policies, intervals and the
announced retries, and it makes no record for another incarnation. -/
structure Moved (state next : State) : Prop where
  hosts : ∀ host, next.hosts.incarnation host = state.hosts.incarnation host
  activeHosts : next.activeHosts = state.activeHosts
  inFlight : next.inFlight = state.inFlight
  phase : next.phase = state.phase
  collector : next.collector = state.collector
  origins : ∀ host, ∀ n ∈ next.scheduleOrigins host, n ∈ state.scheduleOrigins host

theorem Moved.refl (state : State) : Moved state state :=
  ⟨fun _ => rfl, rfl, rfl, rfl, rfl, fun _ _ h => h⟩

theorem Moved.trans {first second third : State} (h : Moved first second)
    (h' : Moved second third) : Moved first third where
  hosts := fun host => (h'.hosts host).trans (h.hosts host)
  activeHosts := h'.activeHosts.trans h.activeHosts
  inFlight := h'.inFlight.trans h.inFlight
  phase := h'.phase.trans h.phase
  collector := h'.collector.trans h.collector
  origins := fun host n hn => h.origins host n (h'.origins host n hn)

/-- Where deadlines are moved the records stay accounted for. -/
theorem Accounted.of_moved {state next : State} (h : state.Accounted) (hmoved : Moved state next) :
    next.Accounted := by
  refine h.of_frame hmoved.hosts hmoved.activeHosts ?_ hmoved.origins ?_ ?_
  · intro task
    rw [tasks, tasks, hmoved.inFlight, hmoved.phase]
  · intro host n hn
    rwa [hmoved.collector] at hn
  · intro round task result heq
    rw [hmoved.phase] at heq
    exact h.settles round task result heq

variable {round : Round}

/-- One failing host: its deadline and its policy stay records of the incarnation that failed. -/
theorem moved_rebaseHost {entry : String × Recorded ℕ}
    (hentry : state.failureCounts.get? entry.1 = some entry.2) :
    Moved state (state.rebaseHost jitterUnit round entry)
      ∧ (state.rebaseHost jitterUnit round entry).failureCounts = state.failureCounts := by
  unfold rebaseHost
  dsimp only
  cases hdeadline : state.nextProbeAt.get? entry.1 with
  | none => exact ⟨Moved.refl state, rfl⟩
  | some deadline =>
    dsimp only
    split
    · exact ⟨Moved.refl state, rfl⟩
    · refine ⟨⟨fun host => HostTable.incarnation_rescheduleRetry _ _ _ host, rfl, rfl, rfl, rfl,
        ?_⟩, rfl⟩
      intro host n hn
      rw [mem_scheduleOrigins]
      rcases mem_scheduleOrigins.mp hn with hin | hin | hin | hin | hin
      · exact .inl hin
      · rcases mem_originsIn_set hin with ⟨rfl, rfl⟩ | hin
        · exact .inr (.inl (mem_originsIn.mpr ⟨deadline, hdeadline, rfl⟩))
        · exact .inr (.inl hin)
      · rcases mem_originsIn_set hin with ⟨rfl, rfl⟩ | hin
        · exact .inl (mem_originsIn.mpr ⟨entry.2, hentry, rfl⟩)
        · exact .inr (.inr (.inl hin))
      · exact .inr (.inr (.inr (.inl hin)))
      · exact .inr (.inr (.inr (.inr hin)))

theorem moved_rebaseFailureBackoff (state : State) (round : Round) :
    Moved state (state.rebaseFailureBackoff jitterUnit round) := by
  have hfold : ∀ (entries : List (String × Recorded ℕ)) (current : State),
      (∀ entry ∈ entries, current.failureCounts.get? entry.1 = some entry.2) →
      Moved current (entries.foldl (rebaseHost jitterUnit round) current) := by
    intro entries
    induction entries with
    | nil => exact fun current _ => Moved.refl current
    | cons entry rest ih =>
      intro current hentries
      obtain ⟨hmoved, hcounts⟩ := moved_rebaseHost (hentries entry List.mem_cons_self)
      refine hmoved.trans (ih _ ?_)
      intro other hother
      rw [hcounts]
      exact hentries other (List.mem_cons_of_mem _ hother)
  refine hfold _ state ?_
  intro entry hentry
  exact (Dict.get?_eq_some_iff state.failureCounts entry.1 entry.2).mpr hentry

/-- One healthy host: its deadline and its interval stay records of the incarnation that was
healthy. -/
theorem moved_repaceHost {entry : String × Recorded ℚ}
    (hentry : state.healthyStartedAt.get? entry.1 = some entry.2) :
    Moved state (repaceHost round state entry)
      ∧ (repaceHost round state entry).healthyStartedAt = state.healthyStartedAt := by
  unfold repaceHost
  dsimp only
  split
  · exact ⟨Moved.refl state, rfl⟩
  · split
    · exact ⟨Moved.refl state, rfl⟩
    · refine ⟨⟨fun host => rfl, rfl, rfl, rfl, rfl, ?_⟩, rfl⟩
      intro host n hn
      rw [mem_scheduleOrigins]
      rcases mem_scheduleOrigins.mp hn with hin | hin | hin | hin | hin
      · exact .inl hin
      · rcases mem_originsIn_set hin with ⟨rfl, rfl⟩ | hin
        · exact .inr (.inr (.inr (.inl (mem_originsIn.mpr ⟨entry.2, hentry, rfl⟩))))
        · exact .inr (.inl hin)
      · exact .inr (.inr (.inl hin))
      · exact .inr (.inr (.inr (.inl hin)))
      · rcases mem_originsIn_set hin with ⟨rfl, rfl⟩ | hin
        · exact .inr (.inr (.inr (.inl (mem_originsIn.mpr ⟨entry.2, hentry, rfl⟩))))
        · exact .inr (.inr (.inr (.inr hin)))

theorem moved_repace (state : State) (round : Round) : Moved state (state.repace round) := by
  have hfold : ∀ (entries : List (String × Recorded ℚ)) (current : State),
      (∀ entry ∈ entries, current.healthyStartedAt.get? entry.1 = some entry.2) →
      Moved current (entries.foldl (repaceHost round) current) := by
    intro entries
    induction entries with
    | nil => exact fun current _ => Moved.refl current
    | cons entry rest ih =>
      intro current hentries
      obtain ⟨hmoved, hstarted⟩ := moved_repaceHost (hentries entry List.mem_cons_self)
      refine hmoved.trans (ih _ ?_)
      intro other hother
      rw [hstarted]
      exact hentries other (List.mem_cons_of_mem _ hother)
  refine hfold _ state ?_
  intro entry hentry
  exact (Dict.get?_eq_some_iff state.healthyStartedAt entry.1 entry.2).mpr hentry

/-- A requested host is due as the incarnation that it has. -/
theorem Accounted.dueNow (h : state.Accounted) (hactive : host ∈ state.activeHosts) :
    (state.dueNow host).Accounted := by
  have hscheduled : ∀ other, ∀ n ∈ (state.dueNow host).scheduleOrigins other,
      (other = host ∧ n = (state.hosts.incarnation host).getD 0)
        ∨ n ∈ state.scheduleOrigins other := by
    intro other n hn
    rw [mem_scheduleOrigins]
    rcases mem_scheduleOrigins.mp hn with hin | hin | hin | hin | hin
    · exact .inr (.inl hin)
    · exact (mem_originsIn_set hin).imp_right fun hin => .inr (.inl hin)
    · exact .inr (.inr (.inr (.inl hin)))
    · exact .inr (.inr (.inr (.inr (.inl hin))))
    · exact .inr (.inr (.inr (.inr (.inr hin))))
  exact {
    clean := by
      intro other incarnation hget n hn
      rcases mem_origins.mp hn with hn | hn
      · rcases hscheduled other n hn with ⟨rfl, rfl⟩ | hn
        · show (state.hosts.incarnation other).getD 0 = incarnation
          rw [show state.hosts.incarnation other = some incarnation from hget]
          rfl
        · exact h.clean other incarnation hget n (mem_origins.mpr (.inl hn))
      · exact h.clean other incarnation hget n (mem_origins.mpr (.inr hn))
    scheduled := by
      intro other n hn
      rcases hscheduled other n hn with ⟨rfl, -⟩ | hn
      · exact hactive
      · exact h.scheduled other n hn
    collected := h.collected
    current := h.current
    settles := h.settles }

/-- The manual requests make active hosts due. -/
theorem Accounted.takeRequests (h : state.Accounted) :
    (state.manuallyDue.foldl State.dueNow state).Accounted
      ∧ (state.manuallyDue.foldl State.dueNow state).phase = state.phase := by
  have hfold : ∀ (hosts : List String) (current : State), current.Accounted →
      (∀ host ∈ hosts, host ∈ current.activeHosts) →
      (hosts.foldl State.dueNow current).Accounted
        ∧ (hosts.foldl State.dueNow current).phase = current.phase := by
    intro hosts
    induction hosts with
    | nil => exact fun current hcurrent _ => ⟨hcurrent, rfl⟩
    | cons host rest ih =>
      intro current hcurrent hactive
      exact ih _ (hcurrent.dueNow (hactive host List.mem_cons_self))
        fun other hother => hactive other (List.mem_cons_of_mem _ hother)
  refine hfold _ state h ?_
  intro host hhost
  have hfilter := (List.mem_filter.mp hhost).2
  rw [Bool.and_eq_true, decide_eq_true_eq] at hfilter
  exact hfilter.1

/-! ### Probes -/

/-- The phase is not that of a completed probe. -/
theorem tasks_eq {state : State}
    (hphase : ∀ round task result applies, state.phase ≠ .settling round task result applies) :
    state.tasks = state.inFlight.map (·.task) := by
  unfold tasks
  split
  · rename_i heq
    exact absurd heq (hphase _ _ _ _)
  · exact List.append_nil _

/-- A probe in flight is left. -/
theorem mem_tasks_of_flight {future : ℕ} {found : Flight} (h : state.flight future = some found) :
    found.task ∈ state.tasks :=
  List.mem_append_left _ (List.mem_map.mpr ⟨found, (flight_eq h).1, rfl⟩)

/-- Moving a worker on leaves its task in flight. -/
theorem tasks_advance (state : State) (future : ℕ) (stage : Stage) :
    (state.advance future stage).tasks = state.tasks := by
  have hmap : (state.advance future stage).inFlight.map (·.task)
      = state.inFlight.map (·.task) := by
    show (state.inFlight.map fun flight => if flight.task.future = future
      then { flight with stage } else flight).map (·.task) = _
    rw [List.map_map]
    refine List.map_congr_left fun flight _ => ?_
    show (if flight.task.future = future then { flight with stage } else flight).task = flight.task
    split <;> rfl
  rw [tasks, tasks, hmap]
  rfl

/-- A worker that moves on without touching the tables. -/
theorem Accounted.advance (h : state.Accounted) (future : ℕ) (stage : Stage) :
    (state.advance future stage).Accounted := by
  refine h.of_frame (fun _ => rfl) rfl ?_ (fun _ _ hn => hn) (fun _ _ hn => hn) h.settles
  intro task
  rw [tasks_advance]

/-- A worker records for the incarnation of its task. -/
theorem Accounted.record (h : state.Accounted) {task : Task} (htask : task ∈ state.tasks)
    (future : ℕ) (stage : Stage) {collector : Probe.Collector}
    (hrecords : ∀ host, ∀ n ∈ collector.origins host,
      (host = task.host ∧ n = task.incarnation) ∨ n ∈ state.collector.origins host) :
    ({ state.advance future stage with collector } : State).Accounted where
  clean := by
    intro host incarnation hget n hn
    rcases mem_origins.mp hn with hn | hn
    · exact h.clean host incarnation hget n (mem_origins.mpr (.inl hn))
    · rcases hrecords host n hn with ⟨rfl, rfl⟩ | hn
      · exact (h.current task htask incarnation hget).symm
      · exact h.clean host incarnation hget n (mem_origins.mpr (.inr hn))
  scheduled := h.scheduled
  collected := by
    intro host n hn
    have htasks : ({ state.advance future stage with collector } : State).tasks = state.tasks :=
      tasks_advance state future stage
    rw [htasks]
    rcases hrecords host n hn with ⟨rfl, rfl⟩ | hn
    · exact .inr ⟨task, htask, rfl⟩
    · exact h.collected host n hn
  current := by
    intro other hother incarnation hget
    have htasks : ({ state.advance future stage with collector } : State).tasks = state.tasks :=
      tasks_advance state future stage
    rw [htasks] at hother
    exact h.current other hother incarnation hget
  settles := h.settles

/-- A completed probe is left until it is settled. -/
theorem Accounted.complete (h : state.Accounted) (hphase : state.phase = .draining round)
    {future : ℕ} {found : Flight} (hfound : state.flight future = some found)
    (outcome : Option Probe.ProbeResult) :
    (state.complete round found.task outcome).Accounted := by
  have htasks : ∀ task, task ∈ (state.complete round found.task outcome).tasks
      ↔ task ∈ state.tasks := by
    intro task
    have hmem : task ∈ state.inFlight.map (·.task) ↔ task = found.task
        ∨ task ∈ (state.inFlight.eraseP fun flight =>
          flight.task.future == found.task.future).map (·.task) := by
      rw [((perm_flight hfound).map (·.task)).mem_iff, List.map_cons, List.mem_cons]
    have hbefore := @tasks_eq state fun _ _ _ _ heq => by rw [hphase] at heq; cases heq
    rw [hbefore, hmem, or_comm]
    exact List.mem_append.trans (or_congr_right List.mem_singleton)
  refine h.of_frame (fun _ => rfl) rfl htasks (fun _ _ hn => hn) (fun _ _ hn => hn) ?_
  intro other task result heq
  injection heq with _ htask _ happlies
  subst htask
  exact of_decide_eq_true (Bool.and_eq_true_iff.mp happlies).1

/-- The outcome of a probe is recorded for the incarnation of its task. -/
theorem mem_scheduleOrigins_recordOutcome {task : Task} {result : Probe.ProbeResult}
    {completedAt : ℚ} {n : ℕ}
    (h : n ∈ (state.recordOutcome jitterUnit task result completedAt).1.scheduleOrigins host) :
    (host = task.host ∧ n = task.incarnation) ∨ n ∈ state.scheduleOrigins host := by
  rw [@mem_scheduleOrigins _ state]
  unfold recordOutcome at h
  dsimp only at h
  split at h
  · rcases mem_scheduleOrigins.mp h with hin | hin | hin | hin | hin
    · exact .inr (.inl (mem_originsIn_erase hin).2)
    · exact (mem_originsIn_set hin).imp_right fun hin => .inr (.inl hin)
    · exact .inr (.inr (.inr (.inl (mem_originsIn_erase hin).2)))
    · exact (mem_originsIn_set hin).imp_right fun hin => .inr (.inr (.inr (.inl hin)))
    · exact (mem_originsIn_set hin).imp_right fun hin => .inr (.inr (.inr (.inr hin)))
  · rcases mem_scheduleOrigins.mp h with hin | hin | hin | hin | hin
    · exact (mem_originsIn_set hin).imp_right .inl
    · exact (mem_originsIn_set hin).imp_right fun hin => .inr (.inl hin)
    · exact (mem_originsIn_set hin).imp_right fun hin => .inr (.inr (.inl hin))
    · exact .inr (.inr (.inr (.inr (.inl (mem_originsIn_erase hin).2))))
    · exact .inr (.inr (.inr (.inr (.inr (mem_originsIn_erase hin).2))))

/-- Recording an outcome touches the schedule only. -/
theorem recordOutcome_frame (state : State) (task : Task) (result : Probe.ProbeResult)
    (completedAt : ℚ) :
    let next := (state.recordOutcome jitterUnit task result completedAt).1
    next.hosts = state.hosts ∧ next.activeHosts = state.activeHosts
      ∧ next.inFlight = state.inFlight ∧ next.collector = state.collector := by
  unfold recordOutcome
  dsimp only
  split <;> exact ⟨rfl, rfl, rfl, rfl⟩

/-- A probe of an active host is settled: the schedule has its outcome. -/
theorem Accounted.settle_active (h : state.Accounted) {task : Task} {result : Probe.ProbeResult}
    (hphase : state.phase = .settling round task result true) (completedAt : ℚ)
    (retryAfterSeconds : Option ℚ) :
    ({ (state.recordOutcome jitterUnit task result completedAt).1 with
        phase := .applying round task result retryAfterSeconds } : State).Accounted := by
  obtain ⟨hhosts, hactive, hflights, hcollector⟩ :=
    @recordOutcome_frame jitterUnit state task result completedAt
  have hsettled : task.host ∈ state.activeHosts := h.settles round task result hphase
  have hleft : state.tasks = state.inFlight.map (·.task) ++ [task] := by
    rw [tasks, hphase]
  have htask : task ∈ state.tasks := by
    rw [hleft]
    exact List.mem_append_right _ (List.mem_singleton_self task)
  have htasks : ({ (state.recordOutcome jitterUnit task result completedAt).1 with
      phase := .applying round task result retryAfterSeconds } : State).tasks
      = state.inFlight.map (·.task) := by
    rw [tasks_eq fun _ _ _ _ heq => by cases heq]
    show ((state.recordOutcome jitterUnit task result completedAt).1.inFlight).map _ = _
    rw [hflights]
  exact {
    clean := by
      intro host incarnation hget n hn
      have hpresent : state.hosts.incarnation host = some incarnation := by
        rw [← hhosts]
        exact hget
      rcases mem_origins.mp hn with hn | hn
      · rcases mem_scheduleOrigins_recordOutcome hn with ⟨rfl, rfl⟩ | hn
        · exact (h.current task htask incarnation hpresent).symm
        · exact h.clean host incarnation hpresent n (mem_origins.mpr (.inl hn))
      · rw [hcollector] at hn
        exact h.clean host incarnation hpresent n (mem_origins.mpr (.inr hn))
    scheduled := by
      intro host n hn
      show host ∈ (state.recordOutcome jitterUnit task result completedAt).1.activeHosts
      rw [hactive]
      rcases mem_scheduleOrigins_recordOutcome hn with ⟨rfl, -⟩ | hn
      · exact hsettled
      · exact h.scheduled host n hn
    collected := by
      intro host n hn
      show host ∈ (state.recordOutcome jitterUnit task result completedAt).1.activeHosts ∨ _
      rw [hactive, htasks]
      have hold : n ∈ state.collector.origins host := by
        rw [← hcollector]
        exact hn
      rcases h.collected host n hold with hin | ⟨other, hother, rfl⟩
      · exact .inl hin
      · rw [hleft] at hother
        rcases List.mem_append.mp hother with hother | hother
        · exact .inr ⟨other, hother, rfl⟩
        · rw [List.mem_singleton.mp hother]
          exact .inl hsettled
    current := by
      intro other hother incarnation hget
      rw [htasks] at hother
      refine h.current other ?_ incarnation ?_
      · rw [hleft]
        exact List.mem_append_left _ hother
      · rw [← hhosts]
        exact hget
    settles := by
      intro _ _ _ heq
      cases heq }

/-- A probe of a removed host is settled: what it left in the collector is dropped. -/
theorem Accounted.settle_removed (h : state.Accounted) (round : Round) :
    ({ state with
        collector := state.collector.retainHosts state.activeHosts
        phase := .draining round } : State).Accounted where
  clean := by
    intro host incarnation hget n hn
    refine h.clean host incarnation hget n (mem_origins.mpr ?_)
    exact (mem_origins.mp hn).imp_right fun hn => (Probe.Collector.mem_origins_retainHosts hn).2
  scheduled := h.scheduled
  collected := fun host n hn => .inl (Probe.Collector.mem_origins_retainHosts hn).1
  current := by
    intro task htask incarnation hget
    rw [tasks_eq fun _ _ _ _ heq => by cases heq] at htask
    exact h.current task (List.mem_append_left _ htask) incarnation hget
  settles := by
    intro _ _ _ heq
    cases heq

/-- A probe that is submitted for the present incarnation of its host. -/
theorem Accounted.addFlight {state next : State} (h : state.Accounted) {task : Task}
    (hcurrent : state.hosts.incarnation task.host = some task.incarnation)
    (hflights : next.inFlight = state.inFlight ++ [{ task := task }])
    (hphase : next.phase = state.phase) (hhosts : next.hosts = state.hosts)
    (hactive : next.activeHosts = state.activeHosts)
    (hschedule : ∀ host, next.scheduleOrigins host = state.scheduleOrigins host)
    (hcollector : next.collector = state.collector) : next.Accounted := by
  have htasks : ∀ other, other ∈ next.tasks ↔ other = task ∨ other ∈ state.tasks := by
    intro other
    rw [tasks, tasks, hflights, hphase, List.map_append, List.append_assoc]
    simp only [List.map_cons, List.map_nil, List.mem_append, List.mem_singleton]
    tauto
  have horigins : ∀ host, next.origins host = state.origins host := by
    intro host
    rw [origins, origins, hschedule, hcollector]
  exact {
    clean := by
      intro host incarnation hget n hn
      rw [hhosts] at hget
      rw [horigins] at hn
      exact h.clean host incarnation hget n hn
    scheduled := by
      intro host n hn
      rw [hschedule] at hn
      rw [hactive]
      exact h.scheduled host n hn
    collected := by
      intro host n hn
      rw [hcollector] at hn
      rw [hactive]
      refine (h.collected host n hn).imp_right ?_
      rintro ⟨other, hother, heq⟩
      exact ⟨other, (htasks other).mpr (.inr hother), heq⟩
    current := by
      intro other hother incarnation hget
      rw [hhosts] at hget
      rcases (htasks other).mp hother with rfl | hother
      · exact Option.some.inj (hget.symm.trans hcurrent)
      · exact h.current other hother incarnation hget
    settles := by
      intro round other result heq
      rw [hphase] at heq
      rw [hactive]
      exact h.settles round other result heq }

theorem Accounted.submitHost (h : state.Accounted) (round : Round) (startedAt : ℚ) (host : String) :
    (State.submitHost round startedAt state host).Accounted := by
  unfold State.submitHost
  split
  · exact h
  · dsimp only
    cases hget : state.hosts.incarnation host with
    | none =>
      exact h.of_frame (fun _ => rfl) rfl (fun _ => Iff.rfl) (fun _ _ hn => hn)
        (fun _ _ hn => hn) h.settles
    | some incarnation => exact h.addFlight hget rfl rfl rfl rfl (fun _ => rfl) rfl

/-- The submissions of a round. -/
theorem Accounted.submit (h : state.Accounted) (round : Round) {startedAt : ℚ}
    (hphase : ∀ other task result applies, state.phase ≠ .settling other task result applies) :
    (state.submit round startedAt).Accounted := by
  have hfold : ∀ (hosts : List String) (current : State), current.Accounted →
      (hosts.foldl (State.submitHost round startedAt) current).Accounted
        ∧ (hosts.foldl (State.submitHost round startedAt) current).phase = current.phase := by
    intro hosts
    induction hosts with
    | nil => exact fun current hcurrent => ⟨hcurrent, rfl⟩
    | cons host rest ih =>
      intro current hcurrent
      obtain ⟨hrest, hsame⟩ := ih _ (hcurrent.submitHost round startedAt host)
      refine ⟨hrest, hsame.trans ?_⟩
      unfold State.submitHost
      split
      · rfl
      · dsimp only
        cases current.hosts.incarnation host <;> rfl
  have hwait : ∀ current : State, current.Accounted → current.phase = state.phase →
      ({ current with phase := .waiting } : State).Accounted := by
    intro current hcurrent hsame
    have hleft := @tasks_eq current fun _ _ _ _ heq => hphase _ _ _ _ (hsame ▸ heq)
    refine hcurrent.of_frame (fun _ => rfl) rfl ?_ (fun _ _ hn => hn) (fun _ _ hn => hn)
      (fun _ _ _ heq => by cases heq)
    intro task
    rw [hleft, tasks_eq fun _ _ _ _ heq => by cases heq]
  unfold State.submit
  split
  · exact hwait state h rfl
  · obtain ⟨hsubmitted, hsame⟩ := hfold (state.dueHosts round) state h
    exact hwait _ hsubmitted hsame

/-! ### Steps and runs -/

/-- A phase that holds no completed probe can be left for another one. -/
theorem Accounted.enter (h : state.Accounted) {phase : Phase}
    (hleft : ∀ round task result applies, state.phase ≠ .settling round task result applies)
    (hentered : ∀ round task result applies, phase ≠ .settling round task result applies) :
    ({ state with phase } : State).Accounted := by
  refine h.of_frame (fun _ => rfl) rfl ?_ (fun _ _ hn => hn) (fun _ _ hn => hn)
    (fun _ _ _ heq => absurd heq (hentered _ _ _ _))
  intro task
  rw [tasks_eq hleft, @tasks_eq { state with phase } hentered]

/-- The inventory section of a round. -/
theorem Accounted.adoptHosts (h : state.Accounted) (hphase : state.phase = .discovering round)
    {found : Option HostList} (hunseen : state.AddsUnseen (.adoptHosts found)) :
    (state.adoptHosts round found).Accounted := by
  have hleft : ∀ other task result applies,
      state.phase ≠ .settling other task result applies := by
    intro _ _ _ _ heq
    rw [hphase] at heq
    cases heq
  unfold State.adoptHosts
  split
  · exact h.enter hleft fun _ _ _ _ heq => by cases heq
  · rename_i hcurrent
    have hactivate : ∀ current : State, current.Accounted → current.phase = state.phase →
        ({ current.activate with phase := .admitted round } : State).Accounted := by
      intro current haccounted hsame
      have hnot : ∀ other task result applies,
          current.phase ≠ .settling other task result applies := by
        rw [hsame]
        exact hleft
      have hactive : current.activate.phase = current.phase := by
        unfold State.activate
        dsimp only
        split <;> rfl
      refine (haccounted.activate fun _ _ _ => hnot _ _ _ _).enter ?_ fun _ _ _ _ heq => by cases heq
      rw [hactive]
      exact hnot
    cases found with
    | none => exact hactivate state h rfl
    | some hosts =>
      refine hactivate _ (h.install ?_) rfl
      intro host hhost hnone
      refine hunseen host ?_ hnone
      unfold State.installs
      rw [hphase]
      dsimp only
      rw [if_neg hcurrent]
      exact hhost

/-- A step of the scheduler thread. -/
theorem Accounted.scheduleStep {state next : State} (h : state.Accounted) {event : Event}
    (hunseen : state.AddsUnseen event)
    (hstep : Scheduler.scheduleStep jitterUnit state event = some next) : next.Accounted := by
  have hnot : ∀ {phase : Phase}, state.phase = phase →
      (∀ round task result applies, phase ≠ .settling round task result applies) →
      ∀ round task result applies, state.phase ≠ .settling round task result applies :=
    fun heq hphase => heq ▸ hphase
  cases event with
  | snapshot now attended =>
    dsimp only [Scheduler.scheduleStep] at hstep
    split at hstep
    · rename_i hphase
      cases hstep
      have hattended : ({ state with
          collector := state.collector.setAttended attended } : State).Accounted :=
        h.of_frame (fun _ => rfl) rfl (fun _ => Iff.rfl) (fun _ _ hn => hn)
          (fun _ _ hn => Probe.Collector.mem_origins_setAttended hn) h.settles
      exact hattended.enter (hnot hphase fun _ _ _ _ heq => by cases heq)
        fun _ _ _ _ heq => by cases heq
    · cases hstep
  | adoptHosts found =>
    dsimp only [Scheduler.scheduleStep] at hstep
    split at hstep
    · rename_i round hphase
      cases hstep
      exact h.adoptHosts hphase hunseen
    · cases hstep
  | rebase =>
    dsimp only [Scheduler.scheduleStep] at hstep
    split at hstep
    · rename_i round hphase
      cases hstep
      have hmoved := @moved_rebaseFailureBackoff jitterUnit state round
      refine (h.of_moved hmoved).enter ?_ fun _ _ _ _ heq => by cases heq
      rw [hmoved.phase]
      exact hnot hphase fun _ _ _ _ heq => by cases heq
    · cases hstep
  | takeRequests =>
    dsimp only [Scheduler.scheduleStep] at hstep
    split at hstep
    · rename_i round hphase
      cases hstep
      obtain ⟨hdue, hsame⟩ := h.takeRequests
      refine hdue.enter ?_ fun _ _ _ _ heq => by cases heq
      rw [hsame]
      exact hnot hphase fun _ _ _ _ heq => by cases heq
    · cases hstep
  | repace =>
    dsimp only [Scheduler.scheduleStep] at hstep
    split at hstep
    · rename_i round hphase
      cases hstep
      have hmoved := moved_repace state round
      refine (h.of_moved hmoved).enter ?_ fun _ _ _ _ heq => by cases heq
      rw [hmoved.phase]
      exact hnot hphase fun _ _ _ _ heq => by cases heq
    · cases hstep
  | complete future =>
    dsimp only [Scheduler.scheduleStep] at hstep
    split at hstep
    · rename_i round task outcome hphase hfound
      cases hstep
      exact h.complete hphase hfound outcome
    · cases hstep
  | settle completedAt =>
    dsimp only [Scheduler.scheduleStep] at hstep
    split at hstep
    · rename_i round task result hphase
      cases hstep
      exact h.settle_active hphase completedAt _
    · rename_i round task result hphase
      cases hstep
      exact h.settle_removed round
    · cases hstep
  | applyResult =>
    dsimp only [Scheduler.scheduleStep] at hstep
    split at hstep
    · rename_i round task result retry hphase
      cases hstep
      have happlied : ({ state with
          hosts := (state.hosts.apply ⟨task.host, task.incarnation, result⟩ retry)
          } : State).Accounted :=
        h.of_frame (fun host => HostTable.incarnation_apply _ _ _ host) rfl (fun _ => Iff.rfl)
          (fun _ _ hn => hn) (fun _ _ hn => hn) h.settles
      exact happlied.enter (hnot hphase fun _ _ _ _ heq => by cases heq)
        fun _ _ _ _ heq => by cases heq
    · cases hstep
  | submit startedAt =>
    dsimp only [Scheduler.scheduleStep] at hstep
    split at hstep
    · rename_i round hphase
      cases hstep
      exact h.submit round (hnot hphase fun _ _ _ _ heq => by cases heq)
    · cases hstep
  | _ => cases hstep

/-- A step of a worker. -/
theorem Accounted.workerStep {state next : State} (h : state.Accounted) {event : Event}
    (hstep : Scheduler.workerStep state event = some next) : next.Accounted := by
  cases event with
  | startProbe future now =>
    dsimp only [Scheduler.workerStep] at hstep
    split at hstep
    · cases hstep
      exact h.advance future _
    · cases hstep
  | failProbe future failure =>
    dsimp only [Scheduler.workerStep] at hstep
    split at hstep
    · cases hstep
    · split at hstep
      · cases hstep
        exact h.advance future _
      · cases hstep
    · cases hstep
  | sampleSystem future parsed observedMonotonic =>
    dsimp only [Scheduler.workerStep] at hstep
    split at hstep
    · rename_i task started sampled hfound
      cases hstep
      exact h.record (mem_tasks_of_flight hfound) future _
        fun host n hn => Probe.Collector.mem_origins_systemMetrics hn
    · cases hstep
  | mergeProcesses future observedAt latencyMs transportRetries =>
    dsimp only [Scheduler.workerStep] at hstep
    split at hstep
    · rename_i task started sampled parsed system hfound
      cases hstep
      exact h.record (mem_tasks_of_flight hfound) future _
        fun host n hn => Probe.Collector.mem_origins_mergeProcessSample hn
    · cases hstep
  | _ => cases hstep

/-- Every step that adds only unseen hosts keeps the records accounted for. -/
theorem Accounted.step {state next : State} (h : state.Accounted) {event : Event}
    (hunseen : state.AddsUnseen event)
    (hstep : Scheduler.step jitterUnit state event = some next) : next.Accounted := by
  have hscheduler : (if state.crashed then none else
      Scheduler.scheduleStep jitterUnit state event) = some next → next.Accounted := by
    intro hstep
    split at hstep
    · cases hstep
    · exact h.scheduleStep hunseen hstep
  have hworker : Scheduler.workerStep state event = some next → next.Accounted := h.workerStep
  cases event with
  | updateConfig config found =>
    cases hstep
    exact (h.install hunseen).of_frame (fun _ => rfl) rfl (fun _ => Iff.rfl)
      (fun _ _ hn => hn) (fun _ _ hn => hn) h.settles
  | setPollInterval seconds =>
    cases hstep
    exact h.of_frame (fun _ => rfl) rfl (fun _ => Iff.rfl) (fun _ _ hn => hn)
      (fun _ _ hn => hn) h.settles
  | requestProbe host now =>
    cases hstep
    unfold State.requestProbe
    split
    · exact h
    · split
      · exact h
      · exact h.of_frame (fun _ => rfl) rfl (fun _ => Iff.rfl) (fun _ _ hn => hn)
          (fun _ _ hn => hn) h.settles
  | startProbe | failProbe | sampleSystem | mergeProcesses => exact hworker hstep
  | snapshot | adoptHosts | rebase | takeRequests | repace | complete | settle | applyResult
  | submit => exact hscheduler hstep

end

end State

/-! ### The result -/

/-- In every run whose steps add a host only after a round has seen it absent, and when no probe
of it is left, each monitored host has records of its present incarnation only: nothing that was
recorded before a removal bears on its first probe, its backoff, its rates or its processes. -/
theorem clean_of_run {jitterUnit : String → ℕ → ℚ} {config : MonitorConfig} {events : List Event}
    {state : State}
    (hrun : RunWhere jitterUnit State.AddsUnseen (State.start config) events state) :
    state.Clean := by
  have haccounted : state.Accounted :=
    hrun.invariant (State.accounted_start config) fun _ _ _ h hallowed hstep => h.step hallowed hstep
  exact haccounted.clean

/-- One worker, and a probe every five seconds. -/
private def plainConfig : MonitorConfig := { maxWorkers := 1, pollIntervalSeconds := 5 }

private def unjittered : String → ℕ → ℚ := fun _ _ => 0

private def onlyHost : HostList := ⟨["node-a"], List.nodup_singleton _⟩

private def noHosts : HostList := ⟨[], List.nodup_nil⟩

/-- The steps of a round up to the drain. -/
private def roundAt (now : ℚ) : List Event :=
  [.snapshot now true, .adoptHosts none, .rebase, .takeRequests, .repace]

/-- The host is added, and its first probe fails. -/
private def failedOnce : List Event :=
  [.updateConfig plainConfig (some onlyHost)] ++ roundAt 0 ++ [.submit 0, .startProbe 0 0,
    .failProbe 0 (some { host := "node-a", status := .unreachable, latencyMs := 0 })]
    ++ roundAt 1 ++ [.complete 0, .settle 1, .applyResult, .submit 1]

/-- The host is removed, a round sees it absent, and it is added again. -/
private def seenAbsent : List Event :=
  failedOnce ++ [.updateConfig plainConfig (some noHosts)] ++ roundAt 2 ++ [.submit 2]
    ++ [.updateConfig plainConfig (some onlyHost)] ++ roundAt 3

/-- The host is removed and added again before the next round. -/
private def readdedBetweenRounds : List Event :=
  failedOnce ++ [.updateConfig plainConfig (some noHosts),
    .updateConfig plainConfig (some onlyHost)] ++ roundAt 3

/-- A host that a round saw absent starts clean, and is due at once. -/
theorem clean_of_run_seenAbsent :
    ∃ state, RunWhere unjittered State.AddsUnseen (.start plainConfig) seenAbsent state
      ∧ state.hosts.incarnation "node-a" = some 2 ∧ state.Clean ∧ state.deadline "node-a" = 0 := by
  have hreached : (execute (step unjittered) State.AddsUnseen (.start plainConfig) seenAbsent).any
      (fun state => decide (state.hosts.incarnation "node-a" = some 2)
        && decide (state.deadline "node-a" = 0)) = true := by
    decide +kernel
  obtain ⟨state, hstate, hcheck⟩ := (Option.any_eq_true _ _).mp hreached
  rw [Bool.and_eq_true, decide_eq_true_eq, decide_eq_true_eq] at hcheck
  have hrun := runWhere_of_execute hstate
  exact ⟨state, hrun, hcheck.1, clean_of_run hrun, hcheck.2⟩

/-- The round that is being drained does not probe the host, which was added again, and would
probe it without the old deadline. -/
private def waitsForOldDeadline (state : State) : Bool :=
  match state.phase with
  | .draining round =>
    decide (state.hosts.incarnation "node-a" = some 2)
    && decide (1 ∈ state.origins "node-a") && decide (state.dueHosts round = [])
    && decide (({ state with
      nextProbeAt := state.nextProbeAt.erase "node-a" } : State).dueHosts round = ["node-a"])
  | _ => false

/-- A host that is added again between two rounds waits for the retry of the removed one: without
the old deadline the round would probe it. -/
theorem readdedBetweenRounds_waits :
    ∃ state round, Run unjittered (.start plainConfig) readdedBetweenRounds state
      ∧ state.phase = .draining round ∧ state.hosts.incarnation "node-a" = some 2
      ∧ ¬ state.Clean ∧ state.dueHosts round = []
      ∧ ({ state with nextProbeAt := state.nextProbeAt.erase "node-a" } : State).dueHosts round
        = ["node-a"] := by
  have hreached : (execute (step unjittered) (fun _ _ => True) (.start plainConfig)
      readdedBetweenRounds).any waitsForOldDeadline = true := by
    decide +kernel
  obtain ⟨state, hstate, hcheck⟩ := (Option.any_eq_true _ _).mp hreached
  unfold waitsForOldDeadline at hcheck
  split at hcheck
  · rename_i round hphase
    simp only [Bool.and_eq_true, decide_eq_true_eq] at hcheck
    obtain ⟨⟨⟨hincarnation, horigin⟩, hnone⟩, hdue⟩ := hcheck
    refine ⟨state, round, runWhere_of_execute hstate, hphase, hincarnation, ?_, hnone, hdue⟩
    intro hclean
    have hone := hclean "node-a" 2 hincarnation 1 horigin
    omega
  · cases hcheck

end Mocop.Scheduler
