import Mocop.Scheduler.Hosts
import Mocop.Scheduler.Step

/-!
# `Mocop.Scheduler.SingleFlight`: one probe per host, for the host that it was submitted for

`State.Sound` holds in every state of every run. No two probes in flight are of one host. A
round whose configuration has not been replaced has the discovered hosts as its active hosts,
and these are the hosts of the store, so a submission finds an incarnation. A sample is kept
under the incarnation of its probe, and an incarnation is never given out twice.

`Sound.step` goes through the events once. For each it also says that the host table extends
the one before and how many probes are in flight afterwards.
-/

set_option autoImplicit false

namespace Mocop.Scheduler

/-- The round that the scheduler is in. -/
def Phase.round : Phase → Option Round
  | .waiting => none
  | .discovering round | .admitted round | .rebased round | .requested round | .draining round
  | .settling round _ _ _ | .applying round _ _ _ => some round

/-- Whether the round has passed its inventory section. -/
def Phase.pastInventory : Phase → Bool
  | .waiting | .discovering _ => false
  | _ => true

/-- The completed probe that a phase hands over. -/
def Phase.handed : Phase → Option (Task × Probe.ProbeResult)
  | .settling _ task result _ | .applying _ task result _ => some (task, result)
  | _ => none

namespace State

/-- The probes in flight: one a host, each with a number of its own, and each returns a sample of
its host. -/
structure Flights (inFlight : List Flight) (inFlightHosts : List String) (nextFuture : ℕ) :
    Prop where
  nodup : (inFlight.map (·.task.host)).Nodup
  flying : ∀ flight ∈ inFlight, flight.task.host ∈ inFlightHosts
  numbered : (inFlight.map (·.task.future)).Nodup
  issued : ∀ flight ∈ inFlight, flight.task.future < nextFuture
  returns : ∀ flight ∈ inFlight, ∀ result, flight.stage = .finished (some result) →
    result.host = flight.task.host

/-- What holds in every state of the service. A round works with the configuration that it read
and knows when this was replaced; until then its active hosts are those of the store. -/
structure Sound (state : State) : Prop where
  hosts : state.hosts.Sound
  running : state.crashed = false
  flights : Flights state.inFlight state.inFlightHosts state.nextFuture
  handed : ∀ task result, state.phase.handed = some (task, result) → result.host = task.host
  monitored : ∀ host ∈ state.discovered, (state.hosts.incarnation host).isSome
  discovered : state.discovered.Nodup
  active : state.activeHosts.Nodup
  older : ∀ round, state.phase.round = some round → round.generation ≤ state.generation
  sameConfig : ∀ round, state.phase.round = some round → round.generation = state.generation →
    round.config = state.config
  sameHosts : ∀ round, state.phase.round = some round → state.phase.pastInventory = true →
    round.generation = state.generation → state.activeHosts = state.discovered

theorem sound_start (config : MonitorConfig) : (State.start config).Sound where
  hosts := ⟨fun host server h => by simp [State.start] at h,
    fun host server h => by simp [State.start] at h⟩
  running := rfl
  flights := ⟨List.nodup_nil, fun _ h => absurd h List.not_mem_nil, List.nodup_nil,
    fun _ h => absurd h List.not_mem_nil, fun _ h => absurd h List.not_mem_nil⟩
  handed := fun _ _ h => by cases h
  monitored := fun _ h => by cases h
  discovered := List.nodup_nil
  active := List.nodup_nil
  older := fun _ h => by cases h
  sameConfig := fun _ h => by cases h
  sameHosts := fun _ h => by cases h

/-- What a step within a phase leaves as it is. -/
structure Kept (state next : State) : Prop where
  hosts : state.hosts.Sound → next.hosts.Sound ∧ HostTable.Extends state.hosts next.hosts
  incarnation : ∀ host, next.hosts.incarnation host = state.hosts.incarnation host
  crashed : next.crashed = state.crashed
  inFlight : next.inFlight = state.inFlight
  inFlightHosts : next.inFlightHosts = state.inFlightHosts
  phase : next.phase = state.phase
  discovered : next.discovered = state.discovered
  activeHosts : next.activeHosts = state.activeHosts
  generation : next.generation = state.generation
  config : next.config = state.config
  nextFuture : next.nextFuture = state.nextFuture

theorem Kept.refl (state : State) : Kept state state :=
  ⟨fun h => ⟨h, .refl _⟩, fun _ => rfl, rfl, rfl, rfl, rfl, rfl, rfl, rfl, rfl, rfl⟩

theorem Kept.trans {first second third : State} (h : Kept first second)
    (h' : Kept second third) : Kept first third where
  hosts := fun hsound =>
    ⟨(h'.hosts (h.hosts hsound).1).1, (h.hosts hsound).2.trans (h'.hosts (h.hosts hsound).1).2⟩
  incarnation := fun host => (h'.incarnation host).trans (h.incarnation host)
  crashed := h'.crashed.trans h.crashed
  inFlight := h'.inFlight.trans h.inFlight
  inFlightHosts := h'.inFlightHosts.trans h.inFlightHosts
  phase := h'.phase.trans h.phase
  discovered := h'.discovered.trans h.discovered
  activeHosts := h'.activeHosts.trans h.activeHosts
  generation := h'.generation.trans h.generation
  config := h'.config.trans h.config
  nextFuture := h'.nextFuture.trans h.nextFuture

/-- A fold of steps within a phase. -/
theorem Kept.foldl {α : Type} {f : State → α → State} (hstep : ∀ state x, Kept state (f state x))
    (l : List α) (state : State) : Kept state (l.foldl f state) :=
  List.foldlRecOn l f (Kept.refl state) fun _ h x _ => h.trans (hstep _ x)

theorem Sound.of_kept {state next : State} (h : state.Sound) (hkept : Kept state next) :
    next.Sound where
  hosts := (hkept.hosts h.hosts).1
  running := hkept.crashed.trans h.running
  flights := by
    rw [hkept.inFlight, hkept.inFlightHosts, hkept.nextFuture]
    exact h.flights
  handed := by
    rw [hkept.phase]
    exact h.handed
  monitored := by
    rw [hkept.discovered]
    intro host hhost
    rw [hkept.incarnation]
    exact h.monitored host hhost
  discovered := hkept.discovered ▸ h.discovered
  active := hkept.activeHosts ▸ h.active
  older := by
    rw [hkept.phase, hkept.generation]
    exact h.older
  sameConfig := by
    rw [hkept.phase, hkept.generation, hkept.config]
    exact h.sameConfig
  sameHosts := by
    rw [hkept.phase, hkept.generation, hkept.activeHosts, hkept.discovered]
    exact h.sameHosts

variable {state : State}

/-- Another phase of the same round, or the end of the round. -/
theorem Sound.enter (h : state.Sound) {phase : Phase}
    (hround : ∀ round, phase.round = some round → state.phase.round = some round)
    (hpast : phase.pastInventory = true → state.phase.pastInventory = true)
    (hhanded : ∀ task result, phase.handed = some (task, result) → result.host = task.host) :
    ({ state with phase } : State).Sound where
  hosts := h.hosts
  running := h.running
  flights := h.flights
  handed := hhanded
  monitored := h.monitored
  discovered := h.discovered
  active := h.active
  older := fun round heq => h.older round (hround round heq)
  sameConfig := fun round heq => h.sameConfig round (hround round heq)
  sameHosts := fun round heq hin => h.sameHosts round (hround round heq) (hpast hin)

/-! ### The steps -/

/-- Installing hosts: the store monitors them. -/
theorem Sound.install (h : state.Sound) {hosts : List String} (hnodup : hosts.Nodup) :
    (state.install hosts).hosts.Sound
      ∧ HostTable.Extends state.hosts (state.install hosts).hosts
      ∧ (∀ host ∈ hosts, ((state.install hosts).hosts.incarnation host).isSome)
      ∧ (state.install hosts).discovered.Nodup := by
  obtain ⟨hsound, hextends, hmem⟩ := HostTable.setHosts_spec h.hosts hosts
  exact ⟨hsound, hextends, fun host hhost => (hmem host).mpr hhost, hnodup⟩

/-- A configuration update leaves every round behind. -/
theorem Sound.updateConfig (h : state.Sound) (config : MonitorConfig) (found : Option HostList) :
    (state.updateConfig config found).Sound
      ∧ HostTable.Extends state.hosts (state.updateConfig config found).hosts := by
  have hnodup : (((found.map (·.1)).getD state.discovered).filter
      fun host => decide (host ∉ config.excludeHosts)).Nodup := by
    refine List.Nodup.filter _ ?_
    cases found with
    | none => exact h.discovered
    | some hosts => exact hosts.2
  obtain ⟨hsound, hextends, hmonitored, hdiscovered⟩ := h.install hnodup
  have hbehind : ∀ round, state.phase.round = some round →
      round.generation ≠ state.generation + 1 := by
    intro round hround
    have hle := h.older round hround
    omega
  exact ⟨{
    hosts := hsound
    running := h.running
    flights := h.flights
    handed := h.handed
    monitored := hmonitored
    discovered := hdiscovered
    active := h.active
    older := fun round hround => (h.older round hround).trans (Nat.le_succ _)
    sameConfig := fun round hround heq => absurd heq (hbehind round hround)
    sameHosts := fun round hround _ heq => absurd heq (hbehind round hround) }, hextends⟩

/-- The discovered hosts become active; nothing else of a sound state changes. -/
theorem activate_eq (state : State) :
    ∃ failureCounts nextProbeAt backoffPolicies runtimeHosts manualProbeRequests lastManualProbeAt
      healthyStartedAt healthyIntervals collector, state.activate = { state with
        activeHosts := state.discovered
        failureCounts, nextProbeAt, backoffPolicies, runtimeHosts, manualProbeRequests
        lastManualProbeAt, healthyStartedAt, healthyIntervals, collector } := by
  unfold State.activate
  dsimp only
  split
  · exact ⟨_, _, _, _, _, _, _, _, _, rfl⟩
  · exact ⟨_, _, _, _, _, _, _, _, _, rfl⟩

/-- The inventory section of a round. -/
theorem Sound.adoptHosts (h : state.Sound) {round : Round}
    (hphase : state.phase = .discovering round) (found : Option HostList) :
    (state.adoptHosts round found).Sound
      ∧ HostTable.Extends state.hosts (state.adoptHosts round found).hosts
      ∧ (state.adoptHosts round found).inFlight = state.inFlight := by
  have hround : state.phase.round = some round := by rw [hphase]; rfl
  unfold State.adoptHosts
  split
  · exact ⟨h.enter (fun _ heq => by cases heq) (fun heq => by cases heq)
      (fun _ _ heq => by cases heq), .refl _, rfl⟩
  · -- Whatever was discovered, the active hosts are those that the store monitors.
    have hactivate : ∀ current : State, current.hosts.Sound → current.crashed = false →
        Flights current.inFlight current.inFlightHosts current.nextFuture →
        (∀ host ∈ current.discovered, (current.hosts.incarnation host).isSome) →
        current.discovered.Nodup → current.generation = state.generation →
        current.config = state.config →
        ({ current.activate with phase := .admitted round } : State).Sound
          ∧ current.activate.hosts = current.hosts
          ∧ current.activate.inFlight = current.inFlight := by
      intro current hhosts hrunning hflights hmonitored hnodup hgeneration hconfig
      obtain ⟨_, _, _, _, _, _, _, _, _, heq⟩ := activate_eq current
      rw [heq]
      refine ⟨?_, rfl, rfl⟩
      have hsame : ∀ other, (Phase.admitted round).round = some other → other = round := by
        intro other hother
        exact (Option.some.inj hother).symm
      exact {
        hosts := hhosts
        running := hrunning
        flights := hflights
        handed := fun _ _ hhanded => by cases hhanded
        monitored := hmonitored
        discovered := hnodup
        active := hnodup
        older := by
          intro other hother
          rw [hsame other hother]
          show round.generation ≤ current.generation
          rw [hgeneration]
          exact h.older round hround
        sameConfig := by
          intro other hother hcurrent
          rw [hsame other hother] at hcurrent ⊢
          show round.config = current.config
          rw [hconfig]
          exact h.sameConfig round hround (hcurrent.trans hgeneration)
        sameHosts := fun _ _ _ _ => rfl }
    cases found with
    | none =>
      obtain ⟨hsound, hhosts, hflights⟩ :=
        hactivate state h.hosts h.running h.flights h.monitored h.discovered rfl rfl
      refine ⟨hsound, ?_, hflights⟩
      show HostTable.Extends state.hosts state.activate.hosts
      rw [hhosts]
      exact .refl _
    | some hosts =>
      obtain ⟨hsound, hextends, hmonitored, hnodup⟩ :=
        h.install (List.Nodup.filter (fun host => decide (host ∉ round.config.excludeHosts))
          hosts.2)
      obtain ⟨hadmitted, hsame, hflights⟩ :=
        hactivate _ hsound h.running h.flights
          hmonitored hnodup rfl rfl
      refine ⟨hadmitted, ?_, hflights⟩
      show HostTable.Extends state.hosts (State.activate _).hosts
      rw [hsame]
      exact hextends

section
variable {jitterUnit : String → ℕ → ℚ}

theorem kept_rebaseFailureBackoff (state : State) (round : Round) :
    Kept state (state.rebaseFailureBackoff jitterUnit round) := by
  refine Kept.foldl (fun current entry => ?_) state.failureCounts.entries state
  unfold rebaseHost
  dsimp only
  split
  · exact Kept.refl current
  · split
    · exact Kept.refl current
    · exact ⟨fun h => h.rescheduleRetry _ _,
        fun host => HostTable.incarnation_rescheduleRetry _ _ _ host,
        rfl, rfl, rfl, rfl, rfl, rfl, rfl, rfl, rfl⟩

theorem kept_takeRequests (state : State) :
    Kept state (state.manuallyDue.foldl State.dueNow state) :=
  @Kept.foldl _ State.dueNow (fun _ _ =>
    ⟨fun h => ⟨h, .refl _⟩, fun _ => rfl, rfl, rfl, rfl, rfl, rfl, rfl, rfl, rfl, rfl⟩) _ state

theorem kept_repace (state : State) (round : Round) : Kept state (state.repace round) := by
  refine Kept.foldl (fun current entry => ?_) state.healthyStartedAt.entries state
  unfold repaceHost
  dsimp only
  split
  · exact Kept.refl current
  · split
    · exact Kept.refl current
    · exact ⟨fun h => ⟨h, .refl _⟩, fun _ => rfl, rfl, rfl, rfl, rfl, rfl, rfl, rfl, rfl, rfl⟩

theorem kept_recordOutcome (state : State) (task : Task) (result : Probe.ProbeResult)
    (completedAt : ℚ) : Kept state (state.recordOutcome jitterUnit task result completedAt).1 := by
  unfold recordOutcome
  dsimp only
  split <;>
    exact ⟨fun h => ⟨h, .refl _⟩, fun _ => rfl, rfl, rfl, rfl, rfl, rfl, rfl, rfl, rfl, rfl⟩

/-- A probe that is taken out of flight leaves its host free. -/
theorem Sound.complete (h : state.Sound) {round : Round} (hphase : state.phase = .draining round)
    {future : ℕ} {found : Flight} (hfound : state.flight future = some found)
    {outcome : Option Probe.ProbeResult} (hstage : found.stage = .finished outcome) :
    (state.complete round found.task outcome).Sound := by
  have hround : state.phase.round = some round := by rw [hphase]; rfl
  have hsame : ∀ other, (Phase.round (state.complete round found.task outcome).phase)
      = some other → other = round := by
    intro other hother
    exact (Option.some.inj hother).symm
  have hsub : ((state.complete round found.task outcome).inFlight).Sublist state.inFlight :=
    List.eraseP_sublist
  exact {
    hosts := h.hosts
    running := h.running
    flights := by
      refine ⟨h.flights.nodup.sublist (hsub.map _), ?_, h.flights.numbered.sublist (hsub.map _),
        fun flight hflight => h.flights.issued flight (hsub.subset hflight), ?_⟩
      · intro flight hflight
        -- No other probe in flight is of the host that is set free.
        have hothers := (((perm_flight hfound).map (·.task.host)).nodup_iff.mp h.flights.nodup)
        have hne : flight.task.host ≠ found.task.host := by
          intro heq
          exact (List.nodup_cons.mp hothers).1 (List.mem_map.mpr ⟨flight, hflight, heq⟩)
        exact List.mem_filter.mpr
          ⟨h.flights.flying flight (hsub.subset hflight), decide_eq_true hne⟩
      · intro flight hflight
        exact h.flights.returns flight (hsub.subset hflight)
    handed := by
      intro task result hhanded
      cases hhanded
      cases outcome with
      | none => rfl
      | some result => exact h.flights.returns found (flight_eq hfound).1 result hstage
    monitored := h.monitored
    discovered := h.discovered
    active := h.active
    older := fun other hother => by
      rw [hsame other hother]
      exact h.older round hround
    sameConfig := fun other hother heq => by
      rw [hsame other hother] at heq ⊢
      exact h.sameConfig round hround heq
    sameHosts := fun other hother _ heq => by
      rw [hsame other hother] at heq
      exact h.sameHosts round hround (by rw [hphase]; rfl) heq }

/-- A worker moves on, to a stage whose sample is of its host. -/
theorem Sound.advance (h : state.Sound) {future : ℕ} {found : Flight}
    (hfound : state.flight future = some found) {stage : Stage}
    (hstage : ∀ result, stage = .finished (some result) → result.host = found.task.host)
    (collector : Probe.Collector) :
    ({ state.advance future stage with collector } : State).Sound := by
  have hmap : ∀ {α : Type} (f : Task → α), ((state.advance future stage).inFlight).map
      (fun flight => f flight.task) = state.inFlight.map fun flight => f flight.task := by
    intro α f
    show (state.inFlight.map fun flight => if flight.task.future = future
      then { flight with stage } else flight).map _ = _
    rw [List.map_map]
    refine List.map_congr_left fun flight _ => ?_
    show f (if flight.task.future = future then { flight with stage } else flight).task = _
    split <;> rfl
  -- A probe in flight afterwards is one of before, with the new stage if it is the one that moved.
  have hmem : ∀ flight ∈ (state.advance future stage).inFlight, ∃ earlier ∈ state.inFlight,
      flight.task = earlier.task
        ∧ (flight.stage = earlier.stage ∨ (earlier = found ∧ flight.stage = stage)) := by
    intro flight hflight
    obtain ⟨earlier, hearlier, rfl⟩ := List.mem_map.mp hflight
    refine ⟨earlier, hearlier, ?_⟩
    split
    · rename_i hfuture
      refine ⟨rfl, .inr ⟨?_, rfl⟩⟩
      obtain ⟨hin, hnumber⟩ := flight_eq hfound
      exact List.inj_on_of_nodup_map h.flights.numbered hearlier hin (hfuture.trans hnumber.symm)
    · exact ⟨rfl, .inl rfl⟩
  exact {
    hosts := h.hosts
    running := h.running
    flights := by
      refine ⟨(hmap (·.host)) ▸ h.flights.nodup, ?_, (hmap (·.future)) ▸ h.flights.numbered, ?_, ?_⟩
      · intro flight hflight
        obtain ⟨earlier, hearlier, heq, -⟩ := hmem flight hflight
        rw [heq]
        exact h.flights.flying earlier hearlier
      · intro flight hflight
        obtain ⟨earlier, hearlier, heq, -⟩ := hmem flight hflight
        rw [heq]
        exact h.flights.issued earlier hearlier
      · intro flight hflight result hresult
        obtain ⟨earlier, hearlier, heq, hsame | ⟨rfl, hmoved⟩⟩ := hmem flight hflight
        · rw [heq]
          exact h.flights.returns earlier hearlier result (hsame ▸ hresult)
        · rw [heq]
          exact hstage result (hmoved ▸ hresult)
    handed := h.handed
    monitored := h.monitored
    discovered := h.discovered
    active := h.active
    older := h.older
    sameConfig := h.sameConfig
    sameHosts := h.sameHosts }

/-- The submission of one host that has no probe in flight. -/
theorem Sound.submitHost (h : state.Sound) (round : Round) (startedAt : ℚ) {host : String}
    (hfree : host ∉ state.inFlightHosts) (hmonitored : (state.hosts.incarnation host).isSome) :
    (State.submitHost round startedAt state host).Sound
      ∧ (State.submitHost round startedAt state host).hosts = state.hosts
      ∧ (State.submitHost round startedAt state host).inFlight.length = state.inFlight.length + 1
      ∧ (∀ other, other ∈ (State.submitHost round startedAt state host).inFlightHosts
          ↔ other = host ∨ other ∈ state.inFlightHosts) := by
  obtain ⟨incarnation, hget⟩ := Option.isSome_iff_exists.mp hmonitored
  have hrunning : ¬ state.crashed = true := by
    rw [h.running]
    exact Bool.false_ne_true
  unfold State.submitHost
  rw [if_neg hrunning]
  dsimp only
  rw [hget]
  dsimp only
  refine ⟨{
    hosts := h.hosts
    running := h.running
    flights := ?_
    handed := h.handed
    monitored := h.monitored
    discovered := h.discovered
    active := h.active
    older := h.older
    sameConfig := h.sameConfig
    sameHosts := h.sameHosts }, rfl, ?_, ?_⟩
  · have hnew : ∀ flight ∈ state.inFlight, flight.task.host ≠ host := by
      intro flight hflight heq
      exact hfree (heq ▸ h.flights.flying flight hflight)
    refine ⟨?_, ?_, ?_, ?_, ?_⟩
    · rw [List.map_append, List.nodup_append]
      refine ⟨h.flights.nodup, List.nodup_singleton _, ?_⟩
      intro other hother _ hlast heq
      obtain ⟨flight, hflight, rfl⟩ := List.mem_map.mp hother
      rw [List.map_singleton, List.mem_singleton] at hlast
      exact hnew flight hflight (heq.trans hlast)
    · intro flight hflight
      rcases List.mem_append.mp hflight with hflight | hflight
      · exact List.mem_insert_of_mem (h.flights.flying flight hflight)
      · rw [List.mem_singleton.mp hflight]
        exact List.mem_insert_self
    · rw [List.map_append, List.nodup_append]
      refine ⟨h.flights.numbered, List.nodup_singleton _, ?_⟩
      intro number hnumber _ hlast heq
      obtain ⟨flight, hflight, rfl⟩ := List.mem_map.mp hnumber
      rw [List.map_singleton, List.mem_singleton] at hlast
      have hissued := h.flights.issued flight hflight
      have hnext : flight.task.future = state.nextFuture + 1 - 1 := heq.trans hlast
      omega
    · intro flight hflight
      rcases List.mem_append.mp hflight with hflight | hflight
      · exact lt_trans (h.flights.issued flight hflight) (Nat.lt_succ_self _)
      · rw [List.mem_singleton.mp hflight]
        show state.nextFuture + 1 - 1 < state.nextFuture + 1
        omega
    · intro flight hflight result hresult
      rcases List.mem_append.mp hflight with hflight | hflight
      · exact h.flights.returns flight hflight result hresult
      · rw [List.mem_singleton.mp hflight] at hresult
        cases hresult
  · rw [List.length_append, List.length_singleton]
  · intro other
    exact List.mem_insert_iff

/-- The submissions of a round: each due host is monitored and free, so each is submitted. -/
theorem Sound.submit (h : state.Sound) {round : Round} (hphase : state.phase = .draining round)
    (startedAt : ℚ) :
    (state.submit round startedAt).Sound ∧ (state.submit round startedAt).hosts = state.hosts
      ∧ (state.submit round startedAt).inFlight.length
        ≤ max state.inFlight.length state.config.maxWorkers := by
  have hround : state.phase.round = some round := by rw [hphase]; rfl
  have hwait : ∀ current : State, current.Sound →
      ({ current with phase := .waiting } : State).Sound := fun current hcurrent =>
    hcurrent.enter (fun _ heq => by cases heq) (fun heq => by cases heq)
      fun _ _ heq => by cases heq
  unfold State.submit
  split
  · exact ⟨hwait state h, rfl, le_max_left _ _⟩
  · rename_i hgeneration
    rw [not_not] at hgeneration
    have hfold : ∀ (hosts : List String) (current : State), current.Sound → hosts.Nodup →
        (∀ host ∈ hosts, host ∉ current.inFlightHosts) →
        (∀ host ∈ hosts, (current.hosts.incarnation host).isSome) →
        (hosts.foldl (State.submitHost round startedAt) current).Sound
          ∧ (hosts.foldl (State.submitHost round startedAt) current).hosts = current.hosts
          ∧ (hosts.foldl (State.submitHost round startedAt) current).inFlight.length
            = current.inFlight.length + hosts.length := by
      intro hosts
      induction hosts with
      | nil => exact fun current hcurrent _ _ _ => ⟨hcurrent, rfl, rfl⟩
      | cons host rest ih =>
        intro current hcurrent hnodup hfree hmonitored
        obtain ⟨hnot, hrest⟩ := List.nodup_cons.mp hnodup
        obtain ⟨hsound, hhosts, hlength, hflying⟩ :=
          hcurrent.submitHost round startedAt (hfree host List.mem_cons_self)
            (hmonitored host List.mem_cons_self)
        obtain ⟨hsound', hhosts', hlength'⟩ := ih _ hsound hrest
          (by
            intro other hother hin
            rcases (hflying other).mp hin with rfl | hin
            · exact hnot hother
            · exact hfree other (List.mem_cons_of_mem _ hother) hin)
          (by
            intro other hother
            rw [hhosts]
            exact hmonitored other (List.mem_cons_of_mem _ hother))
        refine ⟨hsound', hhosts'.trans hhosts, ?_⟩
        rw [List.foldl_cons, hlength', hlength, List.length_cons]
        omega
    have hdue : ∀ host ∈ state.dueHosts round,
        host ∈ state.activeHosts ∧ host ∉ state.inFlightHosts := by
      intro host hhost
      obtain ⟨hactive, hfilter⟩ := List.mem_filter.mp (mem_sortBy.mp (List.mem_of_mem_take hhost))
      rw [Bool.and_eq_true, decide_eq_true_eq] at hfilter
      exact ⟨hactive, hfilter.1⟩
    have hnodup : (state.dueHosts round).Nodup := by
      refine List.Nodup.sublist (List.take_sublist _ _) ?_
      exact (sortBy_perm _ _).nodup_iff.mpr (h.active.filter _)
    have hactive := h.sameHosts round hround (by rw [hphase]; rfl) hgeneration
    obtain ⟨hsound, hhosts, hlength⟩ := hfold (state.dueHosts round) state h hnodup
      (fun host hhost => (hdue host hhost).2)
      (fun host hhost => h.monitored host (hactive ▸ (hdue host hhost).1))
    refine ⟨hwait _ hsound, hhosts, ?_⟩
    have hfree : (state.dueHosts round).length ≤ round.config.maxWorkers - state.inFlight.length :=
      List.length_take_le _ _
    rw [← h.sameConfig round hround hgeneration]
    show ((state.dueHosts round).foldl (State.submitHost round startedAt) state).inFlight.length ≤ _
    omega

/-! ### Steps and runs -/

/-- What a step comes to: a sound state, a host table that extends the one before, and no more
probes in flight than workers or than before. -/
structure Follows (state next : State) : Prop where
  sound : next.Sound
  extends_ : HostTable.Extends state.hosts next.hosts
  inFlight : next.inFlight.length ≤ max state.inFlight.length state.config.maxWorkers

/-- A step within a phase, and the next phase. -/
theorem Sound.follows_of_kept {state kept : State} (h : state.Sound) (hkept : Kept state kept)
    {phase : Phase} (hround : ∀ round, phase.round = some round → state.phase.round = some round)
    (hpast : phase.pastInventory = true → state.phase.pastInventory = true)
    (hhanded : ∀ task result, phase.handed = some (task, result) → result.host = task.host) :
    Follows state { kept with phase } where
  sound := by
    refine (h.of_kept hkept).enter ?_ ?_ hhanded
    · rw [hkept.phase]
      exact hround
    · rw [hkept.phase]
      exact hpast
  extends_ := (hkept.hosts h.hosts).2
  inFlight := by
    show kept.inFlight.length ≤ _
    rw [hkept.inFlight]
    exact le_max_left _ _

/-- A step of the scheduler thread. -/
theorem Sound.scheduleStep {state next : State} (h : state.Sound) {event : Event}
    (hstep : Scheduler.scheduleStep jitterUnit state event = some next) : Follows state next := by
  cases event with
  | snapshot now attended =>
    dsimp only [Scheduler.scheduleStep] at hstep
    split at hstep
    · cases hstep
      -- The round reads the configuration that is in force.
      exact ⟨{
        hosts := h.hosts
        running := h.running
        flights := h.flights
        handed := fun _ _ heq => by cases heq
        monitored := h.monitored
        discovered := h.discovered
        active := h.active
        older := fun round heq => by cases heq; exact le_rfl
        sameConfig := fun round heq _ => by cases heq; rfl
        sameHosts := fun round _ hpast => by cases hpast }, .refl _, le_max_left _ _⟩
    · cases hstep
  | adoptHosts found =>
    dsimp only [Scheduler.scheduleStep] at hstep
    split at hstep
    · rename_i round hphase
      cases hstep
      obtain ⟨hsound, hextends, hflights⟩ := h.adoptHosts hphase found
      exact ⟨hsound, hextends, hflights ▸ le_max_left _ _⟩
    · cases hstep
  | rebase =>
    dsimp only [Scheduler.scheduleStep] at hstep
    split at hstep
    · rename_i round hphase
      cases hstep
      exact h.follows_of_kept (kept_rebaseFailureBackoff state round)
        (fun _ heq => hphase ▸ heq) (fun _ => by rw [hphase]; rfl) fun _ _ heq => by cases heq
    · cases hstep
  | takeRequests =>
    dsimp only [Scheduler.scheduleStep] at hstep
    split at hstep
    · rename_i round hphase
      cases hstep
      exact h.follows_of_kept (kept_takeRequests state)
        (fun _ heq => hphase ▸ heq) (fun _ => by rw [hphase]; rfl) fun _ _ heq => by cases heq
    · cases hstep
  | repace =>
    dsimp only [Scheduler.scheduleStep] at hstep
    split at hstep
    · rename_i round hphase
      cases hstep
      exact h.follows_of_kept (kept_repace state round)
        (fun _ heq => hphase ▸ heq) (fun _ => by rw [hphase]; rfl) fun _ _ heq => by cases heq
    · cases hstep
  | complete future =>
    dsimp only [Scheduler.scheduleStep] at hstep
    split at hstep
    · rename_i round task outcome hphase hfound
      cases hstep
      refine ⟨h.complete hphase hfound rfl, .refl _, ?_⟩
      exact (List.eraseP_sublist.length_le).trans (le_max_left _ _)
    · cases hstep
  | settle completedAt =>
    dsimp only [Scheduler.scheduleStep] at hstep
    split at hstep
    · rename_i round task result hphase
      cases hstep
      refine h.follows_of_kept (kept_recordOutcome state task result completedAt)
        (fun _ heq => hphase ▸ heq) (fun _ => by rw [hphase]; rfl) fun _ _ heq => ?_
      cases heq
      exact h.handed task result (by rw [hphase]; rfl)
    · rename_i round task result hphase
      cases hstep
      have hkept : Kept state { state with
          collector := state.collector.retainHosts state.activeHosts } :=
        ⟨fun h => ⟨h, .refl _⟩, fun _ => rfl, rfl, rfl, rfl, rfl, rfl, rfl, rfl, rfl, rfl⟩
      exact h.follows_of_kept hkept (fun _ heq => hphase ▸ heq) (fun _ => by rw [hphase]; rfl)
        fun _ _ heq => by cases heq
    · cases hstep
  | applyResult =>
    dsimp only [Scheduler.scheduleStep] at hstep
    split at hstep
    · rename_i round task result retry hphase
      cases hstep
      have hhost : result.host = task.host := h.handed task result (by rw [hphase]; rfl)
      have hkept : Kept state { state with
          hosts := (state.hosts.apply ⟨task.host, task.incarnation, result⟩ retry) } :=
        ⟨fun h => h.apply hhost retry, fun host => HostTable.incarnation_apply _ _ _ host,
          rfl, rfl, rfl, rfl, rfl, rfl, rfl, rfl, rfl⟩
      exact h.follows_of_kept hkept (fun _ heq => hphase ▸ heq) (fun _ => by rw [hphase]; rfl)
        fun _ _ heq => by cases heq
    · cases hstep
  | submit startedAt =>
    dsimp only [Scheduler.scheduleStep] at hstep
    split at hstep
    · rename_i round hphase
      cases hstep
      obtain ⟨hsound, hhosts, hflights⟩ := h.submit hphase startedAt
      exact ⟨hsound, hhosts ▸ .refl _, hflights⟩
    · cases hstep
  | _ => cases hstep

/-- A step of a worker. -/
theorem Sound.workerStep {state next : State} (h : state.Sound) {event : Event}
    (hstep : Scheduler.workerStep state event = some next) : Follows state next := by
  have hlength : ∀ future stage, (state.advance future stage).inFlight.length
      ≤ max state.inFlight.length state.config.maxWorkers := by
    intro future stage
    show (state.inFlight.map _).length ≤ _
    rw [List.length_map]
    exact le_max_left _ _
  cases event with
  | startProbe future now =>
    dsimp only [Scheduler.workerStep] at hstep
    split at hstep
    · rename_i task hfound
      cases hstep
      exact ⟨h.advance hfound (fun _ heq => by cases heq) _, .refl _, hlength _ _⟩
    · cases hstep
  | failProbe future failure =>
    dsimp only [Scheduler.workerStep] at hstep
    split at hstep
    · cases hstep
    · rename_i task stage _ hfound
      split at hstep
      · rename_i hfailure
        cases hstep
        refine ⟨h.advance hfound ?_ _, .refl _, hlength _ _⟩
        intro result heq
        cases heq
        exact eq_of_beq (Bool.and_eq_true_iff.mp hfailure).1
      · cases hstep
    · cases hstep
  | sampleSystem future parsed observedMonotonic =>
    dsimp only [Scheduler.workerStep] at hstep
    split at hstep
    · rename_i task started sampled hfound
      cases hstep
      exact ⟨h.advance hfound (fun _ heq => by cases heq) _, .refl _, hlength _ _⟩
    · cases hstep
  | mergeProcesses future observedAt latencyMs transportRetries =>
    dsimp only [Scheduler.workerStep] at hstep
    split at hstep
    · rename_i task started sampled parsed system hfound
      cases hstep
      refine ⟨h.advance hfound ?_ _, .refl _, hlength _ _⟩
      intro result heq
      cases heq
      rfl
    · cases hstep
  | _ => cases hstep

/-- Every step of the service. -/
theorem Sound.step {state next : State} (h : state.Sound) {event : Event}
    (hstep : Scheduler.step jitterUnit state event = some next) : Follows state next := by
  have hscheduler : (if state.crashed then none else
      Scheduler.scheduleStep jitterUnit state event) = some next → Follows state next := by
    intro hstep
    split at hstep
    · cases hstep
    · exact h.scheduleStep hstep
  have hworker : Scheduler.workerStep state event = some next → Follows state next := h.workerStep
  have hkept : ∀ {kept : State}, Kept state kept → Follows state kept := by
    intro kept hkept
    refine ⟨h.of_kept hkept, (hkept.hosts h.hosts).2, ?_⟩
    rw [hkept.inFlight]
    exact le_max_left _ _
  cases event with
  | updateConfig config found =>
    cases hstep
    obtain ⟨hsound, hextends⟩ := h.updateConfig config found
    exact ⟨hsound, hextends, le_max_left _ _⟩
  | setPollInterval seconds =>
    cases hstep
    exact hkept ⟨fun h => ⟨h, .refl _⟩, fun _ => rfl, rfl, rfl, rfl, rfl, rfl, rfl, rfl, rfl, rfl⟩
  | requestProbe host now =>
    cases hstep
    unfold State.requestProbe
    split
    · exact hkept (Kept.refl state)
    · split
      · exact hkept (Kept.refl state)
      · exact hkept ⟨fun h => ⟨h, .refl _⟩, fun _ => rfl, rfl, rfl, rfl, rfl, rfl, rfl, rfl, rfl,
          rfl⟩
  | startProbe | failProbe | sampleSystem | mergeProcesses => exact hworker hstep
  | snapshot | adoptHosts | rebase | takeRequests | repace | complete | settle | applyResult
  | submit => exact hscheduler hstep

theorem sound_of_run {config : MonitorConfig} {events : List Event}
    (hrun : Run jitterUnit (State.start config) events state) : state.Sound :=
  hrun.invariant (sound_start config) fun _ _ _ h _ hstep => (h.step hstep).sound

end

end State

/-! ### The result -/

section
variable {jitterUnit : String → ℕ → ℚ} {config : MonitorConfig}

/-- A run passes through the states of its beginnings: the table at the end extends theirs. -/
theorem extends_of_run {earlier later : List Event} {middle state : State}
    (hmiddle : Run jitterUnit (State.start config) earlier middle)
    (hrun : Run jitterUnit (State.start config) (earlier ++ later) state) :
    HostTable.Extends middle.hosts state.hosts := by
  induction later using List.reverseRecOn generalizing state with
  | nil =>
    rw [List.append_nil] at hrun
    rw [hmiddle.unique hrun]
    exact .refl _
  | append_singleton later event ih =>
    rw [← List.append_assoc] at hrun
    obtain ⟨before, hbefore, hstep⟩ := hrun.last
    exact (ih hbefore).trans ((State.sound_of_run hbefore).step hstep).extends_

/-- In every state that a run reaches: no two probes in flight are of one host; the scheduler
found an incarnation at every submission; a step leaves at most as many probes in flight as
there are workers, or were before; and every sample of a host was probed for the host under
its present incarnation, which it has had without interruption since that was given out. -/
theorem single_flight {events : List Event} {state : State}
    (hrun : Run jitterUnit (State.start config) events state) :
    (state.inFlight.map (·.task.host)).Nodup
      ∧ state.crashed = false
      ∧ (∀ event next, step jitterUnit state event = some next →
        next.inFlight.length ≤ max state.inFlight.length state.config.maxWorkers)
      ∧ ∀ host server, state.hosts.servers.get? host = some server →
        (∀ sample ∈ server.applied,
          sample.host = host ∧ sample.incarnation = server.incarnation)
        ∧ ∀ earlier later middle, events = earlier ++ later →
          Run jitterUnit (State.start config) earlier middle →
          server.incarnation < middle.hosts.nextIncarnation →
          middle.hosts.incarnation host = some server.incarnation := by
  have hsound := State.sound_of_run hrun
  refine ⟨hsound.flights.nodup, hsound.running, fun event next hstep => (hsound.step hstep).inFlight,
    ?_⟩
  intro host server hserver
  refine ⟨hsound.hosts.applied host server hserver, ?_⟩
  rintro earlier later middle rfl hmiddle hissued
  refine (extends_of_run hmiddle hrun).kept host _ hissued ?_
  rw [HostTable.incarnation, hserver]
  rfl

end

/-- One host, one worker: its probe fails and the sample is taken in. -/
private def oneProbe : List Event :=
  [.updateConfig { maxWorkers := 1, pollIntervalSeconds := 5 }
      (some ⟨["node-a"], List.nodup_singleton _⟩),
    .snapshot 0 true, .adoptHosts none, .rebase, .takeRequests, .repace, .submit 0, .startProbe 0 0,
    .failProbe 0 (some { host := "node-a", status := .unreachable, latencyMs := 0 }),
    .snapshot 1 true, .adoptHosts none, .rebase, .takeRequests, .repace, .complete 0, .settle 1,
    .applyResult]

/-- The sample of the first probe is kept with the first incarnation. -/
theorem single_flight_oneProbe :
    ∃ state server, Run (fun _ _ => 0) (.start { maxWorkers := 1, pollIntervalSeconds := 5 })
        oneProbe state
      ∧ state.hosts.servers.get? "node-a" = some server ∧ server.applied.length = 1
      ∧ (∀ sample ∈ server.applied, sample.host = "node-a" ∧ sample.incarnation = 1)
      ∧ (state.inFlight.map (·.task.host)).Nodup := by
  have hreached : (execute (step fun _ _ => 0) (fun _ _ => True)
      (.start { maxWorkers := 1, pollIntervalSeconds := 5 }) oneProbe).any (fun state =>
        (state.hosts.servers.get? "node-a").any fun server =>
          decide (server.applied.length = 1) && decide (server.incarnation = 1)) = true := by
    decide +kernel
  obtain ⟨state, hstate, hcheck⟩ := (Option.any_eq_true _ _).mp hreached
  obtain ⟨server, hserver, hcheck⟩ := (Option.any_eq_true _ _).mp hcheck
  rw [Bool.and_eq_true, decide_eq_true_eq, decide_eq_true_eq] at hcheck
  have hrun := runWhere_of_execute hstate
  obtain ⟨hnodup, -, -, hservers⟩ := single_flight hrun
  refine ⟨state, server, hrun, hserver, hcheck.1, ?_, hnodup⟩
  rw [← hcheck.2]
  exact (hservers "node-a" server hserver).1

end Mocop.Scheduler
