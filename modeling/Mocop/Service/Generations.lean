import Mocop.Incidents.Policy
import Mocop.Lib.Returns
import Mocop.Persistence.Restore
import Mocop.Service.Store
import Mathlib.Data.String.Basic

/-!
# `Mocop.Service.Generations`: an action and the generation it names

An action may name one generation of a condition: the one that opened at a given time. The
store compares this time with the opening time of the active condition, unless the action was
bound to another opening time by the first sample after a restart.

A `Trace` is a run of the store over any number of restarts, each of which restores exactly
the open conditions. `Faithful` says that an action that names a generation applies to that
generation only. `faithful_iff` is the result: a run stays faithful exactly when no sample
finds a candidate's condition open under another time than the one the action names.
-/

set_option autoImplicit false

namespace Mocop

attribute [local instance] lawfulBEq_identity

variable {store : StateStore}

namespace StateStore

/-! ### What a sample does to the bindings -/

/-- What the store holds about the binding of a key: whether it is a candidate, and the time it
is bound to. -/
def bindingView (store : StateStore) (key : String × String) : Bool × Option String :=
  (decide (key ∈ store.startupActionCandidates), store.startupActionBindings.get? key)

/-- What settling does to a candidate or a binding, given the action in force, the opening time
of the active condition, and whether the sample shows the condition to be absent. -/
def settleBinding (action : Option IncidentActionConfig) (startedAt : Option String)
    (absent : Bool) (view : Bool × Option String) : Bool × Option String :=
  match action, startedAt with
  | none, _ => (false, none)
  | some _, some startedAt => if view.1 then (false, some startedAt) else view
  | some _, none => if view.1 && absent then (false, view.2) else (view.1, none)

/-- Whether a sample shows a condition to be absent. -/
def showsAbsent (store : StateStore) (result : ProbeResult) (key : String × String) : Bool :=
  !store.incidents.hasPendingCondition key.1 key.2
    && conditionObserved store.incidentPolicy result key.2

/-- Settling one key changes the view of that key only. -/
theorem bindingView_refreshOne (now : ℚ) (result : ProbeResult) (store : StateStore)
    (key other : String × String) :
    (refreshStartupActionBinding now result store key).bindingView other
      = if other = key then
          settleBinding (store.activeAction now key)
            (store.incidents.activeStartedAt key.1 key.2) (store.showsAbsent result key)
            (store.bindingView key)
        else store.bindingView other := by
  unfold refreshStartupActionBinding settleBinding showsAbsent bindingView
  dsimp only
  by_cases hother : other = key
  · subst hother
    rw [if_pos rfl]
    cases store.activeAction now other with
    | none => simp
    | some action =>
      cases store.incidents.activeStartedAt other.1 other.2 with
      | some startedAt =>
        by_cases hcandidate : other ∈ store.startupActionCandidates
        · simp [hcandidate]
        · simp [hcandidate]
      | none =>
        dsimp only
        split
        · next habsent => simp [habsent]
        · next hpresent =>
          split
          · by_cases hcandidate : other ∈ store.startupActionCandidates
            · simp_all
            · simp [hcandidate]
          · by_cases hcandidate : other ∈ store.startupActionCandidates
            · simp_all
            · simp_all
  · rw [if_neg hother]
    cases store.activeAction now key with
    | none => simp [hother]
    | some action =>
      cases store.incidents.activeStartedAt key.1 key.2 with
      | some startedAt =>
        dsimp only
        split
        · simp [hother]
        · rfl
      | none =>
        dsimp only
        split
        · simp [hother]
        · split
          · simp [hother]
          · rfl

/-- Settling one key leaves everything else alone. -/
theorem refreshOne_frame (now : ℚ) (result : ProbeResult) (store : StateStore)
    (key : String × String) :
    (refreshStartupActionBinding now result store key).incidentActions = store.incidentActions
      ∧ (refreshStartupActionBinding now result store key).incidents = store.incidents
      ∧ (refreshStartupActionBinding now result store key).incidentPolicy
        = store.incidentPolicy := by
  unfold refreshStartupActionBinding
  dsimp only
  repeat' split
  all_goals exact ⟨rfl, rfl, rfl⟩

/-- Settling keys, each once. -/
theorem bindingView_refreshEach (now : ℚ) (result : ProbeResult)
    (keys : List (String × String)) (hnodup : keys.Nodup) (store : StateStore)
    (other : String × String) :
    (keys.foldl (refreshStartupActionBinding now result) store).bindingView other
      = if other ∈ keys then
          settleBinding (store.activeAction now other)
            (store.incidents.activeStartedAt other.1 other.2) (store.showsAbsent result other)
            (store.bindingView other)
        else store.bindingView other := by
  induction keys generalizing store with
  | nil => simp
  | cons key rest ih =>
    rw [List.nodup_cons] at hnodup
    obtain ⟨hactions, hincidents, hpolicy⟩ := refreshOne_frame now result store key
    rw [List.foldl_cons, ih hnodup.2, bindingView_refreshOne]
    have haction : (refreshStartupActionBinding now result store key).activeAction now other
        = store.activeAction now other := by
      rw [activeAction, activeAction, hactions]
    have habsent : (refreshStartupActionBinding now result store key).showsAbsent result other
        = store.showsAbsent result other := by
      rw [showsAbsent, showsAbsent, hincidents, hpolicy]
    rw [haction, habsent, hincidents]
    by_cases hkey : other = key
    · subst hkey
      simp [hnodup.1]
    · simp [hkey]

/-- A sample settles every candidate and every binding of its host. -/
theorem bindingView_refresh (store : StateStore) (now : ℚ) (result : ProbeResult)
    (key : String × String) :
    (store.refreshStartupActionBindings now result).bindingView key
      = if key.1 = result.host then
          settleBinding (store.activeAction now key)
            (store.incidents.activeStartedAt key.1 key.2) (store.showsAbsent result key)
            (store.bindingView key)
        else store.bindingView key := by
  rw [refreshStartupActionBindings, bindingView_refreshEach now result _ (List.nodup_dedup _)]
  by_cases hhost : key.1 = result.host
  · by_cases hlisted : key ∈ store.startupActionCandidates ++ store.startupActionBindings.keys
    · simp [hhost, List.mem_dedup, List.mem_filter, List.mem_append.mp hlisted]
    · -- A key that is neither a candidate nor bound stays so.
      have hview : store.bindingView key = (false, none) := by
        rw [List.mem_append, not_or, Dict.mem_keys] at hlisted
        simpa [bindingView] using hlisted
      rw [if_neg (by rw [List.mem_dedup, List.mem_filter]; exact fun h => hlisted h.1),
        if_pos hhost, hview]
      unfold settleBinding
      split
      · rfl
      · rfl
      · rfl
  · rw [if_neg (by simp [hhost]), if_neg hhost]

/-! ### Inversion of the operations -/

/-- Installing the hosts leaves the actions and the bindings alone. -/
theorem setHosts_actions (store : StateStore) (hosts : List String) :
    (store.setHosts hosts).incidentActions = store.incidentActions
      ∧ (store.setHosts hosts).startupActionBindings = store.startupActionBindings
      ∧ (store.setHosts hosts).incidents = store.incidents.removeHosts hosts := by
  have hadd : ∀ (added : List String) (start : StateStore),
      (added.foldl addServer start).incidentActions = start.incidentActions
        ∧ (added.foldl addServer start).startupActionBindings = start.startupActionBindings
        ∧ (added.foldl addServer start).incidents = start.incidents := by
    intro added
    induction added with
    | nil => exact fun start => ⟨rfl, rfl, rfl⟩
    | cons host rest ih =>
      intro start
      obtain ⟨hactions, hbindings, hincidents⟩ := ih (start.addServer host)
      have hone : (start.addServer host).incidentActions = start.incidentActions
          ∧ (start.addServer host).startupActionBindings = start.startupActionBindings
          ∧ (start.addServer host).incidents = start.incidents := by
        unfold addServer
        split
        · exact ⟨rfl, rfl, rfl⟩
        · exact ⟨rfl, rfl, rfl⟩
      rw [List.foldl_cons]
      exact ⟨hactions.trans hone.1, hbindings.trans hone.2.1, hincidents.trans hone.2.2⟩
  obtain ⟨hactions, hbindings, hincidents⟩ := hadd hosts (store.removeServers hosts)
  refine ⟨hactions, hbindings, ?_⟩
  show (hosts.foldl addServer (store.removeServers hosts)).incidents.removeHosts hosts = _
  rw [hincidents]
  rfl

/-- Whether a sample is taken in: its host is served, under the expected incarnation. -/
def TakesIn (store : StateStore) (result : ProbeResult) (expectedIncarnation : Option ℕ) : Prop :=
  result.host ∈ store.servers
    ∧ (expectedIncarnation = none
      ∨ store.hostIncarnations.get? result.host = expectedIncarnation)

variable {epochSeconds : String → Option ℚ}

/-- A sample that does not raise is ignored, or the tracker takes it in, the bindings are
settled, and at most the table of the notification events changes besides. -/
theorem apply_eq_ok {store next : StateStore} {setOrder : SetOrder} {clock : ClockReadings}
    {result : ProbeResult} {expectedIncarnation : Option ℕ} {events : List IncidentEvent}
    (h : store.apply epochSeconds setOrder clock result expectedIncarnation = .ok (events, next)) :
    (¬ store.TakesIn result expectedIncarnation ∧ next = store)
      ∨ (store.TakesIn result expectedIncarnation ∧ ∃ created incidents recent,
          store.incidents.update epochSeconds store.incidentPolicy setOrder result
            = .ok (created, incidents)
          ∧ next = { { store with incidents := incidents }.refreshStartupActionBindings
              clock.bindings result with notificationEvents := recent }) := by
  by_cases htakes : store.TakesIn result expectedIncarnation
  · right
    refine ⟨htakes, ?_⟩
    have hguard : ¬ (result.host ∉ store.servers ∨ (expectedIncarnation ≠ none
        ∧ store.hostIncarnations.get? result.host ≠ expectedIncarnation)) := by
      obtain ⟨hserved, hexpected⟩ := htakes
      rintro (hunknown | ⟨hsome, hother⟩)
      · exact hunknown hserved
      · exact hexpected.elim hsome hother
    rw [apply, if_neg hguard] at h
    cases hupdate : store.incidents.update epochSeconds store.incidentPolicy setOrder result with
    | error missing =>
      rw [hupdate] at h
      cases h
    | ok updated =>
      obtain ⟨created, incidents⟩ := updated
      obtain ⟨written, hwritten, hrest⟩ := bind_eq_ok.mp h
      rw [hupdate] at hwritten
      obtain rfl := Except.ok.inj hwritten
      refine ⟨created, incidents, ?_⟩
      dsimp only at hrest
      split at hrest
      · exact ⟨_, rfl, (congrArg Prod.snd (Except.ok.inj hrest)).symm⟩
      · obtain ⟨incarnation, -, hlast⟩ := bind_eq_ok.mp hrest
        exact ⟨_, rfl, (congrArg Prod.snd (Except.ok.inj hlast)).symm⟩
  · left
    refine ⟨htakes, ?_⟩
    have hguard : result.host ∉ store.servers ∨ (expectedIncarnation ≠ none
        ∧ store.hostIncarnations.get? result.host ≠ expectedIncarnation) := by
      by_contra hboth
      rw [not_or, not_not, not_and_or, not_not, not_not] at hboth
      exact htakes hboth
    rw [apply, if_pos hguard] at h
    exact (congrArg Prod.snd (Except.ok.inj h)).symm

/-! ### Runs over restarts -/

/-- Whether an action that names the generation opened at `startedAt` applies to the condition
of a key: the incident feed shows it, it silences the condition, or it makes the condition
non-actionable outside maintenance. -/
def Applies (store : StateStore) (now : ℚ) (key : String × String) (startedAt : String) : Prop :=
  ∃ action, store.activeAction now key = some action
    ∧ action.incidentStartedAt = some startedAt
    ∧ ((store.decorateIncident now key).action = some action
      ∨ store.conditionIsSilenced now key = true
      ∨ ((store.decorateIncident now key).maintenanceSilenced = false
        ∧ (store.decorateIncident now key).actionable = false))

/-- An action applies only while the generation that it names is active. -/
def Faithful (store : StateStore) : Prop :=
  ∀ now key startedAt, store.Applies now key startedAt →
    store.incidents.activeStartedAt key.1 key.2 = some startedAt

/-- A restart restores exactly the open conditions, with their opening times. -/
def Restores (store : StateStore) (openIncidents : List OpenIncident) : Prop :=
  ∀ host key startedAt,
    (∃ restored ∈ openIncidents, restored.host = host ∧ restored.condition.key = key
      ∧ restored.openedAt = startedAt)
    ↔ store.incidents.activeStartedAt host key = some startedAt

/-- What happens to the store: an operation, or a restart of the process. -/
inductive LifeStep where
  | operate (operation : Operation)
  | restart (config : StartConfig)

section
variable (epochSeconds : String → Option ℚ)

/-- A step leads from one store to the next. -/
def Performs (store : StateStore) : LifeStep → StateStore → Prop
  | .operate operation, next => ∃ events, store.step epochSeconds operation = .ok (events, next)
  | .restart config, next => store.Restores config.openIncidents ∧ next = start config

/-- Steps in a row, each with the store that it leads to. -/
def Trace : StateStore → List (LifeStep × StateStore) → Prop
  | _, [] => True
  | store, (life, next) :: rest => store.Performs epochSeconds life next ∧ Trace next rest

/-- No sample finds a condition open under another time than the one that a candidate for it
names: for every candidate of the host whose action is in force, the condition is inactive
after the tracker took the sample in, or it opened at the time that the action names. -/
def KeepsGeneration (store : StateStore) : LifeStep → Prop
  | .operate (.apply setOrder clock result expectedIncarnation) =>
    store.TakesIn result expectedIncarnation →
    ∀ created incidents, store.incidents.update epochSeconds store.incidentPolicy setOrder result
        = .ok (created, incidents) →
    ∀ key action startedAt openedAt, key.1 = result.host →
      key ∈ store.startupActionCandidates →
      store.activeAction clock.bindings key = some action →
      action.incidentStartedAt = some startedAt →
      incidents.activeStartedAt key.1 key.2 = some openedAt → openedAt = startedAt
  | _ => True

/-- Every step of a run keeps the generations. -/
def KeepsGenerations : StateStore → List (LifeStep × StateStore) → Prop
  | _, [] => True
  | store, (life, next) :: rest =>
    store.KeepsGeneration epochSeconds life ∧ KeepsGenerations next rest

end

/-- The times of the samples of one host. -/
def sampleTimes (host : String) (trace : List (LifeStep × StateStore)) : List String :=
  trace.filterMap (fun entry =>
    match entry.1 with
    | .operate (.apply _ _ result _) =>
      if result.host = host then some result.observedAt else none
    | _ => none)

/-! ### Bindings -/

/-- Every binding agrees with the time that its action names. -/
def BindingsTrue (store : StateStore) : Prop :=
  ∀ key action startedAt bound, store.incidentActions.get? key = some action →
    action.incidentStartedAt = some startedAt →
    store.startupActionBindings.get? key = some bound → bound = startedAt

/-- An action that applies matches the active condition. -/
theorem Applies.matches_ {now : ℚ} {key : String × String} {startedAt : String}
    (h : store.Applies now key startedAt) :
    ∃ action, store.incidentActions.get? key = some action
      ∧ action.incidentStartedAt = some startedAt
      ∧ some (store.startupActionBindings.getD key startedAt)
        = store.incidents.activeStartedAt key.1 key.2 := by
  obtain ⟨action, haction, hnamed, hshown⟩ := h
  have hget := (Option.filter_eq_some_iff.mp haction).1
  refine ⟨action, hget, hnamed, ?_⟩
  have hmatch : store.incidentActionMatches action key = true := by
    by_contra hno
    rw [Bool.not_eq_true] at hno
    have hfilter : (some action).filter (store.incidentActionMatches · key) = none := by
      simp [Option.filter, hno]
    simp only [decorateIncident, conditionIsSilenced, haction, hfilter, hno] at hshown
    rcases hshown with hshown | hshown | ⟨hwindow, hactionable⟩
    · simp at hshown
    · simp at hshown
    · simp [hwindow] at hactionable
  rw [incidentActionMatches, hnamed] at hmatch
  simpa using hmatch

/-- True bindings make the store faithful. -/
theorem BindingsTrue.faithful (h : store.BindingsTrue) : store.Faithful := by
  intro now key startedAt happlies
  obtain ⟨action, hget, hnamed, hmatch⟩ := happlies.matches_
  rw [← hmatch, Dict.getD_eq]
  cases hbound : store.startupActionBindings.get? key with
  | none => rfl
  | some bound => rw [Option.getD_some, h key action startedAt bound hget hnamed hbound]

/-- A new store has no bindings. -/
theorem bindingsTrue_start (config : StartConfig) : (start config).BindingsTrue :=
  fun _ _ _ _ _ _ hbound => by simp [start] at hbound

variable {life : LifeStep}

section
variable {epochSeconds : String → Option ℚ} {next : StateStore}

/-- The actions after a sample was taken in. -/
theorem incidentActions_refresh (store : StateStore) (now : ℚ) (result : ProbeResult) :
    (store.refreshStartupActionBindings now result).incidentActions = store.incidentActions
      ∧ (store.refreshStartupActionBindings now result).incidents = store.incidents := by
  obtain ⟨candidates, bindings, hframe⟩ :=
    refreshStartupActionBindings_frame store now result
  rw [hframe]
  exact ⟨rfl, rfl⟩

/-- A step that keeps the generations keeps the bindings true. -/
theorem BindingsTrue.step (h : store.BindingsTrue)
    (hperforms : store.Performs epochSeconds life next)
    (hkeeps : store.KeepsGeneration epochSeconds life) : next.BindingsTrue := by
  cases life with
  | restart config =>
    rw [hperforms.2]
    exact bindingsTrue_start config
  | operate operation =>
    obtain ⟨events, hstep⟩ := hperforms
    cases operation with
    | setHosts hosts =>
      obtain ⟨-, rfl⟩ := Prod.mk.inj (Except.ok.inj hstep)
      obtain ⟨hactions, hbindings, -⟩ := setHosts_actions store hosts
      intro key action startedAt bound hget hnamed hbound
      rw [hactions] at hget
      rw [hbindings] at hbound
      exact h key action startedAt bound hget hnamed hbound
    | setPolicy policy =>
      obtain ⟨-, rfl⟩ := Prod.mk.inj (Except.ok.inj hstep)
      exact h
    | setMaintenanceWindows windows =>
      obtain ⟨-, rfl⟩ := Prod.mk.inj (Except.ok.inj hstep)
      exact h
    | setIncidentActions actions =>
      obtain ⟨-, rfl⟩ := Prod.mk.inj (Except.ok.inj hstep)
      unfold setIncidentActions
      dsimp only
      split
      · exact h
      · intro key action startedAt bound hget hnamed hbound
        -- A binding that was retained belongs to an action that has not changed.
        dsimp only at hget hbound
        rw [Dict.get?_filterKeys] at hbound
        split at hbound
        · next hretained =>
          rw [Bool.and_eq_true, decide_eq_true_eq] at hretained
          exact h key action startedAt bound (hretained.2.trans hget) hnamed hbound
        · simp at hbound
    | apply setOrder clock result expectedIncarnation =>
      rcases apply_eq_ok hstep with ⟨-, rfl⟩ | ⟨htakes, created, incidents, recent, hupdate,
        rfl⟩
      · exact h
      · intro key action startedAt bound hget hnamed hbound
        dsimp only at hget hbound
        rw [(incidentActions_refresh _ _ _).1] at hget
        have hview := bindingView_refresh { store with incidents := incidents }
          clock.bindings result key
        have hsecond := congrArg Prod.snd hview
        rw [show ((refreshStartupActionBindings { store with incidents := incidents }
          clock.bindings result).bindingView key).2 = some bound from hbound] at hsecond
        split at hsecond
        · next hhost =>
          cases haction : store.activeAction clock.bindings key with
          | none =>
            rw [show activeAction { store with incidents := incidents } clock.bindings key
              = none from haction] at hsecond
            simp [settleBinding] at hsecond
          | some inForce =>
            rw [show activeAction { store with incidents := incidents } clock.bindings key
              = some inForce from haction] at hsecond
            have hsame : inForce = action := by
              have hin := (Option.filter_eq_some_iff.mp haction).1
              exact Option.some.inj (hin.symm.trans hget)
            cases hactive : incidents.activeStartedAt key.1 key.2 with
            | none =>
              simp only [hactive, settleBinding] at hsecond
              split at hsecond
              · exact h key action startedAt bound hget hnamed hsecond.symm
              · simp at hsecond
            | some openedAt =>
              simp only [hactive, settleBinding] at hsecond
              split at hsecond
              · next hcandidate =>
                have hmem : key ∈ store.startupActionCandidates := by
                  simpa [bindingView] using hcandidate
                rw [Option.some.inj hsecond]
                exact hkeeps htakes created incidents hupdate key inForce startedAt
                  openedAt hhost hmem haction (hsame ▸ hnamed) hactive
              · exact h key action startedAt bound hget hnamed hsecond.symm
        · exact h key action startedAt bound hget hnamed hsecond.symm

/-- After a step that does not keep the generations the store is not faithful. -/
theorem keepsGeneration_of_faithful (hperforms : store.Performs epochSeconds life next)
    (hfaithful : next.Faithful) :
    store.KeepsGeneration epochSeconds life := by
  cases life with
  | restart config => trivial
  | operate operation =>
    cases operation with
    | setHosts hosts => trivial
    | setPolicy policy => trivial
    | setMaintenanceWindows windows => trivial
    | setIncidentActions actions => trivial
    | apply setOrder clock result expectedIncarnation =>
      intro htakes created incidents hupdate key action startedAt openedAt hhost hcandidate
        haction hnamed hactive
      obtain ⟨events, hstep⟩ := hperforms
      rcases apply_eq_ok hstep with ⟨hignored, -⟩ | ⟨-, created', incidents', recent, hupdate',
        rfl⟩
      · exact absurd htakes hignored
      · rw [hupdate] at hupdate'
        obtain ⟨rfl, rfl⟩ := Prod.mk.inj (Except.ok.inj hupdate')
        -- The candidate was bound to the opening time of the active condition.
        have hview := bindingView_refresh { store with incidents := incidents }
          clock.bindings result key
        have hbound : (refreshStartupActionBindings { store with incidents := incidents }
            clock.bindings result).startupActionBindings.get? key = some openedAt := by
          refine (congrArg Prod.snd hview).trans ?_
          have hfirst : (bindingView { store with incidents := incidents } key).1 = true := by
            simpa [bindingView] using hcandidate
          rw [if_pos hhost, show activeAction { store with incidents := incidents }
            clock.bindings key = some action from haction]
          simp only [hactive, settleBinding, hfirst, if_true]
        obtain ⟨hactions, hincidents⟩ := incidentActions_refresh
          { store with incidents := incidents } clock.bindings result
        refine Option.some.inj (hactive.symm.trans ?_)
        have hnow := hfaithful clock.bindings key startedAt ⟨action, ?_, hnamed, Or.inl ?_⟩
        · dsimp only at hnow
          rwa [hincidents] at hnow
        · rw [activeAction]
          dsimp only
          rw [hactions]
          exact haction
        · have haction' : activeAction { refreshStartupActionBindings
              { store with incidents := incidents } clock.bindings result with
              notificationEvents := recent } clock.bindings key = some action := by
            rw [activeAction]
            dsimp only
            rw [hactions]
            exact haction
          have hmatch : incidentActionMatches { refreshStartupActionBindings
              { store with incidents := incidents } clock.bindings result with
              notificationEvents := recent } action key = true := by
            rw [incidentActionMatches, hnamed]
            dsimp only
            rw [Dict.getD_eq, hbound, hincidents, hactive]
            simp
          rw [decorateIncident, haction']
          simp [Option.filter, hmatch]

/-- A run keeps the generations exactly when every store that it reaches is faithful. -/
theorem keepsGenerations_iff {trace : List (LifeStep × StateStore)}
    (h : store.BindingsTrue) (htrace : store.Trace epochSeconds trace) :
    store.KeepsGenerations epochSeconds trace ↔ ∀ entry ∈ trace, entry.2.Faithful := by
  induction trace generalizing store with
  | nil => simp [KeepsGenerations]
  | cons entry rest ih =>
    obtain ⟨life, after⟩ := entry
    obtain ⟨hperforms, hrest⟩ := htrace
    rw [KeepsGenerations, List.forall_mem_cons]
    constructor
    · rintro ⟨hkeeps, hkept⟩
      have htrue := h.step hperforms hkeeps
      exact ⟨htrue.faithful, (ih htrue hrest).mp hkept⟩
    · rintro ⟨hfaithful, hlater⟩
      have hkeeps := keepsGeneration_of_faithful hperforms hfaithful
      exact ⟨hkeeps, (ih (h.step hperforms hkeeps) hrest).mpr hlater⟩

end

/-! ### Opening times -/

/-- The opening time of an active lifecycle. -/
def openingTime : Lifecycle → Option String
  | .inactive _ => none
  | .active _ openedAt _ _ _ => some openedAt

/-- The opening time that the tracker reports is that of the lifecycle. -/
theorem activeStartedAt_eq {tracker : IncidentTracker} {fleet : Fleet}
    (h : tracker.Represents fleet) (host key : String) :
    tracker.activeStartedAt host key = openingTime (fleet host key) := by
  have hcell := h.cell_eq host key
  have hactive : (rowOf tracker.active host).get? key = (fleet host key).render.active :=
    congrArg ConditionCell.active hcell
  have hopened : (rowOf tracker.openedAt host).get? key = (fleet host key).render.openedAt :=
    congrArg ConditionCell.openedAt hcell
  rw [IncidentTracker.activeStartedAt, Dict.contains_eq, hactive, hopened]
  cases fleet host key with
  | inactive candidate => rfl
  | active condition openedAt lastObservedAt recovery change => rfl

/-- A sample leaves the opening time as it was, or opens the condition at its own time. -/
theorem openingTime_step {policy : IncidentPolicy} {result : ProbeResult} {key openedAt : String}
    (l : Lifecycle)
    (h : openingTime (l.step epochSeconds (result.reading policy key)).1 = some openedAt) :
    openingTime l = some openedAt ∨ result.observedAt = openedAt := by
  cases hobserved : (result.reading policy key).observed with
  | none =>
    cases l with
    | inactive candidate => simp [Lifecycle.step, hobserved, openingTime] at h
    | active old started lastObservedAt recovery change =>
      simp only [Lifecycle.step, hobserved, Lifecycle.unseenActive] at h
      split at h
      · split at h
        · simp [openingTime] at h
        · exact Or.inl h
      · exact Or.inl h
  | some new =>
    have htime : new.observedAt = result.observedAt :=
      (policy.derived result key new hobserved).observedAt_eq
    cases l with
    | inactive candidate =>
      simp only [Lifecycle.step, hobserved, Lifecycle.seenInactive] at h
      split at h
      · simp [openingTime] at h
      · split at h
        · exact Or.inr (htime.symm.trans (Option.some.inj h))
        · simp [openingTime] at h
    | active old started lastObservedAt recovery change =>
      simp only [Lifecycle.step, hobserved, Lifecycle.seenActive] at h
      split at h
      · split at h
        · exact Or.inl h
        · split at h
          · exact Or.inl h
          · exact Or.inl h
      · split at h
        · exact Or.inl h
        · split at h
          · exact Or.inl h
          · exact Or.inl h

/-- A step opens a generation only at the time of the sample that it takes in. -/
theorem activeStartedAt_performs {store next : StateStore}
    (h : ∃ fleet, store.incidents.Represents fleet)
    (hperforms : store.Performs epochSeconds life next) :
    (∃ fleet, next.incidents.Represents fleet)
      ∧ ∀ host key openedAt, next.incidents.activeStartedAt host key = some openedAt →
        store.incidents.activeStartedAt host key = some openedAt
          ∨ openedAt ∈ sampleTimes host [(life, next)] := by
  obtain ⟨fleet, hfleet⟩ := h
  cases life with
  | restart config =>
    obtain ⟨hrestores, rfl⟩ := hperforms
    have hinit := IncidentTracker.init_represents config.policy config.incidentHistoryPoints
      config.historicalEvents config.openIncidents
    refine ⟨⟨_, hinit⟩, fun host key openedAt hactive => Or.inl ?_⟩
    rw [show (start config).incidents = .init config.policy config.incidentHistoryPoints
      config.historicalEvents config.openIncidents from rfl, activeStartedAt_eq hinit] at hactive
    rcases IncidentTables.restoredFleet_cases config.policy.recoveryCycles
        config.openIncidents host key with ⟨hnone, -⟩ | ⟨restored, hmem, hhost, hkey, hsome⟩
    · rw [hnone] at hactive
      simp [openingTime] at hactive
    · rw [hsome] at hactive
      exact (hrestores host key openedAt).mp
        ⟨restored, hmem, hhost, hkey, Option.some.inj hactive⟩
  | operate operation =>
    obtain ⟨events, hstep⟩ := hperforms
    cases operation with
    | setHosts hosts =>
      obtain ⟨-, rfl⟩ := Prod.mk.inj (Except.ok.inj hstep)
      have hremoved := hfleet.removeHosts hosts
      rw [(setHosts_actions store hosts).2.2]
      refine ⟨⟨_, hremoved⟩, fun host key openedAt hactive => Or.inl ?_⟩
      rw [activeStartedAt_eq hremoved] at hactive
      rw [activeStartedAt_eq hfleet]
      split at hactive
      · simp [openingTime] at hactive
      · exact hactive
    | setPolicy policy =>
      obtain ⟨-, rfl⟩ := Prod.mk.inj (Except.ok.inj hstep)
      exact ⟨⟨fleet, hfleet⟩, fun _ _ _ hactive => Or.inl hactive⟩
    | setMaintenanceWindows windows =>
      obtain ⟨-, rfl⟩ := Prod.mk.inj (Except.ok.inj hstep)
      exact ⟨⟨fleet, hfleet⟩, fun _ _ _ hactive => Or.inl hactive⟩
    | setIncidentActions actions =>
      obtain ⟨-, rfl⟩ := Prod.mk.inj (Except.ok.inj hstep)
      have hsame : (store.setIncidentActions actions).incidents = store.incidents := by
        unfold setIncidentActions
        dsimp only
        split
        · rfl
        · rfl
      rw [hsame]
      exact ⟨⟨fleet, hfleet⟩, fun _ _ _ hactive => Or.inl hactive⟩
    | apply setOrder clock result expectedIncarnation =>
      rcases apply_eq_ok hstep with ⟨-, rfl⟩ | ⟨-, created, incidents, recent, hupdate, rfl⟩
      · exact ⟨⟨fleet, hfleet⟩, fun _ _ _ hactive => Or.inl hactive⟩
      · obtain ⟨w, hrun, hrepresents, -⟩ :=
          @IncidentTracker.update_refines epochSeconds _ _ hfleet store.incidentPolicy result
            setOrder
        rw [hupdate] at hrun
        obtain ⟨-, rfl⟩ := Prod.mk.inj (Except.ok.inj hrun)
        dsimp only
        rw [(incidentActions_refresh _ _ _).2]
        refine ⟨⟨_, hrepresents⟩, fun host key openedAt hactive => ?_⟩
        dsimp only at hactive
        rw [activeStartedAt_eq hrepresents, Fleet.step] at hactive
        rw [activeStartedAt_eq hfleet]
        split at hactive
        · next hhost =>
          rcases openingTime_step _ hactive with hold | htime
          · exact Or.inl hold
          · right
            simp [sampleTimes, hhost, htime]
        · exact Or.inl hactive

/-- The times of the samples of a run in two parts. -/
theorem sampleTimes_append (host : String) (first second : List (LifeStep × StateStore)) :
    sampleTimes host (first ++ second) = sampleTimes host first ++ sampleTimes host second :=
  List.filterMap_append

/-- An opening time that is neither active nor the time of a later sample does not come back. -/
theorem not_reopened {trace : List (LifeStep × StateStore)}
    (h : ∃ fleet, store.incidents.Represents fleet) (htrace : store.Trace epochSeconds trace)
    {host key openedAt : String}
    (hclosed : store.incidents.activeStartedAt host key ≠ some openedAt)
    (htimes : openedAt ∉ sampleTimes host trace) :
    ∀ entry ∈ trace, entry.2.incidents.activeStartedAt host key ≠ some openedAt := by
  induction trace generalizing store with
  | nil => exact fun _ hmem => absurd hmem List.not_mem_nil
  | cons entry rest ih =>
    obtain ⟨life, next⟩ := entry
    obtain ⟨hperforms, hrest⟩ := htrace
    rw [show (life, next) :: rest = [(life, next)] ++ rest from rfl, sampleTimes_append,
      List.mem_append, not_or] at htimes
    obtain ⟨hnext, hopened⟩ := activeStartedAt_performs h hperforms
    have hstill : next.incidents.activeStartedAt host key ≠ some openedAt := fun hactive =>
      (hopened host key openedAt hactive).elim hclosed htimes.1
    rw [List.forall_mem_cons]
    exact ⟨hstill, ih hnext hrest hstill htimes.2⟩

/-- What a run reaches: its tracker represents a fleet, and every opening time is active at the
beginning or the time of a sample of the run. -/
theorem opened_in_run {store last : StateStore} {before after : List (LifeStep × StateStore)}
    (h : ∃ fleet, store.incidents.Represents fleet)
    (htrace : store.Trace epochSeconds (before ++ (life, last) :: after)) :
    (∃ fleet, last.incidents.Represents fleet) ∧ last.Trace epochSeconds after
      ∧ ∀ host key openedAt, last.incidents.activeStartedAt host key = some openedAt →
        store.incidents.activeStartedAt host key = some openedAt
          ∨ openedAt ∈ sampleTimes host (before ++ [(life, last)]) := by
  induction before generalizing store with
  | nil =>
    obtain ⟨hperforms, hrest⟩ := htrace
    obtain ⟨hlast, hopened⟩ := activeStartedAt_performs h hperforms
    exact ⟨hlast, hrest, hopened⟩
  | cons entry rest ih =>
    obtain ⟨first, next⟩ := entry
    obtain ⟨hperforms, hrest⟩ := htrace
    obtain ⟨hnext, hopened⟩ := activeStartedAt_performs h hperforms
    obtain ⟨hlast, hafter, hlater⟩ := ih hnext hrest
    refine ⟨hlast, hafter, fun host key openedAt hactive => ?_⟩
    rw [List.cons_append, show (first, next) :: (rest ++ [(life, last)])
      = [(first, next)] ++ (rest ++ [(life, last)]) from rfl, sampleTimes_append,
      List.mem_append]
    rcases hlater host key openedAt hactive with hearlier | hsampled
    · rcases hopened host key openedAt hearlier with hstart | hsampled
      · exact Or.inl hstart
      · exact Or.inr (Or.inl hsampled)
    · exact Or.inr (Or.inr hsampled)

end StateStore

open StateStore

/-- **An action and its generation.** Take a run over any number of restarts that begins with
an empty history, and in which the sample times of every host increase. It keeps the
generations if and only if in every store that it reaches, an action that names a generation
applies only while the active condition is the one that opened then. And a generation is one
stretch of the run: a condition that is open at two points under one opening time is open
under it at every point in between. -/
theorem faithful_iff (epochSeconds : String → Option ℚ) (config : StartConfig)
    (trace : List (LifeStep × StateStore)) (hfresh : config.openIncidents = [])
    (htrace : (start config).Trace epochSeconds trace)
    (htimes : ∀ host, (sampleTimes host trace).Pairwise (· < ·)) :
    ((start config).KeepsGenerations epochSeconds trace ↔ ∀ entry ∈ trace, entry.2.Faithful)
    ∧ ∀ before first between last after host key openedAt,
      trace = before ++ first :: (between ++ last :: after) →
      first.2.incidents.activeStartedAt host key = some openedAt →
      last.2.incidents.activeStartedAt host key = some openedAt →
      ∀ middle ∈ between, middle.2.incidents.activeStartedAt host key = some openedAt := by
  refine ⟨keepsGenerations_iff (bindingsTrue_start config) htrace, ?_⟩
  rintro before ⟨life, first⟩ between ⟨lastLife, last⟩ after host key openedAt hsplit hfirst hlast
    ⟨middleLife, middle⟩ hmiddle
  have hinit : ∃ fleet, (start config).incidents.Represents fleet :=
    ⟨_, IncidentTracker.init_represents _ _ _ _⟩
  have hclosed : (start config).incidents.activeStartedAt host key = none := by
    rw [show (start config).incidents = .init config.policy config.incidentHistoryPoints
      config.historicalEvents config.openIncidents from rfl,
      activeStartedAt_eq (IncidentTracker.init_represents _ _ _ _), hfresh]
    rfl
  obtain ⟨left, right, rfl⟩ := List.append_of_mem hmiddle
  -- The generation opened at a sample up to the first point, so no later sample has its time.
  rw [hsplit] at htrace htimes
  obtain ⟨hrepresents, hrest, hopened⟩ := opened_in_run hinit htrace
  have hsampled := (hopened host key openedAt hfirst).resolve_left (by rw [hclosed]; simp)
  have hlater : openedAt ∉ sampleTimes host (left ++ (middleLife, middle) :: right
      ++ (lastLife, last) :: after) := by
    intro hmem
    have hpairs := htimes host
    rw [show before ++ (life, first) :: (left ++ (middleLife, middle) :: right
        ++ (lastLife, last) :: after) = (before ++ [(life, first)]) ++ (left
        ++ (middleLife, middle) :: right ++ (lastLife, last) :: after) by simp,
      sampleTimes_append, List.pairwise_append] at hpairs
    exact lt_irrefl _ (hpairs.2.2 openedAt hsampled openedAt hmem)
  rw [List.append_assoc, List.cons_append] at hrest hlater
  obtain ⟨hmiddle', hafter, -⟩ := opened_in_run hrepresents hrest
  by_contra hgone
  refine not_reopened hmiddle' hafter hgone (fun hmem => hlater ?_) (lastLife, last) (by simp) hlast
  rw [show left ++ (middleLife, middle) :: (right ++ (lastLife, last) :: after)
    = (left ++ [(middleLife, middle)]) ++ (right ++ (lastLife, last) :: after) by simp,
    sampleTimes_append]
  exact List.mem_append_right _ hmem

/-! ### A relapse before a restart -/

/-- One failed cycle opens the connectivity condition, and one good cycle resolves it. -/
private def relapsePolicy : ThresholdIncidentPolicy where
  thresholdValues := ∅
  expectedGpuCounts := ∅
  incidents := { recoveryCycles := 1 }
  hostOverrides := ∅
  groupOverrides := ∅
  hostGroups := ∅

/-- A probe of the host at a time. -/
private def probeAt (status : ProbeStatus) (time : String) : ProbeResult where
  host := "gpu-01"
  status := status
  latencyMs := 0
  observedAt := time

/-- The parser of the timestamps that the probes carry. -/
private def secondsAt (text : String) : Option ℚ :=
  if text = "2026-01-01T00:00:00Z" then some 1767225600
  else if text = "2026-01-01T01:00:00Z" then some 1767229200
  else if text = "2026-01-01T02:00:00Z" then some 1767232800
  else if text = "2026-01-01T03:00:00Z" then some 1767236400
  else none

/-- The sample of a probe, taken in at its time. -/
private def sampleAt (status : ProbeStatus) (time : String) : LifeStep :=
  .operate (.apply ⟨id, List.Perm.refl⟩ ⟨1767225600, 1767225600, fun _ => 1767225600⟩
    (probeAt status time) none)

/-- The connectivity condition of a probe that failed. -/
private def failureAt (time : String) : IncidentCondition :=
  relapsePolicy.connectivityCondition (probeAt .unreachable time)

/-- A fleet that has one condition only. -/
private def single (l : Lifecycle) : Fleet := fun host key =>
  if host = "gpu-01" ∧ key = "connectivity" then l else .inactive none

/-- A probe moves that condition only. -/
private theorem step_single (l : Lifecycle) (status : ProbeStatus) (time : String) :
    (single l).step secondsAt relapsePolicy.toIncidentPolicy (probeAt status time)
      = single (l.step secondsAt
          ((probeAt status time).reading relapsePolicy.toIncidentPolicy "connectivity")).1 := by
  funext host key
  rw [Fleet.step, show (probeAt status time).host = "gpu-01" from rfl]
  by_cases hhost : host = "gpu-01"
  · subst hhost
    rw [if_pos rfl]
    by_cases hkey : key = "connectivity"
    · subst hkey
      simp [single]
    · have hobserved : ((probeAt status time).reading relapsePolicy.toIncidentPolicy
          key).observed = none := by
        cases status with
        | online => rfl
        | unreachable =>
          show (Dict.set ∅ "connectivity" _).get? key = none
          rw [Dict.get?_set, if_neg hkey]
          rfl
        | error =>
          show (Dict.set ∅ "connectivity" _).get? key = none
          rw [Dict.get?_set, if_neg hkey]
          rfl
      simp [single, hkey, Lifecycle.step, hobserved]
  · rw [if_neg hhost]
    simp [single, hhost]

/-- The host is served, and its connectivity is in the given state. -/
private structure Watched (store : StateStore) (l : Lifecycle) : Prop where
  servers : store.servers = ["gpu-01"]
  incarnation : (store.hostIncarnations.get? "gpu-01").isSome
  policy : store.incidentPolicy = relapsePolicy.toIncidentPolicy
  represents : store.incidents.Represents (single l)

/-- A sample of the host is taken in. -/
private theorem Watched.sample {l : Lifecycle} (h : Watched store l) (status : ProbeStatus)
    (time : String) :
    ∃ next, store.Performs secondsAt (sampleAt status time) next
      ∧ Watched next (l.step secondsAt
          ((probeAt status time).reading relapsePolicy.toIncidentPolicy "connectivity")).1 := by
  rcases @apply_cases secondsAt _ _ h.represents
      (fun host hhost => by
        rw [h.servers, List.mem_singleton] at hhost
        rw [hhost]
        exact h.incarnation)
      ⟨id, List.Perm.refl⟩ ⟨1767225600, 1767225600, fun _ => 1767225600⟩
      (probeAt status time) none with
    ⟨hignored, -⟩ | ⟨w, incarnation, candidates, bindings, updated, -, hrepresents, -, -, hget,
      hupdated, -, happly⟩
  · rw [h.servers] at hignored
    simp [probeAt] at hignored
  · rw [h.policy, step_single] at hrepresents
    refine ⟨_, ⟨_, happly⟩, ?_⟩
    subst hupdated
    split
    · exact ⟨h.servers, h.incarnation, h.policy, hrepresents⟩
    · exact ⟨h.servers, h.incarnation, h.policy, hrepresents⟩

/-- A silence of the generation that opened at midnight. -/
private def midnightSilence : IncidentActionConfig where
  host := "gpu-01"
  conditionKey := "connectivity"
  action := .silenced
  until_ := 1798761600
  incidentStartedAt := some "2026-01-01T00:00:00Z"

/-- A process without history, and the process after it, which restores the generation that
opened at two o'clock. -/
private def lifeStart (openIncidents : List OpenIncident) (actions : List IncidentActionConfig) :
    StartConfig where
  policy := relapsePolicy.toIncidentPolicy
  incidentHistoryPoints := 100
  historicalEvents := []
  openIncidents := openIncidents
  maintenanceWindows := []
  incidentActions := actions

/-- The incident that the second process restores. -/
private def reopened : OpenIncident :=
  ⟨"gpu-01", failureAt "2026-01-01T02:00:00Z", "2026-01-01T02:00:00Z"⟩

/-- A process that serves the host. -/
private theorem watched_start (openIncidents : List OpenIncident)
    (actions : List IncidentActionConfig) (l : Lifecycle)
    (hfleet : IncidentTracker.restoredFleet 1 openIncidents = single l) :
    Watched ((start (lifeStart openIncidents actions)).setHosts ["gpu-01"]) l where
  servers := rfl
  incarnation := rfl
  policy := rfl
  represents := by
    have hinit := IncidentTracker.init_represents relapsePolicy.toIncidentPolicy 100 []
      openIncidents
    have hremoved := hinit.removeHosts ["gpu-01"]
    have hsame : (fun host key => if host ∈ (IncidentTracker.init relapsePolicy.toIncidentPolicy
        100 [] openIncidents).active.keys ∧ host ∉ ["gpu-01"] then Lifecycle.inactive none
        else IncidentTracker.restoredFleet 1 openIncidents host key) = single l := by
      funext host key
      rw [hfleet]
      split
      · next hgone =>
        have hhost : host ≠ "gpu-01" := by simpa using hgone.2
        simp [single, hhost]
      · rfl
    rw [← hsame]
    exact hremoved

/-- The host fails at midnight, an operator silences that generation, the host recovers and
fails again at two o'clock, and the process restarts. The first sample after the restart binds
the silence to the generation of two o'clock. -/
private theorem exists_reopened_run :
    ∃ trace last, (start (lifeStart [] [])).Trace secondsAt (trace ++ [last])
      ∧ (∀ host, (sampleTimes host (trace ++ [last])).Pairwise (· < ·))
      ∧ (∃ config, .restart config ∈ trace.map Prod.fst)
      ∧ (sampleTimes "gpu-01" trace).length = 3 ∧ ¬ last.2.Faithful := by
  have hsame : ∀ time, (Lifecycle.step secondsAt (.inactive none)
      ((probeAt .unreachable time).reading relapsePolicy.toIncidentPolicy "connectivity")).1
      = .active (failureAt time) time time none none := fun time => by
    have hobserved : ((probeAt .unreachable time).reading relapsePolicy.toIncidentPolicy
        "connectivity").observed = some (failureAt time) := rfl
    simp only [Lifecycle.step, hobserved]
    rfl
  have hrecovers : (Lifecycle.step secondsAt (.active (failureAt "2026-01-01T00:00:00Z")
      "2026-01-01T00:00:00Z" "2026-01-01T00:00:00Z" none none)
      ((probeAt .online "2026-01-01T01:00:00Z").reading relapsePolicy.toIncidentPolicy
        "connectivity")).1 = .inactive none := by
    have hobserved : ((probeAt .online "2026-01-01T01:00:00Z").reading
        relapsePolicy.toIncidentPolicy "connectivity").observed = none := rfl
    simp only [Lifecycle.step, hobserved, Lifecycle.unseenActive]
    rw [if_pos (by decide +kernel)]
    rfl
  -- The first process.
  have h₁ := watched_start [] [] (.inactive none) (by funext host key; simp [single]; rfl)
  obtain ⟨s₂, hp₂, h₂⟩ := h₁.sample .unreachable "2026-01-01T00:00:00Z"
  rw [hsame] at h₂
  have h₃ : Watched (s₂.setIncidentActions [midnightSilence])
      (.active (failureAt "2026-01-01T00:00:00Z") "2026-01-01T00:00:00Z" "2026-01-01T00:00:00Z"
        none none) := by
    unfold setIncidentActions
    dsimp only
    split
    · exact h₂
    · exact ⟨h₂.servers, h₂.incarnation, h₂.policy, h₂.represents⟩
  obtain ⟨s₄, hp₄, h₄⟩ := h₃.sample .online "2026-01-01T01:00:00Z"
  rw [hrecovers] at h₄
  obtain ⟨s₅, hp₅, h₅⟩ := h₄.sample .unreachable "2026-01-01T02:00:00Z"
  rw [hsame] at h₅
  -- The second process restores what the first one had open.
  have hrestores : s₅.Restores [reopened] := by
    intro host key startedAt
    rw [activeStartedAt_eq h₅.represents]
    by_cases hpair : host = "gpu-01" ∧ key = "connectivity"
    · obtain ⟨rfl, rfl⟩ := hpair
      simp [reopened, single, openingTime, failureAt,
        ThresholdIncidentPolicy.connectivityCondition]
    · have hno : ¬ ("gpu-01" = host ∧ "connectivity" = key) := fun h =>
        hpair ⟨h.1.symm, h.2.symm⟩
      simp only [single, if_neg hpair, openingTime, List.mem_singleton, exists_eq_left,
        reopened, reduceCtorEq, iff_false]
      exact fun h => hno ⟨h.1, h.2.1⟩
  have h₇ := watched_start [reopened] [midnightSilence]
    (.active (failureAt "2026-01-01T02:00:00Z") "2026-01-01T02:00:00Z" "2026-01-01T02:00:00Z"
      none none) (by
        funext host key
        simp [IncidentTracker.restoredFleet, IncidentTracker.restoreLifecycle, single, reopened]
        rfl)
  obtain ⟨s₈, hp₈, h₈⟩ := h₇.sample .unreachable "2026-01-01T03:00:00Z"
  refine ⟨[(.operate (.setHosts ["gpu-01"]), _), (sampleAt .unreachable "2026-01-01T00:00:00Z", s₂),
    (.operate (.setIncidentActions [midnightSilence]), _),
    (sampleAt .online "2026-01-01T01:00:00Z", s₄),
    (sampleAt .unreachable "2026-01-01T02:00:00Z", s₅),
    (.restart (lifeStart [reopened] [midnightSilence]), _),
    (.operate (.setHosts ["gpu-01"]), _)], (sampleAt .unreachable "2026-01-01T03:00:00Z", s₈),
    ⟨⟨[], rfl⟩, hp₂, ⟨[], rfl⟩, hp₄, hp₅, ⟨hrestores, rfl⟩, ⟨[], rfl⟩, hp₈, trivial⟩, ?_,
    ⟨lifeStart [reopened] [midnightSilence], by simp⟩, rfl, ?_⟩
  · intro host
    by_cases hhost : "gpu-01" = host
    · subst hhost
      have htimes : ["2026-01-01T00:00:00Z", "2026-01-01T01:00:00Z", "2026-01-01T02:00:00Z",
          "2026-01-01T03:00:00Z"].Pairwise (· < ·) := by
        decide +kernel
      exact htimes
    · simp [sampleTimes, sampleAt, probeAt, hhost]
  · intro hfaithful
    have hkeeps := keepsGeneration_of_faithful hp₈ hfaithful
    obtain ⟨events, hstep⟩ := hp₈
    rcases apply_eq_ok hstep with ⟨hignored, -⟩ | ⟨htakes, created, incidents, recent, hupdate,
      hnext⟩
    · exact hignored ⟨by rw [h₇.servers]; exact List.mem_singleton_self _, Or.inl rfl⟩
    · have hactive : incidents.activeStartedAt "gpu-01" "connectivity"
          = some "2026-01-01T02:00:00Z" := by
        have hincidents : s₈.incidents = incidents := by
          rw [hnext]
          exact (incidentActions_refresh _ _ _).2
        rw [← hincidents, activeStartedAt_eq h₈.represents]
        rfl
      have hbound := hkeeps htakes created incidents hupdate ("gpu-01", "connectivity")
        midnightSilence "2026-01-01T00:00:00Z" "2026-01-01T02:00:00Z" rfl (by decide +kernel)
        (by decide +kernel) rfl hactive
      exact absurd hbound (by decide)

/-- A silence applies to a generation that it does not name. -/
theorem silence_outlives_generation :
    ∃ trace last, (start (lifeStart [] [])).Trace secondsAt (trace ++ [last])
      ∧ (∀ host, (sampleTimes host (trace ++ [last])).Pairwise (· < ·))
      ∧ ¬ last.2.Faithful := by
  obtain ⟨trace, last, htrace, htimes, -, -, hunfaithful⟩ := exists_reopened_run
  exact ⟨trace, last, htrace, htimes, hunfaithful⟩

/-- The run with a condition that opens again and a restart does not keep the generations. -/
theorem faithful_iff_reopened :
    ∃ trace, (start (lifeStart [] [])).Trace secondsAt trace
      ∧ (∃ config, .restart config ∈ trace.map Prod.fst)
      ∧ 3 ≤ (sampleTimes "gpu-01" trace).length
      ∧ ¬ (start (lifeStart [] [])).KeepsGenerations secondsAt trace := by
  obtain ⟨trace, last, htrace, htimes, ⟨config, hrestart⟩, hsamples, hunfaithful⟩ :=
    exists_reopened_run
  refine ⟨_, htrace, ⟨config, ?_⟩, ?_, fun hkeeps => hunfaithful ?_⟩
  · rw [List.map_append]
    exact List.mem_append_left _ hrestart
  · rw [sampleTimes_append, List.length_append, hsamples]
    exact Nat.le_add_right 3 _
  · exact (faithful_iff secondsAt (lifeStart [] []) _ rfl htrace htimes).1.mp hkeeps last
      (List.mem_append_right _ List.mem_cons_self)

end Mocop
