import Mocop.Incidents.Replay
import Mocop.Lib.Recent
import Mocop.Service.Overlay
import Mathlib.Data.List.Dedup

/-!
# `Mocop.Service.Store`: hosts, incidents and the operator's overlay

The part of the state store that decides which incidents are announced and how they are
shown: the monitored hosts with their incarnations, the tracker, the maintenance windows, the
incident actions with their bindings, and the incarnations of the latest notification events.

A host that is added again gets another incarnation. An action that names a generation applies
to the condition that opened at that time. After a restart such an action may be bound once to
the generation that the first sample shows. The clock is read more than once in one operation,
so an operation takes each reading that it makes.
-/

set_option autoImplicit false

namespace Mocop

attribute [local instance] lawfulBEq_identity

/-- The state store. `notificationEvents` are the latest notification events with the
incarnations of their hosts. -/
structure StateStore where
  servers : List String := []
  hostIncarnations : Dict String ℕ := ∅
  nextHostIncarnation : ℕ := 1
  incidentPolicy : IncidentPolicy
  incidents : IncidentTracker
  maintenanceWindows : Dict String MaintenanceWindowConfig
  incidentActions : Dict (String × String) IncidentActionConfig
  startupActionCandidates : List (String × String)
  startupActionBindings : Dict (String × String) String := ∅
  notificationEvents : Recent ℕ ℕ := {}
  notificationEventCapacity : ℕ

/-- What a process restores and configures at its start. -/
structure StartConfig where
  policy : IncidentPolicy
  incidentHistoryPoints : ℕ
  historicalEvents : List IncidentEvent
  openIncidents : List OpenIncident
  maintenanceWindows : List (String × MaintenanceWindowConfig)
  incidentActions : List IncidentActionConfig

/-- The actions by host and condition: of two for one condition the later one counts. -/
def actionTable (actions : List IncidentActionConfig) :
    Dict (String × String) IncidentActionConfig :=
  Dict.ofList (actions.map (fun action => ((action.host, action.conditionKey), action)))

/-- The clock readings of one sample: for the bindings, for the maintenance windows, and for
the silence of each transition. -/
structure ClockReadings where
  bindings : ℚ
  maintenance : ℚ
  silence : IncidentEvent → ℚ

/-- How an incident is shown. -/
structure IncidentDecoration where
  maintenanceSilenced : Bool
  silenced : Bool
  acknowledged : Bool
  actionable : Bool
  action : Option IncidentActionConfig

namespace StateStore

/-- A store at the start of a process. -/
def start (config : StartConfig) : StateStore :=
  let actions := actionTable config.incidentActions
  { incidentPolicy := config.policy
    incidents := .init config.policy config.incidentHistoryPoints config.historicalEvents
      config.openIncidents
    maintenanceWindows := Dict.ofList config.maintenanceWindows
    incidentActions := actions
    startupActionCandidates :=
      (actions.filter (fun _ action => action.incidentStartedAt.isSome)).keys
    notificationEventCapacity := max 1024 (config.incidentHistoryPoints * 4) }

/-- Adds a host under a new incarnation. -/
def addServer (store : StateStore) (host : String) : StateStore :=
  if host ∈ store.servers then store
  else
    { store with
      servers := store.servers ++ [host]
      hostIncarnations := store.hostIncarnations.set host store.nextHostIncarnation
      nextHostIncarnation := store.nextHostIncarnation + 1 }

/-- Forgets the servers that are no longer desired. -/
def removeServers (store : StateStore) (hosts : List String) : StateStore :=
  { store with
    servers := store.servers.filter (· ∈ hosts)
    hostIncarnations := store.hostIncarnations.filterKeys
      (fun host => !(decide (host ∈ store.servers) && decide (host ∉ hosts))) }

/-- Installs the monitored hosts. -/
def setHosts (store : StateStore) (hosts : List String) : StateStore :=
  let store := hosts.foldl addServer (store.removeServers hosts)
  { store with incidents := store.incidents.removeHosts hosts }

/-- Installs the maintenance windows. -/
def setMaintenanceWindows (store : StateStore)
    (windows : List (String × MaintenanceWindowConfig)) : StateStore :=
  { store with maintenanceWindows := Dict.ofList windows }

/-- Whether two tables hold the same actions, in whatever order. -/
def sameActions (actions others : Dict (String × String) IncidentActionConfig) : Bool :=
  (actions.keys ++ others.keys).all (fun key => actions.get? key = others.get? key)

/-- Installs the incident actions. A candidate or a binding stays only with an action that has
not changed. -/
def setIncidentActions (store : StateStore) (actions : List IncidentActionConfig) : StateStore :=
  let updated := actionTable actions
  if sameActions updated store.incidentActions then store
  else
    let retained := fun key : String × String =>
      (updated.get? key).isSome && decide (store.incidentActions.get? key = updated.get? key)
    { store with
      incidentActions := updated
      startupActionCandidates := store.startupActionCandidates.filter retained
      startupActionBindings := store.startupActionBindings.filterKeys retained }

/-- The action for a condition, if one is in force. -/
def activeAction (store : StateStore) (now : ℚ) (key : String × String) :
    Option IncidentActionConfig :=
  (store.incidentActions.get? key).filter (·.isActive now)

/-- Whether a host is under maintenance. -/
def underMaintenance (store : StateStore) (now : ℚ) (host : String) : Bool :=
  ((store.maintenanceWindows.get? host).filter (·.isActive now)).isSome

/-- Whether an action applies to the condition as it is now. -/
def incidentActionMatches (store : StateStore) (action : IncidentActionConfig)
    (key : String × String) : Bool :=
  match action.incidentStartedAt with
  | none => true
  | some startedAt =>
    some (store.startupActionBindings.getD key startedAt)
      = store.incidents.activeStartedAt key.1 key.2

/-- Whether a condition is silenced. -/
def conditionIsSilenced (store : StateStore) (now : ℚ) (key : String × String) : Bool :=
  match store.activeAction now key with
  | some action => action.action = .silenced && store.incidentActionMatches action key
  | none => false

/-- Whether a sample can declare a condition absent. -/
def conditionObserved (policy : IncidentPolicy) (result : ProbeResult) (key : String) : Bool :=
  key = "connectivity"
    || (conditionDomains (partitionHead key) key).all (· ∈ policy.observedDomains result)

/-- Settles one candidate or binding after a sample. -/
def refreshStartupActionBinding (now : ℚ) (result : ProbeResult) (store : StateStore)
    (key : String × String) : StateStore :=
  let candidates := store.startupActionCandidates.filter (· ≠ key)
  match store.activeAction now key, store.incidents.activeStartedAt key.1 key.2 with
  | none, _ =>
    { store with
      startupActionCandidates := candidates
      startupActionBindings := store.startupActionBindings.erase key }
  | some _, some startedAt =>
    if key ∈ store.startupActionCandidates then
      { store with
        startupActionCandidates := candidates
        startupActionBindings := store.startupActionBindings.set key startedAt }
    else store
  | some _, none =>
    if key ∈ store.startupActionCandidates
        ∧ !store.incidents.hasPendingCondition key.1 key.2
        ∧ conditionObserved store.incidentPolicy result key.2 then
      -- The first sample that could show the condition was healthy.
      { store with startupActionCandidates := candidates }
    else if (store.startupActionBindings.get? key).isSome then
      { store with startupActionBindings := store.startupActionBindings.erase key }
    else store

/-- Settles the candidates and the bindings of the host of a sample. The keys are those of a
set; each is settled on its own, so their order does not matter. -/
def refreshStartupActionBindings (store : StateStore) (now : ℚ) (result : ProbeResult) :
    StateStore :=
  ((store.startupActionCandidates ++ store.startupActionBindings.keys).filter
    (fun key => key.1 = result.host)).dedup.foldl (refreshStartupActionBinding now result) store

/-- Whether a transition is announced. A resolution always is. -/
def isAnnounced (store : StateStore) (clock : ClockReadings) (event : IncidentEvent) : Bool :=
  event.state = .resolved
    || (!store.underMaintenance clock.maintenance event.host
      && !store.conditionIsSilenced (clock.silence event) (event.host, event.condition.key))

section
variable (epochSeconds : String → Option ℚ)

/-- Takes a sample of a host in, and returns the announced transitions. A sample for an unknown
host, or for another incarnation than expected, is ignored. -/
def apply (store : StateStore) (setOrder : SetOrder) (clock : ClockReadings)
    (result : ProbeResult) (expectedIncarnation : Option ℕ) :
    Except KeyError (List IncidentEvent × StateStore) := do
  if result.host ∉ store.servers ∨ (expectedIncarnation ≠ none
      ∧ store.hostIncarnations.get? result.host ≠ expectedIncarnation) then
    return ([], store)
  let (incidentEvents, incidents) ←
    store.incidents.update epochSeconds store.incidentPolicy setOrder result
  let store :=
    { store with incidents := incidents }.refreshStartupActionBindings clock.bindings result
  let notificationEvents := incidentEvents.filter (store.isAnnounced clock)
  if notificationEvents = [] then return ([], store)
  let incarnation ← store.hostIncarnations.item result.host
  return (notificationEvents,
    { store with
      notificationEvents := store.notificationEvents.recordAll store.notificationEventCapacity
        (notificationEvents.map (fun event => (event.eventId, incarnation))) })

end

/-- Whether a notification event is still worth delivering. -/
def notificationEventActionable (store : StateStore) (maintenanceAt silenceAt : ℚ)
    (event : IncidentEvent) : Bool :=
  if event.state = .resolved then true
  else
    match store.notificationEvents.table.get? event.eventId with
    | none => false
    | some expectedIncarnation =>
      store.hostIncarnations.get? event.host = some expectedIncarnation
        && store.incidents.hasActiveCondition event.host event.condition.key
        && !store.underMaintenance maintenanceAt event.host
        && !store.conditionIsSilenced silenceAt (event.host, event.condition.key)

/-- How the incident of a host and a condition key is shown. -/
def decorateIncident (store : StateStore) (now : ℚ) (key : String × String) :
    IncidentDecoration :=
  let window := store.underMaintenance now key.1
  let action := (store.activeAction now key).filter (store.incidentActionMatches · key)
  let silenced := window || action.any (·.action = .silenced)
  let acknowledged := action.any (·.action = .acknowledged)
  { maintenanceSilenced := window
    silenced := silenced
    acknowledged := acknowledged
    actionable := !(silenced || acknowledged)
    action := action }

/-- An operation on the store. A change of the thresholds, of the groups or of the overrides
installs another policy. -/
inductive Operation where
  | setHosts (hosts : List String)
  | setPolicy (policy : IncidentPolicy)
  | setMaintenanceWindows (windows : List (String × MaintenanceWindowConfig))
  | setIncidentActions (actions : List IncidentActionConfig)
  | apply (setOrder : SetOrder) (clock : ClockReadings) (result : ProbeResult)
      (expectedIncarnation : Option ℕ)

/-- One operation, with the transitions that it announces. -/
def step (epochSeconds : String → Option ℚ) (store : StateStore) :
    Operation → Except KeyError (List IncidentEvent × StateStore)
  | .setHosts hosts => .ok ([], store.setHosts hosts)
  | .setPolicy policy => .ok ([], { store with incidentPolicy := policy })
  | .setMaintenanceWindows windows => .ok ([], store.setMaintenanceWindows windows)
  | .setIncidentActions actions => .ok ([], store.setIncidentActions actions)
  | .apply setOrder clock result expectedIncarnation =>
    store.apply epochSeconds setOrder clock result expectedIncarnation

/-! ### What the operations leave alone -/

/-- Settling the bindings touches the candidates and the bindings only. -/
theorem refreshStartupActionBindings_frame (store : StateStore) (now : ℚ)
    (result : ProbeResult) :
    ∃ candidates bindings, store.refreshStartupActionBindings now result
      = { store with
          startupActionCandidates := candidates, startupActionBindings := bindings } := by
  have hfold : ∀ (keys : List (String × String)) (start : StateStore),
      (∃ candidates bindings, start = { store with
          startupActionCandidates := candidates, startupActionBindings := bindings }) →
      ∃ candidates bindings, keys.foldl (refreshStartupActionBinding now result) start
        = { store with
            startupActionCandidates := candidates, startupActionBindings := bindings } := by
    intro keys
    induction keys with
    | nil => exact fun start h => h
    | cons key rest ih =>
      rintro start ⟨candidates, bindings, rfl⟩
      refine ih _ ?_
      unfold refreshStartupActionBinding
      dsimp only
      repeat' split
      all_goals exact ⟨_, _, rfl⟩
  exact hfold _ store ⟨_, _, rfl⟩

section
variable {epochSeconds : String → Option ℚ} {store : StateStore} {fleet : Fleet}

/-- What a sample does. It is ignored, or the tracker takes it in, the bindings are settled,
and the announced transitions are recorded under the incarnation of the host. -/
theorem apply_cases (h : store.incidents.Represents fleet)
    (hserved : ∀ host ∈ store.servers, (store.hostIncarnations.get? host).isSome)
    (setOrder : SetOrder) (clock : ClockReadings) (result : ProbeResult)
    (expectedIncarnation : Option ℕ) :
    ((result.host ∉ store.servers ∨ (expectedIncarnation ≠ none
          ∧ store.hostIncarnations.get? result.host ≠ expectedIncarnation))
      ∧ store.apply epochSeconds setOrder clock result expectedIncarnation = .ok ([], store))
    ∨ ∃ w incarnation candidates bindings updated,
      store.incidents.update epochSeconds store.incidentPolicy setOrder result
        = .ok (w.created, store.incidents.store result.host w)
      ∧ (store.incidents.store result.host w).Represents
          (fleet.step epochSeconds store.incidentPolicy result)
      ∧ (∀ key, transitionsOf w.created key = ((fleet result.host key).step epochSeconds
          (result.reading store.incidentPolicy key)).2.toList)
      ∧ w.Extends store.incidents.log result.host result.observedAt
      ∧ store.hostIncarnations.get? result.host = some incarnation
      ∧ updated = { store with
          incidents := store.incidents.store result.host w
          startupActionCandidates := candidates
          startupActionBindings := bindings }
      ∧ updated = { store with
          incidents := store.incidents.store result.host w }.refreshStartupActionBindings
            clock.bindings result
      ∧ store.apply epochSeconds setOrder clock result expectedIncarnation
        = .ok (w.created.filter (updated.isAnnounced clock),
          if w.created.filter (updated.isAnnounced clock) = [] then updated
          else
            { updated with
              notificationEvents := updated.notificationEvents.recordAll
                updated.notificationEventCapacity
                ((w.created.filter (updated.isAnnounced clock)).map
                  (fun event => (event.eventId, incarnation))) }) := by
  by_cases hignored : result.host ∉ store.servers ∨ (expectedIncarnation ≠ none
      ∧ store.hostIncarnations.get? result.host ≠ expectedIncarnation)
  · exact Or.inl ⟨hignored, by rw [apply, if_pos hignored]; rfl⟩
  · right
    rw [not_or, not_not] at hignored
    obtain ⟨incarnation, hincarnation⟩ := Option.isSome_iff_exists.mp (hserved _ hignored.1)
    obtain ⟨w, hupdate, hrepresents, htransitions, hextends⟩ :=
      @IncidentTracker.update_refines epochSeconds _ _ h store.incidentPolicy
        result setOrder
    obtain ⟨candidates, bindings, hframe⟩ := refreshStartupActionBindings_frame
      { store with incidents := store.incidents.store result.host w } clock.bindings result
    refine ⟨w, incarnation, candidates, bindings, _, hupdate, hrepresents, htransitions, hextends,
      hincarnation, rfl, hframe.symm, ?_⟩
    rw [apply, if_neg (by rw [not_or, not_not]; exact hignored), hupdate]
    simp only [bind, Except.bind, hframe]
    split
    · next hnone => rw [hnone]; rfl
    · rw [Dict.item, hincarnation]
      rfl

end

end StateStore

end Mocop
