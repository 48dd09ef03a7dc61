import Mocop.Incidents.Domains

/-!
# `Mocop.Incidents.Tracker`: active conditions and the transition log

`IncidentTracker` keeps six dictionaries of dictionaries, one entry per host and condition
key: the active conditions, the candidates that are still being confirmed, the recovery
counts, the pending severity changes, the opening times and the times of the last
observation. `update` takes one probe result through them and returns the transitions it
created.

`update` runs two loops. `observe` handles each condition that the policy derived from the
sample, and `recover` each active condition that the sample does not show. The second loop
runs over a set, whose order the language leaves open: a `SetOrder` is one such order.
A subscript that misses its key raises, so `recover` and `update` return an `Except`.
-/

set_option autoImplicit false

namespace Mocop

/-- The exception of a subscript `d[key]` whose key is absent. -/
structure KeyError where
  key : String
  deriving DecidableEq

/-- An order in which a loop visits the members of a set. -/
structure SetOrder where
  order : List String → List String
  perm : ∀ members, (order members).Perm members

/-- The subscript `d[key]`. -/
def Dict.item {ν : Type} (d : Dict String ν) (key : String) : Except KeyError ν :=
  match d.get? key with
  | some value => .ok value
  | none => .error ⟨key⟩

/-- The inner dictionary of a host, empty when the host has none. -/
def rowOf {ν : Type} (table : Dict String (Dict String ν)) (host : String) : Dict String ν :=
  table.getD host ∅

/-- `deque.append` on a deque of the given capacity. -/
def pushBounded {α : Type} (capacity : ℕ) (items : List α) (item : α) : List α :=
  (items ++ [item]).drop (items.length + 1 - capacity)

/-- `items[-count:]`, which is the whole list for `count = 0`. -/
def lastItems {α : Type} (count : ℕ) (items : List α) : List α :=
  if count = 0 then items else items.drop (items.length - count)

/-- The bounded transition log of a tracker: the retained events, the version and the next
event id. -/
structure EventLog where
  events : List IncidentEvent
  capacity : ℕ
  version : ℕ
  nextEventId : ℕ

/-- Appends a transition under the next event id. -/
def EventLog.append (log : EventLog) (host : String) (condition : IncidentCondition)
    (state : IncidentState) (observedAt : String) : IncidentEvent × EventLog :=
  let event : IncidentEvent :=
    { eventId := log.nextEventId, host, condition, state, observedAt }
  (event,
    { log with
        events := pushBounded log.capacity log.events event
        nextEventId := log.nextEventId + 1
        version := log.version + 1 })

/-- A condition whose opening is being confirmed: its last reading, the confirming samples
so far and the time of the first of them. -/
abbrev Candidate := IncidentCondition × ℕ × String

/-- A severity change that is being confirmed: the new severity, the confirming samples so
far and the time of the first of them. -/
abbrev SeverityChange := IncidentSeverity × ℕ × String

/-- Active conditions and the bounded transition log. -/
structure IncidentTracker where
  active : Dict String (Dict String IncidentCondition)
  candidates : Dict String (Dict String Candidate)
  recoveries : Dict String (Dict String ℕ)
  severityChanges : Dict String (Dict String SeverityChange)
  openedAt : Dict String (Dict String String)
  lastObservedAt : Dict String (Dict String String)
  log : EventLog

namespace IncidentTracker

/-- Stores a value under a host and a key: `table.setdefault(host, {})[key] = value`. -/
def setItem {ν : Type} (table : Dict String (Dict String ν)) (host key : String)
    (value : ν) : Dict String (Dict String ν) :=
  table.set host ((rowOf table host).set key value)

/-- Resumes the generation of one restored incident. The persisted transition does not carry
cycle counts, so the recovery follows the configured policy. -/
def restore (recoveryCycles : ℕ) (tracker : IncidentTracker) (restored : OpenIncident) :
    IncidentTracker :=
  let host := restored.host
  let key := restored.condition.key
  { tracker with
      active := setItem tracker.active host key
        { restored.condition with recoveryCycles := recoveryCycles }
      openedAt := setItem tracker.openedAt host key restored.openedAt
      lastObservedAt := setItem tracker.lastObservedAt host key
        restored.condition.observedAt }

/-- A tracker started from the restored event window and the restored open incidents. -/
def init (policy : IncidentPolicy) (historyPoints : ℕ)
    (historicalEvents : List IncidentEvent) (openIncidents : List OpenIncident) :
    IncidentTracker :=
  let retainedEvents := lastItems historyPoints historicalEvents
  let lastEventId := (retainedEvents.map (·.eventId)).foldl max 0
  openIncidents.foldl (restore policy.recoveryCycles)
    { active := ∅
      candidates := ∅
      recoveries := ∅
      severityChanges := ∅
      openedAt := ∅
      lastObservedAt := ∅
      log :=
        { events := retainedEvents.drop (retainedEvents.length - historyPoints)
          capacity := historyPoints
          version := lastEventId
          nextEventId := lastEventId + 1 } }

/-- Forgets the hosts that are no longer desired. -/
def removeHosts (tracker : IncidentTracker) (desired : List String) : IncidentTracker :=
  let removed := tracker.active.keys.filter (· ∉ desired)
  let kept : String → Bool := fun host => host ∉ removed
  { active := tracker.active.filterKeys kept
    candidates := tracker.candidates.filterKeys kept
    recoveries := tracker.recoveries.filterKeys kept
    severityChanges := tracker.severityChanges.filterKeys kept
    openedAt := tracker.openedAt.filterKeys kept
    lastObservedAt := tracker.lastObservedAt.filterKeys kept
    log := { tracker.log with
      version := tracker.log.version
        + removed.countP (fun host => (rowOf tracker.active host).entries ≠ []) } }

/-- Whether an established critical severity survives a warning reading: the reading sits
inside the recovery margin below an unchanged critical line. -/
def holdsSeverity (new previous : IncidentCondition) : Bool :=
  match new.value, new.criticalAt with
  | some value, some criticalAt =>
    previous.severity = .critical ∧ new.severity = .warning
      ∧ previous.criticalAt = new.criticalAt ∧ criticalAt - new.recoveryMargin ≤ value
  | _, _ => false

section
variable (epochSeconds : String → Option ℚ)

/-- Whether the condition has been observed for its required duration. Timestamps that do
not parse fall back to confirmation by cycles alone. -/
def sustained (since : String) (condition : IncidentCondition) : Bool :=
  if condition.openAfterSeconds ≤ 0 then true
  else
    match epochSeconds since, epochSeconds condition.observedAt with
    | some started, some now => condition.openAfterSeconds ≤ now - started
    | _, _ => true

/-- A streak of confirming samples after one more of them: the count and the time of the
first. A streak for another severity starts over. -/
def nextStreak (streak : SeverityChange) (new : IncidentCondition) : ℕ × String :=
  let (severity, count, since) := streak
  let (count, since) :=
    if severity ≠ new.severity then (0, new.observedAt) else (count, since)
  (count + 1, since)

/-- Whether a streak is long enough, in samples and in time, for what the condition shows. -/
def confirmed (streak : ℕ × String) (new : IncidentCondition) : Bool :=
  new.openAfterCycles ≤ streak.1 && sustained epochSeconds streak.2 new

/-- The local variables of one update: the rows of its host, the conditions active after
it, the transitions created so far, and the log. -/
structure Locals where
  candidates : Dict String Candidate
  recoveries : Dict String ℕ
  severityChanges : Dict String SeverityChange
  openedAt : Dict String String
  lastObservedAt : Dict String String
  current : Dict String IncidentCondition
  created : List IncidentEvent
  log : EventLog

/-- Appends a transition to the log and to the created transitions. -/
def Locals.append (w : Locals) (host : String) (condition : IncidentCondition)
    (state : IncidentState) (observedAt : String) : Locals :=
  let appended := w.log.append host condition state observedAt
  { w with created := w.created ++ [appended.1], log := appended.2 }

/-- The body of the first loop for a condition that was active before the sample. -/
def observeActive (host observedAt : String) (w : Locals) (key : String)
    (old new : IncidentCondition) : Locals :=
  let w := { w with
    candidates := w.candidates.erase key
    lastObservedAt := w.lastObservedAt.set key new.observedAt }
  let new := if holdsSeverity new old then { new with severity := old.severity } else new
  if old.severity = new.severity then
    { w with
        severityChanges := w.severityChanges.erase key
        current := w.current.set key new }
  else
    let streak := nextStreak
      (w.severityChanges.getD key (new.severity, 0, new.observedAt)) new
    if !confirmed epochSeconds streak new then
      -- The confirmed severity stays, with the criterion it was established under.
      { w with
          severityChanges := w.severityChanges.set key (new.severity, streak)
          current := w.current.set key
            { new with severity := old.severity, criticalAt := old.criticalAt } }
    else
      let w := { w with
        severityChanges := w.severityChanges.erase key
        current := w.current.set key new }
      let state : IncidentState :=
        if new.severity = .critical then .escalated else .deescalated
      w.append host new state observedAt

/-- The body of the first loop for a condition that was not active before the sample. -/
def observeInactive (host observedAt : String) (w : Locals) (key : String)
    (new : IncidentCondition) : Locals :=
  if new.belowThreshold then w
  else
    let (candidate, count, since) := w.candidates.getD key (new, 0, new.observedAt)
    let streak := nextStreak (candidate.severity, count, since) new
    if confirmed epochSeconds streak new then
      let w := { w with
        candidates := w.candidates.erase key
        current := w.current.set key new
        openedAt := w.openedAt.set key new.observedAt
        lastObservedAt := w.lastObservedAt.set key new.observedAt }
      w.append host new .opened observedAt
    else { w with candidates := w.candidates.set key (new, streak) }

/-- The body of the first loop: one condition that the policy derived from the sample. -/
def observe (host observedAt : String) (previous : Dict String IncidentCondition)
    (w : Locals) (item : String × IncidentCondition) : Locals :=
  let (key, new) := item
  let w := { w with recoveries := w.recoveries.erase key }
  match previous.get? key with
  | some old => observeActive epochSeconds host observedAt w key old new
  | none => observeInactive epochSeconds host observedAt w key new

/-- Whether a sample is older than the opening of the generation it would speak for. -/
def isDelayed (sampleTime openingTime : Option ℚ) : Bool :=
  match sampleTime, openingTime with
  | some sample, some opening => sample < opening
  | _, _ => false

/-- The body of the second loop for a condition whose opening time was read. -/
def recoverActive (host observedAt : String) (observedDomains : List String) (w : Locals)
    (key : String) (old : IncidentCondition) (openedAt : String) : Locals :=
  if isDelayed (epochSeconds observedAt) (epochSeconds openedAt) then w
  else if telemetryUnknown old.category key observedDomains then w
  else
    let w := { w with severityChanges := w.severityChanges.erase key }
    let recoveryCount := w.recoveries.getD key 0 + 1
    if old.recoveryCycles ≤ recoveryCount then
      let w := { w with
        recoveries := w.recoveries.erase key
        current := w.current.erase key
        openedAt := w.openedAt.erase key
        lastObservedAt := w.lastObservedAt.erase key }
      w.append host old .resolved observedAt
    else { w with recoveries := w.recoveries.set key recoveryCount }

/-- The body of the second loop: one active condition that the sample does not show. -/
def recover (host observedAt : String) (previous : Dict String IncidentCondition)
    (observedDomains : List String) (w : Locals) (key : String) : Except KeyError Locals :=
  match previous.item key, w.openedAt.item key with
  | .ok old, .ok openedAt =>
    .ok (recoverActive epochSeconds host observedAt observedDomains w key old openedAt)
  | .error missing, _ => .error missing
  | .ok _, .error missing => .error missing

/-- The local variables before the first loop. A candidate that the sample does not confirm
and a severity change that it does not show are dropped. -/
def locals (tracker : IncidentTracker) (host : String)
    (observed : Dict String IncidentCondition) : Locals where
  candidates := (rowOf tracker.candidates host).filterKeys
    (observed.filter (fun _ condition => !condition.belowThreshold)).contains
  recoveries := rowOf tracker.recoveries host
  severityChanges := (rowOf tracker.severityChanges host).filterKeys observed.contains
  openedAt := rowOf tracker.openedAt host
  lastObservedAt := rowOf tracker.lastObservedAt host
  current := rowOf tracker.active host
  created := []
  log := tracker.log

/-- Stores the local variables of an update back into the rows of its host. -/
def store (tracker : IncidentTracker) (host : String) (w : Locals) : IncidentTracker where
  active := tracker.active.set host w.current
  candidates := tracker.candidates.set host w.candidates
  recoveries := tracker.recoveries.set host w.recoveries
  severityChanges := tracker.severityChanges.set host w.severityChanges
  openedAt := tracker.openedAt.set host w.openedAt
  lastObservedAt := tracker.lastObservedAt.set host w.lastObservedAt
  log := w.log

/-- Takes one probe result through the tracker and returns the created transitions. -/
def update (policy : IncidentPolicy) (setOrder : SetOrder) (result : ProbeResult)
    (tracker : IncidentTracker) : Except KeyError (List IncidentEvent × IncidentTracker) := do
  let previous := rowOf tracker.active result.host
  let observed := policy.conditions result
  let w := observed.entries.foldl
    (observe epochSeconds result.host result.observedAt previous)
    (tracker.locals result.host observed)
  let missing := setOrder.order (previous.keys.filter (fun key => !observed.contains key))
  let w ←
    if result.status = .online then
      missing.foldlM (recover epochSeconds result.host result.observedAt previous
        (policy.observedDomains result)) w
    else pure w
  return (w.created, tracker.store result.host w)

end

/-- Whether one exact condition is active for the host. -/
def hasActiveCondition (tracker : IncidentTracker) (host key : String) : Bool :=
  (rowOf tracker.active host).contains key

/-- Whether live telemetry is still confirming this condition. -/
def hasPendingCondition (tracker : IncidentTracker) (host key : String) : Bool :=
  (rowOf tracker.candidates host).contains key

/-- The opening time of an active condition. -/
def activeStartedAt (tracker : IncidentTracker) (host key : String) : Option String :=
  if (rowOf tracker.active host).contains key then
    (rowOf tracker.openedAt host).get? key
  else none

end IncidentTracker

end Mocop
