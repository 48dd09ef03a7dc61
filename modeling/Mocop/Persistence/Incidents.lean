import Mocop.Incidents.Types
import Mocop.Lib.Table

/-!
# `Mocop.Persistence.Incidents`: the incident tables

`incident_events` holds the retained transitions under their event ids, and
`incident_criteria` the critical line under which the latest transition of an open
condition is held. The definitions are the statements of the writer: the insertion of a
transition, the refresh of the criteria, and the retention that never deletes what a
restart needs.

`latest_writeIncident` and `latest_pruneIncidents` say what the latest transition of a
condition is after an insertion and after a prune. The rest of the persistence is proved
through them.
-/

set_option autoImplicit false

namespace Mocop

/-- A row of `incident_events`, without its id. -/
structure IncidentRow where
  host : String
  conditionKey : String
  category : String
  resource : String
  severity : IncidentSeverity
  value : Option ℚ
  threshold : Option ℚ
  conditionObservedAt : String
  detail : Option String
  groupKey : Option String
  state : IncidentState
  observedAt : String
  deriving DecidableEq

/-- The row written for an event. -/
def IncidentEvent.row (event : IncidentEvent) : IncidentRow where
  host := event.host
  conditionKey := event.condition.key
  category := event.condition.category
  resource := event.condition.resource
  severity := event.condition.severity
  value := event.condition.value
  threshold := event.condition.threshold
  conditionObservedAt := event.condition.observedAt
  detail := event.condition.detail
  groupKey := event.condition.groupKey
  state := event.state
  observedAt := event.observedAt

/-- Whether a row is about one condition of one host. -/
def IncidentRow.isAbout (row : IncidentRow) (host key : String) : Bool :=
  row.host = host ∧ row.conditionKey = key

/-- The tables `incident_events` and `incident_criteria`, by event id. -/
structure IncidentTables where
  events : Dict ℕ IncidentRow
  criteria : Dict ℕ (Option ℚ)
  deriving DecidableEq

namespace IncidentTables

variable (tables : IncidentTables)

/-- The latest transition of a condition, by event id. -/
def latest (host key : String) : Option (ℕ × IncidentRow) :=
  tables.events.lastWhere (fun row => row.isAbout host key)

/-- The latest opening of a condition, by event id. -/
def latestOpened (host key : String) : Option (ℕ × IncidentRow) :=
  tables.events.lastWhere (fun row => row.isAbout host key && row.state = .opened)

/-- Inserts or replaces a transition and its criterion. -/
def writeIncident (event : IncidentEvent) : IncidentTables where
  events := tables.events.set event.eventId event.row
  criteria := tables.criteria.set event.eventId event.condition.criticalAt

/-- Refreshes the criterion of one condition: that of its latest transition, unless it is a
resolution. -/
def writeCriterion (host : String) (criterion : String × Option ℚ) : IncidentTables :=
  match tables.latest host criterion.1 with
  | some (eventId, row) =>
    if row.state ≠ .resolved then
      { tables with criteria := tables.criteria.set eventId criterion.2 }
    else tables
  | none => tables

/-- Refreshes the criteria of one host. -/
def writeCriteria (host : String) (criteria : List (String × Option ℚ)) : IncidentTables :=
  criteria.foldl (fun tables criterion => tables.writeCriterion host criterion) tables

/-- The event ids that retention never deletes: the latest transition of every condition,
and the latest opening of every open condition. -/
def isProtected (eventId : ℕ) (row : IncidentRow) : Bool :=
  match tables.latest row.host row.conditionKey with
  | some (latestId, latestRow) =>
    eventId = latestId ∨ (latestRow.state ≠ .resolved
      ∧ (tables.latestOpened row.host row.conditionKey).map Prod.fst = some eventId)
  | none => false

/-- Deletes the transitions older than the cutoff that are not protected, and with the
companion tables enabled the criteria without a transition. -/
def pruneIncidents (cutoff : String) (companions : Bool) : IncidentTables :=
  let events := tables.events.filter
    (fun eventId row => !(row.observedAt < cutoff && !tables.isProtected eventId row))
  { events
    criteria := if companions then tables.criteria.filterKeys events.contains
      else tables.criteria }

/-! ### Decoding -/

end IncidentTables

/-- The critical line of an event without a criterion, from its category and threshold. -/
def legacyCriticalAt (category : String) (severity : IncidentSeverity)
    (threshold : Option ℚ) : Option ℚ :=
  if severity ≠ .critical then none
  else if category ∈ ["cpu", "memory", "disk", "gpu_memory"] then some 95
  else if category = "swap" then some 90
  else
    match threshold with
    | some threshold =>
      if category = "pressure" then some (min 100 (threshold * 2))
      else if category = "gpu_temperature" then some (threshold + 5)
      else none
    | none => none

/-- A stored text within its bounds. -/
def isStorableText (text : String) : Bool := 0 < text.length ∧ text.length ≤ 512

/-- Whether the stored fields of a row are within their bounds. -/
def IncidentRow.isStorable (row : IncidentRow) : Bool :=
  isStorableText row.host && isStorableText row.conditionKey && isStorableText row.category
    && isStorableText row.resource && isStorableText row.conditionObservedAt
    && isStorableText row.observedAt
    && row.detail.all (fun detail => decide (detail.length ≤ 4096))
    && row.groupKey.all (fun groupKey => decide (groupKey.length ≤ 512))

/-- Decodes a stored transition with its criterion, where the row is within its bounds. -/
def eventFromRow (eventId : ℕ) (row : IncidentRow) (criticalAt : Option ℚ) :
    Option IncidentEvent :=
  if eventId < 1 ∨ row.isStorable = false then none
  else
    some
      { eventId
        host := row.host
        condition :=
          { key := row.conditionKey
            category := row.category
            resource := row.resource
            severity := row.severity
            value := row.value
            threshold := row.threshold
            observedAt := row.conditionObservedAt
            detail := row.detail
            groupKey := row.groupKey
            criticalAt :=
              match criticalAt with
              | some criticalAt => some criticalAt
              | none => legacyCriticalAt row.category row.severity row.threshold }
        state := row.state
        observedAt := row.observedAt }

namespace IncidentTables

/-! ### What the statements do to the latest transition -/

variable {tables : IncidentTables}

/-- The latest transition of a condition is about the condition. -/
theorem isAbout_of_latest {host key : String} {eventId : ℕ} {row : IncidentRow}
    (h : tables.latest host key = some (eventId, row)) :
    row.host = host ∧ row.conditionKey = key := by
  have hp := (Dict.lastWhere_spec h).2.1
  simpa [IncidentRow.isAbout] using hp

/-- Writing the event makes it the latest transition of its condition, and changes the
latest one of no other condition: its id is above the stored ids of its condition, and not
the id of another condition's latest transition. -/
def Lands (tables : IncidentTables) (event : IncidentEvent) : Prop :=
  ∀ stored ∈ tables.events.entries,
    (stored.2.isAbout event.host event.condition.key = true → stored.1 < event.eventId)
    ∧ (tables.latest stored.2.host stored.2.conditionKey).map Prod.fst ≠ some event.eventId

instance (tables : IncidentTables) (event : IncidentEvent) :
    Decidable (tables.Lands event) :=
  inferInstanceAs (Decidable (∀ stored ∈ tables.events.entries, _ ∧ _))

variable {event : IncidentEvent}

/-- The latest transition of any condition is not stored under the id of an event that
lands. -/
theorem Lands.ne (h : tables.Lands event) {host key : String} {found : ℕ × IncidentRow}
    (hlatest : tables.latest host key = some found) :
    found.1 ≠ event.eventId := by
  intro heq
  obtain ⟨rfl, rfl⟩ := isAbout_of_latest hlatest
  have hstored := (Dict.get?_eq_some_iff _ _ _).mp (Dict.lastWhere_spec hlatest).1
  refine (h _ hstored).2 ?_
  rw [hlatest, Option.map_some, heq]

/-- An event above every stored id lands. -/
theorem lands_of_lt (h : ∀ id row, tables.events.get? id = some row → id < event.eventId) :
    tables.Lands event := by
  intro stored hstored
  refine ⟨fun _ => h _ _ ((Dict.get?_eq_some_iff _ _ _).mpr hstored), fun heq => ?_⟩
  obtain ⟨found, hlatest, hid⟩ := Option.map_eq_some_iff.mp heq
  have hlt := h _ _ (Dict.lastWhere_spec hlatest).1
  omega

/-- An event that lands is the latest transition of its condition and of no other. -/
theorem latest_writeIncident (hlands : tables.Lands event) (host key : String) :
    (tables.writeIncident event).latest host key =
      if event.host = host ∧ event.condition.key = key then some (event.eventId, event.row)
      else tables.latest host key := by
  have habout : event.row.isAbout host key
      = decide (event.host = host ∧ event.condition.key = key) := rfl
  unfold latest writeIncident
  split
  · next hsame =>
    obtain ⟨rfl, rfl⟩ := hsame
    refine Dict.lastWhere_set_of_pos (fun id row hget habout' => ?_) (by simp [habout])
    exact (hlands _ ((Dict.get?_eq_some_iff _ _ _).mp hget)).1 habout'
  · next hother =>
    exact Dict.lastWhere_set_of_neg (fun found hlatest => hlands.ne hlatest)
      (by simpa [habout] using hother)

/-- Refreshing a criterion changes no transition. -/
@[simp] theorem events_writeCriterion (host : String) (criterion : String × Option ℚ) :
    (tables.writeCriterion host criterion).events = tables.events := by
  unfold writeCriterion
  split
  · split <;> rfl
  · rfl

/-- Refreshing criteria changes no transition. -/
@[simp] theorem events_writeCriteria (host : String) (criteria : List (String × Option ℚ)) :
    (tables.writeCriteria host criteria).events = tables.events := by
  unfold writeCriteria
  induction criteria generalizing tables with
  | nil => rfl
  | cons criterion rest ih =>
    rw [List.foldl_cons, ih, events_writeCriterion]

@[simp] theorem latest_writeCriterion (host : String) (criterion : String × Option ℚ)
    (host' key' : String) :
    (tables.writeCriterion host criterion).latest host' key' = tables.latest host' key' := by
  rw [latest, events_writeCriterion, latest]

/-- The latest transition of a condition is protected. -/
theorem isProtected_of_latest {host key : String} {eventId : ℕ} {row : IncidentRow}
    (h : tables.latest host key = some (eventId, row)) :
    tables.isProtected eventId row = true := by
  obtain ⟨rfl, rfl⟩ := isAbout_of_latest h
  simp [isProtected, h]

/-- A prune keeps the latest transition of every condition. -/
theorem latest_pruneIncidents (cutoff : String) (companions : Bool) (host key : String) :
    (tables.pruneIncidents cutoff companions).latest host key = tables.latest host key := by
  unfold latest pruneIncidents
  dsimp only
  refine Dict.lastWhere_filter fun eventId row h => ?_
  rw [isProtected_of_latest h, Bool.not_true, Bool.and_false, Bool.not_false]

end IncidentTables

end Mocop
