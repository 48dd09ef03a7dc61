import Mocop.Incidents.Lifecycle
import Mocop.Persistence.CacheInvisible

/-!
# `Mocop.Persistence.OpenSet`: the open conditions that the tables hold

An `OpenSet` is what the incident tables are for: the open conditions, each with what a
restart must bring back. A transition acts on its own condition only, and a refreshed
criterion on an open condition only.

`IncidentTables.openState` reads the open conditions back from the tables, and tables that
`Holds` an open set are kept so by every statement of the writer:

- `Holds.writeIncident` and `Holds.writeCriterion`: a write acts on the open set;
- `Holds.pruneIncidents`: a prune at any cutoff leaves the open set;
- `Numbered`: the ids stay consecutive behind the largest one, which no prune deletes.

`Keeps.drain` puts them together: a list of writes, numbered from the next id on, takes the tables
from one open set to another.
-/

set_option autoImplicit false

namespace Mocop

/-- What a restart must bring back of an open condition. -/
structure OpenState where
  severity : IncidentSeverity
  category : String
  criticalAt : Option ℚ
  openedAt : String
  deriving DecidableEq

/-- The open conditions, by host and key. -/
abbrev OpenSet := String → String → Option OpenState

namespace OpenSet

/-- Changes what is known of one condition. -/
def update (set : OpenSet) (host key : String) (f : Option OpenState → Option OpenState) :
    OpenSet := fun host' key' =>
  if host' = host ∧ key' = key then f (set host' key') else set host' key'

/-- What a transition observed at some time does to its condition. -/
def transition (observedAt : String) (before : Option OpenState) (new : Transition) :
    Option OpenState :=
  match new.1 with
  | .opened =>
    some
      { severity := new.2.severity, category := new.2.category
        criticalAt := new.2.criticalAt, openedAt := observedAt }
  | .resolved => none
  | .escalated | .deescalated =>
    before.map (fun state =>
      { state with
        severity := new.2.severity, category := new.2.category
        criticalAt := new.2.criticalAt })

/-- The open set after an event. -/
def applyEvent (set : OpenSet) (event : IncidentEvent) : OpenSet :=
  set.update event.host event.condition.key
    (fun before => transition event.observedAt before (event.state, event.condition))

/-- The open set after a criterion was refreshed. -/
def refresh (host : String) (set : OpenSet) (criterion : String × Option ℚ) : OpenSet :=
  set.update host criterion.1 (Option.map fun state => { state with criticalAt := criterion.2 })

/-- The open set after a write. -/
def apply (set : OpenSet) : Write → OpenSet
  | .incident event => set.applyEvent event
  | .incidentState host events criteria =>
    criteria.foldl (refresh host) (events.foldl applyEvent set)
  | _ => set

/-- A severity change is one of an open condition. -/
def Accepts (set : OpenSet) (event : IncidentEvent) : Prop :=
  event.state = .escalated ∨ event.state = .deescalated →
    (set event.host event.condition.key).isSome = true

/-- Each event is accepted behind the ones before it. -/
def AcceptsAll : OpenSet → List IncidentEvent → Prop
  | _, [] => True
  | set, event :: rest => set.Accepts event ∧ AcceptsAll (set.applyEvent event) rest

end OpenSet

variable {event : IncidentEvent} {nextId : ℕ}

namespace IncidentTables

/-- The open state of a condition as the tables hold it: that of its latest transition,
opened at its latest opening. -/
def openState (tables : IncidentTables) (host key : String) : Option OpenState :=
  match tables.latest host key with
  | some (eventId, row) =>
    if row.state = .resolved then none
    else
      some
        { severity := row.severity
          category := row.category
          criticalAt := (tables.criteria.get? eventId).join
          openedAt :=
            match tables.latestOpened host key with
            | some (_, openedRow) => openedRow.observedAt
            | none => row.observedAt }
  | none => none

/-- Writes the incident part of an item. -/
def write (tables : IncidentTables) : Write → IncidentTables
  | .incident event => tables.writeIncident event
  | .incidentState host events criteria =>
    (events.foldl (fun tables event => tables.writeIncident event) tables).writeCriteria
      host criteria
  | _ => tables

/-- The tables hold an open set, and every open condition has its opening. -/
structure Holds (tables : IncidentTables) (set : OpenSet) : Prop where
  openState_eq : ∀ host key, tables.openState host key = set host key
  opened : ∀ host key eventId row, tables.latest host key = some (eventId, row) →
    row.state ≠ .resolved → (tables.latestOpened host key).isSome = true

/-- The stored rows are restorable, below the next id, and the id before the next one is
stored. -/
structure Numbered (tables : IncidentTables) (nextId : ℕ) : Prop where
  one_le : 1 ≤ nextId
  stored : ∀ id row, tables.events.get? id = some row →
    1 ≤ id ∧ id < nextId ∧ row.isStorable = true
  last : nextId = 1 ∨ ∃ row, tables.events.get? (nextId - 1) = some row

variable {tables : IncidentTables} {set : OpenSet}

/-- The open state of a condition with a known latest transition. -/
theorem openState_of_latest {host key : String} {eventId : ℕ} {row : IncidentRow}
    (h : tables.latest host key = some (eventId, row)) (hopen : row.state ≠ .resolved) :
    tables.openState host key = some
      { severity := row.severity
        category := row.category
        criticalAt := (tables.criteria.get? eventId).join
        openedAt :=
          match tables.latestOpened host key with
          | some (_, openedRow) => openedRow.observedAt
          | none => row.observedAt } := by
  rw [openState, h]
  exact if_neg hopen

/-- A condition with an open state has a latest transition that is not a resolution. -/
theorem exists_latest_of_openState {host key : String} {state : OpenState}
    (h : tables.openState host key = some state) :
    ∃ eventId row, tables.latest host key = some (eventId, row) ∧ row.state ≠ .resolved := by
  unfold openState at h
  split at h
  · next eventId row hlatest =>
    split at h
    · exact absurd h (by simp)
    · next hopen => exact ⟨eventId, row, hlatest, hopen⟩
  · exact absurd h (by simp)

/-! ### One statement -/

/-- An event under a fresh id is the latest opening of its condition if it is an opening, and
changes no other latest opening. -/
theorem latestOpened_writeIncident
    (hfresh : ∀ id row, tables.events.get? id = some row → id < event.eventId) (host key : String) :
    (tables.writeIncident event).latestOpened host key =
      if (event.host = host ∧ event.condition.key = key) ∧ event.state = .opened then
        some (event.eventId, event.row)
      else tables.latestOpened host key := by
  have habout : event.row.isAbout host key
      = decide (event.host = host ∧ event.condition.key = key) := rfl
  have hstate : event.row.state = event.state := rfl
  unfold latestOpened writeIncident
  split
  · next hsame =>
    exact Dict.lastWhere_set_of_pos (fun id row hget _ => hfresh id row hget)
      (by simpa [habout, hstate] using hsame)
  · next hother =>
    refine Dict.lastWhere_set_of_neg (fun found hlast => ?_)
      (by simpa [habout, hstate] using hother)
    have hlt := hfresh _ _ (Dict.lastWhere_spec hlast).1
    omega

/-- Refreshing a criterion changes no opening. -/
@[simp] theorem latestOpened_writeCriterion (host : String) (criterion : String × Option ℚ)
    (host' key' : String) :
    (tables.writeCriterion host criterion).latestOpened host' key'
      = tables.latestOpened host' key' := by
  rw [latestOpened, events_writeCriterion, latestOpened]

/-- The insertion of an accepted event under a fresh id acts on the open set. -/
theorem Holds.writeIncident (h : tables.Holds set)
    (hfresh : ∀ id row, tables.events.get? id = some row → id < event.eventId)
    (haccepts : set.Accepts event) :
    (tables.writeIncident event).Holds (set.applyEvent event) := by
  have hlands : tables.Lands event := lands_of_lt hfresh
  have hcriteria : ∀ host key found, tables.latest host key = some found →
      (tables.writeIncident event).criteria.get? found.1 = tables.criteria.get? found.1 :=
    fun host key found hlatest => by
      rw [IncidentTables.writeIncident, Dict.get?_set, if_neg (hlands.ne hlatest)]
  -- Another condition keeps its latest transition, its opening and its criterion.
  have hother : ∀ host key, ¬ (event.host = host ∧ event.condition.key = key) →
      (tables.writeIncident event).openState host key = tables.openState host key := by
    intro host key hne
    unfold openState
    rw [latest_writeIncident hlands, if_neg hne, latestOpened_writeIncident hfresh,
      if_neg (fun hsame => hne hsame.1)]
    cases hlatest : tables.latest host key with
    | none => rfl
    | some found =>
      obtain ⟨eventId, row⟩ := found
      simp only [hcriteria host key _ hlatest]
  have hown : (tables.writeIncident event).latest event.host event.condition.key
      = some (event.eventId, event.row) := by
    rw [latest_writeIncident hlands, if_pos ⟨rfl, rfl⟩]
  have hcriterion : (tables.writeIncident event).criteria.get? event.eventId
      = some event.condition.criticalAt := by
    rw [IncidentTables.writeIncident, Dict.get?_set, if_pos rfl]
  have hrow : event.row.state = event.state := rfl
  -- A severity change finds the opening of its condition.
  have hopening : event.state ≠ .opened → event.state ≠ .resolved →
      ∃ opening state, tables.latestOpened event.host event.condition.key = some opening
        ∧ set event.host event.condition.key = some state
        ∧ state.openedAt = opening.2.observedAt := by
    intro hopened hresolved
    have hchange : event.state = .escalated ∨ event.state = .deescalated := by
      cases hstate : event.state <;> simp_all
    obtain ⟨state, hstate⟩ := Option.isSome_iff_exists.mp (haccepts hchange)
    have hread := (h.openState_eq event.host event.condition.key).trans hstate
    obtain ⟨eventId, row, hlatest, hopen⟩ := exists_latest_of_openState hread
    obtain ⟨opening, hopening⟩ :=
      Option.isSome_iff_exists.mp (h.opened _ _ _ _ hlatest hopen)
    rw [openState_of_latest hlatest hopen, hopening, Option.some.injEq] at hread
    exact ⟨opening, state, hopening, hstate, by rw [← hread]⟩
  refine ⟨fun host key => ?_, fun host key eventId row hlatest hopen => ?_⟩
  · by_cases hsame : event.host = host ∧ event.condition.key = key
    · obtain ⟨rfl, rfl⟩ := hsame
      have happly : set.applyEvent event event.host event.condition.key
          = OpenSet.transition event.observedAt (set event.host event.condition.key)
            (event.state, event.condition) := by
        rw [OpenSet.applyEvent, OpenSet.update, if_pos ⟨rfl, rfl⟩]
      rw [happly]
      by_cases hresolved : event.state = .resolved
      · rw [openState, hown]
        simp [hrow, hresolved, OpenSet.transition]
      · rw [openState_of_latest hown (by rwa [hrow]), hcriterion,
          latestOpened_writeIncident hfresh]
        by_cases hopened : event.state = .opened
        · rw [if_pos ⟨⟨rfl, rfl⟩, hopened⟩, hopened]
          rfl
        · obtain ⟨opening, state, hlast, hstate, hopenedAt⟩ := hopening hopened hresolved
          rw [if_neg (fun hpair => hopened hpair.2), hlast, hstate]
          cases hkind : event.state with
          | opened => exact absurd hkind hopened
          | resolved => exact absurd hkind hresolved
          | escalated => simp [OpenSet.transition, hopenedAt, IncidentEvent.row]
          | deescalated => simp [OpenSet.transition, hopenedAt, IncidentEvent.row]
    · have hne : ¬ (host = event.host ∧ key = event.condition.key) :=
        fun hpair => hsame ⟨hpair.1.symm, hpair.2.symm⟩
      rw [hother host key hsame, h.openState_eq, OpenSet.applyEvent, OpenSet.update, if_neg hne]
  · rw [latestOpened_writeIncident hfresh]
    split
    · rfl
    · next hnot =>
      rw [latest_writeIncident hlands] at hlatest
      split at hlatest
      · next hsame =>
        obtain ⟨rfl, rfl⟩ := hsame
        simp only [Option.some.injEq, Prod.mk.injEq] at hlatest
        rw [← hlatest.2, hrow] at hopen
        obtain ⟨opening, _, hlast, -⟩ :=
          hopening (fun hopened => hnot ⟨⟨rfl, rfl⟩, hopened⟩) hopen
        rw [hlast]
        rfl
      · exact h.opened host key eventId row hlatest hopen

/-- The refresh of a criterion acts on the open set. -/
theorem Holds.writeCriterion (h : tables.Holds set) (host : String)
    (criterion : String × Option ℚ) :
    (tables.writeCriterion host criterion).Holds (set.refresh host criterion) := by
  refine ⟨fun host' key' => ?_, fun host' key' eventId row hlatest hopen => ?_⟩
  · cases hhydrate : hydrate tables (host, criterion.1) with
    | none =>
      have hnone : tables.openState host criterion.1 = none := by
        cases hstate : tables.openState host criterion.1 with
        | none => rfl
        | some state =>
          obtain ⟨eventId, row, hlatest, hopen⟩ := exists_latest_of_openState hstate
          rw [hydrate, hlatest] at hhydrate
          exact absurd (hhydrate.symm.trans (if_neg hopen)) (by simp)
      rw [writeCriterion_of_hydrate_none hhydrate, h.openState_eq, OpenSet.refresh,
        OpenSet.update]
      split
      · next hsame =>
        rw [h.openState_eq] at hnone
        rw [hsame.1, hsame.2, hnone]
        rfl
      · rfl
    | some stored =>
      obtain ⟨eventId, row, hlatest, hopen, -⟩ := hydrate_eq_some hhydrate
      rw [OpenSet.refresh, OpenSet.update]
      split
      · next hsame =>
        obtain ⟨rfl, rfl⟩ := hsame
        have hlatest' := (@latest_writeCriterion tables host' criterion
          host' criterion.1).trans hlatest
        rw [openState_of_latest hlatest' hopen, ← h.openState_eq,
          openState_of_latest hlatest hopen, latestOpened_writeCriterion,
          writeCriterion_of_open hlatest hopen]
        simp
      · next hne =>
        rw [← h.openState_eq]
        unfold openState
        rw [latest_writeCriterion, latestOpened_writeCriterion]
        cases hlatest' : tables.latest host' key' with
        | none => rfl
        | some found =>
          have hid : found.1 ≠ eventId :=
            @latest_id_ne tables (host', key') (host, criterion.1) _ _ _ _ hlatest' hlatest
              (fun heq => hne (Prod.mk.injEq _ _ _ _ ▸ heq))
          obtain ⟨eventId', row'⟩ := found
          rw [writeCriterion_of_open hlatest hopen]
          simp only [Dict.get?_set, if_neg hid]
  · rw [latest_writeCriterion] at hlatest
    rw [latestOpened_writeCriterion]
    exact h.opened host' key' eventId row hlatest hopen

/-- A prune at any cutoff leaves the open set. -/
theorem Holds.pruneIncidents (h : tables.Holds set) (cutoff : String) (companions : Bool) :
    (tables.pruneIncidents cutoff companions).Holds set := by
  have hlatest := @latest_pruneIncidents tables cutoff companions
  -- The opening of an open condition is protected.
  have hopened : ∀ host key eventId row, tables.latest host key = some (eventId, row) →
      row.state ≠ .resolved →
      (tables.pruneIncidents cutoff companions).latestOpened host key
        = tables.latestOpened host key := by
    intro host key eventId row hlast hopen
    unfold latestOpened IncidentTables.pruneIncidents
    dsimp only
    refine Dict.lastWhere_filter fun openedId openedRow hopening => ?_
    have habout : openedRow.host = host ∧ openedRow.conditionKey = key := by
      have hp := (Dict.lastWhere_spec hopening).2.1
      simp only [IncidentRow.isAbout, Bool.and_eq_true, decide_eq_true_eq] at hp
      exact hp.1
    have hprotected : tables.isProtected openedId openedRow = true := by
      rw [isProtected, habout.1, habout.2, hlast]
      simp only [decide_eq_true_eq]
      refine Or.inr ⟨hopen, ?_⟩
      rw [latestOpened, hopening, Option.map_some]
    rw [hprotected, Bool.not_true, Bool.and_false, Bool.not_false]
  refine ⟨fun host key => ?_, fun host key eventId row hlast hopen => ?_⟩
  · rw [← h.openState_eq]
    cases hlast : tables.latest host key with
    | none => rw [openState, openState, hlatest, hlast]
    | some found =>
      obtain ⟨eventId, row⟩ := found
      by_cases hopen : row.state = .resolved
      · rw [openState, openState, hlatest, hlast]
        simp [hopen]
      · have hkept : (tables.pruneIncidents cutoff companions).events.get? eventId
            = some row := (Dict.lastWhere_spec ((hlatest host key).trans hlast)).1
        rw [openState_of_latest ((hlatest host key).trans hlast) hopen,
          openState_of_latest hlast hopen, hopened host key _ _ hlast hopen]
        simp only [IncidentTables.pruneIncidents] at hkept ⊢
        split
        · rw [Dict.get?_filterKeys, Dict.contains_eq, hkept, Option.isSome_some, if_pos rfl]
        · rfl
  · rw [hlatest] at hlast
    rw [hopened host key _ _ hlast hopen]
    exact h.opened host key _ _ hlast hopen

/-! ### The ids -/

/-- The tables of a new database. -/
theorem numbered_empty : Numbered ⟨∅, ∅⟩ 1 :=
  ⟨le_rfl, fun _ _ hget => absurd hget (by simp), Or.inl rfl⟩

/-- The tables of a new database hold no open condition. -/
theorem holds_empty : Holds ⟨∅, ∅⟩ (fun _ _ => none) :=
  ⟨fun _ _ => rfl, fun _ _ _ _ hlatest => absurd (Dict.lastWhere_spec hlatest).1 (by simp)⟩

/-- The insertion of a restorable event takes the next id. -/
theorem Numbered.writeIncident (h : tables.Numbered event.eventId)
    (hstorable : event.row.isStorable = true) :
    (tables.writeIncident event).Numbered (event.eventId + 1) where
  one_le := by omega
  stored := fun id row hget => by
    rw [IncidentTables.writeIncident, Dict.get?_set] at hget
    split at hget
    · next heq =>
      have hone := h.one_le
      rw [← Option.some.inj hget]
      exact ⟨by omega, by omega, hstorable⟩
    · obtain ⟨hone, hlt, hrow⟩ := h.stored id row hget
      exact ⟨hone, by omega, hrow⟩
  last := Or.inr ⟨event.row, by simp [IncidentTables.writeIncident]⟩

/-- Only the transitions are numbered. -/
theorem Numbered.congr {other : IncidentTables} (h : tables.Numbered nextId)
    (hevents : other.events = tables.events) : other.Numbered nextId := by
  obtain ⟨hone, hstored, hlast⟩ := h
  exact ⟨hone, by rwa [hevents], by rwa [hevents]⟩

/-- A prune keeps the largest id: its row is the latest transition of its condition. -/
theorem Numbered.pruneIncidents (h : tables.Numbered nextId) (cutoff : String) (companions : Bool) :
    (tables.pruneIncidents cutoff companions).Numbered nextId where
  one_le := h.one_le
  stored := fun id row hget => by
    have hsub := (@thins_pruneIncidents tables cutoff companions).sub id row hget
    exact h.stored id row hsub
  last := by
    rcases h.last with hone | ⟨row, hrow⟩
    · exact Or.inl hone
    · refine Or.inr ⟨row, ?_⟩
      have hlatest : tables.latest row.host row.conditionKey = some (nextId - 1, row) :=
        Dict.lastWhere_eq_some hrow (by simp [IncidentRow.isAbout]) fun id other hget _ => by
          have hlt := (h.stored id other hget).2.1
          omega
      have hkept := (latest_pruneIncidents cutoff companions row.host row.conditionKey).trans
        hlatest
      exact (Dict.lastWhere_spec hkept).1

/-! ### Draining writes -/

end IncidentTables

/-- An item that the tables take from one open set on: its events are numbered from the next
id on, restorable and accepted. -/
structure Write.Fits (item : Write) (set : OpenSet) (nextId : ℕ) : Prop where
  eventIds : item.events.map (·.eventId) = List.range' nextId item.events.length
  storable : ∀ event ∈ item.events, event.row.isStorable = true
  accepts : set.AcceptsAll item.events

/-- The items lead from one open set and next id to another. -/
def Drains : OpenSet → ℕ → List Write → OpenSet → ℕ → Prop
  | set, nextId, [], final, lastId => set = final ∧ nextId = lastId
  | set, nextId, item :: rest, final, lastId =>
    item.Fits set nextId
    ∧ Drains (set.apply item) (nextId + item.events.length) rest final lastId

/-- Items in two groups. -/
theorem drains_append {set final : OpenSet} {nextId lastId : ℕ} {items more : List Write} :
    Drains set nextId (items ++ more) final lastId ↔
      ∃ middle middleId, Drains set nextId items middle middleId
        ∧ Drains middle middleId more final lastId := by
  induction items generalizing set nextId with
  | nil =>
    refine ⟨fun h => ⟨set, nextId, ⟨rfl, rfl⟩, h⟩, ?_⟩
    rintro ⟨_, _, ⟨rfl, rfl⟩, h⟩
    exact h
  | cons item rest ih =>
    simp only [List.cons_append, Drains, ih]
    constructor
    · rintro ⟨hfits, middle, middleId, hrest, hmore⟩
      exact ⟨middle, middleId, ⟨hfits, hrest⟩, hmore⟩
    · rintro ⟨middle, middleId, ⟨hfits, hrest⟩, hmore⟩
      exact ⟨hfits, middle, middleId, hrest, hmore⟩

namespace IncidentTables

variable {tables : IncidentTables} {set : OpenSet}

/-- The tables hold the open set under consecutive ids. -/
structure Keeps (tables : IncidentTables) (set : OpenSet) (nextId : ℕ) : Prop where
  holds : tables.Holds set
  numbered : tables.Numbered nextId

/-- An accepted event with the next id is kept. -/
theorem Keeps.writeIncident (h : tables.Keeps set event.eventId)
    (hstorable : event.row.isStorable = true) (haccepts : set.Accepts event) :
    (tables.writeIncident event).Keeps (set.applyEvent event) (event.eventId + 1) :=
  ⟨h.holds.writeIncident (fun id row hget => (h.numbered.stored id row hget).2.1) haccepts,
    h.numbered.writeIncident hstorable⟩

/-- Accepted events under consecutive ids are kept, and they land. -/
theorem Keeps.writeEvents (h : tables.Keeps set nextId) {events : List IncidentEvent}
    (hids : events.map (·.eventId) = List.range' nextId events.length)
    (hstorable : ∀ event ∈ events, event.row.isStorable = true) (haccepts : set.AcceptsAll events) :
    (events.foldl (fun tables event => tables.writeIncident event) tables).Keeps
        (events.foldl OpenSet.applyEvent set) (nextId + events.length)
      ∧ tables.LandAll events := by
  induction events generalizing tables set nextId with
  | nil => exact ⟨h, trivial⟩
  | cons event rest ih =>
    rw [List.map_cons, List.length_cons, List.range'_succ, List.cons.injEq] at hids
    obtain ⟨hid, hrest⟩ := hids
    subst hid
    have hkeeps := h.writeIncident (hstorable event List.mem_cons_self) haccepts.1
    obtain ⟨hfinal, hland⟩ := ih hkeeps hrest
      (fun other hother => hstorable other (List.mem_cons_of_mem _ hother)) haccepts.2
    have hlands : tables.Lands event :=
      lands_of_lt fun id row hget => (h.numbered.stored id row hget).2.1
    rw [List.length_cons, show event.eventId + (rest.length + 1)
      = event.eventId + 1 + rest.length by omega]
    exact ⟨hfinal, hlands, hland⟩

/-- Refreshed criteria are kept. -/
theorem Keeps.writeCriteria (h : tables.Keeps set nextId) (host : String)
    (criteria : List (String × Option ℚ)) :
    (tables.writeCriteria host criteria).Keeps (criteria.foldl (OpenSet.refresh host) set)
      nextId := by
  refine ⟨?_, h.numbered.congr (events_writeCriteria host criteria)⟩
  have hholds := h.holds
  clear h
  unfold IncidentTables.writeCriteria
  induction criteria generalizing tables set with
  | nil => exact hholds
  | cons criterion rest ih => exact ih (hholds.writeCriterion host criterion)

/-- A fitting item is kept, and its events land. -/
theorem Keeps.write (h : tables.Keeps set nextId) {item : Write} (hfits : item.Fits set nextId) :
    (tables.write item).Keeps (set.apply item) (nextId + item.events.length)
      ∧ tables.LandAll item.events := by
  have hevents := h.writeEvents hfits.eventIds hfits.storable hfits.accepts
  cases item with
  | history host => exact ⟨h, trivial⟩
  | gpuTelemetry host points => exact ⟨h, trivial⟩
  | incident event => exact hevents
  | incidentState host events criteria =>
    exact ⟨hevents.1.writeCriteria host criteria, hevents.2⟩

/-- A prune keeps the open set under its ids. -/
theorem Keeps.pruneIncidents (h : tables.Keeps set nextId) (cutoff : String) (companions : Bool) :
    (tables.pruneIncidents cutoff companions).Keeps set nextId :=
  ⟨h.holds.pruneIncidents cutoff companions, h.numbered.pruneIncidents cutoff companions⟩

/-- Draining items takes the tables from one open set to another, and every event lands. -/
theorem Keeps.drain {nextId lastId : ℕ} {final : OpenSet} {items : List Write}
    (h : tables.Keeps set nextId) (hdrains : Drains set nextId items final lastId) :
    (items.foldl IncidentTables.write tables).Keeps final lastId
      ∧ tables.LandAll (items.flatMap Write.events) := by
  induction items generalizing tables set nextId with
  | nil =>
    obtain ⟨rfl, rfl⟩ := hdrains
    exact ⟨h, trivial⟩
  | cons item rest ih =>
    obtain ⟨hkeeps, hland⟩ := h.write hdrains.1
    obtain ⟨hfinal, hrest⟩ := ih hkeeps hdrains.2
    refine ⟨hfinal, ?_⟩
    rw [List.flatMap_cons]
    refine landAll_append.mpr ⟨hland, ?_⟩
    -- The criteria that the item refreshes matter to no landing.
    cases item with
    | history host => exact hrest
    | gpuTelemetry host points => exact hrest
    | incident event => exact hrest
    | incidentState host events criteria =>
      refine Thins.landAll ⟨fun id row hget => ?_, fun host' key' => ?_⟩ hrest
      · rwa [IncidentTables.write, events_writeCriteria]
      · rw [IncidentTables.write, latest, latest, events_writeCriteria]
        rfl

end IncidentTables

end Mocop
