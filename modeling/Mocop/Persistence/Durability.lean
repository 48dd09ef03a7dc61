import Mocop.Incidents.Policy
import Mocop.Incidents.Replay
import Mocop.Persistence.Restore

/-!
# `Mocop.Persistence.Durability`: a restart restores the open incidents

`IncidentStore` is the tracker with the history behind it: the queue of writes that are not
committed yet, the backend and the database. Its steps are a sample, a write of another kind,
the commit of a prefix of the queue, a prune at any cutoff, and a restart with an empty
queue.

The tracker's open set changes under a sample exactly as the tables do under the write that
the sample queues (`update_fits`). So at every time, draining the queue takes the open set of
the tables to the one of the tracker (`Durable`, `Durable.step`). With an empty queue the two
are the same: `run_restores`.
-/

set_option autoImplicit false

namespace Mocop

/-! ### One condition -/

/-- What a restart must bring back of a condition. -/
def Lifecycle.openState : Lifecycle → Option OpenState
  | .inactive _ => none
  | .active condition openedAt _ _ _ =>
    some
      { severity := condition.severity, category := condition.category
        criticalAt := condition.criticalAt, openedAt }

/-- What holds of every active condition: its category is the head of its key, a numeric one
has a critical line, and its texts are within their bounds. -/
structure IncidentCondition.Lawful (condition : IncidentCondition) (key : String) : Prop where
  category_eq : condition.category = partitionHead key
  criticalAt_isSome : condition.category ∈ numericCategories → condition.criticalAt.isSome = true
  storable : condition.isStorable = true

/-- An open state under the critical line of the condition that is active. -/
def refreshed (condition : Option IncidentCondition) (state : Option OpenState) :
    Option OpenState :=
  match condition with
  | some condition => state.map (fun state => { state with criticalAt := condition.criticalAt })
  | none => state

section
variable (epochSeconds : String → Option ℚ)

/-- The transition of a step changes the severity of an open condition only, and with the
refreshed line it does to the open state what the step does to the condition. -/
theorem step_openState (l : Lifecycle) (reading : Reading)
    (hnew : ∀ new, reading.observed = some new → new.observedAt = reading.observedAt
      ∧ new.category = partitionHead reading.key)
    (hold : ∀ old, l.condition = some old → old.category = partitionHead reading.key) :
    (∀ transition, (l.step epochSeconds reading).2 = some transition →
        transition.1 = .escalated ∨ transition.1 = .deescalated → l.openState.isSome = true)
      ∧ refreshed (l.step epochSeconds reading).1.condition
          ((l.step epochSeconds reading).2.toList.foldl
            (OpenSet.transition reading.observedAt) l.openState)
        = (l.step epochSeconds reading).1.openState := by
  cases l with
  | inactive candidate =>
    cases hobs : reading.observed with
    | none => simp [Lifecycle.step, hobs, Lifecycle.openState, refreshed, Lifecycle.condition]
    | some new =>
      obtain ⟨hseen, -⟩ := hnew new hobs
      simp only [Lifecycle.step, hobs, Lifecycle.seenInactive]
      split
      · simp [Lifecycle.openState, refreshed, Lifecycle.condition]
      · split <;> simp [Lifecycle.openState, refreshed, Lifecycle.condition,
          OpenSet.transition, hseen]
  | active old openedAt lastObservedAt recovery change =>
    have hcategory := hold old rfl
    cases hobs : reading.observed with
    | none =>
      simp only [Lifecycle.step, hobs, Lifecycle.unseenActive]
      split
      · split <;> simp [Lifecycle.openState, refreshed, Lifecycle.condition,
          OpenSet.transition]
      · simp [Lifecycle.openState, refreshed, Lifecycle.condition]
    | some new =>
      refine ⟨fun _ _ _ => rfl, ?_⟩
      obtain ⟨-, hsame⟩ := hnew new hobs
      have hheld : (if IncidentTracker.holdsSeverity new old then
          { new with severity := old.severity } else new).category = old.category := by
        rw [hcategory, ← hsame]
        split <;> rfl
      simp only [Lifecycle.step, hobs, Lifecycle.seenActive]
      generalize (if IncidentTracker.holdsSeverity new old then
        { new with severity := old.severity } else new) = held at hheld ⊢
      split
      · next hseverity =>
        simp [Lifecycle.openState, refreshed, Lifecycle.condition, hheld, hseverity]
      · split
        · -- An escalation and a de-escalation do the same to the open state.
          split <;> simp [Lifecycle.openState, refreshed, Lifecycle.condition,
            OpenSet.transition]
        · simp [Lifecycle.openState, refreshed, Lifecycle.condition, hheld]

end

/-! ### One sample -/

namespace OpenSet

/-- The events of one host and sample act on each condition through its transitions. -/
theorem foldl_applyEvent {host observedAt : String} (events : List IncidentEvent)
    (hsource : ∀ event ∈ events, event.host = host ∧ event.observedAt = observedAt)
    (set : OpenSet) (host' key : String) :
    (events.foldl applyEvent set) host' key =
      if host' = host then
        (transitionsOf events key).foldl (transition observedAt) (set host' key)
      else set host' key := by
  induction events generalizing set with
  | nil => simp [transitionsOf]
  | cons event rest ih =>
    obtain ⟨rfl, rfl⟩ := hsource event List.mem_cons_self
    rw [List.foldl_cons, ih fun other hother => hsource other (List.mem_cons_of_mem _ hother),
      ← List.singleton_append, transitionsOf_append, List.foldl_append]
    split
    · next hhost =>
      congr 1
      by_cases hkey : event.condition.key = key
      · simp [applyEvent, update, hhost, hkey, transitionsOf]
      · simp [applyEvent, update, hkey, Ne.symm hkey, transitionsOf]
    · next hhost => simp [applyEvent, update, hhost]

/-- Events of one host with at most one transition for each condition are accepted when each
severity change is one of an open condition. -/
theorem acceptsAll_of_transitionsOf {host : String} (events : List IncidentEvent)
    (hsource : ∀ event ∈ events, event.host = host) (set : OpenSet)
    (h : ∀ key, ∃ one : Option Transition, transitionsOf events key = one.toList
      ∧ ∀ transition, one = some transition →
        transition.1 = .escalated ∨ transition.1 = .deescalated →
        (set host key).isSome = true) : set.AcceptsAll events := by
  induction events generalizing set with
  | nil => trivial
  | cons event rest ih =>
    have hhost := hsource event List.mem_cons_self
    have hrest := fun other hother => hsource other (List.mem_cons_of_mem event hother)
    have hsplit : ∀ key, transitionsOf (event :: rest) key
        = (if event.condition.key = key then [(event.state, event.condition)] else [])
          ++ transitionsOf rest key := fun key => by
      by_cases hkey : event.condition.key = key <;> simp [transitionsOf, hkey]
    -- The first event is the only one of its condition.
    obtain ⟨one, hone, hchange⟩ := h event.condition.key
    rw [hsplit, if_pos rfl] at hone
    obtain ⟨first, rfl⟩ : ∃ first, one = some first := by
      cases one with
      | none => simp at hone
      | some first => exact ⟨first, rfl⟩
    simp only [Option.toList_some, List.cons_append, List.nil_append, List.cons.injEq] at hone
    obtain ⟨rfl, hnone⟩ := hone
    refine ⟨fun hkind => ?_, ih hrest _ fun key => ?_⟩
    · rw [hhost]
      exact hchange _ rfl hkind
    · by_cases hkey : event.condition.key = key
      · exact ⟨none, by rw [← hkey, hnone]; rfl, by simp⟩
      · obtain ⟨other, hother, hopen⟩ := h key
        rw [hsplit, if_neg hkey, List.nil_append] at hother
        refine ⟨other, hother, fun transition htransition hkind => ?_⟩
        have hkept : set.applyEvent event host key = set host key := by
          rw [applyEvent, update, if_neg fun hpair => hkey hpair.2.symm]
        rw [hkept]
        exact hopen transition htransition hkind

/-- Refreshing the criteria of one host puts the last one of each key under it. -/
theorem foldl_refresh (host : String) (criteria : List (String × Option ℚ)) (set : OpenSet)
    (host' key : String) :
    (criteria.foldl (refresh host) set) host' key =
      if host' = host then
        match Dict.lookup key criteria.reverse with
        | some criticalAt => (set host' key).map (fun state => { state with criticalAt })
        | none => set host' key
      else set host' key := by
  induction criteria using List.reverseRecOn with
  | nil => simp [Dict.lookup]
  | append_singleton earlier criterion ih =>
    rw [List.foldl_append, List.foldl_cons, List.foldl_nil, List.reverse_append,
      List.reverse_singleton, List.singleton_append, Dict.lookup, refresh, update]
    by_cases hhost : host' = host
    · rw [if_pos hhost] at ih ⊢
      by_cases hkey : criterion.1 = key
      · rw [if_pos ⟨hhost, hkey.symm⟩, if_pos hkey, ih]
        cases Dict.lookup key earlier.reverse with
        | none => rfl
        | some criticalAt => simp [Option.map_map, Function.comp_def]
      · rw [if_neg (fun hpair => hkey hpair.2.symm), if_neg hkey, ih]
    · rw [if_neg (fun hpair => hhost hpair.1), if_neg hhost]
      rw [if_neg hhost] at ih
      exact ih

end OpenSet

namespace IncidentTracker

/-- The active conditions, with what a restart must bring back of each. -/
def openSet (tracker : IncidentTracker) : OpenSet := fun host key =>
  match (rowOf tracker.active host).get? key, (rowOf tracker.openedAt host).get? key with
  | some condition, some openedAt =>
    some
      { severity := condition.severity, category := condition.category
        criticalAt := condition.criticalAt, openedAt }
  | _, _ => none

/-- The criteria of the active conditions of one host. -/
def criteriaOf (tracker : IncidentTracker) (host : String) : List (String × Option ℚ) :=
  ((rowOf tracker.active host).mapValues (fun _ condition => condition.criticalAt)).entries

/-- What the state store queues after an update: its events with the criteria of the host. -/
def persistIncidents (tracker : IncidentTracker) (host : String)
    (events : List IncidentEvent) : List Write :=
  if events ≠ [] ∨ tracker.criteriaOf host ≠ [] then
    [.incidentState host events (tracker.criteriaOf host)]
  else []

/-- The open set of a tracker is that of the lifecycles. -/
theorem Represents.openSet_eq {tracker : IncidentTracker} {fleet : Fleet}
    (h : tracker.Represents fleet) (host key : String) :
    tracker.openSet host key = (fleet host key).openState := by
  have hcell := h.cell_eq host key
  unfold openSet
  cases hl : fleet host key with
  | inactive candidate =>
    rw [hl] at hcell
    have hactive : (rowOf tracker.active host).get? key = none :=
      congrArg ConditionCell.active hcell
    rw [hactive]
    rfl
  | active condition openedAt lastObservedAt recovery change =>
    rw [hl] at hcell
    have hactive : (rowOf tracker.active host).get? key = some condition :=
      congrArg ConditionCell.active hcell
    have hopened : (rowOf tracker.openedAt host).get? key = some openedAt :=
      congrArg ConditionCell.openedAt hcell
    rw [hactive, hopened]
    rfl

/-- The fleet's active conditions are lawful. -/
def Lawful (fleet : Fleet) : Prop :=
  ∀ host key condition, (fleet host key).condition = some condition → condition.Lawful key

end IncidentTracker

/-- The texts of a sample are within the bounds of the stored ones. -/
structure Sample.Storable (sample : Sample) : Prop where
  host : isStorableText sample.result.host = true
  observedAt : isStorableText sample.result.observedAt = true
  conditions : ∀ entry ∈ (sample.policy.conditions sample.result).entries,
    entry.2.isStorable = true

instance (sample : Sample) : Decidable sample.Storable :=
  decidable_of_iff (isStorableText sample.result.host = true
      ∧ isStorableText sample.result.observedAt = true
      ∧ ∀ entry ∈ (sample.policy.conditions sample.result).entries, entry.2.isStorable = true)
    ⟨fun h => ⟨h.1, h.2.1, h.2.2⟩, fun h => ⟨h.host, h.observedAt, h.conditions⟩⟩

namespace IncidentTracker

section
variable {epochSeconds : String → Option ℚ} {tracker : IncidentTracker} {fleet : Fleet}

/-- A step leaves a lawful condition, and its transition reports one. -/
theorem step_lawful (hlawful : Lawful fleet) {sample : Sample} (hstorable : sample.Storable)
    (host key : String) :
    (∀ condition,
        ((fleet host key).step epochSeconds (sample.result.reading sample.policy key)).1.condition
          = some condition → condition.Lawful key)
      ∧ ∀ transition,
        ((fleet host key).step epochSeconds (sample.result.reading sample.policy key)).2
          = some transition → transition.2.Lawful key := by
  refine Lifecycle.step_condition_of epochSeconds _ _ (fun new hnew => ?_)
    (fun old hold => hlawful host key old hold) (fun new old hnew hold => ?_)
  · have hderived := sample.policy.derived _ key new hnew
    exact ⟨hderived.category_eq, hderived.criticalAt_isSome,
      hstorable.conditions (key, new) ((Dict.get?_eq_some_iff _ _ _).mp hnew)⟩
  · -- Both conditions have the category of the key, so the old line serves the new one.
    have hsame : new.category = old.category := hnew.category_eq.trans hold.category_eq.symm
    exact ⟨⟨hnew.category_eq, hnew.criticalAt_isSome, hnew.storable⟩, hnew.category_eq,
      fun hnumeric => hold.criticalAt_isSome (hsame ▸ hnumeric), hnew.storable⟩

/-- A sample numbers its events on, and each of them reports a lawful condition of its host and
its time. -/
theorem created_lawful (h : tracker.Represents fleet) (hlawful : Lawful fleet) {sample : Sample}
    (hstorable : sample.Storable) {created : List IncidentEvent} {tracker' : IncidentTracker}
    (hupdate : tracker.update epochSeconds sample.policy sample.setOrder sample.result
      = .ok (created, tracker')) :
    created.map (·.eventId) = List.range' tracker.log.nextEventId created.length
      ∧ ∀ event ∈ created, event.host = sample.result.host
        ∧ event.observedAt = sample.result.observedAt
        ∧ event.condition.Lawful event.condition.key := by
  obtain ⟨w, hw, -, htransitions, hextends⟩ :=
    @update_refines epochSeconds _ _ h sample.policy sample.result sample.setOrder
  obtain ⟨rfl, -⟩ := Prod.mk.inj (Except.ok.inj (hw.symm.trans hupdate))
  refine ⟨hextends.ids, fun event hevent => ?_⟩
  obtain ⟨hhost, hobservedAt⟩ := hextends.source event hevent
  have hmem : (event.state, event.condition)
      ∈ transitionsOf w.created event.condition.key :=
    List.mem_map.mpr ⟨event, List.mem_filter.mpr ⟨hevent, by simp⟩, rfl⟩
  rw [htransitions, Option.mem_toList] at hmem
  exact ⟨hhost, hobservedAt,
    (step_lawful hlawful hstorable sample.result.host event.condition.key).2 _ hmem⟩

/-- A sample does not raise, and the write that it queues fits the open set of the tracker
and leads to the open set of the new tracker. -/
theorem update_fits (h : tracker.Represents fleet) (hlawful : Lawful fleet) {sample : Sample}
    (hstorable : sample.Storable) :
    ∃ created tracker' fleet',
      tracker.update epochSeconds sample.policy sample.setOrder sample.result
        = .ok (created, tracker')
      ∧ tracker'.Represents fleet' ∧ Lawful fleet'
      ∧ tracker'.log.nextEventId = tracker.log.nextEventId + created.length
      ∧ (∀ event ∈ created, event.eventId < tracker'.log.nextEventId)
      ∧ Drains tracker.openSet tracker.log.nextEventId
          (tracker'.persistIncidents sample.result.host created)
          tracker'.openSet tracker'.log.nextEventId := by
  obtain ⟨w, hupdate, hrepresents, htransitions, hextends⟩ :=
    @update_refines epochSeconds _ _ h sample.policy sample.result sample.setOrder
  set tracker' := tracker.store sample.result.host w with htracker'
  have hnext : tracker'.log.nextEventId = tracker.log.nextEventId + w.created.length :=
    hextends.nextEventId
  have hsteps : ∀ key, fleet.step epochSeconds sample.policy sample.result sample.result.host key
      = ((fleet sample.result.host key).step epochSeconds
          (sample.result.reading sample.policy key)).1 := fun key => by
    rw [Fleet.step, if_pos rfl]
  have hopenState := fun key => step_openState epochSeconds (fleet sample.result.host key)
    (sample.result.reading sample.policy key)
    (fun new hnew => by
      have hderived := sample.policy.derived _ key new hnew
      exact ⟨hderived.observedAt_eq, hderived.category_eq⟩)
    (fun old hold => (hlawful _ key old hold).category_eq)
  have hlawful' : Lawful (fleet.step epochSeconds sample.policy sample.result) := by
    intro host key condition hcondition
    rw [Fleet.step] at hcondition
    split at hcondition
    · exact (step_lawful hlawful hstorable host key).1 condition hcondition
    · exact hlawful host key condition hcondition
  have hids : ∀ event ∈ w.created, event.eventId < tracker'.log.nextEventId := by
    intro event hevent
    have hmem := List.mem_map_of_mem (f := (·.eventId)) hevent
    rw [hextends.ids, List.mem_range'_1] at hmem
    omega
  have hitem : (Write.incidentState sample.result.host w.created
      (tracker'.criteriaOf sample.result.host)).Fits tracker.openSet tracker.log.nextEventId := by
    refine ⟨hextends.ids, fun event hevent => ?_, ?_⟩
    · obtain ⟨hhost, hobservedAt, hcondition⟩ :=
        (created_lawful h hlawful hstorable hupdate).2 event hevent
      exact isStorable_row_iff.mpr ⟨hhost ▸ hstorable.host, hcondition.storable,
        hobservedAt ▸ hstorable.observedAt⟩
    · refine OpenSet.acceptsAll_of_transitionsOf w.created
        (fun event hevent => (hextends.source event hevent).1) _ fun key =>
          ⟨_, htransitions key, fun transition htransition hkind => ?_⟩
      rw [h.openSet_eq]
      exact (hopenState key).1 transition htransition hkind
  have happly : tracker.openSet.apply (.incidentState sample.result.host w.created
      (tracker'.criteriaOf sample.result.host)) = tracker'.openSet := by
    funext host key
    rw [OpenSet.apply, OpenSet.foldl_refresh, OpenSet.foldl_applyEvent _ hextends.source,
      hrepresents.openSet_eq, h.openSet_eq, criteriaOf, Dict.lookup_reverse, Dict.get?_mapValues,
      hrepresents.previous_eq]
    by_cases hhost : host = sample.result.host
    · subst hhost
      rw [if_pos rfl, if_pos rfl, htransitions, hsteps, ← (hopenState key).2]
      cases ((fleet sample.result.host key).step epochSeconds
          (sample.result.reading sample.policy key)).1.condition <;> rfl
    · rw [if_neg hhost, if_neg hhost, Fleet.step, if_neg hhost]
  refine ⟨w.created, tracker', _, hupdate, hrepresents, hlawful', hnext, hids, ?_⟩
  unfold persistIncidents
  split
  · exact ⟨hitem, happly, hnext.symm⟩
  · next hempty =>
    -- Without an event or an active condition the write would do nothing.
    obtain ⟨hevents, hcriteria⟩ := not_or.mp hempty
    rw [not_not] at hevents hcriteria
    rw [hevents, hcriteria] at happly
    rw [hevents] at hnext
    exact ⟨happly, hnext.symm⟩

end

end IncidentTracker

/-! ### The run -/

/-- The tracker with the history behind it. `queue` holds the writes that are not committed
yet, and `emitted` every event so far. -/
structure IncidentStore where
  tracker : IncidentTracker
  queue : List Write
  backend : Backend
  db : Database
  emitted : List IncidentEvent

/-- One step of the store. A restart carries the configuration of the new process. -/
inductive StoreStep where
  | sample (sample : Sample)
  | recordHistory (host : String)
  | recordGpuTelemetry (host : String) (points : List GpuPoint)
  | commit (count : ℕ) (trace : BatchTrace)
  | prune (clock : PruneClock)
  | restart (policy : IncidentPolicy) (incidentPoints : ℕ) (start : Startup)

/-- The store of a new database. -/
def IncidentStore.create (policy : IncidentPolicy) (incidentPoints : ℕ) (start : Startup) :
    IncidentStore where
  tracker := .init policy incidentPoints [] []
  queue := []
  backend := start.backend
  db := ⟨⟨∅, ∅⟩, ⟨∅, ∅, ∅, ∅, none⟩⟩
  emitted := []

/-- The tracker of a process that loads the tables. -/
def IncidentTables.restart (tables : IncidentTables) (policy : IncidentPolicy)
    (incidentPoints : ℕ) : IncidentTracker :=
  let restored := tables.restoreTelemetry incidentPoints
  .init policy incidentPoints restored.incidentEvents restored.openIncidents

/-- The store after one step. A batch that is not committed and a restart before the queue is
drained are no steps. -/
def IncidentStore.step (epochSeconds : String → Option ℚ) (store : IncidentStore) :
    StoreStep → Option IncidentStore
  | .sample sample =>
    match store.tracker.update epochSeconds sample.policy sample.setOrder sample.result with
    | .ok (created, tracker) =>
      some
        { store with
          tracker
          queue := store.queue ++ tracker.persistIncidents sample.result.host created
          emitted := store.emitted ++ created }
    | .error _ => none
  | .recordHistory host => some { store with queue := store.queue ++ [.history host] }
  | .recordGpuTelemetry host points =>
    some { store with queue := store.queue ++ [.gpuTelemetry host points] }
  | .commit count trace =>
    let result := commitBatch prepareIncidentWrite store.backend trace store.db
      (store.queue.take count)
    if result.1 then
      some { store with queue := store.queue.drop count, backend := result.2.1, db := result.2.2 }
    else none
  | .prune clock => some { store with db := store.db.prune store.backend clock }
  | .restart policy incidentPoints start =>
    if store.queue = [] then
      let db := store.db.start start
      some { store with
        tracker := db.incidents.restart policy incidentPoints, backend := start.backend, db }
    else none

/-- The store after some steps. -/
def IncidentStore.run (epochSeconds : String → Option ℚ) (store : IncidentStore)
    (steps : List StoreStep) : Option IncidentStore :=
  steps.foldlM (fun store step => store.step epochSeconds step) store

/-- The texts of a sample are within their bounds, and a restart keeps some history. -/
def StoreStep.InBounds : StoreStep → Prop
  | .sample taken => taken.Storable
  | .restart _ incidentPoints _ => 0 < incidentPoints
  | _ => True

instance (step : StoreStep) : Decidable step.InBounds :=
  match step with
  | .sample taken => inferInstanceAs (Decidable taken.Storable)
  | .restart _ incidentPoints _ => inferInstanceAs (Decidable (0 < incidentPoints))
  | .recordHistory _ => isTrue trivial
  | .recordGpuTelemetry _ _ => isTrue trivial
  | .commit _ _ => isTrue trivial
  | .prune _ => isTrue trivial

/-- The incident part of a write without its expired points. -/
theorem incidents_write_retain (db : Database) (item : Write) (cutoff : Option String)
    (busyPct : Option ℚ) :
    (db.write (item.retain cutoff).1 busyPct).incidents = db.incidents.write item := by
  cases item <;> cases cutoff <;> rfl

/-- The incident part of a transaction that writes everything. -/
theorem incidents_transact {backend : Backend} {attempt : Attempt} {now : String}
    {db : Database} {writes : List Write} {result : Transaction}
    (h : transact writeEverything backend attempt now db writes = .ok result) :
    result.db.incidents = writes.foldl IncidentTables.write db.incidents := by
  have hfold : ∀ (busyPct : Option ℚ) (cutoff : Option String) (writes : List Write)
      (state : Transaction),
      (writes.foldl (writeItem writeEverything busyPct cutoff) state).db.incidents
        = writes.foldl IncidentTables.write state.db.incidents := by
    intro busyPct cutoff writes
    induction writes with
    | nil => exact fun state => rfl
    | cons item rest ih =>
      intro state
      rw [List.foldl_cons, ih, List.foldl_cons]
      exact congrArg (List.foldl IncidentTables.write · rest)
        (incidents_write_retain state.db item cutoff busyPct)
  unfold transact at h
  split at h
  · next body hbody =>
    obtain rfl : body = result := Except.ok.inj h
    unfold attemptBatch at hbody
    split at hbody
    · exact absurd hbody (by simp)
    · split at hbody
      · exact absurd hbody (by simp)
      · rw [← Option.some.inj hbody, hfold, incidents_boundary]
  · exact absurd h (by simp)
  · exact absurd h (by simp)

open IncidentTracker in
/-- Draining the queue takes the open set of the tables to the open set of the tracker. -/
structure IncidentStore.Durable (store : IncidentStore) (fleet : Fleet) (set : OpenSet)
    (nextId : ℕ) : Prop where
  represents : store.tracker.Represents fleet
  lawful : Lawful fleet
  keeps : store.db.incidents.Keeps set nextId
  sound : CacheSound store.backend.criteriaCache store.db.incidents
  drains : Drains set nextId store.queue store.tracker.openSet store.tracker.log.nextEventId
  emitted : ∀ event ∈ store.emitted, event.eventId < store.tracker.log.nextEventId

/-- The open set of a lawful tracker: categories are heads of keys, and numeric conditions
have a critical line. -/
theorem IncidentTracker.Represents.openSet_lawful {tracker : IncidentTracker} {fleet : Fleet}
    (h : tracker.Represents fleet) (hlawful : IncidentTracker.Lawful fleet) (host key : String)
    (state : OpenState) (hstate : tracker.openSet host key = some state) :
    state.category = partitionHead key
      ∧ (state.category ∈ numericCategories → state.criticalAt.isSome = true) := by
  rw [h.openSet_eq] at hstate
  cases hl : fleet host key with
  | inactive candidate =>
    rw [hl] at hstate
    exact absurd hstate (by simp [Lifecycle.openState])
  | active condition openedAt lastObservedAt recovery change =>
    have hcondition := hlawful host key condition (by rw [hl]; rfl)
    rw [hl] at hstate
    rw [← Option.some.inj hstate]
    exact ⟨hcondition.category_eq, hcondition.criticalAt_isSome⟩

/-- A committed batch takes the tables along its writes, and its cache stays sound. -/
theorem IncidentTables.Keeps.commitBatch {backend : Backend} {db : Database} {set final : OpenSet}
    {nextId lastId : ℕ} {writes : List Write} (h : db.incidents.Keeps set nextId)
    (hsound : CacheSound backend.criteriaCache db.incidents)
    (hdrains : Drains set nextId writes final lastId) {trace : BatchTrace}
    (hcommitted : (commitBatch prepareIncidentWrite backend trace db writes).1 = true) :
    (commitBatch prepareIncidentWrite backend trace db writes).2.2.incidents.Keeps final lastId
      ∧ CacheSound (commitBatch prepareIncidentWrite backend trace db writes).2.1.criteriaCache
          (commitBatch prepareIncidentWrite backend trace db writes).2.2.incidents := by
  obtain ⟨hflag, hdb, hsame⟩ := @commitBatch_good db backend backend ⟨rfl, hsound⟩ trace
    writes (h.drain hdrains).2
  refine ⟨?_, hsame.sound⟩
  rw [hflag] at hcommitted
  rw [hdb]
  -- The writer without the cache commits on the tables themselves or on the pruned ones.
  unfold Mocop.commitBatch at hcommitted ⊢
  split at hcommitted
  · next result hfirst =>
    show result.db.incidents.Keeps final lastId
    rw [incidents_transact hfirst]
    exact (h.drain hdrains).1
  · split at hcommitted
    · next clock _ =>
      dsimp only at hcommitted ⊢
      split at hcommitted
      · next result hsecond =>
        show result.db.incidents.Keeps final lastId
        rw [incidents_transact hsecond]
        exact ((h.pruneIncidents clock.cutoff backend.companionsEnabled).drain hdrains).1
      · exact absurd hcommitted (by simp)
    · exact absurd hcommitted (by simp)
  · exact absurd hcommitted (by simp)

/-- A restart prunes the incident tables and does nothing else to them. -/
theorem incidents_start (db : Database) (start : Startup) :
    (db.start start).incidents
      = db.incidents.pruneIncidents start.clock.cutoff start.companionsBefore := by
  unfold Database.start
  split <;> rfl

open IncidentTracker in
/-- A restarted tracker resumes the open set of the tables. -/
theorem IncidentTables.Keeps.restart {tables : IncidentTables} {set : OpenSet} {nextId : ℕ}
    (h : tables.Keeps set nextId) (hlawful : ∀ host key state, set host key = some state →
      state.category = partitionHead key
      ∧ (state.category ∈ numericCategories → state.criticalAt.isSome = true))
    (policy : IncidentPolicy) {incidentPoints : ℕ} (hpoints : 0 < incidentPoints) :
    ∃ fleet, (tables.restart policy incidentPoints).Represents fleet ∧ Lawful fleet
      ∧ (tables.restart policy incidentPoints).openSet = set
      ∧ (tables.restart policy incidentPoints).log.nextEventId = nextId := by
  have hlined : set.Lined := fun host key state hstate => (hlawful host key state hstate).2
  have hmem := mem_restoreOpen_iff h hlined
  have hrepresents : (tables.restart policy incidentPoints).Represents
      (restoredFleet policy.recoveryCycles tables.restoreOpen) :=
    init_represents policy incidentPoints (tables.restoreEvents incidentPoints) tables.restoreOpen
  refine ⟨_, hrepresents, fun host key condition hcondition => ?_, ?_,
    nextEventId_restored h policy hpoints⟩
  · rcases restoredFleet_cases policy.recoveryCycles tables.restoreOpen host key with
      ⟨hnone, -⟩ | ⟨restored, hrestored, rfl, rfl, hactive⟩
    · rw [hnone] at hcondition
      exact absurd hcondition (by simp [Lifecycle.condition])
    · rw [hactive] at hcondition
      obtain rfl := Option.some.inj hcondition
      obtain ⟨hcategory, hline⟩ := hlawful _ _ _ ((hmem _ _ _).mp ⟨restored, hrestored, rfl, rfl, rfl⟩)
      exact ⟨hcategory, hline, storable_restoreOpen h restored hrestored⟩
  · funext host key
    rw [hrepresents.openSet_eq]
    rcases restoredFleet_cases policy.recoveryCycles tables.restoreOpen host key with
      ⟨hnone, hall⟩ | ⟨restored, hrestored, hhost, hkey, hactive⟩
    · rw [hnone]
      cases hstate : set host key with
      | none => rfl
      | some state =>
        obtain ⟨restored, hrestored, hhost, hkey, -⟩ := (hmem host key state).mpr hstate
        exact absurd ⟨hhost, hkey⟩ (hall restored hrestored)
    · rw [hactive, (hmem host key _).mp ⟨restored, hrestored, hhost, hkey, rfl⟩]
      rfl

/-- A step keeps the store durable. -/
theorem IncidentStore.Durable.step {epochSeconds : String → Option ℚ} {store next : IncidentStore}
    {fleet : Fleet} {set : OpenSet} {nextId : ℕ} (h : store.Durable fleet set nextId)
    {step : StoreStep} (hbounds : step.InBounds) (hstep : store.step epochSeconds step = some next) :
    ∃ fleet set nextId, next.Durable fleet set nextId := by
  obtain ⟨hrepresents, hlawful, hkeeps, hsound, hdrains, hemitted⟩ := h
  cases step with
  | sample taken =>
    obtain ⟨created, tracker', fleet', hupdate, hrepresents', hlawful', hnext, hids, hqueued⟩ :=
      @IncidentTracker.update_fits epochSeconds _ _ hrepresents hlawful taken hbounds
    rw [IncidentStore.step, hupdate] at hstep
    obtain rfl := Option.some.inj hstep
    refine ⟨fleet', set, nextId, hrepresents', hlawful', hkeeps, hsound,
      drains_append.mpr ⟨_, _, hdrains, hqueued⟩, fun event hevent => ?_⟩
    rcases List.mem_append.mp hevent with hold | hnew
    · have hlt := hemitted event hold
      show event.eventId < tracker'.log.nextEventId
      omega
    · exact hids event hnew
  | recordHistory host =>
    obtain rfl := Option.some.inj hstep
    exact ⟨fleet, set, nextId, hrepresents, hlawful, hkeeps, hsound,
      drains_append.mpr ⟨_, _, hdrains, ⟨rfl, by simp [Write.events], trivial⟩, rfl, rfl⟩,
      hemitted⟩
  | recordGpuTelemetry host points =>
    obtain rfl := Option.some.inj hstep
    exact ⟨fleet, set, nextId, hrepresents, hlawful, hkeeps, hsound,
      drains_append.mpr ⟨_, _, hdrains, ⟨rfl, by simp [Write.events], trivial⟩, rfl, rfl⟩,
      hemitted⟩
  | commit count trace =>
    rw [IncidentStore.step] at hstep
    split at hstep
    · next hcommitted =>
      obtain rfl := Option.some.inj hstep
      rw [← List.take_append_drop count store.queue] at hdrains
      obtain ⟨middle, middleId, hbatch, hrest⟩ := drains_append.mp hdrains
      obtain ⟨hkept, hcache⟩ := hkeeps.commitBatch hsound hbatch hcommitted
      exact ⟨fleet, middle, middleId, hrepresents, hlawful, hkept, hcache, hrest, hemitted⟩
    · exact absurd hstep (by simp)
  | prune clock =>
    obtain rfl := Option.some.inj hstep
    exact ⟨fleet, set, nextId, hrepresents, hlawful, hkeeps.pruneIncidents _ _,
      hsound.pruneIncidents _ _, hdrains, hemitted⟩
  | restart policy incidentPoints start =>
    rw [IncidentStore.step] at hstep
    split at hstep
    · next hempty =>
      obtain rfl := Option.some.inj hstep
      rw [hempty] at hdrains
      obtain ⟨rfl, hnextId⟩ := hdrains
      have hpruned : (store.db.start start).incidents.Keeps store.tracker.openSet nextId := by
        rw [incidents_start]
        exact hkeeps.pruneIncidents _ _
      obtain ⟨fleet', hrepresents', hlawful', hset, hid⟩ :=
        hpruned.restart (hrepresents.openSet_lawful hlawful) policy hbounds
      refine ⟨fleet', store.tracker.openSet, nextId, hrepresents', hlawful', hpruned,
        cacheSound_empty _, ?_, fun event hevent => ?_⟩
      · show Drains _ nextId store.queue _ _
        rw [hempty]
        exact ⟨hset.symm, hid.symm⟩
      · have hlt := hemitted event hevent
        show event.eventId < _
        rw [hid, hnextId]
        exact hlt
    · exact absurd hstep (by simp)

/-- A new store is durable. -/
theorem IncidentStore.durable_create (policy : IncidentPolicy) (incidentPoints : ℕ)
    (start : Startup) :
    (IncidentStore.create policy incidentPoints start).Durable
      (fun _ _ => .inactive none) (fun _ _ => none) 1 where
  represents := IncidentTracker.init_represents policy incidentPoints [] []
  lawful := fun _ _ _ hcondition => absurd hcondition (by simp [Lifecycle.condition])
  keeps := ⟨IncidentTables.holds_empty, IncidentTables.numbered_empty⟩
  sound := cacheSound_empty _
  drains := ⟨rfl, by simp [IncidentStore.create, IncidentTracker.init, lastItems]⟩
  emitted := fun _ hevent => absurd hevent List.not_mem_nil

/-- Every run keeps the store durable. -/
theorem IncidentStore.Durable.run {epochSeconds : String → Option ℚ}
    {store final : IncidentStore} {fleet : Fleet} {set : OpenSet} {nextId : ℕ}
    (h : store.Durable fleet set nextId) {steps : List StoreStep}
    (hbounds : ∀ step ∈ steps, step.InBounds) (hrun : store.run epochSeconds steps = some final) :
    ∃ fleet set nextId, final.Durable fleet set nextId := by
  induction steps generalizing store fleet set nextId with
  | nil =>
    obtain rfl := Option.some.inj hrun
    exact ⟨fleet, set, nextId, h⟩
  | cons step rest ih =>
    rw [IncidentStore.run, List.foldlM_cons] at hrun
    obtain ⟨next, hstep, hrest⟩ := Option.bind_eq_some_iff.mp hrun
    obtain ⟨fleet', set', nextId', hnext⟩ := h.step (hbounds step List.mem_cons_self) hstep
    exact ih hnext (fun other hother => hbounds other (List.mem_cons_of_mem _ hother)) hrest

/-- A restart restores exactly the open incidents. Take any run from a new database, with
every batch committed and the queue drained at its end. Then the restored open incidents are
the active conditions of the tracker, no condition is restored twice, and the restarted
tracker counts on above every event id of the run. -/
theorem run_restores (epochSeconds : String → Option ℚ) (policy : IncidentPolicy)
    (incidentPoints : ℕ) (start : Startup) (steps : List StoreStep) (store : IncidentStore)
    (hbounds : ∀ step ∈ steps, step.InBounds)
    (hrun : (IncidentStore.create policy incidentPoints start).run epochSeconds steps = some store)
    (hdrained : store.queue = []) (restartPolicy : IncidentPolicy) (restartPoints : ℕ)
    (hpoints : 0 < restartPoints) :
    (∀ host key state,
        (∃ restored ∈ (store.db.incidents.restoreTelemetry restartPoints).openIncidents,
          restored.host = host ∧ restored.condition.key = key ∧ restored.openState = state)
        ↔ store.tracker.openSet host key = some state)
      ∧ (∀ host key, (store.tracker.openSet host key).isSome
        = store.tracker.hasActiveCondition host key)
      ∧ ((store.db.incidents.restoreTelemetry restartPoints).openIncidents.map
          (fun restored => (restored.host, restored.condition.key))).Nodup
      ∧ ∀ event ∈ store.emitted, event.eventId
        < (store.db.incidents.restart restartPolicy restartPoints).log.nextEventId := by
  obtain ⟨fleet, set, nextId, hrepresents, hlawful, hkeeps, -, hdrains, hemitted⟩ :=
    (IncidentStore.durable_create policy incidentPoints start).run hbounds hrun
  rw [hdrained] at hdrains
  obtain ⟨rfl, hnextId⟩ := hdrains
  have hopen := hrepresents.openSet_lawful hlawful
  refine ⟨IncidentTables.mem_restoreOpen_iff hkeeps
      fun host key state hstate => (hopen host key state hstate).2,
    fun host key => ?_, IncidentTables.nodup_restoreOpen _, fun event hevent => ?_⟩
  · rw [hrepresents.openSet_eq, IncidentTracker.hasActiveCondition, Dict.contains_eq,
      hrepresents.previous_eq]
    cases fleet host key <;> rfl
  · obtain ⟨_, -, -, -, hid⟩ := hkeeps.restart hopen restartPolicy hpoints
    rw [hid, hnextId]
    exact hemitted event hevent

/-! ### A run on fixed inputs -/

/-- The threshold policy with its default settings. -/
private def defaultPolicy : IncidentPolicy :=
  ThresholdIncidentPolicy.toIncidentPolicy
    ⟨({} : ThresholdConfig).toDict, ∅, {}, ∅, ∅, ∅⟩

/-- A failed probe of the host `a`. -/
private def failedProbe (observedAt : String) : StoreStep :=
  .sample
    { policy := defaultPolicy
      setOrder := ⟨id, List.Perm.refl⟩
      result := { host := "a", status := .unreachable, latencyMs := 0, observedAt } }

/-- A start of a process whose database has every table. -/
private def startedAt (cutoff : String) : Startup where
  clock := ⟨cutoff, "00", true⟩
  companionsBefore := true
  companionsEnabled := true
  rollupsEnabled := true
  busyPct := 50

/-- Failed probes that open a condition, a batch that is retried after a prune, a restart, and
more failed probes. -/
private def outage : List StoreStep :=
  [failedProbe "10", failedProbe "11", failedProbe "12",
    .commit 9 ⟨.failsFull, "00", some ⟨"20", "00", true⟩, .succeeds, "00"⟩,
    .prune ⟨"30", "00", true⟩, .restart defaultPolicy 20 (startedAt "40"),
    failedProbe "50", .commit 1 ⟨.succeeds, "00", none, .succeeds, "00"⟩]

/-- The outage is restored as it is: critical, opened at its first failed probe. -/
theorem run_restores_outage :
    ∃ store, (IncidentStore.create defaultPolicy 20 (startedAt "00")).run (fun _ => none) outage
        = some store
      ∧ ∃ restored ∈ (store.db.incidents.restoreTelemetry 20).openIncidents,
          restored.host = "a" ∧ restored.condition.key = "connectivity"
          ∧ restored.openState
            = { severity := .critical, category := "connectivity", criticalAt := none
                openedAt := "10" } := by
  have hopen : ((IncidentStore.create defaultPolicy 20 (startedAt "00")).run (fun _ => none)
      outage).map (fun store => (store.queue, store.tracker.openSet "a" "connectivity"))
      = some ([], some { severity := .critical, category := "connectivity", criticalAt := none
                         openedAt := "10" }) := by decide +kernel
  obtain ⟨store, hrun, hstate⟩ := Option.map_eq_some_iff.mp hopen
  obtain ⟨hqueue, hactive⟩ := Prod.mk.injEq _ _ _ _ ▸ hstate
  exact ⟨store, hrun, ((run_restores _ _ _ _ outage store (by decide +kernel) hrun hqueue
    defaultPolicy 20 (by decide)).1 "a" "connectivity" _).mpr hactive⟩

end Mocop
