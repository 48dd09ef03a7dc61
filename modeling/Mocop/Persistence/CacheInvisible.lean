import Mocop.Persistence.Batches

/-!
# `Mocop.Persistence.CacheInvisible`: the criterion cache changes nothing

The cache lets the writer skip a criterion that is already stored. The reference is the
same writer without it: `writeEverything` prepares nothing, so every criterion is written
and no cache is consulted.

A cache is sound for some tables when each of its entries is the stored criterion of the
latest transition of an open condition (`CacheSound`). The event writes keep the cache sound
(`cacheEvents_good`), and on a sound cache a criterion is skipped only where writing it
would change nothing (`prepareCriterion_good`). A failed transaction throws its cache away,
a prune keeps what the cache claims, and a new process starts with an empty cache. So both
writers leave the same database after every run: `run_cache_invisible`.

Every event must land: written, it becomes the latest transition of its condition and of no
other. The tracker numbers its events so, and a restarted tracker counts on from the highest
restorable id. Only a corrupt row can stand above that: then the two writers differ
(`corrupt_row_shows_cache`).
-/

set_option autoImplicit false

namespace Mocop

/-- The reference: every criterion is written, and no cache is consulted. -/
def writeEverything : Prepare := fun _ item cache => (item, cache)

/-- Each entry of the cache is the stored criterion of the latest transition of an open
condition. -/
def CacheSound (cache : CriteriaCache) (tables : IncidentTables) : Prop :=
  ∀ identity criticalAt, cache.get? identity = some criticalAt →
    ∃ eventId row, tables.latest identity.1 identity.2 = some (eventId, row)
      ∧ row.state ≠ .resolved ∧ tables.criteria.get? eventId = some criticalAt

/-- An empty cache claims nothing. -/
theorem cacheSound_empty (tables : IncidentTables) : CacheSound ∅ tables :=
  fun _ _ hget => absurd hget (by simp)

/-- The events of an item. -/
def Write.events : Write → List IncidentEvent
  | .incident event => [event]
  | .incidentState _ events _ => events
  | _ => []

/-! ### The tables under the statements -/

namespace IncidentTables

variable {tables : IncidentTables}

/-- Each event lands when it is written behind the ones before it. -/
def LandAll : IncidentTables → List IncidentEvent → Prop
  | _, [] => True
  | tables, event :: rest => tables.Lands event ∧ LandAll (tables.writeIncident event) rest

instance decidableLandAll : (tables : IncidentTables) → (events : List IncidentEvent) →
    Decidable (LandAll tables events)
  | _, [] => isTrue trivial
  | tables, event :: rest =>
    have := decidableLandAll (tables.writeIncident event) rest
    inferInstanceAs (Decidable (tables.Lands event ∧ _))

/-- The tables keep the latest transition of every condition, and may miss others. -/
structure Thins (thinned tables : IncidentTables) : Prop where
  sub : ∀ id row, thinned.events.get? id = some row → tables.events.get? id = some row
  latest_eq : ∀ host key, thinned.latest host key = tables.latest host key

variable {thinned : IncidentTables}

/-- An event that lands also lands among fewer transitions. -/
theorem Thins.lands (h : thinned.Thins tables) {event : IncidentEvent}
    (hlands : tables.Lands event) :
    thinned.Lands event := by
  intro stored hstored
  have hget := h.sub _ _ ((Dict.get?_eq_some_iff _ _ _).mpr hstored)
  rw [h.latest_eq]
  exact hlands _ ((Dict.get?_eq_some_iff _ _ _).mp hget)

/-- A landing event keeps the tables thinned. -/
theorem Thins.writeIncident (h : thinned.Thins tables) {event : IncidentEvent}
    (hlands : tables.Lands event) :
    (thinned.writeIncident event).Thins (tables.writeIncident event) where
  sub := fun id row hget => by
    simp only [IncidentTables.writeIncident, Dict.get?_set] at hget ⊢
    split
    · next heq => rwa [if_pos heq] at hget
    · next hne =>
      rw [if_neg hne] at hget
      exact h.sub id row hget
  latest_eq := fun host key => by
    rw [latest_writeIncident (h.lands hlands), latest_writeIncident hlands, h.latest_eq]

/-- Events that land one after the other also land among fewer transitions. -/
theorem Thins.landAll (h : thinned.Thins tables) {events : List IncidentEvent}
    (hlands : tables.LandAll events) :
    thinned.LandAll events := by
  induction events generalizing tables thinned with
  | nil => trivial
  | cons event rest ih =>
    exact ⟨h.lands hlands.1, ih (h.writeIncident hlands.1) hlands.2⟩

/-- Refreshing criteria changes no transition. -/
theorem thins_writeCriteria (host : String) (criteria : List (String × Option ℚ)) :
    (tables.writeCriteria host criteria).Thins tables := by
  refine ⟨fun id row hget => ?_, fun host' key' => ?_⟩
  · rwa [events_writeCriteria] at hget
  · rw [latest, events_writeCriteria, latest]

/-- A prune keeps the latest transition of every condition. -/
theorem thins_pruneIncidents (cutoff : String) (companions : Bool) :
    (tables.pruneIncidents cutoff companions).Thins tables := by
  refine ⟨fun id row hget => ?_, latest_pruneIncidents cutoff companions⟩
  simp only [pruneIncidents, Dict.get?_filter, Option.filter_eq_some_iff] at hget
  exact hget.1

end IncidentTables

open IncidentTables

variable {cache : CriteriaCache} {tables : IncidentTables} {resolved : List (String × String)}
  {db : Database} {backend reference : Backend}

/-- A prune keeps the cache sound: it keeps the latest transitions and their criteria. -/
theorem CacheSound.pruneIncidents (h : CacheSound cache tables) (cutoff : String)
    (companions : Bool) :
    CacheSound cache (tables.pruneIncidents cutoff companions) := by
  intro identity criticalAt hget
  obtain ⟨eventId, row, hlatest, hopen, hcriterion⟩ := h identity criticalAt hget
  have hkept : (tables.pruneIncidents cutoff companions).latest identity.1 identity.2
      = some (eventId, row) := (latest_pruneIncidents cutoff companions _ _).trans hlatest
  refine ⟨eventId, row, hkept, hopen, ?_⟩
  have hevent := (Dict.lastWhere_spec hkept).1
  simp only [IncidentTables.pruneIncidents] at hevent ⊢
  split
  · rw [Dict.get?_filterKeys, Dict.contains_eq, hevent, Option.isSome_some, if_pos rfl,
      hcriterion]
  · exact hcriterion

/-! ### The events of one write -/

/-- What the preparation of one write knows after its events: the cache is sound, the
conditions in `resolved` are resolved, and a condition that neither the write nor the cache
mentions is as it was in the tables `before` the write. -/
structure Prepared (before : IncidentTables) (resolved : List (String × String))
    (cache : CriteriaCache) (tables : IncidentTables) : Prop where
  sound : CacheSound cache tables
  resolved_latest : ∀ identity ∈ resolved, ∃ eventId row,
    tables.latest identity.1 identity.2 = some (eventId, row) ∧ row.state = .resolved
  untouched : ∀ identity, identity ∉ resolved → cache.get? identity = none →
    hydrate tables identity = hydrate before identity

/-- A landing event leaves what the tables say about another condition. -/
theorem hydrate_writeIncident_of_ne {event : IncidentEvent} (hlands : tables.Lands event)
    {identity : String × String} (hne : identity ≠ (event.host, event.condition.key)) :
    hydrate (tables.writeIncident event) identity = hydrate tables identity := by
  have hother : ¬ (event.host = identity.1 ∧ event.condition.key = identity.2) :=
    fun h => hne (Prod.ext h.1.symm h.2.symm)
  unfold hydrate
  rw [latest_writeIncident hlands, if_neg hother]
  cases hlatest : tables.latest identity.1 identity.2 with
  | none => rfl
  | some found => simp only [writeIncident, Dict.get?_set, if_neg (hlands.ne hlatest)]

/-- One event keeps what the preparation knows. -/
theorem Prepared.event {before tables : IncidentTables} (h : Prepared before resolved cache tables)
    {event : IncidentEvent} (hlands : tables.Lands event) :
    Prepared before (cacheEvent (cache, resolved) event).2
      (cacheEvent (cache, resolved) event).1 (tables.writeIncident event) := by
  -- The event is the latest transition of its own condition.
  have hown : (tables.writeIncident event).latest event.host event.condition.key
      = some (event.eventId, event.row) := by
    rw [latest_writeIncident hlands, if_pos ⟨rfl, rfl⟩]
  have hlatest : ∀ identity : String × String,
      identity ≠ (event.host, event.condition.key) →
      (tables.writeIncident event).latest identity.1 identity.2
        = tables.latest identity.1 identity.2 := fun identity hne => by
    rw [latest_writeIncident hlands, if_neg]
    exact fun h => hne (Prod.ext h.1.symm h.2.symm)
  have hsound : ∀ identity criticalAt, identity ≠ (event.host, event.condition.key) →
      cache.get? identity = some criticalAt →
      ∃ eventId row, (tables.writeIncident event).latest identity.1 identity.2
          = some (eventId, row)
        ∧ row.state ≠ .resolved
        ∧ (tables.writeIncident event).criteria.get? eventId = some criticalAt := by
    intro identity criticalAt hne hget
    obtain ⟨eventId, row, hrow, hopen, hcriterion⟩ := h.sound identity criticalAt hget
    have hid : eventId ≠ event.eventId := hlands.ne hrow
    refine ⟨eventId, row, (hlatest identity hne).trans hrow, hopen, ?_⟩
    rw [writeIncident, Dict.get?_set, if_neg hid, hcriterion]
  unfold cacheEvent
  dsimp only
  by_cases hstate : event.state = .resolved
  · rw [if_pos hstate]
    refine ⟨fun identity criticalAt hget => ?_, fun identity hmem => ?_,
      fun identity hnot hnone => ?_⟩
    · rw [Dict.get?_erase] at hget
      split at hget
      · exact absurd hget (by simp)
      · next hne => exact hsound identity criticalAt hne hget
    · by_cases hsame : identity = (event.host, event.condition.key)
      · exact ⟨event.eventId, event.row, by rw [hsame]; exact hown, hstate⟩
      · obtain ⟨eventId, row, hrow, hresolved⟩ :=
          h.resolved_latest identity ((List.mem_cons.mp hmem).resolve_left hsame)
        exact ⟨eventId, row, (hlatest identity hsame).trans hrow, hresolved⟩
    · have hne : identity ≠ (event.host, event.condition.key) := fun he =>
        hnot (he ▸ List.mem_cons_self)
      rw [Dict.get?_erase, if_neg hne] at hnone
      rw [hydrate_writeIncident_of_ne hlands hne]
      exact h.untouched identity (fun hmem => hnot (List.mem_cons_of_mem _ hmem)) hnone
  · rw [if_neg hstate]
    refine ⟨fun identity criticalAt hget => ?_, fun identity hmem => ?_,
      fun identity hnot hnone => ?_⟩
    · rw [Dict.get?_set] at hget
      split at hget
      · next hsame =>
        refine ⟨event.eventId, event.row, by rw [hsame]; exact hown, hstate, ?_⟩
        rw [writeIncident, Dict.get?_set, if_pos rfl, ← Option.some.inj hget]
      · next hne => exact hsound identity criticalAt hne hget
    · obtain ⟨hmem, hne⟩ := List.mem_filter.mp hmem
      have hne : identity ≠ (event.host, event.condition.key) := by simpa using hne
      obtain ⟨eventId, row, hrow, hresolved⟩ := h.resolved_latest identity hmem
      exact ⟨eventId, row, (hlatest identity hne).trans hrow, hresolved⟩
    · have hne : identity ≠ (event.host, event.condition.key) := fun he => by
        rw [he, Dict.get?_set, if_pos rfl] at hnone
        exact absurd hnone (by simp)
      rw [Dict.get?_set, if_neg hne] at hnone
      rw [hydrate_writeIncident_of_ne hlands hne]
      refine h.untouched identity (fun hmem => hnot (List.mem_filter.mpr ⟨hmem, ?_⟩)) hnone
      simpa using hne

/-- The events of a write keep what the preparation knows. -/
theorem Prepared.events {before tables : IncidentTables} (h : Prepared before resolved cache tables)
    (events : List IncidentEvent) (hlands : tables.LandAll events) :
    Prepared before (events.foldl cacheEvent (cache, resolved)).2
      (events.foldl cacheEvent (cache, resolved)).1
      (events.foldl (fun tables event => tables.writeIncident event) tables) := by
  induction events generalizing tables resolved cache with
  | nil => exact h
  | cons event rest ih =>
    exact ih (h.event hlands.1) hlands.2

/-- Before its first event a write knows that the cache is sound. -/
theorem CacheSound.prepared (h : CacheSound cache tables) : Prepared tables [] cache tables :=
  ⟨h, fun _ hmem => absurd hmem List.not_mem_nil, fun _ _ _ => rfl⟩

/-! ### The criteria of one write -/

/-- A condition with a hydrated row is open, and the row is its latest transition. -/
theorem hydrate_eq_some {identity : String × String} {stored : Option (Option ℚ)}
    (h : hydrate tables identity = some stored) :
    ∃ eventId row, tables.latest identity.1 identity.2 = some (eventId, row)
      ∧ row.state ≠ .resolved ∧ tables.criteria.get? eventId = stored := by
  unfold hydrate at h
  cases hlatest : tables.latest identity.1 identity.2 with
  | none => simp [hlatest] at h
  | some found =>
    simp only [hlatest] at h
    split at h
    · exact absurd h (by simp)
    · next hopen => exact ⟨found.1, found.2, rfl, hopen, Option.some.inj h⟩

/-- Refreshing the criterion of an open condition. -/
theorem writeCriterion_of_open {host : String} {criterion : String × Option ℚ} {eventId : ℕ}
    {row : IncidentRow} (hlatest : tables.latest host criterion.1 = some (eventId, row))
    (hopen : row.state ≠ .resolved) :
    tables.writeCriterion host criterion
      = { tables with criteria := tables.criteria.set eventId criterion.2 } := by
  simp only [writeCriterion, hlatest]
  exact if_pos hopen

/-- Refreshing the criterion of a condition that is not open does nothing. -/
theorem writeCriterion_of_hydrate_none {host : String} {criterion : String × Option ℚ}
    (h : hydrate tables (host, criterion.1) = none) :
    tables.writeCriterion host criterion = tables := by
  unfold hydrate at h
  unfold writeCriterion
  cases hlatest : tables.latest host criterion.1 with
  | none => rfl
  | some found =>
    simp only [hlatest] at h ⊢
    split at h
    · next hresolved => exact if_neg (fun hopen => hopen hresolved)
    · exact absurd h (by simp)

/-- Two conditions with the same latest transition are the same condition. -/
theorem latest_id_ne {identity other : String × String} {eventId eventId' : ℕ}
    {row row' : IncidentRow} (h : tables.latest identity.1 identity.2 = some (eventId, row))
    (h' : tables.latest other.1 other.2 = some (eventId', row')) (hne : identity ≠ other) :
    eventId ≠ eventId' := by
  intro heq
  have hget := (Dict.lastWhere_spec h).1
  have hget' := (Dict.lastWhere_spec h').1
  rw [heq, hget', Option.some.injEq] at hget
  obtain ⟨hhost, hkey⟩ := isAbout_of_latest h
  obtain ⟨hhost', hkey'⟩ := isAbout_of_latest h'
  exact hne (Prod.ext (by rw [← hhost, ← hhost', hget]) (by rw [← hkey, ← hkey', hget]))

/-- Storing the criterion of an open condition and remembering it keeps what the
preparation knows. -/
theorem Prepared.writeCriterion {before tables : IncidentTables}
    (h : Prepared before resolved cache tables) (host : String) (criterion : String × Option ℚ)
    {eventId : ℕ} {row : IncidentRow}
    (hlatest : tables.latest host criterion.1 = some (eventId, row))
    (hopen : row.state ≠ .resolved) :
    Prepared before resolved (cache.set (host, criterion.1) criterion.2)
      (tables.writeCriterion host criterion) := by
  refine ⟨fun identity criticalAt hget => ?_, fun identity hmem => ?_,
    fun identity hnot hnone => ?_⟩
  · simp only [latest_writeCriterion]
    rw [Dict.get?_set] at hget
    rw [writeCriterion_of_open hlatest hopen]
    split at hget
    · next hsame =>
      refine ⟨eventId, row, by rw [hsame]; exact hlatest, hopen, ?_⟩
      rw [Dict.get?_set, if_pos rfl, ← Option.some.inj hget]
    · next hne =>
      obtain ⟨eventId', row', hlatest', hopen', hcriterion⟩ :=
        h.sound identity criticalAt hget
      refine ⟨eventId', row', hlatest', hopen', ?_⟩
      rw [Dict.get?_set, if_neg, hcriterion]
      exact latest_id_ne hlatest' (show tables.latest (host, criterion.1).1
        (host, criterion.1).2 = _ from hlatest) hne
  · simp only [latest_writeCriterion]
    exact h.resolved_latest identity hmem
  · have hne : identity ≠ (host, criterion.1) := fun he => by
      rw [he, Dict.get?_set, if_pos rfl] at hnone
      exact absurd hnone (by simp)
    rw [Dict.get?_set, if_neg hne] at hnone
    rw [← h.untouched identity hnot hnone]
    unfold hydrate
    rw [latest_writeCriterion]
    cases hother : tables.latest identity.1 identity.2 with
    | none => rfl
    | some found =>
      have hid : found.1 ≠ eventId :=
        latest_id_ne hother (show tables.latest (host, criterion.1).1
          (host, criterion.1).2 = _ from hlatest) hne
      rw [writeCriterion_of_open hlatest hopen]
      simp only [Dict.get?_set, if_neg hid]

/-- Deciding about one criterion: what is skipped would have changed nothing, and what the
preparation knows is kept. -/
theorem prepareCriterion_good {before tables : IncidentTables}
    (h : Prepared before resolved cache tables) (host : String) (criterion : String × Option ℚ) :
    (if (prepareCriterion before host resolved cache criterion).2 then
        tables.writeCriterion host criterion else tables)
      = tables.writeCriterion host criterion
    ∧ Prepared before resolved (prepareCriterion before host resolved cache criterion).1
        (tables.writeCriterion host criterion) := by
  -- With a known stored value the criterion is written exactly where it differs.
  have hknown : ∀ (known : CriteriaCache) (eventId : ℕ) (row : IncidentRow)
      (stored : Option ℚ), Prepared before resolved known tables →
      known.get? (host, criterion.1) = some stored →
      tables.latest host criterion.1 = some (eventId, row) → row.state ≠ .resolved →
      tables.criteria.get? eventId = some stored →
      (if (if known.get? (host, criterion.1) ≠ some criterion.2 then
            (known.set (host, criterion.1) criterion.2, true) else (known, false)).2 then
          tables.writeCriterion host criterion else tables)
        = tables.writeCriterion host criterion
      ∧ Prepared before resolved
          (if known.get? (host, criterion.1) ≠ some criterion.2 then
            (known.set (host, criterion.1) criterion.2, true) else (known, false)).1
          (tables.writeCriterion host criterion) := by
    intro known eventId row stored hprepared hget hlatest hopen hstored
    by_cases hdiffers : known.get? (host, criterion.1) ≠ some criterion.2
    · rw [if_pos hdiffers]
      exact ⟨if_pos rfl, hprepared.writeCriterion host criterion hlatest hopen⟩
    · rw [if_neg hdiffers]
      have hsame : stored = criterion.2 := by
        rw [hget] at hdiffers
        simpa using hdiffers
      have hnoop : tables.writeCriterion host criterion = tables := by
        rw [writeCriterion_of_open hlatest hopen, Dict.set_eq_self (hsame ▸ hstored)]
      rw [hnoop]
      exact ⟨if_neg (by simp), hprepared⟩
  unfold prepareCriterion
  dsimp only
  by_cases hresolved : (host, criterion.1) ∈ resolved
  · obtain ⟨eventId, row, hlatest, hstate⟩ := h.resolved_latest _ hresolved
    have hnoop : tables.writeCriterion host criterion = tables :=
      writeCriterion_of_hydrate_none (by simp only [hydrate, hlatest]; exact if_pos hstate)
    rw [if_pos hresolved, hnoop]
    exact ⟨if_neg (by simp), h⟩
  · rw [if_neg hresolved]
    cases hcached : cache.get? (host, criterion.1) with
    | some stored =>
      obtain ⟨eventId, row, hlatest, hopen, hstored⟩ := h.sound _ _ hcached
      simp only [Dict.contains_eq, hcached, Option.isSome_some, if_true]
      have hgood := hknown cache eventId row stored h hcached hlatest hopen hstored
      rw [hcached] at hgood
      exact hgood
    | none =>
      have hsame := h.untouched _ hresolved hcached
      simp only [Dict.contains_eq, hcached, Option.isSome_none, Bool.false_eq_true, if_false]
      cases hhydrate : hydrate before (host, criterion.1) with
      | none =>
        rw [hhydrate] at hsame
        have hnoop := writeCriterion_of_hydrate_none hsame
        simp only [hnoop]
        exact ⟨if_neg (by simp), h⟩
      | some stored =>
        rw [hhydrate] at hsame
        obtain ⟨eventId, row, hlatest, hopen, hstored⟩ := hydrate_eq_some hsame
        cases stored with
        | none =>
          -- The companion row is missing, so the criterion is written in any case.
          have hdiffers : cache.get? (host, criterion.1) ≠ some criterion.2 := by
            rw [hcached]
            simp
          simp only [if_pos hdiffers]
          exact ⟨if_pos trivial, h.writeCriterion host criterion hlatest hopen⟩
        | some stored =>
          have hlearned : Prepared before resolved
              (cache.set (host, criterion.1) stored) tables := by
            refine ⟨fun identity criticalAt hget => ?_, h.resolved_latest,
              fun identity hnot hnone => ?_⟩
            · rw [Dict.get?_set] at hget
              split at hget
              · next heq =>
                refine ⟨eventId, row, by rw [heq]; exact hlatest, hopen, ?_⟩
                rw [hstored, hget]
              · exact h.sound identity criticalAt hget
            · rw [Dict.get?_set] at hnone
              split at hnone
              · exact absurd hnone (by simp)
              · exact h.untouched identity hnot hnone
          exact hknown _ eventId row stored hlearned (by simp) hlatest hopen hstored

/-- Deciding about the criteria of a write, one after the other. -/
theorem prepareStep_good {before base tables : IncidentTables} (host : String)
    (criteria changed : List (String × Option ℚ)) (h : Prepared before resolved cache tables)
    (htables : base.writeCriteria host changed = tables) :
    base.writeCriteria host
        (criteria.foldl (prepareStep before host resolved) (cache, changed)).2
      = tables.writeCriteria host criteria
    ∧ CacheSound (criteria.foldl (prepareStep before host resolved) (cache, changed)).1
        (tables.writeCriteria host criteria) := by
  induction criteria generalizing cache changed tables with
  | nil => exact ⟨htables, h.sound⟩
  | cons criterion rest ih =>
    obtain ⟨hwrite, hprepared⟩ := prepareCriterion_good h host criterion
    rw [List.foldl_cons, prepareStep]
    refine ih _ hprepared ?_
    show _ = tables.writeCriterion host criterion
    rw [← hwrite, ← htables]
    split
    · rw [writeCriteria, List.foldl_append]
      rfl
    · rfl

/-- Preparing an item changes nothing about what it writes, and keeps the cache sound. -/
theorem prepareIncidentWrite_good (h : CacheSound cache db.incidents) (item : Write)
    (hlands : db.incidents.LandAll item.events) (busyPct : Option ℚ) :
    db.write (prepareIncidentWrite db.incidents item cache).1 busyPct = db.write item busyPct
    ∧ CacheSound (prepareIncidentWrite db.incidents item cache).2
        (db.write item busyPct).incidents := by
  cases item with
  | history host => exact ⟨rfl, h⟩
  | gpuTelemetry host points => exact ⟨rfl, h⟩
  | incident event => exact ⟨rfl, (h.prepared.events [event] hlands).sound⟩
  | incidentState host events criteria =>
    have hevents := h.prepared.events events hlands
    obtain ⟨hwrite, hsound⟩ := prepareStep_good host criteria [] hevents rfl
    refine ⟨?_, hsound⟩
    simp only [prepareIncidentWrite, Database.write]
    rw [hwrite]

/-! ### Batches and runs -/

/-- Events land in a row when the first ones land and the others land behind them. -/
theorem IncidentTables.landAll_append {events more : List IncidentEvent} :
    tables.LandAll (events ++ more) ↔
      tables.LandAll events
      ∧ (events.foldl (fun tables event => tables.writeIncident event) tables).LandAll more := by
  induction events generalizing tables with
  | nil => simp [LandAll]
  | cons event rest ih => simp only [List.cons_append, LandAll, ih, List.foldl_cons, and_assoc]

/-- Behind an item the events of the next items still land. -/
theorem landAll_write {item : Write} {more : List IncidentEvent}
    (h : db.incidents.LandAll (item.events ++ more)) (busyPct : Option ℚ) :
    (db.write item busyPct).incidents.LandAll more := by
  have hmore := (landAll_append.mp h).2
  cases item with
  | history host => exact hmore
  | gpuTelemetry host points => exact hmore
  | incident event => exact hmore
  | incidentState host events criteria => exact (thins_writeCriteria host criteria).landAll hmore

/-- Dropping expired points changes no event. -/
@[simp] theorem events_retain (item : Write) (cutoff : Option String) :
    (item.retain cutoff).1.events = item.events := by
  cases item <;> cases cutoff <;> rfl

/-- Writing the items of a batch: the cache changes nothing and stays sound. -/
theorem writeItems_good (busyPct : Option ℚ) (cutoff : Option String) (items : List Write)
    (db : Database) (cache other : CriteriaCache) (dropped : ℕ)
    (h : CacheSound cache db.incidents)
    (hlands : db.incidents.LandAll (items.flatMap Write.events)) :
    ∃ result other', items.foldl (writeItem prepareIncidentWrite busyPct cutoff)
        ⟨db, cache, dropped⟩ = result
      ∧ items.foldl (writeItem writeEverything busyPct cutoff) ⟨db, other, dropped⟩
        = { result with cache := other' }
      ∧ CacheSound result.cache result.db.incidents := by
  induction items generalizing db cache other dropped with
  | nil => exact ⟨_, other, rfl, rfl, h⟩
  | cons item rest ih =>
    rw [List.flatMap_cons, ← events_retain item cutoff] at hlands
    obtain ⟨hwrite, hsound⟩ := prepareIncidentWrite_good h (item.retain cutoff).1
      (landAll_append.mp hlands).1 busyPct
    rw [List.foldl_cons, List.foldl_cons, writeItem, writeItem]
    simp only [hwrite]
    exact ih _ _ _ _ hsound (landAll_write hlands busyPct)

/-- Moving the GPU boundary leaves the incident tables. -/
@[simp] theorem incidents_boundary (db : Database) (now : String) (writes : List Write) :
    (db.boundary now writes).2.incidents = db.incidents := by
  unfold Database.boundary
  split <;> rfl

/-- The two backends differ in nothing but their caches, and the cache is sound. -/
structure SameBackend (backend reference : Backend) (db : Database) : Prop where
  same : reference = { backend with criteriaCache := reference.criteriaCache }
  sound : CacheSound backend.criteriaCache db.incidents

/-- One attempt of a transaction: with and without the cache it fails alike, or leaves the
same database and count of dropped writes and a sound cache. -/
theorem transact_good (h : SameBackend backend reference db) (attempt : Attempt) (now : String)
    (writes : List Write) (hlands : db.incidents.LandAll (writes.flatMap Write.events)) :
    (∃ failure, transact prepareIncidentWrite backend attempt now db writes = .error failure
      ∧ transact writeEverything reference attempt now db writes = .error failure)
    ∨ ∃ result other,
      transact prepareIncidentWrite backend attempt now db writes = .ok result
      ∧ transact writeEverything reference attempt now db writes
        = .ok { result with cache := other }
      ∧ CacheSound result.cache result.db.incidents := by
  obtain ⟨result, other, hcached, hreference, hsound⟩ := writeItems_good
    (if backend.rollupsEnabled then some backend.busyPct else none)
    (db.boundary now writes).1 writes (db.boundary now writes).2 backend.criteriaCache
    reference.criteriaCache 0 (by simpa using h.sound) (by simpa using hlands)
  have hguards : attemptBatch prepareIncidentWrite backend now db writes = none
        ∧ attemptBatch writeEverything reference now db writes = none
      ∨ attemptBatch prepareIncidentWrite backend now db writes = some result
        ∧ attemptBatch writeEverything reference now db writes
          = some { result with cache := other } := by
    unfold attemptBatch
    rw [h.same]
    split
    · exact Or.inl ⟨rfl, rfl⟩
    · split
      · exact Or.inl ⟨rfl, rfl⟩
      · exact Or.inr ⟨congrArg some hcached, congrArg some hreference⟩
  unfold transact
  rcases hguards with ⟨hnone, hnone'⟩ | ⟨hsome, hsome'⟩
  · rw [hnone, hnone']
    exact Or.inl ⟨_, rfl, rfl⟩
  · rw [hsome, hsome']
    cases attempt with
    | succeeds => exact Or.inr ⟨result, other, rfl, rfl, hsound⟩
    | failsFull => exact Or.inl ⟨_, rfl, rfl⟩
    | failsOther => exact Or.inl ⟨_, rfl, rfl⟩

/-- A prune of the database keeps the backends alike. -/
theorem SameBackend.prune (h : SameBackend backend reference db) (clock : PruneClock) :
    SameBackend backend reference (db.prune backend clock)
      ∧ db.prune reference clock = db.prune backend clock := by
  refine ⟨⟨h.same, h.sound.pruneIncidents _ _⟩, ?_⟩
  rw [h.same]
  rfl

/-- One batch is stored or lost alike with and without the cache, and it leaves the same
database and a sound cache. -/
theorem commitBatch_good (h : SameBackend backend reference db) (trace : BatchTrace)
    (writes : List Write) (hlands : db.incidents.LandAll (writes.flatMap Write.events)) :
    (commitBatch prepareIncidentWrite backend trace db writes).1
        = (commitBatch writeEverything reference trace db writes).1
      ∧ (commitBatch prepareIncidentWrite backend trace db writes).2.2
        = (commitBatch writeEverything reference trace db writes).2.2
      ∧ SameBackend (commitBatch prepareIncidentWrite backend trace db writes).2.1
          (commitBatch writeEverything reference trace db writes).2.1
          (commitBatch prepareIncidentWrite backend trace db writes).2.2 := by
  have hdrop : ∀ db', SameBackend backend reference db' →
      SameBackend (backend.drop writes) (reference.drop writes) db' := fun db' h' =>
    ⟨by rw [h'.same]; rfl, h'.sound⟩
  have hpublish : ∀ (result : Transaction) (other : CriteriaCache),
      CacheSound result.cache result.db.incidents →
      SameBackend (backend.publish result.cache result.dropped)
        (reference.publish other result.dropped) result.db := fun result other hsound =>
    ⟨by rw [h.same]; rfl, hsound⟩
  unfold commitBatch
  rcases transact_good h trace.first trace.firstNow writes hlands with
    ⟨failure, hfirst, hfirst'⟩ | ⟨result, other, hfirst, hfirst', hsound⟩
  · rw [hfirst, hfirst']
    cases failure with
    | succeeds => exact ⟨rfl, rfl, hdrop db h⟩
    | failsOther => exact ⟨rfl, rfl, hdrop db h⟩
    | failsFull =>
      cases trace.prune with
      | none => exact ⟨rfl, rfl, hdrop db h⟩
      | some clock =>
        -- The second attempt runs on the pruned database, from the published cache.
        obtain ⟨hpruned, hsame⟩ := h.prune clock
        have hlands' : (db.prune backend clock).incidents.LandAll
            (writes.flatMap Write.events) :=
          (thins_pruneIncidents clock.cutoff backend.companionsEnabled).landAll hlands
        simp only [hsame]
        rcases transact_good hpruned trace.second trace.secondNow writes hlands' with
          ⟨failure, hsecond, hsecond'⟩ | ⟨result, other, hsecond, hsecond', hsound⟩
        · rw [hsecond, hsecond']
          exact ⟨rfl, rfl, hdrop _ hpruned⟩
        · rw [hsecond, hsecond']
          exact ⟨rfl, rfl, hpublish result other hsound⟩
  · rw [hfirst, hfirst']
    exact ⟨rfl, rfl, hpublish result other hsound⟩

/-- One step of the writer leaves the same database with and without the cache. -/
theorem step_good {state reference : Backend × Database} (hdb : state.2 = reference.2)
    (h : SameBackend state.1 reference.1 state.2) (step : WriterStep)
    (hlands : ∀ writes trace, step = .batch writes trace →
      reference.2.incidents.LandAll (writes.flatMap Write.events)) :
    (step.run prepareIncidentWrite state).2 = (step.run writeEverything reference).2
      ∧ SameBackend (step.run prepareIncidentWrite state).1
          (step.run writeEverything reference).1 (step.run prepareIncidentWrite state).2 := by
  obtain ⟨backend, db⟩ := state
  obtain ⟨other, db'⟩ := reference
  obtain rfl : db = db' := hdb
  cases step with
  | batch writes trace => exact (commitBatch_good h trace writes (hlands writes trace rfl)).2
  | prune clock =>
    obtain ⟨hpruned, hsame⟩ := h.prune clock
    exact ⟨hsame.symm, hpruned⟩
  | restart start => exact ⟨rfl, rfl, cacheSound_empty _⟩

/-- The writer after a list of steps. -/
def runWriter (prepare : Prepare) (state : Backend × Database) (steps : List WriterStep) :
    Backend × Database :=
  steps.foldl (WriterStep.run prepare) state

/-- The events of every batch land. -/
def LandingRun (state : Backend × Database) : List WriterStep → Prop
  | [] => True
  | step :: rest =>
    (match step with
      | .batch writes _ => state.2.incidents.LandAll (writes.flatMap Write.events)
      | _ => True)
    ∧ LandingRun (step.run writeEverything state) rest

instance decidableLandingRun : (state : Backend × Database) → (steps : List WriterStep) →
    Decidable (LandingRun state steps)
  | _, [] => isTrue trivial
  | state, step :: rest =>
    have := decidableLandingRun (step.run writeEverything state) rest
    match step with
    | .batch writes _ =>
      inferInstanceAs (Decidable (state.2.incidents.LandAll (writes.flatMap Write.events) ∧ _))
    | .prune _ => inferInstanceAs (Decidable (True ∧ _))
    | .restart _ => inferInstanceAs (Decidable (True ∧ _))

/-- The criterion cache is invisible. From any database, with a process that starts with an
empty cache, every sequence of batches (committed, failed, or retried after a prune), prunes
and restarts whose events land leaves the same database as the writer that writes every
criterion and consults no cache. -/
theorem run_cache_invisible (backend : Backend) (db : Database) (steps : List WriterStep)
    (hempty : backend.criteriaCache = ∅) (hlands : LandingRun (backend, db) steps) :
    (runWriter prepareIncidentWrite (backend, db) steps).2
      = (runWriter writeEverything (backend, db) steps).2 := by
  -- The induction is on the steps, with the two backends alike up to their caches.
  have hrun : ∀ (steps : List WriterStep) (state reference : Backend × Database),
      state.2 = reference.2 → SameBackend state.1 reference.1 state.2 →
      LandingRun reference steps →
      (runWriter prepareIncidentWrite state steps).2
        = (runWriter writeEverything reference steps).2 := by
    intro steps
    induction steps with
    | nil => exact fun state reference hdb _ _ => hdb
    | cons step rest ih =>
      intro state reference hdb h hlands
      obtain ⟨hdb', h'⟩ := step_good hdb h step fun writes trace hstep => by
        subst hstep
        exact hlands.1
      exact ih _ _ hdb' h' hlands.2
  have hsound : CacheSound backend.criteriaCache db.incidents := by
    rw [hempty]
    exact cacheSound_empty db.incidents
  exact hrun steps _ _ rfl ⟨rfl, hsound⟩ hlands

/-! ### Runs on fixed inputs -/

/-- A new process whose database has every table. -/
private def ready : Startup where
  clock := ⟨"00", "00", true⟩
  companionsBefore := true
  companionsEnabled := true
  rollupsEnabled := true
  busyPct := 50

private def commits : BatchTrace := ⟨.succeeds, "00", none, .succeeds, "00"⟩

private def retries : BatchTrace :=
  ⟨.failsFull, "00", some ⟨"20", "00", true⟩, .succeeds, "00"⟩

/-- A transition of the condition `cpu` of the host `a`. -/
private def cpuEvent (eventId : ℕ) (state : IncidentState) (observedAt : String) :
    IncidentEvent where
  eventId := eventId
  host := "a"
  condition :=
    { key := "cpu", category := "cpu", resource := "cpu", severity := .warning
      value := some 92, threshold := some 90, observedAt, criticalAt := some 95 }
  state := state
  observedAt := observedAt

private def cpuRefresh (criticalAt : ℚ) : Write :=
  .incidentState "a" [] [("cpu", some criticalAt)]

/-- An opening, a refresh that the cache drops, a retry after a prune, and a restart. -/
theorem run_cache_invisible_restart :
    (runWriter prepareIncidentWrite (ready.backend, ⟨⟨∅, ∅⟩, ⟨∅, ∅, ∅, ∅, none⟩⟩)
        [.batch [.incidentState "a" [cpuEvent 1 .opened "10"] [("cpu", some 95)]] commits,
          .batch [cpuRefresh 96, cpuRefresh 96] retries, .prune ⟨"30", "00", true⟩,
          .restart ready, .batch [cpuRefresh 97, .incident (cpuEvent 2 .resolved "40")] commits]).2
      = (runWriter writeEverything (ready.backend, ⟨⟨∅, ∅⟩, ⟨∅, ∅, ∅, ∅, none⟩⟩)
        [.batch [.incidentState "a" [cpuEvent 1 .opened "10"] [("cpu", some 95)]] commits,
          .batch [cpuRefresh 96, cpuRefresh 96] retries, .prune ⟨"30", "00", true⟩,
          .restart ready,
          .batch [cpuRefresh 97, .incident (cpuEvent 2 .resolved "40")] commits]).2 :=
  run_cache_invisible _ _ _ rfl (by decide +kernel)

/-- The table after a restart over a row that cannot be restored: its resource is empty, and
the tracker reclaims the ids from its own on. -/
private def corruptTables : IncidentTables where
  events := Dict.ofList [(12, { (cpuEvent 12 .opened "10").row with resource := "" })]
  criteria := ∅

/-- A corrupt row above the reclaimed ids stays the latest transition of its condition. The
writer without the cache refreshes its criterion, the one with the cache finds the criterion
of the new opening and drops the refresh. -/
theorem corrupt_row_shows_cache :
    (corruptTables.events.get? 12).map IncidentRow.isStorable = some false
    ∧ (runWriter prepareIncidentWrite (ready.backend, ⟨corruptTables, ⟨∅, ∅, ∅, ∅, none⟩⟩)
        [.batch [.incidentState "a" [cpuEvent 1 .opened "20"] [("cpu", some 95)]] commits]).2
      ≠ (runWriter writeEverything (ready.backend, ⟨corruptTables, ⟨∅, ∅, ∅, ∅, none⟩⟩)
        [.batch [.incidentState "a" [cpuEvent 1 .opened "20"] [("cpu", some 95)]] commits]).2 := by
  decide +kernel

end Mocop
