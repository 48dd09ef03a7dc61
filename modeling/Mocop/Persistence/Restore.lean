import Mocop.Incidents.Refinement
import Mocop.Persistence.OpenSet

/-!
# `Mocop.Persistence.Restore`: what a restart reads from the incident tables

`restoreTelemetry` reads the newest retained transitions and the open incidents. Which
conditions are open is decided by the latest transition of each over the whole table, not
over the window of the newest ones.

The tracker is built from the result. Where the tables keep an open set
(`IncidentTables.Keeps`), the restored incidents are that set (`mem_restoreOpen_iff`), so the
restarted tracker resumes it (`restoredFleet_openState`), and it counts on behind the largest
stored id (`nextEventId_restored`).
-/

set_option autoImplicit false

namespace Mocop

/-- The incident part of what a restart loads. -/
structure LoadedTelemetry where
  incidentEvents : List IncidentEvent
  openIncidents : List OpenIncident

/-- What a restored incident says about its condition. -/
def OpenIncident.openState (restored : OpenIncident) : OpenState where
  severity := restored.condition.severity
  category := restored.condition.category
  criticalAt := restored.condition.criticalAt
  openedAt := restored.openedAt

namespace IncidentTables

variable (tables : IncidentTables)

/-- Decodes one row with its criterion. -/
def decode (entry : ℕ × IncidentRow) : Option IncidentEvent :=
  eventFromRow entry.1 entry.2 (tables.criteria.get? entry.1).join

/-- The newest transitions, the oldest one first. -/
def restoreEvents (incidentPoints : ℕ) : List IncidentEvent :=
  ((tables.events.filter (fun id _ => 1 ≤ id)).newest incidentPoints).reverse.filterMap
    tables.decode

/-- Whether a row is the latest transition of its condition and leaves it open. -/
def isOpenRow (entry : ℕ × IncidentRow) : Bool :=
  (tables.latest entry.2.host entry.2.conditionKey).map Prod.fst = some entry.1
    ∧ entry.2.state ≠ .resolved ∧ 1 ≤ entry.1

/-- The restored incident of an open row. The opening may be older than the row. -/
def openIncident (entry : ℕ × IncidentRow) : Option OpenIncident :=
  (tables.decode entry).map (fun event =>
    { host := event.host
      condition := event.condition
      openedAt :=
        match tables.latestOpened event.host event.condition.key with
        | some (_, openedRow) => openedRow.observedAt
        | none => event.observedAt })

/-- The open incidents, in the order of their event ids. -/
def restoreOpen : List OpenIncident :=
  ((tables.events.entries.filter tables.isOpenRow).insertionSort
    (fun a b => a.1 ≤ b.1)).filterMap tables.openIncident

/-- What a restart reads. -/
def restoreTelemetry (incidentPoints : ℕ) : LoadedTelemetry where
  incidentEvents := tables.restoreEvents incidentPoints
  openIncidents := tables.restoreOpen

end IncidentTables

/-- Whether the texts of a condition are within the bounds of the stored ones. -/
def IncidentCondition.isStorable (condition : IncidentCondition) : Bool :=
  isStorableText condition.key && isStorableText condition.category
    && isStorableText condition.resource && isStorableText condition.observedAt
    && condition.detail.all (fun detail => decide (detail.length ≤ 4096))
    && condition.groupKey.all (fun groupKey => decide (groupKey.length ≤ 512))

/-- An event is restorable when its host, its condition and its time are. -/
theorem isStorable_row_iff {event : IncidentEvent} :
    event.row.isStorable = true ↔ isStorableText event.host = true
      ∧ event.condition.isStorable = true ∧ isStorableText event.observedAt = true := by
  simp only [IncidentRow.isStorable, IncidentEvent.row, IncidentCondition.isStorable,
    Bool.and_eq_true]
  tauto

/-- An open set in which every condition of a numeric category has a critical line. The line
of a stored critical transition without one would be made up from its category. -/
def OpenSet.Lined (set : OpenSet) : Prop :=
  ∀ host key state, set host key = some state → state.category ∈ numericCategories →
    state.criticalAt.isSome = true

/-- Only a numeric category has a made-up line. -/
theorem legacyCriticalAt_of_not_mem {category : String} (severity : IncidentSeverity)
    (threshold : Option ℚ) (h : category ∉ numericCategories) :
    legacyCriticalAt category severity threshold = none := by
  simp only [numericCategories, List.mem_cons, List.not_mem_nil, or_false, not_or] at h
  obtain ⟨hcpu, hmemory, hdisk, hgpuMemory, hswap, hpressure, htemperature⟩ := h
  unfold legacyCriticalAt
  split
  · rfl
  · simp only [List.mem_cons, List.not_mem_nil, hcpu, hmemory, hdisk, hgpuMemory, or_self,
      if_false]
    cases threshold <;> rfl

namespace IncidentTables

variable {tables : IncidentTables} {set : OpenSet} {nextId : ℕ}

/-- A decoded row is the row of its event. -/
theorem row_of_decode {entry : ℕ × IncidentRow} {event : IncidentEvent}
    (h : tables.decode entry = some event) : event.eventId = entry.1 ∧ event.row = entry.2 := by
  unfold decode eventFromRow at h
  split at h
  · exact absurd h (by simp)
  · rw [← Option.some.inj h]
    exact ⟨rfl, rfl⟩

/-- A restorable row decodes to its own condition, with its stored line where the category
has one. -/
theorem decode_eq_some {eventId : ℕ} {row : IncidentRow} (hone : 1 ≤ eventId)
    (hstorable : row.isStorable = true) :
    ∃ event, tables.decode (eventId, row) = some event ∧ event.eventId = eventId
      ∧ event.row = row
      ∧ ((row.category ∈ numericCategories → (tables.criteria.get? eventId).join.isSome = true) →
        event.condition.criticalAt = (tables.criteria.get? eventId).join) := by
  have hguard : ¬ (eventId < 1 ∨ row.isStorable = false) := by
    rw [hstorable]
    simp
    omega
  refine ⟨_, by unfold decode eventFromRow; exact if_neg hguard, rfl, rfl, fun hline => ?_⟩
  dsimp only
  cases hcriterion : (tables.criteria.get? eventId).join with
  | some criticalAt => rfl
  | none =>
    refine legacyCriticalAt_of_not_mem row.severity row.threshold fun hnumeric => ?_
    have := hline hnumeric
    rw [hcriterion] at this
    exact absurd this (by simp)

/-- The restored incidents are the open set. -/
theorem mem_restoreOpen_iff (h : tables.Keeps set nextId) (hlined : set.Lined)
    (host key : String) (state : OpenState) :
    (∃ restored ∈ tables.restoreOpen, restored.host = host ∧ restored.condition.key = key
        ∧ restored.openState = state)
      ↔ set host key = some state := by
  -- Each open row is restored as the open state of its condition.
  have hrow : ∀ eventId row, tables.latest row.host row.conditionKey = some (eventId, row) →
      row.state ≠ .resolved → ∃ restored, tables.openIncident (eventId, row) = some restored
        ∧ restored.host = row.host ∧ restored.condition.key = row.conditionKey
        ∧ set row.host row.conditionKey = some restored.openState := by
    intro eventId row hlatest hopen
    obtain ⟨hone, -, hstorable⟩ := h.numbered.stored _ _ (Dict.lastWhere_spec hlatest).1
    obtain ⟨event, hdecode, hid, heventRow, hcriticalAt⟩ :=
      @decode_eq_some tables _ _ hone hstorable
    have hstate := (h.holds.openState_eq row.host row.conditionKey).symm.trans
      (openState_of_latest hlatest hopen)
    have hcritical := hcriticalAt fun hnumeric => hlined _ _ _ hstate hnumeric
    refine ⟨_, by rw [openIncident, hdecode, Option.map_some], by rw [← heventRow]; rfl,
      by rw [← heventRow]; rfl, ?_⟩
    rw [hstate]
    simp only [OpenIncident.openState, hcritical, ← heventRow]
    rfl
  constructor
  · rintro ⟨restored, hmem, rfl, rfl, rfl⟩
    obtain ⟨entry, hentry, hrestored⟩ := List.mem_filterMap.mp hmem
    obtain ⟨hstored, hopenRow⟩ := List.mem_filter.mp ((List.mem_insertionSort _).mp hentry)
    simp only [isOpenRow, decide_eq_true_eq, Option.map_eq_some_iff] at hopenRow
    obtain ⟨⟨found, hlatest, hid⟩, hopen, -⟩ := hopenRow
    have hget := (Dict.get?_eq_some_iff _ _ _).mpr hstored
    have hfound : found = entry := by
      have hgetFound := (Dict.lastWhere_spec hlatest).1
      rw [hid, hget] at hgetFound
      exact Prod.ext hid (Option.some.inj hgetFound).symm
    obtain ⟨other, hother, hhost, hkey, hset⟩ := hrow entry.1 entry.2 (hfound ▸ hlatest) hopen
    obtain rfl : other = restored := Option.some.inj (hother.symm.trans hrestored)
    rw [hhost, hkey]
    exact hset
  · intro hset
    obtain ⟨eventId, row, hlatest, hopen⟩ :=
      exists_latest_of_openState ((h.holds.openState_eq host key).trans hset)
    obtain ⟨rfl, rfl⟩ := isAbout_of_latest hlatest
    obtain ⟨restored, hrestored, hhost, hkey, hstate⟩ := hrow eventId row hlatest hopen
    have hget := (Dict.lastWhere_spec hlatest).1
    refine ⟨restored, List.mem_filterMap.mpr ⟨(eventId, row), ?_, hrestored⟩, hhost, hkey, ?_⟩
    · refine (List.mem_insertionSort _).mpr (List.mem_filter.mpr
        ⟨(Dict.get?_eq_some_iff _ _ _).mp hget, ?_⟩)
      simp only [isOpenRow, decide_eq_true_eq]
      exact ⟨by rw [hlatest, Option.map_some], hopen, (h.numbered.stored _ _ hget).1⟩
    · exact Option.some.inj (hstate.symm.trans hset)

/-- No condition is restored twice. -/
theorem nodup_restoreOpen (tables : IncidentTables) :
    (tables.restoreOpen.map (fun restored => (restored.host, restored.condition.key))).Nodup := by
  have hsource : ∀ entry restored, tables.openIncident entry = some restored →
      restored.host = entry.2.host ∧ restored.condition.key = entry.2.conditionKey := by
    intro entry restored hrestored
    obtain ⟨event, hdecode, rfl⟩ := Option.map_eq_some_iff.mp hrestored
    rw [← (row_of_decode hdecode).2]
    exact ⟨rfl, rfl⟩
  -- Two open rows of one condition are both its latest transition.
  have hrows : (tables.events.entries.filter tables.isOpenRow).Pairwise
      (fun a b => a.2.host = b.2.host → a.2.conditionKey ≠ b.2.conditionKey) := by
    have hids : (tables.events.entries.filter tables.isOpenRow).Pairwise
        (fun a b => a.1 ≠ b.1) := by
      have hnodup := tables.events.nodup_filter tables.isOpenRow
      rwa [List.Nodup, List.pairwise_map] at hnodup
    refine hids.imp_of_mem fun {a b} ha hb hne hhost hkey => hne ?_
    have hopen := (List.mem_filter.mp ha).2
    have hopen' := (List.mem_filter.mp hb).2
    simp only [isOpenRow, decide_eq_true_eq] at hopen hopen'
    rw [← hhost, ← hkey] at hopen'
    exact Option.some.inj (hopen.1.symm.trans hopen'.1)
  have hsorted := ((List.perm_insertionSort (fun a b : ℕ × IncidentRow => a.1 ≤ b.1)
    (tables.events.entries.filter tables.isOpenRow)).pairwise_iff
      (fun {a b} hab hhost hkey => hab hhost.symm hkey.symm)).mpr hrows
  rw [List.Nodup, List.pairwise_map, restoreOpen, List.pairwise_filterMap]
  refine hsorted.imp fun {a b} hab restored hrestored restored' hrestored' heq => ?_
  obtain ⟨hhost, hkey⟩ := hsource a restored hrestored
  obtain ⟨hhost', hkey'⟩ := hsource b restored' hrestored'
  obtain ⟨heqHost, heqKey⟩ := Prod.mk.injEq _ _ _ _ ▸ heq
  exact hab (by rw [← hhost, ← hhost', heqHost]) (by rw [← hkey, ← hkey', heqKey])

/-- The texts of a restored condition are within their bounds. -/
theorem storable_restoreOpen (h : tables.Keeps set nextId) (restored : OpenIncident)
    (hrestored : restored ∈ tables.restoreOpen) : restored.condition.isStorable = true := by
  obtain ⟨entry, hentry, hopen⟩ := List.mem_filterMap.mp hrestored
  obtain ⟨event, hdecode, rfl⟩ := Option.map_eq_some_iff.mp hopen
  have hstored := (List.mem_filter.mp ((List.mem_insertionSort _).mp hentry)).1
  obtain ⟨-, -, hstorable⟩ := h.numbered.stored _ _ ((Dict.get?_eq_some_iff _ _ _).mpr hstored)
  rw [← (row_of_decode hdecode).2, isStorable_row_iff] at hstorable
  exact hstorable.2.1

/-! ### The restarted tracker -/

/-- The tracker counts on behind the largest stored id. -/
theorem nextEventId_restored (h : tables.Keeps set nextId) (policy : IncidentPolicy)
    {incidentPoints : ℕ} (hpoints : 0 < incidentPoints) :
    (IncidentTracker.init policy incidentPoints (tables.restoreEvents incidentPoints)
      tables.restoreOpen).log.nextEventId = nextId := by
  set window := tables.restoreEvents incidentPoints with hwindow
  have hlength : window.length ≤ incidentPoints := by
    rw [hwindow, restoreEvents]
    refine le_trans (List.length_filterMap_le _ _) ?_
    rw [List.length_reverse]
    exact Dict.length_newest_le _ _
  have hlast : lastItems incidentPoints window = window := by
    rw [lastItems, if_neg hpoints.ne', Nat.sub_eq_zero_of_le hlength, List.drop_zero]
  have hnext : (IncidentTracker.init policy incidentPoints window
      tables.restoreOpen).log.nextEventId = (window.map (·.eventId)).foldl max 0 + 1 := by
    rw [IncidentTracker.init, IncidentTracker.log_restore, hlast]
  have hbelow : ∀ event ∈ window, event.eventId < nextId := by
    intro event hevent
    obtain ⟨entry, hentry, hdecode⟩ := List.mem_filterMap.mp hevent
    have hget := Dict.get?_of_mem_newest (List.mem_reverse.mp hentry)
    rw [Dict.get?_filter, Option.filter_eq_some_iff] at hget
    rw [(row_of_decode hdecode).1]
    exact (h.numbered.stored _ _ hget.1).2.1
  have hfold : ∀ (ids : List ℕ) (start : ℕ), ids.foldl max start = start
      ∨ ids.foldl max start ∈ ids := by
    intro ids
    induction ids with
    | nil => exact fun start => Or.inl rfl
    | cons id rest ih =>
      intro start
      rw [List.foldl_cons]
      rcases ih (max start id) with heq | hmem
      · rw [heq]
        rcases max_choice start id with hmax | hmax
        · exact Or.inl hmax
        · rw [hmax]
          exact Or.inr List.mem_cons_self
      · exact Or.inr (List.mem_cons_of_mem _ hmem)
  have hone := h.numbered.one_le
  have hupper : (window.map (·.eventId)).foldl max 0 < nextId := by
    rcases hfold (window.map (·.eventId)) 0 with heq | hmem
    · omega
    · obtain ⟨event, hevent, heq⟩ := List.mem_map.mp hmem
      rw [← heq]
      exact hbelow event hevent
  rw [hnext]
  rcases h.numbered.last with hfirst | ⟨row, hrow⟩
  · omega
  · -- The row with the largest id is in the window.
    obtain ⟨honeLast, -, hstorable⟩ := h.numbered.stored _ _ hrow
    have hmem : (nextId - 1, row)
        ∈ (tables.events.filter (fun id _ => 1 ≤ id)).newest incidentPoints :=
      Dict.mem_newest_of_max hpoints
      (by rw [Dict.get?_filter, hrow, Option.filter_eq_some_iff]; simpa using honeLast)
      (fun id other hget => by
        rw [Dict.get?_filter, Option.filter_eq_some_iff] at hget
        have hlt := (h.numbered.stored _ _ hget.1).2.1
        omega)
    obtain ⟨event, hdecode, hid, -⟩ := @decode_eq_some tables _ _ honeLast hstorable
    have hevent : event ∈ window :=
      List.mem_filterMap.mpr ⟨_, List.mem_reverse.mpr hmem, hdecode⟩
    have hlt := IncidentTracker.lt_nextEventId_init policy incidentPoints window
      tables.restoreOpen event (by rwa [hlast])
    rw [hnext] at hlt
    omega

/-- What a restart resumes of one condition: nothing where no restored incident is about it,
or the generation of one that is. -/
theorem restoredFleet_cases (recoveryCycles : ℕ) (openIncidents : List OpenIncident)
    (host key : String) :
    (IncidentTracker.restoredFleet recoveryCycles openIncidents host key = .inactive none
      ∧ ∀ restored ∈ openIncidents, ¬ (restored.host = host ∧ restored.condition.key = key))
    ∨ ∃ restored ∈ openIncidents, restored.host = host ∧ restored.condition.key = key
      ∧ IncidentTracker.restoredFleet recoveryCycles openIncidents host key
        = .active { restored.condition with recoveryCycles := recoveryCycles }
            restored.openedAt restored.condition.observedAt none none := by
  induction openIncidents using List.reverseRecOn with
  | nil => exact Or.inl ⟨rfl, fun _ hmem => absurd hmem List.not_mem_nil⟩
  | append_singleton earlier restored ih =>
    rw [IncidentTracker.restoredFleet, List.foldl_append]
    simp only [List.foldl_cons, List.foldl_nil, IncidentTracker.restoreLifecycle]
    split
    · next hsame =>
      exact Or.inr ⟨restored, by simp, hsame.1.symm, hsame.2.symm, rfl⟩
    · next hne =>
      rcases ih with ⟨hnone, hall⟩ | ⟨other, hmem, hhost, hkey, hactive⟩
      · refine Or.inl ⟨hnone, fun other hother => ?_⟩
        rcases List.mem_append.mp hother with hother | hother
        · exact hall other hother
        · rw [List.mem_singleton.mp hother]
          exact fun hpair => hne ⟨hpair.1.symm, hpair.2.symm⟩
      · exact Or.inr ⟨other, List.mem_append_left _ hmem, hhost, hkey, hactive⟩

end IncidentTables

end Mocop
