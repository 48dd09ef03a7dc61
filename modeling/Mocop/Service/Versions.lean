import Mocop.Service.Snapshots

/-!
# `Mocop.Service.Versions`: the version covers every visible change

`Moves` is what an operation that returns no snapshot may do: it raises the version, or it
changes neither the version, the incident revision nor anything that a snapshot shows.
`step_spec` says so for every operation but one: an inventory that leaves the server list alone
and drops the restored incidents of a host that it does not list changes the incident revision
under the same version (`dropsSilently`).

In a run without such an inventory every two different snapshots have different versions, the
later one a greater version, and every snapshot shows the present state of the store
(`snapshots_covered`).
-/

set_option autoImplicit false

namespace Mocop

namespace SnapshotStore

variable {store next : SnapshotStore}

/-- Whether an inventory leaves the server list alone and drops an active incident. -/
def dropsSilently (store : SnapshotStore) : Operation → Bool
  | .setHosts hosts _ => !store.changesServers hosts
    && store.state.incidents.active.keys.any (fun host => decide (host ∉ hosts)
      && !(rowOf store.state.incidents.active host).entries.isEmpty)
  | _ => false

/-- No inventory of a run drops an incident silently. -/
def NeverDrops (epochSeconds : String → Option ℚ) (store : SnapshotStore) :
    List Operation → Prop
  | [] => True
  | operation :: rest => store.dropsSilently operation = false
    ∧ ∀ next returned, store.step epochSeconds operation = .ok (next, returned) →
      next.NeverDrops epochSeconds rest

/-- The version rises, or a reader sees no change. -/
def Moves (store next : SnapshotStore) : Prop :=
  (store.version < next.version
    ∧ (next.snapshotCache = store.snapshotCache ∨ next.snapshotCache = none))
  ∨ (next.version = store.version ∧ next.incidentRevision = store.incidentRevision
    ∧ next.snapshotCache = store.snapshotCache ∧ ∀ now, next.content now = store.content now)

theorem Moves.refl (store : SnapshotStore) : store.Moves store :=
  Or.inr ⟨rfl, rfl, rfl, fun _ => rfl⟩

theorem Moves.trans {last : SnapshotStore} (h : store.Moves next) (h' : next.Moves last) :
    store.Moves last := by
  rcases h with ⟨hlt, hcache⟩ | ⟨hversion, hrevision, hcache, hcontent⟩
  · rcases h' with ⟨hlt', hcache'⟩ | ⟨hversion', -, hcache', -⟩
    · refine Or.inl ⟨hlt.trans hlt', ?_⟩
      rcases hcache' with hcache' | hcache'
      · rw [hcache']
        exact hcache
      · exact Or.inr hcache'
    · rw [← hversion'] at hlt
      rw [← hcache'] at hcache
      exact Or.inl ⟨hlt, hcache⟩
  · rcases h' with ⟨hlt', hcache'⟩ | ⟨hversion', hrevision', hcache', hcontent'⟩
    · rw [hversion] at hlt'
      rw [hcache] at hcache'
      exact Or.inl ⟨hlt', hcache'⟩
    · exact Or.inr ⟨hversion'.trans hversion, hrevision'.trans hrevision, hcache'.trans hcache,
        fun now => (hcontent' now).trans (hcontent now)⟩

/-! ### Raising the version -/

/-- What a comparison with the clock leaves alone. -/
theorem refreshMaintenance_spec (store : SnapshotStore) (now : ℚ) :
    store.version ≤ (store.refreshMaintenance now).version
      ∧ (store.refreshMaintenance now).snapshotCache = store.snapshotCache
      ∧ (store.refreshMaintenance now).state = store.state
      ∧ (store.refreshMaintenance now).trackerVersion = store.trackerVersion
      ∧ store.Moves (store.refreshMaintenance now) := by
  unfold refreshMaintenance
  dsimp only
  split
  · exact ⟨le_rfl, rfl, rfl, rfl, Moves.refl store⟩
  · split
    · exact ⟨le_rfl, rfl, rfl, rfl, Moves.refl store⟩
    · exact ⟨Nat.le_succ _, rfl, rfl, rfl, Or.inl ⟨Nat.lt_succ_self _, Or.inl rfl⟩⟩

theorem refreshActions_spec (store : SnapshotStore) (now : ℚ) :
    (store.refreshActions now).state = store.state
      ∧ (store.refreshActions now).trackerVersion = store.trackerVersion
      ∧ store.Moves (store.refreshActions now) := by
  unfold refreshActions
  dsimp only
  split
  · exact ⟨rfl, rfl, Moves.refl store⟩
  · split
    · exact ⟨rfl, rfl, Moves.refl store⟩
    · exact ⟨rfl, rfl, Or.inl ⟨Nat.lt_succ_self _, Or.inl rfl⟩⟩

theorem refreshAdapterStatus_spec (store : SnapshotStore) (statuses : String × String) :
    (store.refreshAdapterStatus statuses).state = store.state
      ∧ (store.refreshAdapterStatus statuses).trackerVersion = store.trackerVersion
      ∧ store.Moves (store.refreshAdapterStatus statuses) := by
  unfold refreshAdapterStatus
  split
  · exact ⟨rfl, rfl, Moves.refl store⟩
  · exact ⟨rfl, rfl, Or.inl ⟨Nat.lt_succ_self _, Or.inr rfl⟩⟩

/-- A published change moves the store, whatever changed before. -/
theorem publish_spec (changed : SnapshotStore) (now : ℚ)
    (hversion : changed.version = store.version)
    (hcache : changed.snapshotCache = store.snapshotCache) :
    store.Moves (changed.publish now)
      ∧ (changed.publish now).state = changed.state
      ∧ (changed.publish now).trackerVersion = changed.trackerVersion := by
  obtain ⟨hle, hkept, hstate, htracker, -⟩ := refreshMaintenance_spec changed now
  refine ⟨Or.inl ⟨?_, Or.inl ?_⟩, hstate, htracker⟩
  · rw [hversion] at hle
    exact Nat.lt_succ_of_le hle
  · rw [hcache] at hkept
    exact hkept

/-- The revision follows the tracker. -/
theorem syncTrackerRevision_spec (store : SnapshotStore) :
    store.syncTrackerRevision.version = store.version
      ∧ store.syncTrackerRevision.snapshotCache = store.snapshotCache
      ∧ store.syncTrackerRevision.state = store.state
      ∧ store.syncTrackerRevision.trackerVersion = store.state.incidents.log.version := by
  unfold syncTrackerRevision
  split
  · next hsame => exact ⟨rfl, rfl, rfl, hsame.symm⟩
  · exact ⟨rfl, rfl, rfl, rfl⟩

/-! ### An inventory that changes nothing -/

/-- An inventory of the servers themselves adds none. -/
theorem addServers_known (hosts : List String) {state : StateStore}
    (h : ∀ host ∈ hosts, host ∈ state.servers) : hosts.foldl StateStore.addServer state = state := by
  induction hosts with
  | nil => rfl
  | cons host rest ih =>
    rw [List.foldl_cons, StateStore.addServer, if_pos (h host List.mem_cons_self)]
    exact ih (fun other hother => h other (List.mem_cons_of_mem _ hother))

/-- Dropping hosts without an active incident leaves the shown incidents. -/
theorem shownIncidents_removeHosts {state kept : StateStore} (hosts : List String)
    (h : ∀ host ∈ state.incidents.active.keys, host ∉ hosts →
      (rowOf state.incidents.active host).entries = []) (now : ℚ)
    (hkept : kept = { state with
      servers := kept.servers
      hostIncarnations := kept.hostIncarnations
      incidents := state.incidents.removeHosts hosts }) :
    shownIncidents kept now = shownIncidents state now := by
  have hrow : ∀ row ∈ state.incidents.active.entries,
      rowOf state.incidents.active row.1 = row.2 := by
    intro row hrow
    have hget := (Dict.get?_eq_some_iff state.incidents.active row.1 row.2).mpr hrow
    rw [rowOf, Dict.getD_eq, hget]
    rfl
  have hgone : ∀ row ∈ state.incidents.active.entries, row.1 ∉ hosts → row.2.entries = [] := by
    intro row hmem hnot
    rw [← hrow row hmem]
    exact h row.1 (List.mem_map_of_mem hmem) hnot
  -- Only rows without a condition are dropped.
  have hincidents : kept.incidents = state.incidents.removeHosts hosts := by rw [hkept]
  have hentries : kept.incidents.active.entries
      = state.incidents.active.entries.filter (fun row =>
        decide (row.1 ∉ state.incidents.active.keys.filter (· ∉ hosts))) := by
    rw [hincidents]
    rfl
  have hlisted : ∀ row ∈ state.incidents.active.entries,
      (row.1 ∉ state.incidents.active.keys.filter (· ∉ hosts)) ↔ row.1 ∈ hosts := by
    intro row hmem
    rw [List.mem_filter, decide_eq_true_eq, not_and, not_not]
    exact ⟨fun himp => himp (List.mem_map_of_mem hmem), fun hin _ => hin⟩
  have hactionable : ∀ row ∈ state.incidents.active.entries, row.1 ∈ hosts → ∀ key,
      (kept.decorateIncident now (row.1, key)).actionable
        = (state.decorateIncident now (row.1, key)).actionable := by
    intro row hmem hin key
    have hsurvives : decide (row.1 ∉ state.incidents.active.keys.filter (· ∉ hosts)) = true :=
      decide_eq_true ((hlisted row hmem).mpr hin)
    have hstarted : kept.incidents.activeStartedAt row.1 key
        = state.incidents.activeStartedAt row.1 key := by
      rw [hincidents]
      simp only [IncidentTracker.activeStartedAt, IncidentTracker.removeHosts,
        IncidentTracker.rowOf_filterKeys,
        hsurvives, if_true]
    have hmatches : ∀ action, kept.incidentActionMatches action (row.1, key)
        = state.incidentActionMatches action (row.1, key) := by
      intro action
      unfold StateStore.incidentActionMatches
      rw [hstarted, show kept.startupActionBindings = state.startupActionBindings by rw [hkept]]
    unfold StateStore.decorateIncident
    simp only [hmatches, StateStore.activeAction, StateStore.underMaintenance]
    rw [show kept.maintenanceWindows = state.maintenanceWindows by rw [hkept],
      show kept.incidentActions = state.incidentActions by rw [hkept]]
  unfold shownIncidents
  rw [hentries]
  generalize state.incidents.active.entries = rows at hgone hlisted hactionable
  induction rows with
  | nil => rfl
  | cons row rest ih =>
    have hrest := ih (fun other hmem => hgone other (List.mem_cons_of_mem _ hmem))
      (fun other hmem => hlisted other (List.mem_cons_of_mem _ hmem))
      (fun other hmem => hactionable other (List.mem_cons_of_mem _ hmem))
    rw [List.flatMap_cons]
    by_cases hin : row.1 ∈ hosts
    · rw [List.filter_cons, if_pos (decide_eq_true ((hlisted row List.mem_cons_self).mpr hin)),
        List.flatMap_cons, hrest]
      congr 1
      refine List.map_congr_left fun condition _ => ?_
      rw [hactionable row List.mem_cons_self hin]
    · have hnot : ¬ decide (row.1 ∉ state.incidents.active.keys.filter (· ∉ hosts)) = true := by
        rw [decide_eq_true_eq, hlisted row List.mem_cons_self]
        exact hin
      rw [List.filter_cons, if_neg hnot, hrest, hgone row List.mem_cons_self hin]
      rfl

/-- An inventory that drops nothing silently moves the store. -/
theorem moves_setHosts (hsynced : store.trackerVersion = store.state.incidents.log.version)
    (hosts : List String) (now : ℚ) (hdrops : store.dropsSilently (.setHosts hosts now) = false) :
    store.Moves (store.setHosts hosts now)
      ∧ (store.setHosts hosts now).state = store.state.setHosts hosts
      ∧ (store.setHosts hosts now).trackerVersion
        = (store.state.setHosts hosts).incidents.log.version := by
  unfold setHosts
  obtain ⟨hversion, hcache, hstate, htracker⟩ := syncTrackerRevision_spec
    { store with
      state := store.state.setHosts hosts
      servers := store.servers.filterKeys (fun host => decide (host ∈ hosts)) }
  dsimp only at hversion hcache hstate htracker ⊢
  cases hchanges : store.changesServers hosts with
  | true =>
    rw [if_pos rfl]
    obtain ⟨hmoves, hstate', htracker'⟩ := publish_spec _ now hversion hcache
    exact ⟨hmoves, hstate'.trans hstate, htracker'.trans htracker⟩
  | false =>
    rw [if_neg (by simp)]
    -- The servers stay, and only hosts without an active incident are dropped.
    have hlists := hchanges
    rw [changesServers, Bool.or_eq_false_iff, List.any_eq_false, List.any_eq_false] at hlists
    have hkept : ∀ host ∈ store.state.servers, host ∈ hosts := fun host hmem => by
      simpa using hlists.1 host hmem
    have hknown : ∀ host ∈ hosts, host ∈ store.state.servers := fun host hmem => by
      simpa using hlists.2 host hmem
    have hfiltered : store.state.servers.filter (fun host => decide (host ∈ hosts))
        = store.state.servers :=
      List.filter_eq_self.mpr fun host hmem => decide_eq_true (hkept host hmem)
    have hsame : store.state.setHosts hosts
        = { store.state.removeServers hosts with
            incidents := store.state.incidents.removeHosts hosts } := by
      have hadded : hosts.foldl StateStore.addServer (store.state.removeServers hosts)
          = store.state.removeServers hosts := addServers_known hosts fun host hmem => by
        show host ∈ store.state.servers.filter (fun host => decide (host ∈ hosts))
        rw [hfiltered]
        exact hknown host hmem
      rw [StateStore.setHosts, hadded]
      rfl
    have hempty : ∀ host ∈ store.state.incidents.active.keys, host ∉ hosts →
        (rowOf store.state.incidents.active host).entries = [] := by
      intro host hmem hnot
      rw [dropsSilently, hchanges, Bool.not_false, Bool.true_and, List.any_eq_false] at hdrops
      have hrow := hdrops host hmem
      simpa [hnot] using hrow
    have htrackerSame : (store.state.setHosts hosts).incidents.log.version
        = store.state.incidents.log.version := by
      rw [hsame]
      show store.state.incidents.log.version + List.countP _ _ = _
      rw [List.countP_eq_zero.mpr]
      · rfl
      · intro host hmem
        rw [List.mem_filter, decide_eq_true_eq] at hmem
        simp [hempty host hmem.1 hmem.2]
    refine ⟨Or.inr ⟨hversion, ?_, hcache, fun time => ?_⟩, hstate, htracker⟩
    · unfold syncTrackerRevision
      rw [if_pos (htrackerSame.trans hsynced.symm)]
    · have hentries : ∀ host ∈ store.state.servers,
          (store.servers.filterKeys (fun host => decide (host ∈ hosts))).getD host {}
            = store.servers.getD host {} := by
        intro host hmem
        rw [Dict.getD_eq, Dict.get?_filterKeys, if_pos (decide_eq_true (hkept host hmem)),
          Dict.getD_eq]
      have hincidents : shownIncidents (store.state.setHosts hosts) time
          = shownIncidents store.state time := by
        refine shownIncidents_removeHosts hosts hempty time ?_
        rw [hsame]
        rfl
      have hservers : (store.state.setHosts hosts).servers = store.state.servers := by
        rw [hsame]
        exact hfiltered
      have hwindows : (store.state.setHosts hosts).maintenanceWindows
          = store.state.maintenanceWindows := by
        rw [hsame]
        rfl
      unfold syncTrackerRevision
      rw [if_pos (htrackerSame.trans hsynced.symm)]
      unfold content
      dsimp only
      rw [hincidents, hservers, hwindows]
      congr 1
      refine List.map_congr_left fun host hmem => ?_
      unfold serverEntry
      dsimp only
      rw [hentries host hmem, hwindows]

/-! ### Every operation -/

/-- What a run keeps: the revision follows the tracker, and the operations on the state do not
raise. -/
structure Coherent (store : SnapshotStore) : Prop where
  synced : store.trackerVersion = store.state.incidents.log.version
  sound : ∃ announced, Bulletin.Sound ⟨store.state, announced⟩

/-- An operation on the state does not raise. -/
theorem sound_step {state : StateStore} (h : ∃ announced, Bulletin.Sound ⟨state, announced⟩)
    (epochSeconds : String → Option ℚ) (operation : StateStore.Operation) :
    ∃ events updated, state.step epochSeconds operation = .ok (events, updated)
      ∧ ∃ announced, Bulletin.Sound ⟨updated, announced⟩ := by
  obtain ⟨announced, hsound⟩ := h
  obtain ⟨bulletin, hstep, hafter, -⟩ := hsound.step epochSeconds operation
  rw [Bulletin.step] at hstep
  cases hstate : state.step epochSeconds operation with
  | error e =>
    rw [hstate] at hstep
    cases hstep
  | ok out =>
    rw [hstate] at hstep
    obtain rfl := Except.ok.inj hstep
    exact ⟨out.1, out.2, rfl, _, hafter⟩

/-- A store that is coherent stays so, if its state and its tracker version stay. -/
theorem Coherent.congr (h : store.Coherent) (hstate : next.state = store.state)
    (htracker : next.trackerVersion = store.trackerVersion) : next.Coherent :=
  ⟨by rw [htracker, hstate]; exact h.synced, by rw [hstate]; exact h.sound⟩

/-- A published change of a store whose state another operation produced. -/
theorem coherent_publish {changed : SnapshotStore} (now : ℚ)
    (hversion : changed.version = store.version)
    (hcache : changed.snapshotCache = store.snapshotCache) (hcoherent : changed.Coherent) :
    (changed.publish now).Coherent ∧ store.Moves (changed.publish now) := by
  obtain ⟨hmoves, hstate, htracker⟩ := publish_spec changed now hversion hcache
  exact ⟨hcoherent.congr hstate htracker, hmoves⟩

/-- A published change of the state, whatever becomes of the incident revision. -/
theorem coherent_sync {changed : SnapshotStore} (now : ℚ) (revision : ℕ)
    (hversion : changed.version = store.version)
    (hcache : changed.snapshotCache = store.snapshotCache)
    (hsound : ∃ announced, Bulletin.Sound ⟨changed.state, announced⟩) :
    ({ changed.syncTrackerRevision with incidentRevision := revision }.publish now).Coherent
      ∧ store.Moves
        ({ changed.syncTrackerRevision with incidentRevision := revision }.publish now) := by
  obtain ⟨hversion', hcache', hstate', htracker'⟩ := syncTrackerRevision_spec changed
  have hcoherent : changed.syncTrackerRevision.Coherent :=
    ⟨by rw [htracker', hstate'], by rw [hstate']; exact hsound⟩
  exact coherent_publish now (hversion'.trans hversion) (hcache'.trans hcache)
    (hcoherent.congr rfl rfl)

variable (epochSeconds : String → Option ℚ)

/-- A sample moves the store. -/
theorem apply_spec (h : store.Coherent) (input : SampleInput) (now : ℚ) :
    ∃ next, store.apply epochSeconds input now = .ok next ∧ next.Coherent ∧ store.Moves next := by
  obtain ⟨events, state, hstep, hsound⟩ := sound_step h.sound epochSeconds
    (.apply input.setOrder input.clock input.result input.expectedIncarnation)
  have happly : store.state.apply epochSeconds input.setOrder input.clock input.result
      input.expectedIncarnation = .ok (events, state) := hstep
  unfold apply
  dsimp only
  by_cases hignored : input.result.host ∉ store.state.servers ∨ (input.expectedIncarnation ≠ none
      ∧ store.state.hostIncarnations.get? input.result.host ≠ input.expectedIncarnation)
  · rw [if_pos hignored]
    cases hcycle : input.pollCycle with
    | none => exact ⟨store, rfl, h, Moves.refl store⟩
    | some cycle =>
      refine ⟨_, rfl, ?_⟩
      exact coherent_publish now rfl rfl (h.congr rfl rfl)
  · rw [if_neg hignored, happly]
    refine ⟨_, rfl, ?_⟩
    -- A poll cycle changes neither the version nor the cache.
    cases hcycle : input.pollCycle with
    | none =>
      dsimp only
      split
      · exact coherent_sync now _ rfl rfl hsound
      · exact coherent_sync now _ rfl rfl hsound
    | some cycle =>
      dsimp only [recordPollCycle]
      split
      · exact coherent_sync now _ rfl rfl hsound
      · exact coherent_sync now _ rfl rfl hsound

/-- Marking hosts as being polled moves the store. -/
theorem beginPoll_spec (h : store.Coherent) (hosts : List String) (now : ℚ) :
    (store.beginPoll hosts now).Coherent ∧ store.Moves (store.beginPoll hosts now) := by
  unfold beginPoll
  dsimp only
  split
  · exact ⟨h, Moves.refl store⟩
  · exact coherent_publish now rfl rfl (h.congr rfl rfl)

theorem setMaintenanceWindows_spec (h : store.Coherent)
    (windows : List (String × MaintenanceWindowConfig)) (signatureAt now : ℚ) :
    (store.setMaintenanceWindows windows signatureAt now).Coherent
      ∧ store.Moves (store.setMaintenanceWindows windows signatureAt now) := by
  obtain ⟨events, state, hstep, hsound⟩ :=
    sound_step h.sound (fun _ => none) (.setMaintenanceWindows windows)
  obtain ⟨-, rfl⟩ := Prod.mk.inj (Except.ok.inj hstep)
  unfold setMaintenanceWindows
  dsimp only
  split
  · exact ⟨h, Moves.refl store⟩
  · exact coherent_publish now rfl rfl ⟨h.synced, hsound⟩

theorem setIncidentActions_spec (h : store.Coherent) (actions : List IncidentActionConfig)
    (signatureAt now : ℚ) :
    (store.setIncidentActions actions signatureAt now).Coherent
      ∧ store.Moves (store.setIncidentActions actions signatureAt now) := by
  obtain ⟨events, state, hstep, hsound⟩ :=
    sound_step h.sound (fun _ => none) (.setIncidentActions actions)
  obtain ⟨-, rfl⟩ := Prod.mk.inj (Except.ok.inj hstep)
  unfold setIncidentActions
  dsimp only
  split
  · exact ⟨h, Moves.refl store⟩
  · refine coherent_publish now rfl rfl ⟨?_, hsound⟩
    show store.trackerVersion = (store.state.setIncidentActions actions).incidents.log.version
    have hkept : (store.state.setIncidentActions actions).incidents = store.state.incidents := by
      unfold StateStore.setIncidentActions
      dsimp only
      split
      · rfl
      · rfl
    rw [hkept]
    exact h.synced

/-- The clock and the adapters move the store. -/
theorem refreshClock_spec (h : store.Coherent) (maintenanceAt actionAt : ℚ) :
    ((store.refreshMaintenance maintenanceAt).refreshActions actionAt).Coherent
      ∧ store.Moves ((store.refreshMaintenance maintenanceAt).refreshActions actionAt) := by
  obtain ⟨-, -, hstate, htracker, hmoves⟩ := refreshMaintenance_spec store maintenanceAt
  obtain ⟨hstate', htracker', hmoves'⟩ :=
    refreshActions_spec (store.refreshMaintenance maintenanceAt) actionAt
  exact ⟨(h.congr hstate htracker).congr hstate' htracker', hmoves.trans hmoves'⟩

/-- When an operation builds a snapshot, if it returns one. -/
def Operation.builtAt : Operation → Option ℚ
  | .snapshotView _ _ _ now _ => some now
  | .waitForUpdate _ _ now _ => some now
  | _ => none

/-- An operation moves the store, and then it may return the current snapshot. -/
def Answers (store next : SnapshotStore) (builtAt : Option ℚ) (returned : Option Projection) :
    Prop :=
  (returned = none ∧ store.Moves next)
  ∨ ∃ settled statuses now generatedAt projection, store.Moves settled
    ∧ builtAt = some now ∧ settled.snapshotLocked statuses now generatedAt = (next, projection)
    ∧ returned = some projection

/-- The current snapshot leaves the state alone. -/
theorem coherent_snapshotLocked (h : store.Coherent) (statuses : String × String) (now : ℚ)
    (generatedAt : String) : (store.snapshotLocked statuses now generatedAt).1.Coherent := by
  obtain ⟨hstate, htracker, -⟩ := refreshAdapterStatus_spec store statuses
  unfold snapshotLocked
  dsimp only
  split
  · exact h.congr hstate htracker
  · exact h.congr hstate htracker

/-- Every operation but a silent drop answers. -/
theorem step_spec (h : store.Coherent) (operation : Operation)
    (hdrops : store.dropsSilently operation = false) :
    ∃ next returned, store.step epochSeconds operation = .ok (next, returned)
      ∧ next.Coherent ∧ store.Answers next operation.builtAt returned := by
  -- A setter leaves the store alone or publishes.
  have hsetter : ∀ (unchanged : Prop) [Decidable unchanged] (changed : SnapshotStore) (now : ℚ),
      changed.version = store.version → changed.snapshotCache = store.snapshotCache →
      changed.Coherent →
      (if unchanged then store else changed.publish now).Coherent
        ∧ store.Moves (if unchanged then store else changed.publish now) := by
    intro unchanged _ changed now hversion hcache hcoherent
    split
    · exact ⟨h, Moves.refl store⟩
    · exact coherent_publish now hversion hcache hcoherent
  have hquiet : ∀ next : SnapshotStore, ∀ builtAt, next.Coherent ∧ store.Moves next →
      next.Coherent ∧ store.Answers next builtAt none :=
    fun next builtAt hnext => ⟨hnext.1, Or.inl ⟨rfl, hnext.2⟩⟩
  have hpolicy : ∀ policy : IncidentPolicy, ∃ announced,
      Bulletin.Sound ⟨{ store.state with incidentPolicy := policy }, announced⟩ := by
    intro policy
    obtain ⟨events, state, hstep, hsound⟩ :=
      sound_step h.sound (fun _ => none) (.setPolicy policy)
    obtain ⟨-, rfl⟩ := Prod.mk.inj (Except.ok.inj hstep)
    exact hsound
  cases operation with
  | setHosts hosts now =>
    obtain ⟨events, state, hstep, hsound⟩ :=
      sound_step h.sound (fun _ => none) (.setHosts hosts)
    obtain ⟨-, rfl⟩ := Prod.mk.inj (Except.ok.inj hstep)
    obtain ⟨hmoves, hstate, htracker⟩ := moves_setHosts h.synced hosts now hdrops
    refine ⟨_, none, rfl, hquiet _ _ ⟨⟨?_, ?_⟩, hmoves⟩⟩
    · rw [htracker, hstate]
    · rw [hstate]
      exact hsound
  | setCollectorError message now =>
    exact ⟨_, none, rfl, hquiet _ _ (hsetter _ _ now rfl rfl (h.congr rfl rfl))⟩
  | setPollInterval interval now =>
    exact ⟨_, none, rfl, hquiet _ _ (hsetter _ _ now rfl rfl (h.congr rfl rfl))⟩
  | setPolicy policy =>
    refine ⟨_, none, rfl, hquiet _ _ ⟨⟨h.synced, hpolicy policy⟩, ?_⟩⟩
    exact Or.inr ⟨rfl, rfl, rfl, fun _ => rfl⟩
  | setMaintenanceWindows windows signatureAt now =>
    exact ⟨_, none, rfl, hquiet _ _ (setMaintenanceWindows_spec h windows signatureAt now)⟩
  | setIncidentActions actions signatureAt now =>
    exact ⟨_, none, rfl, hquiet _ _ (setIncidentActions_spec h actions signatureAt now)⟩
  | setHostDisplayNames names now =>
    exact ⟨_, none, rfl, hquiet _ _ (hsetter _ _ now rfl rfl (h.congr rfl rfl))⟩
  | setHostGroups groups policy now =>
    exact ⟨_, none, rfl, hquiet _ _ (hsetter _ _ now rfl rfl ⟨h.synced, hpolicy policy⟩)⟩
  | setIncidentOverrides hostOverrides groupOverrides policy now =>
    exact ⟨_, none, rfl, hquiet _ _ (hsetter _ _ now rfl rfl ⟨h.synced, hpolicy policy⟩)⟩
  | setTopology topology now =>
    exact ⟨_, none, rfl, hquiet _ _ (hsetter _ _ now rfl rfl (h.congr rfl rfl))⟩
  | beginPoll hosts now => exact ⟨_, none, rfl, hquiet _ _ (beginPoll_spec h hosts now)⟩
  | apply input now =>
    obtain ⟨next, happly, hnext⟩ := apply_spec epochSeconds h input now
    refine ⟨next, none, ?_, hquiet _ _ hnext⟩
    rw [step, happly]
    rfl
  | rescheduleRetry host nextRetryAt now =>
    exact ⟨_, none, rfl, hquiet _ _ (hsetter _ _ now rfl rfl (h.congr rfl rfl))⟩
  | recordPollCycle cycle now =>
    exact ⟨_, none, rfl, hquiet _ _ (coherent_publish now rfl rfl (h.congr rfl rfl))⟩
  | refreshClock maintenanceAt actionAt =>
    exact ⟨_, none, rfl, hquiet _ _ (refreshClock_spec h maintenanceAt actionAt)⟩
  | refreshAdapters statuses =>
    obtain ⟨hstate, htracker, hmoves⟩ := refreshAdapterStatus_spec store statuses
    exact ⟨_, none, rfl, hquiet _ _ ⟨h.congr hstate htracker, hmoves⟩⟩
  | snapshotView maintenanceAt actionAt statuses now generatedAt =>
    obtain ⟨hcoherent, hmoves⟩ := refreshClock_spec h maintenanceAt actionAt
    refine ⟨_, _, rfl, coherent_snapshotLocked hcoherent statuses now generatedAt, Or.inr ?_⟩
    exact ⟨_, statuses, now, generatedAt, _, hmoves, rfl, rfl, rfl⟩
  | waitForUpdate afterVersion statuses now generatedAt =>
    by_cases hwaits : store.version ≤ afterVersion
    · refine ⟨store, none, ?_, hquiet _ _ ⟨h, Moves.refl store⟩⟩
      rw [step, if_pos hwaits]
    · refine ⟨_, some (store.snapshotLocked statuses now generatedAt).2, ?_,
        coherent_snapshotLocked h statuses now generatedAt, Or.inr ?_⟩
      · rw [step, if_neg hwaits]
      · exact ⟨store, statuses, now, generatedAt, _, Moves.refl store, rfl, rfl, rfl⟩

/-! ### The cache -/

/-- The cached snapshot shows the present state, if it is cached under the present version and
the present incident revision. -/
def CacheTrue (readings : List ℚ) (store : SnapshotStore) : Prop :=
  ∀ key projection, store.snapshotCache = some (key, projection) →
    key = (projection.version, projection.incidentVersion) ∧ projection.version ≤ store.version
    ∧ (key = (store.version, store.incidentRevision) →
      ∃ now ∈ readings, projection.content = store.content now)

/-- A reader holds an old snapshot, or the one that the cache would return. -/
def Held (store : SnapshotStore) (projection : Projection) : Prop :=
  projection.version < store.version
  ∨ (projection.version = store.version
    ∧ store.snapshotCache = some ((store.version, store.incidentRevision), projection))

theorem Moves.cacheTrue {readings : List ℚ} (h : store.Moves next)
    (hcache : CacheTrue readings store) : CacheTrue readings next := by
  intro key projection hcached
  rcases h with ⟨hlt, hkept | hcleared⟩ | ⟨hversion, hrevision, hkept, hcontent⟩
  · rw [hkept] at hcached
    obtain ⟨hkey, hle, -⟩ := hcache key projection hcached
    refine ⟨hkey, hle.trans hlt.le, fun hcurrent => ?_⟩
    -- The version has risen above the one of the cached snapshot.
    rw [hkey] at hcurrent
    have hsame := congrArg Prod.fst hcurrent
    dsimp only at hsame
    omega
  · rw [hcleared] at hcached
    cases hcached
  · rw [hkept] at hcached
    obtain ⟨hkey, hle, htrue⟩ := hcache key projection hcached
    refine ⟨hkey, by rw [hversion]; exact hle, fun hcurrent => ?_⟩
    rw [hversion, hrevision] at hcurrent
    obtain ⟨now, hmem, hshown⟩ := htrue hcurrent
    exact ⟨now, hmem, hshown.trans (hcontent now).symm⟩

theorem Moves.held {projection : Projection} (h : store.Moves next)
    (hheld : store.Held projection) : next.Held projection := by
  have hle : projection.version ≤ store.version := by
    rcases hheld with hlt | ⟨hsame, -⟩
    · exact hlt.le
    · exact hsame.le
  rcases h with ⟨hlt, -⟩ | ⟨hversion, hrevision, hkept, -⟩
  · exact Or.inl (hle.trans_lt hlt)
  · rcases hheld with hlt | ⟨hsame, hcached⟩
    · exact Or.inl (by rw [hversion]; exact hlt)
    · exact Or.inr ⟨by rw [hversion]; exact hsame, by rw [hversion, hrevision, hkept]; exact hcached⟩

/-- The returned snapshot is the one that every reader of its version holds, and it shows the
present state. -/
theorem snapshotLocked_spec {readings : List ℚ} (hcache : CacheTrue readings store)
    (statuses : String × String) {now : ℚ} (hnow : now ∈ readings) (generatedAt : String)
    {projection : Projection}
    (h : store.snapshotLocked statuses now generatedAt = (next, projection)) :
    CacheTrue readings next ∧ next.Held projection
      ∧ (∃ now ∈ readings, projection.content = next.content now)
      ∧ ∀ held, store.Held held →
        next.Held held ∧ (held = projection ∨ held.version < projection.version) := by
  obtain ⟨-, -, hmoves⟩ := refreshAdapterStatus_spec store statuses
  have hcache' := hmoves.cacheTrue hcache
  unfold snapshotLocked at h
  dsimp only at h
  generalize store.refreshAdapterStatus statuses = current at h hmoves hcache'
  split at h
  · next key cached hfilter =>
    obtain ⟨rfl, rfl⟩ := Prod.mk.inj h
    rw [Option.filter_eq_some_iff, decide_eq_true_eq] at hfilter
    obtain ⟨hcached, rfl⟩ := hfilter
    obtain ⟨hkey, -, htrue⟩ := hcache' _ _ hcached
    have hversion : cached.version = current.version := (congrArg Prod.fst hkey).symm
    refine ⟨hcache', Or.inr ⟨hversion, hcached⟩, htrue rfl, fun held hheld => ?_⟩
    have hheld' := hmoves.held hheld
    refine ⟨hheld', ?_⟩
    rcases hheld' with hlt | ⟨-, hsame⟩
    · exact Or.inr (by rw [hversion]; exact hlt)
    · rw [hcached] at hsame
      exact Or.inl (congrArg Prod.snd (Option.some.inj hsame)).symm
  · next hfilter =>
    obtain ⟨rfl, rfl⟩ := Prod.mk.inj h
    refine ⟨?_, Or.inr ⟨rfl, rfl⟩, ⟨now, hnow, rfl⟩, fun held hheld => ?_⟩
    · intro key projection hcached
      obtain ⟨rfl, rfl⟩ := Prod.mk.inj (Option.some.inj hcached)
      exact ⟨rfl, le_rfl, fun _ => ⟨now, hnow, rfl⟩⟩
    · rcases hmoves.held hheld with hlt | ⟨-, hcached⟩
      · exact ⟨Or.inl hlt, Or.inr hlt⟩
      · -- A snapshot of this version would have been cached.
        rw [Option.filter_eq_none_iff] at hfilter
        exact absurd rfl (of_decide_eq_false (Bool.eq_false_iff.mpr (hfilter _ hcached)))

/-! ### Runs -/

/-- A run without a silent drop, from any store that keeps its cache true. -/
theorem run_spec (operations : List Operation) :
    ∀ {store : SnapshotStore} {readings : List ℚ}, store.Coherent → CacheTrue readings store →
      (∀ now ∈ operations.filterMap Operation.builtAt, now ∈ readings) →
      store.NeverDrops epochSeconds operations →
      ∃ final returned, store.run epochSeconds operations = .ok (final, returned)
        ∧ returned.Pairwise (fun earlier later =>
          earlier.1 = later.1 ∨ earlier.1.version < later.1.version)
        ∧ (∀ answer ∈ returned, ∃ now ∈ readings, answer.1.content = answer.2.content now)
        ∧ ∀ held, store.Held held → ∀ answer ∈ returned,
          held = answer.1 ∨ held.version < answer.1.version := by
  induction operations with
  | nil =>
    intro store readings _ _ _ _
    exact ⟨store, [], rfl, List.Pairwise.nil, by simp, by simp⟩
  | cons operation rest ih =>
    intro store readings hcoherent hcache hreadings ⟨hdrops, hrest⟩
    obtain ⟨next, returned, hstep, hnext, hanswers⟩ :=
      step_spec epochSeconds hcoherent operation hdrops
    have hlater : ∀ now ∈ rest.filterMap Operation.builtAt, now ∈ readings := by
      intro now hmem
      refine hreadings now ?_
      rw [List.mem_filterMap] at hmem ⊢
      obtain ⟨other, hother, hbuilt⟩ := hmem
      exact ⟨other, List.mem_cons_of_mem _ hother, hbuilt⟩
    rcases hanswers with ⟨rfl, hmoves⟩
      | ⟨settled, statuses, now, generatedAt, projection, hmoves, hbuilt, hlocked, rfl⟩
    · obtain ⟨final, later, hrun, hpairs, hfresh, hheld⟩ :=
        ih hnext (hmoves.cacheTrue hcache) hlater (hrest _ _ hstep)
      refine ⟨final, later, ?_, hpairs, hfresh, fun held h => hheld held (hmoves.held h)⟩
      rw [run, hstep]
      show Except.bind (next.run epochSeconds rest) _ = _
      rw [hrun]
      rfl
    · have hnow : now ∈ readings := by
        refine hreadings now ?_
        rw [List.filterMap_cons, hbuilt]
        exact List.mem_cons_self
      obtain ⟨hcache', hprojection, hshown, hearlier⟩ :=
        snapshotLocked_spec (hmoves.cacheTrue hcache) statuses hnow generatedAt hlocked
      obtain ⟨final, later, hrun, hpairs, hfresh, hheld⟩ :=
        ih hnext hcache' hlater (hrest _ _ hstep)
      refine ⟨final, (projection, next) :: later, ?_, ?_, ?_, ?_⟩
      · rw [run, hstep]
        show Except.bind (next.run epochSeconds rest) _ = _
        rw [hrun]
        rfl
      · exact List.pairwise_cons.mpr ⟨fun answer hmem => hheld projection hprojection answer hmem,
          hpairs⟩
      · intro answer hmem
        rcases List.mem_cons.mp hmem with rfl | hmem
        · exact hshown
        · exact hfresh answer hmem
      · intro held h answer hmem
        obtain ⟨hheld', hfirst⟩ := hearlier held (hmoves.held h)
        rcases List.mem_cons.mp hmem with rfl | hmem
        · exact hfirst
        · exact hheld held hheld' answer hmem

/-- In a run from a start without a silent drop, of two snapshots that differ in more than the
time of their generation the later one has the greater version, and every snapshot shows what its
store shows at a clock reading that the run made. -/
theorem snapshots_covered (config : SnapshotConfig) (adapterStatuses : String × String)
    (maintenanceAt actionAt : ℚ) (operations : List Operation)
    (h : (start config adapterStatuses maintenanceAt actionAt).NeverDrops epochSeconds
      operations) :
    ∃ final returned,
      (start config adapterStatuses maintenanceAt actionAt).run epochSeconds operations
        = .ok (final, returned)
      ∧ returned.Pairwise (fun earlier later =>
        ¬ earlier.1.SameBody later.1 → earlier.1.version < later.1.version)
      ∧ ∀ answer ∈ returned, ∃ now ∈ operations.filterMap Operation.builtAt,
        answer.1.content = answer.2.content now := by
  have hcoherent : (start config adapterStatuses maintenanceAt actionAt).Coherent :=
    ⟨rfl, _, Bulletin.sound_start config.start⟩
  obtain ⟨final, returned, hrun, hpairs, hfresh, -⟩ :=
    run_spec epochSeconds operations hcoherent (fun _ _ hcached => nomatch hcached)
      (fun _ hmem => hmem) h
  refine ⟨final, returned, hrun, hpairs.imp fun hpair hdiffers => ?_, hfresh⟩
  rcases hpair with hsame | hlt
  · rw [hsame] at hdiffers
    exact absurd ⟨rfl, rfl, rfl⟩ hdiffers
  · exact hlt

/-! ### An incident of a host that is no longer configured -/

/-- A restart that restores an open incident of a host. -/
def restoredOutage : SnapshotConfig := .restoring [
  { host := "gpu-01"
    condition :=
      { key := "connectivity", category := "connectivity", resource := "SSH"
        severity := .critical, value := none, threshold := none
        observedAt := "2026-01-01T00:00:00Z" }
    openedAt := "2026-01-01T00:00:00Z" }]

/-- A view of the snapshot. -/
private def view (generatedAt : String) : Operation :=
  .snapshotView 1767229200 1767229200 ("ok", "ok") 1767229200 generatedAt

/-- An inventory that lists the host drops nothing. -/
theorem snapshots_covered_listed :
    ∃ final returned,
      (start restoredOutage ("ok", "ok") 1767229200 1767229200).run (fun _ => none)
        [view "01:00:00", .setHosts ["gpu-01"] 1767229200, view "01:00:01"]
        = .ok (final, returned)
      ∧ returned.Pairwise (fun earlier later =>
        ¬ earlier.1.SameBody later.1 → earlier.1.version < later.1.version)
      ∧ ∀ answer ∈ returned, ∃ now ∈ [view "01:00:00", .setHosts ["gpu-01"] 1767229200,
          view "01:00:01"].filterMap Operation.builtAt,
        answer.1.content = answer.2.content now := by
  refine snapshots_covered (fun _ => none) restoredOutage ("ok", "ok") 1767229200 1767229200 _ ?_
  refine ⟨rfl, fun next returned hstep => ?_⟩
  obtain ⟨rfl, -⟩ := Prod.mk.inj (Except.ok.inj hstep)
  refine ⟨rfl, fun next returned hstep => ?_⟩
  obtain ⟨rfl, -⟩ := Prod.mk.inj (Except.ok.inj hstep)
  exact ⟨rfl, fun _ _ _ => trivial⟩

/-- An empty first inventory drops the incident, and the version stays. -/
theorem silent_drop_keeps_version :
    ¬ ∀ (config : SnapshotConfig) (adapterStatuses : String × String)
      (maintenanceAt actionAt : ℚ) (operations : List Operation) (final : SnapshotStore)
      (returned : List (Projection × SnapshotStore)),
      (start config adapterStatuses maintenanceAt actionAt).run (fun _ => none) operations
        = .ok (final, returned) →
      returned.Pairwise (fun earlier later =>
        ¬ earlier.1.SameBody later.1 → earlier.1.version < later.1.version) := by
  intro hclaim
  have hpairs := hclaim restoredOutage ("ok", "ok") 1767229200 1767229200
    [view "01:00:00", .setHosts [] 1767229200, view "01:00:01"] _ _ rfl
  have hpair := List.rel_of_pairwise_cons hpairs List.mem_cons_self
  have hlt := hpair (fun hsame => absurd hsame.2.1 (by decide +kernel))
  exact absurd hlt (by decide +kernel)

end SnapshotStore

end Mocop
