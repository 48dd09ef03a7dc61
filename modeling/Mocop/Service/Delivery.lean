import Mocop.Incidents.Policy
import Mocop.Service.Store
import Mocop.Notifications.Webhook

/-!
# `Mocop.Service.Delivery`: why a queued notification is dropped

A worker asks the store before each attempt whether the event is still worth delivering. The
store looks up under which incarnation of its host the event was announced, in a table that
holds the latest announcements only.

A `Bulletin` is a store with the list of everything it announced. It marks the announcements
whose host was removed since. `Bulletin.Sound` is the invariant: the table shows the end of the
list, and the incarnation of an announcement is that of its host exactly as long as the host
was not removed. `dropped_for_stated_reason_iff` is the result: an announcement that is no
longer in the table is dropped without a reason.
-/

set_option autoImplicit false

namespace Mocop

/-- A transition that the store announced, with the incarnation of its host, and whether the
host was removed since. -/
structure Announcement where
  event : IncidentEvent
  incarnation : ℕ
  hostRemoved : Bool := false

/-- A store and everything that it announced. -/
structure Bulletin where
  store : StateStore
  announced : List Announcement := []

variable {bulletin : Bulletin}

namespace Bulletin

/-- Marks the announcements whose host an operation removes. -/
def markRemoved (announced : List Announcement) : StateStore.Operation → List Announcement
  | .setHosts hosts => announced.map (fun announcement =>
    { announcement with
      hostRemoved := announcement.hostRemoved || decide (announcement.event.host ∉ hosts) })
  | _ => announced

/-- The announcements of one operation. -/
def announcements (store : StateStore) (events : List IncidentEvent) : List Announcement :=
  events.map (fun event =>
    { event := event, incarnation := store.hostIncarnations.getD event.host 0 })

section
variable (epochSeconds : String → Option ℚ)

/-- One operation. -/
def step (bulletin : Bulletin) (operation : StateStore.Operation) : Except KeyError Bulletin := do
  let (events, store) ← bulletin.store.step epochSeconds operation
  return { store := store
           announced := markRemoved bulletin.announced operation ++ announcements store events }

/-- Operations, one after the other. -/
def run (bulletin : Bulletin) (operations : List StateStore.Operation) : Except KeyError Bulletin :=
  operations.foldlM (step epochSeconds) bulletin

end

/-- What the table of the latest notification events records of an announcement. -/
def entryOf (announcement : Announcement) : ℕ × ℕ :=
  (announcement.event.eventId, announcement.incarnation)

/-- The stated reasons for dropping an announcement: its host was removed since, its condition
is not active, its host is under maintenance, or its condition is silenced. -/
def HasReason (store : StateStore) (announcement : Announcement)
    (maintenanceAt silenceAt : ℚ) : Prop :=
  announcement.hostRemoved = true
    ∨ store.incidents.hasActiveCondition announcement.event.host
        announcement.event.condition.key = false
    ∨ store.underMaintenance maintenanceAt announcement.event.host = true
    ∨ store.conditionIsSilenced silenceAt
        (announcement.event.host, announcement.event.condition.key) = true

/-- What becomes of an announcement that a worker attempts to deliver now. The answers of the
store are those of the present; `result` is how each attempt ends. -/
def attempt (store : StateStore) (announcement : Announcement) (maintenanceAt silenceAt : ℚ)
    (maxAttempts : ℕ) (result : DeliveryResult) : Fate :=
  attemptDelivery { event := announcement.event }
    (fun _ => ⟨false, store.notificationEventActionable maintenanceAt silenceAt
      announcement.event, result⟩) maxAttempts 0 "delivery_failed"

/-- Exactly the served hosts have an incarnation, and the next one is new. -/
structure HostsSound (store : StateStore) : Prop where
  served : ∀ host, host ∈ store.servers ↔ (store.hostIncarnations.get? host).isSome
  fresh : ∀ host n, store.hostIncarnations.get? host = some n → n < store.nextHostIncarnation

/-- The bulletin is sound: the tracker represents a fleet, the table shows the latest
announcements, no two announcements share an id, and an announcement carries the incarnation
of its host exactly as long as the host was not removed. -/
structure Sound (bulletin : Bulletin) : Prop where
  hosts : HostsSound bulletin.store
  represents : ∃ fleet, bulletin.store.incidents.Represents fleet
  shows : bulletin.store.notificationEvents.Shows
    ((bulletin.announced.map entryOf).rtake bulletin.store.notificationEventCapacity)
  nodup : (bulletin.announced.map (·.event.eventId)).Nodup
  older : ∀ announcement ∈ bulletin.announced,
    announcement.event.eventId < bulletin.store.incidents.log.nextEventId
      ∧ announcement.incarnation < bulletin.store.nextHostIncarnation
  incarnation : ∀ announcement ∈ bulletin.announced,
    bulletin.store.hostIncarnations.get? announcement.event.host = some announcement.incarnation
      ↔ announcement.hostRemoved = false

/-- A new store is sound. -/
theorem sound_start (config : StartConfig) : Sound { store := StateStore.start config } where
  hosts := ⟨fun host => by simp [StateStore.start], fun host n h => by
    simp [StateStore.start] at h⟩
  represents := ⟨_, IncidentTracker.init_represents _ _ _ _⟩
  shows := by
    rw [List.map_nil, List.rtake, List.drop_nil]
    exact Recent.shows_empty
  nodup := List.nodup_nil
  older := fun _ h => absurd h List.not_mem_nil
  incarnation := fun _ h => absurd h List.not_mem_nil

/-! ### Hosts -/

/-- Hosts were added: no known host got another incarnation, and every added one is new. -/
structure HostsGrow (store grown : StateStore) : Prop where
  le : store.nextHostIncarnation ≤ grown.nextHostIncarnation
  kept : ∀ host, (store.hostIncarnations.get? host).isSome →
    grown.hostIncarnations.get? host = store.hostIncarnations.get? host
  added : ∀ host n, store.hostIncarnations.get? host = none →
    grown.hostIncarnations.get? host = some n → store.nextHostIncarnation ≤ n

theorem HostsGrow.refl (store : StateStore) : HostsGrow store store :=
  ⟨le_rfl, fun _ _ => rfl, fun host n hnone hsome => by simp [hnone] at hsome⟩

theorem HostsGrow.trans {first second third : StateStore} (h : HostsGrow first second)
    (h' : HostsGrow second third) : HostsGrow first third where
  le := h.le.trans h'.le
  kept := fun host hsome => by
    rw [h'.kept host (by rw [h.kept host hsome]; exact hsome), h.kept host hsome]
  added := fun host n hnone hsome => by
    cases hmiddle : second.hostIncarnations.get? host with
    | none => exact h.le.trans (h'.added host n hmiddle hsome)
    | some m =>
      have hsame := h'.kept host (by rw [hmiddle]; rfl)
      rw [hsome, hmiddle] at hsame
      exact Option.some.inj hsame ▸ h.added host m hnone hmiddle

/-- A store with other hosts. -/
def SameButHosts (store other : StateStore) : Prop :=
  ∃ servers hostIncarnations nextHostIncarnation, other = { store with
    servers := servers
    hostIncarnations := hostIncarnations
    nextHostIncarnation := nextHostIncarnation }

variable {store : StateStore}

/-- Adding a host gives a new incarnation to an unknown host and changes nothing else. -/
theorem addServer_spec (h : HostsSound store) (host : String) :
    HostsSound (store.addServer host) ∧ HostsGrow store (store.addServer host)
      ∧ SameButHosts store (store.addServer host) := by
  unfold StateStore.addServer
  by_cases hmem : host ∈ store.servers
  · rw [if_pos hmem]
    exact ⟨h, HostsGrow.refl store, _, _, _, rfl⟩
  · have hnone : store.hostIncarnations.get? host = none := by
      have hnot := mt (h.served host).mpr hmem
      simpa using hnot
    rw [if_neg hmem]
    refine ⟨⟨fun other => ?_, fun other n hget => ?_⟩, ⟨Nat.le_succ _, fun other hsome => ?_,
      fun other n hgone hget => ?_⟩, _, _, _, rfl⟩
    · rw [List.mem_append, List.mem_singleton, Dict.get?_set]
      by_cases hother : other = host
      · simp [hother]
      · simp [hother, h.served]
    · rw [Dict.get?_set] at hget
      split at hget
      · exact Option.some.inj hget ▸ Nat.lt_succ_self _
      · exact lt_trans (h.fresh other n hget) (Nat.lt_succ_self _)
    · rw [Dict.get?_set, if_neg]
      rintro rfl
      simp [hnone] at hsome
    · rw [Dict.get?_set] at hget
      split at hget
      · exact le_of_eq (Option.some.inj hget)
      · simp [hgone] at hget

/-- Adding hosts. -/
theorem addServers_spec (hosts : List String) (h : HostsSound store) :
    HostsSound (hosts.foldl StateStore.addServer store)
      ∧ HostsGrow store (hosts.foldl StateStore.addServer store)
      ∧ SameButHosts store (hosts.foldl StateStore.addServer store) := by
  induction hosts generalizing store with
  | nil => exact ⟨h, HostsGrow.refl store, _, _, _, rfl⟩
  | cons host rest ih =>
    obtain ⟨hsound, hgrow, servers, incarnations, next, hframe⟩ := addServer_spec h host
    obtain ⟨hsound', hgrow', servers', incarnations', next', hframe'⟩ := ih hsound
    refine ⟨hsound', hgrow.trans hgrow', servers', incarnations', next', ?_⟩
    rw [List.foldl_cons, hframe', hframe]

/-- Removing servers: a served host keeps its incarnation exactly when it is desired. -/
theorem get?_removeServers (h : HostsSound store) (hosts : List String) (host : String) :
    (store.removeServers hosts).hostIncarnations.get? host
      = if host ∈ hosts then store.hostIncarnations.get? host else none := by
  rw [StateStore.removeServers, Dict.get?_filterKeys]
  by_cases hdesired : host ∈ hosts
  · simp [hdesired]
  · by_cases hserved : host ∈ store.servers
    · simp [hdesired, hserved]
    · have hnone : store.hostIncarnations.get? host = none := by
        have hnot := mt (h.served host).mpr hserved
        simpa using hnot
      simp [hdesired, hserved, hnone]

/-- Removing servers keeps the hosts sound. -/
theorem HostsSound.removeServers (h : HostsSound store) (hosts : List String) :
    HostsSound (store.removeServers hosts) where
  served := fun host => by
    rw [get?_removeServers h, StateStore.removeServers, List.mem_filter, h.served]
    by_cases hdesired : host ∈ hosts <;> simp [hdesired]
  fresh := fun host n hget => by
    rw [get?_removeServers h] at hget
    split at hget
    · exact h.fresh host n hget
    · simp at hget

/-- Installing the hosts marks the announcements whose host is removed. -/
theorem Sound.setHosts (h : bulletin.Sound) (hosts : List String) :
    Sound { store := bulletin.store.setHosts hosts
            announced := markRemoved bulletin.announced (.setHosts hosts) } := by
  obtain ⟨hsound, hgrow, servers, incarnations, next, hframe⟩ :=
    addServers_spec hosts (h.hosts.removeServers hosts)
  have hstore : bulletin.store.setHosts hosts
      = { bulletin.store with
          servers := servers
          hostIncarnations := incarnations
          nextHostIncarnation := next
          incidents := bulletin.store.incidents.removeHosts hosts } := by
    rw [StateStore.setHosts, hframe]
    rfl
  rw [hframe] at hsound hgrow
  obtain ⟨fleet, hfleet⟩ := h.represents
  have hentries : (markRemoved bulletin.announced (.setHosts hosts)).map entryOf
      = bulletin.announced.map entryOf := by
    rw [markRemoved, List.map_map]
    rfl
  have hids : (markRemoved bulletin.announced (.setHosts hosts)).map (·.event.eventId)
      = bulletin.announced.map (·.event.eventId) := by
    rw [markRemoved, List.map_map]
    rfl
  rw [hstore]
  refine ⟨⟨hsound.served, hsound.fresh⟩, ⟨_, hfleet.removeHosts hosts⟩, ?_, ?_, ?_, ?_⟩
  · rw [hentries]
    exact h.shows
  · rw [hids]
    exact h.nodup
  · rintro announcement hmem
    obtain ⟨old, hold, rfl⟩ := List.mem_map.mp hmem
    exact ⟨(h.older old hold).1, lt_of_lt_of_le (h.older old hold).2 hgrow.le⟩
  · rintro announcement hmem
    obtain ⟨old, hold, rfl⟩ := List.mem_map.mp hmem
    have hiff := h.incarnation old hold
    have hremoved := get?_removeServers h.hosts hosts old.event.host
    have hkept := hgrow.kept old.event.host
    have hadded := hgrow.added old.event.host old.incarnation
    dsimp only at hkept hadded ⊢
    by_cases hdesired : old.event.host ∈ hosts
    · rw [if_pos hdesired] at hremoved
      cases hcurrent : bulletin.store.hostIncarnations.get? old.event.host with
      | some n =>
        rw [hremoved, hcurrent] at hkept
        rw [hkept rfl, ← hcurrent, hiff]
        simp [hdesired]
      | none =>
        -- The host was removed before and is added again.
        have hgone : old.hostRemoved = true := by
          rw [hcurrent] at hiff
          simpa using hiff
        constructor
        · intro hget
          have hnew := hadded (hremoved.trans hcurrent) hget
          exact absurd (h.older old hold).2 (not_lt.mpr hnew)
        · simp [hgone]
    · rw [if_neg hdesired] at hremoved
      constructor
      · intro hget
        have hnew := hadded hremoved hget
        exact absurd (h.older old hold).2 (not_lt.mpr hnew)
      · simp [hdesired]

/-! ### Samples -/

/-- Only the hosts, the tracker, the table and the capacity matter. -/
theorem Sound.congr (h : bulletin.Sound) (hservers : store.servers = bulletin.store.servers)
    (hincarnations : store.hostIncarnations = bulletin.store.hostIncarnations)
    (hnext : store.nextHostIncarnation = bulletin.store.nextHostIncarnation)
    (hincidents : store.incidents = bulletin.store.incidents)
    (hevents : store.notificationEvents = bulletin.store.notificationEvents)
    (hcapacity : store.notificationEventCapacity = bulletin.store.notificationEventCapacity) :
    Sound { store := store, announced := bulletin.announced } where
  hosts := ⟨by rw [hservers, hincarnations]; exact h.hosts.served,
    by rw [hincarnations, hnext]; exact h.hosts.fresh⟩
  represents := by rw [hincidents]; exact h.represents
  shows := by rw [hevents, hcapacity]; exact h.shows
  nodup := h.nodup
  older := by rw [hincidents, hnext]; exact h.older
  incarnation := by rw [hincarnations]; exact h.incarnation

/-- A tracker that took a sample in keeps the bulletin sound. -/
theorem Sound.advance (h : bulletin.Sound) {incidents : IncidentTracker}
    (hrepresents : ∃ fleet, incidents.Represents fleet)
    (hle : bulletin.store.incidents.log.nextEventId ≤ incidents.log.nextEventId) :
    Sound { store := { bulletin.store with incidents := incidents }
            announced := bulletin.announced } where
  hosts := ⟨h.hosts.served, h.hosts.fresh⟩
  represents := hrepresents
  shows := h.shows
  nodup := h.nodup
  older := fun announcement hmem =>
    ⟨lt_of_lt_of_le (h.older announcement hmem).1 hle, (h.older announcement hmem).2⟩
  incarnation := h.incarnation

/-- Events of one host are announced under the incarnation of the host. -/
theorem map_entryOf_announcements {host : String} {incarnation : ℕ}
    (hget : store.hostIncarnations.get? host = some incarnation) (events : List IncidentEvent)
    (hhost : ∀ event ∈ events, event.host = host) :
    (announcements store events).map entryOf
      = events.map (fun event => (event.eventId, incarnation)) := by
  rw [announcements, List.map_map]
  refine List.map_congr_left fun event hevent => ?_
  simp [entryOf, Dict.getD_eq, hhost event hevent, hget]

/-- Announcing the transitions of a sample keeps the bulletin sound. -/
theorem Sound.announce (h : bulletin.Sound) {incidents : IncidentTracker} {host observedAt : String}
    {incarnation : ℕ} {w : IncidentTracker.Locals}
    (hrepresents : ∃ fleet, incidents.Represents fleet) (hlog : incidents.log = w.log)
    (hextends : w.Extends bulletin.store.incidents.log host observedAt)
    (hget : bulletin.store.hostIncarnations.get? host = some incarnation)
    {events : List IncidentEvent} (hevents : events.Sublist w.created) :
    Sound
      { store := { bulletin.store with
          incidents := incidents
          notificationEvents := bulletin.store.notificationEvents.recordAll
            bulletin.store.notificationEventCapacity
            (events.map (fun event => (event.eventId, incarnation))) }
        announced := bulletin.announced ++ announcements bulletin.store events } := by
  have hhost : ∀ event ∈ events, event.host = host := fun event hmem =>
    (hextends.source event (hevents.subset hmem)).1
  have hentries := map_entryOf_announcements hget events hhost
  have hids : (announcements bulletin.store events).map (·.event.eventId)
      = events.map (·.eventId) := by
    rw [announcements, List.map_map]
    rfl
  have hrange : ∀ event ∈ events, bulletin.store.incidents.log.nextEventId ≤ event.eventId
      ∧ event.eventId < w.log.nextEventId := fun event hmem => by
    have hid := List.mem_map_of_mem (f := (·.eventId)) (hevents.subset hmem)
    rw [hextends.ids, List.mem_range'_1] at hid
    rw [hextends.nextEventId]
    exact hid
  have hnodup : ((bulletin.announced ++ announcements bulletin.store events).map
      (·.event.eventId)).Nodup := by
    rw [List.map_append, hids, List.nodup_append]
    refine ⟨h.nodup, ?_, fun old hold new hnew hsame => ?_⟩
    · refine List.Nodup.sublist (hevents.map _) ?_
      rw [hextends.ids]
      exact List.nodup_range'
    · obtain ⟨announcement, hannounced, rfl⟩ := List.mem_map.mp hold
      obtain ⟨event, hevent, rfl⟩ := List.mem_map.mp hnew
      have hold := (h.older announcement hannounced).1
      have hnew := (hrange event hevent).1
      omega
  refine ⟨⟨h.hosts.served, h.hosts.fresh⟩, hrepresents, ?_, hnodup, ?_, ?_⟩
  · rw [List.map_append, hentries]
    refine h.shows.recordAll _ ?_
    rw [← hentries, ← List.map_append, List.map_map]
    exact hnodup
  · intro announcement hmem
    rcases List.mem_append.mp hmem with hmem | hmem
    · have hold := h.older announcement hmem
      refine ⟨lt_of_lt_of_le hold.1 ?_, hold.2⟩
      show _ ≤ incidents.log.nextEventId
      rw [hlog, hextends.nextEventId]
      exact Nat.le_add_right _ _
    · obtain ⟨event, hevent, rfl⟩ := List.mem_map.mp hmem
      refine ⟨?_, ?_⟩
      · show event.eventId < incidents.log.nextEventId
        rw [hlog]
        exact (hrange event hevent).2
      · show bulletin.store.hostIncarnations.getD event.host 0 < _
        rw [Dict.getD_eq, hhost event hevent, hget]
        exact h.hosts.fresh host incarnation hget
  · intro announcement hmem
    rcases List.mem_append.mp hmem with hmem | hmem
    · exact h.incarnation announcement hmem
    · obtain ⟨event, hevent, rfl⟩ := List.mem_map.mp hmem
      simp [Dict.getD_eq, hhost event hevent, hget]

/-- One operation does not raise, keeps the bulletin sound and keeps the capacity. -/
theorem Sound.step (h : bulletin.Sound) (epochSeconds : String → Option ℚ)
    (operation : StateStore.Operation) :
    ∃ bulletin', bulletin.step epochSeconds operation = .ok bulletin' ∧ bulletin'.Sound
      ∧ bulletin'.store.notificationEventCapacity = bulletin.store.notificationEventCapacity := by
  cases operation with
  | setHosts hosts =>
    refine ⟨_, rfl, ?_, ?_⟩
    · simp only [announcements, List.map_nil, List.append_nil]
      exact h.setHosts hosts
    · obtain ⟨-, -, servers, incarnations, next, hframe⟩ :=
        addServers_spec hosts (h.hosts.removeServers hosts)
      rw [StateStore.setHosts, hframe]
      rfl
  | setPolicy policy =>
    refine ⟨_, rfl, ?_, rfl⟩
    simp only [announcements, List.map_nil, List.append_nil]
    exact h.congr rfl rfl rfl rfl rfl rfl
  | setMaintenanceWindows windows =>
    refine ⟨_, rfl, ?_, rfl⟩
    simp only [announcements, List.map_nil, List.append_nil]
    exact h.congr rfl rfl rfl rfl rfl rfl
  | setIncidentActions actions =>
    refine ⟨_, rfl, ?_, ?_⟩
    · simp only [announcements, List.map_nil, List.append_nil]
      unfold StateStore.setIncidentActions
      dsimp only
      split
      · exact h.congr rfl rfl rfl rfl rfl rfl
      · exact h.congr rfl rfl rfl rfl rfl rfl
    · unfold StateStore.setIncidentActions
      dsimp only
      split
      · rfl
      · rfl
  | apply setOrder clock result expectedIncarnation =>
    obtain ⟨fleet, hfleet⟩ := h.represents
    rcases @StateStore.apply_cases epochSeconds _ _ hfleet
        (fun host => (h.hosts.served host).mp) setOrder clock result expectedIncarnation with
      ⟨-, hignored⟩ | ⟨w, incarnation, candidates, bindings, updated, -, hrepresents, -, hextends,
        hget, hupdated, -, happly⟩
    · refine ⟨bulletin, ?_, h, rfl⟩
      rw [Bulletin.step, StateStore.step, hignored]
      simp [announcements, markRemoved]
    · refine ⟨_, by rw [Bulletin.step, StateStore.step, happly]; rfl, ?_, ?_⟩
      · by_cases hnone : w.created.filter (updated.isAnnounced clock) = []
        · rw [if_pos hnone, hnone, announcements, List.map_nil, List.append_nil, hupdated]
          refine (h.advance ⟨_, hrepresents⟩ ?_).congr rfl rfl rfl rfl rfl rfl
          show _ ≤ w.log.nextEventId
          rw [hextends.nextEventId]
          exact Nat.le_add_right _ _
        · rw [if_neg hnone]
          have hannounced := h.announce ⟨_, hrepresents⟩ rfl hextends hget
            (List.filter_sublist (p := updated.isAnnounced clock) (l := w.created))
          subst hupdated
          exact hannounced.congr rfl rfl rfl rfl rfl rfl
      · split <;> rw [hupdated]

/-- A run does not raise, keeps the bulletin sound and keeps the capacity. -/
theorem Sound.run (h : bulletin.Sound) (epochSeconds : String → Option ℚ)
    (operations : List StateStore.Operation) :
    ∃ bulletin', bulletin.run epochSeconds operations = .ok bulletin' ∧ bulletin'.Sound
      ∧ bulletin'.store.notificationEventCapacity = bulletin.store.notificationEventCapacity := by
  induction operations generalizing bulletin with
  | nil => exact ⟨bulletin, rfl, h, rfl⟩
  | cons operation rest ih =>
    obtain ⟨next, hnext, hsound, hcapacity⟩ := h.step epochSeconds operation
    obtain ⟨final, hfinal, hsound', hcapacity'⟩ := ih hsound
    refine ⟨final, ?_, hsound', hcapacity'.trans hcapacity⟩
    rw [Bulletin.run, List.foldlM_cons, hnext]
    exact hfinal

/-! ### Delivery -/

/-- An attempt ends in suppression exactly when the store says that the event is not worth
delivering. -/
theorem attempt_eq_suppressed_iff (store : StateStore) (announcement : Announcement)
    (maintenanceAt silenceAt : ℚ) (maxAttempts : ℕ) (result : DeliveryResult) :
    attempt store announcement maintenanceAt silenceAt (maxAttempts + 1) result = .suppressed
      ↔ store.notificationEventActionable maintenanceAt silenceAt announcement.event
        = false := by
  have hconstant : ∀ (remaining attempt : ℕ) (code : String) (actionable : Bool),
      actionable = true →
      attemptDelivery { event := announcement.event } (fun _ => ⟨false, actionable, result⟩)
        remaining attempt code ≠ .suppressed := by
    rintro remaining attempt code actionable rfl
    induction remaining generalizing attempt code with
    | zero => simp [attemptDelivery]
    | succ remaining ih =>
      simp only [attemptDelivery, Bool.or_true, Bool.not_true, Bool.false_eq_true, if_false]
      split
      · simp
      · split
        · exact ih _ _
        · simp
  cases hactionable :
      store.notificationEventActionable maintenanceAt silenceAt announcement.event with
  | true =>
    rw [attempt, hactionable]
    simpa using hconstant (maxAttempts + 1) 0 "delivery_failed" true rfl
  | false =>
    rw [attempt, hactionable]
    simp [attemptDelivery]

/-- An announcement of a sound bulletin is worth delivering exactly when the table still holds
it and no stated reason speaks against it. -/
theorem Sound.actionable_iff (h : bulletin.Sound) {before after} {announcement : Announcement}
    (hsplit : bulletin.announced = before ++ announcement :: after)
    (hstate : announcement.event.state ≠ .resolved) (maintenanceAt silenceAt : ℚ) :
    bulletin.store.notificationEventActionable maintenanceAt silenceAt announcement.event = true
      ↔ after.length < bulletin.store.notificationEventCapacity
        ∧ ¬ HasReason bulletin.store announcement maintenanceAt silenceAt := by
  have hnodup : ((before.map entryOf ++ entryOf announcement :: after.map entryOf).map
      Prod.fst).Nodup := by
    have hids := h.nodup
    rw [hsplit] at hids
    simpa [entryOf, Function.comp_def] using hids
  have hget : bulletin.store.notificationEvents.table.get? announcement.event.eventId
      = if after.length < bulletin.store.notificationEventCapacity
        then some announcement.incarnation else none := by
    rw [h.shows.get?_eq, hsplit, List.map_append, List.map_cons]
    simpa [entryOf] using Recent.lookup_rtake bulletin.store.notificationEventCapacity
      (before.map entryOf) (after.map entryOf) (entryOf announcement) hnodup
  have hincarnation := h.incarnation announcement (by rw [hsplit]; simp)
  rw [StateStore.notificationEventActionable, if_neg hstate, hget]
  by_cases hroom : after.length < bulletin.store.notificationEventCapacity
  · simp only [if_pos hroom, Bool.and_eq_true, decide_eq_true_eq, hincarnation, HasReason]
    simp [hroom, and_assoc]
  · simp [hroom]

end Bulletin

section
open Bulletin

/-- **Why a notification is dropped.** In every run, an announcement other than a resolution
that a worker attempts to deliver is dropped for a stated reason, or not dropped at all, if and
only if fewer notification events than the table holds were announced since, or a stated reason
is at hand. -/
theorem dropped_for_stated_reason_iff (epochSeconds : String → Option ℚ) (config : StartConfig)
    (operations : List StateStore.Operation) :
    ∃ bulletin, Bulletin.run epochSeconds { store := StateStore.start config } operations
        = .ok bulletin
      ∧ ∀ before announcement after, bulletin.announced = before ++ announcement :: after →
        announcement.event.state ≠ .resolved →
        ∀ (maintenanceAt silenceAt : ℚ) (maxAttempts : ℕ) (result : DeliveryResult),
          (attempt bulletin.store announcement maintenanceAt silenceAt (maxAttempts + 1) result
              = .suppressed →
            HasReason bulletin.store announcement maintenanceAt silenceAt)
          ↔ after.length < max 1024 (config.incidentHistoryPoints * 4)
            ∨ HasReason bulletin.store announcement maintenanceAt silenceAt := by
  obtain ⟨bulletin, hrun, hsound, hcapacity⟩ :=
    (sound_start config).run epochSeconds operations
  refine ⟨bulletin, hrun, ?_⟩
  intro before announcement after hsplit hstate maintenanceAt silenceAt maxAttempts result
  have hactionable := hsound.actionable_iff hsplit hstate maintenanceAt silenceAt
  rw [hcapacity] at hactionable
  rw [attempt_eq_suppressed_iff, ← Bool.not_eq_true, hactionable]
  show _ ↔ after.length < (StateStore.start config).notificationEventCapacity ∨ _
  by_cases hreason : HasReason bulletin.store announcement maintenanceAt silenceAt
  · simp [hreason]
  · simp [hreason]

end

open Bulletin

/-! ### A backlog that outlives the table -/

section Backlog

variable {epochSeconds : String → Option ℚ} {bulletin : Bulletin} {fleet : Fleet}

/-- Nothing is laid over the incidents of the served hosts. -/
private structure Plain (store : StateStore) (policy : IncidentPolicy) (hosts : List String) :
    Prop where
  servers : store.servers = hosts
  policy : store.incidentPolicy = policy
  windows : store.maintenanceWindows = ∅
  actions : store.incidentActions = ∅

/-- Without windows and actions a transition is announced. -/
private theorem exists_announcement {policy : IncidentPolicy} {hosts : List String}
    (h : bulletin.Sound) (hfleet : bulletin.store.incidents.Represents fleet)
    (hplain : Plain bulletin.store policy hosts) (setOrder : SetOrder) (clock : ClockReadings)
    (result : ProbeResult) (hhost : result.host ∈ hosts) (key : String)
    (transition : Transition)
    (hstep : ((fleet result.host key).step epochSeconds (result.reading policy key)).2
      = some transition) :
    ∃ bulletin' before event after,
      bulletin.step epochSeconds (.apply setOrder clock result none) = .ok bulletin'
      ∧ bulletin'.Sound ∧ Plain bulletin'.store policy hosts
      ∧ bulletin'.store.incidents.Represents (fleet.step epochSeconds policy result)
      ∧ bulletin'.announced = bulletin.announced
          ++ announcements bulletin'.store (before ++ event :: after)
      ∧ event.host = result.host ∧ event.condition.key = key
      ∧ event.state = transition.1 := by
  obtain ⟨bulletin', hbulletin, hsound, -⟩ :=
    h.step epochSeconds (.apply setOrder clock result none)
  rcases @StateStore.apply_cases epochSeconds _ _ hfleet
      (fun host => (h.hosts.served host).mp) setOrder clock result none with
    ⟨hignored, -⟩ | ⟨w, incarnation, candidates, bindings, updated, -, hrepresents, htransitions,
      hextends, -, hupdated, -, happly⟩
  · rw [hplain.servers] at hignored
    simp [hhost] at hignored
  · rw [hplain.policy] at hrepresents htransitions
    have hall : w.created.filter (updated.isAnnounced clock) = w.created := by
      rw [List.filter_eq_self]
      intro event hevent
      simp [hupdated, StateStore.isAnnounced, StateStore.underMaintenance,
        StateStore.conditionIsSilenced, StateStore.activeAction, hplain.windows, hplain.actions]
    have hcreated : ∃ event ∈ w.created, event.condition.key = key
        ∧ event.state = transition.1 := by
      have hmem : transition ∈ transitionsOf w.created key := by
        rw [htransitions, hstep]
        simp
      obtain ⟨event, hevent, rfl⟩ := List.mem_map.mp hmem
      rw [List.mem_filter, decide_eq_true_eq] at hevent
      exact ⟨event, hevent.1, hevent.2, rfl⟩
    obtain ⟨event, hevent, hkey, hstate⟩ := hcreated
    obtain ⟨before, after, hsplit⟩ := List.append_of_mem hevent
    have hsome : w.created ≠ [] := List.ne_nil_of_mem hevent
    rw [hall, if_neg hsome] at happly
    rw [Bulletin.step, StateStore.step, happly] at hbulletin
    obtain rfl := Except.ok.inj hbulletin
    refine ⟨_, before, event, after, by rw [Bulletin.step, StateStore.step, happly]; rfl, hsound,
      ?_, ?_, ?_, (hextends.source event hevent).1, hkey, hstate⟩
    · rw [hupdated]
      exact ⟨hplain.servers, hplain.policy, hplain.windows, hplain.actions⟩
    · rw [hupdated]
      exact hrepresents
    · rw [← hsplit]
      rfl

end Backlog

/-- One failed cycle opens the connectivity condition, and one good cycle resolves it. -/
private def jumpyPolicy : ThresholdIncidentPolicy where
  thresholdValues := ∅
  expectedGpuCounts := ∅
  incidents := { recoveryCycles := 1 }
  hostOverrides := ∅
  groupOverrides := ∅
  hostGroups := ∅

/-- A probe of a host. -/
private def probe (host : String) (status : ProbeStatus) : ProbeResult where
  host := host
  status := status
  latencyMs := 0
  observedAt := "2026-01-01T00:00:00Z"

/-- The sample of a probe, taken in at once. -/
private def sampleOf (host : String) (status : ProbeStatus) : StateStore.Operation :=
  .apply ⟨id, List.Perm.refl⟩ ⟨1767225600, 1767225600, fun _ => 1767225600⟩
    (probe host status) none

/-- The parser of the one timestamp that the probes carry. -/
private def secondsOf (_ : String) : Option ℚ := some 1767225600

/-- A probe of a host moves its conditions. -/
private theorem step_probe (policy : IncidentPolicy) (fleet : Fleet) (host : String)
    (status : ProbeStatus) (key : String) :
    fleet.step secondsOf policy (probe host status) host key
      = ((fleet host key).step secondsOf ((probe host status).reading policy key)).1 :=
  if_pos rfl

/-- The connectivity condition of a failed probe. -/
private def unreachableHost (host : String) : IncidentCondition :=
  jumpyPolicy.connectivityCondition (probe host .unreachable)

/-- A failed probe opens the condition of a host. -/
private theorem step_failed (host : String) :
    Lifecycle.step secondsOf (.inactive none)
        ((probe host .unreachable).reading jumpyPolicy.toIncidentPolicy "connectivity")
      = (.active (unreachableHost host) "2026-01-01T00:00:00Z" "2026-01-01T00:00:00Z" none none,
        some (.opened, unreachableHost host)) := by
  have hobserved : ((probe host .unreachable).reading jumpyPolicy.toIncidentPolicy
      "connectivity").observed = some (unreachableHost host) := rfl
  simp only [Lifecycle.step, hobserved]
  rfl

/-- A good probe resolves it. -/
private theorem step_healthy (host : String) :
    Lifecycle.step secondsOf
        (.active (unreachableHost host) "2026-01-01T00:00:00Z" "2026-01-01T00:00:00Z" none none)
        ((probe host .online).reading jumpyPolicy.toIncidentPolicy "connectivity")
      = (.inactive none, some (.resolved, unreachableHost host)) := by
  have hobserved : ((probe host .online).reading jumpyPolicy.toIncidentPolicy
      "connectivity").observed = none := rfl
  simp only [Lifecycle.step, hobserved]
  rfl

/-- The first host is down, the second one is healthy, and the announcement of the first one's
condition has been followed by so many others. -/
private structure Backlogged (bulletin : Bulletin) (count : ℕ) : Prop where
  sound : bulletin.Sound
  plain : Plain bulletin.store jumpyPolicy.toIncidentPolicy ["gpu-01", "gpu-02"]
  fleet : ∃ fleet, bulletin.store.incidents.Represents fleet
    ∧ (fleet "gpu-01" "connectivity").condition.isSome
    ∧ fleet "gpu-02" "connectivity" = .inactive none
  announced : ∃ before announcement after,
    bulletin.announced = before ++ announcement :: after
    ∧ announcement.event.host = "gpu-01" ∧ announcement.event.condition.key = "connectivity"
    ∧ announcement.event.state = .opened ∧ announcement.hostRemoved = false
    ∧ count ≤ after.length

/-- The second host fails and recovers. -/
private def flap : List StateStore.Operation :=
  [sampleOf "gpu-02" .unreachable, sampleOf "gpu-02" .online]

/-- A failure and a recovery announce two more transitions. -/
private theorem Backlogged.flap {count : ℕ} (h : Backlogged bulletin count) :
    ∃ bulletin', bulletin.run secondsOf flap = .ok bulletin'
      ∧ Backlogged bulletin' (count + 2) := by
  obtain ⟨fleet, hfleet, hfirst, hsecond⟩ := h.fleet
  obtain ⟨before, announcement, after, hannounced, hhost, hkey, hstate, hremoved, hcount⟩ :=
    h.announced
  obtain ⟨failed, b₁, e₁, a₁, hrun₁, hsound₁, hplain₁, hfleet₁, hannounced₁, -⟩ :=
    @exists_announcement secondsOf _ _ _ _ h.sound hfleet h.plain ⟨id, List.Perm.refl⟩
      ⟨1767225600, 1767225600, fun _ => 1767225600⟩ (probe "gpu-02" .unreachable) (by decide)
      "connectivity" (.opened, unreachableHost "gpu-02") (by
        rw [show (probe "gpu-02" .unreachable).host = "gpu-02" from rfl, hsecond, step_failed])
  have hmiddle : fleet.step secondsOf jumpyPolicy.toIncidentPolicy
      (probe "gpu-02" .unreachable) "gpu-02" "connectivity"
      = .active (unreachableHost "gpu-02") "2026-01-01T00:00:00Z" "2026-01-01T00:00:00Z"
        none none := by
    rw [step_probe, hsecond, step_failed]
  obtain ⟨healthy, b₂, e₂, a₂, hrun₂, hsound₂, hplain₂, hfleet₂, hannounced₂, -⟩ :=
    @exists_announcement secondsOf _ _ _ _ hsound₁ hfleet₁ hplain₁ ⟨id, List.Perm.refl⟩
      ⟨1767225600, 1767225600, fun _ => 1767225600⟩ (probe "gpu-02" .online) (by decide)
      "connectivity" (.resolved, unreachableHost "gpu-02") (by
        rw [show (probe "gpu-02" .online).host = "gpu-02" from rfl, hmiddle, step_healthy])
  refine ⟨healthy, ?_, hsound₂, hplain₂, ⟨_, hfleet₂, ?_, ?_⟩,
    before, announcement, after ++ announcements failed.store (b₁ ++ e₁ :: a₁)
      ++ announcements healthy.store (b₂ ++ e₂ :: a₂), ?_, hhost, hkey, hstate, hremoved, ?_⟩
  · show ([sampleOf "gpu-02" .unreachable, sampleOf "gpu-02" .online].foldlM
      (Bulletin.step secondsOf) bulletin) = _
    rw [List.foldlM_cons, sampleOf, hrun₁]
    show ([sampleOf "gpu-02" .online].foldlM (Bulletin.step secondsOf) failed) = _
    rw [List.foldlM_cons, sampleOf, hrun₂]
    rfl
  · rw [Fleet.step, if_neg (by decide), Fleet.step, if_neg (by decide)]
    exact hfirst
  · rw [step_probe, hmiddle, step_healthy]
  · rw [hannounced₂, hannounced₁, hannounced]
    simp
  · simp only [announcements, List.length_append, List.length_map, List.length_cons]
    omega

/-- Failures and recoveries, again and again. -/
private theorem Backlogged.flaps {count : ℕ} (h : Backlogged bulletin count) (times : ℕ) :
    ∃ bulletin', bulletin.run secondsOf (List.replicate times Mocop.flap).flatten = .ok bulletin'
      ∧ Backlogged bulletin' (count + 2 * times) := by
  induction times generalizing bulletin count with
  | zero => exact ⟨bulletin, rfl, h⟩
  | succ times ih =>
    obtain ⟨next, hnext, hbacklog⟩ := h.flap
    obtain ⟨final, hfinal, hbacklog'⟩ := ih hbacklog
    refine ⟨final, ?_, ?_⟩
    · rw [List.replicate_succ, List.flatten_cons, Bulletin.run, List.foldlM_append]
      rw [Bulletin.run] at hnext
      rw [hnext]
      exact hfinal
    · rwa [show count + 2 * (times + 1) = count + 2 + 2 * times by omega]

/-- A store without restored incidents. -/
private def freshStart : StartConfig where
  policy := jumpyPolicy.toIncidentPolicy
  incidentHistoryPoints := 100
  historicalEvents := []
  openIncidents := []
  maintenanceWindows := []
  incidentActions := []

/-- The first host fails, and then the second one fails and recovers 512 times. -/
private def backlog : List StateStore.Operation :=
  [.setHosts ["gpu-01", "gpu-02"], sampleOf "gpu-01" .unreachable]
    ++ (List.replicate 512 flap).flatten

/-- The first host's failure is announced. -/
private theorem backlogged_start :
    ∃ bulletin, Bulletin.run secondsOf { store := StateStore.start freshStart }
        [.setHosts ["gpu-01", "gpu-02"], sampleOf "gpu-01" .unreachable] = .ok bulletin
      ∧ Backlogged bulletin 0 := by
  have hsound := (sound_start freshStart).setHosts ["gpu-01", "gpu-02"]
  have hfleet : ∃ fleet, ((StateStore.start freshStart).setHosts
      ["gpu-01", "gpu-02"]).incidents.Represents fleet
      ∧ ∀ host key, fleet host key = .inactive none := by
    refine ⟨_, (IncidentTracker.init_represents freshStart.policy
      freshStart.incidentHistoryPoints [] []).removeHosts ["gpu-01", "gpu-02"], fun host key => ?_⟩
    split
    · rfl
    · rfl
  obtain ⟨fleet, hrepresents, hinactive⟩ := hfleet
  have hplain : Plain ((StateStore.start freshStart).setHosts ["gpu-01", "gpu-02"])
      jumpyPolicy.toIncidentPolicy ["gpu-01", "gpu-02"] :=
    ⟨by decide, rfl, rfl, rfl⟩
  obtain ⟨failed, before, event, after, hrun, hsound', hplain', hfleet', hannounced, hhost, hkey,
      hstate⟩ :=
    @exists_announcement secondsOf _ _ _ _ hsound hrepresents hplain ⟨id, List.Perm.refl⟩
      ⟨1767225600, 1767225600, fun _ => 1767225600⟩ (probe "gpu-01" .unreachable) (by decide)
      "connectivity" (.opened, unreachableHost "gpu-01") (by
        rw [hinactive, step_failed])
  refine ⟨failed, ?_, hsound', hplain', ⟨_, hfleet', ?_, ?_⟩,
    announcements failed.store before,
    { event := event, incarnation := failed.store.hostIncarnations.getD event.host 0 },
    announcements failed.store after, ?_, hhost, hkey, hstate, rfl, Nat.zero_le _⟩
  · show (sampleOf "gpu-01" .unreachable :: []).foldlM (Bulletin.step secondsOf)
      { store := (StateStore.start freshStart).setHosts ["gpu-01", "gpu-02"] } = _
    rw [List.foldlM_cons, sampleOf]
    exact (congrArg (· >>= _) hrun).trans rfl
  · rw [step_probe, hinactive, step_failed]
    rfl
  · rw [Fleet.step, if_neg (by decide), hinactive]
  · rw [hannounced]
    simp [announcements, markRemoved]

/-- The announcement of the first host's failure is dropped at an attempt after the backlog,
for no stated reason: the host is still down. -/
theorem backlog_drops :
    ∃ bulletin before announcement after,
      Bulletin.run secondsOf { store := StateStore.start freshStart } backlog = .ok bulletin
      ∧ bulletin.announced = before ++ announcement :: after
      ∧ announcement.event.state = .opened
      ∧ attempt bulletin.store announcement 1767225600 1767225600 3 ⟨true, false, none⟩
          = .suppressed
      ∧ ¬ HasReason bulletin.store announcement 1767225600 1767225600 := by
  obtain ⟨started, hstart, hbacklogged⟩ := backlogged_start
  obtain ⟨bulletin, hflaps, h⟩ := hbacklogged.flaps 512
  have hrun : Bulletin.run secondsOf { store := StateStore.start freshStart } backlog
      = .ok bulletin := by
    rw [Bulletin.run] at hstart hflaps
    rw [Bulletin.run, backlog, List.foldlM_append, hstart]
    exact hflaps
  obtain ⟨before, announcement, after, hannounced, hhost, hkey, hstate, hremoved, hcount⟩ :=
    h.announced
  obtain ⟨fleet, hfleet, hfirst, -⟩ := h.fleet
  have hactive : bulletin.store.incidents.hasActiveCondition "gpu-01" "connectivity" = true := by
    rw [IncidentTracker.hasActiveCondition, Dict.contains_eq, hfleet.previous_eq]
    exact hfirst
  have hcapacity : bulletin.store.notificationEventCapacity = 1024 := by
    obtain ⟨same, hsame, -, hcapacity⟩ := (sound_start freshStart).run secondsOf backlog
    rw [hrun] at hsame
    obtain rfl := Except.ok.inj hsame
    exact hcapacity
  refine ⟨bulletin, before, announcement, after, hrun, hannounced, hstate, ?_, ?_⟩
  · rw [attempt_eq_suppressed_iff, ← Bool.not_eq_true,
      h.sound.actionable_iff hannounced (by rw [hstate]; decide), hcapacity]
    omega
  · simp [HasReason, hremoved, hhost, hkey, hactive, StateStore.underMaintenance,
      StateStore.conditionIsSilenced, StateStore.activeAction, h.plain.windows, h.plain.actions]

end Mocop
