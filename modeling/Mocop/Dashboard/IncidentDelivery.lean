import Mocop.Dashboard.IncidentSync
import Mocop.Lib.Runs
import Mocop.Service.Growth

/-!
# `Mocop.Dashboard.IncidentDelivery`: the server, the network and the dashboard

The server publishes snapshots while it works, and it answers the requests of a dashboard. The
network delivers what it was given in any order, late, twice or never. `Reachable` are the states
that the two get to within one start of the server.
-/

set_option autoImplicit false

namespace Mocop

namespace SnapshotStore

/-- The incident feed has the revision of the store. -/
theorem grows_incidents (store : SnapshotStore) (clock : FeedClock) :
    store.Grows (store.incidents clock).1 :=
  grows_refreshClock store clock.maintenance clock.actions

end SnapshotStore

namespace IncidentSync

/-! ### The system -/

/-- The server, what it gave the network, and the page. Three fields are bookkeeping that no part
of the system reads: the revision of the server when a request was sent, the revision when the
last action was saved, and the version of the last saved setting with the snapshot shown behind
it. -/
structure System where
  store : SnapshotStore
  published : List Projection := []
  answers : List (ℕ × Feed) := []
  page : Page := {}
  sentAt : ℕ → ℕ := fun _ => 0
  savedAt : ℕ := 0
  settings : ℕ × Option PageSnapshot := (0, none)

/-- What can happen: the server does something, it answers a request, or the page moves. -/
inductive Happening where
  | operate (operation : SnapshotStore.Operation)
  | serve (id : ℕ) (clock : FeedClock)
  | page (event : Event)

namespace System

/-- The start of a server and of a page. -/
def start (config : SnapshotConfig) (adapterStatuses : String × String)
    (maintenanceAt actionAt : ℚ) : System where
  store := SnapshotStore.start config adapterStatuses maintenanceAt actionAt

/-- The page moves. -/
def moved (system : System) (event : Event) (page : Page) : System where
  store := system.store
  published := system.published
  answers := system.answers
  page := page
  sentAt := fun id =>
    if id ≤ system.page.view.incidentRequest then system.sentAt id
    else system.store.incidentRevision
  savedAt := match event with
    | .actionSaved => system.store.incidentRevision
    | _ => system.savedAt
  settings := match event with
    | .settingsSaved _ version _ => (version, page.view.snapshot)
    | _ => system.settings

/-- One step of the system. -/
def step (epochSeconds : String → Option ℚ) (system : System) : Happening → Option System
  | .operate operation =>
    (system.store.step epochSeconds operation).toOption.map fun (store, returned) =>
      { system with store := store, published := system.published ++ returned.toList }
  | .serve id clock =>
    if id ∈ system.page.requests.map Request.id then some { system with
      store := (system.store.incidents clock).1
      answers := system.answers ++ [(id, (system.store.incidents clock).2)] }
    else none
  | .page event => (system.page.step event).map (system.moved event)

/-- What arrives was given to the network, and a setting was saved by this server. -/
def Occurs (startedAt : String) (system : System) : Happening → Prop
  | .page (.snapshot snapshot) =>
    snapshot.startedAt = startedAt ∧ snapshot.projection ∈ system.published
  | .page (.settingsSaved saved version _) => saved = startedAt ∧ version ≤ system.store.version
  | .page (.settle id (some feed)) => (id, feed) ∈ system.answers
  | _ => True

variable {startedAt : String} {system next : System}

/-- What every state keeps. -/
structure Kept (startedAt : String) (system : System) : Prop where
  sound : system.page.Sound
  attends : system.page.Attends
  keyed : system.store.CacheKeyed
  published : ∀ projection ∈ system.published,
    projection.incidentVersion ≤ system.store.incidentRevision
  shown : ∀ snapshot, system.page.view.snapshot = some snapshot →
    snapshot.startedAt = startedAt
      ∧ snapshot.projection.incidentVersion ≤ system.store.incidentRevision
  sent : ∀ request ∈ system.page.requests, request.target ≤ system.sentAt request.id
  sentAt : ∀ id, system.sentAt id ≤ system.store.incidentRevision
  answers : ∀ answer ∈ system.answers, answer.1 ≤ system.page.view.incidentRequest
    ∧ system.sentAt answer.1 ≤ answer.2.version
    ∧ answer.2.version ≤ system.store.incidentRevision
  incidents : ∀ feed, system.page.view.incidents = some feed →
    feed.version ≤ system.store.incidentRevision
  savedAt : system.savedAt ≤ system.store.incidentRevision
  /-- The awaited request was sent after the last action and after the shown incidents. -/
  awaited : ∀ request ∈ system.page.requests,
    request.id = system.page.view.incidentRequest → system.savedAt ≤ system.sentAt request.id
      ∧ ∀ feed, system.page.view.incidents = some feed → feed.version ≤ system.sentAt request.id
  current : system.page.view.incidentVersion = -1
    ∨ (system.savedAt : ℤ) ≤ system.page.view.incidentVersion
  settings : (system.page.view.snapshot = system.settings.2
      ∧ (system.settings.1 = 0
        ∨ system.page.view.cadenceSnapshotFloor = some (startedAt, system.settings.1)))
    ∨ ∃ shown, system.page.view.snapshot = some shown
      ∧ system.settings.1 ≤ shown.projection.version

theorem kept_start (startedAt : String) (config : SnapshotConfig)
    (adapterStatuses : String × String) (maintenanceAt actionAt : ℚ) :
    Kept startedAt (start config adapterStatuses maintenanceAt actionAt) where
  sound := Page.sound_empty
  attends := .inr (.inr fun _ h => by cases h)
  keyed := fun _ _ h => by cases h
  published := fun _ h => by cases h
  shown := fun _ h => by cases h
  sent := fun _ h => by cases h
  sentAt := fun _ => Nat.zero_le _
  answers := fun _ h => by cases h
  incidents := fun _ h => by cases h
  savedAt := Nat.zero_le _
  awaited := fun _ h => by cases h
  current := .inl rfl
  settings := .inl ⟨rfl, .inl rfl⟩

/-- The server goes on, and it gives the network a snapshot or an answer. -/
theorem Kept.grow (h : Kept startedAt system) {store : SnapshotStore}
    (hgrows : system.store.Grows store) (published : List Projection)
    (answers : List (ℕ × Feed))
    (hpublished : ∀ projection ∈ published,
      projection.incidentVersion ≤ store.incidentRevision)
    (hanswers : ∀ answer ∈ answers, answer.1 ≤ system.page.view.incidentRequest
      ∧ answer.2.version = store.incidentRevision) :
    Kept startedAt { system with
      store := store
      published := system.published ++ published
      answers := system.answers ++ answers } where
  sound := h.sound
  attends := h.attends
  keyed := hgrows.keyed h.keyed
  published := fun projection hmem => (List.mem_append.mp hmem).elim
    (fun hold => (h.published projection hold).trans hgrows.revision) (hpublished projection)
  shown := fun snapshot hsnapshot => (h.shown snapshot hsnapshot).imp_right
    (·.trans hgrows.revision)
  sent := h.sent
  sentAt := fun id => (h.sentAt id).trans hgrows.revision
  answers := fun answer hmem => by
    rcases List.mem_append.mp hmem with hold | hnew
    · obtain ⟨hid, hsent, hversion⟩ := h.answers answer hold
      exact ⟨hid, hsent, hversion.trans hgrows.revision⟩
    · obtain ⟨hid, hversion⟩ := hanswers answer hnew
      exact ⟨hid, hversion ▸ (h.sentAt answer.1).trans hgrows.revision, hversion.le⟩
  incidents := fun feed hfeed => (h.incidents feed hfeed).trans hgrows.revision
  savedAt := h.savedAt.trans hgrows.revision
  awaited := h.awaited
  current := h.current
  settings := h.settings

/-! ### The page moves -/

section Moved

variable {page : Page} {event : Event}

/-- The answers that arrive are not older than what their requests were sent for. -/
theorem Kept.fresh (h : Kept startedAt system)
    (hoccurs : system.Occurs startedAt (.page event)) : system.page.Fresh event := by
  cases event with
  | settle id answer =>
    cases answer with
    | none => trivial
    | some feed =>
      rintro request hmem rfl
      exact (h.sent request hmem).trans (h.answers _ hoccurs).2.1
  | _ => trivial

theorem sentAt_moved {id : ℕ} (h : id ≤ system.page.view.incidentRequest) :
    (system.moved event page).sentAt id = system.sentAt id := if_pos h

theorem sentAt_moved_new {id : ℕ} (h : system.page.view.incidentRequest < id) :
    (system.moved event page).sentAt id = system.store.incidentRevision := if_neg (by omega)

theorem savedAt_moved (h : event ≠ .actionSaved) :
    (system.moved event page).savedAt = system.savedAt := by
  cases event with
  | actionSaved => exact absurd rfl h
  | _ => rfl

theorem settings_moved (h : ∀ saved version cadence, event ≠ .settingsSaved saved version cadence) :
    (system.moved event page).settings = system.settings := by
  cases event with
  | settingsSaved saved version cadence => exact absurd rfl (h saved version cadence)
  | _ => rfl

/-- The shown snapshot is of this server, with a revision that it has come to. -/
theorem Kept.shown_moved (h : Kept startedAt system)
    (hoccurs : system.Occurs startedAt (.page event)) (hstep : system.page.step event = some page) :
    ∀ snapshot, page.view.snapshot = some snapshot → snapshot.startedAt = startedAt
      ∧ snapshot.projection.incidentVersion ≤ system.store.incidentRevision := by
  intro snapshot hsnapshot
  cases h.sound.takes_step hstep with
  | arrived haccepted hkept hfloor =>
    obtain ⟨floor, rfl⟩ := Page.acceptSnapshot_cases haccepted
    rw [hkept] at hsnapshot
    dsimp only at hsnapshot
    split at hsnapshot
    · obtain rfl := Option.some.inj hsnapshot
      exact ⟨hoccurs.1, h.published _ hoccurs.2⟩
    · exact h.shown snapshot hsnapshot
  | @saved saved _ cadence hkept hfloor =>
    obtain ⟨shown, hshown, rfl⟩ := Option.map_eq_some_iff.mp (hkept.symm.trans hsnapshot)
    obtain ⟨hstarted, -, hversion⟩ := shown.withCadence_numbers saved cadence
    rw [hstarted, hversion]
    exact h.shown shown hshown
  | same hkept hfloor hother => exact h.shown snapshot (hkept ▸ hsnapshot)

/-- What is shown is not replaced by something older: neither the snapshot nor the incidents. -/
structure Ahead (page later : Page) : Prop where
  snapshot : ∀ shown, page.view.snapshot = some shown → ∃ snapshot,
    later.view.snapshot = some snapshot ∧ shown.projection.version ≤ snapshot.projection.version
  incidents : ∀ feed, page.view.incidents = some feed → ∃ incidents,
    later.view.incidents = some incidents ∧ feed.version ≤ incidents.version

theorem Ahead.refl (page : Page) : Ahead page page :=
  ⟨fun shown h => ⟨shown, h, le_rfl⟩, fun feed h => ⟨feed, h, le_rfl⟩⟩

theorem Ahead.trans {later last : Page} (h : Ahead page later) (h' : Ahead later last) :
    Ahead page last := by
  constructor
  · intro shown hshown
    obtain ⟨snapshot, hsnapshot, hle⟩ := h.snapshot shown hshown
    obtain ⟨newer, hnewer, hle'⟩ := h'.snapshot snapshot hsnapshot
    exact ⟨newer, hnewer, hle.trans hle'⟩
  · intro feed hfeed
    obtain ⟨incidents, hincidents, hle⟩ := h.incidents feed hfeed
    obtain ⟨newer, hnewer, hle'⟩ := h'.incidents incidents hincidents
    exact ⟨newer, hnewer, hle.trans hle'⟩

theorem Kept.ahead (h : Kept startedAt system) (hoccurs : system.Occurs startedAt (.page event))
    (hstep : system.page.step event = some page) : Ahead system.page page := by
  constructor
  · intro shown hshown
    cases h.sound.takes_step hstep with
    | @arrived snapshot view accepted haccepted hkept hfloor =>
      rw [hkept]
      unfold View.acceptSnapshot at haccepted
      split at haccepted
      · obtain ⟨rfl, -⟩ := Prod.mk.inj haccepted
        exact ⟨shown, hshown, le_rfl⟩
      · split at haccepted
        · obtain ⟨rfl, -⟩ := Prod.mk.inj haccepted
          exact ⟨shown, hshown, le_rfl⟩
        · next hnew =>
          obtain ⟨rfl, -⟩ := Prod.mk.inj haccepted
          refine ⟨snapshot, rfl, ?_⟩
          have hsame : snapshot.startedAt = shown.startedAt :=
            hoccurs.1.trans (h.shown shown hshown).1.symm
          by_contra holder
          exact hnew (Page.isOutdated_iff.mpr ⟨shown, hshown, hsame, not_le.mp holder⟩)
    | @saved saved _ cadence hkept hfloor =>
      rw [hshown] at hkept
      exact ⟨_, hkept, (shown.withCadence_numbers saved cadence).2.1.ge⟩
    | same hkept hfloor hother => exact ⟨shown, hkept.trans hshown, le_rfl⟩
  · intro feed hfeed
    cases h.sound.shows_step hstep with
    | @answered request later hmem hlast hincidents hversion hgone =>
      refine ⟨later, hincidents, ?_⟩
      exact ((h.awaited request hmem hlast).2 feed hfeed).trans (h.answers _ hoccurs).2.1
    | acted hincidents hversion hsuperseded => exact ⟨feed, hincidents.trans hfeed, le_rfl⟩
    | same hincidents hversion hother => exact ⟨feed, hincidents.trans hfeed, le_rfl⟩

/-- Since the last setting was saved, the page shows the snapshot that it showed behind it, or one
of at least the saved version. -/
theorem Kept.settings_kept (h : Kept startedAt system)
    (hoccurs : system.Occurs startedAt (.page event)) (hstep : system.page.step event = some page) :
    (page.view.snapshot = (system.moved event page).settings.2
        ∧ ((system.moved event page).settings.1 = 0 ∨ page.view.cadenceSnapshotFloor
          = some (startedAt, (system.moved event page).settings.1)))
      ∨ ∃ shown, page.view.snapshot = some shown
        ∧ (system.moved event page).settings.1 ≤ shown.projection.version := by
  cases h.sound.takes_step hstep with
  | saved hkept hfloor =>
    obtain ⟨rfl, -⟩ := hoccurs
    exact .inl ⟨rfl, .inr hfloor⟩
  | same hkept hfloor hother =>
    rw [settings_moved hother, hkept, hfloor]
    exact h.settings
  | @arrived snapshot view accepted haccepted hkept hfloor =>
    rw [settings_moved fun _ _ _ h => by cases h]
    rcases h.settings with ⟨hsame, hsaved⟩ | ⟨shown, hshown, hversion⟩
    · unfold View.acceptSnapshot at haccepted
      split at haccepted
      · obtain ⟨rfl, -⟩ := Prod.mk.inj haccepted
        rw [hkept, hfloor]
        exact .inl ⟨hsame, hsaved⟩
      · next habove =>
        -- Above the floor, the snapshot has at least the saved version.
        have hle : system.settings.1 ≤ snapshot.projection.version := by
          rcases hsaved with hzero | hfloor
          · omega
          · by_contra hbelow
            rw [← hoccurs.1] at hfloor
            exact habove (Page.isBelowFloor_iff.mpr ⟨_, hfloor, not_le.mp hbelow⟩)
        split at haccepted
        · next holder =>
          obtain ⟨rfl, -⟩ := Prod.mk.inj haccepted
          obtain ⟨shown, hshown, -, hlt⟩ := Page.isOutdated_iff.mp holder
          exact .inr ⟨shown, hkept.trans hshown, by omega⟩
        · obtain ⟨rfl, -⟩ := Prod.mk.inj haccepted
          exact .inr ⟨snapshot, hkept, hle⟩
    · obtain ⟨later, hlater, hle⟩ := (h.ahead hoccurs hstep).snapshot shown hshown
      exact .inr ⟨later, hlater, hversion.trans hle⟩

/-- Every step of the page keeps the system. -/
theorem Kept.moved (h : Kept startedAt system) (hoccurs : system.Occurs startedAt (.page event))
    (hstep : system.page.step event = some page) : Kept startedAt (system.moved event page) := by
  have hshown := h.shown_moved hoccurs hstep
  have hsends := h.sound.sends_step hstep
  have hshows := h.sound.shows_step hstep
  have hold : ∀ request ∈ system.page.requests,
      (system.moved event page).sentAt request.id = system.sentAt request.id :=
    fun request hmem => sentAt_moved (h.sound.ids request hmem)
  have hnew : (system.moved event page).sentAt (system.page.view.incidentRequest + 1)
      = system.store.incidentRevision := sentAt_moved_new (Nat.lt_succ_self _)
  have hincidents : ∀ feed, page.view.incidents = some feed →
      feed.version ≤ system.store.incidentRevision := by
    intro feed hfeed
    cases hshows with
    | answered later hmem hlast hlater hversion hgone =>
      obtain rfl := Option.some.inj (hlater.symm.trans hfeed)
      exact (h.answers _ hoccurs).2.2
    | acted hkept hversion hsuperseded => exact h.incidents feed (hkept ▸ hfeed)
    | same hkept hversion hother => exact h.incidents feed (hkept ▸ hfeed)
  have hsaved : (system.moved event page).savedAt ≤ system.store.incidentRevision := by
    by_cases hacted : event = .actionSaved
    · rw [hacted]
      exact le_rfl
    · rw [savedAt_moved hacted]
      exact h.savedAt
  constructor
  · exact h.sound.step hstep
  · exact h.attends.step h.sound (h.fresh hoccurs) hstep
  · exact h.keyed
  · exact h.published
  · exact hshown
  · intro request hmem
    cases hsends with
    | nothing hrequest hkept =>
      rw [hold request (hkept request hmem)]
      exact h.sent request (hkept request hmem)
    | request snapshot hsnapshot hrequest hsent =>
      rcases hsent request hmem with hbefore | rfl
      · rw [hold request hbefore]
        exact h.sent request hbefore
      · rw [hnew]
        exact (hshown snapshot hsnapshot).2
  · intro id
    by_cases hid : id ≤ system.page.view.incidentRequest
    · rw [sentAt_moved hid]
      exact h.sentAt id
    · rw [sentAt_moved_new (not_le.mp hid)]
      exact le_rfl
  · intro answer hmem
    obtain ⟨hid, hsent, hversion⟩ := h.answers answer hmem
    refine ⟨hid.trans ?_, ?_, hversion⟩
    · cases hsends with
      | nothing hrequest hkept => exact hrequest.ge
      | request snapshot hsnapshot hrequest hsent => exact hrequest.ge.trans' (Nat.le_succ _)
    · rw [sentAt_moved hid]
      exact hsent
  · exact hincidents
  · exact hsaved
  · intro request hmem hlast
    cases hsends with
    | request snapshot hsnapshot hrequest hsent =>
      rcases hsent request hmem with hbefore | rfl
      · have hle := h.sound.ids request hbefore
        have hid : request.id = page.view.incidentRequest := hlast
        omega
      · rw [hnew]
        exact ⟨hsaved, hincidents⟩
    | nothing hrequest hkept =>
      have hbefore := hkept request hmem
      have hlastBefore : request.id = system.page.view.incidentRequest := hlast.trans hrequest
      rw [hold request hbefore]
      cases hshows with
      | answered feed hanswered hanswerLast hlater hversion hgone =>
        exact absurd hlastBefore (hgone request hmem)
      | acted hkept hversion hsuperseded => exact absurd hlast (hsuperseded request hbefore)
      | same hsame hversion hother =>
        rw [savedAt_moved hother]
        obtain ⟨haction, hfeeds⟩ := h.awaited request hbefore hlastBefore
        exact ⟨haction, fun feed hfeed => hfeeds feed (hsame ▸ hfeed)⟩
  · cases hshows with
    | answered feed hmem hlast hlater hversion hgone =>
      rw [savedAt_moved fun h => by cases h]
      have haction := (h.awaited _ hmem hlast).1
      have hfeed := (h.answers _ hoccurs).2.1
      right
      show (system.savedAt : ℤ) ≤ page.view.incidentVersion
      rw [hversion]
      exact Int.ofNat_le.mpr (haction.trans hfeed)
    | acted hkept hversion hsuperseded => exact .inl hversion
    | same hsame hversion hother =>
      rw [savedAt_moved hother]
      show page.view.incidentVersion = -1 ∨ (system.savedAt : ℤ) ≤ page.view.incidentVersion
      rw [hversion]
      exact h.current
  · exact h.settings_kept hoccurs hstep

end Moved

/-! ### Every run -/

section Runs

variable {epochSeconds : String → Option ℚ} {happening : Happening}

theorem Kept.step (h : Kept startedAt system) (hoccurs : system.Occurs startedAt happening)
    (hstep : system.step epochSeconds happening = some next) : Kept startedAt next := by
  cases happening with
  | operate operation =>
    obtain ⟨⟨store, returned⟩, hstore, rfl⟩ := Option.map_eq_some_iff.mp hstep
    cases hresult : system.store.step epochSeconds operation with
    | error problem =>
      rw [hresult] at hstore
      cases hstore
    | ok result =>
      rw [hresult] at hstore
      obtain rfl := Option.some.inj hstore
      have hnumbers : ∀ projection ∈ returned.toList,
          projection.incidentVersion ≤ store.incidentRevision := by
        intro projection hmem
        have hreturned := Option.mem_toList.mp hmem
        exact (SnapshotStore.numbers_of_step h.keyed (hreturned ▸ hresult)).2.le
      have hkept := h.grow (SnapshotStore.grows_step hresult).1 returned.toList [] hnumbers
        (fun _ hmem => by cases hmem)
      rwa [List.append_nil] at hkept
  | serve id clock =>
    dsimp only [System.step] at hstep
    split at hstep
    · next hmem =>
      obtain rfl := Option.some.inj hstep
      obtain ⟨request, hrequest, rfl⟩ := List.mem_map.mp hmem
      have hkept := h.grow (system.store.grows_incidents clock) []
        [(request.id, (system.store.incidents clock).2)]
        (fun _ hmem => by cases hmem) fun answer hanswer => by
          rw [List.mem_singleton.mp hanswer]
          exact ⟨h.sound.ids request hrequest, rfl⟩
      rwa [List.append_nil] at hkept
    · cases hstep
  | page event =>
    obtain ⟨page, hpage, rfl⟩ := Option.map_eq_some_iff.mp hstep
    exact h.moved hoccurs hpage

/-- A step of the server leaves the page alone. -/
theorem page_step (hstep : system.step epochSeconds happening = some next) :
    (next.page = system.page ∧ next.savedAt = system.savedAt ∧ next.settings = system.settings)
      ∨ ∃ event, happening = .page event ∧ system.page.step event = some next.page
        ∧ next = system.moved event next.page := by
  cases happening with
  | operate operation =>
    obtain ⟨result, -, rfl⟩ := Option.map_eq_some_iff.mp hstep
    exact .inl ⟨rfl, rfl, rfl⟩
  | serve id clock =>
    dsimp only [System.step] at hstep
    split at hstep
    · obtain rfl := Option.some.inj hstep
      exact .inl ⟨rfl, rfl, rfl⟩
    · cases hstep
  | page event =>
    obtain ⟨page, hpage, rfl⟩ := Option.map_eq_some_iff.mp hstep
    exact .inr ⟨event, rfl, hpage, rfl⟩

variable {config : SnapshotConfig} {adapterStatuses : String × String}
  {maintenanceAt actionAt : ℚ} {happenings more : List Happening}

theorem kept_run {later : System} (h : Kept startedAt system)
    (hmore : RunWhere (step epochSeconds) (Occurs startedAt) system more later) :
    Kept startedAt later :=
  hmore.invariant h fun _ _ _ hkept hoccurs hstep => hkept.step hoccurs hstep

theorem kept_of_run (hrun : RunWhere (step epochSeconds) (Occurs startedAt)
    (start config adapterStatuses maintenanceAt actionAt) happenings system) :
    Kept startedAt system :=
  kept_run (kept_start startedAt config adapterStatuses maintenanceAt actionAt) hrun

/-- The page never gets stuck: at every moment it awaits the answer to its last request, or it
waits for its one timer, or its incidents are as new as its snapshot. -/
theorem neverStuck (hrun : RunWhere (step epochSeconds) (Occurs startedAt)
    (start config adapterStatuses maintenanceAt actionAt) happenings system) :
    (system.page.Awaits ∨ system.page.timers ≠ [] ∨ system.page.Covers)
      ∧ system.page.timers.length ≤ 1
      ∧ (system.page.timers ≠ [] → ¬ system.page.Awaits)
      ∧ ∀ timer ∈ system.page.timers, 4000 ≤ timer.2 ∧ timer.2 ≤ 30000 := by
  have hkept := kept_of_run hrun
  refine ⟨hkept.attends, ?_, fun hset => (hkept.sound.idle hset).1, hkept.sound.delays⟩
  have hlength := congrArg List.length hkept.sound.timers
  rw [List.length_map] at hlength
  rw [hlength]
  cases system.page.view.incidentRetryTimer with
  | none => exact Nat.zero_le 1
  | some handle => exact le_rfl

/-- Two answers are enough: the answer to the last request settles the page, or the page awaits the
answer to one more request, and any answer that the server gives from then on does. -/
theorem settles {feed : Feed} (hrun : RunWhere (step epochSeconds) (Occurs startedAt)
    (start config adapterStatuses maintenanceAt actionAt) happenings system)
    (hanswer : (system.page.view.incidentRequest, feed) ∈ system.answers)
    (hstep : system.step epochSeconds
      (.page (.settle system.page.view.incidentRequest (some feed))) = some next) :
    next.page.Settled
      ∨ next.page.Awaits ∧ ∀ later final, next.store.incidentRevision ≤ later.version →
        next.step epochSeconds
          (.page (.settle next.page.view.incidentRequest (some later))) = some final →
        final.page.Settled := by
  have hkept := kept_of_run hrun
  have hoccurs : system.Occurs startedAt (.page (.settle _ (some feed))) := hanswer
  have hnext := hkept.step hoccurs hstep
  obtain ⟨page, hpage, rfl⟩ := Option.map_eq_some_iff.mp hstep
  obtain ⟨request, hfind, rfl⟩ := Option.map_eq_some_iff.mp hpage
  have hmem := List.mem_of_find?_eq_some hfind
  have hfound := List.find?_some hfind
  have hlast : request.id = system.page.view.incidentRequest := beq_iff_eq.mp hfound
  have hfresh := hkept.fresh hoccurs request hmem hlast
  refine (hkept.sound.settled_in_two hmem hlast hfresh).imp_right fun ⟨hawaits, hagain⟩ =>
    ⟨hawaits, fun later final hlater hfinal => ?_⟩
  obtain ⟨page, hpage, rfl⟩ := Option.map_eq_some_iff.mp hfinal
  obtain ⟨again, hfindAgain, rfl⟩ := Option.map_eq_some_iff.mp hpage
  have hmemAgain := List.mem_of_find?_eq_some hfindAgain
  have hfoundAgain := List.find?_some hfindAgain
  refine hagain again hmemAgain (beq_iff_eq.mp hfoundAgain) later ?_
  exact (hnext.sent again hmemAgain).trans ((hnext.sentAt again.id).trans hlater)

/-- What the page shows never goes back: a later snapshot has at least the version of an earlier
one, and later incidents at least their revision. -/
theorem neverBack {later : System} (hrun : RunWhere (step epochSeconds) (Occurs startedAt)
    (start config adapterStatuses maintenanceAt actionAt) happenings system)
    (hmore : RunWhere (step epochSeconds) (Occurs startedAt) system more later) :
    Ahead system.page later.page := by
  have hstart := kept_of_run hrun
  induction hmore with
  | nil => exact .refl system.page
  | @snoc _ state next happening hmore hoccurs hstep ih =>
    refine ih.trans ?_
    rcases page_step hstep with hsame | ⟨event, rfl, hpage, -⟩
    · rw [hsame.1]
      exact .refl state.page
    · exact (kept_run hstart hmore).ahead hoccurs hpage

/-- Once an action is saved, only incidents that were served after it count as current, for ever. -/
theorem actionShown {later : System} (hrun : RunWhere (step epochSeconds) (Occurs startedAt)
    (start config adapterStatuses maintenanceAt actionAt) happenings system)
    (hsaved : system.step epochSeconds (.page .actionSaved) = some next)
    (hmore : RunWhere (step epochSeconds) (Occurs startedAt) next more later) :
    later.page.view.incidentVersion = -1
      ∨ (system.store.incidentRevision : ℤ) ≤ later.page.view.incidentVersion := by
  have hoccurs : system.Occurs startedAt (.page .actionSaved) := trivial
  have hnext := (kept_of_run hrun).step hoccurs hsaved
  have hbegin : next.savedAt = system.store.incidentRevision := by
    obtain rfl := Option.some.inj hsaved
    rfl
  -- A later action raises the revision that counts.
  have hgrows : next.savedAt ≤ later.savedAt := by
    induction hmore with
    | nil => exact le_rfl
    | snoc hmore hoccurs hstep ih =>
      refine ih.trans ?_
      rcases page_step hstep with hsame | ⟨event, rfl, -, hmoved⟩
      · exact hsame.2.1.ge
      · by_cases hacted : event = .actionSaved
        · rw [hmoved, hacted]
          exact (kept_run hnext hmore).savedAt
        · rw [hmoved, savedAt_moved hacted]
  refine (kept_run hnext hmore).current.imp_right fun hcurrent => ?_
  rw [← hbegin]
  exact (Int.ofNat_le.mpr hgrows).trans hcurrent

/-- Once a setting is saved, the page shows the snapshot that it showed then, with the saved
cadence, or one of at least the saved version, until the next setting is saved. -/
theorem settingShown {later : System} {saved : String} {version : ℕ} {cadence : Cadence}
    (hrun : RunWhere (step epochSeconds) (Occurs startedAt)
      (start config adapterStatuses maintenanceAt actionAt) happenings system)
    (hoccurs : system.Occurs startedAt (.page (.settingsSaved saved version cadence)))
    (hsaved : system.step epochSeconds (.page (.settingsSaved saved version cadence)) = some next)
    (hmore : RunWhere (step epochSeconds) (fun state happening => state.Occurs startedAt happening
      ∧ ∀ saved version cadence, happening ≠ .page (.settingsSaved saved version cadence))
      next more later) :
    later.page.view.snapshot = system.page.view.snapshot.map (·.withCadence saved cadence)
      ∨ ∃ shown, later.page.view.snapshot = some shown
        ∧ version ≤ shown.projection.version := by
  have hnext := (kept_of_run hrun).step hoccurs hsaved
  have hbegin : next.settings
      = (version, system.page.view.snapshot.map (·.withCadence saved cadence)) := by
    obtain rfl := Option.some.inj hsaved
    rfl
  have hsame : later.settings = next.settings := by
    induction hmore with
    | nil => rfl
    | snoc hmore hallowed hstep ih =>
      refine Eq.trans ?_ ih
      rcases page_step hstep with hkept | ⟨event, rfl, -, hmoved⟩
      · exact hkept.2.2
      · rw [hmoved]
        exact settings_moved fun saved version cadence heq =>
          hallowed.2 saved version cadence (by rw [heq])
  have hsettings := (kept_run hnext (hmore.mono fun _ _ hallowed => hallowed.1)).settings
  rw [hsame, hbegin] at hsettings
  exact hsettings.imp_left And.left

end Runs

/-! ### A first snapshot -/

/-- A server without hosts. -/
private def idleServer : SnapshotConfig := .restoring []

private def idleStart : System := start idleServer ("ok", "ok") 0 0

private def idleView : SnapshotStore.Operation := .snapshotView 0 0 ("ok", "ok") 0 "00:00:00"

/-- The first snapshot of the server. -/
private def firstSnapshot : PageSnapshot where
  startedAt := "00:00:00"
  projection := (idleStart.store.snapshotLocked ("ok", "ok") 0 "00:00:00").2

/-- The answer of the server to the request for the first snapshot. -/
private def firstFeed : Feed := (idleStart.store.incidents ⟨0, 0, 0⟩).2

/-- The page has asked for the incidents of the first snapshot, and the server has answered. Then
its topology and its poll interval have changed, and it has published a second snapshot. -/
private def answering : List Happening :=
  [.operate idleView, .page (.snapshot firstSnapshot), .serve 1 ⟨0, 0, 0⟩,
    .operate (.setTopology (some ⟨"console", []⟩) 0), .operate (.setPollInterval 10 0),
    .operate idleView]

private theorem run_answering :
    ∃ system second, RunWhere (step fun _ => none) (Occurs "00:00:00") idleStart answering system
      ∧ (system.page.view.incidentRequest, firstFeed) ∈ system.answers
      ∧ system.published = [firstSnapshot.projection, second]
      ∧ second.version = system.store.version
      ∧ firstSnapshot.projection.version < second.version
      ∧ firstFeed.version < system.store.incidentRevision
      ∧ system.page.view.snapshot = some firstSnapshot
      ∧ (∃ next, system.step (fun _ => none)
          (.page (.settle system.page.view.incidentRequest (some firstFeed))) = some next)
      ∧ (∃ next, system.step (fun _ => none) (.page (.snapshot ⟨"00:00:00", second⟩)) = some next
        ∧ next.page.view.snapshot = some ⟨"00:00:00", second⟩)
      ∧ ∃ next later, system.step (fun _ => none) (.page .actionSaved) = some next
        ∧ next.step (fun _ => none)
          (.page (.settle system.page.view.incidentRequest (some firstFeed))) = some later := by
  refine ⟨_, _, .snoc (.snoc (.snoc (.snoc (.snoc (.snoc .nil trivial rfl) ⟨rfl, ?_⟩ rfl) trivial
    rfl) trivial rfl) trivial rfl) trivial rfl, ?_, rfl, rfl, ?_, ?_, rfl, ⟨_, rfl⟩,
    ⟨_, rfl, rfl⟩, ⟨_, _, rfl, rfl⟩⟩
  · exact List.mem_singleton_self _
  · decide +kernel
  · decide +kernel
  · exact List.mem_singleton_self _

/-- The page awaits the answer, or it does not have to. -/
theorem neverStuck_answering :
    ∃ system, RunWhere (step fun _ => none) (Occurs "00:00:00") idleStart answering system
      ∧ (system.page.Awaits ∨ system.page.timers ≠ [] ∨ system.page.Covers) := by
  obtain ⟨system, -, hrun, -⟩ := run_answering
  exact ⟨system, hrun, (neverStuck hrun).1⟩

/-- The answer settles the page, or the next one does. -/
theorem settles_answering :
    ∃ system next : System,
      RunWhere (step fun _ => none) (Occurs "00:00:00") idleStart answering system
        ∧ (next.page.Settled ∨ next.page.Awaits ∧ ∀ (later : Feed) (final : System),
          next.store.incidentRevision ≤ later.version →
          next.step (fun _ => none)
            (.page (.settle next.page.view.incidentRequest (some later))) = some final →
          final.page.Settled) := by
  obtain ⟨system, -, hrun, hanswer, -, -, -, -, -, ⟨next, hstep⟩, -⟩ := run_answering
  exact ⟨system, next, hrun, settles hrun hanswer hstep⟩

/-- The second snapshot arrives before the first one, which then does not replace it. -/
theorem neverBack_answering :
    ∃ (system next : System) (second : Projection),
      firstSnapshot.projection.version < second.version
        ∧ system.page.view.snapshot = some ⟨"00:00:00", second⟩
        ∧ system.step (fun _ => none) (.page (.snapshot firstSnapshot)) = some next
        ∧ Ahead system.page next.page := by
  obtain ⟨system, second, hrun, -, hpublished, -, hnewer, -, -, -, ⟨middle, hstep, hshown⟩, -⟩ :=
    run_answering
  have hsecond : system.Occurs "00:00:00" (.page (.snapshot ⟨"00:00:00", second⟩)) :=
    ⟨rfl, by simp [hpublished]⟩
  have hfirst : middle.Occurs "00:00:00" (.page (.snapshot firstSnapshot)) := by
    obtain rfl := Option.some.inj hstep
    exact ⟨rfl, by simp [moved, hpublished]⟩
  exact ⟨middle, _, second, hnewer, hshown, rfl,
    neverBack (hrun.snoc hsecond hstep) (.snoc .nil hfirst rfl)⟩

/-- An action is saved while an answer from before it is on its way, which then arrives. -/
theorem actionShown_answering :
    ∃ system next later : System, firstFeed.version < system.store.incidentRevision
      ∧ system.step (fun _ => none) (.page .actionSaved) = some next
      ∧ next.step (fun _ => none)
        (.page (.settle system.page.view.incidentRequest (some firstFeed))) = some later
      ∧ (later.page.view.incidentVersion = -1
        ∨ (system.store.incidentRevision : ℤ) ≤ later.page.view.incidentVersion) := by
  obtain ⟨system, -, hrun, hanswer, -, -, -, holder, -, -, -, next, later, hsaved, hstep⟩ :=
    run_answering
  have hoccurs : next.Occurs "00:00:00"
      (.page (.settle system.page.view.incidentRequest (some firstFeed))) := by
    obtain rfl := Option.some.inj hsaved
    exact hanswer
  exact ⟨system, next, later, holder, hsaved, hstep,
    actionShown hrun hsaved (.snoc .nil hoccurs hstep)⟩

/-- A setting is saved, and then a snapshot from before it arrives. -/
theorem settingShown_answering :
    ∃ (system next later : System) (version : ℕ), firstSnapshot.projection.version < version
      ∧ system.step (fun _ => none) (.page (.settingsSaved "00:00:00" version ⟨10, 30⟩)) = some next
      ∧ next.step (fun _ => none) (.page (.snapshot firstSnapshot)) = some later
      ∧ (later.page.view.snapshot
          = system.page.view.snapshot.map (·.withCadence "00:00:00" ⟨10, 30⟩)
        ∨ ∃ shown, later.page.view.snapshot = some shown
          ∧ version ≤ shown.projection.version) := by
  obtain ⟨system, second, hrun, -, hpublished, hversion, hnewer, -⟩ := run_answering
  have hsaved : system.Occurs "00:00:00"
      (.page (.settingsSaved "00:00:00" second.version ⟨10, 30⟩)) := ⟨rfl, hversion.le⟩
  obtain ⟨next, hstep⟩ : ∃ next, system.step (fun _ => none)
      (.page (.settingsSaved "00:00:00" second.version ⟨10, 30⟩)) = some next := ⟨_, rfl⟩
  have hfirst : next.Occurs "00:00:00" (.page (.snapshot firstSnapshot)) := by
    obtain rfl := Option.some.inj hstep
    exact ⟨rfl, by simp [moved, hpublished]⟩
  exact ⟨system, next, _, second.version, hnewer, hstep, rfl, settingShown hrun hsaved hstep
    (.snoc .nil ⟨hfirst, fun _ _ _ h => Event.noConfusion (Happening.page.inj h)⟩ rfl)⟩

end System

end IncidentSync

end Mocop
