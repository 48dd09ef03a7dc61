import Mocop.Lib.Runs
import Mocop.Service.Growth

/-!
# `Mocop.Web.PayloadCache`: the server sends what the snapshot says

The web server serializes a snapshot once for all of its readers. The payload is cached under the
version, the incident revision and the two adapter statuses of its snapshot, and so is the text of
the metrics. The threads of the requests take snapshots from the store and serialize them later and
in any order, while the monitor goes on. Whatever the order, what is sent for a snapshot is what
serializing that snapshot gives (`sent_exact`): the store never returns two snapshots under one key
(`Consistent.unique`), since its numbers only grow and it keeps a snapshot while they stay.
-/

set_option autoImplicit false

namespace Mocop.Web

/-- The key of a snapshot. -/
abbrev ProjectionKey := ℕ × ℕ × (String × String)

/-- `_projection_key` -/
def projectionKey (snapshot : Projection) : ProjectionKey :=
  (snapshot.version, snapshot.incidentVersion, snapshot.content.adapterStatuses)

/-- How a snapshot becomes bytes. The metrics may exceed their limit. -/
structure Renderer where
  dumps : Projection → List UInt8
  openmetrics : Projection → Option (List UInt8)
  framePrefix : List UInt8
  frameSuffix : List UInt8

/-- The frame of a payload in the event stream. -/
def Renderer.frame (renderer : Renderer) (payload : List UInt8) : List UInt8 :=
  renderer.framePrefix ++ payload ++ renderer.frameSuffix

/-- The caches of the server. -/
structure PayloadCache where
  snapshot : Option (ProjectionKey × List UInt8 × List UInt8) := none
  metrics : Option (ProjectionKey × List UInt8) := none

section
variable (renderer : Renderer) (cache : PayloadCache) (snapshot : Projection)

/-- `_snapshot_cache`: the cache with the payload and the frame of a snapshot. -/
def PayloadCache.snapshotCache : PayloadCache × List UInt8 × List UInt8 :=
  match cache.snapshot.filter (·.1 = projectionKey snapshot) with
  | some (_, cached) => (cache, cached)
  | none =>
    let payload := renderer.dumps snapshot
    let cached := (payload, renderer.frame payload)
    ({ cache with snapshot := some (projectionKey snapshot, cached) }, cached)

/-- `metrics_payload`: the cache with the text of a snapshot. A text that exceeds the limit leaves
the cache as it is. -/
def PayloadCache.metricsPayload : PayloadCache × Option (List UInt8) :=
  match cache.metrics.filter (·.1 = projectionKey snapshot) with
  | some (_, cached) => (cache, some cached)
  | none =>
    match renderer.openmetrics snapshot with
    | some payload =>
      ({ cache with metrics := some (projectionKey snapshot, payload) }, some payload)
    | none => (cache, none)

end

/-! ### The monitor and the threads of the requests -/

/-- What was sent for a snapshot. -/
inductive Sent where
  | payload (snapshot : Projection) (bytes : List UInt8)
  | frame (snapshot : Projection) (bytes : List UInt8)
  | metrics (snapshot : Projection) (bytes : Option (List UInt8))

/-- The store, the snapshots that it has returned, the caches, and what was sent. -/
structure Site where
  store : SnapshotStore
  returned : List Projection := []
  cache : PayloadCache := {}
  sent : List Sent := []

/-- The monitor does something, or a thread serializes a snapshot that the store has returned. -/
inductive SiteEvent where
  | operate (operation : SnapshotStore.Operation)
  | payload (snapshot : Projection)
  | frame (snapshot : Projection)
  | metrics (snapshot : Projection)

namespace Site
variable (epochSeconds : String → Option ℚ) (renderer : Renderer)

/-- One step, unless an operation of the store raises. -/
def step (site : Site) : SiteEvent → Option Site
  | .operate operation =>
    (site.store.step epochSeconds operation).toOption.map fun result =>
      { site with store := result.1, returned := site.returned ++ result.2.toList }
  | .payload snapshot =>
    let result := site.cache.snapshotCache renderer snapshot
    some { site with cache := result.1, sent := site.sent ++ [.payload snapshot result.2.1] }
  | .frame snapshot =>
    let result := site.cache.snapshotCache renderer snapshot
    some { site with cache := result.1, sent := site.sent ++ [.frame snapshot result.2.2] }
  | .metrics snapshot =>
    let result := site.cache.metricsPayload renderer snapshot
    some { site with cache := result.1, sent := site.sent ++ [.metrics snapshot result.2] }

/-- A thread serializes only what the store has returned. -/
def Holds (site : Site) : SiteEvent → Prop
  | .operate _ => True
  | .payload snapshot | .frame snapshot | .metrics snapshot => snapshot ∈ site.returned

end Site

/-- What was sent is what serializing its snapshot gives. -/
def Sent.Exact (renderer : Renderer) : Sent → Prop
  | .payload snapshot bytes => bytes = renderer.dumps snapshot
  | .frame snapshot bytes => bytes = renderer.frame (renderer.dumps snapshot)
  | .metrics snapshot bytes => bytes = renderer.openmetrics snapshot

/-! ### What every step keeps -/

/-- The snapshots are as old as the store or older, the store still has the one under its numbers,
no two share their numbers, and the caches hold what a returned snapshot serializes to. -/
structure Consistent (renderer : Renderer) (site : Site) : Prop where
  keyed : site.store.CacheKeyed
  version : ∀ snapshot ∈ site.returned, snapshot.version ≤ site.store.version
  revision : ∀ snapshot ∈ site.returned, snapshot.incidentVersion ≤ site.store.incidentRevision
  cached : ∀ snapshot ∈ site.returned, snapshot.numbers = site.store.numbers →
    site.store.snapshotCache = some (site.store.numbers, snapshot)
  unique : ∀ first ∈ site.returned, ∀ second ∈ site.returned,
    first.numbers = second.numbers → first = second
  payload : ∀ key bytes frame, site.cache.snapshot = some (key, bytes, frame) →
    ∃ snapshot ∈ site.returned, projectionKey snapshot = key
      ∧ bytes = renderer.dumps snapshot ∧ frame = renderer.frame (renderer.dumps snapshot)
  metrics : ∀ key bytes, site.cache.metrics = some (key, bytes) →
    ∃ snapshot ∈ site.returned, projectionKey snapshot = key
      ∧ some bytes = renderer.openmetrics snapshot
  sent : ∀ sent ∈ site.sent, sent.Exact renderer

namespace Consistent
variable {epochSeconds : String → Option ℚ} {renderer : Renderer} {site next : Site}

/-- Two returned snapshots with the same key are the same. -/
theorem eq_of_key (h : Consistent renderer site) {first second : Projection}
    (hfirst : first ∈ site.returned) (hsecond : second ∈ site.returned)
    (hkey : projectionKey first = projectionKey second) : first = second := by
  obtain ⟨hversion, hrest⟩ := Prod.mk.inj hkey
  exact h.unique first hfirst second hsecond (Prod.ext hversion (Prod.mk.inj hrest).1)

variable {snapshot : Projection}

/-- A payload is what its snapshot serializes to, and the cache holds one of a returned
snapshot. -/
theorem snapshotCache (h : Consistent renderer site) (hsnapshot : snapshot ∈ site.returned) :
    (site.cache.snapshotCache renderer snapshot).2
        = (renderer.dumps snapshot, renderer.frame (renderer.dumps snapshot))
      ∧ ((site.cache.snapshotCache renderer snapshot).1 = site.cache
        ∨ (site.cache.snapshotCache renderer snapshot).1 = { site.cache with
            snapshot := some (projectionKey snapshot, renderer.dumps snapshot,
              renderer.frame (renderer.dumps snapshot)) }) := by
  unfold PayloadCache.snapshotCache
  split
  · next key cached hcached =>
    obtain ⟨hcache, hkey⟩ := Option.filter_eq_some_iff.mp hcached
    obtain ⟨bytes, frame⟩ := cached
    obtain ⟨other, hother, hsame, rfl, rfl⟩ := h.payload key bytes frame hcache
    have heq : other = snapshot :=
      h.eq_of_key hother hsnapshot (hsame.trans (of_decide_eq_true hkey))
    exact ⟨by rw [heq], .inl rfl⟩
  · exact ⟨rfl, .inr rfl⟩

/-- The text of the metrics is the one of its snapshot. -/
theorem metricsPayload (h : Consistent renderer site) (hsnapshot : snapshot ∈ site.returned) :
    (site.cache.metricsPayload renderer snapshot).2 = renderer.openmetrics snapshot
      ∧ ((site.cache.metricsPayload renderer snapshot).1 = site.cache
        ∨ ∃ bytes, some bytes = renderer.openmetrics snapshot
          ∧ (site.cache.metricsPayload renderer snapshot).1
            = { site.cache with metrics := some (projectionKey snapshot, bytes) }) := by
  unfold PayloadCache.metricsPayload
  split
  · next key cached hcached =>
    obtain ⟨hcache, hkey⟩ := Option.filter_eq_some_iff.mp hcached
    obtain ⟨other, hother, hsame, hbytes⟩ := h.metrics key cached hcache
    have heq : other = snapshot :=
      h.eq_of_key hother hsnapshot (hsame.trans (of_decide_eq_true hkey))
    exact ⟨heq ▸ hbytes, .inl rfl⟩
  · cases hrendered : renderer.openmetrics snapshot with
    | some payload => exact ⟨rfl, .inr ⟨payload, rfl, rfl⟩⟩
    | none => exact ⟨rfl, .inl rfl⟩

/-- A snapshot under the numbers of the store after an operation was there before it only if it is
the one that the store still has. -/
theorem returned_before (h : Consistent renderer site) {store : SnapshotStore}
    (hgrows : site.store.Grows store) (hsnapshot : snapshot ∈ site.returned)
    (hnumbers : snapshot.numbers = store.numbers) :
    store.snapshotCache = some (store.numbers, snapshot) := by
  obtain ⟨hversion, hrevision⟩ := Prod.mk.inj hnumbers
  have hstayed : store.numbers = site.store.numbers :=
    Prod.ext (le_antisymm (hversion.symm.le.trans (h.version snapshot hsnapshot)) hgrows.version)
      (le_antisymm (hrevision.symm.le.trans (h.revision snapshot hsnapshot)) hgrows.revision)
  have hcached := h.cached snapshot hsnapshot (hnumbers.trans hstayed)
  rw [hstayed]
  exact hgrows.kept snapshot hcached hstayed

/-- An operation of the store. -/
theorem operate (h : Consistent renderer site) {store : SnapshotStore}
    {returned : Option Projection} (hgrows : site.store.Grows store)
    (hreturned : ∀ projection, returned = some projection →
      store.snapshotCache = some (store.numbers, projection)) :
    Consistent renderer
      { site with store := store, returned := site.returned ++ returned.toList } := by
  have hkeyed : store.CacheKeyed := hgrows.keyed h.keyed
  -- Every snapshot with the numbers of the store is the cached one.
  have hcached : ∀ snapshot ∈ site.returned ++ returned.toList,
      snapshot.numbers = store.numbers → store.snapshotCache = some (store.numbers, snapshot) := by
    intro snapshot hmem hnumbers
    rcases List.mem_append.mp hmem with hold | hnew
    · exact h.returned_before hgrows hold hnumbers
    · exact hreturned snapshot (Option.mem_toList.mp hnew)
  have hnumbers : ∀ projection, returned = some projection →
      projection.numbers = store.numbers :=
    fun projection heq => (hkeyed _ _ (hreturned projection heq)).symm
  have hsame : ∀ first second, store.snapshotCache = some (store.numbers, first) →
      store.snapshotCache = some (store.numbers, second) → first = second :=
    fun first second hfirst hsecond =>
      (Prod.mk.inj (Option.some.inj (hfirst.symm.trans hsecond))).2
  refine ⟨hkeyed, ?_, ?_, hcached, ?_, ?_, ?_, h.sent⟩
  · intro snapshot hmem
    rcases List.mem_append.mp hmem with hold | hnew
    · exact (h.version snapshot hold).trans hgrows.version
    · exact (congrArg Prod.fst (hnumbers snapshot (Option.mem_toList.mp hnew))).le
  · intro snapshot hmem
    rcases List.mem_append.mp hmem with hold | hnew
    · exact (h.revision snapshot hold).trans hgrows.revision
    · exact (congrArg Prod.snd (hnumbers snapshot (Option.mem_toList.mp hnew))).le
  · intro first hfirst second hsecond heq
    rcases List.mem_append.mp hfirst with hold | hnew
    · rcases List.mem_append.mp hsecond with hold' | hnew'
      · exact h.unique first hold second hold' heq
      · have hlast := hnumbers second (Option.mem_toList.mp hnew')
        exact hsame first second (hcached first hfirst (heq.trans hlast))
          (hcached second hsecond hlast)
    · have hlast := hnumbers first (Option.mem_toList.mp hnew)
      exact hsame first second (hcached first hfirst hlast)
        (hcached second hsecond (heq.symm.trans hlast))
  · intro key bytes frame hentry
    obtain ⟨snapshot, hmem, hrest⟩ := h.payload key bytes frame hentry
    exact ⟨snapshot, List.mem_append_left _ hmem, hrest⟩
  · intro key bytes hentry
    obtain ⟨snapshot, hmem, hrest⟩ := h.metrics key bytes hentry
    exact ⟨snapshot, List.mem_append_left _ hmem, hrest⟩

/-- A thread that serializes a snapshot. -/
theorem serialize (h : Consistent renderer site) {cache : PayloadCache} {sent : Sent}
    (hpayload : ∀ key bytes frame, cache.snapshot = some (key, bytes, frame) →
      ∃ snapshot ∈ site.returned, projectionKey snapshot = key
        ∧ bytes = renderer.dumps snapshot ∧ frame = renderer.frame (renderer.dumps snapshot))
    (hmetrics : ∀ key bytes, cache.metrics = some (key, bytes) →
      ∃ snapshot ∈ site.returned, projectionKey snapshot = key
        ∧ some bytes = renderer.openmetrics snapshot)
    (hsent : sent.Exact renderer) :
    Consistent renderer { site with cache := cache, sent := site.sent ++ [sent] } := by
  refine ⟨h.keyed, h.version, h.revision, h.cached, h.unique, hpayload, hmetrics, ?_⟩
  intro other hother
  rcases List.mem_append.mp hother with hold | hnew
  · exact h.sent other hold
  · exact List.mem_singleton.mp hnew ▸ hsent

/-- The cache of the payloads holds what a returned snapshot serializes to. -/
theorem payload_kept (h : Consistent renderer site) (hsnapshot : snapshot ∈ site.returned) :
    (∀ key bytes frame,
      (site.cache.snapshotCache renderer snapshot).1.snapshot = some (key, bytes, frame) →
      ∃ snapshot ∈ site.returned, projectionKey snapshot = key
        ∧ bytes = renderer.dumps snapshot ∧ frame = renderer.frame (renderer.dumps snapshot))
    ∧ (site.cache.snapshotCache renderer snapshot).1.metrics = site.cache.metrics := by
  obtain ⟨-, hsame | hnew⟩ := h.snapshotCache hsnapshot
  · rw [hsame]
    exact ⟨h.payload, rfl⟩
  · rw [hnew]
    refine ⟨fun key bytes frame hentry => ?_, rfl⟩
    obtain ⟨rfl, hrest⟩ := Prod.mk.inj (Option.some.inj hentry)
    obtain ⟨rfl, rfl⟩ := Prod.mk.inj hrest
    exact ⟨snapshot, hsnapshot, rfl, rfl, rfl⟩

/-- Every step keeps the site consistent. -/
theorem step (h : Consistent renderer site) {event : SiteEvent} (hholds : site.Holds event)
    (hstep : site.step epochSeconds renderer event = some next) : Consistent renderer next := by
  cases event with
  | operate operation =>
    obtain ⟨⟨store, returned⟩, hresult, rfl⟩ := Option.map_eq_some_iff.mp hstep
    cases hoperation : site.store.step epochSeconds operation with
    | error problem =>
      rw [hoperation] at hresult
      cases hresult
    | ok result =>
      rw [hoperation] at hresult
      obtain rfl := Option.some.inj hresult
      obtain ⟨hgrows, hreturned⟩ := SnapshotStore.grows_step hoperation
      exact h.operate hgrows hreturned
  | payload snapshot =>
    obtain rfl := Option.some.inj hstep
    obtain ⟨hpayload, hmetrics⟩ := h.payload_kept hholds
    exact h.serialize hpayload (hmetrics ▸ h.metrics)
      (congrArg Prod.fst (h.snapshotCache hholds).1)
  | frame snapshot =>
    obtain rfl := Option.some.inj hstep
    obtain ⟨hpayload, hmetrics⟩ := h.payload_kept hholds
    exact h.serialize hpayload (hmetrics ▸ h.metrics)
      (congrArg Prod.snd (h.snapshotCache hholds).1)
  | metrics snapshot =>
    obtain rfl := Option.some.inj hstep
    obtain ⟨hsent, hsame | ⟨bytes, hbytes, hnew⟩⟩ := h.metricsPayload hholds
    · refine h.serialize ?_ ?_ hsent
      · rw [hsame]
        exact h.payload
      · rw [hsame]
        exact h.metrics
    · refine h.serialize ?_ (fun key other hentry => ?_) hsent
      · rw [hnew]
        exact h.payload
      · rw [hnew] at hentry
        obtain ⟨rfl, rfl⟩ := Prod.mk.inj (Option.some.inj hentry)
        exact ⟨snapshot, hholds, rfl, hbytes⟩

/-- A server starts consistent. -/
theorem start (renderer : Renderer) (config : SnapshotConfig) (statuses : String × String)
    (maintenanceAt actionAt : ℚ) :
    Consistent renderer
      { store := SnapshotStore.start config statuses maintenanceAt actionAt } where
  keyed := fun _ _ h => by cases h
  version := fun _ h => by cases h
  revision := fun _ h => by cases h
  cached := fun _ h => by cases h
  unique := fun _ h => by cases h
  payload := fun _ _ _ h => by cases h
  metrics := fun _ _ h => by cases h
  sent := fun _ h => by cases h

end Consistent

/-- In every run of the monitor and the threads of the requests, what is sent for a snapshot is
what serializing that snapshot gives. -/
theorem sent_exact {epochSeconds : String → Option ℚ} {renderer : Renderer}
    {config : SnapshotConfig} {statuses : String × String} {maintenanceAt actionAt : ℚ}
    {events : List SiteEvent} {site : Site}
    (hrun : RunWhere (Site.step epochSeconds renderer) (fun site event => site.Holds event)
      { store := SnapshotStore.start config statuses maintenanceAt actionAt } events site) :
    ∀ sent ∈ site.sent, sent.Exact renderer :=
  (hrun.invariant (Consistent.start renderer config statuses maintenanceAt actionAt)
    fun _ _ _ hconsistent hholds hstep => hconsistent.step hholds hstep).sent

/-- A monitor without hosts. -/
private def idleMonitor : SnapshotConfig := .restoring []

private def idleSite : Site := { store := SnapshotStore.start idleMonitor ("ok", "ok") 0 0 }

/-- A renderer that writes the version of a snapshot. -/
private def versionRenderer : Renderer where
  dumps := fun snapshot => [UInt8.ofNat snapshot.version]
  openmetrics := fun _ => none
  framePrefix := [1]
  frameSuffix := [2]

/-- A thread serializes the first snapshot twice. -/
theorem sent_exact_twice :
    ∃ site snapshot, RunWhere (Site.step (fun _ => none) versionRenderer)
        (fun site event => site.Holds event) idleSite
        [.operate (.snapshotView 0 0 ("ok", "ok") 0 "00:00:00"), .payload snapshot,
          .frame snapshot] site
      ∧ site.sent.length = 2 ∧ ∀ sent ∈ site.sent, sent.Exact versionRenderer := by
  have hrun : ∃ site, RunWhere (Site.step (fun _ => none) versionRenderer)
      (fun site event => site.Holds event) idleSite
      [.operate (.snapshotView 0 0 ("ok", "ok") 0 "00:00:00"),
        .payload (idleSite.store.snapshotLocked ("ok", "ok") 0 "00:00:00").2,
        .frame (idleSite.store.snapshotLocked ("ok", "ok") 0 "00:00:00").2] site
      ∧ site.sent.length = 2 := by
    refine ⟨_, .snoc (.snoc (.snoc .nil trivial rfl) ?_ rfl) ?_ rfl, rfl⟩
    · exact List.mem_singleton_self _
    · exact List.mem_singleton_self _
  obtain ⟨site, hrun, hlength⟩ := hrun
  exact ⟨site, _, hrun, hlength, sent_exact hrun⟩

end Mocop.Web
