import Mocop.Lib.Returns
import Mocop.Service.Snapshots

/-!
# `Mocop.Service.Growth`: the numbers of the server grow

Every operation of the store leaves the version and the incident revision as they are or raises
them, and while both stay, the snapshot that is cached under them stays too. A snapshot that the
store returns is the cached one (`grows_step`).
-/

set_option autoImplicit false

namespace Mocop

/-- The version and the revision of a snapshot. -/
def Projection.numbers (projection : Projection) : ℕ × ℕ :=
  (projection.version, projection.incidentVersion)

namespace SnapshotStore

/-- The cached snapshot has the numbers of its key. -/
def CacheKeyed (store : SnapshotStore) : Prop :=
  ∀ key projection, store.snapshotCache = some (key, projection) → key = projection.numbers

/-- The version and the revision of a store. -/
def numbers (store : SnapshotStore) : ℕ × ℕ := (store.version, store.incidentRevision)

/-- The version and the revision of a store grow, its cache stays keyed, and while both numbers
stay, so does the snapshot that is cached under them. -/
structure Grows (store next : SnapshotStore) : Prop where
  version : store.version ≤ next.version
  revision : store.incidentRevision ≤ next.incidentRevision
  keyed : store.CacheKeyed → next.CacheKeyed
  kept : ∀ projection, store.snapshotCache = some (store.numbers, projection) →
    next.numbers = store.numbers → next.snapshotCache = some (store.numbers, projection)

variable {store next last : SnapshotStore}

/-- A change that leaves the cache alone grows as its numbers do. -/
theorem Grows.of_cache (hversion : store.version ≤ next.version)
    (hrevision : store.incidentRevision ≤ next.incidentRevision)
    (hcache : next.snapshotCache = store.snapshotCache) : store.Grows next :=
  ⟨hversion, hrevision, fun h key projection hkey => h key projection (hcache ▸ hkey),
    fun _ hkept _ => hcache.trans hkept⟩

theorem Grows.refl (store : SnapshotStore) : store.Grows store := .of_cache le_rfl le_rfl rfl

theorem Grows.trans (h : store.Grows next) (h' : next.Grows last) : store.Grows last := by
  refine ⟨h.version.trans h'.version, h.revision.trans h'.revision,
    fun hkeyed => h'.keyed (h.keyed hkeyed), fun projection hcached hnumbers => ?_⟩
  -- The numbers in between stay as well, since they only grow.
  obtain ⟨hversion, hrevision⟩ := Prod.mk.inj hnumbers
  have hbetween : next.numbers = store.numbers :=
    Prod.ext (le_antisymm (h'.version.trans hversion.le) h.version)
      (le_antisymm (h'.revision.trans hrevision.le) h.revision)
  have hnext := h.kept projection hcached hbetween
  rw [← hbetween] at hnext hnumbers ⊢
  exact h'.kept projection hnext hnumbers

theorem grows_refreshMaintenance (store : SnapshotStore) (now : ℚ) :
    store.Grows (store.refreshMaintenance now) := by
  unfold refreshMaintenance
  dsimp only
  split
  · exact .refl store
  · split
    · exact .refl store
    · exact .of_cache (Nat.le_succ _) (Nat.le_succ _) rfl

theorem grows_refreshActions (store : SnapshotStore) (now : ℚ) :
    store.Grows (store.refreshActions now) := by
  unfold refreshActions
  dsimp only
  split
  · exact .refl store
  · split
    · exact .refl store
    · exact .of_cache (Nat.le_succ _) (Nat.le_succ _) rfl

theorem grows_refreshClock (store : SnapshotStore) (maintenanceAt actionAt : ℚ) :
    store.Grows ((store.refreshMaintenance maintenanceAt).refreshActions actionAt) :=
  (grows_refreshMaintenance store maintenanceAt).trans (grows_refreshActions _ actionAt)

theorem grows_refreshAdapterStatus (store : SnapshotStore) (statuses : String × String) :
    store.Grows (store.refreshAdapterStatus statuses) := by
  unfold refreshAdapterStatus
  split
  · exact .refl store
  · refine ⟨Nat.le_succ _, le_rfl, fun _ _ _ h => (by cases h), fun _ _ hnumbers => ?_⟩
    have hversion := congrArg Prod.fst hnumbers
    exact absurd hversion (Nat.succ_ne_self _)

theorem grows_publish (store : SnapshotStore) (now : ℚ) : store.Grows (store.publish now) := by
  have hgrows := grows_refreshMaintenance store now
  exact hgrows.trans (.of_cache (Nat.le_succ _) le_rfl rfl)

/-- A change that leaves the version alone grows when it is published. -/
theorem Grows.publish (h : store.Grows next) (now : ℚ) : store.Grows (next.publish now) :=
  h.trans (grows_publish next now)

theorem grows_syncTrackerRevision (store : SnapshotStore) :
    store.Grows store.syncTrackerRevision := by
  unfold syncTrackerRevision
  split
  · exact .refl store
  · exact .of_cache le_rfl (Nat.le_succ _) rfl

theorem Grows.sync (h : store.Grows next) : store.Grows next.syncTrackerRevision :=
  h.trans (grows_syncTrackerRevision next)

/-- A snapshot is the one that is cached under the numbers of the store. -/
theorem cached_snapshotLocked (store : SnapshotStore) (statuses : String × String) (now : ℚ)
    (generatedAt : String) :
    (store.snapshotLocked statuses now generatedAt).1.snapshotCache
      = some ((store.snapshotLocked statuses now generatedAt).1.numbers,
          (store.snapshotLocked statuses now generatedAt).2) := by
  unfold snapshotLocked
  dsimp only
  split
  · next key projection hcached =>
    obtain ⟨hcache, hkey⟩ := Option.filter_eq_some_iff.mp hcached
    have hsame : key = _ := of_decide_eq_true hkey
    rw [hcache, hsame]
    rfl
  · rfl

theorem grows_snapshotLocked (store : SnapshotStore) (statuses : String × String) (now : ℚ)
    (generatedAt : String) :
    store.Grows (store.snapshotLocked statuses now generatedAt).1 := by
  have hgrows := grows_refreshAdapterStatus store statuses
  unfold snapshotLocked
  dsimp only
  split
  · exact hgrows
  · next hmissed =>
    refine hgrows.trans ⟨le_rfl, le_rfl, fun _ key projection hkey => ?_,
      fun projection hcached _ => ?_⟩
    · obtain ⟨rfl, rfl⟩ := Prod.mk.inj (Option.some.inj hkey)
      rfl
    · -- A snapshot that is cached under the numbers would have been returned.
      rw [hcached, Option.filter_some] at hmissed
      exact absurd hmissed (by simp [numbers])

theorem grows_setHosts (store : SnapshotStore) (hosts : List String) (now : ℚ) :
    store.Grows (store.setHosts hosts now) := by
  have hgrows : store.Grows (syncTrackerRevision { store with
      state := store.state.setHosts hosts
      servers := store.servers.filterKeys (fun host => decide (host ∈ hosts)) }) :=
    Grows.sync (.of_cache le_rfl le_rfl rfl)
  unfold setHosts
  dsimp only
  split
  · exact hgrows.publish now
  · exact hgrows

/-- The revision may rise once more on top of a change that grows. -/
theorem Grows.raise (changes : Prop) [Decidable changes] (h : store.Grows next) :
    store.Grows (if changes then { next with incidentRevision := next.incidentRevision + 1 }
      else next) := by
  split
  · exact h.trans (.of_cache le_rfl (Nat.le_succ _) rfl)
  · exact h

variable {epochSeconds : String → Option ℚ}

theorem grows_apply {input : SampleInput} {now : ℚ}
    (h : store.apply epochSeconds input now = .ok next) : store.Grows next := by
  unfold apply at h
  dsimp only at h
  split at h
  · -- An ignored sample publishes the poll cycle at most.
    obtain rfl := Except.ok.inj h
    cases input.pollCycle with
    | none => exact .refl store
    | some cycle =>
      have hpolled : store.Grows (store.recordPollCycle cycle) := .of_cache le_rfl le_rfl rfl
      exact hpolled.publish now
  · obtain ⟨⟨events, state⟩, -, hnext⟩ := bind_eq_ok.mp h
    obtain rfl := Except.ok.inj hnext
    -- The revision follows the tracker, and it rises once more where a value changed.
    refine Grows.publish (Grows.raise _ (Grows.sync ?_)) now
    cases input.pollCycle with
    | none => exact .of_cache le_rfl le_rfl rfl
    | some cycle => exact .of_cache le_rfl le_rfl rfl

/-- A setter leaves the store alone or publishes. -/
theorem grows_setter (unchanged : Prop) [Decidable unchanged] {changed : SnapshotStore} (now : ℚ)
    (h : store.Grows changed) :
    store.Grows (if unchanged then store else changed.publish now) := by
  split
  · exact .refl store
  · exact h.publish now

/-- Every operation grows the numbers of the store, and a snapshot that it returns is the one that
is cached under them. -/
theorem grows_step {operation : Operation} {returned : Option Projection}
    (hstep : store.step epochSeconds operation = .ok (next, returned)) :
    store.Grows next ∧ ∀ projection, returned = some projection →
      next.snapshotCache = some (next.numbers, projection) := by
  have hquiet : ∀ changed : SnapshotStore,
      .ok (changed, none) = (Except.ok (next, returned) : Except KeyError _) →
      store.Grows changed →
      store.Grows next ∧ ∀ projection, returned = some projection →
        next.snapshotCache = some (next.numbers, projection) := by
    intro changed heq hgrows
    obtain ⟨rfl, rfl⟩ := Prod.mk.inj (Except.ok.inj heq)
    exact ⟨hgrows, fun _ h => by cases h⟩
  have hsame : ∀ changed : SnapshotStore, changed.version = store.version →
      store.incidentRevision ≤ changed.incidentRevision →
      changed.snapshotCache = store.snapshotCache → store.Grows changed :=
    fun changed hversion hrevision hcache => .of_cache hversion.ge hrevision hcache
  cases operation with
  | setHosts hosts now => exact hquiet _ hstep (grows_setHosts store hosts now)
  | setCollectorError message now =>
    exact hquiet _ hstep (grows_setter _ now (hsame _ rfl le_rfl rfl))
  | setPollInterval interval now =>
    exact hquiet _ hstep (grows_setter _ now (hsame _ rfl le_rfl rfl))
  | setPolicy policy => exact hquiet _ hstep (hsame _ rfl le_rfl rfl)
  | setMaintenanceWindows windows signatureAt now =>
    exact hquiet _ hstep (grows_setter _ now (hsame _ rfl (Nat.le_succ _) rfl))
  | setIncidentActions actions signatureAt now =>
    exact hquiet _ hstep (grows_setter _ now (hsame _ rfl (Nat.le_succ _) rfl))
  | setHostDisplayNames names now =>
    exact hquiet _ hstep (grows_setter _ now (hsame _ rfl le_rfl rfl))
  | setHostGroups groups policy now =>
    exact hquiet _ hstep (grows_setter _ now (hsame _ rfl le_rfl rfl))
  | setIncidentOverrides hostOverrides groupOverrides policy now =>
    exact hquiet _ hstep (grows_setter _ now (hsame _ rfl (Nat.le_succ _) rfl))
  | setTopology topology now =>
    exact hquiet _ hstep (grows_setter _ now (hsame _ rfl (Nat.le_succ _) rfl))
  | beginPoll hosts now =>
    exact hquiet _ hstep (grows_setter _ now (hsame _ rfl le_rfl rfl))
  | apply input now =>
    obtain ⟨applied, happly, hnext⟩ := bind_eq_ok.mp hstep
    exact hquiet _ hnext (grows_apply happly)
  | rescheduleRetry host nextRetryAt now =>
    exact hquiet _ hstep (grows_setter _ now (hsame _ rfl le_rfl rfl))
  | recordPollCycle cycle now =>
    exact hquiet _ hstep ((hsame (store.recordPollCycle cycle) rfl le_rfl rfl).publish now)
  | refreshClock maintenanceAt actionAt =>
    exact hquiet _ hstep (grows_refreshClock store maintenanceAt actionAt)
  | refreshAdapters statuses => exact hquiet _ hstep (grows_refreshAdapterStatus store statuses)
  | snapshotView maintenanceAt actionAt statuses now generatedAt =>
    obtain ⟨rfl, rfl⟩ := Prod.mk.inj (Except.ok.inj hstep)
    have hclock := grows_refreshClock store maintenanceAt actionAt
    refine ⟨hclock.trans (grows_snapshotLocked _ statuses now generatedAt),
      fun projection hprojection => ?_⟩
    obtain rfl := Option.some.inj hprojection
    exact cached_snapshotLocked _ statuses now generatedAt
  | waitForUpdate afterVersion statuses now generatedAt =>
    dsimp only [step] at hstep
    split at hstep
    · exact hquiet _ hstep (.refl store)
    · obtain ⟨rfl, rfl⟩ := Prod.mk.inj (Except.ok.inj hstep)
      refine ⟨grows_snapshotLocked store statuses now generatedAt,
        fun projection hprojection => ?_⟩
      obtain rfl := Option.some.inj hprojection
      exact cached_snapshotLocked store statuses now generatedAt

/-- A snapshot that an operation returns has the numbers of the store. -/
theorem numbers_of_step {operation : Operation} {projection : Projection}
    (hkeyed : store.CacheKeyed)
    (hstep : store.step epochSeconds operation = .ok (next, some projection)) :
    projection.version = next.version ∧ projection.incidentVersion = next.incidentRevision := by
  obtain ⟨hgrows, hcached⟩ := grows_step hstep
  have hnumbers := hgrows.keyed hkeyed _ _ (hcached projection rfl)
  exact ⟨(congrArg Prod.fst hnumbers).symm, (congrArg Prod.snd hnumbers).symm⟩

end SnapshotStore

end Mocop
