import Mocop.Service.IncidentFeed
import Mocop.Service.Versions

/-!
# `Mocop.Service.FeedRevision`: when the feed changes, and when its revision rises

A reader fetches the incident feed again when the incident revision rises. `feed_covers_iff` says
for every sample when a change of the feed raises the revision. It does when the clock moves the
overlay, when a condition makes a transition, and when a value is new (`FeedMoves`). Otherwise the
feed must not change, and it does not only if the sample shows every active condition as it was,
at the time at which it was last observed (`FeedStays`). `next_observation_unversioned` is a
second sample a minute later: the feed shows another time of the last observation under the same
revision.
-/

set_option autoImplicit false

namespace Mocop

attribute [local instance] lawfulBEq_identity

/-! ### What a sample does -/

namespace StateStore

/-- Whether a sample is taken in. -/
def Takes (state : StateStore) (input : SampleInput) : Prop :=
  input.result.host ∈ state.servers ∧ (input.expectedIncarnation = none
    ∨ state.hostIncarnations.get? input.result.host = input.expectedIncarnation)

instance (state : StateStore) (input : SampleInput) : Decidable (state.Takes input) :=
  inferInstanceAs (Decidable (_ ∧ _))

/-- The time that a key of an active condition is bound to after a sample: a candidate of the
host with an action in force is bound to the generation that the sample shows. -/
def bindingAfter (state : StateStore) (input : SampleInput) (key : String × String)
    (openedAt : String) : Option String :=
  if state.Takes input ∧ key.1 = input.result.host then
    match state.activeAction input.clock.bindings key with
    | none => none
    | some _ =>
      if key ∈ state.startupActionCandidates then some openedAt
      else state.startupActionBindings.get? key
  else state.startupActionBindings.get? key

/-- What a sample says of a condition of its host. -/
def readingOf (state : StateStore) (input : SampleInput) (key : String) : Reading :=
  input.result.reading state.incidentPolicy key

/-- The windows or the actions in force at a later reading of the clock are others than those at
the readings of the feed. -/
def ClockMoves (state : StateStore) (publishes : Bool) (publishAt : ℚ) (before after : FeedClock) :
    Prop :=
  (publishes = true ∧ state.maintenanceSignature publishAt
      ≠ state.maintenanceSignature before.maintenance)
    ∨ state.maintenanceSignature after.maintenance ≠ state.maintenanceSignature before.maintenance
    ∨ state.actionSignature after.actions ≠ state.actionSignature before.actions

section
variable (epochSeconds : String → Option ℚ)

/-- A sample makes a transition, or it shows an active condition with another value. -/
def DataMoves (state : StateStore) (input : SampleInput) : Prop :=
  ∃ key, (state.incidents.lifecycle input.result.host key).transits epochSeconds
        (state.readingOf input key) = true
      ∨ (state.incidents.lifecycle input.result.host key).revalues (state.readingOf input key)
        = true

/-- What raises the incident revision from one feed to the next around a sample. -/
def FeedMoves (state : StateStore) (input : SampleInput) (publishAt : ℚ)
    (before after : FeedClock) : Prop :=
  state.ClockMoves (decide (state.Takes input) || input.pollCycle.isSome) publishAt before after
    ∨ (state.Takes input ∧ state.DataMoves epochSeconds input)

end

/-- The overlay of every active condition is as it was, and the sample shows each active condition
of its host as it was, at the time at which it was last observed, or does not show it. -/
def FeedStays (state : StateStore) (input : SampleInput) (before after : FeedClock) : Prop :=
  ∀ host key condition openedAt lastObservedAt recovery change,
    state.incidents.lifecycle host key
        = .active condition openedAt lastObservedAt recovery change →
      state.overlay before.now (host, key) (state.startupActionBindings.get? (host, key)) openedAt
          = state.overlay after.now (host, key) (state.bindingAfter input (host, key) openedAt)
            openedAt
        ∧ (state.Takes input → host = input.result.host →
          ∀ new, (state.readingOf input key).observed = some new →
            { new with severity := condition.severity }.activeDict host = condition.activeDict host
              ∧ new.observedAt = lastObservedAt)

end StateStore

/-! ### Comparisons with the clock -/

namespace SnapshotStore

variable {store : SnapshotStore} {earlier : ℚ}

/-- The last comparison of the windows in force was at this reading, or there are no windows. -/
def MaintenanceAt (store : SnapshotStore) (reading : ℚ) : Prop :=
  store.state.maintenanceWindows.entries.isEmpty = false →
    store.activeMaintenanceSignature = store.state.maintenanceSignature reading

/-- The last comparison of the actions in force was at this reading, or there are no actions. -/
def ActionsAt (store : SnapshotStore) (reading : ℚ) : Prop :=
  store.state.incidentActions.entries.isEmpty = false →
    store.activeActionSignature = store.state.actionSignature reading

theorem refreshMaintenance_at (store : SnapshotStore) (now : ℚ) :
    (store.refreshMaintenance now).MaintenanceAt now := by
  unfold refreshMaintenance MaintenanceAt
  dsimp only
  split
  · rename_i hempty
    intro hwindows
    rw [hempty] at hwindows
    cases hwindows
  · split
    · rename_i hsame
      exact fun _ => hsame.symm
    · exact fun _ => rfl

theorem refreshActions_at (store : SnapshotStore) (now : ℚ) :
    (store.refreshActions now).ActionsAt now := by
  unfold refreshActions ActionsAt
  dsimp only
  split
  · rename_i hempty
    intro hactions
    rw [hempty] at hactions
    cases hactions
  · split
    · rename_i hsame
      exact fun _ => hsame.symm
    · exact fun _ => rfl

/-- A comparison raises the revision exactly when the windows in force have changed since the
last one. -/
theorem refreshMaintenance_revision (h : store.MaintenanceAt earlier) (now : ℚ) :
    (store.refreshMaintenance now).incidentRevision = store.incidentRevision
      + if store.state.maintenanceSignature now = store.state.maintenanceSignature earlier
        then 0 else 1 := by
  unfold refreshMaintenance
  dsimp only
  split
  · rename_i hempty
    have hsame : store.state.maintenanceSignature now = store.state.maintenanceSignature earlier := by
      unfold StateStore.maintenanceSignature
      rw [List.isEmpty_iff.mp hempty]
      rfl
    rw [if_pos hsame]
    rfl
  · rename_i hwindows
    rw [Bool.not_eq_true] at hwindows
    rw [h hwindows]
    split
    · rfl
    · rfl

theorem refreshActions_revision (h : store.ActionsAt earlier) (now : ℚ) :
    (store.refreshActions now).incidentRevision = store.incidentRevision
      + if store.state.actionSignature now = store.state.actionSignature earlier then 0 else 1 := by
  unfold refreshActions
  dsimp only
  split
  · rename_i hempty
    have hsame : store.state.actionSignature now = store.state.actionSignature earlier := by
      unfold StateStore.actionSignature
      rw [List.isEmpty_iff.mp hempty]
      rfl
    rw [if_pos hsame]
    rfl
  · rename_i hactions
    rw [Bool.not_eq_true] at hactions
    rw [h hactions]
    split
    · rfl
    · rfl

/-- A comparison of the windows leaves the actions alone, and the other way round. -/
theorem refreshMaintenance_frame (store : SnapshotStore) (now : ℚ) :
    (store.refreshMaintenance now).state = store.state
      ∧ (store.refreshMaintenance now).activeActionSignature = store.activeActionSignature := by
  unfold refreshMaintenance
  dsimp only
  split
  · exact ⟨rfl, rfl⟩
  · split
    · exact ⟨rfl, rfl⟩
    · exact ⟨rfl, rfl⟩

theorem refreshActions_frame (store : SnapshotStore) (now : ℚ) :
    (store.refreshActions now).state = store.state
      ∧ (store.refreshActions now).activeMaintenanceSignature
        = store.activeMaintenanceSignature := by
  unfold refreshActions
  dsimp only
  split
  · exact ⟨rfl, rfl⟩
  · split
    · exact ⟨rfl, rfl⟩
    · exact ⟨rfl, rfl⟩

/-- Serving the feed leaves the state, and both comparisons are at its readings. -/
theorem incidents_served (store : SnapshotStore) (clock : FeedClock) :
    (store.incidents clock).1.state = store.state
      ∧ (store.incidents clock).1.MaintenanceAt clock.maintenance
      ∧ (store.incidents clock).1.ActionsAt clock.actions
      ∧ (store.incidents clock).2 = ⟨(store.incidents clock).1.incidentRevision,
        store.state.activeList clock.now⟩ := by
  obtain ⟨hstate, -⟩ := refreshMaintenance_frame store clock.maintenance
  obtain ⟨hstate', hsignature⟩ :=
    refreshActions_frame (store.refreshMaintenance clock.maintenance) clock.actions
  have hserved : (store.incidents clock).1.state = store.state := hstate'.trans hstate
  refine ⟨hserved, ?_, refreshActions_at _ _, ?_⟩
  · intro hwindows
    have hat := refreshMaintenance_at store clock.maintenance
    rw [MaintenanceAt, hstate] at hat
    rw [hserved] at hwindows ⊢
    exact hsignature.trans (hat hwindows)
  · rw [← hserved]
    rfl

/-- The revision of the next feed, from the readings of the last comparisons. -/
theorem incidents_revision {maintenanceAt actionsAt : ℚ} (hwindows : store.MaintenanceAt maintenanceAt)
    (hactions : store.ActionsAt actionsAt) (clock : FeedClock) :
    (store.incidents clock).2.version = store.incidentRevision
      + (if store.state.maintenanceSignature clock.maintenance
          = store.state.maintenanceSignature maintenanceAt then 0 else 1)
      + (if store.state.actionSignature clock.actions = store.state.actionSignature actionsAt
          then 0 else 1) := by
  obtain ⟨hstate, hsignature⟩ := refreshMaintenance_frame store clock.maintenance
  have hkept : (store.refreshMaintenance clock.maintenance).ActionsAt actionsAt := by
    rw [ActionsAt, hstate, hsignature]
    exact hactions
  show (refreshActions _ _).incidentRevision = _
  rw [refreshActions_revision hkept, refreshMaintenance_revision hwindows, hstate]

end SnapshotStore

/-! ### A sample that is taken in -/

/-- An update creates no transition exactly when no condition transits. -/
theorem created_eq_nil_iff {epochSeconds : String → Option ℚ} {policy : IncidentPolicy}
    {result : ProbeResult} {fleet : Fleet} {created : List IncidentEvent}
    (h : ∀ key, transitionsOf created key = ((fleet result.host key).step epochSeconds
      (result.reading policy key)).2.toList) :
    created = [] ↔ ∀ key, (fleet result.host key).transits epochSeconds
      (result.reading policy key) = false := by
  constructor
  · intro hnone key
    rw [← Lifecycle.step_transits, Option.isSome_eq_false_iff, Option.isNone_iff_eq_none]
    have hkey := h key
    rw [hnone] at hkey
    exact Option.toList_eq_nil_iff.mp hkey.symm
  · intro hquiet
    refine List.eq_nil_iff_forall_not_mem.mpr fun event hevent => ?_
    have hkey := hquiet event.condition.key
    rw [← Lifecycle.step_transits, Option.isSome_eq_false_iff, Option.isNone_iff_eq_none] at hkey
    have hlisted : (event.state, event.condition) ∈ transitionsOf created event.condition.key :=
      List.mem_map.mpr ⟨event, List.mem_filter.mpr ⟨hevent, by simp⟩, rfl⟩
    rw [h, hkey] at hlisted
    cases hlisted

namespace StateStore

variable {epochSeconds : String → Option ℚ} {state : StateStore} {fleet : Fleet}

/-- What a sample that is taken in makes of the state, as far as the feed goes. -/
theorem apply_taken (h : state.incidents.Represents fleet)
    (hserved : ∀ host ∈ state.servers, (state.hostIncarnations.get? host).isSome)
    {input : SampleInput} (htakes : state.Takes input) :
    ∃ events next, state.apply epochSeconds input.setOrder input.clock input.result
          input.expectedIncarnation = .ok (events, next)
      ∧ next.incidents.Represents (fleet.step epochSeconds state.incidentPolicy input.result)
      ∧ next.maintenanceWindows = state.maintenanceWindows
      ∧ next.incidentActions = state.incidentActions
      ∧ (∀ host key openedAt, openingTime
            (fleet.step epochSeconds state.incidentPolicy input.result host key) = some openedAt →
          next.startupActionBindings.get? (host, key)
            = state.bindingAfter input (host, key) openedAt)
      ∧ (next.incidents.log.version = state.incidents.log.version
        ↔ ∀ key, (fleet input.result.host key).transits epochSeconds (state.readingOf input key)
          = false) := by
  rcases @apply_cases epochSeconds state fleet h hserved input.setOrder input.clock input.result
      input.expectedIncarnation with ⟨hignored, -⟩
    | ⟨w, incarnation, candidates, bindings, updated, -, hrepresents, htransitions, hextends, -,
      hupdated, hrefreshed, happly⟩
  · exfalso
    rcases hignored with hunknown | ⟨hexpected, hother⟩
    · exact hunknown htakes.1
    · exact htakes.2.elim hexpected hother
  · obtain ⟨next, happly, hincidents, hwindows, hactions, hbindings⟩ : ∃ next,
        state.apply epochSeconds input.setOrder input.clock input.result
            input.expectedIncarnation = .ok (w.created.filter (updated.isAnnounced input.clock), next)
          ∧ next.incidents = updated.incidents
          ∧ next.maintenanceWindows = updated.maintenanceWindows
          ∧ next.incidentActions = updated.incidentActions
          ∧ next.startupActionBindings = updated.startupActionBindings := by
      refine ⟨_, happly, ?_⟩
      split
      · exact ⟨rfl, rfl, rfl, rfl⟩
      · exact ⟨rfl, rfl, rfl, rfl⟩
    have hincidents' : next.incidents = state.incidents.store input.result.host w := by
      rw [hincidents, hupdated]
    have hrep : next.incidents.Represents
        (fleet.step epochSeconds state.incidentPolicy input.result) := hincidents' ▸ hrepresents
    refine ⟨_, next, happly, hrep, by rw [hwindows, hupdated], by rw [hactions, hupdated], ?_, ?_⟩
    · intro host key openedAt hopened
      have hview := congrArg Prod.snd (bindingView_refresh
        { state with incidents := state.incidents.store input.result.host w } input.clock.bindings
        input.result (host, key))
      rw [← hrefreshed] at hview
      have hget : next.startupActionBindings.get? (host, key)
          = (updated.bindingView (host, key)).2 := by rw [hbindings]; rfl
      rw [hget, hview]
      have hstarted : (state.incidents.store input.result.host w).activeStartedAt host key
          = some openedAt := (activeStartedAt_eq hrepresents host key).trans hopened
      unfold bindingAfter
      by_cases hhost : host = input.result.host
      · rw [if_pos hhost, if_pos ⟨htakes, hhost⟩]
        dsimp only
        rw [hstarted]
        show (settleBinding (state.activeAction input.clock.bindings (host, key)) _ _ _).2 = _
        cases state.activeAction input.clock.bindings (host, key) with
        | none => rfl
        | some action =>
          show (if decide ((host, key) ∈ state.startupActionCandidates) = true
            then (false, some openedAt) else _).2 = _
          by_cases hcandidate : (host, key) ∈ state.startupActionCandidates
          · rw [if_pos (decide_eq_true hcandidate)]
            simp [hcandidate]
          · rw [if_neg (by simp [hcandidate])]
            simp [hcandidate, bindingView]
      · rw [if_neg hhost, if_neg fun hboth => hhost hboth.2]
        rfl
    · have hversion : next.incidents.log.version
          = state.incidents.log.version + w.created.length := by
        rw [hincidents']
        exact hextends.version
      rw [hversion, Nat.add_eq_left, List.length_eq_zero_iff]
      exact created_eq_nil_iff htransitions

end StateStore

/-- Without a transition, a sample leaves the values of its host exactly when it shows no active
condition with another value. -/
theorem activeSignature_step {epochSeconds : String → Option ℚ} {policy : IncidentPolicy}
    {result : ProbeResult} {fleet : Fleet} {tracker next : IncidentTracker}
    (h : tracker.Represents fleet) (hnext : next.Represents (fleet.step epochSeconds policy result))
    (hquiet : ∀ key, (fleet result.host key).transits epochSeconds (result.reading policy key)
      = false) :
    next.activeSignature result.host = tracker.activeSignature result.host
      ↔ ∀ key, (fleet result.host key).revalues (result.reading policy key) = false := by
  rw [activeSignature_eq_iff hnext h]
  refine forall_congr' fun key => ?_
  have hkey := hquiet key
  unfold Fleet.step Lifecycle.revalues
  rw [if_pos rfl]
  cases hl : fleet result.host key with
  | inactive candidate =>
    rw [hl] at hkey
    obtain ⟨candidate', hstep⟩ := Lifecycle.step_inactive epochSeconds hkey
    rw [hstep]
    exact ⟨fun _ => rfl, fun _ => rfl⟩
  | active old openedAt lastObservedAt recovery change =>
    rw [hl] at hkey
    obtain ⟨condition, last, recovery', change', hstep, hunseen, hseen⟩ :=
      Lifecycle.step_active epochSeconds hkey
    rw [hstep]
    show (some (condition.signature key) = some (old.signature key)) ↔ _
    rw [Option.some.injEq]
    cases hobserved : (result.reading policy key).observed with
    | none =>
      rw [(hunseen hobserved).1]
      exact ⟨fun _ => rfl, fun _ => rfl⟩
    | some new =>
      obtain ⟨-, criticalAt, rfl⟩ := hseen new hobserved
      simp only [IncidentCondition.signature, ConditionSignature.mk.injEq, true_and,
        Lifecycle.condition, Option.any_some, decide_eq_false_iff_not]
      grind

namespace SnapshotStore

variable {epochSeconds : String → Option ℚ} {store : SnapshotStore} {fleet : Fleet} {earlier : ℚ}

/-- Publishing compares the windows in force, and raises the revision if they have changed. -/
theorem publish_revision (h : store.MaintenanceAt earlier) (now : ℚ) :
    (store.publish now).state = store.state
      ∧ (store.publish now).activeActionSignature = store.activeActionSignature
      ∧ (store.publish now).MaintenanceAt now
      ∧ (store.publish now).incidentRevision = store.incidentRevision
        + if store.state.maintenanceSignature now = store.state.maintenanceSignature earlier
          then 0 else 1 := by
  obtain ⟨hstate, hsignature⟩ := refreshMaintenance_frame store now
  exact ⟨hstate, hsignature, refreshMaintenance_at store now, refreshMaintenance_revision h now⟩

/-- The lifecycles after a sample. -/
def fleetAfter (epochSeconds : String → Option ℚ) (state : StateStore) (input : SampleInput)
    (fleet : Fleet) : Fleet :=
  if state.Takes input then fleet.step epochSeconds state.incidentPolicy input.result else fleet

/-- What a sample makes of the store, as far as the feed goes. -/
structure FeedStep (epochSeconds : String → Option ℚ) (store : SnapshotStore) (fleet : Fleet)
    (input : SampleInput) (earlier publishAt : ℚ) (next : SnapshotStore) : Prop where
  represents : next.state.incidents.Represents (fleetAfter epochSeconds store.state input fleet)
  windows : next.state.maintenanceWindows = store.state.maintenanceWindows
  actions : next.state.incidentActions = store.state.incidentActions
  bindings : ∀ host key openedAt,
    StateStore.openingTime (fleetAfter epochSeconds store.state input fleet host key) = some openedAt →
    next.state.startupActionBindings.get? (host, key)
      = store.state.bindingAfter input (host, key) openedAt
  actionSignature : next.activeActionSignature = store.activeActionSignature
  maintenanceAt : next.MaintenanceAt
    (if (decide (store.state.Takes input) || input.pollCycle.isSome) = true then publishAt
      else earlier)
  quiet : next.incidentRevision = store.incidentRevision
    ↔ ((decide (store.state.Takes input) || input.pollCycle.isSome) = true →
        store.state.maintenanceSignature publishAt = store.state.maintenanceSignature earlier)
      ∧ (store.state.Takes input → ¬store.state.DataMoves epochSeconds input)
  rises : store.incidentRevision ≤ next.incidentRevision

/-- The revision after a sample that is taken in, before it is published. -/
theorem taken_revision (h : store.Coherent) (hfleet : store.state.incidents.Represents fleet)
    {input : SampleInput} {state : StateStore}
    (hrep : state.incidents.Represents
      (fleet.step epochSeconds store.state.incidentPolicy input.result))
    (hversion : state.incidents.log.version = store.state.incidents.log.version
      ↔ ∀ key, (fleet input.result.host key).transits epochSeconds
        (store.state.readingOf input key) = false) {updated : SnapshotStore}
    (hstate : updated.state = state) (htracker : updated.trackerVersion = store.trackerVersion)
    (hrevision : updated.incidentRevision = store.incidentRevision) :
    ∃ synced : SnapshotStore, (if store.state.incidents.activeSignature input.result.host ≠ []
          ∧ state.incidents.activeSignature input.result.host
            ≠ store.state.incidents.activeSignature input.result.host
          ∧ state.incidents.log.version = store.state.incidents.log.version then
        { updated.syncTrackerRevision with
          incidentRevision := updated.syncTrackerRevision.incidentRevision + 1 }
      else updated.syncTrackerRevision) = synced
      ∧ synced.state = updated.state
      ∧ synced.activeMaintenanceSignature = updated.activeMaintenanceSignature
      ∧ synced.activeActionSignature = updated.activeActionSignature
      ∧ (synced.incidentRevision = store.incidentRevision
        ↔ ¬store.state.DataMoves epochSeconds input)
      ∧ store.incidentRevision ≤ synced.incidentRevision := by
  have hlifecycles := hfleet.lifecycle_eq
  by_cases hquiet : ∀ key, (fleet input.result.host key).transits epochSeconds
      (store.state.readingOf input key) = false
  · have hsame := hversion.mpr hquiet
    have hsynced : updated.syncTrackerRevision = updated := by
      unfold syncTrackerRevision
      rw [if_pos (by rw [hstate, hsame, htracker, h.synced])]
    have hvalues := activeSignature_step hfleet hrep hquiet
    have hmoves : store.state.DataMoves epochSeconds input
        ↔ state.incidents.activeSignature input.result.host
          ≠ store.state.incidents.activeSignature input.result.host := by
      rw [Ne, hvalues, not_forall]
      unfold StateStore.DataMoves
      rw [hlifecycles]
      refine exists_congr fun key => ?_
      rw [hquiet key, Bool.not_eq_false]
      simp [StateStore.readingOf]
    rw [hsynced]
    by_cases hdiffers : state.incidents.activeSignature input.result.host
        ≠ store.state.incidents.activeSignature input.result.host
    · -- A host without an active condition has no value that could be new.
      have hsome : store.state.incidents.activeSignature input.result.host ≠ [] := by
        intro hnone
        refine hdiffers (hvalues.mpr fun key => ?_)
        unfold Lifecycle.revalues
        cases hcondition : (fleet input.result.host key).condition with
        | none => rfl
        | some condition =>
          have hmem := (mem_activeSignature hfleet input.result.host).mpr
            ⟨key, condition, hcondition, rfl⟩
          rw [hnone] at hmem
          cases hmem
      rw [if_pos ⟨hsome, hdiffers, hsame⟩]
      refine ⟨_, rfl, rfl, rfl, rfl, ?_, ?_⟩
      · show updated.incidentRevision + 1 = _ ↔ _
        exact ⟨fun heq => by omega, fun hnot => absurd (hmoves.mpr hdiffers) hnot⟩
      · show _ ≤ updated.incidentRevision + 1
        omega
    · rw [if_neg fun hall => hdiffers hall.2.1]
      exact ⟨_, rfl, rfl, rfl, rfl,
        ⟨fun _ hdata => hdiffers (hmoves.mp hdata), fun _ => hrevision⟩, hrevision.ge⟩
  · have hother : state.incidents.log.version ≠ store.state.incidents.log.version :=
      fun hsame => hquiet (hversion.mp hsame)
    have hmoves : store.state.DataMoves epochSeconds input := by
      obtain ⟨key, hkey⟩ := not_forall.mp hquiet
      refine ⟨key, .inl ?_⟩
      rw [hlifecycles]
      simpa using hkey
    rw [if_neg fun hall => hother hall.2.2]
    unfold syncTrackerRevision
    rw [if_neg (by rw [hstate, htracker, h.synced]; exact hother)]
    refine ⟨_, rfl, rfl, rfl, rfl, ?_, ?_⟩
    · show updated.incidentRevision + 1 = _ ↔ _
      exact ⟨fun heq => by omega, fun hnot => absurd hmoves hnot⟩
    · show _ ≤ updated.incidentRevision + 1
      omega

/-- Every sample is a step of the feed. -/
theorem apply_feed (h : store.Coherent) (hfleet : store.state.incidents.Represents fleet)
    (hwindows : store.MaintenanceAt earlier) (input : SampleInput) (publishAt : ℚ) :
    ∃ next, store.apply epochSeconds input publishAt = .ok next
      ∧ FeedStep epochSeconds store fleet input earlier publishAt next := by
  unfold apply
  dsimp only
  by_cases htakes : store.state.Takes input
  · have hnot : ¬(input.result.host ∉ store.state.servers ∨ (input.expectedIncarnation ≠ none
        ∧ store.state.hostIncarnations.get? input.result.host ≠ input.expectedIncarnation)) := by
      rintro (hunknown | ⟨hexpected, hother⟩)
      · exact hunknown htakes.1
      · exact htakes.2.elim hexpected hother
    obtain ⟨announced, hsound⟩ := h.sound
    obtain ⟨events, state, happly, hrep, hstateWindows, hstateActions, hbindings, hversion⟩ :=
      @StateStore.apply_taken epochSeconds store.state fleet hfleet
        (fun host hmem => (hsound.hosts.served host).mp hmem) input htakes
    have hafter : fleetAfter epochSeconds store.state input fleet
        = fleet.step epochSeconds store.state.incidentPolicy input.result := if_pos htakes
    have hpublishes : (decide (store.state.Takes input) || input.pollCycle.isSome) = true := by
      rw [decide_eq_true htakes, Bool.true_or]
    -- The poll cycle and the record of the server do not matter.
    have hfinish : ∀ updated : SnapshotStore, updated.state = state →
        updated.trackerVersion = store.trackerVersion →
        updated.incidentRevision = store.incidentRevision →
        updated.activeMaintenanceSignature = store.activeMaintenanceSignature →
        updated.activeActionSignature = store.activeActionSignature →
        FeedStep epochSeconds store fleet input earlier publishAt
          ((if store.state.incidents.activeSignature input.result.host ≠ []
              ∧ state.incidents.activeSignature input.result.host
                ≠ store.state.incidents.activeSignature input.result.host
              ∧ state.incidents.log.version = store.state.incidents.log.version then
            { updated.syncTrackerRevision with
              incidentRevision := updated.syncTrackerRevision.incidentRevision + 1 }
          else updated.syncTrackerRevision).publish publishAt) := by
      intro updated hstate htracker hrevision hsignature hactions
      obtain ⟨synced, hsynced, hsyncedState, hsyncedSignature, hsyncedActions, hdata, hle⟩ :=
        taken_revision h hfleet hrep hversion hstate htracker hrevision
      have hat : synced.MaintenanceAt earlier := by
        rw [MaintenanceAt, hsyncedState, hsyncedSignature, hstate, hsignature,
          StateStore.maintenanceSignature, hstateWindows]
        exact hwindows
      obtain ⟨hpublished, hpublishedActions, hpublishedAt, hraised⟩ :=
        publish_revision hat publishAt
      have hsame : ∀ reading, synced.state.maintenanceSignature reading
          = store.state.maintenanceSignature reading := by
        intro reading
        rw [hsyncedState, hstate, StateStore.maintenanceSignature, hstateWindows]
        rfl
      have hfinal : (synced.publish publishAt).state = state :=
        hpublished.trans (hsyncedState.trans hstate)
      rw [hsynced]
      constructor
      · rw [hfinal, hafter]
        exact hrep
      · rw [hfinal, hstateWindows]
      · rw [hfinal, hstateActions]
      · intro host key openedAt hopened
        rw [hafter] at hopened
        rw [hfinal]
        exact hbindings host key openedAt hopened
      · rw [hpublishedActions, hsyncedActions, hactions]
      · rw [if_pos hpublishes]
        exact hpublishedAt
      · rw [hraised, hsame, hsame]
        constructor
        · intro hquiet
          have hclock : store.state.maintenanceSignature publishAt
              = store.state.maintenanceSignature earlier := by
            by_contra hmoved
            rw [if_neg hmoved] at hquiet
            omega
          rw [if_pos hclock] at hquiet
          exact ⟨fun _ => hclock, fun _ => hdata.mp (by omega)⟩
        · rintro ⟨hclock, hquiet⟩
          rw [if_pos (hclock hpublishes), hdata.mpr (hquiet htakes)]
          rfl
      · rw [hraised]
        omega
    rw [if_neg hnot, happly]
    cases input.pollCycle with
    | none => exact ⟨_, rfl, hfinish _ rfl rfl rfl rfl rfl⟩
    | some cycle => exact ⟨_, rfl, hfinish _ rfl rfl rfl rfl rfl⟩
  · have hignored : input.result.host ∉ store.state.servers ∨ (input.expectedIncarnation ≠ none
        ∧ store.state.hostIncarnations.get? input.result.host ≠ input.expectedIncarnation) := by
      by_contra hnot
      rw [not_or, not_not, not_and_or, not_not, not_not] at hnot
      exact htakes hnot
    have hafter : fleetAfter epochSeconds store.state input fleet = fleet := if_neg htakes
    have hbindings : ∀ host key openedAt, store.state.startupActionBindings.get? (host, key)
        = store.state.bindingAfter input (host, key) openedAt := by
      intro host key openedAt
      unfold StateStore.bindingAfter
      rw [if_neg fun hboth => htakes hboth.1]
    have hpublishes : (decide (store.state.Takes input) || input.pollCycle.isSome)
        = input.pollCycle.isSome := by
      rw [decide_eq_false htakes, Bool.false_or]
    rw [if_pos hignored]
    cases hcycle : input.pollCycle with
    | none =>
      replace hpublishes := hpublishes.trans
        (show input.pollCycle.isSome = false by rw [hcycle]; rfl)
      refine ⟨store, rfl, ?_, rfl, rfl, fun host key openedAt _ => hbindings host key openedAt, rfl,
        ?_, ?_, Nat.le_refl _⟩
      · rw [hafter]
        exact hfleet
      · rw [hpublishes]
        exact hwindows
      · rw [hpublishes]
        exact ⟨fun _ => ⟨fun hfalse => (nomatch hfalse), fun hyes => absurd hyes htakes⟩,
          fun _ => rfl⟩
    | some cycle =>
      replace hpublishes := hpublishes.trans
        (show input.pollCycle.isSome = true by rw [hcycle]; rfl)
      have hat : (store.recordPollCycle cycle).MaintenanceAt earlier := hwindows
      obtain ⟨hpublished, hpublishedActions, hpublishedAt, hraised⟩ :=
        publish_revision hat publishAt
      refine ⟨(store.recordPollCycle cycle).publish publishAt, rfl, ?_, ?_, ?_, ?_,
        hpublishedActions, ?_, ?_, ?_⟩
      · rw [hpublished, hafter]
        exact hfleet
      · rw [hpublished]
        rfl
      · rw [hpublished]
        rfl
      · intro host key openedAt _
        rw [hpublished]
        exact hbindings host key openedAt
      · rw [hpublishes]
        exact hpublishedAt
      · rw [hraised, hpublishes]
        show store.incidentRevision + (if store.state.maintenanceSignature publishAt
            = store.state.maintenanceSignature earlier then 0 else 1) = _ ↔ _
        constructor
        · intro hquiet
          refine ⟨fun _ => ?_, fun hyes => absurd hyes htakes⟩
          by_contra hmoved
          rw [if_neg hmoved] at hquiet
          exact absurd hquiet (Nat.succ_ne_self _)
        · rintro ⟨hclock, -⟩
          rw [if_pos (hclock rfl)]
          rfl
      · rw [hraised]
        exact Nat.le_add_right _ _

/-- The feed after a quiet sample is the feed before exactly when every entry stays. -/
theorem entryOf_quiet {input : SampleInput} {publishAt : ℚ} {next : SnapshotStore}
    (hfleet : store.state.incidents.Represents fleet)
    (hstep : FeedStep epochSeconds store fleet input earlier publishAt next)
    (hquiet : store.state.Takes input → ¬store.state.DataMoves epochSeconds input)
    (before after : FeedClock) :
    (∀ host key, store.state.entryOf before.now host key = next.state.entryOf after.now host key)
      ↔ store.state.FeedStays input before after := by
  have hlifecycles := hfleet.lifecycle_eq
  have hafter := hstep.represents.lifecycle_eq
  -- The overlay after the sample is laid over the same windows and actions.
  have hoverlay : ∀ key binding openedAt, next.state.overlay after.now key binding openedAt
      = store.state.overlay after.now key binding openedAt := by
    intro key binding openedAt
    unfold StateStore.overlay StateStore.shownWindow StateStore.activeAction
    rw [hstep.windows, hstep.actions]
  unfold StateStore.FeedStays
  refine forall_congr' fun host => forall_congr' fun key => ?_
  have hbinding := hstep.bindings host key
  unfold StateStore.entryOf
  rw [hafter, hlifecycles]
  cases hl : fleet host key with
  | inactive candidate =>
    have hnone : ∃ candidate', fleetAfter epochSeconds store.state input fleet host key
        = .inactive candidate' := by
      unfold fleetAfter
      split
      · rename_i htakes
        unfold Fleet.step
        split
        · rename_i hhost
          rw [hl]
          refine Lifecycle.step_inactive epochSeconds ?_
          have hkey := not_exists.mp (hquiet htakes) key
          rw [hlifecycles, ← hhost, hl, not_or, Bool.not_eq_true] at hkey
          exact hkey.1
        · exact ⟨candidate, hl⟩
      · exact ⟨candidate, hl⟩
    obtain ⟨candidate', hnone⟩ := hnone
    rw [hnone]
    exact ⟨fun _ _ _ _ _ _ hactive => (nomatch hactive), fun _ => rfl⟩
  | active old openedAt lastObservedAt recovery change =>
    -- What the sample makes of the condition.
    obtain ⟨condition, last, recovery', change', hactive, hkept, hseen⟩ :
        ∃ condition last recovery' change',
          fleetAfter epochSeconds store.state input fleet host key
            = .active condition openedAt last recovery' change'
          ∧ (¬(store.state.Takes input ∧ host = input.result.host
              ∧ (store.state.readingOf input key).observed.isSome) →
            condition = old ∧ last = lastObservedAt)
          ∧ ∀ new, store.state.Takes input → host = input.result.host →
            (store.state.readingOf input key).observed = some new →
            last = new.observedAt ∧ ∃ criticalAt,
              condition = { new with severity := old.severity, criticalAt := criticalAt } := by
      unfold fleetAfter
      by_cases htakes : store.state.Takes input
      · rw [if_pos htakes]
        unfold Fleet.step
        by_cases hhost : host = input.result.host
        · have hkey := not_exists.mp (hquiet htakes) key
          rw [hlifecycles, ← hhost, hl, not_or, Bool.not_eq_true] at hkey
          obtain ⟨condition, last, recovery', change', hactive, hunseen, hseen⟩ :=
            Lifecycle.step_active epochSeconds hkey.1
          rw [if_pos hhost, hl]
          refine ⟨condition, last, recovery', change', hactive, fun hnot => hunseen ?_,
            fun new _ _ hnew => hseen new hnew⟩
          by_contra hsome
          exact hnot ⟨htakes, hhost, Option.isSome_iff_ne_none.mpr hsome⟩
        · rw [if_neg hhost]
          exact ⟨old, lastObservedAt, recovery, change, hl, fun _ => ⟨rfl, rfl⟩,
            fun _ _ hsame => absurd hsame hhost⟩
      · rw [if_neg htakes]
        exact ⟨old, lastObservedAt, recovery, change, hl, fun _ => ⟨rfl, rfl⟩,
          fun _ hyes => absurd hyes htakes⟩
    rw [hactive] at hbinding ⊢
    dsimp only
    rw [hbinding openedAt rfl, hoverlay, Option.some.injEq, FeedEntry.mk.injEq]
    constructor
    · rintro ⟨hfields, -, hlast, hover⟩ _ _ _ _ _ heq
      obtain ⟨rfl, rfl, rfl, rfl, rfl⟩ := Lifecycle.active.inj heq
      refine ⟨hover, fun htakes hhost new hnew => ?_⟩
      obtain ⟨hnewLast, criticalAt, rfl⟩ := hseen new htakes hhost hnew
      exact ⟨hfields.symm, hnewLast.symm.trans hlast.symm⟩
    · intro hstays
      obtain ⟨hover, hsame⟩ := hstays old openedAt lastObservedAt recovery change rfl
      by_cases hshown : store.state.Takes input ∧ host = input.result.host
          ∧ (store.state.readingOf input key).observed.isSome
      · obtain ⟨htakes, hhost, hsome⟩ := hshown
        obtain ⟨new, hnew⟩ := Option.isSome_iff_exists.mp hsome
        obtain ⟨hnewLast, criticalAt, rfl⟩ := hseen new htakes hhost hnew
        obtain ⟨hfields, hlast⟩ := hsame htakes hhost new hnew
        exact ⟨hfields.symm, rfl, hlast.symm.trans hnewLast.symm, hover⟩
      · obtain ⟨rfl, rfl⟩ := hkept hshown
        exact ⟨rfl, rfl, rfl, hover⟩

/-! ### Every run -/

/-- Every operation keeps the store coherent, a silent drop too. -/
theorem coherent_step (h : store.Coherent) (operation : Operation) {next : SnapshotStore}
    {returned : Option Projection} (hstep : store.step epochSeconds operation = .ok (next, returned)) :
    next.Coherent := by
  cases hdrops : store.dropsSilently operation with
  | false =>
    obtain ⟨next', returned', hstep', hcoherent, -⟩ := step_spec epochSeconds h operation hdrops
    obtain ⟨rfl, -⟩ := Prod.mk.inj (Except.ok.inj (hstep.symm.trans hstep'))
    exact hcoherent
  | true =>
    cases operation with
    | setHosts hosts now =>
      obtain ⟨rfl, -⟩ := Prod.mk.inj (Except.ok.inj hstep)
      obtain ⟨events, state, hset, hsound⟩ :=
        sound_step h.sound (fun _ => none) (.setHosts hosts)
      obtain ⟨-, rfl⟩ := Prod.mk.inj (Except.ok.inj hset)
      obtain ⟨-, -, hstate, htracker⟩ := syncTrackerRevision_spec
        { store with
          state := store.state.setHosts hosts
          servers := store.servers.filterKeys (fun host => decide (host ∈ hosts)) }
      have hsynced : ∀ synced : SnapshotStore, synced.state = store.state.setHosts hosts →
          synced.trackerVersion = (store.state.setHosts hosts).incidents.log.version →
          synced.Coherent :=
        fun synced hstate htracker => ⟨by rw [htracker, hstate], by rw [hstate]; exact hsound⟩
      unfold setHosts
      dsimp only
      split
      · obtain ⟨hpublished, -⟩ := refreshMaintenance_frame (syncTrackerRevision
          { store with
            state := store.state.setHosts hosts
            servers := store.servers.filterKeys (fun host => decide (host ∈ hosts)) }) now
        obtain ⟨-, -, -, hkept, -⟩ := refreshMaintenance_spec (syncTrackerRevision
          { store with
            state := store.state.setHosts hosts
            servers := store.servers.filterKeys (fun host => decide (host ∈ hosts)) }) now
        exact hsynced _ (hpublished.trans hstate) (hkept.trans htracker)
      · exact hsynced _ hstate htracker
    | _ => cases hdrops

/-- Every store that a run reaches is coherent. -/
theorem coherent_of_run (operations : List Operation) : ∀ {store final : SnapshotStore}
    {returned : List (Projection × SnapshotStore)}, store.Coherent →
      store.run epochSeconds operations = .ok (final, returned) → final.Coherent := by
  induction operations with
  | nil =>
    intro store final returned h hrun
    obtain ⟨rfl, -⟩ := Prod.mk.inj (Except.ok.inj hrun)
    exact h
  | cons operation rest ih =>
    intro store final returned h hrun
    obtain ⟨out, hstep, hrest⟩ := bind_eq_ok.mp hrun
    obtain ⟨later, hlater, hfinal⟩ := bind_eq_ok.mp hrest
    obtain ⟨rfl, -⟩ := Prod.mk.inj (Except.ok.inj hfinal)
    exact ih (coherent_step h operation hstep) hlater

/-- Around a sample, the feed rises or stays the same exactly when something raises the incident
revision or every entry stays. -/
theorem feed_covers_iff {config : SnapshotConfig} {adapterStatuses : String × String}
    {maintenanceAt actionAt : ℚ} {operations : List Operation}
    {returned : List (Projection × SnapshotStore)}
    (hrun : (start config adapterStatuses maintenanceAt actionAt).run epochSeconds operations
      = .ok (store, returned)) (input : SampleInput) (publishAt : ℚ) (before after : FeedClock) :
    ∃ next, (store.incidents before).1.apply epochSeconds input publishAt = .ok next
      ∧ ((¬(store.incidents before).2.SameEntries (next.incidents after).2 →
          (store.incidents before).2.version < (next.incidents after).2.version)
        ↔ store.state.FeedMoves epochSeconds input publishAt before after
          ∨ store.state.FeedStays input before after) := by
  have hcoherent : store.Coherent :=
    coherent_of_run operations ⟨rfl, _, Bulletin.sound_start config.start⟩ hrun
  obtain ⟨announced, hsound⟩ := hcoherent.sound
  obtain ⟨fleet, hfleet⟩ := hsound.represents
  obtain ⟨hstate, hwindows, hactions, hfeed⟩ := incidents_served store before
  have hserved : (store.incidents before).1.Coherent :=
    (refreshClock_spec hcoherent before.maintenance before.actions).1
  rw [hfeed]
  generalize (store.incidents before).1 = served at hstate hwindows hactions hserved ⊢
  rw [← hstate] at hfleet ⊢
  obtain ⟨next, happly, hstep⟩ :=
    @apply_feed epochSeconds served fleet _ hserved hfleet hwindows input publishAt
  have hnextActions : next.ActionsAt before.actions := by
    rw [ActionsAt, hstep.actionSignature, StateStore.actionSignature, hstep.actions]
    exact hactions
  have hversion := incidents_revision hstep.maintenanceAt hnextActions after
  have hkeptWindows : ∀ reading, next.state.maintenanceSignature reading
      = served.state.maintenanceSignature reading := by
    intro reading
    rw [StateStore.maintenanceSignature, hstep.windows]
    rfl
  have hkeptActions : ∀ reading, next.state.actionSignature reading
      = served.state.actionSignature reading := by
    intro reading
    rw [StateStore.actionSignature, hstep.actions]
    rfl
  simp only [hkeptWindows, hkeptActions] at hversion
  have hrises := hstep.rises
  -- The revision stays exactly when nothing moves.
  have hquiet : (next.incidents after).2.version = served.incidentRevision
      ↔ ¬served.state.FeedMoves epochSeconds input publishAt before after := by
    unfold StateStore.FeedMoves StateStore.ClockMoves
    rw [hversion]
    have hsame := hstep.quiet
    by_cases hpublishes : (decide (served.state.Takes input) || input.pollCycle.isSome) = true
    · simp only [hpublishes, if_true, true_and, forall_const] at hsame ⊢
      constructor
      · intro heq
        have hnext : next.incidentRevision = served.incidentRevision := by omega
        obtain ⟨hclock, hdata⟩ := hsame.mp hnext
        rw [hnext, hclock] at heq
        rintro ((hmoved | hmoved | hmoved) | ⟨htakes, hmoved⟩)
        · exact hmoved hclock
        · rw [if_neg hmoved] at heq
          omega
        · rw [if_neg hmoved] at heq
          omega
        · exact hdata htakes hmoved
      · intro hnot
        rw [not_or, not_or, not_or, not_not, not_not, not_not, not_and] at hnot
        obtain ⟨⟨hclock, hlater, hlaterActions⟩, hdata⟩ := hnot
        rw [hsame.mpr ⟨hclock, hdata⟩, hclock, if_pos hlater, if_pos hlaterActions]
        rfl
    · rw [Bool.not_eq_true] at hpublishes
      simp only [hpublishes, Bool.false_eq_true, if_false, false_and, false_or, IsEmpty.forall_iff,
        true_and] at hsame ⊢
      constructor
      · intro heq
        have hnext : next.incidentRevision = served.incidentRevision := by omega
        rw [hnext] at heq
        rintro ((hmoved | hmoved) | ⟨htakes, hmoved⟩)
        · rw [if_neg hmoved] at heq
          omega
        · rw [if_neg hmoved] at heq
          omega
        · exact hsame.mp hnext htakes hmoved
      · intro hnot
        rw [not_or, not_or, not_not, not_not, not_and] at hnot
        obtain ⟨⟨hlater, hlaterActions⟩, hdata⟩ := hnot
        rw [hsame.mpr hdata, if_pos hlater, if_pos hlaterActions]
        rfl
  refine ⟨next, happly, ?_⟩
  by_cases hmoves : served.state.FeedMoves epochSeconds input publishAt before after
  · refine ⟨fun _ => .inl hmoves, fun _ _ => ?_⟩
    show served.incidentRevision < _
    have hother : (next.incidents after).2.version ≠ served.incidentRevision :=
      fun heq => hquiet.mp heq hmoves
    omega
  · have hkept := hquiet.mpr hmoves
    have hdata : served.state.Takes input → ¬served.state.DataMoves epochSeconds input :=
      fun htakes hdata => hmoves (.inr ⟨htakes, hdata⟩)
    have hsame : (⟨served.incidentRevision, served.state.activeList before.now⟩ : Feed).SameEntries
        (next.incidents after).2 ↔ served.state.FeedStays input before after := by
      rw [← entryOf_quiet hfleet hstep hdata before after,
        ← StateStore.sameEntries_iff hfleet hstep.represents before.now after.now,
        (incidents_served next after).2.2.2]
      rfl
    rw [hkept]
    constructor
    · intro hcovers
      by_contra hnot
      rw [not_or] at hnot
      exact Nat.lt_irrefl _ (hcovers fun hstays => hnot.2 (hsame.mp hstays))
    · rintro (hyes | hstays) hchanged
      · exact absurd hyes hmoves
      · exact absurd (hsame.mpr hstays) hchanged

/-- The host is still unreachable a minute later. -/
private def stillDown (message : Option String) : SampleInput where
  setOrder := ⟨id, List.Perm.refl⟩
  clock := ⟨1767225660, 1767225660, fun _ => 1767225660⟩
  result :=
    { host := "gpu-01", status := .unreachable, latencyMs := 0, message := message
      observedAt := "2026-01-01T00:01:00Z" }
  gpus := []
  nextRetryAt := none
  pollCycle := none
  expectedIncarnation := none

/-- All readings of the clock at that minute. -/
private def minuteLater : FeedClock := ⟨1767225660, 1767225660, 1767225660⟩

/-- The store of the host after the restart. -/
private def downStore : SnapshotStore :=
  (start restoredOutage ("ok", "ok") 1767225600 1767225600).setHosts ["gpu-01"] 1767225600

private theorem run_downStore :
    (start restoredOutage ("ok", "ok") 1767225600 1767225600).run (fun _ => none)
      [.setHosts ["gpu-01"] 1767225600] = .ok (downStore, []) := rfl

/-- Another message of the failure is a new value, and raises the revision. -/
theorem feed_covers_iff_message :
    ∃ next, (downStore.incidents minuteLater).1.apply (fun _ => none) (stillDown "timed out")
        1767225660 = .ok next
      ∧ (¬(downStore.incidents minuteLater).2.SameEntries (next.incidents minuteLater).2 →
        (downStore.incidents minuteLater).2.version < (next.incidents minuteLater).2.version) := by
  obtain ⟨next, happly, hiff⟩ := feed_covers_iff run_downStore (stillDown "timed out") 1767225660
    minuteLater minuteLater
  refine ⟨next, happly, hiff.mpr (.inl (.inr ⟨by decide +kernel, "connectivity", .inr ?_⟩))⟩
  decide +kernel

/-- The same failure a minute later: the feed shows another time of the last observation, and the
revision stays. -/
theorem next_observation_unversioned :
    ∃ store next returned, (start restoredOutage ("ok", "ok") 1767225600 1767225600).run
          (fun _ => none) [.setHosts ["gpu-01"] 1767225600] = .ok (store, returned)
      ∧ (store.incidents minuteLater).1.apply (fun _ => none) (stillDown none) 1767225660 = .ok next
      ∧ ¬(store.incidents minuteLater).2.SameEntries (next.incidents minuteLater).2
      ∧ ¬(store.incidents minuteLater).2.version < (next.incidents minuteLater).2.version := by
  obtain ⟨next, happly, -⟩ :=
    feed_covers_iff run_downStore (stillDown none) 1767225660 minuteLater minuteLater
  have hcheck : ((downStore.incidents minuteLater).1.apply (fun _ => none) (stillDown none)
      1767225660).toOption.all (fun next =>
        decide (¬∀ entry ∈ (downStore.incidents minuteLater).2.active,
          entry ∈ (next.incidents minuteLater).2.active)
        && decide (¬(downStore.incidents minuteLater).2.version
          < (next.incidents minuteLater).2.version)) = true := by
    decide +kernel
  rw [happly] at hcheck
  obtain ⟨hlost, hversion⟩ := (Bool.and_eq_true _ _).mp hcheck
  exact ⟨downStore, next, [], run_downStore, happly,
    fun hsame => of_decide_eq_true hlost fun entry hmem => (hsame entry).mp hmem,
    of_decide_eq_true hversion⟩

end SnapshotStore

end Mocop
