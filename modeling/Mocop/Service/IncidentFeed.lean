import Mocop.Service.Generations
import Mocop.Service.Snapshots

/-!
# `Mocop.Service.IncidentFeed`: the incident feed

The incident feed serves the active conditions, each with its times and with what the operator
laid over it, under the incident revision. Its entries are those of the active lifecycles
(`mem_activeList`), so two feeds are the same when each condition has the same entry.

A sample changes a condition in two ways that the store notices. It makes a transition
(`Lifecycle.transits`), or it shows an active condition with another value (`Lifecycle.revalues`).
The store finds the second one out by comparing the values of the host around the sample
(`activeSignature_eq_iff`).
-/

set_option autoImplicit false

namespace Mocop

/-! ### The feed -/

/-- `active_dict` of a condition of a host. -/
structure ActiveDict where
  host : String
  conditionKey : String
  category : String
  resource : String
  severity : IncidentSeverity
  value : Option ℚ
  threshold : Option ℚ
  observedAt : String
  detail : Option String
  groupKey : Option String
  belowThreshold : Bool
  deriving DecidableEq

/-- The shown fields of a condition. -/
def IncidentCondition.activeDict (condition : IncidentCondition) (host : String) : ActiveDict where
  host := host
  conditionKey := condition.key
  category := condition.category
  resource := condition.resource
  severity := condition.severity
  value := condition.value
  threshold := condition.threshold
  observedAt := condition.observedAt
  detail := condition.detail
  groupKey := condition.groupKey
  belowThreshold := condition.belowThreshold

/-- What the operator laid over an incident, as it is shown. -/
structure ShownDecoration where
  maintenanceSilenced : Bool
  silenced : Bool
  acknowledged : Bool
  actionable : Bool
  action : Option IncidentActionKind
  actionUntil : Option ℤ
  actionReason : Option String
  maintenance : Option (ℤ × String)
  deriving DecidableEq

/-- An entry of the active list, without its diagnosis. -/
structure FeedEntry where
  fields : ActiveDict
  firstObservedAt : String
  lastObservedAt : String
  decoration : ShownDecoration
  deriving DecidableEq

/-- The decoration of an incident under a window and an action. -/
def decoration (window : Option (ℤ × String)) (action : Option IncidentActionConfig) :
    ShownDecoration :=
  let silenced := window.isSome || action.any (·.action = .silenced)
  let acknowledged := action.any (·.action = .acknowledged)
  { maintenanceSilenced := window.isSome
    silenced := silenced
    acknowledged := acknowledged
    actionable := !(silenced || acknowledged)
    action := action.map (·.action)
    actionUntil := action.map (⌊·.until_⌋)
    actionReason := action.map (·.reason)
    maintenance := window }

namespace StateStore

/-- The window in force for a host: its end and its reason. -/
def shownWindow (state : StateStore) (now : ℚ) (host : String) : Option (ℤ × String) :=
  ((state.maintenanceWindows.get? host).filter (·.isActive now)).map fun window =>
    ((window.toDict now).until_, window.reason)

/-- The action that applies to a condition. -/
def appliedAction (state : StateStore) (now : ℚ) (key : String × String) :
    Option IncidentActionConfig :=
  (state.activeAction now key).filter (state.incidentActionMatches · key)

/-- `_decorate_incident_locked` -/
def decorate (state : StateStore) (now : ℚ) (key : String × String) : ShownDecoration :=
  decoration (state.shownWindow now key.1) (state.appliedAction now key)

/-- The entry of an active condition. -/
def feedEntry (state : StateStore) (now : ℚ) (host key : String) (condition : IncidentCondition) :
    FeedEntry where
  fields := condition.activeDict host
  firstObservedAt := (rowOf state.incidents.openedAt host).getD key condition.observedAt
  lastObservedAt := (rowOf state.incidents.lastObservedAt host).getD key condition.observedAt
  decoration := state.decorate now (host, condition.key)

/-- The active list: what can be acted on first, then by severity, host and condition. -/
def activeList (state : StateStore) (now : ℚ) : List FeedEntry :=
  sortBy (fun entry => toLex (!entry.decoration.actionable,
      toLex (decide (entry.fields.severity ≠ .critical),
        toLex (entry.fields.host, entry.fields.conditionKey))))
    (state.incidents.active.entries.flatMap fun row => row.2.entries.map fun item =>
      state.feedEntry now row.1 item.1 item.2)

end StateStore

/-- The feed: its version and the active list. -/
structure Feed where
  version : ℕ
  active : List FeedEntry

/-- Two feeds have the same entries, with the same fields. -/
def Feed.SameEntries (feed other : Feed) : Prop :=
  ∀ entry, entry ∈ feed.active ↔ entry ∈ other.active

/-- The clock readings of one call of `incidents`. -/
structure FeedClock where
  maintenance : ℚ
  actions : ℚ
  now : ℚ

namespace SnapshotStore

/-- `incidents` -/
def incidents (store : SnapshotStore) (clock : FeedClock) : SnapshotStore × Feed :=
  let store := (store.refreshMaintenance clock.maintenance).refreshActions clock.actions
  (store, ⟨store.incidentRevision, store.state.activeList clock.now⟩)

end SnapshotStore

/-! ### What a sample changes of a condition -/

namespace Lifecycle

open IncidentTracker (nextStreak confirmed holdsSeverity isDelayed)

section
variable (epochSeconds : String → Option ℚ)

/-- Whether a sample opens or resolves a condition, or changes its severity: whether the streak
that it continues is long enough. -/
def transits (reading : Reading) : Lifecycle → Bool
  | inactive candidate => reading.observed.any fun new =>
    !new.belowThreshold && confirmed epochSeconds
      (nextStreak ((candidate.getD (new, 0, new.observedAt)).1.severity,
        (candidate.getD (new, 0, new.observedAt)).2) new) new
  | active old openedAt _ recovery change =>
    match reading.observed with
    | some new =>
      let new := if holdsSeverity new old then { new with severity := old.severity } else new
      decide (old.severity ≠ new.severity) && confirmed epochSeconds
        (nextStreak (change.getD (new.severity, 0, new.observedAt)) new) new
    | none => reading.online && !isDelayed (epochSeconds reading.observedAt)
          (epochSeconds openedAt)
        && !telemetryUnknown old.category reading.key reading.observedDomains
        && decide (old.recoveryCycles ≤ recovery.getD 0 + 1)

/-- Whether a sample shows an active condition with another value, threshold, detail or
resource. -/
def revalues (reading : Reading) (l : Lifecycle) : Bool :=
  l.condition.any fun old => reading.observed.any fun new =>
    decide (new.value ≠ old.value ∨ new.threshold ≠ old.threshold ∨ new.detail ≠ old.detail
      ∨ new.resource ≠ old.resource)

/-- A step makes a transition exactly when the sample transits. -/
theorem step_transits (l : Lifecycle) (reading : Reading) :
    (l.step epochSeconds reading).2.isSome = l.transits epochSeconds reading := by
  cases l with
  | inactive candidate =>
    cases hobserved : reading.observed with
    | none => simp [step, transits, hobserved]
    | some new =>
      simp only [step, transits, hobserved, seenInactive, Option.any_some]
      split
      · rename_i hbelow
        simp [hbelow]
      · rename_i hbelow
        split
        · rename_i hconfirmed
          simp [hbelow, hconfirmed]
        · rename_i hconfirmed
          simp [hbelow, hconfirmed]
  | active old openedAt lastObservedAt recovery change =>
    cases hobserved : reading.observed with
    | none =>
      simp only [step, transits, hobserved, unseenActive]
      split
      · rename_i hobservable
        rw [hobservable, Bool.true_and]
        split
        · rename_i hrecovered
          simp [hrecovered]
        · rename_i hrecovered
          simp [hrecovered]
      · rename_i hobservable
        rw [Bool.not_eq_true] at hobservable
        rw [hobservable]
        rfl
    | some new =>
      simp only [step, transits, hobserved, seenActive]
      generalize (if holdsSeverity new old = true then
        { new with severity := old.severity } else new) = held
      split
      · rename_i hsame
        simp [hsame]
      · rename_i hdiffers
        split
        · rename_i hconfirmed
          simp [hdiffers, hconfirmed]
        · rename_i hconfirmed
          simp [hdiffers, hconfirmed]

/-- What a sample leaves of an active condition that does not transit: the severity and the
opening time, and everything else if it does not show the condition. -/
theorem step_active {reading : Reading} {old : IncidentCondition} {openedAt lastObservedAt : String}
    {recovery : Option ℕ} {change : Option SeverityChange}
    (h : (active old openedAt lastObservedAt recovery change).transits epochSeconds reading
      = false) :
    ∃ condition last recovery' change',
      ((active old openedAt lastObservedAt recovery change).step epochSeconds reading).1
        = active condition openedAt last recovery' change'
      ∧ (reading.observed = none → condition = old ∧ last = lastObservedAt)
      ∧ ∀ new, reading.observed = some new → last = new.observedAt ∧ ∃ criticalAt,
          condition = { new with severity := old.severity, criticalAt := criticalAt } := by
  cases hobserved : reading.observed with
  | none =>
    simp only [transits, hobserved] at h
    simp only [step, hobserved, unseenActive]
    split
    · rename_i hobservable
      rw [hobservable, Bool.true_and, decide_eq_false_iff_not] at h
      rw [if_neg h]
      exact ⟨_, _, _, _, rfl, fun _ => ⟨rfl, rfl⟩, fun _ hnew => (by cases hnew)⟩
    · exact ⟨_, _, _, _, rfl, fun _ => ⟨rfl, rfl⟩, fun _ hnew => (by cases hnew)⟩
  | some new =>
    simp only [transits, hobserved] at h
    simp only [step, hobserved, seenActive]
    -- A held severity is the only difference to what is shown.
    obtain ⟨held, hheld, hshown⟩ : ∃ held, (if holdsSeverity new old = true then
        { new with severity := old.severity } else new) = held
        ∧ held = { new with severity := held.severity } := by
      refine ⟨_, rfl, ?_⟩
      split
      · rfl
      · rfl
    rw [hheld] at h ⊢
    have hobservedAt : held.observedAt = new.observedAt := by rw [hshown]
    split
    · rename_i hsame
      refine ⟨_, _, _, _, rfl, fun hnone => (by cases hnone), fun other hother => ?_⟩
      obtain rfl := Option.some.inj hother
      refine ⟨hobservedAt, new.criticalAt, ?_⟩
      rw [hsame]
      exact hshown
    · rename_i hdiffers
      rw [decide_eq_true hdiffers, Bool.true_and] at h
      rw [if_neg (by rw [h]; exact Bool.false_ne_true)]
      refine ⟨_, _, _, _, rfl, fun hnone => (by cases hnone), fun other hother => ?_⟩
      obtain rfl := Option.some.inj hother
      refine ⟨hobservedAt, old.criticalAt, ?_⟩
      rw [hshown]

/-- A condition that is inactive and does not transit stays inactive. -/
theorem step_inactive {reading : Reading} {candidate : Option Candidate}
    (h : (inactive candidate).transits epochSeconds reading = false) :
    ∃ candidate', ((inactive candidate).step epochSeconds reading).1 = inactive candidate' := by
  cases hobserved : reading.observed with
  | none => exact ⟨none, by simp [step, hobserved]⟩
  | some new =>
    simp only [transits, hobserved, Option.any_some] at h
    simp only [step, hobserved, seenInactive]
    split
    · exact ⟨none, rfl⟩
    · rename_i hbelow
      rw [Bool.not_eq_true] at hbelow
      rw [hbelow, Bool.not_false, Bool.true_and] at h
      rw [if_neg (by rw [h]; exact Bool.false_ne_true)]
      exact ⟨_, rfl⟩

end

end Lifecycle

/-! ### The lifecycles of a tracker -/

/-- The lifecycle that a cell lays out. -/
def ConditionCell.lifecycle (cell : ConditionCell) : Lifecycle :=
  match cell.active, cell.openedAt, cell.lastObservedAt with
  | some condition, some openedAt, some lastObservedAt =>
    .active condition openedAt lastObservedAt cell.recovery cell.change
  | _, _, _ => .inactive cell.candidate

theorem Lifecycle.lifecycle_render (l : Lifecycle) : l.render.lifecycle = l := by
  cases l with
  | inactive candidate => rfl
  | active condition openedAt lastObservedAt recovery change => rfl

/-- The lifecycle of every condition. -/
def IncidentTracker.lifecycle (tracker : IncidentTracker) : Fleet := fun host key =>
  (tracker.cell host key).lifecycle

/-- A tracker that represents a fleet represents its own lifecycles. -/
theorem IncidentTracker.Represents.lifecycle_eq {tracker : IncidentTracker} {fleet : Fleet}
    (h : tracker.Represents fleet) : tracker.lifecycle = fleet := by
  funext host key
  rw [IncidentTracker.lifecycle, h.cell_eq, Lifecycle.lifecycle_render]

/-! ### The entries of the active list -/

/-- Whether an action applies to the generation that opened at `openedAt`, given the time that
its key is bound to. -/
def IncidentActionConfig.appliesTo (action : IncidentActionConfig) (binding : Option String)
    (openedAt : String) : Bool :=
  match action.incidentStartedAt with
  | none => true
  | some startedAt => decide (binding.getD startedAt = openedAt)

namespace StateStore

variable {state : StateStore} {fleet : Fleet}

/-- What is laid over the generation of a condition that opened at `openedAt`. -/
def overlay (state : StateStore) (now : ℚ) (key : String × String) (binding : Option String)
    (openedAt : String) : ShownDecoration :=
  decoration (state.shownWindow now key.1)
    ((state.activeAction now key).filter (·.appliesTo binding openedAt))

/-- The entry of a condition in the active list, if it is active. -/
def entryOf (state : StateStore) (now : ℚ) (host key : String) : Option FeedEntry :=
  match state.incidents.lifecycle host key with
  | .inactive _ => none
  | .active condition openedAt lastObservedAt _ _ =>
    some ⟨condition.activeDict host, openedAt, lastObservedAt,
      state.overlay now (host, key) (state.startupActionBindings.get? (host, key)) openedAt⟩

/-- The decoration of an active condition is the overlay of its generation. -/
theorem decorate_eq (h : state.incidents.Represents fleet) (now : ℚ) {host key openedAt : String}
    (hopened : openingTime (fleet host key) = some openedAt) :
    state.decorate now (host, key) = state.overlay now (host, key)
      (state.startupActionBindings.get? (host, key)) openedAt := by
  have hmatches : ∀ action, state.incidentActionMatches action (host, key)
      = action.appliesTo (state.startupActionBindings.get? (host, key)) openedAt := by
    intro action
    unfold incidentActionMatches IncidentActionConfig.appliesTo
    cases action.incidentStartedAt with
    | none => rfl
    | some startedAt =>
      dsimp only
      rw [activeStartedAt_eq h, hopened, Dict.getD_eq]
      simp
  unfold decorate overlay appliedAction
  rw [funext hmatches]

/-- The entries of the active list are those of the active conditions. -/
theorem mem_activeList (h : state.incidents.Represents fleet) (now : ℚ) {entry : FeedEntry} :
    entry ∈ state.activeList now ↔ ∃ host key, state.entryOf now host key = some entry := by
  have hfleet := h.lifecycle_eq
  have hshown : ∀ host key condition, (rowOf state.incidents.active host).get? key = some condition →
      state.entryOf now host key = some (state.feedEntry now host key condition) := by
    intro host key condition hcondition
    have hcell := h.cell_eq host key
    rw [h.previous_eq] at hcondition
    unfold entryOf
    rw [hfleet]
    cases hl : fleet host key with
    | inactive candidate =>
      rw [hl] at hcondition
      cases hcondition
    | active old openedAt lastObservedAt recovery change =>
      rw [hl] at hcondition hcell
      obtain rfl := Option.some.inj hcondition
      have hkey : old.key = key := h.keyed host key old (by rw [hl]; rfl)
      have hopened : (rowOf state.incidents.openedAt host).get? key = some openedAt :=
        congrArg ConditionCell.openedAt hcell
      have hlast : (rowOf state.incidents.lastObservedAt host).get? key = some lastObservedAt :=
        congrArg ConditionCell.lastObservedAt hcell
      have hover := decorate_eq h now (show openingTime (fleet host key) = some openedAt by
        rw [hl]
        rfl)
      unfold feedEntry
      rw [Dict.getD_eq, Dict.getD_eq, hopened, hlast, hkey, hover]
      rfl
  unfold activeList
  rw [mem_sortBy, List.mem_flatMap]
  constructor
  · rintro ⟨row, hrow, hentry⟩
    obtain ⟨item, hitem, rfl⟩ := List.mem_map.mp hentry
    have hget : (rowOf state.incidents.active row.1).get? item.1 = some item.2 := by
      have hactive := (Dict.get?_eq_some_iff state.incidents.active row.1 row.2).mpr hrow
      rw [rowOf, Dict.getD_eq, hactive]
      exact (Dict.get?_eq_some_iff row.2 item.1 item.2).mpr hitem
    exact ⟨row.1, item.1, hshown _ _ _ hget⟩
  · rintro ⟨host, key, hentry⟩
    -- The entry is that of the condition under the key in the row of the host.
    obtain ⟨condition, hget⟩ : ∃ condition,
        (rowOf state.incidents.active host).get? key = some condition := by
      rw [h.previous_eq, ← hfleet]
      unfold entryOf at hentry
      cases hl : state.incidents.lifecycle host key with
      | inactive candidate =>
        rw [hl] at hentry
        cases hentry
      | active condition openedAt lastObservedAt recovery change => exact ⟨condition, rfl⟩
    obtain rfl := Option.some.inj ((hshown host key condition hget).symm.trans hentry)
    cases hrow : state.incidents.active.get? host with
    | none =>
      rw [rowOf, Dict.getD_eq, hrow] at hget
      cases hget
    | some row =>
      rw [rowOf, Dict.getD_eq, hrow] at hget
      exact ⟨(host, row), (Dict.get?_eq_some_iff _ _ _).mp hrow, List.mem_map.mpr
        ⟨(key, condition), (Dict.get?_eq_some_iff _ _ _).mp hget, rfl⟩⟩

/-- An entry carries its host and its key. -/
theorem entryOf_key (h : state.incidents.Represents fleet) {now : ℚ} {host key : String}
    {entry : FeedEntry} (hentry : state.entryOf now host key = some entry) :
    entry.fields.host = host ∧ entry.fields.conditionKey = key := by
  unfold entryOf at hentry
  rw [h.lifecycle_eq] at hentry
  cases hl : fleet host key with
  | inactive candidate =>
    rw [hl] at hentry
    cases hentry
  | active condition openedAt lastObservedAt recovery change =>
    rw [hl] at hentry
    obtain rfl := Option.some.inj hentry
    exact ⟨rfl, h.keyed host key condition (by rw [hl]; rfl)⟩

/-- Two active lists have the same entries exactly when each condition has the same entry. -/
theorem sameEntries_iff {other : StateStore} {fleet' : Fleet} (h : state.incidents.Represents fleet)
    (h' : other.incidents.Represents fleet') (now now' : ℚ) :
    (∀ entry, entry ∈ state.activeList now ↔ entry ∈ other.activeList now')
      ↔ ∀ host key, state.entryOf now host key = other.entryOf now' host key := by
  constructor
  · intro hsame host key
    refine Option.ext fun entry => ⟨fun hentry => ?_, fun hentry => ?_⟩
    · obtain ⟨host', key', hentry'⟩ := (mem_activeList h' now').mp
        ((hsame entry).mp ((mem_activeList h now).mpr ⟨host, key, hentry⟩))
      obtain ⟨rfl, rfl⟩ := entryOf_key h hentry
      obtain ⟨hhost, hkey⟩ := entryOf_key h' hentry'
      rw [hhost, hkey]
      exact hentry'
    · obtain ⟨host', key', hentry'⟩ := (mem_activeList h now).mp
        ((hsame entry).mpr ((mem_activeList h' now').mpr ⟨host, key, hentry⟩))
      obtain ⟨rfl, rfl⟩ := entryOf_key h' hentry
      obtain ⟨hhost, hkey⟩ := entryOf_key h hentry'
      rw [hhost, hkey]
      exact hentry'
  · intro hsame entry
    rw [mem_activeList h, mem_activeList h']
    simp only [hsame]

end StateStore

/-! ### The values of the active conditions -/

/-- The values of a condition, as they are compared around a sample. -/
def IncidentCondition.signature (condition : IncidentCondition) (key : String) :
    ConditionSignature where
  key := key
  severity := condition.severity
  value := condition.value
  threshold := condition.threshold
  detail := condition.detail
  resource := condition.resource

section
variable {tracker other : IncidentTracker} {fleet fleet' : Fleet}

/-- The signature of a host has the values of its active conditions. -/
theorem mem_activeSignature (h : tracker.Represents fleet) (host : String)
    {signature : ConditionSignature} : signature ∈ tracker.activeSignature host ↔
      ∃ key condition, (fleet host key).condition = some condition
        ∧ signature = condition.signature key := by
  unfold IncidentTracker.activeSignature
  rw [mem_sortBy, List.mem_map]
  constructor
  · rintro ⟨entry, hentry, rfl⟩
    refine ⟨entry.1, entry.2, ?_, rfl⟩
    rw [← h.previous_eq]
    exact (Dict.get?_eq_some_iff _ _ _).mpr hentry
  · rintro ⟨key, condition, hcondition, rfl⟩
    rw [← h.previous_eq] at hcondition
    exact ⟨(key, condition), (Dict.get?_eq_some_iff _ _ _).mp hcondition, rfl⟩

/-- Two signatures of a host are equal exactly when each condition has the same values. -/
theorem activeSignature_eq_iff (h : tracker.Represents fleet) (h' : other.Represents fleet')
    (host : String) : tracker.activeSignature host = other.activeSignature host
      ↔ ∀ key, (fleet host key).condition.map (·.signature key)
        = (fleet' host key).condition.map (·.signature key) := by
  constructor
  · intro hsame key
    refine Option.ext fun signature => ?_
    have hmem := @mem_activeSignature _ _ h host signature
    rw [hsame, mem_activeSignature h' host] at hmem
    have hlisted : ∀ f : Fleet, (∃ key' condition, (f host key').condition = some condition
        ∧ signature = condition.signature key') → signature.key = key →
        (f host key).condition.map (·.signature key) = some signature := by
      rintro f ⟨key', condition, hcondition, rfl⟩ rfl
      show (f host key').condition.map _ = _
      rw [hcondition]
      rfl
    constructor
    · intro hsignature
      obtain ⟨condition, hcondition, rfl⟩ := Option.map_eq_some_iff.mp hsignature
      exact hlisted fleet' (hmem.mpr ⟨key, condition, hcondition, rfl⟩) rfl
    · intro hsignature
      obtain ⟨condition, hcondition, rfl⟩ := Option.map_eq_some_iff.mp hsignature
      exact hlisted fleet (hmem.mp ⟨key, condition, hcondition, rfl⟩) rfl
  · intro hsame
    have hnodup : ∀ row : Dict String IncidentCondition,
        ((row.entries.map fun entry => entry.2.signature entry.1).map
          ConditionSignature.key).Nodup := by
      intro row
      rw [List.map_map]
      exact row.nodup
    have hperm : ((rowOf tracker.active host).entries.map fun entry =>
          entry.2.signature entry.1).Perm
        ((rowOf other.active host).entries.map fun entry => entry.2.signature entry.1) := by
      refine (List.perm_ext_iff_of_nodup (hnodup _).of_map (hnodup _).of_map).mpr ?_
      intro signature
      have hmem := @mem_activeSignature _ _ h host signature
      have hmem' := @mem_activeSignature _ _ h' host signature
      unfold IncidentTracker.activeSignature at hmem hmem'
      rw [mem_sortBy] at hmem hmem'
      refine hmem.trans (Iff.trans ?_ hmem'.symm)
      constructor
      · rintro ⟨key, condition, hcondition, rfl⟩
        have hkey := hsame key
        rw [hcondition] at hkey
        obtain ⟨condition', hcondition', heq⟩ := Option.map_eq_some_iff.mp hkey.symm
        exact ⟨key, condition', hcondition', heq.symm⟩
      · rintro ⟨key, condition, hcondition, rfl⟩
        have hkey := hsame key
        rw [hcondition] at hkey
        obtain ⟨condition', hcondition', heq⟩ := Option.map_eq_some_iff.mp hkey
        exact ⟨key, condition', hcondition', heq.symm⟩
    refine sortBy_congr hperm fun a ha b hb hkey => ?_
    exact List.inj_on_of_nodup_map (hnodup _) ha hb hkey

end

end Mocop
