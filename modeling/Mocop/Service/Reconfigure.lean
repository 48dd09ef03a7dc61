import Mocop.Lib.Memo
import Mocop.Service.Snapshots

/-!
# `Mocop.Service.Reconfigure`: the thresholds follow the configuration

The policy keeps the effective thresholds and the excluded mount points of each host that it has
judged. A change of the overrides or of the groups empties both memos, a change of the inventory
drops the entries of other hosts. The setters of the store return early when what they set is
there already: the one of the groups compares the groups only, the one of the overrides the
overrides only, and it hands the policy the groups that it is given. A reconfiguration calls both.

`ThresholdStore.Follows` is the invariant of every sequence of calls: both memos are coherent, and
the overrides and the groups of the policy are those of the settings last installed.
`thresholds_follow_configuration` reads off what a sample is judged by.
-/

set_option autoImplicit false

namespace Mocop

/-! ### The policy with its memos -/

/-- What a sample is judged by: the thresholds, and the excluded mount points as they are read for
each filesystem. -/
structure Judgement where
  thresholds : Dict ThresholdName ℚ
  exclusions : List (List String)

/-- The policy with what it remembers of each host. -/
structure MemoPolicy where
  policy : ThresholdIncidentPolicy
  effectiveThresholds : Dict String (Dict ThresholdName ℚ) := ∅
  effectiveDiskExclusions : Dict String (List String) := ∅

namespace MemoPolicy

/-- `update_expected_gpu_counts` -/
def updateExpectedGpuCounts (memo : MemoPolicy) (expectedGpuCounts : List (String × ℕ)) :
    MemoPolicy :=
  { memo with
    policy := { memo.policy with expectedGpuCounts := Dict.ofList expectedGpuCounts } }

/-- `update_overrides` -/
def updateOverrides (memo : MemoPolicy)
    (hostOverrides groupOverrides : List (String × IncidentScopeOverrideConfig))
    (hostGroups : List (String × String)) : MemoPolicy where
  policy :=
    { memo.policy with
      hostOverrides := Dict.ofList hostOverrides
      groupOverrides := Dict.ofList groupOverrides
      hostGroups := Dict.ofList hostGroups }
  effectiveThresholds := ∅
  effectiveDiskExclusions := ∅

/-- `retain_hosts` -/
def retainHosts (memo : MemoPolicy) (hosts : List String) : MemoPolicy :=
  if memo.effectiveThresholds.keys ⊆ hosts ∧ memo.effectiveDiskExclusions.keys ⊆ hosts then memo
  else
    { memo with
      effectiveThresholds := memo.effectiveThresholds.filterKeys (· ∈ hosts)
      effectiveDiskExclusions := memo.effectiveDiskExclusions.filterKeys (· ∈ hosts) }

/-- `_excluded_disk_mounts`, for one more filesystem. -/
def readExclusions (host : String) (read : Judgement × MemoPolicy) : Judgement × MemoPolicy :=
  let mounts := remember read.2.policy.excludedDiskMounts read.2.effectiveDiskExclusions host
  ({ read.1 with exclusions := read.1.exclusions ++ [mounts.1] },
    { read.2 with effectiveDiskExclusions := mounts.2 })

/-- What `conditions` reads of the settings: the thresholds first, and the excluded mount points
at every filesystem of an online host. -/
def judge (memo : MemoPolicy) (result : ProbeResult) : Judgement × MemoPolicy :=
  let thresholds := remember memo.policy.thresholdsFor memo.effectiveThresholds result.host
  let read := (⟨thresholds.1, []⟩, { memo with effectiveThresholds := thresholds.2 })
  if result.status ≠ .online then read
  else match result.system with
    | some system => system.disks.foldl (fun read _ => readExclusions result.host read) read
    | none => read

/-- Both memos hold values of the settings of the policy. -/
structure Coherent (memo : MemoPolicy) : Prop where
  thresholds : MemoOf memo.policy.thresholdsFor memo.effectiveThresholds
  exclusions : MemoOf memo.policy.excludedDiskMounts memo.effectiveDiskExclusions

variable {memo : MemoPolicy}

theorem coherent_start (policy : ThresholdIncidentPolicy) : Coherent ⟨policy, ∅, ∅⟩ :=
  ⟨memoOf_empty _, memoOf_empty _⟩

theorem coherent_updateOverrides (memo : MemoPolicy)
    (hostOverrides groupOverrides : List (String × IncidentScopeOverrideConfig))
    (hostGroups : List (String × String)) :
    (memo.updateOverrides hostOverrides groupOverrides hostGroups).Coherent :=
  coherent_start _

/-- The expected counts are no part of what is remembered. -/
theorem Coherent.updateExpectedGpuCounts (h : memo.Coherent)
    (expectedGpuCounts : List (String × ℕ)) :
    (memo.updateExpectedGpuCounts expectedGpuCounts).Coherent :=
  ⟨h.thresholds, h.exclusions⟩

theorem Coherent.retainHosts (h : memo.Coherent) (hosts : List String) :
    (memo.retainHosts hosts).Coherent := by
  unfold MemoPolicy.retainHosts
  split
  · exact h
  · exact ⟨h.thresholds.filterKeys _, h.exclusions.filterKeys _⟩

theorem policy_retainHosts (memo : MemoPolicy) (hosts : List String) :
    (memo.retainHosts hosts).policy = memo.policy := by
  unfold retainHosts
  split <;> rfl

/-- What has been read so far is of the settings of the policy. -/
structure Reads (policy : ThresholdIncidentPolicy) (host : String)
    (read : Judgement × MemoPolicy) : Prop where
  policy_eq : read.2.policy = policy
  coherent : read.2.Coherent
  thresholds : read.1.thresholds = policy.thresholdsFor host
  exclusions : ∀ mounts ∈ read.1.exclusions, mounts = policy.excludedDiskMounts host

theorem Reads.readExclusions {policy : ThresholdIncidentPolicy} {host : String}
    {read : Judgement × MemoPolicy} (h : Reads policy host read) :
    Reads policy host (readExclusions host read) where
  policy_eq := h.policy_eq
  coherent := ⟨h.coherent.thresholds, h.coherent.exclusions.remember host⟩
  thresholds := h.thresholds
  exclusions := by
    intro mounts hmounts
    rcases List.mem_append.mp hmounts with hold | hnew
    · exact h.exclusions mounts hold
    · rw [List.mem_singleton.mp hnew, h.coherent.exclusions.remember_eq, h.policy_eq]

/-- Out of coherent memos a sample is judged by the settings of the policy. -/
theorem Coherent.judge (h : memo.Coherent) (result : ProbeResult) :
    Reads memo.policy result.host (memo.judge result) := by
  have hstart : Reads memo.policy result.host
      (⟨(remember memo.policy.thresholdsFor memo.effectiveThresholds result.host).1, []⟩,
        { memo with
          effectiveThresholds :=
            (remember memo.policy.thresholdsFor memo.effectiveThresholds result.host).2 }) :=
    { policy_eq := rfl
      coherent := ⟨h.thresholds.remember result.host, h.exclusions⟩
      thresholds := h.thresholds.remember_eq result.host
      exclusions := fun mounts hmounts => absurd hmounts List.not_mem_nil }
  unfold MemoPolicy.judge
  dsimp only
  split
  · exact hstart
  · cases result.system with
    | none => exact hstart
    | some system =>
      dsimp only
      generalize system.disks = disks
      -- Every filesystem reads the exclusions once more.
      induction disks using List.reverseRecOn with
      | nil => exact hstart
      | append_singleton rest disk ih =>
        rw [List.foldl_append]
        exact ih.readExclusions

end MemoPolicy

/-! ### The same overrides -/

/-- Two overrides are equal: the same thresholds in the same order, and the same set of mount
points. -/
def IncidentScopeOverrideConfig.Same (override other : IncidentScopeOverrideConfig) : Prop :=
  override.thresholds = other.thresholds
    ∧ ∀ mount, mount ∈ override.excludeDiskMounts ↔ mount ∈ other.excludeDiskMounts

/-- The equality of two tuples of overrides. -/
def sameOverrides : (overrides others : List (String × IncidentScopeOverrideConfig)) → Bool
  | [], [] => true
  | (name, override) :: rest, (name', other) :: rest' =>
    name = name' && override.thresholds = other.thresholds
      && override.excludeDiskMounts ⊆ other.excludeDiskMounts
      && other.excludeDiskMounts ⊆ override.excludeDiskMounts && sameOverrides rest rest'
  | _, _ => false

/-- Two settings of a name are the same, where there is one. -/
def SameSetting : (setting other : Option IncidentScopeOverrideConfig) → Prop
  | some override, some other => override.Same other
  | none, none => True
  | _, _ => False

theorem SameSetting.symm {setting other : Option IncidentScopeOverrideConfig}
    (h : SameSetting setting other) : SameSetting other setting := by
  cases setting <;> cases other
  · trivial
  · exact h.elim
  · exact h.elim
  · exact ⟨h.1.symm, fun mount => (h.2 mount).symm⟩

theorem sameSetting_refl (setting : Option IncidentScopeOverrideConfig) :
    SameSetting setting setting := by
  cases setting with
  | none => trivial
  | some override => exact ⟨rfl, fun _ => Iff.rfl⟩

/-- Both settings are missing, or both are there and say the same. -/
theorem SameSetting.cases {setting other : Option IncidentScopeOverrideConfig}
    (h : SameSetting setting other) :
    (setting = none ∧ other = none) ∨ ∃ override override', setting = some override
      ∧ other = some override' ∧ override.thresholds = override'.thresholds
      ∧ ∀ mount, mount ∈ override.excludeDiskMounts ↔ mount ∈ override'.excludeDiskMounts := by
  cases setting with
  | none =>
    cases other with
    | none => exact .inl ⟨rfl, rfl⟩
    | some override' => exact h.elim
  | some override =>
    cases other with
    | none => exact h.elim
    | some override' => exact .inr ⟨override, override', rfl, rfl, h.1, h.2⟩

/-- Equal tuples make tables with the same settings. -/
theorem sameSetting_ofList {overrides others : List (String × IncidentScopeOverrideConfig)}
    (h : sameOverrides overrides others = true) (name : String) :
    SameSetting ((Dict.ofList overrides).get? name) ((Dict.ofList others).get? name) := by
  -- The two loops that fill the tables go along with each other.
  have hfold : ∀ (overrides others : List (String × IncidentScopeOverrideConfig))
      (table table' : Dict String IncidentScopeOverrideConfig),
      sameOverrides overrides others = true →
      (∀ name, SameSetting (table.get? name) (table'.get? name)) →
      ∀ name, SameSetting ((overrides.foldl (fun d e => d.set e.1 e.2) table).get? name)
        ((others.foldl (fun d e => d.set e.1 e.2) table').get? name) := by
    intro overrides
    induction overrides with
    | nil =>
      intro others table table' hsame htable
      cases others with
      | nil => exact htable
      | cons entry rest => cases hsame
    | cons entry rest ih =>
      intro others table table' hsame htable
      cases others with
      | nil => cases hsame
      | cons entry' rest' =>
        simp only [sameOverrides, Bool.and_eq_true, decide_eq_true_eq] at hsame
        obtain ⟨⟨⟨⟨hname, hthresholds⟩, hsub⟩, hsup⟩, hrest⟩ := hsame
        refine ih rest' _ _ hrest fun name => ?_
        rw [Dict.get?_set, Dict.get?_set, ← hname]
        by_cases hk : name = entry.1
        · rw [if_pos hk, if_pos hk]
          exact ⟨hthresholds, fun mount => ⟨fun hmem => hsub hmem, fun hmem => hsup hmem⟩⟩
        · rw [if_neg hk, if_neg hk]
          exact htable name
  exact hfold overrides others ∅ ∅ h (fun _ => trivial) name

/-- Two policies judge by the same settings. -/
structure ThresholdIncidentPolicy.Agrees (policy other : ThresholdIncidentPolicy) : Prop where
  thresholdValues : policy.thresholdValues = other.thresholdValues
  hostOverrides : ∀ host,
    SameSetting (policy.hostOverrides.get? host) (other.hostOverrides.get? host)
  groupOverrides : ∀ group,
    SameSetting (policy.groupOverrides.get? group) (other.groupOverrides.get? group)
  hostGroups : ∀ host, policy.hostGroups.get? host = other.hostGroups.get? host

namespace ThresholdIncidentPolicy

variable {policy other : ThresholdIncidentPolicy}

theorem Agrees.groupOverride (h : policy.Agrees other) (host : String) :
    SameSetting (policy.groupOverride host) (other.groupOverride host) := by
  unfold ThresholdIncidentPolicy.groupOverride
  rw [h.hostGroups host]
  cases other.hostGroups.get? host with
  | none => trivial
  | some group =>
    dsimp only
    split
    · trivial
    · exact h.groupOverrides group

/-- Policies that agree have the same thresholds for a host. -/
theorem Agrees.thresholdsFor (h : policy.Agrees other) (host : String) :
    policy.thresholdsFor host = other.thresholdsFor host := by
  unfold ThresholdIncidentPolicy.thresholdsFor
  rw [h.thresholdValues]
  rcases (h.groupOverride host).cases with ⟨hg, hg'⟩ | ⟨group, group', hg, hg', hgroup, -⟩ <;>
    rcases (h.hostOverrides host).cases with ⟨hh, hh'⟩ | ⟨own, own', hh, hh', hown, -⟩
  · simp only [hg, hg', hh, hh']
  · simp only [hg, hg', hh, hh', hown]
  · simp only [hg, hg', hh, hh', hgroup]
  · simp only [hg, hg', hh, hh', hgroup, hown]

/-- They exclude the same mount points. -/
theorem Agrees.mem_excludedDiskMounts (h : policy.Agrees other) (host mount : String) :
    mount ∈ policy.excludedDiskMounts host ↔ mount ∈ other.excludedDiskMounts host := by
  unfold ThresholdIncidentPolicy.excludedDiskMounts
  rcases (h.groupOverride host).cases with ⟨hg, hg'⟩ | ⟨group, group', hg, hg', -, hgroup⟩ <;>
    rcases (h.hostOverrides host).cases with ⟨hh, hh'⟩ | ⟨own, own', hh, hh', -, hown⟩
  · simp only [hg, hg', hh, hh']
  · simp only [hg, hg', hh, hh', List.nil_append, hown]
  · simp only [hg, hg', hh, hh', hgroup]
  · simp only [hg, hg', hh, hh', List.mem_append, hgroup, hown]

end ThresholdIncidentPolicy

/-! ### The store -/

/-- The part of a configuration that the policy judges by. -/
structure IncidentSettings where
  expectedGpuCounts : List (String × ℕ) := []
  hostIncidentOverrides : List (String × IncidentScopeOverrideConfig) := []
  groupIncidentOverrides : List (String × IncidentScopeOverrideConfig) := []
  hostGroups : List (String × String) := []

/-- The policy of some settings over the base thresholds. -/
def IncidentSettings.policy (settings : IncidentSettings)
    (thresholdValues : Dict ThresholdName ℚ) (incidents : IncidentConfig) :
    ThresholdIncidentPolicy where
  thresholdValues
  expectedGpuCounts := Dict.ofList settings.expectedGpuCounts
  incidents
  hostOverrides := Dict.ofList settings.hostIncidentOverrides
  groupOverrides := Dict.ofList settings.groupIncidentOverrides
  hostGroups := Dict.ofList settings.hostGroups

/-- The store with its policy, as far as the settings go. `state` holds the monitored hosts. -/
structure ThresholdStore where
  state : StateStore
  incidentPolicy : MemoPolicy
  hostGroups : Dict String String
  hostIncidentOverrides : List (String × IncidentScopeOverrideConfig)
  groupIncidentOverrides : List (String × IncidentScopeOverrideConfig)

/-- One call of the store. An override change on its own leaves the groups: it hands the policy
those in force. -/
inductive StoreCall where
  | reconfigure (settings : IncidentSettings) (hosts : Option (List String))
  | setHostGroups (hostGroups : List (String × String))
  | setIncidentOverrides
      (hostOverrides groupOverrides : List (String × IncidentScopeOverrideConfig))
  | updateExpectedGpuCounts (expectedGpuCounts : List (String × ℕ))
  | setHosts (hosts : List String)
  | sample (result : ProbeResult) (expectedIncarnation : Option ℕ)

namespace ThresholdStore

open SnapshotStore (sameNames)

/-- A store at the start of a process. -/
def create (state : StateStore) (thresholds : ThresholdConfig) (incidents : IncidentConfig)
    (settings : IncidentSettings) : ThresholdStore where
  state
  incidentPolicy := { policy := settings.policy thresholds.toDict incidents }
  hostGroups := Dict.ofList settings.hostGroups
  hostIncidentOverrides := settings.hostIncidentOverrides
  groupIncidentOverrides := settings.groupIncidentOverrides

/-- `set_host_groups` -/
def setHostGroups (store : ThresholdStore) (hostGroups : List (String × String)) :
    ThresholdStore :=
  let updated := Dict.ofList hostGroups
  if sameNames updated store.hostGroups then store
  else
    { store with
      hostGroups := updated
      incidentPolicy := store.incidentPolicy.updateOverrides store.hostIncidentOverrides
        store.groupIncidentOverrides hostGroups }

/-- `set_incident_overrides` -/
def setIncidentOverrides (store : ThresholdStore)
    (hostOverrides groupOverrides : List (String × IncidentScopeOverrideConfig))
    (hostGroups : List (String × String)) : ThresholdStore :=
  if sameOverrides hostOverrides store.hostIncidentOverrides
      && sameOverrides groupOverrides store.groupIncidentOverrides then store
  else
    { store with
      hostIncidentOverrides := hostOverrides
      groupIncidentOverrides := groupOverrides
      incidentPolicy :=
        store.incidentPolicy.updateOverrides hostOverrides groupOverrides hostGroups }

/-- `update_expected_gpu_counts` -/
def updateExpectedGpuCounts (store : ThresholdStore) (expectedGpuCounts : List (String × ℕ)) :
    ThresholdStore :=
  { store with
    incidentPolicy := store.incidentPolicy.updateExpectedGpuCounts expectedGpuCounts }

/-- `set_hosts` -/
def setHosts (store : ThresholdStore) (hosts : List String) : ThresholdStore :=
  { store with
    state := store.state.setHosts hosts
    incidentPolicy := store.incidentPolicy.retainHosts hosts }

/-- `reconfigure` -/
def reconfigure (store : ThresholdStore) (settings : IncidentSettings)
    (hosts : Option (List String)) : ThresholdStore :=
  let store := store.updateExpectedGpuCounts settings.expectedGpuCounts
  let store := store.setIncidentOverrides settings.hostIncidentOverrides
    settings.groupIncidentOverrides settings.hostGroups
  let store := store.setHostGroups settings.hostGroups
  match hosts with
  | some hosts => store.setHosts hosts
  | none => store

/-- `apply`: a sample of an unknown host, or of another incarnation, is not judged. -/
def apply (store : ThresholdStore) (result : ProbeResult) (expectedIncarnation : Option ℕ) :
    Option Judgement × ThresholdStore :=
  if result.host ∉ store.state.servers ∨ (expectedIncarnation ≠ none
      ∧ store.state.hostIncarnations.get? result.host ≠ expectedIncarnation) then (none, store)
  else
    let judged := store.incidentPolicy.judge result
    (some judged.1, { store with incidentPolicy := judged.2 })

/-- The store after one call. -/
def step (store : ThresholdStore) : StoreCall → ThresholdStore
  | .reconfigure settings hosts => store.reconfigure settings hosts
  | .setHostGroups hostGroups => store.setHostGroups hostGroups
  | .setIncidentOverrides hostOverrides groupOverrides =>
    store.setIncidentOverrides hostOverrides groupOverrides store.hostGroups.entries
  | .updateExpectedGpuCounts expectedGpuCounts => store.updateExpectedGpuCounts expectedGpuCounts
  | .setHosts hosts => store.setHosts hosts
  | .sample result expectedIncarnation => (store.apply result expectedIncarnation).2

/-- The store after a sequence of calls. -/
def run (store : ThresholdStore) (calls : List StoreCall) : ThresholdStore := calls.foldl step store

end ThresholdStore

/-- The settings in force after one call: a reconfiguration brings all of them, a setter the ones
that it names. -/
def IncidentSettings.after (settings : IncidentSettings) : StoreCall → IncidentSettings
  | .reconfigure settings _ => settings
  | .setHostGroups hostGroups => { settings with hostGroups }
  | .setIncidentOverrides hostIncidentOverrides groupIncidentOverrides =>
    { settings with hostIncidentOverrides, groupIncidentOverrides }
  | .updateExpectedGpuCounts expectedGpuCounts => { settings with expectedGpuCounts }
  | .setHosts _ => settings
  | .sample _ _ => settings

/-- The settings in force after a sequence of calls. -/
def IncidentSettings.afterAll (settings : IncidentSettings) (calls : List StoreCall) :
    IncidentSettings :=
  calls.foldl IncidentSettings.after settings

/-! ### The invariant -/

/-- The policy judges by the settings, and the store compares the next ones with them. -/
structure ThresholdStore.Follows (store : ThresholdStore) (thresholdValues : Dict ThresholdName ℚ)
    (settings : IncidentSettings) : Prop where
  coherent : store.incidentPolicy.Coherent
  thresholdValues : store.incidentPolicy.policy.thresholdValues = thresholdValues
  hostOverrides :
    store.incidentPolicy.policy.hostOverrides = Dict.ofList store.hostIncidentOverrides
  groupOverrides :
    store.incidentPolicy.policy.groupOverrides = Dict.ofList store.groupIncidentOverrides
  sameHosts : ∀ host, SameSetting ((Dict.ofList store.hostIncidentOverrides).get? host)
    ((Dict.ofList settings.hostIncidentOverrides).get? host)
  sameGroups : ∀ group, SameSetting ((Dict.ofList store.groupIncidentOverrides).get? group)
    ((Dict.ofList settings.groupIncidentOverrides).get? group)
  hostGroups : ∀ host,
    store.incidentPolicy.policy.hostGroups.get? host = store.hostGroups.get? host
  groupsInForce : ∀ host,
    store.hostGroups.get? host = (Dict.ofList settings.hostGroups).get? host

namespace SnapshotStore

/-- Two tables of names are the same when every name is. -/
theorem sameNames_iff {names others : Dict String String} :
    sameNames names others = true ↔ ∀ host, names.get? host = others.get? host := by
  unfold sameNames
  simp only [List.all_eq_true, List.mem_append, decide_eq_true_eq]
  constructor
  · intro h host
    by_cases hmem : host ∈ names.keys ∨ host ∈ others.keys
    · exact h host hmem
    · rw [not_or] at hmem
      rw [(Dict.get?_eq_none_iff _ _).mpr hmem.1, (Dict.get?_eq_none_iff _ _).mpr hmem.2]
  · intro h host _
    exact h host

end SnapshotStore

namespace ThresholdStore.Follows

open SnapshotStore (sameNames_iff)

variable {store : ThresholdStore} {thresholdValues : Dict ThresholdName ℚ}
  {settings : IncidentSettings}

theorem create (state : StateStore) (thresholds : ThresholdConfig) (incidents : IncidentConfig)
    (settings : IncidentSettings) :
    (ThresholdStore.create state thresholds incidents settings).Follows thresholds.toDict
      settings where
  coherent := MemoPolicy.coherent_start _
  thresholdValues := rfl
  hostOverrides := rfl
  groupOverrides := rfl
  sameHosts := fun _ => sameSetting_refl _
  sameGroups := fun _ => sameSetting_refl _
  hostGroups := fun _ => rfl
  groupsInForce := fun _ => rfl

/-- The policy agrees with the policy of the settings. -/
theorem agrees (h : store.Follows thresholdValues settings) (incidents : IncidentConfig) :
    store.incidentPolicy.policy.Agrees (settings.policy thresholdValues incidents) where
  thresholdValues := h.thresholdValues
  hostOverrides := by
    intro host
    rw [h.hostOverrides]
    exact h.sameHosts host
  groupOverrides := by
    intro group
    rw [h.groupOverrides]
    exact h.sameGroups group
  hostGroups := fun host => (h.hostGroups host).trans (h.groupsInForce host)

/-- New groups are installed with the overrides in force, unless they are there already. -/
theorem setHostGroups (h : store.Follows thresholdValues settings)
    (hostGroups : List (String × String)) :
    (store.setHostGroups hostGroups).Follows thresholdValues { settings with hostGroups } := by
  unfold ThresholdStore.setHostGroups
  dsimp only
  split
  · next hsame =>
    exact { h with groupsInForce := fun host => (sameNames_iff.mp hsame host).symm }
  · exact
      { coherent := MemoPolicy.coherent_updateOverrides _ _ _ _
        thresholdValues := h.thresholdValues
        hostOverrides := rfl
        groupOverrides := rfl
        sameHosts := h.sameHosts
        sameGroups := h.sameGroups
        hostGroups := fun _ => rfl
        groupsInForce := fun _ => rfl }

/-- New overrides are installed with the groups that are handed over, unless they are there
already. What the policy and the store say of the groups may differ for a moment. -/
theorem setIncidentOverrides (h : store.Follows thresholdValues settings)
    (hostIncidentOverrides groupIncidentOverrides : List (String × IncidentScopeOverrideConfig))
    {hostGroups : List (String × String)}
    (hgroups : ∀ host, (Dict.ofList hostGroups).get? host = store.hostGroups.get? host) :
    (store.setIncidentOverrides hostIncidentOverrides groupIncidentOverrides hostGroups).Follows
      thresholdValues { settings with hostIncidentOverrides, groupIncidentOverrides } := by
  unfold ThresholdStore.setIncidentOverrides
  split
  · next hsame =>
    rw [Bool.and_eq_true] at hsame
    exact
      { h with
        sameHosts := fun host => (sameSetting_ofList hsame.1 host).symm
        sameGroups := fun group => (sameSetting_ofList hsame.2 group).symm }
  · exact
      { coherent := MemoPolicy.coherent_updateOverrides _ _ _ _
        thresholdValues := h.thresholdValues
        hostOverrides := rfl
        groupOverrides := rfl
        sameHosts := fun _ => sameSetting_refl _
        sameGroups := fun _ => sameSetting_refl _
        hostGroups := hgroups
        groupsInForce := h.groupsInForce }

theorem updateExpectedGpuCounts (h : store.Follows thresholdValues settings)
    (expectedGpuCounts : List (String × ℕ)) :
    (store.updateExpectedGpuCounts expectedGpuCounts).Follows thresholdValues
      { settings with expectedGpuCounts } :=
  { h with coherent := h.coherent.updateExpectedGpuCounts expectedGpuCounts }

theorem setHosts (h : store.Follows thresholdValues settings) (hosts : List String) :
    (store.setHosts hosts).Follows thresholdValues settings := by
  have hpolicy := MemoPolicy.policy_retainHosts store.incidentPolicy hosts
  exact
    { h with
      coherent := h.coherent.retainHosts hosts
      thresholdValues := hpolicy ▸ h.thresholdValues
      hostOverrides := hpolicy ▸ h.hostOverrides
      groupOverrides := hpolicy ▸ h.groupOverrides
      hostGroups := hpolicy ▸ h.hostGroups }

/-- A reconfiguration installs the overrides with its groups, and then the groups. -/
theorem reconfigure (h : store.Follows thresholdValues settings) (new : IncidentSettings)
    (hosts : Option (List String)) :
    (store.reconfigure new hosts).Follows thresholdValues new := by
  have hcounts := h.updateExpectedGpuCounts new.expectedGpuCounts
  have hinstalled : (((store.updateExpectedGpuCounts new.expectedGpuCounts).setIncidentOverrides
      new.hostIncidentOverrides new.groupIncidentOverrides new.hostGroups).setHostGroups
        new.hostGroups).Follows thresholdValues new := by
    generalize store.updateExpectedGpuCounts new.expectedGpuCounts = counted at hcounts
    by_cases hsame : (sameOverrides new.hostIncidentOverrides counted.hostIncidentOverrides
        && sameOverrides new.groupIncidentOverrides counted.groupIncidentOverrides) = true
    · rw [ThresholdStore.setIncidentOverrides, if_pos hsame]
      rw [Bool.and_eq_true] at hsame
      have hoverrides : counted.Follows thresholdValues
          { new with hostGroups := settings.hostGroups } :=
        { hcounts with
          sameHosts := fun host => (sameSetting_ofList hsame.1 host).symm
          sameGroups := fun group => (sameSetting_ofList hsame.2 group).symm }
      exact hoverrides.setHostGroups new.hostGroups
    · -- The policy has the new groups, whether or not the store compares others with them.
      rw [ThresholdStore.setIncidentOverrides, if_neg hsame, ThresholdStore.setHostGroups]
      dsimp only
      split
      · next hnames =>
        exact
          { coherent := MemoPolicy.coherent_updateOverrides _ _ _ _
            thresholdValues := hcounts.thresholdValues
            hostOverrides := rfl
            groupOverrides := rfl
            sameHosts := fun _ => sameSetting_refl _
            sameGroups := fun _ => sameSetting_refl _
            hostGroups := fun host => sameNames_iff.mp hnames host
            groupsInForce := fun host => (sameNames_iff.mp hnames host).symm }
      · exact
          { coherent := MemoPolicy.coherent_updateOverrides _ _ _ _
            thresholdValues := hcounts.thresholdValues
            hostOverrides := rfl
            groupOverrides := rfl
            sameHosts := fun _ => sameSetting_refl _
            sameGroups := fun _ => sameSetting_refl _
            hostGroups := fun _ => rfl
            groupsInForce := fun _ => rfl }
  unfold ThresholdStore.reconfigure
  cases hosts with
  | none => exact hinstalled
  | some hosts => exact hinstalled.setHosts hosts

theorem apply (h : store.Follows thresholdValues settings) (result : ProbeResult)
    (expectedIncarnation : Option ℕ) :
    (store.apply result expectedIncarnation).2.Follows thresholdValues settings := by
  unfold ThresholdStore.apply
  dsimp only
  split
  · exact h
  · have hreads := h.coherent.judge result
    exact
      { h with
        coherent := hreads.coherent
        thresholdValues := hreads.policy_eq ▸ h.thresholdValues
        hostOverrides := hreads.policy_eq ▸ h.hostOverrides
        groupOverrides := hreads.policy_eq ▸ h.groupOverrides
        hostGroups := hreads.policy_eq ▸ h.hostGroups }

/-- Every call keeps the invariant. -/
theorem step (h : store.Follows thresholdValues settings) (call : StoreCall) :
    (store.step call).Follows thresholdValues (settings.after call) := by
  cases call with
  | reconfigure new hosts => exact h.reconfigure new hosts
  | setHostGroups hostGroups => exact h.setHostGroups hostGroups
  | setIncidentOverrides hostOverrides groupOverrides =>
    refine h.setIncidentOverrides hostOverrides groupOverrides fun host => ?_
    rw [Dict.get?_ofList, Dict.lookup_reverse]
  | updateExpectedGpuCounts expectedGpuCounts => exact h.updateExpectedGpuCounts expectedGpuCounts
  | setHosts hosts => exact h.setHosts hosts
  | sample result expectedIncarnation => exact h.apply result expectedIncarnation

/-- So does every sequence of calls. -/
theorem run (h : store.Follows thresholdValues settings) (calls : List StoreCall) :
    (store.run calls).Follows thresholdValues (settings.afterAll calls) := by
  induction calls generalizing store settings with
  | nil => exact h
  | cons call rest ih => exact ih (h.step call)

end ThresholdStore.Follows

/-! ### What a sample is judged by -/

/-- The override of the current group of a host. -/
def IncidentSettings.groupOverride (settings : IncidentSettings) (host : String) :
    Option IncidentScopeOverrideConfig :=
  match (Dict.ofList settings.hostGroups).get? host with
  | some group =>
    if group = "" then none else (Dict.ofList settings.groupIncidentOverrides).get? group
  | none => none

/-- The current override of a host. -/
def IncidentSettings.hostOverride (settings : IncidentSettings) (host : String) :
    Option IncidentScopeOverrideConfig :=
  (Dict.ofList settings.hostIncidentOverrides).get? host

/-- Values updated by an override, if there is one. -/
def overriddenBy (override : Option IncidentScopeOverrideConfig) (values : Dict ThresholdName ℚ) :
    Dict ThresholdName ℚ :=
  (override.elim [] (·.thresholds)).foldl (fun values entry => values.set entry.1 entry.2) values

/-- After every sequence of reconfigurations, group and override changes, inventories and samples,
a sample is judged by the base thresholds updated by the override of the current group of its host
and then by the current override of the host, and the mount points that either of them excludes
are excluded. -/
theorem thresholds_follow_configuration (state : StateStore) (thresholds : ThresholdConfig)
    (incidents : IncidentConfig) (start : IncidentSettings) (calls : List StoreCall)
    (result : ProbeResult) (expectedIncarnation : Option ℕ) (judgement : Judgement)
    (hjudged : (((ThresholdStore.create state thresholds incidents start).run calls).apply result
      expectedIncarnation).1 = some judgement) :
    judgement.thresholds = overriddenBy ((start.afterAll calls).hostOverride result.host)
        (overriddenBy ((start.afterAll calls).groupOverride result.host) thresholds.toDict)
      ∧ ∀ mounts ∈ judgement.exclusions, ∀ mount, mount ∈ mounts ↔
        (∃ override ∈ (start.afterAll calls).groupOverride result.host,
          mount ∈ override.excludeDiskMounts)
        ∨ ∃ override ∈ (start.afterAll calls).hostOverride result.host,
          mount ∈ override.excludeDiskMounts := by
  have hfollows := (ThresholdStore.Follows.create state thresholds incidents start).run calls
  generalize start.afterAll calls = settings at hfollows ⊢
  have hagrees := hfollows.agrees incidents
  have hgroup : (settings.policy thresholds.toDict incidents).groupOverride result.host
      = settings.groupOverride result.host := rfl
  have hhost : (settings.policy thresholds.toDict incidents).hostOverrides.get? result.host
      = settings.hostOverride result.host := rfl
  unfold ThresholdStore.apply at hjudged
  split at hjudged
  · cases hjudged
  · have hreads := hfollows.coherent.judge result
    rw [← Option.some.inj hjudged]
    refine ⟨?_, fun mounts hmounts mount => ?_⟩
    · rw [hreads.thresholds, hagrees.thresholdsFor, ThresholdIncidentPolicy.thresholdsFor, hgroup,
        hhost]
      cases settings.groupOverride result.host <;> cases settings.hostOverride result.host <;> rfl
    · rw [hreads.exclusions mounts hmounts, hagrees.mem_excludedDiskMounts,
        ThresholdIncidentPolicy.excludedDiskMounts, hgroup, hhost]
      cases settings.groupOverride result.host <;> cases settings.hostOverride result.host <;>
        simp

/-- A sample of a host with one filesystem. -/
private def regroupedSample : ProbeResult where
  host := "gpu-1"
  status := .online
  latencyMs := 3
  observedAt := "10"
  system := some
    { cpuUsagePct := none, memoryTotalMib := 64, memoryUsedMib := 32, swapTotalMib := 0
      swapUsedMib := 0, disks := [⟨"/dev/sda1", "ext4", "/", 100, 20⟩] }

/-- Two groups with other thresholds, and the host in the first. -/
private def twoGroups : IncidentSettings where
  groupIncidentOverrides := [("lab", ⟨[(.diskWarningPct, 70)], []⟩),
    ("farm", ⟨[(.diskWarningPct, 95)], ["/"]⟩)]
  hostGroups := [("gpu-1", "lab")]

/-- A store that knows no host. -/
private def unmonitored : StateStore where
  incidentPolicy := (twoGroups.policy ∅ {}).toIncidentPolicy
  incidents := .init (twoGroups.policy ∅ {}).toIncidentPolicy 20 [] []
  maintenanceWindows := ∅
  incidentActions := ∅
  startupActionCandidates := []
  notificationEventCapacity := 10

/-- The host is judged in one group, and discovery moves it to the other. -/
private def regroupingCalls : List StoreCall :=
  [.setHosts ["gpu-1"], .sample regroupedSample none, .setHostGroups [("gpu-1", "farm")]]

/-- Judged again, it is judged by the settings of the group that it is in now. -/
theorem thresholds_follow_configuration_regrouped :
    ∃ judgement, (((ThresholdStore.create unmonitored {} {} twoGroups).run regroupingCalls).apply
        regroupedSample none).1 = some judgement
      ∧ judgement.thresholds.get? .diskWarningPct = some 95
      ∧ judgement.exclusions = [["/"]]
      ∧ ∀ mounts ∈ judgement.exclusions, "/" ∈ mounts := by
  have hread : (((ThresholdStore.create unmonitored {} {} twoGroups).run regroupingCalls).apply
      regroupedSample none).1.map (·.exclusions) = some [["/"]] := by decide +kernel
  obtain ⟨judgement, hjudged, hexclusions⟩ := Option.map_eq_some_iff.mp hread
  obtain ⟨hthresholds, hmounts⟩ := thresholds_follow_configuration unmonitored {} {} twoGroups
    regroupingCalls regroupedSample none judgement hjudged
  refine ⟨judgement, hjudged, ?_, hexclusions, fun mounts hmem => ?_⟩
  · rw [hthresholds]
    decide +kernel
  · rw [hmounts mounts hmem]
    exact .inl ⟨_, rfl, List.mem_singleton_self _⟩

end Mocop
