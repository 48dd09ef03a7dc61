import Mocop.Dashboard.AttentionIssues
import Mocop.Lib.Largest

/-!
# `Mocop.Dashboard.AttentionPartition`: what the issues of the panel stand for

Each pass takes conditions out of the pool that no pass before it consumed, so the issues are a
partition. `PathPass` and `StoragePass` are what holds between two steps of the first two passes.
The first pass takes all connectivity conditions of a host or none of them: a host with a loss
that is not consumed has only such losses (`PathPass.unconsumed`). Connectivity conditions have no
shared key, so the second pass meets none of them.

The issues of a path and of a host are rated by all that they stand for. The issue of a shared
storage is rated by the hottest condition of each host only (`StorageIssue.rated_iff`).
-/

set_option autoImplicit false

namespace Mocop.AttentionPanel

variable {conditionsByHost : ConditionsByHost}

/-! ### The shared paths -/

/-- An issue of a correlation: it stands for all connectivity conditions of its hosts. -/
structure PathIssue (conditionsByHost : ConditionsByHost) (issue : Issue) : Prop where
  shared : issue.shared = true
  categories : issue.categories = ["connection"]
  severity : issue.severity = .critical
  priority : 3 ≤ issue.priority
  ne_nil : issue.explains ≠ []
  losses : ∀ x ∈ issue.explains, x.2.kind = "connectivity"
  whole : ∀ x ∈ issue.explains, ∀ condition ∈ conditionsOf conditionsByHost x.1,
    condition.kind = "connectivity" → (x.1, condition) ∈ issue.explains

/-- What holds between two correlations. -/
structure PathPass (conditionsByHost : ConditionsByHost) (state : PassState) : Prop where
  taken : Taken consumedKey (occurrencesOf conditionsByHost) (state.1.map (·.explains)) state.2
  issues : ∀ issue ∈ state.1, PathIssue conditionsByHost issue

variable {hosts : List String} {x : Occurrence} {state : PassState} {issue : Issue} {key : String}
  {condition : PanelCondition} {conditions : List PanelCondition}

theorem mem_lossesOf :
    x ∈ lossesOf conditionsByHost hosts
      ↔ x.1 ∈ hosts ∧ x.2 ∈ conditionsOf conditionsByHost x.1 ∧ x.2.kind = "connectivity" := by
  unfold lossesOf
  rw [List.mem_flatMap]
  constructor
  · rintro ⟨host, hhost, hmem⟩
    obtain ⟨condition, hcondition, rfl⟩ := List.mem_map.mp hmem
    have hfilter := List.mem_filter.mp hcondition
    exact ⟨hhost, hfilter.1, by simpa using hfilter.2⟩
  · rintro ⟨hhost, hcondition, hkind⟩
    exact ⟨x.1, hhost, List.mem_map.mpr
      ⟨x.2, List.mem_filter.mpr ⟨hcondition, by simpa using hkind⟩, rfl⟩⟩

theorem WellFormed.nodup_lossesOf (h : WellFormed conditionsByHost) (hhosts : hosts.Nodup) :
    (lossesOf conditionsByHost hosts).Nodup := by
  unfold lossesOf
  rw [List.nodup_flatMap]
  constructor
  · intro host _
    have hids := List.Nodup.of_map _ (h.nodup_conditionsOf host)
    exact (hids.filter _).map fun a b heq => (Prod.mk.inj heq).2
  · refine hhosts.imp fun hne x hx hy => hne ?_
    obtain ⟨_, -, rfl⟩ := List.mem_map.mp hx
    obtain ⟨_, -, heq⟩ := List.mem_map.mp hy
    exact (Prod.mk.inj heq).1.symm

/-- A host with a loss that no group consumed has only such losses. -/
theorem PathPass.unconsumed (h : PathPass conditionsByHost state) {host : String}
    {condition other : PanelCondition} (hcondition : condition ∈ conditionsOf conditionsByHost host)
    (hkind : condition.kind = "connectivity") (hfree : consumedKey (host, condition) ∉ state.2)
    (hother : other ∈ conditionsOf conditionsByHost host) :
    consumedKey (host, other) ∉ state.2 := by
  intro hnoted
  have hin := (h.taken.noted_iff (host, other) (mem_occurrencesOf.mpr hother)).mp hnoted
  obtain ⟨explains, hexplains, hmem⟩ := List.mem_flatten.mp hin
  obtain ⟨issue, hissue, rfl⟩ := List.mem_map.mp hexplains
  -- The group of the other loss has this one, too.
  have hwhole := (h.issues issue hissue).whole (host, other) hmem condition hcondition hkind
  refine hfree ((h.taken.noted_iff (host, condition) (mem_occurrencesOf.mpr hcondition)).mpr ?_)
  exact List.mem_flatten.mpr ⟨issue.explains, hexplains, hwhole⟩

/-- One more group of hosts that have a loss which no group consumed. -/
theorem PathPass.add (hwell : WellFormed conditionsByHost) (h : PathPass conditionsByHost state)
    (hnodup : hosts.Nodup)
    (hfree : ∀ host ∈ hosts, ∃ condition ∈ conditionsOf conditionsByHost host,
      condition.kind = "connectivity" ∧ consumedKey (host, condition) ∉ state.2)
    (hexplains : issue.explains = lossesOf conditionsByHost hosts)
    (hissue : PathIssue conditionsByHost issue) :
    PathPass conditionsByHost
      (state.1 ++ [issue], state.2 ++ (lossesOf conditionsByHost hosts).map consumedKey) := by
  constructor
  · show Taken consumedKey _ ((state.1 ++ [issue]).map (·.explains)) _
    rw [List.map_append, List.map_singleton, hexplains]
    refine h.taken.add hwell.consumedKey_injOn (hwell.nodup_lossesOf hnodup) ?_ ?_
    · intro x hx
      exact mem_occurrencesOf.mpr (mem_lossesOf.mp hx).2.1
    · intro x hx
      obtain ⟨hhost, hcondition, -⟩ := mem_lossesOf.mp hx
      obtain ⟨condition, hmem, hkind, hnot⟩ := hfree x.1 hhost
      exact h.unconsumed hmem hkind hnot hcondition
  · intro other hother
    rcases List.mem_append.mp hother with hold | hnew
    · exact h.issues other hold
    · rw [List.mem_singleton.mp hnew]
      exact hissue

theorem PathPass.step (hwell : WellFormed conditionsByHost) (h : PathPass conditionsByHost state)
    (correlation : Correlation) :
    PathPass conditionsByHost (sharedPathStep conditionsByHost state correlation) := by
  unfold sharedPathStep
  dsimp only
  generalize (correlation.kind == "simultaneous_connectivity_loss") = simultaneous
  generalize (if simultaneous = true then none
    else (safeStoredHosts correlation.anchor.toList).head?) = anchor
  generalize hhosts : ((safeStoredHosts correlation.hosts).filter fun host =>
    (conditionsOf conditionsByHost host).any fun condition =>
      condition.kind = "connectivity" ∧ consumedKey (host, condition) ∉ state.2) = hosts
  have hnodup : hosts.Nodup := hhosts ▸ (nodup_eraseDups _).filter _
  -- Each of the hosts has a loss that is not consumed.
  have hfree : ∀ host ∈ hosts, ∃ condition ∈ conditionsOf conditionsByHost host,
      condition.kind = "connectivity" ∧ consumedKey (host, condition) ∉ state.2 := by
    intro host hhost
    rw [← hhosts] at hhost
    simpa using (List.mem_filter.mp hhost).2
  by_cases hkind : correlation.confidence ≠ "possible"
      ∨ simultaneous = false ∧ correlation.kind ≠ "configured_shared_path"
  · rw [if_pos hkind]
    exact h
  rw [if_neg hkind]
  by_cases hsmall : simultaneous = false ∧ anchor = none ∨ hosts.length < 2
  · rw [if_pos hsmall]
    exact h
  rw [if_neg hsmall]
  refine h.add hwell hnodup hfree rfl ⟨rfl, rfl, rfl, ?_, ?_, ?_, ?_⟩
  · show 3 ≤ if simultaneous = true then 4 else 3
    split <;> omega
  · show lossesOf conditionsByHost hosts ≠ []
    intro hempty
    have hlength : 2 ≤ hosts.length := by omega
    obtain ⟨host, hhost⟩ := List.exists_mem_of_length_pos (show 0 < hosts.length by omega)
    obtain ⟨condition, hmem, hloss, -⟩ := hfree host hhost
    have hin : (host, condition) ∈ lossesOf conditionsByHost hosts :=
      mem_lossesOf.mpr ⟨hhost, hmem, hloss⟩
    rw [hempty] at hin
    exact absurd hin List.not_mem_nil
  · intro x hx
    exact (mem_lossesOf.mp hx).2.2
  · intro x hx condition hcondition hloss
    exact mem_lossesOf.mpr ⟨(mem_lossesOf.mp hx).1, hcondition, hloss⟩

theorem pathPass_sharedPathIssues (hwell : WellFormed conditionsByHost)
    (correlations : List Correlation) :
    PathPass conditionsByHost (sharedPathIssues conditionsByHost correlations) := by
  have hrun : ∀ state, PathPass conditionsByHost state →
      PathPass conditionsByHost
        (correlations.foldl (sharedPathStep conditionsByHost) state) := by
    induction correlations with
    | nil => exact fun _ h => h
    | cons correlation rest ih => exact fun state h => ih _ (h.step hwell correlation)
  exact hrun _ ⟨taken_nil _ _, fun _ hissue => absurd hissue List.not_mem_nil⟩

/-! ### The shared storages -/

/-- The occurrences under a shared key. -/
def sharedBy (key : String) (occurrences : List Occurrence) : List Occurrence :=
  occurrences.filter (·.2.sharedKey = some key)

/-- The conditions of one host under a shared key. -/
def sharing (conditions : List PanelCondition) (key : String) : List PanelCondition :=
  conditions.filter (·.sharedKey = some key)

theorem mem_sharedBy {occurrences : List Occurrence} :
    x ∈ sharedBy key occurrences ↔ x ∈ occurrences ∧ x.2.sharedKey = some key := by
  simp [sharedBy]

/-- What a host reports under a key is in the group of the key. -/
theorem mem_sharedBy_of_sharing {host key : String}
    (h : condition ∈ sharing (conditionsOf conditionsByHost host) key) :
    (host, condition) ∈ sharedBy key (occurrencesOf conditionsByHost) := by
  obtain ⟨hin, hshared⟩ := List.mem_filter.mp h
  exact mem_sharedBy.mpr ⟨mem_occurrencesOf.mpr hin, by simpa using hshared⟩

theorem get?_sharedGroups (occurrences : List Occurrence) (key : String) :
    (sharedGroups occurrences).get? key
      = if sharedBy key occurrences = [] then none else some (sharedBy key occurrences) := by
  unfold sharedGroups sharedBy
  induction occurrences using List.reverseRecOn with
  | nil => rfl
  | append_singleton occurrences occurrence ih =>
    rw [List.foldl_append, List.foldl_cons, List.foldl_nil, List.filter_append]
    cases hkey : occurrence.2.sharedKey with
    | none =>
      have hlast : [occurrence].filter (·.2.sharedKey = some key) = [] := by simp [hkey]
      rw [hlast, List.append_nil]
      exact ih
    | some other =>
      dsimp only
      rw [Dict.get?_set, Dict.getD_eq]
      by_cases hsame : key = other
      · subst hsame
        rw [ih]
        by_cases hempty : occurrences.filter (·.2.sharedKey = some key) = []
        · simp [hkey, hempty]
        · simp [hkey, hempty]
      · have hlast : [occurrence].filter (·.2.sharedKey = some key) = [] := by
          simp [hkey, Ne.symm hsame]
        rw [hlast, List.append_nil, if_neg hsame]
        exact ih

/-- The groups are the occurrences under the keys. -/
theorem values_sharedGroups (occurrences : List Occurrence) :
    (sharedGroups occurrences).values
      = (sharedGroups occurrences).keys.map (sharedBy · occurrences) := by
  unfold Dict.values Dict.keys
  rw [List.map_map]
  refine List.map_congr_left fun entry hentry => ?_
  have hget := (Dict.get?_eq_some_iff _ entry.1 entry.2).mpr hentry
  rw [get?_sharedGroups] at hget
  split at hget
  · cases hget
  · exact (Option.some.inj hget).symm

theorem mem_keys_sharedGroups {occurrences : List Occurrence} :
    key ∈ (sharedGroups occurrences).keys ↔ sharedBy key occurrences ≠ [] := by
  rw [Dict.mem_keys, get?_sharedGroups]
  split <;> simp_all

/-- A host's kept condition is the first of its hottest ones. -/
theorem get?_hottestByHost (occurrences : List Occurrence) (host : String) :
    (hottestByHost occurrences).get? host
      = firstLargest (·.2.usage) (occurrences.filter (·.1 = host)) := by
  rw [← foldl_keepLarger]
  unfold hottestByHost
  induction occurrences using List.reverseRecOn with
  | nil => rfl
  | append_singleton occurrences occurrence ih =>
    rw [List.foldl_append, List.foldl_cons, List.foldl_nil, List.filter_append,
      List.foldl_append, ← ih]
    generalize occurrences.foldl _ (∅ : Dict String Occurrence) = byHost
    by_cases hhost : occurrence.1 = host
    · subst hhost
      cases hget : byHost.get? occurrence.1 with
      | none => simp [keepLarger]
      | some current =>
        by_cases hlt : current.2.usage < occurrence.2.usage
        · simp [keepLarger, hlt]
        · simp [hget, keepLarger, hlt]
    · have hne : host ≠ occurrence.1 := fun h => hhost h.symm
      -- The pass writes the entry of another host.
      cases hget : byHost.get? occurrence.1 with
      | none => simp [hhost, hne]
      | some current =>
        by_cases hlt : current.2.usage < occurrence.2.usage
        · simp [hhost, hne, hlt]
        · simp [hhost, hlt]

/-- The occurrences of a host. -/
theorem filter_occurrencesOf (host : String) :
    (occurrencesOf conditionsByHost).filter (·.1 = host)
      = (conditionsOf conditionsByHost host).map (host, ·) := by
  have hentries : ∀ entries : List (String × List PanelCondition), (entries.map Prod.fst).Nodup →
      (entries.flatMap fun entry => entry.2.map (entry.1, ·)).filter (·.1 = host)
        = ((Dict.lookup host entries).getD []).map (host, ·) := by
    intro entries
    induction entries with
    | nil => exact fun _ => rfl
    | cons entry rest ih =>
      intro hnodup
      rw [List.map_cons, List.nodup_cons] at hnodup
      rw [List.flatMap_cons, List.filter_append, ih hnodup.2, Dict.lookup]
      by_cases hhost : entry.1 = host
      · -- No later entry is of the host.
        subst hhost
        rw [if_pos rfl, (Dict.lookup_eq_none_iff entry.1 rest).mpr hnodup.1]
        simp [List.filter_map, Function.comp_def]
      · rw [if_neg hhost]
        simp [List.filter_map, Function.comp_def, hhost]
  exact hentries _ conditionsByHost.nodup

/-- The conditions of a host under a key. -/
theorem filter_sharedBy (key host : String) :
    (sharedBy key (occurrencesOf conditionsByHost)).filter (·.1 = host)
      = (sharing (conditionsOf conditionsByHost host) key).map (host, ·) := by
  unfold sharedBy sharing
  rw [List.filter_comm, filter_occurrencesOf, List.filter_map]
  rfl

/-- The first of the hottest conditions. -/
def hottestOf (conditions : List PanelCondition) : Option PanelCondition :=
  firstLargest (·.usage) conditions

theorem get?_hottestByHost_sharedBy (key host : String) :
    (hottestByHost (sharedBy key (occurrencesOf conditionsByHost))).get? host
      = (hottestOf (sharing (conditionsOf conditionsByHost host) key)).map (host, ·) := by
  rw [get?_hottestByHost, filter_sharedBy, firstLargest_map]
  rfl

/-- The hosts that report a shared key. -/
def reporters (conditionsByHost : ConditionsByHost) (key : String) : List String :=
  conditionsByHost.keys.filter fun host => sharing (conditionsOf conditionsByHost host) key ≠ []

theorem hottestOf_eq_none :
    hottestOf conditions = none ↔ conditions = [] := firstLargest_eq_none

/-- The kept conditions of a group are one for each host that reports its key. -/
theorem length_hottestByHost (conditionsByHost : ConditionsByHost) (key : String) :
    (hottestByHost (sharedBy key (occurrencesOf conditionsByHost))).values.length
      = (reporters conditionsByHost key).length := by
  have hkeys : (hottestByHost (sharedBy key (occurrencesOf conditionsByHost))).keys.Perm
      (reporters conditionsByHost key) := by
    have hnodup : (reporters conditionsByHost key).Nodup := (Dict.nodup_keys _).filter _
    rw [List.perm_ext_iff_of_nodup (Dict.nodup_keys _) hnodup]
    intro host
    unfold reporters
    rw [Dict.mem_keys, get?_hottestByHost_sharedBy, Option.isSome_map, Option.isSome_iff_ne_none,
      Ne, hottestOf_eq_none, List.mem_filter]
    constructor
    · intro hne
      obtain ⟨condition, hin⟩ := List.exists_mem_of_ne_nil _ hne
      exact ⟨mem_keys_of_mem_conditionsOf (List.mem_filter.mp hin).1, by simpa using hne⟩
    · rintro ⟨-, hne⟩
      simpa using hne
  rw [← hkeys.length_eq, Dict.values, Dict.keys, List.length_map, List.length_map]

/-- No group of two hosts hides its critical conditions: if one is critical, so is the hottest
condition of some host of the group. -/
def ShowsCritical (conditionsByHost : ConditionsByHost) (key : String) : Prop :=
  2 ≤ (reporters conditionsByHost key).length →
  (∃ host, ∃ condition ∈ sharing (conditionsOf conditionsByHost host) key,
    condition.severity = .critical) →
  ∃ host condition, hottestOf (sharing (conditionsOf conditionsByHost host) key) = some condition
    ∧ condition.severity = .critical

/-- The conditions that are rated for a group. -/
def ratedFor (conditionsByHost : ConditionsByHost) (key : String) : List PanelCondition :=
  (hottestByHost (sharedBy key (occurrencesOf conditionsByHost))).values.map Prod.snd

theorem mem_ratedFor :
    condition ∈ ratedFor conditionsByHost key
      ↔ ∃ host, hottestOf (sharing (conditionsOf conditionsByHost host) key) = some condition := by
  unfold ratedFor Dict.values
  rw [List.map_map, List.mem_map]
  constructor
  · rintro ⟨entry, hentry, rfl⟩
    have hget := (Dict.get?_eq_some_iff _ entry.1 entry.2).mpr hentry
    rw [get?_hottestByHost_sharedBy] at hget
    obtain ⟨condition, hhottest, heq⟩ := Option.map_eq_some_iff.mp hget
    refine ⟨entry.1, hhottest.trans ?_⟩
    show some condition = some entry.2.2
    rw [← heq]
  · rintro ⟨host, hhottest⟩
    refine ⟨(host, (host, condition)), ?_, rfl⟩
    rw [← Dict.get?_eq_some_iff, get?_hottestByHost_sharedBy, hhottest]
    rfl

/-- An issue of a shared storage. -/
structure StorageIssue (conditionsByHost : ConditionsByHost) (key : String) (issue : Issue) :
    Prop where
  severity : issue.severity = worstSeverity (ratedFor conditionsByHost key)
  priority : issue.priority = maxPriority (ratedFor conditionsByHost key)
  explains : issue.explains = sharedBy key (occurrencesOf conditionsByHost)
  reported : 2 ≤ (reporters conditionsByHost key).length

section
variable {format : ℚ → String} {localeLe : String → String → Bool}

/-- The step of a group that two hosts report, and of any other. -/
theorem sharedStorageStep_cases (state : PassState) (key : String) :
    (reporters conditionsByHost key).length < 2
        ∧ sharedStorageStep format localeLe state (sharedBy key (occurrencesOf conditionsByHost))
          = state
      ∨ ∃ issue, StorageIssue conditionsByHost key issue
        ∧ sharedStorageStep format localeLe state (sharedBy key (occurrencesOf conditionsByHost))
          = (state.1 ++ [issue],
            state.2 ++ (sharedBy key (occurrencesOf conditionsByHost)).map consumedKey) := by
  have hlength := length_hottestByHost conditionsByHost key
  unfold sharedStorageStep
  cases hvalues : (hottestByHost (sharedBy key (occurrencesOf conditionsByHost))).values with
  | nil =>
    rw [hvalues, List.length_nil] at hlength
    exact .inl ⟨by omega, rfl⟩
  | cons first rest =>
    cases rest with
    | nil =>
      rw [hvalues, List.length_singleton] at hlength
      exact .inl ⟨by omega, rfl⟩
    | cons second rest =>
      rw [hvalues, List.length_cons, List.length_cons] at hlength
      refine .inr ⟨_, ⟨?_, ?_, rfl, by omega⟩, rfl⟩
      · rw [ratedFor, hvalues]
      · rw [ratedFor, hvalues]

/-- What holds between two groups: `done` are the keys of the groups so far. -/
structure StoragePass (conditionsByHost : ConditionsByHost) (state : PassState)
    (done : List String) : Prop where
  taken : Taken consumedKey (occurrencesOf conditionsByHost) (state.1.map (·.explains)) state.2
  issues : ∀ issue ∈ state.1, PathIssue conditionsByHost issue
    ∨ ∃ key ∈ done, StorageIssue conditionsByHost key issue
  listed : ∀ key ∈ done, 2 ≤ (reporters conditionsByHost key).length →
    ∃ issue ∈ state.1, StorageIssue conditionsByHost key issue

/-- A group of a new key has no consumed condition. -/
theorem StoragePass.unconsumed (hwell : WellFormed conditionsByHost) {done : List String}
    (h : StoragePass conditionsByHost state done) (hkey : key ∉ done)
    (hx : x ∈ sharedBy key (occurrencesOf conditionsByHost)) :
    consumedKey x ∉ state.2 := by
  intro hnoted
  obtain ⟨hpool, hshared⟩ := mem_sharedBy.mp hx
  obtain ⟨explains, hexplains, hin⟩ :=
    List.mem_flatten.mp ((h.taken.noted_iff x hpool).mp hnoted)
  obtain ⟨issue, hissue, rfl⟩ := List.mem_map.mp hexplains
  rcases h.issues issue hissue with hpath | ⟨other, hother, hstorage⟩
  · -- A connectivity condition has no shared key.
    have hloss := hwell.loss x.1 x.2 (mem_occurrencesOf.mp hpool) (hpath.losses x hin)
    rw [hloss.2.2] at hshared
    cases hshared
  · rw [hstorage.explains] at hin
    have hsame := (mem_sharedBy.mp hin).2
    rw [hshared] at hsame
    exact hkey (Option.some.inj hsame ▸ hother)

theorem StoragePass.step (hwell : WellFormed conditionsByHost) {done : List String}
    (h : StoragePass conditionsByHost state done) (hkey : key ∉ done) :
    StoragePass conditionsByHost
      (sharedStorageStep format localeLe state (sharedBy key (occurrencesOf conditionsByHost)))
      (done ++ [key]) := by
  have hold : ∀ issue ∈ state.1, PathIssue conditionsByHost issue
      ∨ ∃ key' ∈ done ++ [key], StorageIssue conditionsByHost key' issue := by
    intro issue hissue
    rcases h.issues issue hissue with hpath | ⟨other, hother, hstorage⟩
    · exact .inl hpath
    · exact .inr ⟨other, List.mem_append_left _ hother, hstorage⟩
  rcases sharedStorageStep_cases state key with ⟨hsmall, heq⟩ | ⟨issue, hstorage, heq⟩
  · rw [heq]
    refine ⟨h.taken, hold, fun other hother htwo => ?_⟩
    rcases List.mem_append.mp hother with hin | hnew
    · exact h.listed other hin htwo
    · rw [List.mem_singleton.mp hnew] at htwo
      omega
  · rw [heq]
    constructor
    · show Taken consumedKey _ ((state.1 ++ [issue]).map (·.explains)) _
      rw [List.map_append, List.map_singleton, hstorage.explains]
      exact h.taken.add hwell.consumedKey_injOn (hwell.nodup_occurrencesOf.filter _)
        (fun x hx => (mem_sharedBy.mp hx).1) fun x hx => h.unconsumed hwell hkey hx
    · intro other hother
      rcases List.mem_append.mp hother with hin | hnew
      · exact hold other hin
      · rw [List.mem_singleton.mp hnew]
        exact .inr ⟨key, List.mem_append_right _ (List.mem_singleton_self key), hstorage⟩
    · intro other hother htwo
      rcases List.mem_append.mp hother with hin | hnew
      · obtain ⟨found, hfound, hshown⟩ := h.listed other hin htwo
        exact ⟨found, List.mem_append_left _ hfound, hshown⟩
      · rw [List.mem_singleton.mp hnew]
        exact ⟨issue, List.mem_append_right _ (List.mem_singleton_self issue), hstorage⟩

theorem storagePass_sharedStorageIssues (hwell : WellFormed conditionsByHost) {state : PassState}
    (h : PathPass conditionsByHost state) :
    StoragePass conditionsByHost (sharedStorageIssues format localeLe conditionsByHost state)
      (sharedGroups (occurrencesOf conditionsByHost)).keys := by
  have hrun : ∀ (keys done : List String) (state : PassState), (done ++ keys).Nodup →
      StoragePass conditionsByHost state done →
      StoragePass conditionsByHost
        ((keys.map (sharedBy · (occurrencesOf conditionsByHost))).foldl
          (sharedStorageStep format localeLe) state) (done ++ keys) := by
    intro keys
    induction keys with
    | nil =>
      intro done state _ hpass
      rw [List.append_nil]
      exact hpass
    | cons key rest ih =>
      intro done state hnodup hpass
      have hkey : key ∉ done := by
        intro hin
        exact (List.nodup_append.mp hnodup).2.2 key hin key List.mem_cons_self rfl
      have hsplit : done ++ key :: rest = done ++ [key] ++ rest := by simp
      rw [List.map_cons, List.foldl_cons, hsplit]
      rw [hsplit] at hnodup
      exact ih _ _ hnodup (hpass.step hwell hkey)
  unfold sharedStorageIssues
  rw [values_sharedGroups]
  have hstart : StoragePass conditionsByHost state [] :=
    ⟨h.taken, fun issue hissue => .inl (h.issues issue hissue),
      fun _ hkey => absurd hkey List.not_mem_nil⟩
  exact hrun _ [] state (Dict.nodup_keys _) hstart

end

/-! ### The rest of each host -/

/-- The conditions of a host that no group consumed. -/
def remaining (conditionsByHost : ConditionsByHost) (consumed : List String) (server : Server) :
    List PanelCondition :=
  (conditionsOf conditionsByHost server.host).filter fun condition =>
    consumedKey (server.host, condition) ∉ consumed

theorem mem_remaining {consumed : List String} {server : Server} :
    condition ∈ remaining conditionsByHost consumed server
      ↔ condition ∈ conditionsOf conditionsByHost server.host
        ∧ consumedKey (server.host, condition) ∉ consumed := by
  simp [remaining]

/-- An issue of a host's own conditions. -/
structure HostIssue (server : Server) (conditions : List PanelCondition) (issue : Issue) :
    Prop where
  ne_nil : conditions ≠ []
  severity : issue.severity = worstSeverity conditions
  priority : issue.priority = maxPriority conditions
  explains : issue.explains = conditions.map (server.host, ·)

theorem issueFromConditions_cases (server : Server) (conditions : List PanelCondition) :
    conditions = [] ∧ issueFromConditions server conditions = none
      ∨ ∃ issue, issueFromConditions server conditions = some issue
        ∧ HostIssue server conditions issue := by
  unfold issueFromConditions
  cases conditions with
  | nil => exact .inl ⟨rfl, rfl⟩
  | cons first rest => exact .inr ⟨_, rfl, List.cons_ne_nil _ _, rfl, rfl, rfl⟩

/-- The own issues stand for what is left of each host. -/
theorem flatten_serverIssues (consumed : List String) (servers : List Server) :
    ((servers.filterMap (serverIssue conditionsByHost consumed)).map (·.explains)).flatten
      = servers.flatMap fun server =>
        (remaining conditionsByHost consumed server).map (server.host, ·) := by
  induction servers with
  | nil => rfl
  | cons server rest ih =>
    rw [List.filterMap_cons, List.flatMap_cons, ← ih]
    show _ = (remaining conditionsByHost consumed server).map _ ++ _
    rcases issueFromConditions_cases server (remaining conditionsByHost consumed server) with
      ⟨hempty, hnone⟩ | ⟨issue, hsome, hissue⟩
    · rw [show serverIssue conditionsByHost consumed server = none from hnone, hempty]
      rfl
    · rw [show serverIssue conditionsByHost consumed server = some issue from hsome,
        List.map_cons, List.flatten_cons, hissue.explains]

theorem nodup_serverIssues (hwell : WellFormed conditionsByHost) (consumed : List String)
    {servers : List Server} (hservers : (servers.map (·.host)).Nodup) :
    ((servers.filterMap (serverIssue conditionsByHost consumed)).map
      (·.explains)).flatten.Nodup := by
  rw [flatten_serverIssues, List.nodup_flatMap]
  constructor
  · intro server _
    have hids := List.Nodup.of_map _ (hwell.nodup_conditionsOf server.host)
    exact (hids.filter _).map fun a b heq => (Prod.mk.inj heq).2
  · refine (List.pairwise_map.mp hservers).imp fun hne x hx hy => hne ?_
    obtain ⟨_, -, rfl⟩ := List.mem_map.mp hx
    obtain ⟨_, -, heq⟩ := List.mem_map.mp hy
    exact (Prod.mk.inj heq).1.symm

theorem mem_serverIssues {servers : List Server}
    (hcovered : ∀ host ∈ conditionsByHost.keys, host ∈ servers.map (·.host))
    (consumed : List String) (x : Occurrence) :
    x ∈ ((servers.filterMap (serverIssue conditionsByHost consumed)).map (·.explains)).flatten
      ↔ x ∈ occurrencesOf conditionsByHost ∧ consumedKey x ∉ consumed := by
  rw [flatten_serverIssues, List.mem_flatMap, mem_occurrencesOf]
  constructor
  · rintro ⟨server, -, hmem⟩
    obtain ⟨condition, hcondition, rfl⟩ := List.mem_map.mp hmem
    exact mem_remaining.mp hcondition
  · rintro ⟨hmem, hfree⟩
    obtain ⟨server, hserver, hhost⟩ :=
      List.mem_map.mp (hcovered x.1 (mem_keys_of_mem_conditionsOf hmem))
    refine ⟨server, hserver, List.mem_map.mpr ⟨x.2, ?_, by rw [hhost]⟩⟩
    rw [mem_remaining, hhost]
    exact ⟨hmem, hfree⟩

/-! ### Severities and priorities -/

/-- The severity and the priority of an issue are the highest of what it stands for. A shared path
can have a higher priority. -/
structure Issue.Rated (issue : Issue) : Prop where
  severity : issue.severity = .critical ↔ ∃ x ∈ issue.explains, x.2.severity = .critical
  bound : ∀ x ∈ issue.explains, x.2.priority ≤ issue.priority
  attained : (∃ x ∈ issue.explains, x.2.priority = issue.priority)
    ∨ issue.shared = true ∧ issue.categories = ["connection"] ∧ 3 ≤ issue.priority

theorem worstSeverity_eq_critical :
    worstSeverity conditions = .critical
      ↔ ∃ condition ∈ conditions, condition.severity = .critical := by
  unfold worstSeverity
  split <;> simp_all

theorem le_maxPriority (h : condition ∈ conditions) :
    condition.priority ≤ maxPriority conditions := by
  unfold maxPriority
  induction conditions with
  | nil => exact absurd h List.not_mem_nil
  | cons first rest ih =>
    rw [List.map_cons, List.foldr_cons]
    rcases List.mem_cons.mp h with rfl | hin
    · exact le_max_left _ _
    · exact (ih hin).trans (le_max_right _ _)

theorem exists_maxPriority (h : conditions ≠ []) :
    ∃ condition ∈ conditions, condition.priority = maxPriority conditions := by
  unfold maxPriority
  induction conditions with
  | nil => exact absurd rfl h
  | cons first rest ih =>
    rw [List.map_cons, List.foldr_cons]
    by_cases hle : (rest.map (·.priority)).foldr max 0 ≤ first.priority
    · exact ⟨first, List.mem_cons_self, (max_eq_left hle).symm⟩
    · have hne : rest ≠ [] := by
        rintro rfl
        exact hle (Nat.zero_le _)
      obtain ⟨condition, hmem, heq⟩ := ih hne
      refine ⟨condition, List.mem_cons_of_mem _ hmem, heq.trans (max_eq_right ?_).symm⟩
      omega

theorem HostIssue.rated {server : Server} (h : HostIssue server conditions issue) :
    issue.Rated where
  severity := by
    rw [h.severity, worstSeverity_eq_critical, h.explains]
    simp
  bound := by
    intro x hx
    rw [h.explains] at hx
    obtain ⟨condition, hmem, rfl⟩ := List.mem_map.mp hx
    rw [h.priority]
    exact le_maxPriority hmem
  attained := by
    obtain ⟨condition, hmem, heq⟩ := exists_maxPriority h.ne_nil
    refine .inl ⟨(server.host, condition), ?_, heq.trans h.priority.symm⟩
    rw [h.explains]
    exact List.mem_map_of_mem hmem

theorem PathIssue.rated (hwell : WellFormed conditionsByHost) (h : PathIssue conditionsByHost issue)
    (hpool : ∀ x ∈ issue.explains, x ∈ occurrencesOf conditionsByHost) : issue.Rated := by
  have hloss : ∀ x ∈ issue.explains, x.2.severity = .critical ∧ x.2.priority = 3 := by
    intro x hx
    have hin := hwell.loss x.1 x.2 (mem_occurrencesOf.mp (hpool x hx)) (h.losses x hx)
    exact ⟨hin.1, hin.2.1⟩
  obtain ⟨x, hx⟩ := List.exists_mem_of_ne_nil _ h.ne_nil
  constructor
  · exact ⟨fun _ => ⟨x, hx, (hloss x hx).1⟩, fun _ => h.severity⟩
  · intro y hy
    rw [(hloss y hy).2]
    exact h.priority
  · exact .inr ⟨h.shared, h.categories, h.priority⟩

/-- What is rated for a group is one of its conditions. -/
theorem mem_explains_of_rated (h : condition ∈ ratedFor conditionsByHost key) :
    ∃ host, (host, condition) ∈ sharedBy key (occurrencesOf conditionsByHost) := by
  obtain ⟨host, hhottest⟩ := mem_ratedFor.mp h
  exact ⟨host, mem_sharedBy_of_sharing (mem_of_firstLargest hhottest)⟩

/-- A condition under a shared key has the priority of its severity. -/
theorem WellFormed.priority_shared (hwell : WellFormed conditionsByHost)
    (hx : x ∈ sharedBy key (occurrencesOf conditionsByHost)) :
    x.2.priority = if x.2.severity = .critical then 2 else 1 := by
  obtain ⟨hpool, hshared⟩ := mem_sharedBy.mp hx
  have hmem := mem_occurrencesOf.mp hpool
  refine hwell.resource x.1 x.2 hmem fun hkind => ?_
  rw [(hwell.loss x.1 x.2 hmem hkind).2.2] at hshared
  cases hshared

/-- A shared storage is rated right exactly if it does not hide its critical conditions. -/
theorem StorageIssue.rated_iff (hwell : WellFormed conditionsByHost)
    (h : StorageIssue conditionsByHost key issue) :
    issue.Rated ↔ ShowsCritical conditionsByHost key := by
  have hcritical : issue.severity = .critical
      ↔ ∃ condition ∈ ratedFor conditionsByHost key, condition.severity = .critical := by
    rw [h.severity, worstSeverity_eq_critical]
  constructor
  · rintro hrated - ⟨host, condition, hmem, hcond⟩
    have hexplains : (host, condition) ∈ issue.explains := by
      rw [h.explains]
      exact mem_sharedBy_of_sharing hmem
    obtain ⟨shown, hshown, hseverity⟩ :=
      hcritical.mp (hrated.severity.mpr ⟨_, hexplains, hcond⟩)
    obtain ⟨other, hhottest⟩ := mem_ratedFor.mp hshown
    exact ⟨other, shown, hhottest, hseverity⟩
  · intro hshows
    -- A critical condition of the group makes one of the rated conditions critical.
    have hfound : ∀ x ∈ issue.explains, x.2.severity = .critical →
        ∃ condition ∈ ratedFor conditionsByHost key, condition.severity = .critical := by
      intro x hx hseverity
      rw [h.explains] at hx
      obtain ⟨hpool, hshared⟩ := mem_sharedBy.mp hx
      obtain ⟨host, condition, hhottest, hcond⟩ := hshows h.reported
        ⟨x.1, x.2, List.mem_filter.mpr ⟨mem_occurrencesOf.mp hpool, by simpa using hshared⟩,
          hseverity⟩
      exact ⟨condition, mem_ratedFor.mpr ⟨host, hhottest⟩, hcond⟩
    have hne : ratedFor conditionsByHost key ≠ [] := by
      intro hempty
      have hlength := length_hottestByHost conditionsByHost key
      have hreported := h.reported
      rw [← List.length_map Prod.snd] at hlength
      rw [show (List.map Prod.snd _) = _ from hempty, List.length_nil] at hlength
      omega
    obtain ⟨first, hfirst, hattained⟩ := exists_maxPriority hne
    constructor
    · rw [hcritical]
      constructor
      · rintro ⟨condition, hmem, hcond⟩
        obtain ⟨host, hin⟩ := mem_explains_of_rated hmem
        exact ⟨(host, condition), h.explains ▸ hin, hcond⟩
      · rintro ⟨x, hx, hseverity⟩
        exact hfound x hx hseverity
    · intro x hx
      rw [h.priority, hwell.priority_shared (h.explains ▸ hx)]
      have hpriority : ∀ condition ∈ ratedFor conditionsByHost key,
          condition.priority = if condition.severity = .critical then 2 else 1 := by
        intro condition hmem
        obtain ⟨host, hin⟩ := mem_explains_of_rated hmem
        exact hwell.priority_shared hin
      by_cases hseverity : x.2.severity = .critical
      · obtain ⟨condition, hmem, hcond⟩ := hfound x hx hseverity
        have hle := le_maxPriority hmem
        rw [hpriority condition hmem, if_pos hcond] at hle
        rw [if_pos hseverity]
        exact hle
      · have hle := le_maxPriority hfirst
        have hone : 1 ≤ first.priority := by
          rw [hpriority first hfirst]
          split <;> omega
        rw [if_neg hseverity]
        omega
    · obtain ⟨host, hin⟩ := mem_explains_of_rated hfirst
      exact .inl ⟨(host, first), h.explains ▸ hin, hattained.trans h.priority.symm⟩

/-! ### The order of the panel -/

/-- `localeCompare` is a total preorder. -/
structure LocaleOrder (localeLe : String → String → Bool) : Prop where
  trans : ∀ a b c, localeLe a b = true → localeLe b c = true → localeLe a c = true
  total : ∀ a b, localeLe a b = true ∨ localeLe b a = true

/-- By priority, then severity, then name. -/
def InOrder (localeLe : String → String → Bool) (a b : Issue) : Prop :=
  b.priority < a.priority ∨ a.priority = b.priority
    ∧ (a.severity = .critical ∧ b.severity = .warning
      ∨ a.severity = b.severity ∧ localeLe a.sortName b.sortName = true)

section
variable {localeLe : String → String → Bool}

theorem listedBefore_iff {a b : Issue} :
    listedBefore localeLe a b = true ↔ InOrder localeLe a b := by
  unfold listedBefore InOrder
  by_cases hpriority : a.priority = b.priority
  · cases ha : a.severity <;> cases hb : b.severity <;> simp [hpriority]
  · rw [if_pos hpriority, decide_eq_true_eq]
    exact ⟨.inl, fun h => h.elim id fun heq => absurd heq.1 hpriority⟩

theorem LocaleOrder.inOrder_trans (h : LocaleOrder localeLe) {a b c : Issue}
    (hab : InOrder localeLe a b) (hbc : InOrder localeLe b c) : InOrder localeLe a c := by
  rcases hab with hab | ⟨hab, hab'⟩
  · rcases hbc with hbc | ⟨hbc, -⟩
    · exact .inl (by omega)
    · exact .inl (by omega)
  · rcases hbc with hbc | ⟨hbc, hbc'⟩
    · exact .inl (by omega)
    · refine .inr ⟨hab.trans hbc, ?_⟩
      rcases hab' with ⟨ha, hb⟩ | ⟨hsame, hname⟩
      · rcases hbc' with ⟨hb', -⟩ | ⟨hsame, -⟩
        · rw [hb] at hb'
          cases hb'
        · exact .inl ⟨ha, hsame ▸ hb⟩
      · rcases hbc' with ⟨hb, hc⟩ | ⟨hsame', hname'⟩
        · exact .inl ⟨hsame.trans hb, hc⟩
        · exact .inr ⟨hsame.trans hsame', h.trans _ _ _ hname hname'⟩

theorem LocaleOrder.inOrder_total (h : LocaleOrder localeLe) (a b : Issue) :
    InOrder localeLe a b ∨ InOrder localeLe b a := by
  unfold InOrder
  rcases Nat.lt_trichotomy a.priority b.priority with hlt | heq | hlt
  · exact .inr (.inl hlt)
  · have hname := h.total a.sortName b.sortName
    cases ha : a.severity <;> cases hb : b.severity <;> simp [heq, hname]
  · exact .inl (.inl hlt)

/-- What the panel promises of its issues. -/
structure Sound (localeLe : String → String → Bool) (conditionsByHost : ConditionsByHost)
    (result : List Issue) : Prop where
  partition : (result.flatMap (·.explains)).Perm (occurrencesOf conditionsByHost)
  once : (result.flatMap (·.explains)).Nodup
  rated : ∀ issue ∈ result, issue.Rated
  ordered : result.Pairwise (InOrder localeLe)

/-- Every actionable condition is in exactly one issue, and the issues stand in the order of the
panel. Each has the highest severity and priority of what it stands for, exactly if no shared
storage hides its critical conditions behind a hotter warning of the same host. -/
theorem issues_sound_iff (conditionMessage : FeedEntry → String) (format : ℚ → String)
    (horder : LocaleOrder localeLe) (servers : List Server) (conditionsByHost : ConditionsByHost)
    (hcovers : Covers conditionMessage servers conditionsByHost)
    (correlations : List Correlation) :
    Sound localeLe conditionsByHost
        (issues format localeLe servers conditionsByHost correlations)
      ↔ ∀ key, ShowsCritical conditionsByHost key := by
  have hwell := hcovers.wellFormed
  have hpass := @storagePass_sharedStorageIssues conditionsByHost format localeLe hwell _
    (pathPass_sharedPathIssues hwell correlations)
  unfold issues
  dsimp only
  generalize sharedStorageIssues format localeLe conditionsByHost
    (sharedPathIssues conditionsByHost correlations) = state at hpass ⊢
  generalize hown : servers.filterMap (serverIssue conditionsByHost state.2) = own
  have hsorted := List.mergeSort_perm (state.1 ++ own) (listedBefore localeLe)
  have hmem : ∀ issue, issue ∈ (state.1 ++ own).mergeSort (listedBefore localeLe)
      ↔ issue ∈ state.1 ∨ issue ∈ own := by
    intro issue
    rw [hsorted.mem_iff, List.mem_append]
  -- The three passes take every condition once.
  have hpartition : (((state.1 ++ own).mergeSort (listedBefore localeLe)).flatMap
      (·.explains)).Perm (occurrencesOf conditionsByHost) := by
    refine (hsorted.flatMap_right _).trans ?_
    rw [List.flatMap_def, List.map_append]
    refine hpass.taken.rest hwell.nodup_occurrencesOf ?_ ?_
    · rw [← hown]
      exact nodup_serverIssues hwell state.2 hcovers.hosts
    · rw [← hown]
      exact mem_serverIssues hcovers.covered state.2
  have hordered : ((state.1 ++ own).mergeSort (listedBefore localeLe)).Pairwise
      (InOrder localeLe) := by
    have hpairs := @List.pairwise_mergeSort _ (listedBefore localeLe)
      (fun a b c hab hbc => listedBefore_iff.mpr
        (horder.inOrder_trans (listedBefore_iff.mp hab) (listedBefore_iff.mp hbc)))
      (fun a b => by
        rw [Bool.or_eq_true, listedBefore_iff, listedBefore_iff]
        exact horder.inOrder_total a b) (state.1 ++ own)
    exact hpairs.imp listedBefore_iff.mp
  constructor
  · intro hsound key htwo hreported
    obtain ⟨host, condition, hin, hcond⟩ := hreported
    have hkey : key ∈ (sharedGroups (occurrencesOf conditionsByHost)).keys := by
      rw [mem_keys_sharedGroups]
      exact List.ne_nil_of_mem (mem_sharedBy_of_sharing hin)
    obtain ⟨issue, hissue, hstorage⟩ := hpass.listed key hkey htwo
    have hrated := hsound.rated issue ((hmem issue).mpr (.inl hissue))
    exact (hstorage.rated_iff hwell).mp hrated htwo ⟨host, condition, hin, hcond⟩
  · intro hshows
    refine ⟨hpartition, hpartition.nodup_iff.mpr hwell.nodup_occurrencesOf, ?_, hordered⟩
    intro issue hissue
    rcases (hmem issue).mp hissue with hshared | hhost
    · rcases hpass.issues issue hshared with hpath | ⟨key, -, hstorage⟩
      · refine hpath.rated hwell fun x hx => hpass.taken.subset x ?_
        exact List.mem_flatten.mpr ⟨issue.explains, List.mem_map_of_mem hshared, hx⟩
      · exact (hstorage.rated_iff hwell).mpr (hshows key)
    · rw [← hown] at hhost
      obtain ⟨server, -, hserver⟩ := List.mem_filterMap.mp hhost
      rcases issueFromConditions_cases server (remaining conditionsByHost state.2 server) with
        ⟨-, hnone⟩ | ⟨other, hsome, hissue'⟩
      · rw [show serverIssue conditionsByHost state.2 server = none from hnone] at hserver
        cases hserver
      · rw [show serverIssue conditionsByHost state.2 server = some other from hsome] at hserver
        exact Option.some.inj hserver ▸ hissue'.rated

end

/-! ### A critical condition behind a hotter warning -/

/-- A mount of one export, as the feed shows it. -/
private def mountOfExport (host mount : String) (severity : IncidentSeverity) (value : ℚ) :
    FeedEntry where
  fields :=
    { host := host, conditionKey := "disk:nas:/home:" ++ mount, category := "disk"
      resource := mount, severity := severity, value := some value, threshold := some 85
      observedAt := "2026-01-01T00:00:00+00:00", detail := none
      groupKey := some "nfs4|nas:/home", belowThreshold := false }
  firstObservedAt := "2026-01-01T00:00:00+00:00"
  lastObservedAt := "2026-01-01T00:00:00+00:00"
  decoration := decoration none none

/-- Two hosts that share the export. -/
private def mountingServers : List Server := [⟨"gpu-1", "online"⟩, ⟨"gpu-2", "online"⟩]

/-- The first host has two mounts of the export. The older condition is still critical at the
lower usage. -/
private def hiddenMount (host : String) : List FeedEntry :=
  if host = "gpu-1" then
    [mountOfExport host "/home" .critical 94, mountOfExport host "/data" .warning 95]
  else [mountOfExport host "/home" .warning 90]

/-- The critical condition is the hottest. -/
private def hottestMount (host : String) : List FeedEntry :=
  if host = "gpu-1" then
    [mountOfExport host "/home" .critical 97, mountOfExport host "/data" .warning 95]
  else [mountOfExport host "/home" .warning 90]

private theorem localeOrder_le : LocaleOrder fun a b => decide (a ≤ b) where
  trans := by
    intro a b c hab hbc
    rw [decide_eq_true_eq] at hab hbc ⊢
    exact hab.trans hbc
  total := by
    intro a b
    rw [decide_eq_true_eq, decide_eq_true_eq]
    exact le_total a b

/-- The shared storage stands for a critical condition and is shown as a warning. -/
theorem hidden_critical_is_warning :
    Covers (·.fields.conditionKey) mountingServers
        (conditionsOfServers (·.fields.conditionKey) mountingServers hiddenMount)
      ∧ ¬ Sound (fun a b => decide (a ≤ b))
        (conditionsOfServers (·.fields.conditionKey) mountingServers hiddenMount)
        (issues (fun _ => "") (fun a b => decide (a ≤ b)) mountingServers
          (conditionsOfServers (·.fields.conditionKey) mountingServers hiddenMount) []) := by
  constructor
  · refine covers_conditionsOfServers _ (by decide) (by decide) fun server hserver => ?_
    rcases List.mem_cons.mp hserver with rfl | hin
    · exact ⟨by decide, by decide⟩
    · rw [List.mem_singleton.mp hin]
      exact ⟨by decide, by decide⟩
  · intro hsound
    have hshown : ∃ issue ∈ issues (fun _ => "") (fun a b => decide (a ≤ b)) mountingServers
        (conditionsOfServers (·.fields.conditionKey) mountingServers hiddenMount) [],
        issue.severity = .warning ∧ ∃ x ∈ issue.explains, x.2.severity = .critical := by
      decide +kernel
    obtain ⟨issue, hissue, hwarning, hcritical⟩ := hshown
    rw [(hsound.rated issue hissue).severity.mpr hcritical] at hwarning
    cases hwarning

/-- Nothing is hidden when the critical condition is the hottest. -/
theorem issues_sound_iff_hottest :
    Sound (fun a b => decide (a ≤ b))
      (conditionsOfServers (·.fields.conditionKey) mountingServers hottestMount)
      (issues (fun _ => "") (fun a b => decide (a ≤ b)) mountingServers
        (conditionsOfServers (·.fields.conditionKey) mountingServers hottestMount) []) := by
  have hcovers : Covers (·.fields.conditionKey) mountingServers
      (conditionsOfServers (·.fields.conditionKey) mountingServers hottestMount) := by
    refine covers_conditionsOfServers _ (by decide) (by decide) fun server hserver => ?_
    rcases List.mem_cons.mp hserver with rfl | hin
    · exact ⟨by decide, by decide⟩
    · rw [List.mem_singleton.mp hin]
      exact ⟨by decide, by decide⟩
  refine (issues_sound_iff (·.fields.conditionKey) _ localeOrder_le mountingServers _ hcovers
    []).mpr fun key _ hreported => ?_
  have hall : ∀ x ∈ occurrencesOf
      (conditionsOfServers (·.fields.conditionKey) mountingServers hottestMount),
      x.2.sharedKey = some "nfs4|nas:/home" := by decide +kernel
  obtain ⟨host, condition, hmem, -⟩ := hreported
  obtain ⟨hin, hshared⟩ := mem_sharedBy.mp (mem_sharedBy_of_sharing hmem)
  obtain rfl := Option.some.inj ((hall _ hin).symm.trans hshared)
  have hhottest : (hottestOf (sharing (conditionsOf
      (conditionsOfServers (·.fields.conditionKey) mountingServers hottestMount) "gpu-1")
      "nfs4|nas:/home")).map (·.severity) = some .critical := by decide +kernel
  exact ⟨"gpu-1", Option.map_eq_some_iff.mp hhottest⟩

end Mocop.AttentionPanel
