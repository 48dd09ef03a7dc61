import Mocop.Inventory.Loader

/-!
# `Mocop.Inventory.Acceptance`: the documents that load

`Loadable` says what a document must satisfy for the loader, section by section, without the
order in which the loader looks at the sections. `loadConfig_returns_iff` is the equivalence.
For the topology, `TreeDocument` says what a list of links must satisfy, and
`connectionTopology_eq_ok_iff` also gives the value: the links with trimmed labels.
-/

set_option autoImplicit false

namespace Mocop

section Acceptance

variable {V : Type} (rules : ValueRules V)

/-! ### Topology -/

/-- A visible label of at most the allowed length. -/
def LabelOk (text : String) : Prop :=
  pyStrip text ≠ "" ∧ (pyStrip text).length ≤ topologyLabelMaxLength
    ∧ ∀ c ∈ text.toList, rules.isOther c = false

/-- One link of a tree. -/
structure LinkOk (root : String) (link : TopologyLink) : Prop where
  source_safe : isSafeAlias link.source = true
  target_safe : isSafeAlias link.target = true
  no_self : link.source ≠ link.target
  no_root : link.target ≠ root
  transport : link.transport ∈ topologyTransports
  label : ∀ text, link.label = some text → LabelOk rules text

/-- A list of links that forms one tree under the root. -/
structure TreeDocument (raw : TopologyDocument) : Prop where
  root_safe : isSafeAlias raw.root = true
  bounded : raw.links.length ≤ topologyMaxLinks
  links_ok : ∀ link ∈ raw.links, LinkOk rules raw.root link
  one_parent : (raw.links.map (·.target)).Nodup
  reached : ∀ link ∈ raw.links,
    Reaches TopologyLink.source TopologyLink.target raw.links raw.root link.source

/-- The label as it is loaded. -/
def trimLabel (link : TopologyLink) : TopologyLink := { link with label := link.label.map pyStrip }

variable {rules}

/-- A link is checked against the targets seen so far. -/
theorem checkLink_eq_ok_iff {root : String} {targets : List String} {link checked : TopologyLink}
    {index : ℕ} :
    checkLink rules root targets (link, index) = .ok checked
      ↔ LinkOk rules root link ∧ link.target ∉ targets ∧ checked = trimLabel link := by
  unfold checkLink
  simp only [bind_eq_ok, require_eq_ok, Bool.and_eq_true, decide_eq_true_eq, Bool.not_eq_true',
    List.contains_eq_mem, decide_eq_false_iff_not, exists_const, Option.all_eq_true]
  constructor
  · rintro ⟨⟨hsource, htarget⟩, hself, hroot, hparent, htransport, hlabel, heq⟩
    cases heq
    refine ⟨⟨hsource, htarget, hself, hroot, htransport, fun text htext => ?_⟩, hparent, rfl⟩
    obtain ⟨⟨hblank, hlength⟩, hvisible⟩ := hlabel text htext
    exact ⟨hblank, hlength, by simpa using hvisible⟩
  · rintro ⟨⟨hsource, htarget, hself, hroot, htransport, hlabel⟩, hparent, rfl⟩
    refine ⟨⟨hsource, htarget⟩, hself, hroot, hparent, htransport, fun text htext => ?_, rfl⟩
    obtain ⟨hblank, hlength, hvisible⟩ := hlabel text htext
    exact ⟨⟨hblank, hlength⟩, by simpa using hvisible⟩

/-- Adding the links of a list, one after the other. -/
theorem foldlM_addLink_iff {root : String} {links result : List TopologyLink} :
    links.zipIdx.foldlM (addLink rules root) [] = .ok result
      ↔ (∀ link ∈ links, LinkOk rules root link) ∧ (links.map (·.target)).Nodup
        ∧ result = links.map trimLabel := by
  have hstep : ∀ (acc : List TopologyLink) (entry : TopologyLink × ℕ) (r : List TopologyLink),
      addLink rules root acc entry = .ok r
        ↔ LinkOk rules root entry.1 ∧ (trimLabel entry.1).target ∉ acc.map (·.target)
          ∧ r = acc ++ [trimLabel entry.1] := by
    rintro acc ⟨link, index⟩ r
    unfold addLink
    simp only [bind_eq_ok, checkLink_eq_ok_iff]
    constructor
    · rintro ⟨_, ⟨hok, hnew, rfl⟩, heq⟩
      cases heq
      exact ⟨hok, hnew, rfl⟩
    · rintro ⟨hok, hnew, rfl⟩
      exact ⟨_, ⟨hok, hnew, rfl⟩, rfl⟩
  rw [foldlM_distinct_iff hstep]
  have hfst : links.zipIdx.map Prod.fst = links := List.zipIdx_map_fst 0 links
  have hall : (∀ entry ∈ links.zipIdx, LinkOk rules root entry.1)
      ↔ ∀ link ∈ links, LinkOk rules root link := by
    conv_rhs => rw [← hfst]
    exact List.forall_mem_map.symm
  have htargets : (links.zipIdx.map fun entry => (trimLabel entry.1).target)
      = links.map (·.target) := by
    conv_rhs => rw [← hfst, List.map_map]
    rfl
  have hvalues : (links.zipIdx.map fun entry => trimLabel entry.1) = links.map trimLabel := by
    conv_rhs => rw [← hfst, List.map_map]
    rfl
  rw [hall, htargets, hvalues]
  simp

/-- The accepted topologies, and what they are loaded as. -/
theorem connectionTopology_eq_ok_iff {raw topology : TopologyDocument} :
    connectionTopology rules raw = .ok topology
      ↔ TreeDocument rules raw
        ∧ topology = { root := raw.root, links := raw.links.map trimLabel } := by
  have hends : (raw.links.map trimLabel).map (fun link => (link.source, link.target))
      = raw.links.map fun link => (link.source, link.target) := by
    rw [List.map_map]
    rfl
  have hreaches := @reaches_congr _ _ TopologyLink.source TopologyLink.target _ _ hends
  unfold connectionTopology
  simp only [bind_eq_ok, require_eq_ok, exists_const, foldlM_addLink_iff, decide_eq_true_eq]
  constructor
  · rintro ⟨hroot, hbounded, _, ⟨hok, hnodup, rfl⟩, htree, heq⟩
    cases heq
    refine ⟨⟨hroot, hbounded, hok, hnodup, fun link hlink => ?_⟩, rfl⟩
    rw [List.all_eq_true] at htree
    have hsource := htree _ (List.mem_map_of_mem hlink)
    simp only [Bool.and_eq_true, List.contains_iff_mem] at hsource
    rw [← hreaches]
    exact reaches_of_mem_reachFrom _ _ _ (by simp [Relation.ReflTransGen.refl])
      (by simp [Relation.ReflTransGen.refl]) hsource.1
  · rintro ⟨htree, rfl⟩
    refine ⟨htree.root_safe, htree.bounded, _, ⟨htree.links_ok, htree.one_parent, rfl⟩, ?_, rfl⟩
    rw [List.all_eq_true]
    intro link hlink
    obtain ⟨link, hraw, rfl⟩ := List.mem_map.mp hlink
    have hsource := htree.reached link hraw
    rw [← hreaches] at hsource
    simp only [Bool.and_eq_true, List.contains_iff_mem]
    exact ⟨mem_reachFrom_of_reaches _ _ hsource,
      mem_reachFrom_of_reaches _ _ (hsource.tail ⟨_, hlink, rfl, rfl⟩)⟩

/-! ### The sections -/

/-- The aliases that a list field spells. -/
def namesOf (values : List String) : List String := (values.map pyStrip).eraseDups

/-- A key of a section of hosts: a safe alias that is listed and not excluded. -/
structure KnownHost (doc : ConfigDocument V) (name : String) : Prop where
  safe : isSafeAlias name = true
  listed : name ∈ namesOf doc.hosts
  not_excluded : name ∉ namesOf doc.excludeHosts

/-- One incident action. -/
structure ActionOk (rules : ValueRules V) (doc : ConfigDocument V)
    (action : IncidentActionDocument) : Prop where
  host : KnownHost doc action.host
  conditionKey : action.conditionKey ≠ ""
    ∧ action.conditionKey.length ≤ incidentActionKeyMaxLength
    ∧ action.conditionKey.toList.any rules.isOther = false
  kind : action.action ∈ ["acknowledged", "silenced"]
  reason : (pyStrip action.reason).length ≤ incidentActionReasonMaxLength
    ∧ action.reason.toList.any rules.isOther = false
  until_ : rules.timestamp action.until_ = true
  started : action.incidentStartedAt.all rules.timestamp = true

/-- What the loader asks of a document. -/
structure Loadable (rules : ValueRules V) (doc : ConfigDocument V) : Prop where
  hosts_text : ∀ item ∈ doc.hosts, pyStrip item ≠ ""
  excludes_text : ∀ item ∈ doc.excludeHosts, pyStrip item ≠ ""
  hosts_bounded : (namesOf doc.hosts).length ≤ configMaxHostAliases
  excludes_bounded : (namesOf doc.excludeHosts).length ≤ configMaxHostAliases
  names_safe : ∀ name ∈ namesOf doc.hosts ++ namesOf doc.excludeHosts, isSafeAlias name = true
  localHost : ∀ value, doc.localHost = some value → KnownHost doc (pyStrip value)
  topology : ∀ raw, doc.topology = some raw → TreeDocument rules raw
  settings : Returns (rules.settings doc.rest)
  expected : ∀ entry ∈ doc.expectedGpuCounts.entries,
    KnownHost doc entry.1 ∧ 0 ≤ entry.2 ∧ entry.2 ≤ 256
  overrides : ∀ entry ∈ doc.hostOverrides.entries,
    KnownHost doc entry.1 ∧ Returns (rules.hostOverride doc.rest entry.1 entry.2)
  windows : ∀ entry ∈ doc.maintenanceWindows.entries,
    KnownHost doc entry.1 ∧ Returns (rules.maintenanceWindow entry.1 entry.2)
  groups : ∀ entry ∈ doc.hostGroups.entries, isSafeAlias entry.1 = true
    ∧ (doc.autoDiscover = false → entry.1 ∈ namesOf doc.hosts)
    ∧ entry.1 ∉ namesOf doc.excludeHosts ∧ isValidHostGroup rules entry.2 true = true
  hostIncidents_bounded : doc.incidentOverrides.hosts.entries.length ≤ 256
  hostIncidents : ∀ entry ∈ doc.incidentOverrides.hosts.entries, KnownHost doc entry.1
    ∧ Returns (rules.scopeOverride ("incident_overrides.hosts." ++ entry.1) entry.2)
  groupIncidents_bounded : doc.incidentOverrides.groups.entries.length ≤ 256
  groupIncidents : ∀ entry ∈ doc.incidentOverrides.groups.entries,
    isValidHostGroup rules entry.1 true = true
    ∧ entry.1 ∈ doc.hostGroups.entries.map (fun group => pyStrip group.2)
    ∧ Returns (rules.scopeOverride ("incident_overrides.groups." ++ entry.1) entry.2)
  actions_bounded : doc.incidentActions.length ≤ incidentActionMaxEntries
  actions : ∀ action ∈ doc.incidentActions, ActionOk rules doc action
  actions_distinct : (doc.incidentActions.map fun action =>
    (action.host, action.conditionKey)).Nodup

variable {doc : ConfigDocument V}

/-- A trimmed list field. -/
theorem stringList_eq_ok_iff {key : String} {values result : List String} :
    stringList key values = .ok result
      ↔ (∀ item ∈ values, pyStrip item ≠ "") ∧ result = namesOf values := by
  unfold stringList namesOf
  simp only [bind_eq_ok, require_eq_ok, exists_const, List.all_eq_true, decide_eq_true_eq]
  exact and_congr Iff.rfl ⟨fun h => by cases h; rfl, fun h => by rw [h]; rfl⟩

/-- The host lists. -/
theorem hostLists_eq_ok_iff {hosts excludes : List String} :
    hostLists doc = .ok (hosts, excludes)
      ↔ (∀ item ∈ doc.hosts, pyStrip item ≠ "") ∧ (∀ item ∈ doc.excludeHosts, pyStrip item ≠ "")
        ∧ (namesOf doc.hosts).length ≤ configMaxHostAliases
        ∧ (namesOf doc.excludeHosts).length ≤ configMaxHostAliases
        ∧ (∀ name ∈ namesOf doc.hosts ++ namesOf doc.excludeHosts, isSafeAlias name = true)
        ∧ hosts = namesOf doc.hosts ∧ excludes = namesOf doc.excludeHosts := by
  have hinvalid : ∀ names : List String,
      ((names.filter fun name => !isSafeAlias name).mergeSort (· ≤ ·)).isEmpty = true
        ↔ ∀ name ∈ names, isSafeAlias name = true := by
    intro names
    rw [List.isEmpty_iff, ← List.length_eq_zero_iff, List.length_mergeSort,
      List.length_eq_zero_iff, List.filter_eq_nil_iff]
    simp
  unfold hostLists
  simp only [bind_eq_ok, stringList_eq_ok_iff, require_eq_ok, exists_const, decide_eq_true_eq,
    hinvalid]
  constructor
  · rintro ⟨_, ⟨hhosts, rfl⟩, _, ⟨hexcludes, rfl⟩, hbounded, hbounded', hsafe, heq⟩
    cases heq
    exact ⟨hhosts, hexcludes, hbounded, hbounded', hsafe, rfl, rfl⟩
  · rintro ⟨hhosts, hexcludes, hbounded, hbounded', hsafe, rfl, rfl⟩
    exact ⟨_, ⟨hhosts, rfl⟩, _, ⟨hexcludes, rfl⟩, hbounded, hbounded', hsafe, rfl⟩

/-- A key of a section. -/
theorem explicitAlias_eq_ok_iff {section_ name : String} {hosts excludes : List String}
    {requireExplicit : Bool} {u : Unit} :
    explicitAlias section_ name hosts excludes requireExplicit = .ok u
      ↔ isSafeAlias name = true ∧ (requireExplicit = true → name ∈ hosts) ∧ name ∉ excludes := by
  unfold explicitAlias
  simp only [bind_eq_ok, require_eq_ok, exists_const, Bool.or_eq_true, Bool.not_eq_true',
    List.contains_eq_mem, decide_eq_true_eq, decide_eq_false_iff_not]
  cases requireExplicit <;> simp

/-- The local host. -/
theorem returns_localHost_iff :
    Returns (localHost doc (namesOf doc.hosts) (namesOf doc.excludeHosts))
      ↔ ∀ value, doc.localHost = some value → KnownHost doc (pyStrip value) := by
  unfold localHost
  cases doc.localHost with
  | none => simp
  | some value =>
    simp only [returns_bind_iff, require_eq_ok, exists_const, List.contains_eq_mem,
      decide_eq_true_eq, Bool.not_eq_true', decide_eq_false_iff_not, returns_pure, and_true,
      Option.some.injEq, forall_eq']
    constructor
    · rintro ⟨hsafe, hlisted, hkept⟩
      exact ⟨hsafe, hlisted, hkept⟩
    · intro h
      exact ⟨h.safe, h.listed, h.not_excluded⟩

/-- A checked key that must be listed. -/
theorem explicitAlias_known {section_ name : String} {u : Unit} :
    explicitAlias section_ name (namesOf doc.hosts) (namesOf doc.excludeHosts) true = .ok u
      ↔ KnownHost doc name := by
  rw [explicitAlias_eq_ok_iff]
  constructor
  · rintro ⟨hsafe, hlisted, hkept⟩
    exact ⟨hsafe, hlisted rfl, hkept⟩
  · intro h
    exact ⟨h.safe, fun _ => h.listed, h.not_excluded⟩

/-- An action is checked against the actions seen so far. -/
theorem addAction_eq_ok_iff {actions result : List IncidentActionDocument}
    {entry : IncidentActionDocument × ℕ} :
    addAction rules (namesOf doc.hosts) (namesOf doc.excludeHosts) actions entry = .ok result
      ↔ ActionOk rules doc entry.1
        ∧ (entry.1.host, entry.1.conditionKey)
          ∉ actions.map (fun known => (known.host, known.conditionKey))
        ∧ result = actions ++ [{ entry.1 with reason := pyStrip entry.1.reason }] := by
  obtain ⟨action, index⟩ := entry
  unfold addAction
  simp only [bind_eq_ok, require_eq_ok, exists_const, Bool.and_eq_true, List.contains_eq_mem,
    decide_eq_true_eq, Bool.not_eq_true', decide_eq_false_iff_not]
  constructor
  · rintro ⟨hsafe, ⟨hlisted, hkept⟩, ⟨⟨hkey, hlength⟩, hvisible⟩, hkind, ⟨hreason, hreason'⟩,
      huntil, hstarted, hnew, heq⟩
    cases heq
    exact ⟨⟨⟨hsafe, hlisted, hkept⟩, ⟨hkey, hlength, hvisible⟩, hkind, ⟨hreason, hreason'⟩,
      huntil, hstarted⟩, hnew, rfl⟩
  · rintro ⟨⟨⟨hsafe, hlisted, hkept⟩, ⟨hkey, hlength, hvisible⟩, hkind, ⟨hreason, hreason'⟩,
      huntil, hstarted⟩, hnew, rfl⟩
    exact ⟨hsafe, ⟨hlisted, hkept⟩, ⟨⟨hkey, hlength⟩, hvisible⟩, hkind, ⟨hreason, hreason'⟩,
      huntil, hstarted, hnew, rfl⟩

/-- The incident actions. -/
theorem returns_incidentActions_iff :
    Returns (incidentActions rules doc (namesOf doc.hosts) (namesOf doc.excludeHosts))
      ↔ doc.incidentActions.length ≤ incidentActionMaxEntries
        ∧ (∀ action ∈ doc.incidentActions, ActionOk rules doc action)
        ∧ (doc.incidentActions.map fun action => (action.host, action.conditionKey)).Nodup := by
  have hfold := fun result => @foldlM_distinct_iff _ _ _ _
    (addAction rules (namesOf doc.hosts) (namesOf doc.excludeHosts))
    (fun entry => ActionOk rules doc entry.1)
    (fun entry => { entry.1 with reason := pyStrip entry.1.reason })
    (fun action : IncidentActionDocument => (action.host, action.conditionKey))
    (fun _ _ _ => addAction_eq_ok_iff) doc.incidentActions.zipIdx [] result
  have hfst : doc.incidentActions.zipIdx.map Prod.fst = doc.incidentActions :=
    List.zipIdx_map_fst 0 _
  have hall : (∀ entry ∈ doc.incidentActions.zipIdx, ActionOk rules doc entry.1)
      ↔ ∀ action ∈ doc.incidentActions, ActionOk rules doc action := by
    conv_rhs => rw [← hfst]
    exact List.forall_mem_map.symm
  have hkeys : (doc.incidentActions.zipIdx.map fun entry => (entry.1.host, entry.1.conditionKey))
      = doc.incidentActions.map fun action => (action.host, action.conditionKey) := by
    conv_rhs => rw [← hfst, List.map_map]
    rfl
  unfold incidentActions
  simp only [returns_bind_iff, require_eq_ok, exists_const, decide_eq_true_eq]
  refine and_congr Iff.rfl ?_
  unfold Returns
  simp only [hfold, hall, hkeys]
  simp

/-- A section of listed hosts, each entry with a check of its own. -/
theorem returns_section_iff {α β : Type} {section_ : String} {entries : List (String × α)}
    {check : String × α → Except ConfigError β} :
    Returns (entries.mapM fun entry => do
        explicitAlias section_ entry.1 (namesOf doc.hosts) (namesOf doc.excludeHosts) true
        check entry)
      ↔ ∀ entry ∈ entries, KnownHost doc entry.1 ∧ Returns (check entry) := by
  rw [returns_mapM_iff]
  refine forall₂_congr fun entry _ => ?_
  simp only [returns_bind_iff, explicitAlias_known, exists_const]

/-- The topology section. -/
theorem returns_topology_iff :
    Returns (doc.topology.mapM (connectionTopology rules))
      ↔ ∀ raw, doc.topology = some raw → TreeDocument rules raw := by
  cases doc.topology with
  | none => simp
  | some raw =>
    show Returns (connectionTopology rules raw >>= fun topology => pure (some topology)) ↔ _
    rw [returns_bind_of_forall fun _ => returns_pure _]
    unfold Returns
    simp [connectionTopology_eq_ok_iff]

/-- The host groups, and what they are loaded as. -/
theorem hostGroups_eq_ok_iff {groups : List (String × String)} :
    hostGroups rules doc (namesOf doc.hosts) (namesOf doc.excludeHosts) = .ok groups
      ↔ (∀ entry ∈ doc.hostGroups.entries, isSafeAlias entry.1 = true
          ∧ (doc.autoDiscover = false → entry.1 ∈ namesOf doc.hosts)
          ∧ entry.1 ∉ namesOf doc.excludeHosts ∧ isValidHostGroup rules entry.2 true = true)
        ∧ groups = doc.hostGroups.entries.map fun entry => (entry.1, pyStrip entry.2) := by
  unfold hostGroups
  refine mapM_eq_ok_iff_of (fun entry result => ?_) _ _
  simp only [bind_eq_ok, explicitAlias_eq_ok_iff, require_eq_ok, exists_const,
    Bool.not_eq_true']
  constructor
  · rintro ⟨⟨hsafe, hlisted, hkept⟩, hvalid, heq⟩
    cases heq
    exact ⟨⟨hsafe, hlisted, hkept, hvalid⟩, rfl⟩
  · rintro ⟨⟨hsafe, hlisted, hkept, hvalid⟩, rfl⟩
    exact ⟨⟨hsafe, hlisted, hkept⟩, hvalid, rfl⟩

/-- The expected device counts. -/
theorem returns_expectedGpuCounts_iff :
    Returns (expectedGpuCounts doc (namesOf doc.hosts) (namesOf doc.excludeHosts))
      ↔ ∀ entry ∈ doc.expectedGpuCounts.entries,
        KnownHost doc entry.1 ∧ 0 ≤ entry.2 ∧ entry.2 ≤ 256 := by
  refine returns_section_iff.trans (forall₂_congr fun entry _ => and_congr Iff.rfl ?_)
  simp only [returns_bind_iff, require_eq_ok, exists_const, Bool.and_eq_true, decide_eq_true_eq,
    returns_pure, and_true]

/-- The overrides of the collection settings. -/
theorem returns_hostOverrides_iff :
    Returns (hostOverrides rules doc (namesOf doc.hosts) (namesOf doc.excludeHosts))
      ↔ ∀ entry ∈ doc.hostOverrides.entries,
        KnownHost doc entry.1 ∧ Returns (rules.hostOverride doc.rest entry.1 entry.2) := by
  refine returns_section_iff.trans (forall₂_congr fun entry _ => and_congr Iff.rfl ?_)
  exact returns_bind_of_forall fun _ => returns_pure _

/-- The maintenance windows. -/
theorem returns_maintenanceWindows_iff :
    Returns (maintenanceWindows rules doc (namesOf doc.hosts) (namesOf doc.excludeHosts))
      ↔ ∀ entry ∈ doc.maintenanceWindows.entries,
        KnownHost doc entry.1 ∧ Returns (rules.maintenanceWindow entry.1 entry.2) := by
  refine returns_section_iff.trans (forall₂_congr fun entry _ => and_congr Iff.rfl ?_)
  exact returns_bind_of_forall fun _ => returns_pure _

/-- The incident overrides of hosts. -/
theorem returns_hostIncidentOverrides_iff :
    Returns (hostIncidentOverrides rules doc (namesOf doc.hosts) (namesOf doc.excludeHosts))
      ↔ doc.incidentOverrides.hosts.entries.length ≤ 256
        ∧ ∀ entry ∈ doc.incidentOverrides.hosts.entries, KnownHost doc entry.1
          ∧ Returns (rules.scopeOverride ("incident_overrides.hosts." ++ entry.1) entry.2) := by
  unfold hostIncidentOverrides
  simp only [returns_bind_iff, require_eq_ok, exists_const, decide_eq_true_eq, returns_mapM_iff]
  refine and_congr Iff.rfl (forall₂_congr fun entry _ => ?_)
  simp only [Bool.and_eq_true, List.contains_eq_mem, decide_eq_true_eq, Bool.not_eq_true',
    decide_eq_false_iff_not]
  constructor
  · rintro ⟨hsafe, ⟨hlisted, hkept⟩, u, hvalue, _⟩
    exact ⟨⟨hsafe, hlisted, hkept⟩, u, hvalue⟩
  · rintro ⟨⟨hsafe, hlisted, hkept⟩, u, hvalue⟩
    exact ⟨hsafe, ⟨hlisted, hkept⟩, u, hvalue, returns_pure _⟩

/-- The incident overrides of groups. -/
theorem returns_groupIncidentOverrides_iff {groups : List (String × String)} :
    Returns (groupIncidentOverrides rules doc groups)
      ↔ doc.incidentOverrides.groups.entries.length ≤ 256
        ∧ ∀ entry ∈ doc.incidentOverrides.groups.entries,
          isValidHostGroup rules entry.1 true = true ∧ entry.1 ∈ groups.map (·.2)
          ∧ Returns (rules.scopeOverride ("incident_overrides.groups." ++ entry.1) entry.2) := by
  unfold groupIncidentOverrides
  simp only [returns_bind_iff, require_eq_ok, exists_const, decide_eq_true_eq, returns_mapM_iff]
  refine and_congr Iff.rfl (forall₂_congr fun entry _ => ?_)
  simp only [Bool.and_eq_true, List.contains_eq_mem, decide_eq_true_eq]
  constructor
  · rintro ⟨⟨hvalid, hassigned⟩, u, hvalue, _⟩
    exact ⟨hvalid, hassigned, u, hvalue⟩
  · rintro ⟨hvalid, hassigned, u, hvalue⟩
    exact ⟨⟨hvalid, hassigned⟩, u, hvalue, returns_pure _⟩

/-- The documents that load. -/
theorem loadConfig_returns_iff : Returns (loadConfig rules doc) ↔ Loadable rules doc := by
  have hgroups : (doc.hostGroups.entries.map fun entry => (entry.1, pyStrip entry.2)).map (·.2)
      = doc.hostGroups.entries.map fun group => pyStrip group.2 := by
    rw [List.map_map]
    rfl
  unfold loadConfig
  rw [returns_bind_iff]
  constructor
  · rintro ⟨⟨hosts, excludes⟩, hlists, h⟩
    obtain ⟨hhosts, hexcludes, hbounded, hbounded', hsafe, rfl, rfl⟩ :=
      hostLists_eq_ok_iff.mp hlists
    obtain ⟨_, hlocal, h⟩ := (returns_bind_iff _ _).mp h
    obtain ⟨_, htopology, h⟩ := (returns_bind_iff _ _).mp h
    obtain ⟨_, hsettings, h⟩ := (returns_bind_iff _ _).mp h
    obtain ⟨_, hexpected, h⟩ := (returns_bind_iff _ _).mp h
    obtain ⟨_, hoverrides, h⟩ := (returns_bind_iff _ _).mp h
    obtain ⟨_, hwindows, h⟩ := (returns_bind_iff _ _).mp h
    obtain ⟨groups, hassigned, h⟩ := (returns_bind_iff _ _).mp h
    obtain ⟨_, hhostIncidents, h⟩ := (returns_bind_iff _ _).mp h
    obtain ⟨_, hgroupIncidents, h⟩ := (returns_bind_iff _ _).mp h
    obtain ⟨_, hactions, _⟩ := (returns_bind_iff _ _).mp h
    obtain ⟨hgroupsOk, rfl⟩ := hostGroups_eq_ok_iff.mp hassigned
    obtain ⟨hhostBounded, hhostIncidents⟩ := returns_hostIncidentOverrides_iff.mp
      ⟨_, hhostIncidents⟩
    obtain ⟨hgroupBounded, hgroupIncidents⟩ := returns_groupIncidentOverrides_iff.mp
      ⟨_, hgroupIncidents⟩
    obtain ⟨hactionsBounded, hactionsOk, hdistinct⟩ := returns_incidentActions_iff.mp
      ⟨_, hactions⟩
    rw [hgroups] at hgroupIncidents
    exact {
      hosts_text := hhosts
      excludes_text := hexcludes
      hosts_bounded := hbounded
      excludes_bounded := hbounded'
      names_safe := hsafe
      localHost := returns_localHost_iff.mp ⟨_, hlocal⟩
      topology := returns_topology_iff.mp ⟨_, htopology⟩
      settings := ⟨_, hsettings⟩
      expected := returns_expectedGpuCounts_iff.mp ⟨_, hexpected⟩
      overrides := returns_hostOverrides_iff.mp ⟨_, hoverrides⟩
      windows := returns_maintenanceWindows_iff.mp ⟨_, hwindows⟩
      groups := hgroupsOk
      hostIncidents_bounded := hhostBounded
      hostIncidents := hhostIncidents
      groupIncidents_bounded := hgroupBounded
      groupIncidents := hgroupIncidents
      actions_bounded := hactionsBounded
      actions := hactionsOk
      actions_distinct := hdistinct }
  · intro h
    obtain ⟨_, hlocal⟩ := returns_localHost_iff.mpr h.localHost
    obtain ⟨_, htopology⟩ := returns_topology_iff.mpr h.topology
    obtain ⟨_, hsettings⟩ := h.settings
    obtain ⟨_, hexpected⟩ := returns_expectedGpuCounts_iff.mpr h.expected
    obtain ⟨_, hoverrides⟩ := returns_hostOverrides_iff.mpr h.overrides
    obtain ⟨_, hwindows⟩ := returns_maintenanceWindows_iff.mpr h.windows
    obtain ⟨_, hhostIncidents⟩ := returns_hostIncidentOverrides_iff.mpr
      ⟨h.hostIncidents_bounded, h.hostIncidents⟩
    obtain ⟨_, hgroupIncidents⟩ := returns_groupIncidentOverrides_iff.mpr
      ⟨h.groupIncidents_bounded, by rw [hgroups]; exact h.groupIncidents⟩
    obtain ⟨_, hactions⟩ := returns_incidentActions_iff.mpr
      ⟨h.actions_bounded, h.actions, h.actions_distinct⟩
    refine ⟨_, hostLists_eq_ok_iff.mpr ⟨h.hosts_text, h.excludes_text, h.hosts_bounded,
      h.excludes_bounded, h.names_safe, rfl, rfl⟩, ?_⟩
    have hassigned := hostGroups_eq_ok_iff.mpr ⟨h.groups, rfl⟩
    simp only [returns_bind_iff]
    exact ⟨_, hlocal, _, htopology, _, hsettings, _, hexpected, _, hoverrides, _, hwindows, _,
      hassigned, _, hhostIncidents, _, hgroupIncidents, _, hactions, returns_pure _⟩

end Acceptance

end Mocop
