import Mocop.Inventory.Document
import Mocop.Lib.Links
import Mocop.Lib.Returns

/-!
# `Mocop.Inventory.Loader`: which documents the loader accepts

`loadConfig` checks the sections of a document in turn and reports the first problem. The
checks of values and settings that name no host (`ValueRules`) are a parameter. A host is recognised
when it may carry an entry: an explicit host that is not excluded, or, in the host groups of
a document with automatic discovery, any safe alias that is not excluded.

`loadConfig_accepts` collects what an accepted document satisfies.
-/

set_option autoImplicit false

namespace Mocop

open TopologyLink (source target)

/-- The message of a rejected document. -/
abbrev ConfigError := String

/-- The checks of the values that name no host. `isOther` is the Unicode category `C`. -/
structure ValueRules (V : Type) where
  isOther : Char → Bool
  timestamp : String → Bool
  hostOverride : Dict String V → String → V → Except ConfigError Unit
  maintenanceWindow : String → V → Except ConfigError Unit
  scopeOverride : String → V → Except ConfigError Unit
  settings : Dict String V → Except ConfigError Unit

/-- Rules that accept every value. -/
def ValueRules.lax : ValueRules Unit where
  isOther := fun _ => false
  timestamp := fun _ => true
  hostOverride := fun _ _ _ => .ok ()
  maintenanceWindow := fun _ _ => .ok ()
  scopeOverride := fun _ _ => .ok ()
  settings := fun _ => .ok ()

/-- `CONFIG_MAX_BYTES` -/
def configMaxBytes : ℕ := 1048576

/-- `CONFIG_MAX_HOST_ALIASES` -/
def configMaxHostAliases : ℕ := 1024

/-- `HOST_GROUP_MAX_LENGTH` -/
def hostGroupMaxLength : ℕ := 48

/-- `TOPOLOGY_MAX_LINKS` -/
def topologyMaxLinks : ℕ := 512

/-- `TOPOLOGY_LABEL_MAX_LENGTH` -/
def topologyLabelMaxLength : ℕ := 64

/-- `TOPOLOGY_TRANSPORTS` -/
def topologyTransports : List String := ["ssh", "frp-stcp", "frp-xtcp", "vpn"]

/-- `INCIDENT_ACTION_MAX_ENTRIES` -/
def incidentActionMaxEntries : ℕ := 512

/-- `INCIDENT_ACTION_KEY_MAX_LENGTH` -/
def incidentActionKeyMaxLength : ℕ := 512

/-- `INCIDENT_ACTION_REASON_MAX_LENGTH` -/
def incidentActionReasonMaxLength : ℕ := 120

/-- Raises the message unless the check holds. -/
def require (check : Bool) (message : ConfigError) : Except ConfigError Unit :=
  if check then .ok () else .error message

@[simp] theorem require_eq_ok {check : Bool} {message : ConfigError} {u : Unit} :
    require check message = .ok u ↔ check = true := by
  cases check <;> simp [require]

section Loader

variable {V : Type} (rules : ValueRules V)

/-! ### Host lists -/

/-- The trimmed texts of a list field, each once. -/
def stringList (key : String) (values : List String) : Except ConfigError (List String) := do
  require (values.all fun item => pyStrip item ≠ "")
    (key ++ " must be a list of non-empty strings")
  return (values.map pyStrip).eraseDups

/-- The hosts and the excluded hosts. -/
def hostLists (doc : ConfigDocument V) : Except ConfigError (List String × List String) := do
  let hosts ← stringList "hosts" doc.hosts
  let excludes ← stringList "exclude_hosts" doc.excludeHosts
  require (hosts.length ≤ configMaxHostAliases)
    ("hosts must contain at most " ++ toString configMaxHostAliases ++ " unique aliases")
  require (excludes.length ≤ configMaxHostAliases)
    ("exclude_hosts must contain at most " ++ toString configMaxHostAliases
      ++ " unique aliases")
  let invalid := ((hosts ++ excludes).filter fun name => !isSafeAlias name).mergeSort (· ≤ ·)
  require invalid.isEmpty
    ("host aliases must contain only letters, numbers, dots, underscores, and hyphens: "
      ++ String.intercalate ", " invalid)
  return (hosts, excludes)

/-- The local host. -/
def localHost (doc : ConfigDocument V) (hosts excludes : List String) :
    Except ConfigError (Option String) :=
  match doc.localHost with
  | none => .ok none
  | some value => do
    require (isSafeAlias (pyStrip value)) "local_host must be null or a safe host alias"
    require (hosts.contains (pyStrip value))
      "local_host must also appear in the explicit hosts list"
    require (!excludes.contains (pyStrip value)) "local_host cannot be excluded"
    return some (pyStrip value)

/-- One key of a section of hosts: a safe, active alias, explicit where that is required. -/
def explicitAlias (section_ name : String) (hosts excludes : List String)
    (requireExplicit : Bool) : Except ConfigError Unit := do
  require (isSafeAlias name) (section_ ++ " keys must be safe host aliases")
  require (!requireExplicit || hosts.contains name)
    (section_ ++ "." ++ name ++ " must reference an explicit host")
  require (!excludes.contains name) (section_ ++ "." ++ name ++ " cannot be excluded")

/-! ### Topology -/

/-- One link: its endpoints, its transport and its label. -/
def checkLink (root : String) (targets : List String) (entry : TopologyLink × ℕ) :
    Except ConfigError TopologyLink := do
  let (link, index) := entry
  let label := "topology.links[" ++ toString index ++ "]"
  require (isSafeAlias link.source && isSafeAlias link.target)
    (label ++ " endpoints must be safe host aliases")
  require (link.source ≠ link.target) (label ++ " cannot link a host to itself")
  require (link.target ≠ root) "topology.root cannot have an incoming link"
  require (!targets.contains link.target)
    ("topology target " ++ link.target ++ " has more than one parent")
  require (topologyTransports.contains link.transport) (label ++ ".transport is not supported")
  require (link.label.all fun text => pyStrip text ≠ ""
      && (pyStrip text).length ≤ topologyLabelMaxLength && !text.toList.any rules.isOther)
    (label ++ ".label must contain at most " ++ toString topologyLabelMaxLength
      ++ " visible characters")
  return { link with label := link.label.map pyStrip }

/-- Adds one checked link. -/
def addLink (root : String) (links : List TopologyLink) (entry : TopologyLink × ℕ) :
    Except ConfigError (List TopologyLink) := do
  let link ← checkLink rules root (links.map (·.target)) entry
  return links ++ [link]

/-- The topology: one tree of links under its root. -/
def connectionTopology (raw : TopologyDocument) : Except ConfigError TopologyDocument := do
  require (isSafeAlias raw.root) "topology.root must be a safe host alias"
  require (raw.links.length ≤ topologyMaxLinks)
    ("topology.links must contain at most " ++ toString topologyMaxLinks ++ " links")
  let links ← raw.links.zipIdx.foldlM (addLink rules raw.root) []
  let reachable := reachFrom source target links (links.length + 1)
    [raw.root] [raw.root]
  require (links.all fun link => reachable.contains link.source && reachable.contains link.target)
    "topology links must form one tree reachable from root"
  return { root := raw.root, links := links }

/-! ### Sections of hosts -/

/-- The expected device counts. -/
def expectedGpuCounts (doc : ConfigDocument V) (hosts excludes : List String) :
    Except ConfigError (List (String × ℤ)) :=
  doc.expectedGpuCounts.entries.mapM fun entry => do
    explicitAlias "expected_gpu_counts" entry.1 hosts excludes true
    require (0 ≤ entry.2 && entry.2 ≤ 256)
      ("expected_gpu_counts." ++ entry.1 ++ " must be between 0 and 256")
    return entry

/-- The overrides of the collection settings. -/
def hostOverrides (doc : ConfigDocument V) (hosts excludes : List String) :
    Except ConfigError (List (String × V)) :=
  doc.hostOverrides.entries.mapM fun entry => do
    explicitAlias "host_overrides" entry.1 hosts excludes true
    rules.hostOverride doc.rest entry.1 entry.2
    return entry

/-- The maintenance windows. -/
def maintenanceWindows (doc : ConfigDocument V) (hosts excludes : List String) :
    Except ConfigError (List (String × V)) :=
  doc.maintenanceWindows.entries.mapM fun entry => do
    explicitAlias "maintenance_windows" entry.1 hosts excludes true
    rules.maintenanceWindow entry.1 entry.2
    return entry

/-- Whether a text is a host group. -/
def isValidHostGroup (value : String) (required : Bool) : Bool :=
  (pyStrip value ≠ "" || !required) && (pyStrip value).length ≤ hostGroupMaxLength
    && !value.toList.any rules.isOther

/-- The host groups. A discovered host may carry one before it is listed. -/
def hostGroups (doc : ConfigDocument V) (hosts excludes : List String) :
    Except ConfigError (List (String × String)) :=
  doc.hostGroups.entries.mapM fun entry => do
    explicitAlias "host_groups" entry.1 hosts excludes (!doc.autoDiscover)
    require (isValidHostGroup rules entry.2 true)
      ("host_groups." ++ entry.1 ++ " must be at most " ++ toString hostGroupMaxLength
        ++ " visible characters")
    return (entry.1, pyStrip entry.2)

/-- The incident overrides of hosts. -/
def hostIncidentOverrides (doc : ConfigDocument V) (hosts excludes : List String) :
    Except ConfigError (List (String × V)) := do
  require (doc.incidentOverrides.hosts.entries.length ≤ 256)
    "incident_overrides.hosts must be a bounded JSON object"
  doc.incidentOverrides.hosts.entries.mapM fun entry => do
    require (isSafeAlias entry.1) "incident_overrides.hosts keys must be safe aliases"
    require (hosts.contains entry.1 && !excludes.contains entry.1)
      ("incident_overrides.hosts." ++ entry.1 ++ " must reference an active host")
    rules.scopeOverride ("incident_overrides.hosts." ++ entry.1) entry.2
    return entry

/-- The incident overrides of groups. -/
def groupIncidentOverrides (doc : ConfigDocument V) (groups : List (String × String)) :
    Except ConfigError (List (String × V)) := do
  require (doc.incidentOverrides.groups.entries.length ≤ 256)
    "incident_overrides.groups must be a bounded JSON object"
  doc.incidentOverrides.groups.entries.mapM fun entry => do
    require (isValidHostGroup rules entry.1 true && (groups.map (·.2)).contains entry.1)
      ("incident_overrides.groups." ++ entry.1 ++ " must reference a configured group")
    rules.scopeOverride ("incident_overrides.groups." ++ entry.1) entry.2
    return (pyStrip entry.1, entry.2)

/-- Adds one checked incident action. -/
def addAction (hosts excludes : List String) (actions : List IncidentActionDocument)
    (entry : IncidentActionDocument × ℕ) : Except ConfigError (List IncidentActionDocument) := do
  let (action, index) := entry
  let label := "incident_actions[" ++ toString index ++ "]"
  require (isSafeAlias action.host) (label ++ ".host must be a safe host alias")
  require (hosts.contains action.host && !excludes.contains action.host)
    (label ++ ".host must reference an active explicit host")
  require (action.conditionKey ≠ "" && action.conditionKey.length ≤ incidentActionKeyMaxLength
      && !action.conditionKey.toList.any rules.isOther) (label ++ ".condition_key is invalid")
  require (["acknowledged", "silenced"].contains action.action)
    (label ++ ".action must be acknowledged or silenced")
  require ((pyStrip action.reason).length ≤ incidentActionReasonMaxLength
      && !action.reason.toList.any rules.isOther)
    (label ++ ".reason must contain at most " ++ toString incidentActionReasonMaxLength
      ++ " visible characters")
  require (rules.timestamp action.until_) (label ++ ".until must be a UTC timestamp")
  require (action.incidentStartedAt.all rules.timestamp)
    (label ++ ".incident_started_at must be a UTC timestamp")
  require (!(actions.map fun known => (known.host, known.conditionKey)).contains
    (action.host, action.conditionKey)) (label ++ " duplicates an incident action")
  return actions ++ [{ action with reason := pyStrip action.reason }]

/-- The incident actions. -/
def incidentActions (doc : ConfigDocument V) (hosts excludes : List String) :
    Except ConfigError (List IncidentActionDocument) := do
  require (doc.incidentActions.length ≤ incidentActionMaxEntries)
    ("incident_actions must be a list with at most " ++ toString incidentActionMaxEntries
      ++ " entries")
  doc.incidentActions.zipIdx.foldlM (addAction rules hosts excludes) []

/-! ### The loader -/

/-- Loads a document. -/
def loadConfig (doc : ConfigDocument V) : Except ConfigError (MonitorConfig V) := do
  let (hosts, excludes) ← hostLists doc
  let localHost ← localHost doc hosts excludes
  let topology ← doc.topology.mapM (connectionTopology rules)
  rules.settings doc.rest
  let expected ← expectedGpuCounts doc hosts excludes
  let overrides ← hostOverrides rules doc hosts excludes
  let windows ← maintenanceWindows rules doc hosts excludes
  let groups ← hostGroups rules doc hosts excludes
  let hostIncidents ← hostIncidentOverrides rules doc hosts excludes
  let groupIncidents ← groupIncidentOverrides rules doc groups
  let actions ← incidentActions rules doc hosts excludes
  return {
    autoDiscover := doc.autoDiscover
    hosts := hosts
    excludeHosts := excludes
    localHost := localHost
    topology := topology
    expectedGpuCounts := expected
    hostOverrides := overrides
    maintenanceWindows := windows
    hostGroups := groups
    hostIncidentOverrides := hostIncidents
    groupIncidentOverrides := groupIncidents
    incidentActions := actions }

end Loader

/-! ### What acceptance says -/

section Accepts

variable {V : Type} {rules : ValueRules V} {doc : ConfigDocument V}

/-- The facts about an accepted document that the inventory relies on. -/
structure Accepts (doc : ConfigDocument V) (config : MonitorConfig V) : Prop where
  hosts_eq : config.hosts = (doc.hosts.map pyStrip).eraseDups
  excludes_eq : config.excludeHosts = (doc.excludeHosts.map pyStrip).eraseDups
  hosts_safe : ∀ a ∈ config.hosts, isSafeAlias a = true
  links : ∀ topology, doc.topology = some topology → ∀ link ∈ topology.links,
    Reaches source target topology.links topology.root link.source
  groups : ∀ a group, doc.hostGroups.get? a = some group →
    isSafeAlias a = true ∧ a ∉ config.excludeHosts
  overrides : ∀ a value, doc.incidentOverrides.hosts.get? a = some value →
    a ∈ config.hosts ∧ a ∉ config.excludeHosts

/-- The trimmed texts of an accepted list. -/
theorem stringList_eq {key : String} {values result : List String}
    (h : stringList key values = .ok result) : result = (values.map pyStrip).eraseDups := by
  obtain ⟨_, _, h⟩ := bind_eq_ok.mp h
  cases h
  rfl

/-- The host lists of an accepted document. -/
theorem hostLists_eq {hosts excludes : List String} (h : hostLists doc = .ok (hosts, excludes)) :
    hosts = (doc.hosts.map pyStrip).eraseDups ∧ excludes = (doc.excludeHosts.map pyStrip).eraseDups
      ∧ ∀ a ∈ hosts, isSafeAlias a = true := by
  obtain ⟨_, hhosts, h⟩ := bind_eq_ok.mp h
  obtain ⟨_, hexcludes, h⟩ := bind_eq_ok.mp h
  obtain ⟨_, _, h⟩ := bind_eq_ok.mp h
  obtain ⟨_, _, h⟩ := bind_eq_ok.mp h
  obtain ⟨_, hinvalid, h⟩ := bind_eq_ok.mp h
  cases h
  refine ⟨stringList_eq hhosts, stringList_eq hexcludes, fun a ha => ?_⟩
  rw [require_eq_ok, List.isEmpty_iff] at hinvalid
  by_contra hnotSafe
  have hmem : a ∈ ((hosts ++ excludes).filter fun name => !isSafeAlias name).mergeSort (· ≤ ·) :=
    List.mem_mergeSort.mpr (List.mem_filter.mpr ⟨List.mem_append_left _ ha, by simp [hnotSafe]⟩)
  rw [hinvalid] at hmem
  cases hmem

/-- An accepted key of a section of hosts. -/
theorem explicitAlias_eq_ok {section_ a : String} {hosts excludes : List String}
    {requireExplicit : Bool} (h : explicitAlias section_ a hosts excludes requireExplicit = .ok ()) :
    isSafeAlias a = true ∧ a ∉ excludes := by
  obtain ⟨_, hsafe, h⟩ := bind_eq_ok.mp h
  obtain ⟨_, _, h⟩ := bind_eq_ok.mp h
  rw [require_eq_ok] at hsafe h
  exact ⟨hsafe, by simpa using h⟩

/-- The loaded links have the endpoints of the listed ones. -/
theorem ends_addLink {root : String} {listed : List (TopologyLink × ℕ)}
    {links result : List TopologyLink} (h : listed.foldlM (addLink rules root) links = .ok result) :
    result.map (fun link => (link.source, link.target))
      = links.map (fun link => (link.source, link.target))
        ++ listed.map (fun entry => (entry.1.source, entry.1.target)) := by
  induction listed generalizing links with
  | nil =>
    cases h
    rw [List.map_nil, List.append_nil]
  | cons entry rest ih =>
    rw [List.foldlM_cons] at h
    obtain ⟨next, hnext, h⟩ := bind_eq_ok.mp h
    obtain ⟨link, hlink, hnext⟩ := bind_eq_ok.mp hnext
    cases hnext
    -- Checking a link changes nothing but its label.
    have hends : (link.source, link.target) = (entry.1.source, entry.1.target) := by
      unfold checkLink at hlink
      dsimp only at hlink
      iterate 6 obtain ⟨_, _, hlink⟩ := bind_eq_ok.mp hlink
      cases hlink
      rfl
    rw [ih h, List.map_append, List.append_assoc, List.map_cons, List.map_nil, List.map_cons,
      hends]
    rfl

/-- In an accepted topology every link starts at a node that the root reaches. -/
theorem reaches_of_connectionTopology {raw topology : TopologyDocument}
    (h : connectionTopology rules raw = .ok topology) {link : TopologyLink}
    (hlink : link ∈ raw.links) :
    Reaches source target raw.links raw.root link.source := by
  obtain ⟨_, _, h⟩ := bind_eq_ok.mp h
  obtain ⟨_, _, h⟩ := bind_eq_ok.mp h
  obtain ⟨links, hlinks, h⟩ := bind_eq_ok.mp h
  obtain ⟨_, htree, h⟩ := bind_eq_ok.mp h
  have hends := ends_addLink hlinks
  have hzip : (raw.links.zipIdx.map fun entry => (entry.1.source, entry.1.target))
      = raw.links.map fun link => (link.source, link.target) := by
    conv_rhs => rw [← List.zipIdx_map_fst 0 raw.links, List.map_map]
    rfl
  rw [hzip, List.map_nil, List.nil_append] at hends
  have hmem : (link.source, link.target) ∈ links.map fun link => (link.source, link.target) := by
    rw [hends]
    exact List.mem_map_of_mem hlink
  obtain ⟨loaded, hloaded, heq⟩ := List.mem_map.mp hmem
  rw [require_eq_ok, List.all_eq_true] at htree
  have hsource := htree loaded hloaded
  simp only [Bool.and_eq_true, List.contains_iff_mem] at hsource
  have hreach := @reaches_of_mem_reachFrom _ _ _ source target
    links raw.root _ _ _ _ (by simp [Relation.ReflTransGen.refl])
    (by simp [Relation.ReflTransGen.refl]) hsource.1
  rw [reaches_congr hends, (Prod.mk.injEq _ _ _ _).mp heq |>.1] at hreach
  exact hreach

/-- The facts about an accepted document. -/
theorem loadConfig_accepts {config : MonitorConfig V} (h : loadConfig rules doc = .ok config) :
    Accepts doc config := by
  obtain ⟨⟨hosts, excludes⟩, hlists, h⟩ := bind_eq_ok.mp h
  obtain ⟨local_, _, h⟩ := bind_eq_ok.mp h
  obtain ⟨topology, htopology, h⟩ := bind_eq_ok.mp h
  iterate 4 obtain ⟨_, _, h⟩ := bind_eq_ok.mp h
  obtain ⟨groups, hgroups, h⟩ := bind_eq_ok.mp h
  obtain ⟨overrides, hoverrides, h⟩ := bind_eq_ok.mp h
  iterate 2 obtain ⟨_, _, h⟩ := bind_eq_ok.mp h
  cases h
  obtain ⟨hhosts, hexcludes, hsafe⟩ := hostLists_eq hlists
  refine ⟨hhosts, hexcludes, hsafe, fun t ht link hlink => ?_, fun a group ha => ?_,
    fun a value ha => ?_⟩
  · rw [ht] at htopology
    obtain ⟨loaded, hloaded, _⟩ := bind_eq_ok.mp htopology
    exact reaches_of_connectionTopology hloaded hlink
  · have hentry := (Dict.get?_eq_some_iff _ _ _).mp ha
    obtain ⟨_, _, hchecked⟩ := exists_of_mapM hgroups hentry
    obtain ⟨_, halias, _⟩ := bind_eq_ok.mp hchecked
    exact explicitAlias_eq_ok halias
  · have hentry := (Dict.get?_eq_some_iff _ _ _).mp ha
    obtain ⟨_, _, hoverrides⟩ := bind_eq_ok.mp hoverrides
    obtain ⟨_, _, hchecked⟩ := exists_of_mapM hoverrides hentry
    obtain ⟨_, _, hchecked⟩ := bind_eq_ok.mp hchecked
    obtain ⟨_, hactive, _⟩ := bind_eq_ok.mp hchecked
    rw [require_eq_ok] at hactive
    simpa using hactive

end Accepts

end Mocop
