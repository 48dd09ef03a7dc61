import Mocop.Inventory.Acceptance

/-!
# `Mocop.Inventory.Loaded`: what a document is loaded as

`ConfigDocument.loaded` is the configuration of a document that the loader accepts: names and
labels trimmed, every section in the order of the document. `loadConfig_eq_ok_iff` puts it
together with the acceptance (`Loadable`).
-/

set_option autoImplicit false

namespace Mocop

section Loaded

variable {V : Type} {rules : ValueRules V} {doc : ConfigDocument V}

/-- The action as it is loaded. -/
def trimReason (action : IncidentActionDocument) : IncidentActionDocument :=
  { action with reason := pyStrip action.reason }

/-- The topology as it is loaded. -/
def TopologyDocument.loaded (topology : TopologyDocument) : TopologyDocument :=
  { topology with links := topology.links.map trimLabel }

/-- The configuration of an accepted document. -/
def ConfigDocument.loaded (doc : ConfigDocument V) : MonitorConfig V where
  autoDiscover := doc.autoDiscover
  hosts := namesOf doc.hosts
  excludeHosts := namesOf doc.excludeHosts
  localHost := doc.localHost.map pyStrip
  topology := doc.topology.map TopologyDocument.loaded
  expectedGpuCounts := doc.expectedGpuCounts.entries
  hostOverrides := doc.hostOverrides.entries
  maintenanceWindows := doc.maintenanceWindows.entries
  hostGroups := doc.hostGroups.entries.map fun entry => (entry.1, pyStrip entry.2)
  hostIncidentOverrides := doc.incidentOverrides.hosts.entries
  groupIncidentOverrides :=
    doc.incidentOverrides.groups.entries.map fun entry => (pyStrip entry.1, entry.2)
  incidentActions := doc.incidentActions.map trimReason

/-- A mapped list whose steps, where they return, return a known value. -/
theorem mapM_eq_map {ε α β : Type*} {f : α → Except ε β} {value : α → β} {l : List α}
    {r : List β} (h : l.mapM f = .ok r) (hvalue : ∀ x a, f x = .ok a → a = value x) :
    r = l.map value := by
  have hall := mapM_eq_ok_iff.mp h
  clear h
  induction hall with
  | nil => rfl
  | cons hhead _ ih => rw [List.map_cons, hvalue _ _ hhead, ih]

/-- The local host of an accepted document. -/
theorem localHost_eq {hosts excludes : List String} {name : Option String}
    (h : localHost doc hosts excludes = .ok name) : name = doc.localHost.map pyStrip := by
  unfold localHost at h
  cases hvalue : doc.localHost with
  | none =>
    rw [hvalue] at h
    exact (Except.ok.inj h).symm
  | some value =>
    rw [hvalue] at h
    obtain ⟨_, _, h⟩ := bind_eq_ok.mp h
    obtain ⟨_, _, h⟩ := bind_eq_ok.mp h
    obtain ⟨_, _, h⟩ := bind_eq_ok.mp h
    exact (Except.ok.inj h).symm

/-- A section whose entries pass two checks is loaded as it is. -/
theorem section_eq {α : Type} {entries r : List (String × α)}
    {first second : String × α → Except ConfigError Unit}
    (h : (entries.mapM fun entry => do
      first entry
      second entry
      return entry) = .ok r) : r = entries := by
  refine (mapM_eq_map h fun entry loaded hentry => ?_).trans (List.map_id entries)
  obtain ⟨_, _, hentry⟩ := bind_eq_ok.mp hentry
  obtain ⟨_, _, hentry⟩ := bind_eq_ok.mp hentry
  exact (Except.ok.inj hentry).symm

/-- The topology of an accepted document. -/
theorem topology_eq {topology : Option TopologyDocument}
    (h : doc.topology.mapM (connectionTopology rules) = .ok topology) :
    topology = doc.topology.map TopologyDocument.loaded := by
  cases hraw : doc.topology with
  | none =>
    rw [hraw] at h
    exact (Except.ok.inj h).symm
  | some raw =>
    rw [hraw] at h
    obtain ⟨loaded, hloaded, h⟩ := bind_eq_ok.mp h
    obtain ⟨-, rfl⟩ := connectionTopology_eq_ok_iff.mp hloaded
    exact (Except.ok.inj h).symm

/-- The incident overrides of the hosts of an accepted document. -/
theorem hostIncidentOverrides_eq {hosts excludes : List String} {overrides : List (String × V)}
    (h : hostIncidentOverrides rules doc hosts excludes = .ok overrides) :
    overrides = doc.incidentOverrides.hosts.entries := by
  obtain ⟨_, _, h⟩ := bind_eq_ok.mp h
  refine (mapM_eq_map h fun entry loaded hentry => ?_).trans (List.map_id _)
  obtain ⟨_, _, hentry⟩ := bind_eq_ok.mp hentry
  obtain ⟨_, _, hentry⟩ := bind_eq_ok.mp hentry
  obtain ⟨_, _, hentry⟩ := bind_eq_ok.mp hentry
  exact (Except.ok.inj hentry).symm

/-- The incident overrides of the groups of an accepted document. -/
theorem groupIncidentOverrides_eq {groups : List (String × String)}
    {overrides : List (String × V)} (h : groupIncidentOverrides rules doc groups = .ok overrides) :
    overrides = doc.incidentOverrides.groups.entries.map fun entry =>
      (pyStrip entry.1, entry.2) := by
  obtain ⟨_, _, h⟩ := bind_eq_ok.mp h
  refine mapM_eq_map h fun entry loaded hentry => ?_
  obtain ⟨_, _, hentry⟩ := bind_eq_ok.mp hentry
  obtain ⟨_, _, hentry⟩ := bind_eq_ok.mp hentry
  exact (Except.ok.inj hentry).symm

/-- The incident actions of an accepted document. -/
theorem incidentActions_eq {actions : List IncidentActionDocument}
    (h : incidentActions rules doc (namesOf doc.hosts) (namesOf doc.excludeHosts) = .ok actions) :
    actions = doc.incidentActions.map trimReason := by
  obtain ⟨_, _, h⟩ := bind_eq_ok.mp h
  have hfold := (@foldlM_distinct_iff _ _ _ _
    (addAction rules (namesOf doc.hosts) (namesOf doc.excludeHosts))
    (fun entry => ActionOk rules doc entry.1) (fun entry => trimReason entry.1)
    (fun action : IncidentActionDocument => (action.host, action.conditionKey))
    (fun _ _ _ => addAction_eq_ok_iff) doc.incidentActions.zipIdx [] actions).mp h
  obtain ⟨-, -, -, rfl⟩ := hfold
  conv_rhs => rw [← List.zipIdx_map_fst 0 doc.incidentActions, List.map_map]
  rfl

/-- An accepted document is loaded as its configuration. -/
theorem loadConfig_eq {config : MonitorConfig V} (h : loadConfig rules doc = .ok config) :
    config = doc.loaded := by
  obtain ⟨⟨hosts, excludes⟩, hlists, h⟩ := bind_eq_ok.mp h
  obtain ⟨name, hname, h⟩ := bind_eq_ok.mp h
  obtain ⟨topology, htopology, h⟩ := bind_eq_ok.mp h
  obtain ⟨_, _, h⟩ := bind_eq_ok.mp h
  obtain ⟨expected, hexpected, h⟩ := bind_eq_ok.mp h
  obtain ⟨overrides, hoverrides, h⟩ := bind_eq_ok.mp h
  obtain ⟨windows, hwindows, h⟩ := bind_eq_ok.mp h
  obtain ⟨groups, hgroups, h⟩ := bind_eq_ok.mp h
  obtain ⟨hostIncidents, hhostIncidents, h⟩ := bind_eq_ok.mp h
  obtain ⟨groupIncidents, hgroupIncidents, h⟩ := bind_eq_ok.mp h
  obtain ⟨actions, hactions, h⟩ := bind_eq_ok.mp h
  obtain rfl := Except.ok.inj h
  obtain ⟨-, -, -, -, -, rfl, rfl⟩ := hostLists_eq_ok_iff.mp hlists
  obtain ⟨-, rfl⟩ := hostGroups_eq_ok_iff.mp hgroups
  obtain rfl := localHost_eq hname
  obtain rfl := topology_eq htopology
  obtain rfl := section_eq hexpected
  obtain rfl := section_eq hoverrides
  obtain rfl := section_eq hwindows
  obtain rfl := hostIncidentOverrides_eq hhostIncidents
  obtain rfl := groupIncidentOverrides_eq hgroupIncidents
  obtain rfl := incidentActions_eq hactions
  rfl

/-- The accepted documents, and what they are loaded as. -/
theorem loadConfig_eq_ok_iff {config : MonitorConfig V} :
    loadConfig rules doc = .ok config ↔ Loadable rules doc ∧ config = doc.loaded := by
  constructor
  · intro h
    exact ⟨loadConfig_returns_iff.mp ⟨config, h⟩, loadConfig_eq h⟩
  · rintro ⟨hloadable, rfl⟩
    obtain ⟨config, h⟩ := loadConfig_returns_iff.mpr hloadable
    rw [← loadConfig_eq h]
    exact h

end Loaded

end Mocop
