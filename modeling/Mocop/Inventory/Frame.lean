import Mocop.Inventory.Mutations
import Mocop.Lib.SortedSets

/-!
# `Mocop.Inventory.Frame`: what an inventory change leaves alone

A request is about one host. `KeepsEntries` says that the written document keeps every entry
of the other hosts, apart from the incident overrides, and every topology link that is not
below the host; every request keeps them (`serve_keepsEntries`).

The incident overrides go through `pruneIncidentOverrides`, which looks for hosts and groups
in the untrimmed lists and among the listed hosts alone. `serve_keeps_iff` says exactly when
it keeps those of the other hosts and those of the groups that are still assigned
(`OverridesListed`).
-/

set_option autoImplicit false

namespace Mocop

open TopologyLink (source target)

variable {V : Type}

/-- Whether a node of the topology is below a host. -/
def ConfigDocument.Below (doc : ConfigDocument V) (host node : String) : Prop :=
  Reaches source target doc.links host node

/-- The written document keeps the entries that are not about the host. Listed names count
by the alias they spell. -/
structure KeepsEntries (host : String) (doc written : ConfigDocument V) : Prop where
  autoDiscover : written.autoDiscover = doc.autoDiscover
  hosts : ∀ a, a ≠ host → (a ∈ written.hosts.map pyStrip ↔ a ∈ doc.hosts.map pyStrip)
  excludeHosts : ∀ a, a ≠ host → (a ∈ written.excludeHosts ↔ a ∈ doc.excludeHosts)
  localHost : doc.localHost ≠ some host → written.localHost = doc.localHost
  root : ∀ topology, doc.topology = some topology → topology.root ≠ host →
    written.topology.map (·.root) = some topology.root
  links : ∀ link ∈ doc.links, link.source ≠ host → link.target ≠ host →
    ¬ doc.Below host link.source → link ∈ written.links
  noLink : ∀ link ∈ written.links, link ∈ doc.links
  expectedGpuCounts : ∀ a, a ≠ host →
    written.expectedGpuCounts.get? a = doc.expectedGpuCounts.get? a
  hostOverrides : ∀ a, a ≠ host → written.hostOverrides.get? a = doc.hostOverrides.get? a
  maintenanceWindows : ∀ a, a ≠ host →
    written.maintenanceWindows.get? a = doc.maintenanceWindows.get? a
  hostGroups : ∀ a, a ≠ host → written.hostGroups.get? a = doc.hostGroups.get? a
  incidentActions : written.incidentActions.filter (fun action => action.host ≠ host)
    = doc.incidentActions.filter fun action => action.host ≠ host
  rest : written.rest = doc.rest

/-- The written document keeps the incident overrides of the other hosts, and those of every
group that is still assigned to a host. The loader accepts the written document, so it
recognises the hosts of its groups, listed or discovered. -/
structure KeepsOverrides (host : String) (doc written : ConfigDocument V) : Prop where
  hosts : ∀ a, a ≠ host →
    written.incidentOverrides.hosts.get? a = doc.incidentOverrides.hosts.get? a
  groups : ∀ group,
    (∃ a value, written.hostGroups.get? a = some value ∧ pyStrip value = group) →
    written.incidentOverrides.groups.get? group = doc.incidentOverrides.groups.get? group

/-! ### The condition -/

/-- The group that a host has after a request, as the document spells it. -/
def groupAfter (doc : ConfigDocument V) (a : String) : InventoryRequest → Option String
  | .change .add _ => doc.hostGroups.get? a
  | .change .remove host => if a = host then none else doc.hostGroups.get? a
  | .updateHostGroup host group =>
    if a = host then (if pyStrip group = "" then none else some (pyStrip group))
    else doc.hostGroups.get? a

/-- Whether a host is listed after a request. A regrouping leaves the list as it is spelled;
the other requests trim it. -/
def ListedAfter (doc : ConfigDocument V) (a : String) : InventoryRequest → Prop
  | .change .add host => a = host ∨ a ∈ doc.hosts.map pyStrip
  | .change .remove host => a ≠ host ∧ a ∈ doc.hosts.map pyStrip
  | .updateHostGroup _ _ => a ∈ doc.hosts

/-- When the overrides survive. A regrouping needs every other host with an override listed
without surrounding blanks. Every overridden group that is still assigned must be assigned,
without surrounding blanks, to a listed host. -/
structure OverridesListed (request : InventoryRequest) (doc : ConfigDocument V) : Prop where
  hosts : ∀ host group, request = .updateHostGroup host group → ∀ a, a ≠ host →
    doc.incidentOverrides.hosts.contains a = true → a ∈ doc.hosts
  groups : ∀ group, doc.incidentOverrides.groups.contains group = true →
    (∃ a value, groupAfter doc a request = some value ∧ pyStrip value = group) →
    ∃ a, groupAfter doc a request = some group ∧ ListedAfter doc a request

/-! ### What a request writes -/

variable {rules : ValueRules V} {port : InventoryPort V} {doc written : ConfigDocument V}
  {config : MonitorConfig V} {request : InventoryRequest}

/-- The overrides of a host after the pruning. -/
theorem hosts_pruneIncidentOverrides (doc : ConfigDocument V) (a : String) :
    (pruneIncidentOverrides doc).incidentOverrides.hosts.get? a
      = if a ∈ doc.hosts ∧ a ∉ doc.excludeHosts then doc.incidentOverrides.hosts.get? a
        else none := by
  unfold pruneIncidentOverrides
  dsimp only
  rw [Dict.get?_filterKeys]
  simp only [Bool.and_eq_true, Bool.not_eq_true', List.contains_eq_mem, decide_eq_true_eq,
    decide_eq_false_iff_not]

/-- The overrides of a group after the pruning. -/
theorem groups_pruneIncidentOverrides (doc : ConfigDocument V) (group : String) (value : V) :
    (pruneIncidentOverrides doc).incidentOverrides.groups.get? group = some value
      ↔ (∃ a, doc.hostGroups.get? a = some group ∧ a ∈ doc.hosts ∧ a ∉ doc.excludeHosts)
        ∧ doc.incidentOverrides.groups.get? group = some value := by
  have hmem : group ∈ ((doc.hostGroups.entries.filter fun entry =>
      doc.hosts.contains entry.1 && !doc.excludeHosts.contains entry.1).map (·.2))
      ↔ ∃ a, doc.hostGroups.get? a = some group ∧ a ∈ doc.hosts ∧ a ∉ doc.excludeHosts := by
    simp [Dict.get?_eq_some_iff, List.mem_map, List.mem_filter]
  unfold pruneIncidentOverrides
  dsimp only
  rw [Dict.get?_filterKeys, Option.ite_none_right_eq_some, List.contains_iff_mem]
  exact and_congr hmem Iff.rfl

/-- A regrouping writes other groups, and prunes. -/
theorem exists_regroupHost (doc : ConfigDocument V) (host group : String) :
    ∃ groups : Dict String String,
      (∀ a, groups.get? a = groupAfter doc a (.updateHostGroup host group))
        ∧ regroupHost doc host group = pruneIncidentOverrides { doc with hostGroups := groups } := by
  refine ⟨_, fun a => ?_, rfl⟩
  rw [groupAfter]
  split
  · rw [Dict.get?_erase]
  · rw [Dict.get?_set]

/-- A regrouping changes the group of its host. -/
theorem hostGroups_regroupHost (doc : ConfigDocument V) (host group a : String) :
    (regroupHost doc host group).hostGroups.get? a
      = groupAfter doc a (.updateHostGroup host group) := by
  obtain ⟨groups, hgroups, heq⟩ := exists_regroupHost doc host group
  rw [heq]
  exact hgroups a

/-- A regrouping lists and excludes the same hosts. -/
theorem lists_regroupHost (doc : ConfigDocument V) (host group : String) :
    (regroupHost doc host group).hosts = doc.hosts
      ∧ (regroupHost doc host group).excludeHosts = doc.excludeHosts := by
  obtain ⟨groups, -, heq⟩ := exists_regroupHost doc host group
  rw [heq]
  exact ⟨rfl, rfl⟩

/-- The groups of the written document. -/
theorem hostGroups_requested (config : MonitorConfig V) (doc : ConfigDocument V)
    (request : InventoryRequest) (a : String) :
    (requested config doc request).hostGroups.get? a = groupAfter doc a request := by
  cases request with
  | change action host =>
    cases action with
    | add => rfl
    | remove => exact Dict.get?_erase doc.hostGroups host a
  | updateHostGroup host group => exact hostGroups_regroupHost doc host group a

/-- The loaded hosts are the trimmed ones. -/
theorem Accepts.mem_hosts (h : Accepts doc config) {a : String} :
    a ∈ config.hosts ↔ a ∈ doc.hosts.map pyStrip := by
  rw [h.hosts_eq, List.mem_eraseDups]

/-- A loaded host is spelled without blanks. -/
theorem Accepts.map_strip_hosts (h : Accepts doc config) :
    config.hosts.map pyStrip = config.hosts := by
  conv_rhs => rw [← List.map_id config.hosts]
  exact List.map_congr_left fun a ha => pyStrip_of_isSafeAlias (h.hosts_safe a ha)

/-- A safe alias that is not excluded is not spelled among the exclusions. -/
theorem Accepts.not_mem_excludeHosts (h : Accepts doc config) {a : String}
    (hsafe : isSafeAlias a = true) (ha : a ∉ config.excludeHosts) : a ∉ doc.excludeHosts := by
  intro hmem
  refine ha ?_
  rw [h.excludes_eq, List.mem_eraseDups]
  exact List.mem_map.mpr ⟨a, hmem, pyStrip_of_isSafeAlias hsafe⟩

/-- The loaded hosts have no duplicate. -/
theorem Accepts.nodup_hosts (h : Accepts doc config) : config.hosts.Nodup := by
  rw [h.hosts_eq]
  exact nodup_eraseDups _

/-- The written document has the overrides of a host exactly when it lists it as spelled and
does not exclude it. -/
theorem hostOverrides_requested (config : MonitorConfig V) (doc : ConfigDocument V)
    (request : InventoryRequest) (a : String) :
    (requested config doc request).incidentOverrides.hosts.get? a
      = if a ∈ (requested config doc request).hosts
          ∧ a ∉ (requested config doc request).excludeHosts then
          doc.incidentOverrides.hosts.get? a
        else none := by
  cases request with
  | change action host =>
    cases action with
    | add => exact hosts_pruneIncidentOverrides _ a
    | remove => exact hosts_pruneIncidentOverrides _ a
  | updateHostGroup host group =>
    obtain ⟨groups, -, heq⟩ := exists_regroupHost doc host group
    rw [show requested config doc (.updateHostGroup host group) = _ from heq]
    exact hosts_pruneIncidentOverrides _ a

/-- The written document has the overrides of a group exactly when a listed host has the
group as spelled. -/
theorem groupOverrides_requested (config : MonitorConfig V) (doc : ConfigDocument V)
    (request : InventoryRequest) (group : String) (value : V) :
    (requested config doc request).incidentOverrides.groups.get? group = some value
      ↔ (∃ a, groupAfter doc a request = some group
          ∧ a ∈ (requested config doc request).hosts
          ∧ a ∉ (requested config doc request).excludeHosts)
        ∧ doc.incidentOverrides.groups.get? group = some value := by
  simp only [← hostGroups_requested config doc request]
  cases request with
  | change action host =>
    cases action with
    | add => exact groups_pruneIncidentOverrides _ group value
    | remove => exact groups_pruneIncidentOverrides _ group value
  | updateHostGroup host name =>
    obtain ⟨groups, -, heq⟩ := exists_regroupHost doc host name
    rw [show requested config doc (.updateHostGroup host name) = _ from heq]
    exact groups_pruneIncidentOverrides _ group value

/-- The hosts that the written document lists. -/
theorem Accepts.mem_requested (h : Accepts doc config) (a : String) :
    a ∈ (requested config doc request).hosts ↔ ListedAfter doc a request := by
  cases request with
  | change action host =>
    cases action with
    | add =>
      show a ∈ config.hosts ++ [host] ↔ a = host ∨ _
      rw [List.mem_append, List.mem_singleton, h.mem_hosts, or_comm]
    | remove =>
      show a ∈ config.hosts.erase host ↔ a ≠ host ∧ _
      rw [h.nodup_hosts.mem_erase_iff, h.mem_hosts]
  | updateHostGroup host group =>
    show a ∈ (regroupHost doc host group).hosts ↔ a ∈ doc.hosts
    rw [(lists_regroupHost doc host group).1]

/-- A removal excludes at most its own host. -/
theorem mem_excludeHosts_removeHost {a host : String} (ha : a ≠ host) :
    a ∈ (removeHost config doc host).excludeHosts ↔ a ∈ doc.excludeHosts := by
  show a ∈ (if config.autoDiscover then (doc.excludeHosts ++ [host]).eraseDups
    else doc.excludeHosts) ↔ _
  split
  · rw [List.mem_eraseDups, List.mem_append, List.mem_singleton]
    exact or_iff_left ha
  · exact Iff.rfl

/-- The exclusions of the written document: a removed host is the only new one. -/
theorem mem_excludeHosts_requested {a : String} (ha : a ≠ request.host) :
    a ∈ (requested config doc request).excludeHosts ↔ a ∈ doc.excludeHosts := by
  cases request with
  | change action host =>
    cases action with
    | add => exact Iff.rfl
    | remove => exact mem_excludeHosts_removeHost ha
  | updateHostGroup host group =>
    show a ∈ (regroupHost doc host group).excludeHosts ↔ _
    rw [(lists_regroupHost doc host group).2]

/-! ### The entries that every request keeps -/

/-- Away from a host, the pruned links reach what all links reach. -/
theorem reaches_filter {links : List TopologyLink} {host a b : String}
    (h : Reaches source target links a b)
    (hbelow : ¬ Reaches source target links host b) :
    Reaches source target
      (links.filter fun link => link.source ≠ host && link.target ≠ host) a b := by
  induction h with
  | refl => exact .refl
  | tail _ hlink ih =>
    obtain ⟨link, hmem, hsource, htarget⟩ := hlink
    -- A link from the host or below it would put its target below the host too.
    have hsourceBelow : ¬ Reaches source target links host
        link.source := fun hpath => hbelow (htarget ▸ hpath.tail ⟨link, hmem, rfl, rfl⟩)
    have hsourceNe : link.source ≠ host := fun heq => hsourceBelow (heq ▸ .refl)
    have htargetNe : link.target ≠ host := fun heq => hbelow (htarget ▸ heq ▸ .refl)
    refine (ih (hsource ▸ hsourceBelow)).tail ⟨link, List.mem_filter.mpr ⟨hmem, ?_⟩, hsource,
      htarget⟩
    simp [hsourceNe, htargetNe]

/-- The links of the topology without a host. -/
theorem Accepts.links_removeHost (h : Accepts doc config) {host : String} {link : TopologyLink}
    (hlink : link ∈ doc.links) (hsource : link.source ≠ host) (htarget : link.target ≠ host)
    (hbelow : ¬ doc.Below host link.source) : link ∈ (removeHost config doc host).links := by
  cases htopology : doc.topology with
  | none =>
    rw [ConfigDocument.links, htopology] at hlink
    cases hlink
  | some topology =>
    have hlinks : doc.links = topology.links := by rw [ConfigDocument.links, htopology]; rfl
    rw [hlinks] at hlink
    rw [ConfigDocument.Below, hlinks] at hbelow
    have hpath := h.links topology htopology link hlink
    have hroot : topology.root ≠ host := fun heq => hbelow (heq ▸ hpath)
    have hkept : link ∈ topology.links.filter fun link =>
        link.source ≠ host && link.target ≠ host :=
      List.mem_filter.mpr ⟨hlink, by simp [hsource, htarget]⟩
    have hretained := mem_retainLinks (Nat.le_refl _) hkept (List.mem_singleton.mpr rfl)
      (reaches_filter hpath hbelow)
    have hwritten : (removeHost config doc host).topology
        = removeTopologyHost topology host := by
      show doc.topology.bind _ = _
      rw [htopology]
      rfl
    rw [ConfigDocument.links, hwritten, removeTopologyHost, if_neg hroot]
    exact hretained

/-- A removal adds no link. -/
theorem mem_links_removeHost {host : String} {link : TopologyLink}
    (h : link ∈ (removeHost config doc host).links) : link ∈ doc.links := by
  cases htopology : doc.topology with
  | none =>
    have hwritten : (removeHost config doc host).topology = none := by
      show doc.topology.bind _ = _
      rw [htopology]
      rfl
    rw [ConfigDocument.links, hwritten] at h
    cases h
  | some topology =>
    have hwritten : (removeHost config doc host).topology
        = removeTopologyHost topology host := by
      show doc.topology.bind _ = _
      rw [htopology]
      rfl
    rw [ConfigDocument.links, hwritten, removeTopologyHost] at h
    rw [ConfigDocument.links, htopology]
    split at h
    · cases h
    · exact (List.mem_filter.mp (mem_of_mem_retainLinks h)).1

/-- The actions of the other hosts survive their own selection. -/
theorem filter_otherActions (actions : List IncidentActionDocument) (host : String) :
    (actions.filter fun action => action.host ≠ host).filter (fun action => action.host ≠ host)
      = actions.filter fun action => action.host ≠ host := by
  simp only [List.filter_filter, Bool.and_self]

/-- The pruning touches the incident overrides alone. -/
theorem KeepsEntries.pruneIncidentOverrides {host : String} (h : KeepsEntries host doc written) :
    KeepsEntries host doc (pruneIncidentOverrides written) where
  autoDiscover := h.autoDiscover
  hosts := h.hosts
  excludeHosts := h.excludeHosts
  localHost := h.localHost
  root := h.root
  links := h.links
  noLink := h.noLink
  expectedGpuCounts := h.expectedGpuCounts
  hostOverrides := h.hostOverrides
  maintenanceWindows := h.maintenanceWindows
  hostGroups := h.hostGroups
  incidentActions := h.incidentActions
  rest := h.rest

/-- An addition keeps the entries of the other hosts. -/
theorem Accepts.keepsEntries_addHost (h : Accepts doc config) {host : String}
    (hsafe : isSafeAlias host = true) : KeepsEntries host doc (addHost config doc host) := by
  have hhosts : ∀ a, a ≠ host →
      (a ∈ (config.hosts ++ [host]).map pyStrip ↔ a ∈ doc.hosts.map pyStrip) := by
    intro a ha
    rw [List.map_append, h.map_strip_hosts, List.mem_append, List.map_singleton,
      List.mem_singleton, pyStrip_of_isSafeAlias hsafe, h.mem_hosts]
    exact or_iff_left ha
  refine KeepsEntries.pruneIncidentOverrides ?_
  exact
    { autoDiscover := rfl
      hosts := hhosts
      excludeHosts := fun _ _ => Iff.rfl
      localHost := fun _ => rfl
      root := fun t ht _ => by
        show doc.topology.map (·.root) = _
        rw [ht]
        rfl
      links := fun _ hlink _ _ _ => hlink
      noLink := fun _ hlink => hlink
      expectedGpuCounts := fun _ _ => rfl
      hostOverrides := fun _ _ => rfl
      maintenanceWindows := fun _ _ => rfl
      hostGroups := fun _ _ => rfl
      incidentActions := rfl
      rest := rfl }

/-- A removal keeps the entries of the other hosts. -/
theorem Accepts.keepsEntries_removeHost (h : Accepts doc config) (host : String) :
    KeepsEntries host doc (removeHost config doc host) := by
  have hhosts : ∀ a, a ≠ host →
      (a ∈ (config.hosts.erase host).map pyStrip ↔ a ∈ doc.hosts.map pyStrip) := by
    intro a ha
    have hstrip : (config.hosts.erase host).map pyStrip = config.hosts.erase host := by
      conv_rhs => rw [← List.map_id (config.hosts.erase host)]
      exact List.map_congr_left fun b hb =>
        pyStrip_of_isSafeAlias (h.hosts_safe b (List.mem_of_mem_erase hb))
    rw [hstrip, h.nodup_hosts.mem_erase_iff, h.mem_hosts]
    exact and_iff_right ha
  have hexcludes := fun a ha => @mem_excludeHosts_removeHost V doc config a host ha
  have hlinks := fun link => @Accepts.links_removeHost V doc config h host link
  have hnoLink := fun link => @mem_links_removeHost V doc config host link
  refine KeepsEntries.pruneIncidentOverrides ?_
  exact
    { autoDiscover := rfl
      hosts := hhosts
      excludeHosts := hexcludes
      localHost := fun hlocal => if_neg hlocal
      root := fun t ht hroot => by
        show (doc.topology.bind fun t => removeTopologyHost t host).map (·.root) = _
        rw [ht, Option.bind_some, removeTopologyHost, if_neg hroot]
        rfl
      links := hlinks
      noLink := hnoLink
      expectedGpuCounts := fun _ ha => (Dict.get?_erase _ _ _).trans (if_neg ha)
      hostOverrides := fun _ ha => (Dict.get?_erase _ _ _).trans (if_neg ha)
      maintenanceWindows := fun _ ha => (Dict.get?_erase _ _ _).trans (if_neg ha)
      hostGroups := fun _ ha => (Dict.get?_erase _ _ _).trans (if_neg ha)
      incidentActions := filter_otherActions doc.incidentActions host
      rest := rfl }

/-- A regrouping keeps the entries of the other hosts. -/
theorem keepsEntries_regroupHost (doc : ConfigDocument V) (host group : String) :
    KeepsEntries host doc (regroupHost doc host group) := by
  obtain ⟨groups, hgroups, heq⟩ := exists_regroupHost doc host group
  rw [heq]
  refine KeepsEntries.pruneIncidentOverrides ?_
  exact
    { autoDiscover := rfl
      hosts := fun _ _ => Iff.rfl
      excludeHosts := fun _ _ => Iff.rfl
      localHost := fun _ => rfl
      root := fun t ht _ => by
        show doc.topology.map (·.root) = _
        rw [ht]
        rfl
      links := fun _ hlink _ _ _ => hlink
      noLink := fun _ hlink => hlink
      expectedGpuCounts := fun _ _ => rfl
      hostOverrides := fun _ _ => rfl
      maintenanceWindows := fun _ _ => rfl
      hostGroups := fun a ha => (hgroups a).trans (if_neg ha)
      incidentActions := rfl
      rest := rfl }

/-- Every written document keeps the entries that are not about its host. -/
theorem Accepts.keepsEntries (h : Accepts doc config) (request : InventoryRequest)
    (hsafe : isSafeAlias request.host = true) :
    KeepsEntries request.host doc (requested config doc request) := by
  cases request with
  | change action host =>
    cases action with
    | add => exact h.keepsEntries_addHost hsafe
    | remove => exact h.keepsEntries_removeHost host
  | updateHostGroup host group => exact keepsEntries_regroupHost doc host group

/-! ### When the overrides survive -/

/-- A host with a group after a request is not excluded by the written document. -/
theorem Accepts.not_mem_excludeHosts_requested (h : Accepts doc config)
    (hsafe : isSafeAlias request.host = true)
    (hactive : (∀ action, request = .change action request.host → action = .add →
        request.host ∉ config.excludeHosts)
      ∧ ∀ group, request = .updateHostGroup request.host group →
        request.host ∉ config.excludeHosts)
    {a group : String} (ha : groupAfter doc a request = some group) :
    a ∉ (requested config doc request).excludeHosts := by
  by_cases heq : a = request.host
  · subst heq
    cases request with
    | change action host =>
      cases action with
      | add => exact h.not_mem_excludeHosts hsafe (hactive.1 .add rfl rfl)
      | remove => simp [groupAfter, InventoryRequest.host] at ha
    | updateHostGroup host name =>
      show host ∉ (regroupHost doc host name).excludeHosts
      rw [(lists_regroupHost doc host name).2]
      exact h.not_mem_excludeHosts hsafe (hactive.2 name rfl)
  · rw [mem_excludeHosts_requested heq]
    have hgroup : doc.hostGroups.get? a = some group := by
      rw [← ha]
      cases request with
      | change action host =>
        cases action with
        | add => rfl
        | remove => exact (if_neg heq).symm
      | updateHostGroup host name => exact (if_neg heq).symm
    exact h.not_mem_excludeHosts (h.groups a group hgroup).1 (h.groups a group hgroup).2

/-- The overrides of the hosts survive exactly when the regrouped document lists them. -/
theorem Accepts.hosts_keep_iff (h : Accepts doc config) (request : InventoryRequest) :
    (∀ a, a ≠ request.host → (requested config doc request).incidentOverrides.hosts.get? a
        = doc.incidentOverrides.hosts.get? a)
      ↔ ∀ host group, request = .updateHostGroup host group → ∀ a, a ≠ host →
          doc.incidentOverrides.hosts.contains a = true → a ∈ doc.hosts := by
  have hkeep : ∀ a value, a ≠ request.host → doc.incidentOverrides.hosts.get? a = some value →
      a ∈ (requested config doc request).hosts →
      (requested config doc request).incidentOverrides.hosts.get? a = some value := by
    intro a value ha hvalue hlisted
    have hoverride := h.overrides a value hvalue
    have hnot : a ∉ (requested config doc request).excludeHosts := by
      rw [mem_excludeHosts_requested ha]
      exact h.not_mem_excludeHosts (h.hosts_safe a hoverride.1) hoverride.2
    rw [hostOverrides_requested, if_pos ⟨hlisted, hnot⟩, hvalue]
  constructor
  · intro hall host group heq a ha hcontains
    subst heq
    rw [Dict.contains_eq, Option.isSome_iff_exists] at hcontains
    obtain ⟨value, hvalue⟩ := hcontains
    have hwritten := hall a ha
    rw [hvalue, hostOverrides_requested, Option.ite_none_right_eq_some] at hwritten
    have hhosts : a ∈ (regroupHost doc host group).hosts := hwritten.1.1
    rwa [(lists_regroupHost doc host group).1] at hhosts
  · intro hlisted a ha
    cases hvalue : doc.incidentOverrides.hosts.get? a with
    | none =>
      rw [hostOverrides_requested, hvalue]
      exact ite_self _
    | some value =>
      refine hkeep a value ha hvalue ?_
      rw [h.mem_requested]
      have hhost := h.mem_hosts.mp (h.overrides a value hvalue).1
      cases request with
      | change action host =>
        cases action with
        | add => exact .inr hhost
        | remove => exact ⟨ha, hhost⟩
      | updateHostGroup host group =>
        exact hlisted host group rfl a ha (by simp [hvalue])

/-- The overrides of the groups survive exactly when a listed host has each of them. -/
theorem Accepts.groups_keep_iff (h : Accepts doc config) (hsafe : isSafeAlias request.host = true)
    (hactive : (∀ action, request = .change action request.host → action = .add →
        request.host ∉ config.excludeHosts)
      ∧ ∀ group, request = .updateHostGroup request.host group →
        request.host ∉ config.excludeHosts) (group : String) :
    (requested config doc request).incidentOverrides.groups.get? group
        = doc.incidentOverrides.groups.get? group
      ↔ (doc.incidentOverrides.groups.contains group = true →
        ∃ a, groupAfter doc a request = some group ∧ ListedAfter doc a request) := by
  cases hvalue : doc.incidentOverrides.groups.get? group with
  | none =>
    have hnone : (requested config doc request).incidentOverrides.groups.get? group = none := by
      cases hwritten : (requested config doc request).incidentOverrides.groups.get? group with
      | none => rfl
      | some value =>
        have := ((groupOverrides_requested config doc request group value).mp hwritten).2
        rw [hvalue] at this
        cases this
    simp [hnone, hvalue]
  | some value =>
    rw [groupOverrides_requested config doc request group value, hvalue]
    simp only [and_true, Dict.contains_eq, hvalue, Option.isSome_some, forall_const]
    constructor
    · rintro ⟨a, hgroup, hlisted, _⟩
      exact ⟨a, hgroup, h.mem_requested a |>.mp hlisted⟩
    · rintro ⟨a, hgroup, hlisted⟩
      exact ⟨a, hgroup, h.mem_requested a |>.mpr hlisted,
        h.not_mem_excludeHosts_requested hsafe hactive hgroup⟩

/-- The written document keeps everything that is not about the host. -/
structure KeepsUnrelated (host : String) (doc written : ConfigDocument V) : Prop where
  entries : KeepsEntries host doc written
  overrides : KeepsOverrides host doc written

/-- A served request keeps everything that is not about its host exactly when the overrides
are listed. -/
theorem serve_keeps_iff (rules : ValueRules V) (port : InventoryPort V)
    (request : InventoryRequest) (doc written : ConfigDocument V)
    (hserve : serve rules port request doc = .ok (some written)) :
    KeepsUnrelated request.host doc written ↔ OverridesListed request doc := by
  obtain ⟨hsafe, _, config, hload, rfl, hactive⟩ := serve_cases hserve
  have h := loadConfig_accepts hload
  constructor
  · intro hkeep
    refine ⟨(h.hosts_keep_iff request).mp hkeep.overrides.hosts, ?_⟩
    intro group hcontains hassigned
    simp only [← hostGroups_requested config doc request] at hassigned
    exact (h.groups_keep_iff hsafe hactive group).mp
      (hkeep.overrides.groups group hassigned) hcontains
  · intro hlisted
    refine ⟨h.keepsEntries request hsafe, (h.hosts_keep_iff request).mpr hlisted.hosts, ?_⟩
    intro group hassigned
    simp only [hostGroups_requested config doc request] at hassigned
    exact (h.groups_keep_iff hsafe hactive group).mpr fun hcontains =>
      hlisted.groups group hcontains hassigned

/-- A monitor whose SSH configuration names two hosts. -/
private def twoAliases : InventoryPort Unit where
  writable := true
  textLength := fun _ => 512
  eligibleAliases := fun config =>
    .ok (["gpu-02", "gpu-03"].filter fun a => !config.excludeHosts.contains a)
  activeHosts := fun config => .ok config.hosts
  snapshot := fun _ => .ok ()
  onConfigChanged := fun _ => .ok ()
  eligible_active := fun config aliases h a ha => by
    cases h
    simpa using (List.mem_filter.mp ha).2

/-- A document with automatic discovery, one listed host, a group of one host and an override
of the group. -/
private def rackDocument (member : String) : ConfigDocument Unit :=
  { ConfigDocument.listing ["gpu-01"] with
    autoDiscover := true
    hostGroups := Dict.ofList [(member, "rack")]
    incidentOverrides := ⟨∅, Dict.ofList [("rack", ())]⟩ }

/-- The group of a listed host keeps its override when another host is added. -/
theorem serve_keeps_listed :
    ∃ written, serve .lax twoAliases (.change .add "gpu-03") (rackDocument "gpu-01")
        = .ok (some written)
      ∧ KeepsUnrelated "gpu-03" (rackDocument "gpu-01") written := by
  have hserve : (match serve .lax twoAliases (.change .add "gpu-03")
      (rackDocument "gpu-01") with
      | .ok (some _) => true
      | _ => false) = true := by
    decide +kernel
  split at hserve
  · next written heq =>
    refine ⟨written, heq, (serve_keeps_iff _ _ (.change .add "gpu-03") _ _ heq).mpr
      ⟨fun _ _ h => (by cases h), fun group hcontains _ => ⟨"gpu-01", ?_, .inr (by decide)⟩⟩⟩
    have hrack : group = "rack" := by
      have hkey := (Dict.mem_keys _ _).mpr hcontains
      exact List.mem_singleton.mp hkey
    rw [hrack]
    rfl
  · cases hserve

/-- A discovered host may carry a group before it is listed. Adding another host then drops
the override of the group. -/
theorem serve_drops_discovered :
    ∃ written, serve .lax twoAliases (.change .add "gpu-03") (rackDocument "gpu-02")
        = .ok (some written)
      ∧ written.hostGroups.get? "gpu-02" = some "rack"
      ∧ (rackDocument "gpu-02").incidentOverrides.groups.get? "rack" = some ()
      ∧ written.incidentOverrides.groups.get? "rack" = none
      ∧ ¬ KeepsUnrelated "gpu-03" (rackDocument "gpu-02") written := by
  have hserve : (match serve .lax twoAliases (.change .add "gpu-03")
      (rackDocument "gpu-02") with
      | .ok (some written) => decide (written.hostGroups.get? "gpu-02" = some "rack"
          ∧ written.incidentOverrides.groups.get? "rack" = none)
      | _ => false) = true := by
    decide +kernel
  split at hserve
  · next written heq =>
    obtain ⟨hgroup, hdropped⟩ := of_decide_eq_true hserve
    refine ⟨written, heq, hgroup, rfl, hdropped, fun hkeep => ?_⟩
    have hkept := hkeep.overrides.groups "rack" ⟨"gpu-02", "rack", hgroup, by decide +kernel⟩
    rw [hdropped] at hkept
    cases hkept
  · cases hserve

end Mocop
