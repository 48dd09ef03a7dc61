import Mocop.Inventory.Relocation

/-!
# `Mocop.Inventory.Migrated`: the document of the new installation

A migration moves the local host of an accepted document to another alias (`SafeMove`) and applies
its options. The edited document carries over what the source says about the other hosts, or reports
it (`SafeMove.carriedOver`). It loads when every group is that of a host that the loader recognises
and the hosts are not too many (`SafeMove.loadable_applyOptions`); these two conditions are the only
ones that can fail (`SafeMove.groups_listed`, `SafeMove.length_hosts_iff`).
-/

set_option autoImplicit false

namespace Mocop

/-- The new configuration is the old one, up to the local host and the reported fields. -/
structure CarriedOver (old new : Option String) (dropped : List String)
    (source target : InstallationConfig) : Prop where
  hosts : target.inventory.hosts.filter (fun host => some host ≠ new)
    = source.inventory.hosts.filter fun host => some host ≠ old
  localListed : ∀ name, new = some name → name ∈ target.inventory.hosts
  localHost : target.inventory.localHost = new
  excludeHosts : target.inventory.excludeHosts = source.inventory.excludeHosts
  topology : "topology" ∈ dropped ∨ target.inventory.topology
    = source.inventory.topology.map (·.rename (movedName old new))
  expectedGpuCounts : target.inventory.expectedGpuCounts.filter (fun e => isOther old new e.1)
    = source.inventory.expectedGpuCounts.filter fun e => isOther old new e.1
  hostOverrides : target.inventory.hostOverrides.filter (fun e => isOther old new e.1)
    = source.inventory.hostOverrides.filter fun e => isOther old new e.1
  maintenanceWindows : target.inventory.maintenanceWindows.filter (fun e => isOther old new e.1)
    = source.inventory.maintenanceWindows.filter fun e => isOther old new e.1
  hostGroups : target.inventory.hostGroups.filter (fun e => isOther old new e.1)
    = source.inventory.hostGroups.filter fun e => isOther old new e.1
  hostIncidents : target.inventory.hostIncidentOverrides.filter (fun e => isOther old new e.1)
    = source.inventory.hostIncidentOverrides.filter fun e => isOther old new e.1
  groupIncidents : ∀ entry ∈ source.inventory.groupIncidentOverrides,
    "incident_overrides.groups." ++ entry.1 ∈ dropped
      ∨ entry ∈ target.inventory.groupIncidentOverrides
  noGroupIncident : ∀ entry ∈ target.inventory.groupIncidentOverrides,
    entry ∈ source.inventory.groupIncidentOverrides
  incidentActions : target.inventory.incidentActions.filter (fun a => isOther old new a.host)
    = source.inventory.incidentActions.filter fun a => isOther old new a.host
  refreshSeconds : target.sshDiscovery.refreshSeconds = source.sshDiscovery.refreshSeconds
  resolveTimeoutSeconds :
    target.sshDiscovery.resolveTimeoutSeconds = source.sshDiscovery.resolveTimeoutSeconds
  settings : target.settings = source.settings

/-! ### The new document loads -/

section Loads

variable {port : InstallationPort} {raw moved : ConfigDocument Json} {old new : Option String}
  {dropped : List String}

/-- A move of the local host of an accepted document, to an alias that may be one. -/
structure SafeMove (port : InstallationPort) (old new : Option String)
    (raw moved : ConfigDocument Json) (dropped : List String) : Prop where
  accepted : Loadable (documentRules port) raw
  relocated : Relocated old new (namesOf raw.hosts) raw moved dropped
  names : Renaming old new (namesOf raw.hosts)
  safe : ∀ name, new = some name → isSafeAlias name = true
  unexcluded : ∀ name, new = some name → name ∉ namesOf raw.excludeHosts
  noNode : ∀ name, new = some name → new ≠ old → old ≠ none →
    ∀ topology, raw.topology = some topology → ¬ topology.IsNode name

/-- Distinct safe names spell themselves. -/
theorem namesOf_eq_self {names : List String} (hsafe : ∀ a ∈ names, isSafeAlias a = true)
    (hnodup : names.Nodup) : namesOf names = names := by
  have hstrip : names.map pyStrip = names := by
    conv_rhs => rw [← List.map_id names]
    exact List.map_congr_left fun a ha => pyStrip_of_isSafeAlias (hsafe a ha)
  rw [namesOf, hstrip, eraseDups_of_nodup hnodup]

variable {name : String}

/-- A safe alias is not blank. -/
theorem pyStrip_ne_of_isSafeAlias (h : isSafeAlias name = true) :
    pyStrip name ≠ "" := by
  rw [pyStrip_of_isSafeAlias h]
  rintro rfl
  cases h

/-- The overrides are those of the document and the one that shows a name. -/
theorem mem_showName {displayName : Option String} {overrides : Dict String Json}
    {entry : String × Json} (h : entry ∈ (showName displayName new overrides).entries) :
    (∃ name, displayName = some name ∧ new = some entry.1 ∧ entry.2 = displayNameOverride name)
      ∨ entry ∈ overrides.entries := by
  obtain ⟨key, value⟩ := entry
  rw [← Dict.get?_eq_some_iff] at h
  rw [← Dict.get?_eq_some_iff]
  unfold showName at h
  split at h
  · rw [Dict.get?_set] at h
    split at h
    · next heq =>
      subst heq
      exact .inl ⟨_, rfl, rfl, (Option.some.inj h).symm⟩
    · exact .inr h
  · exact .inr h

/-- A shown name leaves the overrides of the other hosts. -/
theorem filter_showName {displayName : Option String} {overrides : Dict String Json} :
    (showName displayName new overrides).entries.filter (fun e => isOther old new e.1)
      = overrides.entries.filter fun e => isOther old new e.1 := by
  unfold showName
  split
  · exact Dict.filter_entries_set _ _ (by simp [isOther])
  · rfl

namespace SafeMove

variable (h : SafeMove port old new raw moved dropped)

include h

/-- The hosts that the new document lists. -/
theorem mem_hosts :
    name ∈ moved.hosts ↔ (name ∈ namesOf raw.hosts ∧ some name ≠ old) ∨ new = some name := by
  rw [h.relocated.hosts]
  exact h.names.mem_movedHosts

/-- They are safe. -/
theorem hosts_safe (hname : name ∈ moved.hosts) : isSafeAlias name = true := by
  rcases h.mem_hosts.mp hname with ⟨hlisted, -⟩ | hnew
  · exact h.accepted.names_safe name (List.mem_append_left _ hlisted)
  · exact h.safe name hnew

/-- They spell themselves. -/
theorem namesOf_hosts : namesOf moved.hosts = moved.hosts :=
  namesOf_eq_self (fun _ => h.hosts_safe) (by
    rw [h.relocated.hosts]
    exact h.names.nodup_movedHosts)

/-- A known host that is not the old local one stays known. -/
theorem known (hknown : KnownHost raw name) (hne : some name ≠ old) {moved' : ConfigDocument Json}
    (hhosts : moved'.hosts = moved.hosts) (hexcludes : moved'.excludeHosts = moved.excludeHosts) :
    KnownHost moved' name where
  safe := hknown.safe
  listed := by
    rw [hhosts, h.namesOf_hosts, h.mem_hosts]
    exact .inl ⟨hknown.listed, hne⟩
  not_excluded := by
    rw [hexcludes, h.relocated.excludeHosts]
    exact hknown.not_excluded

/-- The new local host is known. -/
theorem known_new (hnew : new = some name) {moved' : ConfigDocument Json}
    (hhosts : moved'.hosts = moved.hosts) (hexcludes : moved'.excludeHosts = moved.excludeHosts) :
    KnownHost moved' name where
  safe := h.safe name hnew
  listed := by
    rw [hhosts, h.namesOf_hosts, h.mem_hosts]
    exact .inr hnew
  not_excluded := by
    rw [hexcludes, h.relocated.excludeHosts]
    exact h.unexcluded name hnew

/-- A section without the entries of the old local host keeps what the loader has checked. -/
theorem known_section {α : Type} {P : String × α → Prop} {entries kept : List (String × α)}
    (hkept : kept = entries.filter fun e => some e.1 ≠ old)
    (hentries : ∀ entry ∈ entries, KnownHost raw entry.1 ∧ P entry)
    (moved' : ConfigDocument Json) (hhosts : moved'.hosts = moved.hosts)
    (hexcludes : moved'.excludeHosts = moved.excludeHosts) :
    ∀ entry ∈ kept, KnownHost moved' entry.1 ∧ P entry := by
  intro entry hentry
  rw [hkept] at hentry
  obtain ⟨hraw, hne⟩ := List.mem_filter.mp hentry
  obtain ⟨hknown, hvalue⟩ := hentries entry hraw
  exact ⟨h.known hknown (of_decide_eq_true hne) hhosts hexcludes, hvalue⟩

/-- The moved topology is a tree. -/
theorem tree {topology : TopologyDocument} (htopology : moved.topology = some topology) :
    TreeDocument (documentRules port) topology := by
  rcases h.relocated.topology with hmoved | ⟨hnone, -⟩
  · rw [htopology] at hmoved
    obtain ⟨source, hsource, rfl⟩ := Option.map_eq_some_iff.mp hmoved.symm
    have htree := h.accepted.topology source hsource
    refine htree.rename (fun name hname => ?_) fun a b ha hb heq =>
      movedName_inj (fun fresh hfresh hne hold => h.noNode fresh hfresh hne hold source hsource)
        ha hb heq
    unfold movedName
    split
    · cases hnew : new with
      | none => exact htree.node_safe hname
      | some fresh => exact h.safe fresh hnew
    · exact htree.node_safe hname
  · rw [hnone] at htopology
    cases htopology

variable {options : MigrationOptions}

/-- The new document loads when its groups are those of recognised hosts and its hosts are not
too many. -/
theorem loadable_applyOptions
    (hdisplay : ∀ name, options.displayName = some name →
      isValidDisplayName port.text name = true)
    (hgroups : options.autoDiscover = some false → ∀ name ∈ raw.hostGroups.keys,
      name ∈ namesOf raw.hosts ∨ new = some name)
    (hroom : moved.hosts.length ≤ configMaxHostAliases) :
    Loadable (documentRules port) (applyOptions options new moved).1 where
  hosts_text := fun item hitem => pyStrip_ne_of_isSafeAlias (h.hosts_safe hitem)
  excludes_text := by
    show ∀ item ∈ moved.excludeHosts, pyStrip item ≠ ""
    rw [h.relocated.excludeHosts]
    exact h.accepted.excludes_text
  hosts_bounded := by
    show (namesOf moved.hosts).length ≤ _
    rw [h.namesOf_hosts]
    exact hroom
  excludes_bounded := by
    show (namesOf moved.excludeHosts).length ≤ _
    rw [h.relocated.excludeHosts]
    exact h.accepted.excludes_bounded
  names_safe := by
    show ∀ name ∈ namesOf moved.hosts ++ namesOf moved.excludeHosts, isSafeAlias name = true
    rw [h.namesOf_hosts, h.relocated.excludeHosts]
    intro name hname
    rcases List.mem_append.mp hname with hlisted | hexcluded
    · exact h.hosts_safe hlisted
    · exact h.accepted.names_safe name (List.mem_append_right _ hexcluded)
  localHost := fun value hvalue => by
    have hnew : moved.localHost = some value := hvalue
    rw [h.relocated.localHost] at hnew
    rw [pyStrip_of_isSafeAlias (h.safe value hnew)]
    exact h.known_new hnew rfl rfl
  topology := fun topology htopology => h.tree htopology
  settings := by
    show Returns ((documentRules port).settings moved.rest)
    rw [h.relocated.rest]
    exact h.accepted.settings
  expected := h.known_section h.relocated.expected h.accepted.expected _ rfl rfl
  overrides := fun entry hentry => by
    have hmem : entry ∈ (showName options.displayName new moved.hostOverrides).entries := hentry
    show _ ∧ Returns (hostOverride port.text moved.rest entry.1 entry.2)
    rcases mem_showName hmem with ⟨name, hname, hnew, hvalue⟩ | hkept
    · rw [hvalue]
      exact ⟨h.known_new hnew rfl rfl, returns_displayNameOverride (hdisplay name hname)⟩
    · rw [h.relocated.rest]
      exact h.known_section h.relocated.overrides h.accepted.overrides
        (applyOptions options new moved).1 rfl rfl entry hkept
  windows := h.known_section h.relocated.windows h.accepted.windows _ rfl rfl
  groups := fun entry hentry => by
    show _ ∧ (options.autoDiscover.getD moved.autoDiscover = false →
      entry.1 ∈ namesOf moved.hosts) ∧ entry.1 ∉ namesOf moved.excludeHosts ∧ _
    rw [h.relocated.autoDiscover, h.relocated.excludeHosts, h.namesOf_hosts]
    rcases h.relocated.groups entry hentry with ⟨hraw, hne⟩ | ⟨hnew, name, -, hraw⟩
    · obtain ⟨hsafe, hlisted, hkept, hvalid⟩ := h.accepted.groups entry hraw
      refine ⟨hsafe, fun hmanual => h.mem_hosts.mpr ?_, hkept, hvalid⟩
      -- The discovery is off in the source, or an option turns it off.
      cases hoption : options.autoDiscover with
      | none =>
        rw [hoption] at hmanual
        exact .inl ⟨hlisted hmanual, hne⟩
      | some auto =>
        rw [hoption] at hmanual
        obtain rfl : auto = false := hmanual
        rcases hgroups hoption entry.1 (List.mem_map_of_mem hraw) with hhost | hnew
        · exact .inl ⟨hhost, hne⟩
        · exact .inr hnew
    · obtain ⟨-, -, -, hvalid⟩ := h.accepted.groups _ hraw
      exact ⟨h.safe _ hnew, fun _ => h.mem_hosts.mpr (.inr hnew), h.unexcluded _ hnew, hvalid⟩
  hostIncidents_bounded := by
    show moved.incidentOverrides.hosts.entries.length ≤ 256
    rw [h.relocated.hostIncidents]
    exact (List.length_filter_le _ _).trans h.accepted.hostIncidents_bounded
  hostIncidents := h.known_section h.relocated.hostIncidents h.accepted.hostIncidents _ rfl rfl
  groupIncidents_bounded := by
    refine (List.length_filter_le _ _).trans ?_
    rw [h.relocated.groupIncidents]
    exact h.accepted.groupIncidents_bounded
  groupIncidents := fun entry hentry => by
    obtain ⟨hmem, hassigned⟩ := List.mem_filter.mp hentry
    rw [h.relocated.groupIncidents] at hmem
    obtain ⟨hvalid, hgroup, hvalue⟩ := h.accepted.groupIncidents entry hmem
    refine ⟨hvalid, ?_, hvalue⟩
    -- The override names a trimmed group, and some host spells it so.
    obtain ⟨group, -, hstrip⟩ := List.mem_map.mp hgroup
    obtain ⟨kept, hkept, heq⟩ := List.mem_map.mp (List.contains_iff_mem.mp hassigned)
    refine List.mem_map.mpr ⟨kept, hkept, ?_⟩
    rw [heq, ← hstrip, pyStrip_pyStrip]
  actions_bounded := by
    show moved.incidentActions.length ≤ _
    rw [h.relocated.actions]
    exact (List.length_filter_le _ _).trans h.accepted.actions_bounded
  actions := fun action haction => by
    have hmem : action ∈ moved.incidentActions := haction
    rw [h.relocated.actions] at hmem
    obtain ⟨hraw, hne⟩ := List.mem_filter.mp hmem
    obtain ⟨hknown, hkey, hkind, hreason, huntil, hstarted⟩ := h.accepted.actions action hraw
    exact ⟨h.known hknown (of_decide_eq_true hne) rfl rfl, hkey, hkind, hreason, huntil, hstarted⟩
  actions_distinct := by
    show (moved.incidentActions.map _).Nodup
    rw [h.relocated.actions]
    exact h.accepted.actions_distinct.sublist (List.filter_sublist.map _)

/-- Without discovery, the groups of a document that loads are those of listed hosts. -/
theorem groups_listed (hload : Loadable (documentRules port) (applyOptions options new moved).1)
    (hoption : options.autoDiscover = some false) (hname : name ∈ raw.hostGroups.keys) :
    name ∈ namesOf raw.hosts ∨ new = some name := by
  by_cases hnew : new = some name
  · exact .inr hnew
  by_cases hold : old = some name
  · exact .inl (h.names.old_listed name hold)
  obtain ⟨entry, hentry, rfl⟩ := List.mem_map.mp hname
  have hother : isOther old new entry.1 = true := by
    simp [isOther, Ne.symm hold, Ne.symm hnew]
  have hmoved : entry ∈ moved.hostGroups.entries.filter fun e => isOther old new e.1 := by
    rw [h.relocated.otherGroups]
    exact List.mem_filter.mpr ⟨hentry, hother⟩
  have hlisted := (hload.groups entry (List.mem_filter.mp hmoved).1).2.1
  have hhost : entry.1 ∈ namesOf moved.hosts := hlisted (by
    show options.autoDiscover.getD moved.autoDiscover = false
    rw [hoption]
    rfl)
  rw [h.namesOf_hosts, h.mem_hosts] at hhost
  exact hhost.imp_left And.left

/-- The hosts of the new document fit when an added local host has a place. -/
theorem length_hosts_iff : moved.hosts.length ≤ configMaxHostAliases
    ↔ (old = none → new ≠ none → (namesOf raw.hosts).length < configMaxHostAliases) := by
  have hbounded := h.accepted.hosts_bounded
  rw [h.relocated.hosts]
  cases old with
  | some name =>
    refine iff_of_true ((Renaming.length_movedHosts h.names).trans ?_) nofun
    simpa using hbounded
  | none =>
    cases new with
    | none => exact iff_of_true hbounded fun _ hne => absurd rfl hne
    | some name =>
      show (namesOf raw.hosts ++ [name]).length ≤ _ ↔ _
      rw [List.length_append, List.length_singleton, Nat.succ_le_iff]
      simp

/-! ### The new document carries the source over -/

/-- The new configuration is the old one, up to the local host and the reported fields. -/
theorem carriedOver {config target : InstallationConfig} (hsource : config.inventory = raw.loaded)
    (htarget : target.inventory = (applyOptions options new moved).1.loaded)
    (hrefresh : target.sshDiscovery.refreshSeconds = config.sshDiscovery.refreshSeconds)
    (htimeout : target.sshDiscovery.resolveTimeoutSeconds
      = config.sshDiscovery.resolveTimeoutSeconds) (hsettings : target.settings = config.settings) :
    CarriedOver old new (dropped ++ (applyOptions options new moved).2) config target where
  hosts := by
    rw [htarget, hsource]
    show (namesOf moved.hosts).filter _ = _
    rw [h.namesOf_hosts, h.relocated.hosts]
    exact h.names.filter_movedHosts
  localListed := fun name hnew => by
    rw [htarget]
    show name ∈ namesOf moved.hosts
    rw [h.namesOf_hosts, h.mem_hosts]
    exact .inr hnew
  localHost := by
    rw [htarget]
    show moved.localHost.map pyStrip = new
    rw [h.relocated.localHost]
    cases hnew : new with
    | none => rfl
    | some name => rw [Option.map_some, pyStrip_of_isSafeAlias (h.safe name hnew)]
  excludeHosts := by
    rw [htarget, hsource]
    show namesOf moved.excludeHosts = _
    rw [h.relocated.excludeHosts]
    rfl
  topology := by
    rw [htarget, hsource]
    rcases h.relocated.topology with hmoved | ⟨-, hlisted⟩
    · right
      show moved.topology.map _ = (raw.topology.map _).map _
      rw [hmoved, Option.map_map, Option.map_map]
      exact congrArg (raw.topology.map ·) (funext fun topology => topology.loaded_rename _)
    · exact .inl (List.mem_append_left _ hlisted)
  expectedGpuCounts := by
    rw [htarget, hsource]
    show moved.expectedGpuCounts.entries.filter _ = _
    rw [h.relocated.expected]
    exact filter_other _ Prod.fst
  hostOverrides := by
    rw [htarget, hsource]
    show (showName options.displayName new moved.hostOverrides).entries.filter _ = _
    rw [filter_showName, h.relocated.overrides]
    exact filter_other _ Prod.fst
  maintenanceWindows := by
    rw [htarget, hsource]
    show moved.maintenanceWindows.entries.filter _ = _
    rw [h.relocated.windows]
    exact filter_other _ Prod.fst
  hostGroups := by
    rw [htarget, hsource]
    show (moved.hostGroups.entries.map _).filter _ = (raw.hostGroups.entries.map _).filter _
    rw [List.filter_map, List.filter_map]
    exact congrArg (List.map _) h.relocated.otherGroups
  hostIncidents := by
    rw [htarget, hsource]
    show moved.incidentOverrides.hosts.entries.filter _ = _
    rw [h.relocated.hostIncidents]
    exact filter_other _ Prod.fst
  groupIncidents := fun entry hentry => by
    rw [hsource] at hentry
    rw [htarget]
    obtain ⟨override, hraw, rfl⟩ := List.mem_map.mp hentry
    have hmoved : override ∈ moved.incidentOverrides.groups.entries := by
      rw [h.relocated.groupIncidents]
      exact hraw
    by_cases hassigned : moved.hostGroups.values.contains override.1 = true
    · exact .inr (List.mem_map.mpr ⟨override, List.mem_filter.mpr ⟨hmoved, hassigned⟩, rfl⟩)
    · left
      -- An override is listed under the group that it names, which is trimmed.
      obtain ⟨-, hgroup, -⟩ := h.accepted.groupIncidents override hraw
      obtain ⟨group, -, hstrip⟩ := List.mem_map.mp hgroup
      have htrimmed : pyStrip override.1 = override.1 := by rw [← hstrip, pyStrip_pyStrip]
      refine List.mem_append_right _ (List.mem_map.mpr ⟨override.1, List.mem_filter.mpr
        ⟨List.mem_map_of_mem hmoved, ?_⟩, ?_⟩)
      · rw [Bool.eq_false_iff.mpr hassigned]
        rfl
      · rw [htrimmed]
  noGroupIncident := fun entry hentry => by
    rw [htarget] at hentry
    rw [hsource]
    obtain ⟨override, hkept, rfl⟩ := List.mem_map.mp hentry
    have hmoved := (List.mem_filter.mp hkept).1
    rw [h.relocated.groupIncidents] at hmoved
    exact List.mem_map_of_mem hmoved
  incidentActions := by
    rw [htarget, hsource]
    show (moved.incidentActions.map _).filter _ = (raw.incidentActions.map _).filter _
    rw [List.filter_map, List.filter_map, h.relocated.actions]
    exact congrArg (List.map _) (filter_other raw.incidentActions IncidentActionDocument.host)
  refreshSeconds := hrefresh
  resolveTimeoutSeconds := htimeout
  settings := hsettings

end SafeMove

end Loads

end Mocop
