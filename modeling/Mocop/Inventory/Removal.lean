import Mocop.Inventory.Acceptance
import Mocop.Inventory.Frame
import Mathlib.Data.List.DropRight

/-!
# `Mocop.Inventory.Removal`: what a removal leaves behind

A removed host must be gone from a document that still loads. `removeHost_loadable` is the
core: removing a host from a loadable document leaves a loadable one, unless the document
spells the local host with surrounding blanks, which the removal does not recognise
(`LocalHostSpelled`). `change_removes_iff` adds what the removal forgets (`Forgets`), which
links it keeps (`KeepsSubTree`), and that the host is no longer active. The written text is
indented, so it can be too long where the text that was read is not.
-/

set_option autoImplicit false

namespace Mocop

section Removal

variable {V : Type}

/-- The hosts that are monitored: the listed ones, and with automatic discovery those that the
SSH configuration offers, without the excluded ones. -/
def activeHosts (candidates : MonitorConfig V → List String) (config : MonitorConfig V) :
    List String :=
  (config.hosts ++ if config.autoDiscover then candidates config else []).filter
    fun a => !config.excludeHosts.contains a

/-- The outside serves the dashboard: the file can be written, the discovered candidates are
safe aliases, and the callbacks return. -/
structure Serves (candidates : MonitorConfig V → List String) (port : InventoryPort V) : Prop where
  writable : port.writable = true
  candidates_safe : ∀ config, ∀ a ∈ candidates config, isSafeAlias a = true
  active : ∀ config, port.activeHosts config = .ok (activeHosts candidates config)
  snapshot : ∀ config, Returns (port.snapshot config)
  onConfigChanged : ∀ config, Returns (port.onConfigChanged config)

/-- Nothing in the document refers to the host. -/
structure Forgets (host : String) (written : ConfigDocument V) : Prop where
  hosts : host ∉ namesOf written.hosts
  localHost : ∀ value, written.localHost = some value → pyStrip value ≠ host
  root : ∀ topology, written.topology = some topology → topology.root ≠ host
  links : ∀ link ∈ written.links, link.source ≠ host ∧ link.target ≠ host
  expectedGpuCounts : written.expectedGpuCounts.get? host = none
  hostOverrides : written.hostOverrides.get? host = none
  maintenanceWindows : written.maintenanceWindows.get? host = none
  hostGroups : written.hostGroups.get? host = none
  incidentOverrides : written.incidentOverrides.hosts.get? host = none
  incidentActions : ∀ action ∈ written.incidentActions, action.host ≠ host

/-- The links that do not touch the host. -/
def linksWithout (host : String) (links : List TopologyLink) : List TopologyLink :=
  links.filter fun link => link.source ≠ host && link.target ≠ host

/-- The document keeps the root, unless it is the host, and exactly the links that the root
reaches without the host, each once. -/
structure KeepsSubTree (host : String) (doc written : ConfigDocument V) : Prop where
  absent : doc.topology = none → written.topology = none
  root : ∀ topology, doc.topology = some topology → topology.root = host →
    written.topology = none
  subTree : ∀ topology, doc.topology = some topology → topology.root ≠ host →
    ∃ links, written.topology = some { topology with links := links }
      ∧ links.Subperm topology.links
      ∧ ∀ link, link ∈ links ↔ link ∈ linksWithout host topology.links
        ∧ Reaches TopologyLink.source TopologyLink.target (linksWithout host topology.links)
          topology.root link.source

/-- The removal of a host from a document: it loads, the host is not active any more, nothing
refers to it, and the topology keeps the rest of its tree. -/
structure RemovedCleanly (rules : ValueRules V) (candidates : MonitorConfig V → List String)
    (host : String) (doc written : ConfigDocument V) : Prop where
  loads : ∃ config, loadConfig rules written = .ok config ∧ host ∉ activeHosts candidates config
  forgets : Forgets host written
  keeps : KeepsSubTree host doc written

/-- The document does not spell the host as its local one with surrounding blanks. -/
def LocalHostSpelled (host : String) (doc : ConfigDocument V) : Prop :=
  ∀ value, doc.localHost = some value → pyStrip value = host → value = host

/-! ### Spelling -/

/-- A stripped text is stripped. -/
theorem pyStrip_pyStrip (value : String) : pyStrip (pyStrip value) = pyStrip value := by
  have hleft : (List.rdropWhile isPySpace (value.toList.dropWhile isPySpace)).dropWhile isPySpace
      = List.rdropWhile isPySpace (value.toList.dropWhile isPySpace) := by
    rw [List.dropWhile_eq_self_iff]
    intro hlength hblank
    -- The first character left is the first one of the text without its leading blanks.
    have hprefix := List.rdropWhile_prefix isPySpace (value.toList.dropWhile isPySpace)
    have hself := (List.dropWhile_eq_self_iff (p := isPySpace)).mp
      (List.dropWhile_idempotent isPySpace value.toList)
    refine hself (Nat.lt_of_lt_of_le hlength hprefix.length_le) ?_
    rw [← hprefix.getElem hlength]
    exact hblank
  have hright := List.rdropWhile_idempotent isPySpace (value.toList.dropWhile isPySpace)
  unfold List.rdropWhile at hleft hright
  unfold pyStrip
  rw [String.toList_ofList, hleft, hright]

/-- The aliases that a list spells. -/
theorem mem_namesOf {values : List String} {a : String} :
    a ∈ namesOf values ↔ a ∈ values.map pyStrip := List.mem_eraseDups

/-- A list of names inside a longer one spells at most as many. -/
theorem length_namesOf_le {values names : List String}
    (h : ∀ a ∈ namesOf values, a ∈ names) : (namesOf values).length ≤ names.length :=
  ((nodup_eraseDups _).subperm h).length_le

variable {rules : ValueRules V} {doc : ConfigDocument V} {config : MonitorConfig V}
  {host : String}

/-- The names that a removal lists. -/
theorem Accepts.mem_namesOf_erase (h : Accepts doc config) {a : String} :
    a ∈ namesOf (config.hosts.erase host) ↔ a ∈ namesOf doc.hosts ∧ a ≠ host := by
  have hstrip : (config.hosts.erase host).map pyStrip = config.hosts.erase host := by
    conv_rhs => rw [← List.map_id (config.hosts.erase host)]
    exact List.map_congr_left fun a ha =>
      pyStrip_of_isSafeAlias (h.hosts_safe a (List.mem_of_mem_erase ha))
  rw [mem_namesOf, hstrip, h.nodup_hosts.mem_erase_iff, h.hosts_eq, and_comm]
  rfl

/-- The names that a removal excludes. -/
theorem mem_namesOf_excludeHosts (hsafe : isSafeAlias host = true) {a : String} :
    a ∈ namesOf (removeHost config doc host).excludeHosts
      ↔ a ∈ namesOf doc.excludeHosts ∨ config.autoDiscover = true ∧ a = host := by
  show a ∈ namesOf (if config.autoDiscover then (doc.excludeHosts ++ [host]).eraseDups
    else doc.excludeHosts) ↔ _
  split
  · next hauto =>
    simp only [mem_namesOf, List.mem_map, List.mem_eraseDups, List.mem_append,
      List.mem_singleton, hauto, true_and]
    constructor
    · rintro ⟨value, hvalue | rfl, rfl⟩
      · exact .inl ⟨value, hvalue, rfl⟩
      · exact .inr (pyStrip_of_isSafeAlias hsafe)
    · rintro (⟨value, hvalue, rfl⟩ | rfl)
      · exact ⟨value, .inl hvalue, rfl⟩
      · exact ⟨_, .inr rfl, pyStrip_of_isSafeAlias hsafe⟩
  · next hauto => simp [hauto]

/-- The other known hosts stay known. -/
theorem KnownHost.removeHost (h : Accepts doc config) (hsafe : isSafeAlias host = true)
    {name : String} (hknown : KnownHost doc name) (hne : name ≠ host) :
    KnownHost (removeHost config doc host) name where
  safe := hknown.safe
  listed := h.mem_namesOf_erase.mpr ⟨hknown.listed, hne⟩
  not_excluded := fun hmem => by
    rcases (mem_namesOf_excludeHosts hsafe).mp hmem with hold | ⟨_, heq⟩
    · exact hknown.not_excluded hold
    · exact hne heq

/-- A section without the host has entries of other hosts alone. -/
theorem mem_entries_erase {α : Type} {section_ : Dict String α} {entry : String × α}
    (h : entry ∈ (section_.erase host).entries) : entry ∈ section_.entries ∧ entry.1 ≠ host := by
  have hentry := List.mem_filter.mp h
  exact ⟨hentry.1, by simpa using hentry.2⟩

/-! ### Topology -/

/-- The topology that a removal leaves is a tree. -/
theorem removeTopologyHost_tree {topology left : TopologyDocument}
    (h : TreeDocument rules topology) (hleft : removeTopologyHost topology host = some left) :
    TreeDocument rules left := by
  unfold removeTopologyHost at hleft
  split at hleft
  · cases hleft
  · cases hleft
    have hsubperm := (@retainLinks_subperm _ _ _ TopologyLink.source
      TopologyLink.target (linksWithout host topology.links).length [topology.root]
      (linksWithout host topology.links)).trans (List.filter_sublist).subperm
    refine ⟨h.root_safe, hsubperm.length_le.trans h.bounded, fun link hlink =>
      h.links_ok link (hsubperm.subset hlink), ?_, fun link hlink => ?_⟩
    · obtain ⟨listed, hperm, hsublist⟩ := hsubperm
      exact (hperm.map _).nodup_iff.mp (h.one_parent.sublist (hsublist.map _))
    · obtain ⟨a, ha, hpath⟩ := reaches_retainLinks hlink
      rw [List.mem_singleton.mp ha] at hpath
      exact hpath

/-- A removal keeps the rest of the tree. -/
theorem removeHost_keepsSubTree (config : MonitorConfig V) (doc : ConfigDocument V)
    (host : String) : KeepsSubTree host doc (removeHost config doc host) where
  absent := fun h => by
    show doc.topology.bind _ = _
    rw [h]
    rfl
  root := fun topology h hroot => by
    show doc.topology.bind _ = _
    rw [h, Option.bind_some, removeTopologyHost, if_pos hroot]
  subTree := fun topology h hroot => by
    refine ⟨retainLinks TopologyLink.source TopologyLink.target
      (linksWithout host topology.links).length [topology.root] (linksWithout host topology.links),
      ?_, ?_, fun link => mem_retainLinks_iff⟩
    · show doc.topology.bind _ = _
      rw [h, Option.bind_some, removeTopologyHost, if_neg hroot]
      rfl
    · exact (retainLinks_subperm _ _ _).trans (List.filter_sublist).subperm

/-! ### Loading the written document -/

/-- Removing a host from a document that loads leaves a document that loads. -/
theorem Loadable.removeHost (h : Loadable rules doc) (haccepts : Accepts doc config)
    (hsafe : isSafeAlias host = true) (hroom : config.excludeHosts.length < configMaxHostAliases)
    (hspelled : LocalHostSpelled host doc) : Loadable rules (removeHost config doc host) where
  hosts_text := fun item hitem => by
    have hmem := List.mem_of_mem_erase hitem
    have hstripped := pyStrip_of_isSafeAlias (haccepts.hosts_safe item hmem)
    obtain ⟨value, hvalue, rfl⟩ := List.mem_map.mp (haccepts.mem_hosts.mp hmem)
    rw [hstripped]
    exact h.hosts_text value hvalue
  excludes_text := fun item hitem => by
    have hexcludes : item ∈ (if config.autoDiscover then (doc.excludeHosts ++ [host]).eraseDups
      else doc.excludeHosts) := hitem
    have hcases : item ∈ doc.excludeHosts ∨ item = host := by
      split at hexcludes
      · rwa [List.mem_eraseDups, List.mem_append, List.mem_singleton] at hexcludes
      · exact .inl hexcludes
    rcases hcases with hold | rfl
    · exact h.excludes_text item hold
    · rw [pyStrip_of_isSafeAlias hsafe]
      rintro rfl
      cases hsafe
  hosts_bounded := by
    refine (length_namesOf_le fun a ha => ?_).trans h.hosts_bounded
    exact (haccepts.mem_namesOf_erase.mp ha).1
  excludes_bounded := by
    have hlength : (namesOf doc.excludeHosts).length < configMaxHostAliases := by
      rwa [haccepts.excludes_eq] at hroom
    refine (@length_namesOf_le _ (host :: namesOf doc.excludeHosts) fun a ha => ?_).trans
      hlength
    rcases (mem_namesOf_excludeHosts hsafe).mp ha with hold | ⟨_, rfl⟩
    · exact List.mem_cons_of_mem _ hold
    · exact List.mem_cons_self
  names_safe := fun name hname => by
    rcases List.mem_append.mp hname with hlisted | hexcluded
    · exact h.names_safe name
        (List.mem_append_left _ (haccepts.mem_namesOf_erase.mp hlisted).1)
    · rcases (mem_namesOf_excludeHosts hsafe).mp hexcluded with hold | ⟨_, rfl⟩
      · exact h.names_safe name (List.mem_append_right _ hold)
      · exact hsafe
  localHost := fun value hvalue => by
    have hlocal : (if doc.localHost = some host then none else doc.localHost) = some value :=
      hvalue
    split at hlocal
    · cases hlocal
    · next hne =>
      refine (h.localHost value hlocal).removeHost haccepts hsafe fun heq => hne ?_
      rw [hlocal, hspelled value hlocal heq]
  topology := fun raw hraw => by
    have hbind : doc.topology.bind (fun topology => removeTopologyHost topology host)
        = some raw := hraw
    obtain ⟨topology, htopology, hleft⟩ := Option.bind_eq_some_iff.mp hbind
    exact removeTopologyHost_tree (h.topology topology htopology) hleft
  settings := h.settings
  expected := fun entry hentry => by
    obtain ⟨hmem, hne⟩ := mem_entries_erase hentry
    obtain ⟨hknown, hvalue⟩ := h.expected entry hmem
    exact ⟨hknown.removeHost haccepts hsafe hne, hvalue⟩
  overrides := fun entry hentry => by
    obtain ⟨hmem, hne⟩ := mem_entries_erase hentry
    obtain ⟨hknown, hvalue⟩ := h.overrides entry hmem
    exact ⟨hknown.removeHost haccepts hsafe hne, hvalue⟩
  windows := fun entry hentry => by
    obtain ⟨hmem, hne⟩ := mem_entries_erase hentry
    obtain ⟨hknown, hvalue⟩ := h.windows entry hmem
    exact ⟨hknown.removeHost haccepts hsafe hne, hvalue⟩
  groups := fun entry hentry => by
    obtain ⟨hmem, hne⟩ := mem_entries_erase hentry
    obtain ⟨hname, hlisted, hkept, hvalid⟩ := h.groups entry hmem
    refine ⟨hname, fun hmanual => haccepts.mem_namesOf_erase.mpr ⟨hlisted hmanual, hne⟩,
      fun hexcluded => ?_, hvalid⟩
    rcases (mem_namesOf_excludeHosts hsafe).mp hexcluded with hold | ⟨_, heq⟩
    · exact hkept hold
    · exact hne heq
  hostIncidents_bounded := (List.length_filter_le _ _).trans h.hostIncidents_bounded
  hostIncidents := fun entry hentry => by
    obtain ⟨hmem, hactive⟩ := List.mem_filter.mp hentry
    obtain ⟨hknown, hvalue⟩ := h.hostIncidents entry hmem
    simp only [Bool.and_eq_true, List.contains_iff_mem] at hactive
    have hlisted : entry.1 ∈ config.hosts.erase host := hactive.1
    exact ⟨hknown.removeHost haccepts hsafe (haccepts.nodup_hosts.mem_erase_iff.mp hlisted).1,
      hvalue⟩
  groupIncidents_bounded := (List.length_filter_le _ _).trans h.groupIncidents_bounded
  groupIncidents := fun entry hentry => by
    obtain ⟨hmem, hassigned⟩ := List.mem_filter.mp hentry
    obtain ⟨hvalid, hgroup, hvalue⟩ := h.groupIncidents entry hmem
    refine ⟨hvalid, ?_, hvalue⟩
    -- The override names a trimmed group, so the host that keeps it spells it trimmed.
    obtain ⟨group, _, hstrip⟩ := List.mem_map.mp hgroup
    rw [List.contains_iff_mem] at hassigned
    obtain ⟨kept, hkept, heq⟩ := List.mem_map.mp hassigned
    refine List.mem_map.mpr ⟨kept, (List.mem_filter.mp hkept).1, ?_⟩
    rw [heq, ← hstrip, pyStrip_pyStrip]
  actions_bounded := (List.length_filter_le _ _).trans h.actions_bounded
  actions := fun action haction => by
    obtain ⟨hmem, hne⟩ := List.mem_filter.mp haction
    obtain ⟨hknown, hkey, hkind, hreason, huntil, hstarted⟩ := h.actions action hmem
    exact ⟨hknown.removeHost haccepts hsafe (by simpa using hne), hkey, hkind, hreason, huntil,
      hstarted⟩
  actions_distinct := h.actions_distinct.sublist (List.filter_sublist.map _)

/-! ### What the removal forgets -/

/-- The document that a removal writes names the host only in its exclusions. -/
theorem Accepts.forgets_removeHost (h : Accepts doc config) (hspelled : LocalHostSpelled host doc) :
    Forgets host (removeHost config doc host) where
  hosts := fun hmem => (h.mem_namesOf_erase.mp hmem).2 rfl
  localHost := fun value hvalue heq => by
    have hlocal : (if doc.localHost = some host then none else doc.localHost) = some value :=
      hvalue
    split at hlocal
    · cases hlocal
    · next hne => exact hne (by rw [hlocal, hspelled value hlocal heq])
  root := fun topology htopology hroot => by
    have hbind : doc.topology.bind (fun topology => removeTopologyHost topology host)
        = some topology := htopology
    obtain ⟨raw, _, hleft⟩ := Option.bind_eq_some_iff.mp hbind
    unfold removeTopologyHost at hleft
    split at hleft
    · cases hleft
    · next hne =>
      cases hleft
      exact hne hroot
  links := fun link hlink => by
    cases htopology : (removeHost config doc host).topology with
    | none =>
      rw [ConfigDocument.links, htopology] at hlink
      cases hlink
    | some topology =>
      have hbind : doc.topology.bind (fun topology => removeTopologyHost topology host)
          = some topology := htopology
      obtain ⟨raw, _, hleft⟩ := Option.bind_eq_some_iff.mp hbind
      rw [ConfigDocument.links, htopology] at hlink
      unfold removeTopologyHost at hleft
      split at hleft
      · cases hleft
      · cases hleft
        have hkept := (List.mem_filter.mp (mem_of_mem_retainLinks hlink)).2
        simpa using hkept
  expectedGpuCounts := by
    show (doc.expectedGpuCounts.erase host).get? host = none
    simp
  hostOverrides := by
    show (doc.hostOverrides.erase host).get? host = none
    simp
  maintenanceWindows := by
    show (doc.maintenanceWindows.erase host).get? host = none
    simp
  hostGroups := by
    show (doc.hostGroups.erase host).get? host = none
    simp
  incidentOverrides := by
    show (doc.incidentOverrides.hosts.filterKeys _).get? host = none
    have hgone : host ∉ config.hosts.erase host := h.nodup_hosts.not_mem_erase
    rw [Dict.get?_filterKeys]
    simp [hgone]
  incidentActions := fun action haction => by
    have hne := (List.mem_filter.mp haction).2
    simpa using hne

/-- Whether the SSH configuration is discovered is as the document says. -/
theorem autoDiscover_of_loadConfig (h : loadConfig rules doc = .ok config) :
    config.autoDiscover = doc.autoDiscover := by
  obtain ⟨_, _, h⟩ := bind_eq_ok.mp h
  iterate 10 obtain ⟨_, _, h⟩ := bind_eq_ok.mp h
  cases h
  rfl

/-- A removed host is not active: it is not listed, and discovery excludes it. -/
theorem Accepts.not_mem_activeHosts {candidates : MonitorConfig V → List String}
    (hload : loadConfig rules doc = .ok config) (hsafe : isSafeAlias host = true)
    {left : MonitorConfig V} (hleft : loadConfig rules (removeHost config doc host) = .ok left) :
    host ∉ activeHosts candidates left := by
  have haccepts := loadConfig_accepts hload
  have hwritten := loadConfig_accepts hleft
  have hdiscover : left.autoDiscover = config.autoDiscover :=
    (autoDiscover_of_loadConfig hleft).trans (autoDiscover_of_loadConfig hload).symm
  intro hmem
  obtain ⟨hactive, hkept⟩ := List.mem_filter.mp hmem
  have hexcluded : host ∉ left.excludeHosts := by simpa using hkept
  have hlisted : host ∉ left.hosts := by
    rw [hwritten.hosts_eq]
    exact fun hin => (haccepts.mem_namesOf_erase.mp hin).2 rfl
  rcases List.mem_append.mp hactive with hin | hin
  · exact hlisted hin
  · split at hin
    · next hauto =>
      rw [hwritten.excludes_eq] at hexcluded
      exact hexcluded ((mem_namesOf_excludeHosts hsafe).mpr
        (.inr ⟨hdiscover ▸ hauto, rfl⟩))
    · cases hin

/-- An active host is a safe alias. -/
theorem isSafeAlias_of_active {candidates : MonitorConfig V → List String}
    {port : InventoryPort V} (hserves : Serves candidates port)
    (hload : loadConfig rules doc = .ok config) (hactive : host ∈ activeHosts candidates config) :
    isSafeAlias host = true := by
  rcases List.mem_append.mp (List.mem_filter.mp hactive).1 with hlisted | hin
  · exact (loadConfig_accepts hload).hosts_safe host hlisted
  · split at hin
    · exact hserves.candidates_safe config host hin
    · cases hin

/-- For an active host of an accepted document with room for one more exclusion, the dashboard
writes a document from which the host is cleanly removed exactly when the document does not
spell the local host with blanks around it, and the text without the host is not too long. -/
theorem change_removes_iff {candidates : MonitorConfig V → List String} {port : InventoryPort V}
    (hserves : Serves candidates port) (hload : loadConfig rules doc = .ok config)
    (hroom : config.excludeHosts.length < configMaxHostAliases)
    (hactive : host ∈ activeHosts candidates config) :
    (∃ written, change rules port .remove host doc = .ok written
        ∧ RemovedCleanly rules candidates host doc written)
      ↔ LocalHostSpelled host doc
        ∧ port.textLength (removeHost config doc host) ≤ configMaxBytes := by
  have haccepts := loadConfig_accepts hload
  have hsafe := isSafeAlias_of_active hserves hload hactive
  constructor
  · rintro ⟨written, hchange, hclean⟩
    have hserve : serve rules port (.change .remove host) doc = .ok (some written) := by
      show (change rules port .remove host doc >>= fun result => pure (some result)) = _
      rw [hchange]
      rfl
    obtain ⟨_, ⟨hsize, _⟩, loaded, hloaded, rfl, _, _⟩ := serve_cases hserve
    obtain rfl : loaded = config := Except.ok.inj (hloaded.symm.trans hload)
    refine ⟨fun value hvalue hstrip => ?_, hsize⟩
    by_contra hne
    -- The untrimmed local host survives the removal, and then refers to the host.
    have hlocal : (requested loaded doc (.change .remove host)).localHost = some value := by
      show (if doc.localHost = some host then none else doc.localHost) = some value
      rw [hvalue, if_neg fun heq => hne (Option.some.inj heq)]
    exact hclean.forgets.localHost value hlocal hstrip
  · rintro ⟨hspelled, hsize⟩
    have hloadable := (loadConfig_returns_iff.mp ⟨config, hload⟩).removeHost haccepts hsafe hroom
      hspelled
    obtain ⟨left, hleft⟩ := loadConfig_returns_iff.mpr hloadable
    refine ⟨removeHost config doc host, ?_, ⟨left, hleft,
      Accepts.not_mem_activeHosts hload hsafe hleft⟩, haccepts.forgets_removeHost hspelled,
      removeHost_keepsSubTree config doc host⟩
    obtain ⟨_, hsnapshot⟩ := hserves.snapshot left
    obtain ⟨_, hchanged⟩ := hserves.onConfigChanged left
    have hloads : load rules doc = .ok config := by rw [load, hload]
    have hcommit : commit rules port (removeHost config doc host)
        = .ok (removeHost config doc host) := by
      refine bind_eq_ok.mpr ⟨(), demand_eq_ok.mpr (decide_eq_true hsize), ?_⟩
      rw [hleft]
      exact bind_eq_ok.mpr ⟨_, hsnapshot, bind_eq_ok.mpr ⟨_, hchanged, rfl⟩⟩
    have hmember := List.contains_iff_mem.mpr hactive
    exact bind_eq_ok.mpr ⟨(), demand_eq_ok.mpr hsafe, bind_eq_ok.mpr ⟨(),
      demand_eq_ok.mpr hserves.writable, bind_eq_ok.mpr ⟨config, hloads, bind_eq_ok.mpr ⟨_,
        hserves.active config, bind_eq_ok.mpr ⟨(), demand_eq_ok.mpr hmember, hcommit⟩⟩⟩⟩⟩

end Removal

/-- A dashboard without SSH discovery. The text of its document without a host takes 299 bytes. -/
private def listedOnly : InventoryPort Unit where
  writable := true
  textLength := fun _ => 299
  eligibleAliases := fun _ => .ok []
  activeHosts := fun config => .ok (activeHosts (fun _ => []) config)
  snapshot := fun _ => .ok ()
  onConfigChanged := fun _ => .ok ()
  eligible_active := fun _ _ h _ ha => by
    cases h
    cases ha

/-- The callbacks return and discovery offers nothing. -/
private theorem listedOnly_serves : Serves (fun _ => []) listedOnly where
  writable := rfl
  candidates_safe := fun _ _ h => by cases h
  active := fun _ => rfl
  snapshot := fun _ => returns_ok ()
  onConfigChanged := fun _ => returns_ok ()

/-- Two listed hosts, the first of them local as spelled, with a link between them. -/
private def localDocument (spelled : String) : ConfigDocument Unit :=
  { ConfigDocument.listing ["gpu-01", "gpu-02"] with
    localHost := some spelled
    topology := some ⟨"gpu-01", [⟨"gpu-01", "gpu-02", "ssh", none⟩]⟩ }

/-- A local host spelled as it is listed can be removed. -/
theorem change_removes_local :
    LocalHostSpelled "gpu-01" (localDocument "gpu-01")
      ∧ ∃ written, change .lax listedOnly .remove "gpu-01" (localDocument "gpu-01")
          = .ok written
        ∧ RemovedCleanly .lax (fun _ => []) "gpu-01" (localDocument "gpu-01") written := by
  have hload : (match loadConfig .lax (localDocument "gpu-01") with
      | .ok config => decide (config.excludeHosts.length < configMaxHostAliases)
          && (activeHosts (fun _ => []) config).contains "gpu-01"
      | _ => false) = true := by
    decide +kernel
  split at hload
  · next config heq =>
    simp only [Bool.and_eq_true, decide_eq_true_eq, List.contains_iff_mem] at hload
    have hspelled : LocalHostSpelled "gpu-01" (localDocument "gpu-01") := fun value h _ => by
      cases h
      rfl
    exact ⟨hspelled,
      (change_removes_iff listedOnly_serves heq hload.1 hload.2).mpr
        ⟨hspelled, show 299 ≤ configMaxBytes by decide⟩⟩
  · cases hload

/-- A local host spelled with blanks around it is active, and its removal is refused: the
written document would not load. -/
theorem blank_local_host_stays :
    (∃ config, loadConfig .lax (localDocument " gpu-01 ") = .ok config
        ∧ config.excludeHosts.length < configMaxHostAliases
        ∧ "gpu-01" ∈ activeHosts (fun _ => []) config)
      ∧ ¬ ∃ written, change .lax listedOnly .remove "gpu-01" (localDocument " gpu-01 ")
        = .ok written := by
  constructor
  · have hload : (match loadConfig .lax (localDocument " gpu-01 ") with
        | .ok config => decide (config.excludeHosts.length < configMaxHostAliases)
            && (activeHosts (fun _ => []) config).contains "gpu-01"
        | _ => false) = true := by
      decide +kernel
    split at hload
    · next config heq =>
      simp only [Bool.and_eq_true, decide_eq_true_eq, List.contains_iff_mem] at hload
      exact ⟨config, heq, hload⟩
    · cases hload
  · rintro ⟨written, hchange⟩
    have hrefused : (match change .lax listedOnly .remove "gpu-01" (localDocument " gpu-01 ")
        with
        | .ok _ => false
        | .error _ => true) = true := by
      decide +kernel
    rw [hchange] at hrefused
    cases hrefused

end Mocop
