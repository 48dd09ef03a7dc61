import Mocop.Inventory.Installation
import Mocop.Inventory.Removal

/-!
# `Mocop.Inventory.Shown`: the values that the dashboard is shown

The sections of a document whose values the dashboard shows: the settings of the collector and
the maintenance windows. `InstallationPort.collecting` adds the checks of the collector to those
of the loader, and `loadInventory` loads a document with the values.

`loadInventory_shown` says what the values of a loaded document satisfy: names and keys without
repetitions, trimmed and bounded texts, settings within their bounds, a topology that is a tree
with trimmed labels.
-/

set_option autoImplicit false

namespace Mocop

/-! ### Settings -/

/-- A number within bounds. -/
def boundedNumber (data : Dict String Json) (key : String) (minimum maximum : ℤ) :
    Except ConfigError ℚ := do
  let value ← present ((data.get? key).bind Json.number?) (key ++ " must be a number")
  require (minimum ≤ value && value ≤ maximum)
    (key ++ " must be between " ++ toString minimum ++ " and " ++ toString maximum)
  return value

/-- A whole number within bounds. -/
def boundedInteger (data : Dict String Json) (key : String) (minimum maximum : ℤ) :
    Except ConfigError ℤ := do
  let value ← present ((data.get? key).bind Json.integer?) (key ++ " must be an integer")
  require (minimum ≤ value && value ≤ maximum)
    (key ++ " must be between " ++ toString minimum ++ " and " ++ toString maximum)
  return value

/-- The settings of the collector. -/
structure CollectorSettings where
  pollIntervalSeconds : ℚ
  probeTimeoutSeconds : ℚ
  connectTimeoutSeconds : ℤ
  maxWorkers : ℤ
  deriving DecidableEq

/-- Loads the settings of the collector. -/
def collectorSettings (data : Dict String Json) : Except ConfigError CollectorSettings := do
  let pollInterval ← boundedNumber data "poll_interval_seconds" 1 3600
  let probeTimeout ← boundedNumber data "probe_timeout_seconds" 2 300
  let connectTimeout ← boundedInteger data "connect_timeout_seconds" 1 120
  let maxWorkers ← boundedInteger data "max_workers" 1 64
  require (connectTimeout < probeTimeout)
    "probe_timeout_seconds must be greater than connect_timeout_seconds"
  return ⟨pollInterval, probeTimeout, connectTimeout, maxWorkers⟩

/-- The checks of the settings, with those of the collector. -/
def InstallationPort.collecting (port : InstallationPort) : InstallationPort :=
  { port with
    settings := fun data => do
      let _ ← collectorSettings data
      port.settings data }

/-! ### The loaded values -/

/-- A loaded document with the values that the dashboard shows. -/
structure InventoryConfig where
  config : MonitorConfig Json
  sshConfig : String
  sshDiscovery : SshDiscoveryConfig
  collector : CollectorSettings
  maintenanceWindows : List (String × MaintenanceWindowConfig)

/-- Loads a document with the values that the dashboard shows. -/
def loadInventory (port : InstallationPort) (path : String) (doc : InstallationDocument) :
    Except ConfigError InventoryConfig := do
  let loaded ← parseConfig port.collecting path doc
  let collector ← collectorSettings loaded.settings
  let windows ← loaded.inventory.maintenanceWindows.mapM fun entry => do
    let window ← maintenanceWindow port.text entry.1 entry.2
    return (entry.1, window)
  return ⟨loaded.inventory, loaded.sshConfig, loaded.sshDiscovery, collector, windows⟩

section Loaded

variable {port : InstallationPort} {path : String} {doc : InstallationDocument}
  {loaded : InventoryConfig}

/-- A loaded configuration is the one of its document, and the document satisfies the rules. -/
theorem parseConfig_loaded {config : InstallationConfig}
    (h : parseConfig port path doc = .ok config) :
    Loadable (documentRules port) doc.inventory ∧ config.inventory = doc.inventory.loaded
      ∧ config.settings = doc.inventory.rest := by
  obtain ⟨-, -, ⟨hloadable, hloaded⟩, -, hsettings⟩ := parseConfig_eq_ok_iff.mp h
  exact ⟨hloadable, hloaded, hsettings⟩

/-! ### What a loaded document satisfies -/

/-- A mapped section whose steps keep the names. -/
theorem map_fst_of_mapM {ε α β : Type} {f : String × α → Except ε (String × β)}
    {l : List (String × α)} {r : List (String × β)} (h : l.mapM f = .ok r)
    (hname : ∀ entry shown, f entry = .ok shown → shown.1 = entry.1) :
    r.map Prod.fst = l.map Prod.fst := by
  have hall := mapM_eq_ok_iff.mp h
  clear h
  induction hall with
  | nil => rfl
  | cons hhead _ ih => rw [List.map_cons, List.map_cons, ih, hname _ _ hhead]

/-- A shown text: trimmed, bounded, and without a character of the category `C`. -/
structure ShownText (isOther : Char → Bool) (limit : ℕ) (value : String) : Prop where
  trimmed : pyStrip value = value
  bounded : value.length ≤ limit
  visible : ∀ c ∈ value.toList, isOther c = false

/-- Trimming adds no character. -/
theorem mem_of_mem_pyStrip {value : String} {c : Char} (h : c ∈ (pyStrip value).toList) :
    c ∈ value.toList := by
  rw [pyStrip, String.toList_ofList, List.mem_reverse] at h
  have hfirst := (List.dropWhile_suffix isPySpace).subset h
  rw [List.mem_reverse] at hfirst
  exact (List.dropWhile_suffix isPySpace).subset hfirst

/-- A checked text is shown as it is trimmed. -/
theorem shownText_pyStrip {isOther : Char → Bool} {limit : ℕ} {value : String}
    (hbounded : (pyStrip value).length ≤ limit)
    (hvisible : ∀ c ∈ value.toList, isOther c = false) :
    ShownText isOther limit (pyStrip value) where
  trimmed := pyStrip_pyStrip value
  bounded := hbounded
  visible := fun c hc => hvisible c (mem_of_mem_pyStrip hc)

/-- A tree of links with trimmed labels. -/
structure ShownTree {V : Type} (rules : ValueRules V) (topology : TopologyDocument) : Prop where
  tree : TreeDocument rules topology
  trimmed : ∀ link ∈ topology.links, link.label.map pyStrip = link.label

/-- The values of a loaded document. -/
structure Shown (port : InstallationPort) (loaded : InventoryConfig) : Prop where
  hosts_safe : ∀ name ∈ loaded.config.hosts, isSafeAlias name = true
  hosts_nodup : loaded.config.hosts.Nodup
  localHost : ∀ name, loaded.config.localHost = some name → isSafeAlias name = true
  groups_nodup : (loaded.config.hostGroups.map Prod.fst).Nodup
  groups : ∀ entry ∈ loaded.config.hostGroups,
    entry.2 ≠ "" ∧ ShownText port.text.isOther hostGroupMaxLength entry.2
  windows_nodup : (loaded.maintenanceWindows.map Prod.fst).Nodup
  windows_listed : ∀ entry ∈ loaded.maintenanceWindows, entry.1 ∈ loaded.config.hosts
  windows_reason : ∀ entry ∈ loaded.maintenanceWindows,
    ShownText port.text.isOther maintenanceReasonMaxLength entry.2.reason
  pollInterval : 1 ≤ loaded.collector.pollIntervalSeconds
    ∧ loaded.collector.pollIntervalSeconds ≤ 3600
  probeTimeout : 2 ≤ loaded.collector.probeTimeoutSeconds
    ∧ loaded.collector.probeTimeoutSeconds ≤ 300
  connectTimeout : 1 ≤ loaded.collector.connectTimeoutSeconds
    ∧ loaded.collector.connectTimeoutSeconds ≤ 120
  maxWorkers : 1 ≤ loaded.collector.maxWorkers ∧ loaded.collector.maxWorkers ≤ 64
  topology : ∀ topology, loaded.config.topology = some topology →
    ShownTree (documentRules port.collecting) topology

/-- Trimming the labels keeps a tree. -/
theorem TreeDocument.trimmed {V : Type} {rules : ValueRules V} {raw : TopologyDocument}
    (h : TreeDocument rules raw) : TreeDocument rules raw.loaded where
  root_safe := h.root_safe
  bounded := by
    rw [TopologyDocument.loaded, List.length_map]
    exact h.bounded
  links_ok := fun link hlink => by
    obtain ⟨link, hraw, rfl⟩ := List.mem_map.mp hlink
    have hok := h.links_ok link hraw
    refine ⟨hok.source_safe, hok.target_safe, hok.no_self, hok.no_root, hok.transport,
      fun label hlabel => ?_⟩
    obtain ⟨spelled, hspelled, rfl⟩ := Option.map_eq_some_iff.mp hlabel
    obtain ⟨hne, hbounded, hvisible⟩ := hok.label spelled hspelled
    unfold LabelOk
    rw [pyStrip_pyStrip]
    exact ⟨hne, hbounded, fun c hc => hvisible c (mem_of_mem_pyStrip hc)⟩
  one_parent := by
    rw [TopologyDocument.loaded, List.map_map]
    exact h.one_parent
  reached := fun link hlink => by
    obtain ⟨link, hraw, rfl⟩ := List.mem_map.mp hlink
    have hends : (raw.links.map trimLabel).map (fun link => (link.source, link.target))
        = raw.links.map fun link => (link.source, link.target) := by
      rw [List.map_map]
      rfl
    show Reaches TopologyLink.source TopologyLink.target (raw.links.map trimLabel) raw.root _
    rw [reaches_congr hends]
    exact h.reached link hraw

/-- A number within bounds. -/
theorem boundedNumber_bounds {data : Dict String Json} {key : String} {minimum maximum : ℤ}
    {value : ℚ} (h : boundedNumber data key minimum maximum = .ok value) :
    minimum ≤ value ∧ value ≤ maximum := by
  obtain ⟨read, -, h⟩ := bind_eq_ok.mp h
  obtain ⟨_, hbounds, h⟩ := bind_eq_ok.mp h
  obtain rfl := Except.ok.inj h
  rw [require_eq_ok, Bool.and_eq_true, decide_eq_true_eq, decide_eq_true_eq] at hbounds
  exact hbounds

/-- A whole number within bounds. -/
theorem boundedInteger_bounds {data : Dict String Json} {key : String} {minimum maximum value : ℤ}
    (h : boundedInteger data key minimum maximum = .ok value) :
    minimum ≤ value ∧ value ≤ maximum := by
  obtain ⟨read, -, h⟩ := bind_eq_ok.mp h
  obtain ⟨_, hbounds, h⟩ := bind_eq_ok.mp h
  obtain rfl := Except.ok.inj h
  rw [require_eq_ok, Bool.and_eq_true, decide_eq_true_eq, decide_eq_true_eq] at hbounds
  exact hbounds

/-- A loaded window has a shown reason. -/
theorem maintenanceWindow_reason {name : String} {raw : Json} {window : MaintenanceWindowConfig}
    (h : maintenanceWindow port.text name raw = .ok window) :
    ShownText port.text.isOther maintenanceReasonMaxLength window.reason := by
  obtain ⟨members, -, h⟩ := bind_eq_ok.mp h
  obtain ⟨_, -, h⟩ := bind_eq_ok.mp h
  obtain ⟨reason, hreason, h⟩ := bind_eq_ok.mp h
  obtain ⟨_, -, h⟩ := bind_eq_ok.mp h
  have hwindow : window.reason = pyStrip reason := by
    cases hrecurs : members.lookup "recurrence" with
    | none =>
      simp only [hrecurs] at h
      obtain ⟨until_, -, h⟩ := bind_eq_ok.mp h
      rw [← Except.ok.inj h]
    | some value =>
      simp only [hrecurs] at h
      obtain ⟨schedule, -, h⟩ := bind_eq_ok.mp h
      rw [← Except.ok.inj h]
  rw [hwindow]
  rw [present_eq_ok, Option.filter_eq_some_iff] at hreason
  have hvalid := hreason.2
  simp only [isValidMaintenanceReason, isDisallowed, Bool.and_eq_true, decide_eq_true_eq,
    Bool.not_eq_true', List.any_eq_false, Bool.or_eq_true, not_or, Bool.not_eq_true] at hvalid
  exact shownText_pyStrip hvalid.1 fun c hc => (hvalid.2 c hc).1.1

/-- What a loaded document satisfies. -/
theorem loadInventory_shown (h : loadInventory port path doc = .ok loaded) :
    Shown port loaded := by
  obtain ⟨config, hconfig, h⟩ := bind_eq_ok.mp h
  obtain ⟨collector, hcollector, h⟩ := bind_eq_ok.mp h
  obtain ⟨windows, hwindows, h⟩ := bind_eq_ok.mp h
  obtain rfl := Except.ok.inj h
  obtain ⟨hloadable, hinventory, -⟩ := parseConfig_loaded hconfig
  rw [hinventory] at hwindows ⊢
  obtain ⟨poll, hpoll, hcollector⟩ := bind_eq_ok.mp hcollector
  obtain ⟨probe, hprobe, hcollector⟩ := bind_eq_ok.mp hcollector
  obtain ⟨connect, hconnect, hcollector⟩ := bind_eq_ok.mp hcollector
  obtain ⟨workers, hworkers, hcollector⟩ := bind_eq_ok.mp hcollector
  obtain ⟨_, -, hcollector⟩ := bind_eq_ok.mp hcollector
  obtain rfl := Except.ok.inj hcollector
  -- A loaded window is one of the document, under its name.
  have hread : ∀ shown ∈ windows, ∃ raw, (shown.1, raw) ∈ doc.inventory.maintenanceWindows.entries
      ∧ maintenanceWindow port.text shown.1 raw = .ok shown.2 := by
    intro shown hshown
    obtain ⟨entry, hentry, hloaded⟩ := exists_of_mem_mapM hwindows hshown
    obtain ⟨window, hwindow, hloaded⟩ := bind_eq_ok.mp hloaded
    obtain rfl := Except.ok.inj hloaded
    exact ⟨entry.2, hentry, hwindow⟩
  have hnames := map_fst_of_mapM hwindows fun entry shown hshown => by
    obtain ⟨window, -, hshown⟩ := bind_eq_ok.mp hshown
    rw [← Except.ok.inj hshown]
  exact
    { hosts_safe := fun name hname => hloadable.names_safe name (List.mem_append_left _ hname)
      hosts_nodup := nodup_eraseDups _
      localHost := fun name hname => by
        obtain ⟨value, hvalue, rfl⟩ := Option.map_eq_some_iff.mp hname
        exact (hloadable.localHost value hvalue).safe
      groups_nodup := by
        show ((doc.inventory.hostGroups.entries.map fun entry => (entry.1, pyStrip entry.2)).map
          Prod.fst).Nodup
        rw [List.map_map]
        exact doc.inventory.hostGroups.nodup
      groups := fun entry hentry => by
        obtain ⟨spelled, hspelled, rfl⟩ := List.mem_map.mp hentry
        have hvalid := (hloadable.groups spelled hspelled).2.2.2
        simp only [isValidHostGroup, Bool.and_eq_true, decide_eq_true_eq, Bool.or_eq_true,
          Bool.not_eq_true', List.any_eq_false, Bool.not_eq_true, ne_eq,
          Bool.true_eq_false, or_false] at hvalid
        exact ⟨hvalid.1.1, shownText_pyStrip hvalid.1.2 hvalid.2⟩
      windows_nodup := by
        rw [hnames]
        exact doc.inventory.maintenanceWindows.nodup
      windows_listed := fun shown hshown => by
        obtain ⟨raw, hentry, -⟩ := hread shown hshown
        exact (hloadable.windows _ hentry).1.listed
      windows_reason := fun shown hshown => by
        obtain ⟨raw, -, hwindow⟩ := hread shown hshown
        exact maintenanceWindow_reason hwindow
      pollInterval := by simpa using boundedNumber_bounds hpoll
      probeTimeout := by simpa using boundedNumber_bounds hprobe
      connectTimeout := boundedInteger_bounds hconnect
      maxWorkers := boundedInteger_bounds hworkers
      topology := fun topology htopology => by
        obtain ⟨raw, hraw, rfl⟩ := Option.map_eq_some_iff.mp htopology
        refine ⟨(hloadable.topology raw hraw).trimmed, fun link hlink => ?_⟩
        obtain ⟨spelled, -, rfl⟩ := List.mem_map.mp hlink
        unfold trimLabel
        cases spelled.label with
        | none => rfl
        | some label =>
          show some (pyStrip (pyStrip label)) = some (pyStrip label)
          rw [pyStrip_pyStrip] }

end Loaded

end Mocop
