import Mocop.Dashboard.ApiContracts

/-!
# `Mocop.Dashboard.ContractAcceptance`: the dashboard accepts what the service publishes

The loader and the discovery on one side and the contracts of the dashboard on the other bound
the same answers in two languages. `normalizeInventory_snapshot` and `normalizeTopology_snapshot`
say that the contracts accept every answer, and that nothing the answers carry is lost: whatever
document is loaded, and whatever the discovery found after any number of calls.

Both sides use the same Unicode categories: the printable ASCII characters are visible, and the
byte order mark is not.
-/

set_option autoImplicit false

namespace Mocop.ApiContracts

section Accepted

variable {rules : BrowserRules} {port : InstallationPort} {loaded : InventoryConfig}
  {discovery : HostDiscoverySnapshot} {now : ℚ}

/-! ### Texts -/

/-- A shown text is accepted. -/
theorem isShownText_of {limit : ℕ} {value : String} (hne : value ≠ "")
    (h : ShownText rules.isOther limit value) (hmark : rules.isOther '\uFEFF' = true) :
    isShownText rules limit value = true := by
  have hnomark : '\uFEFF' ∉ value.toList := by
    intro hmem
    rw [h.visible _ hmem] at hmark
    cases hmark
  have hany : value.toList.any rules.isOther = false :=
    List.any_eq_false.mpr fun c hc => by rw [h.visible c hc]; exact Bool.false_ne_true
  simp only [isShownText, Bool.and_eq_true, decide_eq_true_eq, Bool.not_eq_true', hany, and_true,
    ne_eq]
  exact ⟨⟨hne, (jsTrim_eq_self h.trimmed hnomark).symm⟩, h.bounded⟩

/-! ### The parts of an inventory -/

/-- The settings are accepted as they are. -/
theorem normalizeCollectorSettings_ok (h : Shown port loaded) :
    normalizeCollectorSettings (some loaded.collector.toDict)
      = .ok ⟨loaded.collector.pollIntervalSeconds, loaded.collector.probeTimeoutSeconds,
          loaded.collector.connectTimeoutSeconds, loaded.collector.maxWorkers⟩ := by
  have hpoll := h.pollInterval
  have hprobe := h.probeTimeout
  have hconnect : (0 : ℚ) < loaded.collector.connectTimeoutSeconds
      ∧ (loaded.collector.connectTimeoutSeconds : ℚ) ≤ 300 := by
    have hbounds := h.connectTimeout
    constructor
    · exact_mod_cast (by omega : 0 < loaded.collector.connectTimeoutSeconds)
    · exact_mod_cast (by omega : loaded.collector.connectTimeoutSeconds ≤ 300)
  have hworkers := h.maxWorkers
  refine bind_eq_ok.mpr ⟨_, present_eq_ok.mpr rfl, ?_⟩
  refine bind_eq_ok.mpr ⟨_, present_eq_ok.mpr (Option.filter_eq_some_iff.mpr
    ⟨rfl, by simpa using hpoll⟩), ?_⟩
  refine bind_eq_ok.mpr ⟨_, present_eq_ok.mpr (Option.filter_eq_some_iff.mpr
    ⟨rfl, by simpa using hprobe⟩), ?_⟩
  refine bind_eq_ok.mpr ⟨_, present_eq_ok.mpr (Option.filter_eq_some_iff.mpr
    ⟨rfl, by simpa using hconnect⟩), ?_⟩
  refine bind_eq_ok.mpr ⟨_, present_eq_ok.mpr (Option.filter_eq_some_iff.mpr
    ⟨safeInteger_integer (by omega), by simpa using hworkers⟩), rfl⟩

/-- The groups of configured hosts are accepted and kept. -/
theorem normalizeHostGroups_ok {groups : List (String × String)} {configured : List String}
    (hnodup : (groups.map Prod.fst).Nodup) (hconfigured : ∀ entry ∈ groups, entry.1 ∈ configured)
    (hshown : ∀ entry ∈ groups, isShownText rules 48 entry.2 = true) :
    ∃ table, normalizeHostGroups rules
        (some (.object (groups.map fun entry => (entry.1, .string entry.2)))) configured = .ok table
      ∧ ∀ host group, table.get? host = some group ↔ (host, group) ∈ groups := by
  obtain ⟨table, htable, hget⟩ := @foldlM_objectEntries String Json String
    (addHostGroup rules configured) Json.string id groups (fun table entry hentry => by
      have hlisted : configured.contains entry.1 = true :=
        List.contains_iff_mem.mpr (hconfigured entry hentry)
      refine bind_eq_ok.mpr ⟨(), require_eq_ok.mpr hlisted, ?_⟩
      exact bind_eq_ok.mpr ⟨entry.2, present_eq_ok.mpr (Option.filter_eq_some_iff.mpr
        ⟨rfl, hshown entry hentry⟩), rfl⟩) hnodup
  refine ⟨table, bind_eq_ok.mpr ⟨_, present_eq_ok.mpr rfl, htable⟩, fun host group => ?_⟩
  rw [hget]
  constructor
  · rintro ⟨group, hmem, rfl⟩
    exact hmem
  · intro hmem
    exact ⟨group, hmem, rfl⟩

/-- What the dashboard reads of a window with this end. -/
def windowShown (now : ℚ) (dated : MaintenanceWindowConfig × String) : WindowView where
  until_ := dated.2
  reason := dated.1.reason
  recurring := (dated.1.toDict now).cadenceText.isSome
  cadence := (dated.1.toDict now).cadenceText
  active := dated.1.isActive now

/-- The members of a window with this end. -/
def windowMembers (now : ℚ) (dated : MaintenanceWindowConfig × String) : Json :=
  .object (([("until", .string dated.2), ("reason", .string dated.1.reason)]
    ++ match (dated.1.toDict now).cadenceText with
      | some cadence => [("recurring", .bool true), ("cadence", .string cadence)]
      | none => [])
    ++ [("active", .bool (dated.1.isActive now))])

/-- A window is accepted and kept. -/
theorem windowView_ok {dated : MaintenanceWindowConfig × String}
    (hreason : ShownText rules.isOther maintenanceReasonMaxLength dated.1.reason)
    (hend : ∃ instant : Instant, dated.2 = instant.isoformat) :
    windowView rules (windowMembers now dated) = .ok (windowShown now dated) := by
  obtain ⟨instant, hinstant⟩ := hend
  have hparsed : (rules.dateParse dated.2).isSome = true := by
    rw [hinstant, rules.dateParse_isoformat]
    rfl
  have hvisible : dated.1.reason.toList.any rules.isOther = false :=
    List.any_eq_false.mpr fun c hc => by rw [hreason.visible c hc]; exact Bool.false_ne_true
  have hshown : (decide (dated.1.reason.length ≤ 120)
      && !dated.1.reason.toList.any rules.isOther) = true := by
    rw [hvisible, Bool.not_false, Bool.and_true, decide_eq_true_eq]
    exact hreason.bounded
  have hcadence : ∀ cadence, (dated.1.toDict now).cadenceText = some cadence →
      ["weekly", "daily"].contains cadence = true := by
    intro cadence hsome
    obtain ⟨spelled, -, rfl⟩ := Option.map_eq_some_iff.mp hsome
    exact List.contains_iff_mem.mpr spelled.spelled_mem
  have hreasoned : (some dated.1.reason).filter (fun text => decide (text.length ≤ 120)
      && !text.toList.any rules.isOther) = some dated.1.reason :=
    Option.filter_eq_some_iff.mpr ⟨rfl, hshown⟩
  unfold windowMembers windowShown
  cases hcases : (dated.1.toDict now).cadenceText with
  | none =>
    refine bind_eq_ok.mpr ⟨_, present_eq_ok.mpr rfl, ?_⟩
    refine bind_eq_ok.mpr ⟨(), require_eq_ok.mpr (by simp [List.lookup_cons]), ?_⟩
    refine bind_eq_ok.mpr ⟨(), require_eq_ok.mpr (by simp [List.lookup_cons]), ?_⟩
    refine bind_eq_ok.mpr ⟨(), require_eq_ok.mpr (by simp [List.lookup_cons]), ?_⟩
    refine bind_eq_ok.mpr ⟨dated.1.isActive now, present_eq_ok.mpr
      (by simp [List.lookup_cons, Json.bool?]), ?_⟩
    refine bind_eq_ok.mpr ⟨dated.2, present_eq_ok.mpr
      (by simpa [List.lookup_cons, Json.string?] using hparsed), ?_⟩
    refine bind_eq_ok.mpr ⟨dated.1.reason, present_eq_ok.mpr
      (by simpa [List.lookup_cons, Json.string?] using hreasoned), ?_⟩
    simp [List.lookup_cons, pure, Except.pure]
  | some cadence =>
    have hknown := hcadence cadence hcases
    refine bind_eq_ok.mpr ⟨_, present_eq_ok.mpr rfl, ?_⟩
    refine bind_eq_ok.mpr ⟨(), require_eq_ok.mpr (by simp [List.lookup_cons]), ?_⟩
    refine bind_eq_ok.mpr ⟨(), require_eq_ok.mpr
      (by simp [List.lookup_cons, Json.bool?]), ?_⟩
    refine bind_eq_ok.mpr ⟨(), require_eq_ok.mpr
      (by simpa [List.lookup_cons, Json.bool?, Json.string?] using hknown), ?_⟩
    refine bind_eq_ok.mpr ⟨dated.1.isActive now, present_eq_ok.mpr
      (by simp [List.lookup_cons, Json.bool?]), ?_⟩
    refine bind_eq_ok.mpr ⟨dated.2, present_eq_ok.mpr
      (by simpa [List.lookup_cons, Json.string?] using hparsed), ?_⟩
    refine bind_eq_ok.mpr ⟨dated.1.reason, present_eq_ok.mpr
      (by simpa [List.lookup_cons, Json.string?] using hreasoned), ?_⟩
    simp [List.lookup_cons, Json.bool?, Json.string?, pure, Except.pure]

/-- A list that is mapped in full is mapped by any function with the same values. -/
theorem eq_map_of_mapM {α β : Type} {f : α → Option β} {value : α → β} {l : List α} {r : List β}
    (h : l.mapM f = some r) (hvalue : ∀ x b, f x = some b → b = value x) :
    r = l.map value ∧ ∀ x ∈ l, (f x).isSome = true := by
  induction l generalizing r with
  | nil =>
    rw [List.mapM_nil] at h
    exact ⟨(Option.some.inj h).symm, fun x hx => by cases hx⟩
  | cons x rest ih =>
    rw [List.mapM_cons] at h
    obtain ⟨b, hb, h⟩ := Option.bind_eq_some_iff.mp h
    obtain ⟨tail, htail, h⟩ := Option.bind_eq_some_iff.mp h
    obtain rfl := Option.some.inj h
    obtain ⟨rfl, hall⟩ := ih htail
    refine ⟨by rw [List.map_cons, hvalue x b hb], fun y hy => ?_⟩
    rcases List.mem_cons.mp hy with rfl | hmem
    · rw [hb]
      rfl
    · exact hall y hmem

/-- The windows are accepted and kept. -/
theorem normalizeMaintenanceWindows_ok {windows : List (String × Json)} (h : Shown port loaded)
    (hsame : rules.isOther = port.text.isOther)
    (hwindows : loaded.maintenanceWindows.mapM (windowEntry now) = some windows) :
    ∃ table, normalizeMaintenanceWindows rules (some (.object windows)) loaded.config.hosts
        = .ok table
      ∧ ∀ host view, table.get? host = some view ↔ ∃ window, (host, window)
          ∈ loaded.maintenanceWindows ∧ utcText (window.toDict now).until_ = some view.until_
          ∧ view = windowShown now (window, view.until_) := by
  have hdated := @eq_map_of_mapM _ _ (windowEntry now)
    (fun entry => (entry.1, windowMembers now (entry.2, (utcText (entry.2.toDict now).until_).getD "")))
    _ _ hwindows fun entry result hresult => by
      obtain ⟨members, hmembers, hresult⟩ := Option.bind_eq_some_iff.mp hresult
      obtain ⟨until_, huntil, hmembers⟩ := Option.bind_eq_some_iff.mp hmembers
      obtain rfl := Option.some.inj hresult
      obtain rfl := Option.some.inj hmembers
      rw [huntil, MaintenanceWindowConfig.reason_toDict]
      rfl
  obtain ⟨rfl, hsome⟩ := hdated
  have hend : ∀ entry ∈ loaded.maintenanceWindows, ∃ instant : Instant,
      utcText (entry.2.toDict now).until_ = some instant.isoformat := by
    intro entry hentry
    obtain ⟨result, hresult⟩ := Option.isSome_iff_exists.mp (hsome entry hentry)
    obtain ⟨members, hmembers, -⟩ := Option.bind_eq_some_iff.mp hresult
    obtain ⟨until_, huntil, -⟩ := Option.bind_eq_some_iff.mp hmembers
    obtain ⟨instant, -, rfl⟩ := Option.map_eq_some_iff.mp huntil
    exact ⟨instant, huntil⟩
  obtain ⟨table, htable, hget⟩ := @foldlM_objectEntries MaintenanceWindowConfig Json WindowView
    (addWindow rules loaded.config.hosts)
    (fun window => windowMembers now (window, (utcText (window.toDict now).until_).getD ""))
    (fun window => windowShown now (window, (utcText (window.toDict now).until_).getD ""))
    loaded.maintenanceWindows (fun table entry hentry => by
      have hlisted : loaded.config.hosts.contains entry.1 = true :=
        List.contains_iff_mem.mpr (h.windows_listed entry hentry)
      obtain ⟨instant, hinstant⟩ := hend entry hentry
      have hreason := h.windows_reason entry hentry
      rw [← hsame] at hreason
      refine bind_eq_ok.mpr ⟨(), require_eq_ok.mpr hlisted, ?_⟩
      exact bind_eq_ok.mpr ⟨_, windowView_ok hreason ⟨instant, by rw [hinstant]; rfl⟩, rfl⟩)
    h.windows_nodup
  refine ⟨table, bind_eq_ok.mpr ⟨_, present_eq_ok.mpr rfl, htable⟩, fun host view => ?_⟩
  rw [hget]
  constructor
  · rintro ⟨window, hmem, rfl⟩
    obtain ⟨instant, hinstant⟩ := hend _ hmem
    refine ⟨window, hmem, ?_, ?_⟩
    · show _ = some ((utcText (window.toDict now).until_).getD "")
      rw [hinstant]
      rfl
    · rfl
  · rintro ⟨window, hmem, huntil, hview⟩
    refine ⟨window, hmem, ?_⟩
    rw [hview, huntil]
    rfl

/-! ### The inventory -/

/-- What the dashboard reads of an inventory: all that the answer carries. -/
structure ReadsInventory (loaded : InventoryConfig) (discovery : HostDiscoverySnapshot) (now : ℚ)
    (writable : Bool) (view : InventoryView) : Prop where
  configuredHosts : view.configuredHosts = loaded.config.hosts
  activeHosts : view.activeHosts = discovery.hosts
  availableHosts : view.availableHosts = discovery.available
  infrastructureHosts : view.infrastructureHosts = discovery.infrastructureHosts
  localHost : view.localHost = some ((loaded.config.localHost.map Json.string).getD .null)
  autoDiscover : view.autoDiscover = loaded.config.autoDiscover
  writable : view.writable = writable
  mode : view.sshDiscoveryMode = discovery.mode.spelled
  ignored : view.ignoredCodeHostCount = discovery.aliases.countP isCodeHostAlias
  excluded : view.excludedHostCount = discovery.aliases.countP fun name =>
    loaded.config.excludeHosts.contains name && !isCodeHostAlias name
  collector : view.collectorSettings = ⟨loaded.collector.pollIntervalSeconds,
    loaded.collector.probeTimeoutSeconds, loaded.collector.connectTimeoutSeconds,
    loaded.collector.maxWorkers⟩
  groups : ∀ host group, view.hostGroups.get? host = some group
    ↔ (host, group) ∈ listedGroups loaded discovery
  windows : ∀ host shown, view.maintenanceWindows.get? host = some shown
    ↔ ∃ window, (host, window) ∈ loaded.maintenanceWindows
      ∧ utcText (window.toDict now).until_ = some shown.until_
      ∧ shown = windowShown now (window, shown.until_)

/-- A count of bounded aliases is a safe integer. -/
theorem safeInteger_count {aliases : List String} (p : String → Bool)
    (h : aliases.length ≤ configMaxHostAliases) :
    safeInteger (some (.integer (aliases.countP p))) = some (aliases.countP p : ℤ) := by
  have hle := (List.countP_le_length (p := p) (l := aliases)).trans h
  unfold configMaxHostAliases at hle
  exact safeInteger_integer (by omega)

/-- The answer about an inventory that can be shown is accepted. -/
theorem normalizeInventory_ok {writable : Bool} {payload : Json} (hshown : Shown port loaded)
    (hsnapshot : Found port discovery) (hsame : rules.isOther = port.text.isOther)
    (hmark : port.text.isOther '\uFEFF' = true)
    (hpayload : inventorySnapshot port.text loaded discovery now writable = some payload) :
    ∃ view, normalizeInventory rules payload = .ok view
      ∧ ReadsInventory loaded discovery now writable view := by
  obtain ⟨windows, hwindows, hpayload⟩ := Option.bind_eq_some_iff.mp hpayload
  obtain ⟨actions, -, hpayload⟩ := Option.bind_eq_some_iff.mp hpayload
  obtain rfl := Option.some.inj hpayload
  obtain ⟨windowTable, hwindowTable, hwindowReads⟩ :=
    normalizeMaintenanceWindows_ok hshown hsame hwindows
  obtain ⟨groupTable, hgroupTable, hgroupReads⟩ := @normalizeHostGroups_ok rules
    (listedGroups loaded discovery) loaded.config.hosts
    (hsnapshot.groups_nodup.sublist (List.filter_sublist.map _))
    (fun entry hentry => by simpa using (List.mem_filter.mp hentry).2)
    (fun entry hentry => by
      obtain ⟨hne, hgroup⟩ := hsnapshot.groups entry (List.mem_of_mem_filter hentry)
      rw [← hsame] at hgroup hmark
      exact isShownText_of hne hgroup hmark)
  have hconfigured := safeStoredHosts_strings hshown.hosts_safe hshown.hosts_nodup
  have hactive := safeStoredHosts_strings hsnapshot.hosts_safe hsnapshot.hosts_nodup
  have havailable : safeStoredHosts (some (Json.strings discovery.available))
      = discovery.available :=
    safeStoredHosts_strings (fun name hname =>
      hsnapshot.eligible_safe name (List.mem_of_mem_filter hname))
      (hsnapshot.eligible_nodup.filter _)
  have hinfrastructure :=
    safeStoredHosts_strings hsnapshot.infrastructure_safe hsnapshot.infrastructure_nodup
  have hlocal : (Json.isNullish (some ((loaded.config.localHost.map Json.string).getD .null))
      || (storedHost (some ((loaded.config.localHost.map Json.string).getD .null))).isSome)
        = true := by
    cases hname : loaded.config.localHost with
    | none => rfl
    | some name =>
      show (_ || (storedHost (some (.string name))).isSome) = true
      rw [storedHost_string (hshown.localHost name hname), Option.isSome_some, Bool.or_true]
  have hmode : ["aliases", "topology"].contains discovery.mode.spelled = true := by
    cases discovery.mode <;> decide
  have hwarnings : (discovery.warnings.map Json.string).filterMap Json.string?
      = discovery.warnings := by
    rw [List.filterMap_map]
    exact List.filterMap_some
  have hignored := safeInteger_count isCodeHostAlias hsnapshot.aliases_bounded
  have hexcluded := safeInteger_count (fun name =>
    loaded.config.excludeHosts.contains name && !isCodeHostAlias name) hsnapshot.aliases_bounded
  refine ⟨
    { configuredHosts := loaded.config.hosts
      activeHosts := discovery.hosts
      availableHosts := discovery.available
      localHost := some ((loaded.config.localHost.map Json.string).getD .null)
      autoDiscover := loaded.config.autoDiscover
      writable := writable
      ignoredCodeHostCount := discovery.aliases.countP isCodeHostAlias
      excludedHostCount := discovery.aliases.countP fun name =>
        loaded.config.excludeHosts.contains name && !isCodeHostAlias name
      collectorSettings := ⟨loaded.collector.pollIntervalSeconds,
        loaded.collector.probeTimeoutSeconds, loaded.collector.connectTimeoutSeconds,
        loaded.collector.maxWorkers⟩
      maintenanceWindows := windowTable
      hostGroups := groupTable
      infrastructureHosts := discovery.infrastructureHosts
      sshDiscoveryWarnings := discovery.warnings.take 1024
      sshDiscoveryMode := discovery.mode.spelled },
    normalizeInventory_eq_ok
      ⟨by simp, by simpa [List.lookup_cons] using hconfigured⟩
      ⟨by simp [List.lookup_cons], by simpa [List.lookup_cons] using hactive⟩
      ⟨by simp [List.lookup_cons], by simpa [List.lookup_cons] using havailable⟩
      ⟨by simp [List.lookup_cons], by simpa [List.lookup_cons] using hinfrastructure⟩
      (by simpa [List.lookup_cons] using normalizeCollectorSettings_ok hshown)
      (by simpa [List.lookup_cons] using hwindowTable)
      (by simpa [List.lookup_cons] using hgroupTable)
      (by simp [List.lookup_cons]) hlocal
      (by simp [List.lookup_cons, Json.bool?]) (by simp [List.lookup_cons, Json.bool?])
      (by simpa [List.lookup_cons] using hignored) (Int.natCast_nonneg _)
      (by simpa [List.lookup_cons] using hexcluded) (Int.natCast_nonneg _)
      (by simpa [List.lookup_cons, Json.string?, Option.filter_eq_some_iff] using hmode)
      (by simp [List.lookup_cons, Json.array?, Json.strings, hwarnings]), ?_⟩
  exact ⟨rfl, rfl, rfl, rfl, rfl, rfl, rfl, rfl, rfl, rfl, rfl, hgroupReads, hwindowReads⟩

/-! ### The topology -/

/-- The members of a link, with those of its label. -/
def linkMembers (source target transport : String) (label : List (String × Json)) :
    List (String × Json) :=
  [("source", .string source), ("target", .string target), ("transport", .string transport)]
    ++ label

/-- A link of a shown tree is accepted as it is. -/
theorem linkView_ok {root : String} {targets : List String} {link : TopologyLink}
    (hok : LinkOk (documentRules port.collecting) root link)
    (htrimmed : link.label.map pyStrip = link.label) (hnew : link.target ∉ targets)
    (hsame : rules.isOther = port.text.isOther) (hmark : port.text.isOther '\uFEFF' = true) :
    linkView rules root targets link.toDict = .ok link := by
  obtain ⟨source, target, transport, label⟩ := link
  have hsource := storedHost_string hok.source_safe
  have htarget := storedHost_string hok.target_safe
  have htransport : (some transport).filter ["ssh", "frp-stcp", "frp-xtcp", "vpn"].contains
      = some transport :=
    Option.filter_eq_some_iff.mpr ⟨rfl, List.contains_iff_mem.mpr hok.transport⟩
  have hends : (decide (source ≠ target) && decide (target ≠ root) && !targets.contains target)
      = true := by
    simp only [Bool.and_eq_true, decide_eq_true_eq, Bool.not_eq_true', List.contains_eq_mem,
      decide_eq_false_iff_not]
    exact ⟨⟨hok.no_self, hok.no_root⟩, hnew⟩
  -- The checks but that of the label, which is the last one.
  have hlink : ∀ members : List (String × Json),
      (members = [] ∨ ∃ value, members = [("label", value)]) →
      (if Json.isNullish (members.lookup "label") then pure none
        else (present (((members.lookup "label").bind Json.string?).filter
          (isShownText rules 64)) "Invalid topology link").map some)
        = (.ok label : Except String (Option String)) →
      linkView rules root targets (.object (linkMembers source target transport members))
        = .ok ⟨source, target, transport, label⟩ := by
    intro members hmembers hlabel
    have hlookup : (linkMembers source target transport members).lookup "label"
        = members.lookup "label" := by
      simp [linkMembers, List.lookup_cons]
    refine bind_eq_ok.mpr ⟨_, present_eq_ok.mpr rfl, ?_⟩
    refine bind_eq_ok.mpr ⟨(), require_eq_ok.mpr
      (by simp [linkMembers, List.lookup_cons]), ?_⟩
    refine bind_eq_ok.mpr ⟨(), require_eq_ok.mpr ?_, ?_⟩
    · rcases hmembers with rfl | ⟨value, rfl⟩ <;> simp [linkMembers]
    refine bind_eq_ok.mpr ⟨source, present_eq_ok.mpr
      (by simpa [linkMembers, List.lookup_cons] using hsource), ?_⟩
    refine bind_eq_ok.mpr ⟨target, present_eq_ok.mpr
      (by simpa [linkMembers, List.lookup_cons] using htarget), ?_⟩
    refine bind_eq_ok.mpr ⟨(), require_eq_ok.mpr hends, ?_⟩
    refine bind_eq_ok.mpr ⟨transport, present_eq_ok.mpr
      (by simpa [linkMembers, List.lookup_cons, Json.string?] using htransport), ?_⟩
    rw [hlookup]
    split at hlabel
    · next hnull =>
      rw [if_pos hnull]
      obtain rfl := Except.ok.inj hlabel
      rfl
    · next hthere =>
      rw [if_neg hthere]
      exact bind_eq_ok.mpr ⟨label, hlabel, rfl⟩
  cases label with
  | none => exact hlink [] (.inl rfl) rfl
  | some label =>
    obtain ⟨hne, hbounded, hvisible⟩ := hok.label label rfl
    have htrim : pyStrip label = label := Option.some.inj htrimmed
    rw [htrim] at hne hbounded
    rw [← hsame] at hmark
    have hshown : isShownText rules 64 label = true :=
      isShownText_of hne ⟨htrim, hbounded, fun c hc => by rw [hsame]; exact hvisible c hc⟩ hmark
    refine hlink [("label", .string label)] (.inr ⟨_, rfl⟩) ?_
    show (present ((some label).filter (isShownText rules 64)) _).map some = _
    rw [Option.filter_some, if_pos hshown]
    rfl

/-- The links of a shown tree are accepted one after the other. -/
theorem foldlM_addLinkView_ok {root : String} (hsame : rules.isOther = port.text.isOther)
    (hmark : port.text.isOther '\uFEFF' = true) (links seen : List TopologyLink)
    (hok : ∀ link ∈ links, LinkOk (documentRules port.collecting) root link
      ∧ link.label.map pyStrip = link.label)
    (hnodup : ((seen ++ links).map (·.target)).Nodup) :
    (links.map (·.toDict)).foldlM (addLinkView rules root) seen = .ok (seen ++ links) := by
  induction links generalizing seen with
  | nil => rw [List.append_nil]; rfl
  | cons link rest ih =>
    have hnew : link.target ∉ seen.map (·.target) := by
      rw [List.map_append, List.nodup_append] at hnodup
      exact fun hmem => hnodup.2.2 _ hmem _ (List.mem_map_of_mem List.mem_cons_self) rfl
    obtain ⟨hlink, htrimmed⟩ := hok link List.mem_cons_self
    rw [List.map_cons, List.foldlM_cons]
    refine bind_eq_ok.mpr ⟨seen ++ [link],
      bind_eq_ok.mpr ⟨link, linkView_ok hlink htrimmed hnew hsame hmark, rfl⟩, ?_⟩
    rw [ih (seen ++ [link]) (fun other hother => hok other (List.mem_cons_of_mem _ hother))
      (by rw [List.append_assoc]; exact hnodup), List.append_assoc]
    rfl

/-- A shown tree is accepted as it is. -/
theorem normalizeTopology_ok {topology : TopologyDocument}
    (h : ShownTree (documentRules port.collecting) topology)
    (hsame : rules.isOther = port.text.isOther) (hmark : port.text.isOther '\uFEFF' = true) :
    normalizeTopology rules topology.toDict = .ok ⟨some topology.root, topology.links⟩ := by
  have hroot := storedHost_string h.tree.root_safe
  have hlinks := @foldlM_addLinkView_ok rules port topology.root hsame hmark topology.links []
    (fun link hlink => ⟨h.tree.links_ok link hlink, h.trimmed link hlink⟩) h.tree.one_parent
  have hbounded : (some (topology.links.map (·.toDict))).filter (fun raw => decide (raw.length ≤ 512))
      = some (topology.links.map (·.toDict)) := by
    refine Option.filter_eq_some_iff.mpr ⟨rfl, ?_⟩
    rw [List.length_map, decide_eq_true_eq]
    exact h.tree.bounded
  have hreached : (topology.links.all fun link =>
      (reachFrom TopologyLink.source TopologyLink.target topology.links (topology.links.length + 1)
        [topology.root] [topology.root]).contains link.source
      && (reachFrom TopologyLink.source TopologyLink.target topology.links
        (topology.links.length + 1) [topology.root] [topology.root]).contains link.target)
      = true := by
    rw [List.all_eq_true]
    intro link hlink
    have hsource := h.tree.reached link hlink
    simp only [Bool.and_eq_true, List.contains_iff_mem]
    exact ⟨mem_reachFrom_of_reaches _ _ hsource,
      mem_reachFrom_of_reaches _ _ (hsource.tail ⟨link, hlink, rfl, rfl⟩)⟩
  have hset : Json.isNullish ([("root", Json.string topology.root),
      ("links", .array (topology.links.map (·.toDict)))].lookup "root") = false := rfl
  have hraw : (([("root", Json.string topology.root),
      ("links", .array (topology.links.map (·.toDict)))].lookup "links").bind Json.array?)
      = some (topology.links.map (·.toDict)) := by
    simp [List.lookup_cons, Json.array?]
  refine bind_eq_ok.mpr ⟨[("root", Json.string topology.root),
    ("links", .array (topology.links.map (·.toDict)))], present_eq_ok.mpr rfl, ?_⟩
  rw [hset, hraw]
  dsimp only
  rw [Bool.false_and, if_neg Bool.false_ne_true]
  refine bind_eq_ok.mpr ⟨_, present_eq_ok.mpr hroot, ?_⟩
  refine bind_eq_ok.mpr ⟨_, present_eq_ok.mpr hbounded, ?_⟩
  refine bind_eq_ok.mpr ⟨_, hlinks, ?_⟩
  exact bind_eq_ok.mpr ⟨(), require_eq_ok.mpr hreached, rfl⟩

/-- The answer about the topology of an inventory that can be shown is accepted. -/
theorem normalizeTopology_shown (hshown : Shown port loaded) (hsnapshot : Found port discovery)
    (hsame : rules.isOther = port.text.isOther) (hmark : port.text.isOther '\uFEFF' = true) :
    normalizeTopology rules (topologySnapshot loaded discovery)
      = .ok ⟨(shownTopology loaded discovery).map (·.root),
          ((shownTopology loaded discovery).map (·.links)).getD []⟩ := by
  have htree : ∀ topology, shownTopology loaded discovery = some topology →
      ShownTree (documentRules port.collecting) topology := by
    intro topology htopology
    unfold shownTopology at htopology
    split at htopology
    · next configured hconfigured =>
      exact hshown.topology topology (hconfigured.trans htopology)
    · split at htopology
      · exact hsnapshot.topology topology htopology
      · cases htopology
  unfold topologySnapshot
  cases hcases : shownTopology loaded discovery with
  | none => rfl
  | some topology => exact normalizeTopology_ok (htree topology hcases) hsame hmark

/-! ### What is published -/

section
variable {routing : RouteRules} {path : String} {doc : InstallationDocument}
  {cache cache' : Option DiscoveryCache} (hload : loadInventory port path doc = .ok loaded)
  (hcache : CacheReached routing cache) (hfound : Discovers routing loaded cache discovery cache')
  (hsame : rules.isOther = port.text.isOther) (hascii : AsciiVisible port.text.isOther)
  (hmark : port.text.isOther '\uFEFF' = true)
include hload hcache hfound hsame hascii hmark

/-- Whatever document is loaded and whatever the discovery found, the dashboard accepts the answer
about the inventory and reads all that it carries. -/
theorem normalizeInventory_snapshot {writable : Bool} {payload : Json}
    (hpayload : inventorySnapshot port.text loaded discovery now writable = some payload) :
    ∃ view, normalizeInventory rules payload = .ok view
      ∧ ReadsInventory loaded discovery now writable view := by
  have hshown := loadInventory_shown hload
  exact normalizeInventory_ok hshown (hfound.found hshown hascii hcache) hsame hmark hpayload

/-- Whatever document is loaded and whatever the discovery found, the dashboard accepts the answer
about the topology and reads its root and all its links. -/
theorem normalizeTopology_snapshot :
    normalizeTopology rules (topologySnapshot loaded discovery)
      = .ok ⟨(shownTopology loaded discovery).map (·.root),
          ((shownTopology loaded discovery).map (·.links)).getD []⟩ := by
  have hshown := loadInventory_shown hload
  exact normalizeTopology_shown hshown (hfound.found hshown hascii hcache) hsame hmark

/-- **The dashboard accepts what the server sends.** Whatever document is loaded and whatever the
discovery found, both answers are read at every instant, with all that they carry. -/
theorem contracts_accept_snapshots :
    (∀ (now : ℚ) (writable : Bool) (payload : Json),
      inventorySnapshot port.text loaded discovery now writable = some payload →
      ∃ view, normalizeInventory rules payload = .ok view
        ∧ ReadsInventory loaded discovery now writable view)
      ∧ normalizeTopology rules (topologySnapshot loaded discovery)
        = .ok ⟨(shownTopology loaded discovery).map (·.root),
            ((shownTopology loaded discovery).map (·.links)).getD []⟩ := by
  have hshown := loadInventory_shown hload
  have hsnapshot := hfound.found hshown hascii hcache
  refine ⟨fun now writable payload hpayload => ?_, ?_⟩
  · exact normalizeInventory_ok hshown hsnapshot hsame hmark hpayload
  · exact normalizeTopology_shown hshown hsnapshot hsame hmark

end

end Accepted

/-! ### A console and its host -/

/-- A machine that reads the instants of the calendar and sees the byte order mark. -/
private def consoleMachine : InstallationPort where
  text :=
    { asciiText with
      isOther := fun c => c.toNat < 32 || c.toNat == 0xfeff
      strptime := fun text => (Instant.read text).map (·.seconds) }
  isControl := fun c => c.toNat < 32
  resolvePath := fun _ raw => some raw
  scopeOverride := fun _ _ => .ok ()
  settings := fun _ => .ok ()
  textLength := fun _ => 0

/-- A browser of the same Unicode version. -/
private def consoleBrowser : BrowserRules where
  isOther := consoleMachine.text.isOther
  dateParse := fun text => (Instant.read text).map fun instant => 1000 * instant.seconds
  dateParse_isoformat := fun instant => by
    rw [Instant.read_isoformat]
    rfl

/-- A console that watches one host in maintenance. -/
private def consoleDocument : InstallationDocument where
  inventory :=
    { autoDiscover := false
      hosts := ["console", "gpu-01"]
      excludeHosts := []
      localHost := some "console"
      topology := some ⟨"console", [⟨"console", "gpu-01", "ssh", some "rack 1"⟩]⟩
      expectedGpuCounts := ∅
      hostOverrides := ∅
      maintenanceWindows := .ofList [("gpu-01", .object [("until", .string "2026-11-20T06:00:00Z"),
        ("reason", .string "new fans")])]
      hostGroups := .ofList [("gpu-01", "Training")]
      incidentOverrides := ⟨∅, ∅⟩
      incidentActions := []
      rest := .ofList [("poll_interval_seconds", .integer 5),
        ("probe_timeout_seconds", .integer 12), ("connect_timeout_seconds", .integer 5),
        ("max_workers", .integer 8)] }
  sshConfig := "~/.ssh/config"
  sshDiscovery := none

/-- What the discovery finds for a configuration where the files spell no alias. -/
private def nothingSpelled (loaded : InventoryConfig) (hosts : List String) :
    HostDiscoverySnapshot where
  aliases := []
  eligibleAliases := (discoveryKey loaded [] []).eligible
  hosts := hosts
  infrastructureHosts := []
  hostGroups := loaded.config.hostGroups
  topology := loaded.config.topology
  warnings := []
  mode := .aliases

/-- The console is loaded, its hosts are found, and its inventory is published. -/
private theorem exists_console :
    ∃ loaded hosts payload,
      loadInventory consoleMachine "config.json" consoleDocument = .ok loaded
      ∧ loaded.config.hosts = ["console", "gpu-01"]
      ∧ Discovers ⟨id, id, fun _ => false, fun _ => none⟩ loaded none (nothingSpelled loaded hosts)
        none
      ∧ inventorySnapshot consoleMachine.text loaded (nothingSpelled loaded hosts) 1795000000 true
        = some payload := by
  have hchecks : (match loadInventory consoleMachine "config.json" consoleDocument with
      | .ok loaded => decide (loaded.config.hosts = ["console", "gpu-01"])
        && decide (loaded.sshDiscovery.mode = .aliases)
        && decide (Returns (aliasOnlyHosts loaded.config []))
        && (inventorySnapshot consoleMachine.text loaded (nothingSpelled loaded []) 1795000000
          true).isSome
      | .error _ => false) = true := by
    decide +kernel
  split at hchecks
  · next loaded hload =>
    rw [Bool.and_eq_true, Bool.and_eq_true, Bool.and_eq_true] at hchecks
    obtain ⟨⟨⟨hhosts, hmode⟩, hfound⟩, hpayload⟩ := hchecks
    obtain ⟨hosts, hlisted⟩ := of_decide_eq_true hfound
    have hspelled : safeAliases [] = .ok ([], []) := by decide +kernel
    -- The hosts that are found do not decide whether there is an answer.
    have hanswer : (inventorySnapshot consoleMachine.text loaded (nothingSpelled loaded hosts)
        1795000000 true).isSome = true := by
      rw [← hpayload]
      unfold inventorySnapshot
      cases loaded.maintenanceWindows.mapM (windowEntry 1795000000) with
      | none => rfl
      | some windows =>
        cases (loaded.config.incidentActions.filter fun action =>
            (consoleMachine.text.strptime action.until_).any fun until_ =>
              (1795000000 : ℚ) < until_).mapM
          (IncidentActionDocument.toDict consoleMachine.text) with
        | none => rfl
        | some actions => rfl
    obtain ⟨payload, hpayload⟩ := Option.isSome_iff_exists.mp hanswer
    exact ⟨loaded, hosts, payload, hload, of_decide_eq_true hhosts,
      .aliases (of_decide_eq_true hmode) hspelled hlisted, hpayload⟩
  · cases hchecks

private theorem asciiVisible_console : AsciiVisible consoleMachine.text.isOther := by
  intro c hlow hhigh
  show (decide (c.toNat < 32) || c.toNat == 0xfeff) = false
  rw [Bool.or_eq_false_iff, decide_eq_false_iff_not, beq_eq_false_iff_ne]
  omega

/-- The inventory of the console is read with its hosts. -/
theorem normalizeInventory_snapshot_console :
    ∃ loaded hosts payload view,
      loadInventory consoleMachine "config.json" consoleDocument = .ok loaded
      ∧ inventorySnapshot consoleMachine.text loaded (nothingSpelled loaded hosts) 1795000000 true
        = some payload
      ∧ normalizeInventory consoleBrowser payload = .ok view
      ∧ view.configuredHosts = ["console", "gpu-01"] := by
  obtain ⟨loaded, hosts, payload, hload, hhosts, hfound, hpayload⟩ := exists_console
  obtain ⟨view, hview, hreads⟩ := @normalizeInventory_snapshot consoleBrowser _ _ _ _ _ _ _ _ _
    hload .start hfound rfl asciiVisible_console (by decide) _ _ hpayload
  exact ⟨loaded, hosts, payload, view, hload, hpayload, hview, hreads.configuredHosts.trans hhosts⟩

/-- The topology of the console is read with its link. -/
theorem normalizeTopology_snapshot_console :
    ∃ loaded hosts, loadInventory consoleMachine "config.json" consoleDocument = .ok loaded
      ∧ normalizeTopology consoleBrowser (topologySnapshot loaded (nothingSpelled loaded hosts))
        = .ok ⟨(shownTopology loaded (nothingSpelled loaded hosts)).map (·.root),
            ((shownTopology loaded (nothingSpelled loaded hosts)).map (·.links)).getD []⟩ := by
  obtain ⟨loaded, hosts, payload, hload, -, hfound, -⟩ := exists_console
  exact ⟨loaded, hosts, hload, @normalizeTopology_snapshot consoleBrowser _ _ _ _ _ _ _ _ hload
    .start hfound rfl asciiVisible_console (by decide)⟩

/-- Both answers of the console are read. -/
theorem contracts_accept_snapshots_console :
    ∃ loaded hosts payload view topology,
      loadInventory consoleMachine "config.json" consoleDocument = .ok loaded
      ∧ inventorySnapshot consoleMachine.text loaded (nothingSpelled loaded hosts) 1795000000 true
        = some payload
      ∧ normalizeInventory consoleBrowser payload = .ok view
      ∧ ReadsInventory loaded (nothingSpelled loaded hosts) 1795000000 true view
      ∧ normalizeTopology consoleBrowser (topologySnapshot loaded (nothingSpelled loaded hosts))
        = .ok topology := by
  obtain ⟨loaded, hosts, payload, hload, -, hfound, hpayload⟩ := exists_console
  obtain ⟨haccepts, htopology⟩ := @contracts_accept_snapshots consoleBrowser _ _ _ _ _ _ _ _ hload
    .start hfound rfl asciiVisible_console (by decide)
  obtain ⟨view, hview, hreads⟩ := haccepts _ _ _ hpayload
  exact ⟨loaded, hosts, payload, view, _, hload, hpayload, hview, hreads, htopology⟩

end Mocop.ApiContracts
