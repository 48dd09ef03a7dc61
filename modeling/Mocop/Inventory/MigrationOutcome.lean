import Mocop.Inventory.Migrated

/-!
# `Mocop.Inventory.MigrationOutcome`: when a migration succeeds and loses nothing

A migration should turn every accepted source into a file that loads, and lose nothing without
saying so (`Migrates`). `migrateConfig_carriesOver_iff` says exactly when it does.

The loader of the new file checks more than the migration looks after (`Fits`). Without automatic
discovery it refuses the group of a host that is not listed, and the migration keeps such groups
when an option turns the discovery off. It also has a limit on the listed hosts, which an added
local host can exceed, and one on the size of the file, which the indented text can exceed.
-/

set_option autoImplicit false

namespace Mocop

/-! ### The condition and what it gives -/

/-- The options that a migration of the source can be given. A new alias for the local host is
safe, and no other host, no exclusion and, for a rename, no node of the topology. -/
structure ValidOptions (port : InstallationPort) (target : String) (options : MigrationOptions)
    (raw : InstallationDocument) (config : InstallationConfig) : Prop where
  exclusive : options.dropLocalHost = true → options.localHost = none
  safe : ∀ name, newLocalHost options config.inventory.localHost = some name →
    isSafeAlias name = true
  unlisted : ∀ name, newLocalHost options config.inventory.localHost = some name →
    newLocalHost options config.inventory.localHost ≠ config.inventory.localHost →
    name ∉ config.inventory.hosts
  unexcluded : ∀ name, newLocalHost options config.inventory.localHost = some name →
    name ∉ config.inventory.excludeHosts
  noNode : ∀ name, newLocalHost options config.inventory.localHost = some name →
    newLocalHost options config.inventory.localHost ≠ config.inventory.localHost →
    config.inventory.localHost ≠ none →
    ∀ topology, raw.inventory.topology = some topology → ¬ topology.IsNode name
  displayName : ∀ name, options.displayName = some name →
    newLocalHost options config.inventory.localHost ≠ none
      ∧ isValidDisplayName port.text name = true
  sshConfig : pyStrip options.sshConfig ≠ "" ∧ Returns (sshConfigPath port options.sshConfig target)

/-- A migration that succeeds, with a file that loads and carries the source over. -/
def Migrates (port : InstallationPort) (source : ConfigFile) (directory : TargetDirectory)
    (options : MigrationOptions) (config : InstallationConfig) : Prop :=
  ∃ result file target, migrateConfig port source directory options = .ok (result, file)
    ∧ loadPrivateConfig port file = .ok target
    ∧ CarriedOver config.inventory.localHost (newLocalHost options config.inventory.localHost)
      result.droppedFields config target

/-- When the new document passes the checks of the loader: every grouped host is listed if the
options turn the discovery off, an added local host has a place, and the text is not too long. -/
structure Fits (port : InstallationPort) (options : MigrationOptions) (raw : InstallationDocument)
    (config : InstallationConfig) : Prop where
  groups : options.autoDiscover = some false → ∀ name ∈ raw.inventory.hostGroups.keys,
    name ∈ config.inventory.hosts
      ∨ newLocalHost options config.inventory.localHost = some name
  room : config.inventory.localHost = none →
    newLocalHost options config.inventory.localHost ≠ none →
    config.inventory.hosts.length < configMaxHostAliases
  size : port.textLength (migrated options config raw).1 ≤ configMaxBytes

/-! ### The migration -/

section Migration

variable {port : InstallationPort} {source : ConfigFile} {directory : TargetDirectory}
  {options : MigrationOptions} {raw : InstallationDocument} {config : InstallationConfig}

/-- The document and the configuration of a file that loads. -/
theorem loadPrivateConfigDocument_eq_ok_iff {file : ConfigFile} :
    loadPrivateConfigDocument port file = .ok (raw, config)
      ↔ file.bytes ≤ configMaxBytes ∧ file.content = .ok raw
        ∧ parseConfig port file.path raw = .ok config := by
  unfold loadPrivateConfigDocument
  simp only [bind_eq_ok, require_eq_ok, exists_const, decide_eq_true_eq]
  refine and_congr Iff.rfl ⟨?_, ?_⟩
  · rintro ⟨doc, hdoc, loaded, hloaded, heq⟩
    obtain ⟨rfl, rfl⟩ := Prod.mk.inj (Except.ok.inj heq)
    exact ⟨hdoc, hloaded⟩
  · rintro ⟨hdoc, hloaded⟩
    exact ⟨raw, hdoc, config, hloaded, rfl⟩

/-- A written file loads when it is not too long and its document does. -/
theorem loadPrivateConfig_writtenFile_iff {path : String} {data : InstallationDocument} :
    loadPrivateConfig port (writtenFile port path data) = .ok config
      ↔ port.textLength data ≤ configMaxBytes ∧ parseConfig port path data = .ok config := by
  unfold loadPrivateConfig
  rw [bind_eq_ok]
  constructor
  · rintro ⟨⟨doc, loaded⟩, hload, heq⟩
    obtain rfl := Except.ok.inj heq
    obtain ⟨hsize, hdoc, hparse⟩ := loadPrivateConfigDocument_eq_ok_iff.mp hload
    obtain rfl := Except.ok.inj hdoc
    exact ⟨hsize, hparse⟩
  · rintro ⟨hsize, hparse⟩
    exact ⟨(data, config), loadPrivateConfigDocument_eq_ok_iff.mpr ⟨hsize, rfl, hparse⟩, rfl⟩

/-- Valid options move the local host of an accepted source to a safe alias. -/
theorem ValidOptions.safeMove
    (hoptions : ValidOptions port directory.target options raw config)
    (haccepted : Loadable (documentRules port) raw.inventory)
    (hloaded : config.inventory = raw.inventory.loaded) :
    SafeMove port config.inventory.localHost (newLocalHost options config.inventory.localHost)
      raw.inventory
      (relocate config.inventory (newLocalHost options config.inventory.localHost)
        raw.inventory).1
      (relocate config.inventory (newLocalHost options config.inventory.localHost)
        raw.inventory).2 := by
  have hhosts : namesOf raw.inventory.hosts = config.inventory.hosts := by
    rw [hloaded]
    rfl
  have hexcludes : namesOf raw.inventory.excludeHosts = config.inventory.excludeHosts := by
    rw [hloaded]
    rfl
  refine {
    accepted := haccepted
    relocated := by
      rw [hhosts]
      exact relocate_relocated _ _ _
    names := {
      nodup := nodup_eraseDups _
      old_listed := fun name hold => ?_
      fresh := by
        rw [hhosts]
        exact hoptions.unlisted }
    safe := hoptions.safe
    unexcluded := by
      rw [hexcludes]
      exact hoptions.unexcluded
    noNode := hoptions.noNode }
  rw [hloaded] at hold
  obtain ⟨value, hvalue, rfl⟩ := Option.map_eq_some_iff.mp hold
  exact (haccepted.localHost value hvalue).listed

/-- Valid options pass the checks of the migration. -/
theorem ValidOptions.checkLocalHost_eq_ok
    (hoptions : ValidOptions port directory.target options raw config) :
    checkLocalHost options raw config.inventory
      (newLocalHost options config.inventory.localHost) = .ok () := by
  have hnew := hoptions.safe
  have hlisted := hoptions.unlisted
  have hexcluded := hoptions.unexcluded
  have hnode := hoptions.noNode
  have hdisplay := hoptions.displayName
  generalize newLocalHost options config.inventory.localHost = new at *
  unfold checkLocalHost
  simp only [bind_eq_ok, require_eq_ok, exists_const]
  cases new with
  | none =>
    cases hname : options.displayName with
    | none => simp
    | some name => exact absurd rfl (hdisplay name hname).1
  | some name =>
    refine ⟨hnew name rfl, by simp, ?_, ?_, ?_⟩
    · by_cases heq : some name = config.inventory.localHost
      · simp [heq]
      · simpa [heq] using hlisted name rfl heq
    · simpa using hexcluded name rfl
    · by_cases heq : some name = config.inventory.localHost
      · simp [heq]
      · cases hold : config.inventory.localHost with
        | none => simp
        | some old =>
          rw [hold] at heq hnode
          simp only [Option.all_some, Option.isNone_some, heq, decide_false, Bool.false_or,
            Bool.not_eq_true']
          cases htopology : raw.inventory.topology with
          | none => rfl
          | some topology =>
            rw [Bool.eq_false_iff]
            intro hcontains
            exact hnode name rfl heq (by simp) topology htopology
              (topologyContains_iff.mp hcontains)

/-- A migration with valid options writes the edited document if it loads. -/
theorem migrateConfig_eq_ok_iff
    (hsource : loadPrivateConfigDocument port source = .ok (raw, config))
    (hoptions : ValidOptions port directory.target options raw config)
    (hclean : directory.Clean) {result : MigrationResult} {file : ConfigFile} :
    migrateConfig port source directory options = .ok (result, file)
      ↔ Returns (loadPrivateConfig port file)
        ∧ file = writtenFile port directory.target (migrated options config raw).1
        ∧ result = {
            source := source.path
            target := directory.target
            oldLocalHost := config.inventory.localHost
            newLocalHost := newLocalHost options config.inventory.localHost
            autoDiscover := (migrated options config raw).1.inventory.autoDiscover
            droppedFields := (migrated options config raw).2 } := by
  obtain ⟨hprepared, hprivate, htarget, htoken, hwrites⟩ := hclean
  have hexclusive : (!(options.dropLocalHost && options.localHost.isSome)) = true := by
    cases hdrop : options.dropLocalHost with
    | false => rfl
    | true => rw [hoptions.exclusive hdrop]; rfl
  have hdata : sourceData port source = .ok (raw, config) := by
    unfold sourceData
    rw [hsource]
  have hwrite : ∀ data written, writePrivateTarget port directory data = .ok written
      ↔ Returns (loadPrivateConfig port written)
        ∧ written = writtenFile port directory.target data := by
    intro data written
    unfold writePrivateTarget
    simp only [bind_eq_ok, require_eq_ok, exists_const, hprepared, hprivate, htarget, htoken,
      hwrites, Bool.not_false, true_and]
    cases hload : loadPrivateConfig port (writtenFile port directory.target data) with
    | ok loaded =>
      constructor
      · intro heq
        obtain rfl := Except.ok.inj heq
        exact ⟨⟨loaded, hload⟩, rfl⟩
      · rintro ⟨-, rfl⟩
        rfl
    | error message =>
      constructor
      · intro heq
        cases heq
      · rintro ⟨⟨loaded, hreturns⟩, rfl⟩
        rw [hload] at hreturns
        cases hreturns
  unfold migrateConfig
  simp only [bind_eq_ok, require_eq_ok, exists_const, hexclusive, hdata, true_and,
    Except.ok.injEq, exists_eq_left', hoptions.checkLocalHost_eq_ok, hwrite]
  constructor
  · rintro ⟨written, ⟨hloads, rfl⟩, heq⟩
    obtain ⟨rfl, rfl⟩ := Prod.mk.inj (Except.ok.inj heq)
    exact ⟨hloads, rfl, rfl⟩
  · rintro ⟨hloads, rfl, rfl⟩
    exact ⟨_, ⟨hloads, rfl⟩, rfl⟩

/-- **Migration.** With valid options and a clean target directory, the migration of an accepted
source succeeds with a file that loads and carries the source over exactly when the edited document
passes the loader's checks of groups, places and size. -/
theorem migrateConfig_carriesOver_iff
    (hsource : loadPrivateConfigDocument port source = .ok (raw, config))
    (hoptions : ValidOptions port directory.target options raw config)
    (hclean : directory.Clean) :
    Migrates port source directory options config ↔ Fits port options raw config := by
  obtain ⟨-, -, hparse⟩ := loadPrivateConfigDocument_eq_ok_iff.mp hsource
  obtain ⟨-, hdiscovery, ⟨haccepted, hloaded⟩, -, hsettings⟩ := parseConfig_eq_ok_iff.mp hparse
  have hmove := hoptions.safeMove haccepted hloaded
  have hhosts : namesOf raw.inventory.hosts = config.inventory.hosts := by
    rw [hloaded]
    rfl
  have hdisplay := fun name hname => (hoptions.displayName name hname).2
  -- The written file loads when it is not too long and its inventory does.
  have htarget : ∀ target, loadPrivateConfig port
        (writtenFile port directory.target (migrated options config raw).1) = .ok target
      ↔ port.textLength (migrated options config raw).1 ≤ configMaxBytes
        ∧ parseConfig port directory.target (migrated options config raw).1 = .ok target :=
    fun _ => loadPrivateConfig_writtenFile_iff
  constructor
  · rintro ⟨result, file, target, hmigrate, hload, -⟩
    obtain ⟨-, rfl, -⟩ := (migrateConfig_eq_ok_iff hsource hoptions hclean).mp hmigrate
    obtain ⟨hsize, hparsed⟩ := (htarget target).mp hload
    obtain ⟨-, -, ⟨hloadable, -⟩, -⟩ := parseConfig_eq_ok_iff.mp hparsed
    refine ⟨fun hoption name hname => ?_, ?_, hsize⟩
    · rw [← hhosts]
      exact hmove.groups_listed hloadable hoption hname
    · rw [← hhosts]
      refine hmove.length_hosts_iff.mp ?_
      rw [← hmove.namesOf_hosts]
      exact hloadable.hosts_bounded
  · rintro ⟨hgroups, hroom, hsize⟩
    rw [← hhosts] at hgroups hroom
    have hloadable := hmove.loadable_applyOptions hdisplay hgroups
      (hmove.length_hosts_iff.mpr hroom)
    obtain ⟨hpath, sshConfig, hssh⟩ := hoptions.sshConfig
    have hbounds := parseSshDiscoveryConfig_inBounds hdiscovery
    have hparsed : parseConfig port directory.target (migrated options config raw).1 = .ok {
        inventory := (migrated options config raw).1.inventory.loaded
        sshConfig := sshConfig
        sshDiscovery := { config.sshDiscovery with mode := .topology }
        settings := (migrated options config raw).1.inventory.rest } :=
      parseConfig_eq_ok_iff.mpr ⟨hpath, parseSshDiscoveryConfig_section hbounds,
        ⟨hloadable, rfl⟩, hssh, rfl⟩
    have hload := (htarget _).mpr ⟨hsize, hparsed⟩
    refine ⟨_, _, _, (migrateConfig_eq_ok_iff hsource hoptions hclean).mpr
      ⟨⟨_, hload⟩, rfl, rfl⟩, hload, hmove.carriedOver hloaded rfl rfl rfl ?_⟩
    rw [hsettings]
    exact hmove.relocated.rest

end Migration

/-! ### Two migrations -/

/-- A machine whose user is at home in `/home/new`, and the size of the text that is written. -/
private def newMachine (length : ℕ) : InstallationPort where
  text := asciiText
  isControl := fun c => c.toNat < 32
  resolvePath := fun _ raw =>
    some (if raw = "~/.ssh/config" then "/home/new/.ssh/config" else raw)
  scopeOverride := fun _ _ => .ok ()
  settings := fun _ => .ok ()
  textLength := fun _ => length

/-- An empty private directory. -/
private def cleanDirectory : TargetDirectory where
  target := "/home/new/.config/mocop/config.json"
  isPrepared := true
  isPrivate := true
  hasTarget := false
  hasToken := false
  writes := true

/-- The settings that name no host. -/
private def hostlessSettings : Dict String Json :=
  .ofList [("poll_interval_seconds", .integer 5), ("probe_timeout_seconds", .integer 12),
    ("connect_timeout_seconds", .integer 5), ("max_workers", .integer 8),
    ("listen_host", .string "127.0.0.1"), ("listen_port", .integer 8787)]

/-- An installation that watches itself and one more host. -/
private def selfWatching : InstallationDocument where
  inventory :=
    { autoDiscover := true
      hosts := ["old-monitor", "gpu-01"]
      excludeHosts := []
      localHost := some "old-monitor"
      topology := some ⟨"old-monitor", [⟨"old-monitor", "gpu-01", "ssh", none⟩]⟩
      expectedGpuCounts := .ofList [("old-monitor", 2), ("gpu-01", 8)]
      hostOverrides := ∅
      maintenanceWindows := ∅
      hostGroups := .ofList [("old-monitor", "Console"), ("gpu-01", "Training")]
      incidentOverrides := ⟨∅, .ofList [("Training",
        .object [("thresholds", .object [("disk_warning_pct", .integer 90)])])]⟩
      incidentActions := []
      rest := hostlessSettings }
  sshConfig := "/home/old/.ssh/config"
  sshDiscovery := some (.object [("refresh_seconds", .integer 120)])

/-- The file of an installation. -/
private def sourceFile (bytes : ℕ) (doc : InstallationDocument) : ConfigFile :=
  ⟨"/private/import/config.json", bytes, .ok doc⟩

/-- The new machine watches itself under its own name, without discovery. -/
private def withoutDiscovery : MigrationOptions where
  currentHostname := "new-monitor"
  displayName := some "console-0"
  autoDiscover := some false

/-- A file that loads has the configuration of its document. -/
private theorem exists_config {port : InstallationPort} {bytes : ℕ} {doc : InstallationDocument}
    (h : (match loadPrivateConfigDocument port (sourceFile bytes doc) with
      | .ok _ => true
      | .error _ => false) = true) :
    ∃ config, loadPrivateConfigDocument port (sourceFile bytes doc) = .ok (doc, config)
      ∧ config.inventory = doc.inventory.loaded := by
  split at h
  · next data hload =>
    obtain ⟨raw, config⟩ := data
    obtain ⟨-, hcontent, hparse⟩ := loadPrivateConfigDocument_eq_ok_iff.mp hload
    obtain rfl := Except.ok.inj hcontent
    exact ⟨config, hload, (parseConfig_eq_ok_iff.mp hparse).2.2.1.2⟩
  · cases h

/-- The local host, its group and its node of the topology follow the new name, although an
option turns the discovery off: both groups are those of listed hosts. -/
theorem migrateConfig_carriesOver_selfWatching :
    ∃ config, loadPrivateConfigDocument (newMachine 981) (sourceFile 862 selfWatching)
        = .ok (selfWatching, config)
      ∧ Migrates (newMachine 981) (sourceFile 862 selfWatching) cleanDirectory withoutDiscovery
        config := by
  obtain ⟨config, hsource, hloaded⟩ := @exists_config (newMachine 981) 862 selfWatching
    (by decide +kernel)
  have hlocal : config.inventory.localHost = some "old-monitor" := by
    rw [hloaded]
    decide +kernel
  have hhosts : config.inventory.hosts = ["old-monitor", "gpu-01"] := by
    rw [hloaded]
    decide +kernel
  have hexcludes : config.inventory.excludeHosts = [] := by
    rw [hloaded]
    decide +kernel
  have hnew : newLocalHost withoutDiscovery config.inventory.localHost = some "new-monitor" := by
    rw [hlocal]
    decide +kernel
  have hoptions : ValidOptions (newMachine 981) cleanDirectory.target withoutDiscovery
      selfWatching config := {
    exclusive := nofun
    safe := fun name hname => by
      rw [hnew] at hname
      cases hname
      decide +kernel
    unlisted := fun name hname _ => by
      rw [hnew] at hname
      cases hname
      rw [hhosts]
      decide
    unexcluded := fun name hname => by
      rw [hexcludes]
      exact List.not_mem_nil
    noNode := fun name hname _ _ topology htopology => by
      rw [hnew] at hname
      cases hname
      cases htopology
      rw [← topologyContains_iff]
      decide +kernel
    displayName := fun name hname => by
      rw [hnew]
      cases hname
      exact ⟨nofun, by decide +kernel⟩
    sshConfig := ⟨by decide +kernel, "/home/new/.ssh/config", by rfl⟩ }
  refine ⟨config, hsource, (migrateConfig_carriesOver_iff hsource hoptions
    ⟨rfl, rfl, rfl, rfl, rfl⟩).mpr ⟨fun _ name hname => ?_, fun hnone _ => ?_, ?_⟩⟩
  · rw [hhosts]
    have hkeys : selfWatching.inventory.hostGroups.keys = ["old-monitor", "gpu-01"] := by
      decide +kernel
    rw [hkeys] at hname
    exact .inl hname
  · rw [hlocal] at hnone
    cases hnone
  · show 981 ≤ 1048576
    omega

/-- An installation with a group for a host that it discovers. -/
private def groupsDiscovered : InstallationDocument where
  inventory :=
    { autoDiscover := true
      hosts := ["gpu-01"]
      excludeHosts := []
      localHost := none
      topology := none
      expectedGpuCounts := ∅
      hostOverrides := ∅
      maintenanceWindows := ∅
      hostGroups := .ofList [("gpu-02", "Training")]
      incidentOverrides := ⟨∅, ∅⟩
      incidentActions := []
      rest := hostlessSettings }
  sshConfig := "/home/old/.ssh/config"
  sshDiscovery := none

/-- Only the discovery is turned off. -/
private def discoveryOff : MigrationOptions where
  currentHostname := "new-monitor"
  autoDiscover := some false

/-- The migration of an accepted source with valid options is refused: the group of the
discovered host stays in a document that lists it no more. -/
theorem discovered_group_refuses_migration :
    ∃ config, loadPrivateConfigDocument (newMachine 466) (sourceFile 338 groupsDiscovered)
        = .ok (groupsDiscovered, config)
      ∧ ValidOptions (newMachine 466) cleanDirectory.target discoveryOff groupsDiscovered config
      ∧ cleanDirectory.Clean
      ∧ migrateConfig (newMachine 466) (sourceFile 338 groupsDiscovered) cleanDirectory
          discoveryOff = .error
            "migrated configuration is invalid: host_groups.gpu-02 must reference an explicit host"
      ∧ ¬ Migrates (newMachine 466) (sourceFile 338 groupsDiscovered) cleanDirectory discoveryOff
        config := by
  obtain ⟨config, hsource, hloaded⟩ := @exists_config (newMachine 466) 338 groupsDiscovered
    (by decide +kernel)
  have hnew : newLocalHost discoveryOff config.inventory.localHost = none := by
    rw [hloaded]
    decide +kernel
  have hrefused : (match migrateConfig (newMachine 466) (sourceFile 338 groupsDiscovered)
        cleanDirectory discoveryOff with
      | .ok _ => false
      | .error message => decide (message
        = "migrated configuration is invalid: host_groups.gpu-02 must reference an explicit host"))
      = true := by
    decide +kernel
  have herror : migrateConfig (newMachine 466) (sourceFile 338 groupsDiscovered) cleanDirectory
      discoveryOff = .error
        "migrated configuration is invalid: host_groups.gpu-02 must reference an explicit host" :=
      by
    split at hrefused
    · cases hrefused
    · next message heq => rw [heq, of_decide_eq_true hrefused]
  refine ⟨config, hsource, ?_, ⟨rfl, rfl, rfl, rfl, rfl⟩, herror, ?_⟩
  · exact {
      exclusive := nofun
      safe := fun name hname => by rw [hnew] at hname; cases hname
      unlisted := fun name hname => by rw [hnew] at hname; cases hname
      unexcluded := fun name hname => by rw [hnew] at hname; cases hname
      noNode := fun name hname => by rw [hnew] at hname; cases hname
      displayName := nofun
      sshConfig := ⟨by decide +kernel, "/home/new/.ssh/config", by rfl⟩ }
  · rintro ⟨result, file, target, hmigrates, -⟩
    rw [herror] at hmigrates
    cases hmigrates

end Mocop
