import Mocop.Inventory.Installation

/-!
# `Mocop.Inventory.Migration`: moving a configuration to another machine

`migrateConfig` reads the file of another installation and writes a new one: the local host is
renamed, added or dropped, the sections that belong to it go, the route discovery is set to
topology mode, and the overrides of groups that no host has any more go. What goes is listed in
`droppedFields`. The written file is loaded before the migration returns.

The edits are those of the source, in its order. The file system is `TargetDirectory`: what the
migration finds at the target and whether its writes succeed.
-/

set_option autoImplicit false

namespace Mocop

/-- The message of a refused migration. -/
abbrev LifecycleError := String

/-- The options of a migration. -/
structure MigrationOptions where
  currentHostname : String
  localHost : Option String := none
  dropLocalHost : Bool := false
  displayName : Option String := none
  sshConfig : String := "~/.ssh/config"
  autoDiscover : Option Bool := none

/-- What a migration reports. -/
structure MigrationResult where
  source : String
  target : String
  oldLocalHost : Option String
  newLocalHost : Option String
  autoDiscover : Bool
  droppedFields : List String
  deriving DecidableEq

/-- The place of the target. Its directory can be made or not, and is private when it is owned and
not writable by others. -/
structure TargetDirectory where
  target : String
  isPrepared : Bool
  isPrivate : Bool
  hasTarget : Bool
  hasToken : Bool
  writes : Bool

/-- Nothing at the target stands in the way. -/
def TargetDirectory.Clean (directory : TargetDirectory) : Prop :=
  directory.isPrepared = true ∧ directory.isPrivate = true ∧ directory.hasTarget = false
    ∧ directory.hasToken = false ∧ directory.writes = true

/-- The local host of the new installation. -/
def newLocalHost (options : MigrationOptions) (old : Option String) : Option String :=
  if options.dropLocalHost then none
  else match options.localHost with
    | some name => some (pyStrip name)
    | none => old.map fun _ => pyStrip options.currentHostname

/-! ### The edits -/

/-- A section without a host, and the field that was dropped. -/
def popAlias {α : Type} (field : String) (section_ : Dict String α) (name : String) :
    Dict String α × List String :=
  if section_.contains name then (section_.erase name, [field ++ "." ++ name]) else (section_, [])

/-- The topology with one node under another name. -/
def replaceTopologyAlias (topology : TopologyDocument) (old new : String) : TopologyDocument where
  root := if topology.root = old then new else topology.root
  links := topology.links.map fun link =>
    { link with
      source := if link.source = old then new else link.source
      target := if link.target = old then new else link.target }

/-- Whether a host is a node of the topology. -/
def topologyContains (topology : Option TopologyDocument) (name : String) : Bool :=
  topology.any fun topology =>
    topology.root = name || topology.links.any fun link =>
      link.source = name || link.target = name

/-- The hosts with the local one under its new name, or without it. -/
def replaceHost (hosts : List String) (old : String) (new : Option String) : List String :=
  (hosts.filterMap fun host => if host = old then new else some host).eraseDups

/-- The topology after a rename, or none when the local host was one of its nodes. -/
def moveTopology (topology : Option TopologyDocument) (old : String) (new : Option String) :
    Option TopologyDocument × List String :=
  match new with
  | some name => (topology.map fun topology => replaceTopologyAlias topology old name, [])
  | none => if topologyContains topology old then (none, ["topology"]) else (topology, [])

/-- The host groups after a rename: the group of the local host follows it. -/
def moveGroup (groups : Dict String String) (old : String) (new : Option String) :
    Dict String String × List String :=
  match groups.get? old, new with
  | some group, some name =>
    let rest := groups.erase old
    (if rest.contains name then rest else rest.set name group, [])
  | some _, none => (groups.erase old, ["host_groups." ++ old])
  | none, _ => (groups, [])

/-- The actions of the other hosts. -/
def dropActions (actions : List IncidentActionDocument) (old : String) :
    List IncidentActionDocument × List String :=
  let retained := actions.filter fun action => action.host ≠ old
  (retained, if retained.length ≠ actions.length then ["incident_actions." ++ old] else [])

/-- The document after the local host has changed its name or has gone. -/
def rebindLocalHost (hosts : List String) (old : String) (new : Option String)
    (data : ConfigDocument Json) : ConfigDocument Json × List String :=
  let (expected, droppedCounts) := popAlias "expected_gpu_counts" data.expectedGpuCounts old
  let (overrides, droppedOverrides) := popAlias "host_overrides" data.hostOverrides old
  let (windows, droppedWindows) := popAlias "maintenance_windows" data.maintenanceWindows old
  let (incidents, droppedIncidents) :=
    popAlias "incident_overrides.hosts" data.incidentOverrides.hosts old
  let (actions, droppedActions) := dropActions data.incidentActions old
  let (topology, droppedTopology) := moveTopology data.topology old new
  let (groups, droppedGroups) := moveGroup data.hostGroups old new
  ({ data with
      hosts := replaceHost hosts old new
      expectedGpuCounts := expected
      hostOverrides := overrides
      maintenanceWindows := windows
      incidentOverrides := { data.incidentOverrides with hosts := incidents }
      incidentActions := actions
      topology := topology
      hostGroups := groups },
    droppedCounts ++ droppedOverrides ++ droppedWindows ++ droppedIncidents ++ droppedActions
      ++ droppedTopology ++ droppedGroups)

/-- The document with its explicit hosts and its local one. -/
def relocate (config : MonitorConfig Json) (new : Option String) (data : ConfigDocument Json) :
    ConfigDocument Json × List String :=
  let (data, dropped) :=
    match config.localHost, new with
    | some old, _ => rebindLocalHost config.hosts old new data
    | none, some name => ({ data with hosts := config.hosts ++ [name] }, [])
    | none, none => ({ data with hosts := config.hosts }, [])
  ({ data with localHost := new }, dropped)

/-- The overrides with the name that is shown for the new local host. -/
def showName (displayName new : Option String) (overrides : Dict String Json) :
    Dict String Json :=
  match displayName, new with
  | some name, some host => overrides.set host (displayNameOverride name)
  | _, _ => overrides

/-- The incident overrides without those of groups that no host has, and the dropped fields. -/
def pruneGroups (groups : Dict String String) (overrides : Dict String Json) :
    Dict String Json × List String :=
  let configured := groups.values
  (overrides.filterKeys configured.contains,
    (overrides.keys.filter fun group => !configured.contains group).map fun group =>
      "incident_overrides.groups." ++ group)

/-- The document with what the options say about discovery and the name that is shown. -/
def applyOptions (options : MigrationOptions) (new : Option String)
    (data : ConfigDocument Json) : ConfigDocument Json × List String :=
  let (groupOverrides, dropped) := pruneGroups data.hostGroups data.incidentOverrides.groups
  ({ data with
      autoDiscover := options.autoDiscover.getD data.autoDiscover
      hostOverrides := showName options.displayName new data.hostOverrides
      incidentOverrides := { data.incidentOverrides with groups := groupOverrides } },
    dropped)

/-- The document that a migration writes, and the fields that it dropped. -/
def migrated (options : MigrationOptions) (config : InstallationConfig)
    (raw : InstallationDocument) : InstallationDocument × List String :=
  let new := newLocalHost options config.inventory.localHost
  let (moved, droppedLocal) := relocate config.inventory new raw.inventory
  let (data, droppedGroups) := applyOptions options new moved
  ({ inventory := data
     sshConfig := options.sshConfig
     sshDiscovery := some { config.sshDiscovery with mode := .topology }.section_ },
    droppedLocal ++ droppedGroups)

/-! ### The migration -/

section Migration

variable (port : InstallationPort)

/-- The source and its configuration. -/
def sourceData (file : ConfigFile) :
    Except LifecycleError (InstallationDocument × InstallationConfig) :=
  match loadPrivateConfigDocument port file with
  | .ok data => .ok data
  | .error _ => .error "source configuration must be a private valid config file"

/-- Refuses a new local host that is unsafe, known or excluded, and a rename that would fold two
nodes of the topology into one. -/
def checkLocalHost (options : MigrationOptions) (raw : InstallationDocument)
    (config : MonitorConfig Json) (new : Option String) : Except LifecycleError Unit := do
  let old := config.localHost
  let name := new.getD ""
  require (new.all isSafeAlias) ("invalid local host alias: " ++ name)
  require (options.displayName.isNone || new.isSome)
    "display name requires a migrated local host"
  require (new.all fun name => new = old || !config.hosts.contains name)
    ("new local host alias already identifies another target: " ++ name)
  require (new.all fun name => !config.excludeHosts.contains name)
    ("new local host alias is excluded: " ++ name)
  require (new.all fun name =>
      old.isNone || new = old || !topologyContains raw.inventory.topology name)
    ("new local host alias already appears in the configured topology: " ++ name)

/-- The file of a document. -/
def writtenFile (path : String) (data : InstallationDocument) : ConfigFile where
  path := path
  bytes := port.textLength data
  content := .ok data

/-- Writes the target and loads it. -/
def writePrivateTarget (directory : TargetDirectory) (data : InstallationDocument) :
    Except LifecycleError ConfigFile := do
  require directory.isPrepared "migration target directory cannot be prepared"
  require directory.isPrivate
    "migration target directory must be owner-controlled and not writable by others"
  require (!directory.hasTarget) ("migration target already exists: " ++ directory.target)
  require (!directory.hasToken)
    ("migration target contains access-token; use a clean directory so the new installation "
      ++ "receives a fresh capability")
  require directory.writes "cannot write migrated configuration"
  match loadPrivateConfig port (writtenFile port directory.target data) with
  | .ok _ => .ok (writtenFile port directory.target data)
  | .error message => .error ("migrated configuration is invalid: " ++ message)

/-- Writes the configuration of a new installation. -/
def migrateConfig (source : ConfigFile) (directory : TargetDirectory)
    (options : MigrationOptions) : Except LifecycleError (MigrationResult × ConfigFile) := do
  require (!(options.dropLocalHost && options.localHost.isSome))
    "--local-host and --drop-local-host are mutually exclusive"
  let (raw, config) ← sourceData port source
  let new := newLocalHost options config.inventory.localHost
  checkLocalHost options raw config.inventory new
  let (data, dropped) := migrated options config raw
  let file ← writePrivateTarget port directory data
  return ({ source := source.path
            target := directory.target
            oldLocalHost := config.inventory.localHost
            newLocalHost := new
            autoDiscover := data.inventory.autoDiscover
            droppedFields := dropped }, file)

end Migration

end Mocop
