import Mocop.Inventory.Discovery
import Mocop.Lib.Calendar
import Mocop.Service.Snapshots

/-!
# `Mocop.Inventory.Published`: the inventory and the topology that the service publishes

`inventorySnapshot` is the answer about the inventory and `topologySnapshot` the one about the
topology, as values of JSON. The service has no answer where the end of a window is not a date of
the calendar.
-/

set_option autoImplicit false

namespace Mocop

/-! ### Maintenance windows -/

/-- The text of a second, if the calendar has it. -/
def utcText (second : ℤ) : Option String := (Instant.ofSeconds second).map Instant.isoformat

/-- The text of a cadence. -/
def MaintenanceCadence.spelled : MaintenanceCadence → String
  | .weekly => "weekly"
  | .daily => "daily"

/-- The text of the cadence of a window that recurs. -/
def WindowView.cadenceText (view : WindowView) : Option String :=
  view.cadence.map MaintenanceCadence.spelled

/-- The members of a shown window. -/
def WindowView.members (view : WindowView) : Option (List (String × Json)) := do
  let until_ ← utcText view.until_
  return [("until", .string until_), ("reason", .string view.reason)]
    ++ match view.cadenceText with
      | some cadence => [("recurring", .bool true), ("cadence", .string cadence)]
      | none => []

@[simp] theorem MaintenanceWindowConfig.reason_toDict (window : MaintenanceWindowConfig) (now : ℚ) :
    (window.toDict now).reason = window.reason := by
  unfold MaintenanceWindowConfig.toDict
  split <;> rfl

/-- A cadence is spelled as one of two texts. -/
theorem MaintenanceCadence.spelled_mem (cadence : MaintenanceCadence) :
    cadence.spelled ∈ ["weekly", "daily"] := by
  cases cadence <;> decide

/-- The entry of a window: its members, and whether it silences its host. -/
def windowEntry (now : ℚ) (entry : String × MaintenanceWindowConfig) : Option (String × Json) := do
  let members ← (entry.2.toDict now).members
  return (entry.1, .object (members ++ [("active", .bool (entry.2.isActive now))]))

/-! ### The answers -/

/-- The members of an action in force. -/
def IncidentActionDocument.toDict (text : TextRules) (action : IncidentActionDocument) :
    Option Json := do
  let until_ ← utcText ⌊← text.strptime action.until_⌋
  return .object [("host", .string action.host), ("condition_key", .string action.conditionKey),
    ("action", .string action.action), ("until", .string until_),
    ("reason", .string action.reason),
    ("incident_started_at", (action.incidentStartedAt.map Json.string).getD .null)]

/-- The settings of the collector. -/
def CollectorSettings.toDict (settings : CollectorSettings) : Json :=
  .object [("pollIntervalSeconds", .fraction settings.pollIntervalSeconds),
    ("probeTimeoutSeconds", .fraction settings.probeTimeoutSeconds),
    ("connectTimeoutSeconds", .integer settings.connectTimeoutSeconds),
    ("maxWorkers", .integer settings.maxWorkers)]

/-- The aliases that could be added. -/
def HostDiscoverySnapshot.available (discovery : HostDiscoverySnapshot) : List String :=
  discovery.eligibleAliases.filter fun name => !discovery.hosts.contains name

/-- The groups of the listed hosts. -/
def listedGroups (loaded : InventoryConfig) (discovery : HostDiscoverySnapshot) :
    List (String × String) :=
  discovery.hostGroups.filter fun entry => loaded.config.hosts.contains entry.1

/-- The answer about the inventory. `writable` is whether the file may be written. -/
def inventorySnapshot (text : TextRules) (loaded : InventoryConfig)
    (discovery : HostDiscoverySnapshot) (now : ℚ) (writable : Bool) : Option Json := do
  let windows ← loaded.maintenanceWindows.mapM (windowEntry now)
  let actions ← (loaded.config.incidentActions.filter fun action =>
    (text.strptime action.until_).any fun until_ => now < until_).mapM
      (IncidentActionDocument.toDict text)
  let ignored := discovery.aliases.countP isCodeHostAlias
  let excluded := discovery.aliases.countP fun name =>
    loaded.config.excludeHosts.contains name && !isCodeHostAlias name
  return .object [
    ("configuredHosts", .strings loaded.config.hosts),
    ("activeHosts", .strings discovery.hosts),
    ("availableHosts", .strings discovery.available),
    ("localHost", (loaded.config.localHost.map Json.string).getD .null),
    ("autoDiscover", .bool loaded.config.autoDiscover),
    ("ignoredCodeHostCount", .integer ignored),
    ("excludedHostCount", .integer excluded),
    ("collectorSettings", loaded.collector.toDict),
    ("maintenanceWindows", .object windows),
    ("incidentActions", .array actions),
    ("hostGroups", .object ((listedGroups loaded discovery).map fun entry =>
      (entry.1, .string entry.2))),
    ("sshDiscoveryMode", .string discovery.mode.spelled),
    ("infrastructureHosts", .strings discovery.infrastructureHosts),
    ("sshDiscoveryWarnings", .strings discovery.warnings),
    ("writable", .bool writable)]

/-- The members of a link. -/
def TopologyLink.toDict (link : TopologyLink) : Json :=
  .object ([("source", .string link.source), ("target", .string link.target),
    ("transport", .string link.transport)]
    ++ match link.label with
      | some label => [("label", .string label)]
      | none => [])

/-- The members of a topology. -/
def TopologyDocument.toDict (topology : TopologyDocument) : Json :=
  .object [("root", .string topology.root), ("links", .array (topology.links.map (·.toDict)))]

/-- The topology that is shown: the configured one, or the projected one. -/
def shownTopology (loaded : InventoryConfig) (discovery : HostDiscoverySnapshot) :
    Option TopologyDocument :=
  match loaded.config.topology with
  | some topology => some topology
  | none => if loaded.sshDiscovery.mode = .topology then discovery.topology else none

/-- The answer about the topology. -/
def topologySnapshot (loaded : InventoryConfig) (discovery : HostDiscoverySnapshot) : Json :=
  match shownTopology loaded discovery with
  | some topology => topology.toDict
  | none => .object [("root", .null), ("links", .array [])]

end Mocop
