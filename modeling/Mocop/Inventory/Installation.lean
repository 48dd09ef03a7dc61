import Mocop.Inventory.Loaded
import Mocop.Inventory.Windows

/-!
# `Mocop.Inventory.Installation`: the configuration file of an installation

`loadPrivateConfigDocument` loads a file: it is bounded, holds a document, and the document
passes the checks of the inventory (`loadConfig`) and those of the two settings that bind the
document to a machine: the path of the SSH configuration and the route discovery. The checks of
a display name and of the numbers beside it are here too (`hostOverride`).

A file is its size and the document that its text spells. What Python and the system know about
texts and paths is a parameter (`InstallationPort`), and so are the checks of the settings that
name no host.
-/

set_option autoImplicit false

namespace Mocop

/-! ### Route discovery -/

/-- How routes become inventory metadata. -/
inductive DiscoveryMode where
  | aliases
  | topology
  deriving DecidableEq

/-- The spelling of a mode. -/
def DiscoveryMode.spelled : DiscoveryMode → String
  | .aliases => "aliases"
  | .topology => "topology"

/-- The policy of the route discovery. -/
structure SshDiscoveryConfig where
  mode : DiscoveryMode
  refreshSeconds : ℤ
  resolveTimeoutSeconds : ℚ
  deriving DecidableEq

/-- Loads the policy of the route discovery. -/
def parseSshDiscoveryConfig (raw : Json) : Except ConfigError SshDiscoveryConfig := do
  let members ← present (raw.object?.filter fun members => members.all fun member =>
      ["mode", "refresh_seconds", "resolve_timeout_seconds"].contains member.1)
    "ssh_discovery must contain only mode, refresh_seconds, and resolve_timeout_seconds"
  let spelled := ((members.lookup "mode").getD (.string "aliases")).string?
  let mode ← present ([DiscoveryMode.aliases, DiscoveryMode.topology].find? fun mode =>
      spelled = some mode.spelled)
    "ssh_discovery.mode must be aliases or topology"
  let refresh ← present (((members.lookup "refresh_seconds").getD (.integer 300)).integer?.filter
      fun seconds => 30 ≤ seconds && seconds ≤ 3600)
    "ssh_discovery.refresh_seconds must be between 30 and 3600"
  let timeout ← present
    (((members.lookup "resolve_timeout_seconds").getD (.integer 3)).number?.filter
      fun seconds => 1 ≤ seconds && seconds ≤ 30)
    "ssh_discovery.resolve_timeout_seconds must be between 1 and 30"
  return { mode := mode, refreshSeconds := refresh, resolveTimeoutSeconds := timeout }

/-- The section of a policy. -/
def SshDiscoveryConfig.section_ (policy : SshDiscoveryConfig) : Json :=
  .object [("mode", .string policy.mode.spelled),
    ("refresh_seconds", .integer policy.refreshSeconds),
    ("resolve_timeout_seconds", .fraction policy.resolveTimeoutSeconds)]

/-- A policy that was loaded is within the bounds. -/
def SshDiscoveryConfig.InBounds (policy : SshDiscoveryConfig) : Prop :=
  (30 ≤ policy.refreshSeconds ∧ policy.refreshSeconds ≤ 3600)
    ∧ 1 ≤ policy.resolveTimeoutSeconds ∧ policy.resolveTimeoutSeconds ≤ 30

/-- A loaded policy is within the bounds. -/
theorem parseSshDiscoveryConfig_inBounds {raw : Json} {policy : SshDiscoveryConfig}
    (h : parseSshDiscoveryConfig raw = .ok policy) : policy.InBounds := by
  obtain ⟨members, -, h⟩ := bind_eq_ok.mp h
  obtain ⟨mode, -, h⟩ := bind_eq_ok.mp h
  obtain ⟨refresh, hrefresh, h⟩ := bind_eq_ok.mp h
  obtain ⟨timeout, htimeout, h⟩ := bind_eq_ok.mp h
  obtain rfl := Except.ok.inj h
  have hrange := (Option.filter_eq_some_iff.mp (present_eq_ok.mp hrefresh)).2
  have hlimit := (Option.filter_eq_some_iff.mp (present_eq_ok.mp htimeout)).2
  rw [Bool.and_eq_true, decide_eq_true_eq, decide_eq_true_eq] at hrange hlimit
  exact ⟨hrange, hlimit⟩

/-- A policy within the bounds is loaded from its section. -/
theorem parseSshDiscoveryConfig_section {policy : SshDiscoveryConfig} (h : policy.InBounds) :
    parseSshDiscoveryConfig policy.section_ = .ok policy := by
  obtain ⟨mode, refresh, timeout⟩ := policy
  obtain ⟨hrefresh, htimeout⟩ := h
  have hmode : ([DiscoveryMode.aliases, DiscoveryMode.topology].find? fun known =>
      (Json.string mode.spelled).string? = some known.spelled) = some mode := by
    cases mode <;> rfl
  have hrange : (some refresh).filter (fun seconds => 30 ≤ seconds && seconds ≤ 3600)
      = some refresh := by
    simpa [Option.filter_eq_some_iff] using hrefresh
  have hlimit : (some timeout).filter (fun seconds => 1 ≤ seconds && seconds ≤ 30)
      = some timeout := by
    simpa [Option.filter_eq_some_iff] using htimeout
  refine bind_eq_ok.mpr ⟨_, present_eq_ok.mpr rfl, ?_⟩
  refine bind_eq_ok.mpr ⟨mode, present_eq_ok.mpr hmode, ?_⟩
  refine bind_eq_ok.mpr ⟨refresh, present_eq_ok.mpr hrange, ?_⟩
  exact bind_eq_ok.mpr ⟨timeout, present_eq_ok.mpr hlimit, rfl⟩

/-! ### Host overrides -/

/-- `DISPLAY_NAME_MAX_LENGTH` -/
def displayNameMaxLength : ℕ := 64

/-- Whether a text may be shown in place of an alias. -/
def isValidDisplayName (text : TextRules) (value : String) : Bool :=
  pyStrip value ≠ "" && (pyStrip value).length ≤ displayNameMaxLength
    && !value.toList.any (isDisallowed text)

/-- An optional number of an object, within bounds. -/
def optionalBoundedNumber (members : List (String × Json)) (key label : String)
    (minimum maximum : ℚ) : Except ConfigError (Option ℚ) :=
  match members.lookup key with
  | none | some .null => .ok none
  | some value => do
    let number ← present value.number? (label ++ " must be a number")
    require (minimum ≤ number && number ≤ maximum)
      (label ++ " must be between " ++ toString minimum ++ " and " ++ toString maximum)
    return some number

/-- `connect_timeout_seconds` -/
def connectTimeout (rest : Dict String Json) : Option ℤ :=
  (rest.get? "connect_timeout_seconds").bind Json.integer?

/-- Checks the override of one host. -/
def hostOverride (text : TextRules) (rest : Dict String Json) (name : String) (raw : Json) :
    Except ConfigError Unit := do
  let label := "host_overrides." ++ name
  let members ← present raw.object? (label ++ " must be a JSON object")
  let unknown := ((members.map Prod.fst).filter fun key =>
    !(["poll_interval_seconds", "probe_timeout_seconds", "display_name"].contains key)).mergeSort
      (· ≤ ·)
  require unknown.isEmpty ("unknown " ++ label ++ " keys: " ++ String.intercalate ", " unknown)
  require (!members.isEmpty) (label ++ " must not be empty")
  require ((members.lookup "display_name").all fun value =>
      value.string?.any (isValidDisplayName text))
    (label ++ ".display_name must be 1 to " ++ toString displayNameMaxLength
      ++ " visible characters")
  let _ ← optionalBoundedNumber members "poll_interval_seconds"
    (label ++ ".poll_interval_seconds") 1 3600
  let timeout ← optionalBoundedNumber members "probe_timeout_seconds"
    (label ++ ".probe_timeout_seconds") 2 300
  require (timeout.all fun seconds => (connectTimeout rest).any fun connect =>
      (connect : ℚ) < seconds)
    (label ++ ".probe_timeout_seconds must be greater than connect_timeout_seconds")

/-- The override that shows a name. -/
def displayNameOverride (name : String) : Json := .object [("display_name", .string name)]

/-- An override with a valid name alone passes its checks. -/
theorem returns_displayNameOverride {text : TextRules} {rest : Dict String Json}
    {host name : String} (h : isValidDisplayName text name = true) :
    Returns (hostOverride text rest host (displayNameOverride name)) := by
  have hkeys : ((([("display_name", Json.string name)].map Prod.fst).filter fun key =>
      !(["poll_interval_seconds", "probe_timeout_seconds", "display_name"].contains key)).mergeSort
        (· ≤ ·)).isEmpty = true := by
    show ((["display_name"].filter fun key =>
      !(["poll_interval_seconds", "probe_timeout_seconds", "display_name"].contains key)).mergeSort
        (· ≤ ·)).isEmpty = true
    decide +kernel
  have hname : (([("display_name", Json.string name)].lookup "display_name").all fun value =>
      value.string?.any (isValidDisplayName text)) = true := by
    show isValidDisplayName text name = true
    exact h
  refine (returns_bind_iff _ _).mpr ⟨_, present_eq_ok.mpr rfl, ?_⟩
  refine (returns_bind_iff _ _).mpr ⟨(), require_eq_ok.mpr hkeys, ?_⟩
  refine (returns_bind_iff _ _).mpr ⟨(), rfl, ?_⟩
  refine (returns_bind_iff _ _).mpr ⟨(), require_eq_ok.mpr hname, ?_⟩
  exact ⟨(), rfl⟩

/-! ### The file -/

/-- The document of an installation. -/
structure InstallationDocument where
  inventory : ConfigDocument Json
  sshConfig : String
  sshDiscovery : Option Json

/-- The configuration of an installation. `settings` are the sections that name no host. -/
structure InstallationConfig where
  inventory : MonitorConfig Json
  sshConfig : String
  sshDiscovery : SshDiscoveryConfig
  settings : Dict String Json

/-- A configuration file: its place, its size, and the document that its text spells. -/
structure ConfigFile where
  path : String
  bytes : ℕ
  content : Except ConfigError InstallationDocument

/-- What an installation asks of Python and of the system. `isControl` are the Unicode categories
`Cc` and `Cs`, `resolvePath` expands a path that is written in a file, and `textLength` is the
size of the text of a document, indented by two blanks and encoded in UTF-8. -/
structure InstallationPort where
  text : TextRules
  isControl : Char → Bool
  resolvePath : String → String → Option String
  scopeOverride : String → Json → Except ConfigError Unit
  settings : Dict String Json → Except ConfigError Unit
  textLength : InstallationDocument → ℕ

section Installation

variable (port : InstallationPort)

/-- The checks of the values in a document. -/
def documentRules : ValueRules Json where
  isOther := port.text.isOther
  timestamp := fun value => (utcTimestamp port.text (some (.string value)) "until").isOk
  hostOverride := hostOverride port.text
  maintenanceWindow := fun name raw => (maintenanceWindow port.text name raw).map fun _ => ()
  scopeOverride := port.scopeOverride
  settings := port.settings

/-- The path of the SSH configuration. -/
def sshConfigPath (raw path : String) : Except ConfigError String := do
  require (!raw.toList.any port.isControl)
    "ssh_config must not contain control or surrogate characters"
  present (port.resolvePath path raw) "ssh_config is not a valid filesystem path"

/-- Loads the document of a file. -/
def parseConfig (path : String) (doc : InstallationDocument) :
    Except ConfigError InstallationConfig := do
  require (pyStrip doc.sshConfig ≠ "") "ssh_config must be a non-empty path"
  let discovery ← parseSshDiscoveryConfig (doc.sshDiscovery.getD (.object []))
  let inventory ← loadConfig (documentRules port) doc.inventory
  let sshConfig ← sshConfigPath port doc.sshConfig path
  return { inventory := inventory, sshConfig := sshConfig, sshDiscovery := discovery,
           settings := doc.inventory.rest }

/-- Loads a file, with the document that it holds. -/
def loadPrivateConfigDocument (file : ConfigFile) :
    Except ConfigError (InstallationDocument × InstallationConfig) := do
  require (file.bytes ≤ configMaxBytes)
    ("config file exceeds the " ++ toString configMaxBytes ++ "-byte limit: " ++ file.path)
  let doc ← file.content
  let config ← parseConfig port file.path doc
  return (doc, config)

/-- Loads a file. -/
def loadPrivateConfig (file : ConfigFile) : Except ConfigError InstallationConfig := do
  let (_, config) ← loadPrivateConfigDocument port file
  return config

end Installation

/-- What the configuration of a file says about its document. -/
theorem parseConfig_eq_ok_iff {port : InstallationPort} {path : String} {doc : InstallationDocument}
    {loaded : InstallationConfig} :
    parseConfig port path doc = .ok loaded
      ↔ pyStrip doc.sshConfig ≠ ""
        ∧ parseSshDiscoveryConfig (doc.sshDiscovery.getD (.object [])) = .ok loaded.sshDiscovery
        ∧ (Loadable (documentRules port) doc.inventory
          ∧ loaded.inventory = doc.inventory.loaded)
        ∧ sshConfigPath port doc.sshConfig path = .ok loaded.sshConfig
        ∧ loaded.settings = doc.inventory.rest := by
  unfold parseConfig
  simp only [bind_eq_ok, require_eq_ok, exists_const, decide_eq_true_eq, loadConfig_eq_ok_iff]
  constructor
  · rintro ⟨hpath, discovery, hdiscovery, inventory, hinventory, sshConfig, hssh, heq⟩
    obtain rfl := Except.ok.inj heq
    exact ⟨hpath, hdiscovery, hinventory, hssh, rfl⟩
  · rintro ⟨hpath, hdiscovery, hinventory, hssh, hsettings⟩
    refine ⟨hpath, _, hdiscovery, _, hinventory, _, hssh, ?_⟩
    obtain ⟨inventory, sshConfig, discovery, settings⟩ := loaded
    obtain rfl : settings = doc.inventory.rest := hsettings
    rfl

end Mocop
