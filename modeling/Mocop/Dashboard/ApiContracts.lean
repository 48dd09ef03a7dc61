import Mocop.Inventory.Published

/-!
# `Mocop.Dashboard.ApiContracts`: what the dashboard accepts of the inventory and the topology

`normalizeInventory` and `normalizeTopology` check the answers of the private API and return what
the dashboard reads of them. Every check that fails throws the same error for its part of the
answer. The checks are those of the script: they share no definition with the loader of the
configuration, apart from the worklist that walks a tree.

What the browser knows of texts and dates is a parameter (`BrowserRules`). A number of an answer
is the rational number that its text spells.
-/

set_option autoImplicit false

namespace Mocop.ApiContracts

/-! ### Values -/

/-- What a browser knows: the Unicode category `C`, and the milliseconds since the epoch that
`Date.parse` reads from a text. It reads the simplified format of ISO 8601. -/
structure BrowserRules where
  isOther : Char → Bool
  dateParse : String → Option ℤ
  dateParse_isoformat : ∀ instant : Instant,
    dateParse instant.isoformat = some (1000 * instant.seconds)

/-- Whether `trim` removes a character. -/
def isJsSpace (c : Char) : Bool :=
  let n := c.toNat
  (9 ≤ n && n ≤ 13) || n == 32 || n == 0xa0 || n == 0x1680 || (0x2000 ≤ n && n ≤ 0x200a)
    || n == 0x2028 || n == 0x2029 || n == 0x202f || n == 0x205f || n == 0x3000 || n == 0xfeff

/-- `text.trim()` -/
def jsTrim (text : String) : String :=
  String.ofList (((text.toList.dropWhile isJsSpace).reverse.dropWhile isJsSpace).reverse)

/-- The code units of a text. -/
def utf16Length (text : String) : ℕ :=
  (text.toList.map fun c => if c.toNat < 0x10000 then 1 else 2).sum

/-- `value?.length`, where it is a number. -/
def lengthOf : Option Json → Option ℚ
  | some (.array items) => some items.length
  | some (.string text) => some (utf16Length text)
  | some (.object members) => (members.lookup "length").bind Json.number?
  | _ => none

/-- `Number.isSafeInteger(value)`, with the integer. -/
def safeInteger (value : Option Json) : Option ℤ :=
  ((value.bind Json.number?).filter fun x =>
    x.isInt && x.num.natAbs ≤ 9007199254740991).map (·.num)

/-- The number that a property name spells, where it is an array index. -/
def arrayIndex (name : String) : Option ℕ :=
  name.toNat?.filter fun n => toString n = name && n < 4294967295

/-- `Object.entries(value)`: the array indices come first, in their order. -/
def objectEntries {α : Type} (members : List (String × α)) : List (String × α) :=
  ((members.filter fun entry => (arrayIndex entry.1).isSome).mergeSort fun a b =>
      decide ((arrayIndex a.1).getD 0 ≤ (arrayIndex b.1).getD 0))
    ++ members.filter fun entry => !(arrayIndex entry.1).isSome

/-! ### Hosts -/

/-- The pattern of a host: a letter or a digit, and at most 252 letters, digits, dots,
underscores and hyphens. -/
def isStoredHost (text : String) : Bool :=
  let isWord := fun c : Char => ('A' ≤ c && c ≤ 'Z') || ('a' ≤ c && c ≤ 'z') || ('0' ≤ c && c ≤ '9')
  match text.toList with
  | [] => false
  | first :: rest => isWord first
      && rest.all (fun c => isWord c || ['.', '_', '-'].contains c) && rest.length ≤ 252

/-- The hosts of an array, each once. -/
def safeStoredHosts (value : Option Json) : List String :=
  ((((value.bind Json.array?).getD []).filterMap Json.string?).filter isStoredHost).eraseDups

/-- `safeStoredHosts([value])[0]` -/
def storedHost (value : Option Json) : Option String :=
  (safeStoredHosts (some (.array [value.getD .null]))).head?

/-! ### The inventory -/

/-- The settings of the collector. -/
structure CollectorView where
  pollIntervalSeconds : ℚ
  probeTimeoutSeconds : ℚ
  connectTimeoutSeconds : ℚ
  maxWorkers : ℤ
  deriving DecidableEq

/-- Checks the settings of the collector. -/
def normalizeCollectorSettings (payload : Option Json) : Except String CollectorView := do
  let message := "Invalid collector settings response"
  let settings ← present (payload.bind Json.object?) message
  let number := fun key (inBounds : ℚ → Bool) =>
    present (((settings.lookup key).bind Json.number?).filter inBounds) message
  let pollInterval ← number "pollIntervalSeconds" fun x => 1 ≤ x && x ≤ 3600
  let probeTimeout ← number "probeTimeoutSeconds" fun x => 2 ≤ x && x ≤ 300
  let connectTimeout ← number "connectTimeoutSeconds" fun x => 0 < x && x ≤ 300
  let maxWorkers ← present ((safeInteger (settings.lookup "maxWorkers")).filter fun n =>
    1 ≤ n && n ≤ 64) message
  return ⟨pollInterval, probeTimeout, connectTimeout, maxWorkers⟩

/-- A maintenance window. -/
structure WindowView where
  until_ : String
  reason : String
  recurring : Bool
  cadence : Option String
  active : Bool
  deriving DecidableEq

/-- The answers in an inventory. -/
structure InventoryView where
  configuredHosts : List String
  activeHosts : List String
  availableHosts : List String
  localHost : Option Json
  autoDiscover : Bool
  writable : Bool
  ignoredCodeHostCount : ℤ
  excludedHostCount : ℤ
  collectorSettings : CollectorView
  maintenanceWindows : Dict String WindowView
  hostGroups : Dict String String
  infrastructureHosts : List String
  sshDiscoveryWarnings : List String
  sshDiscoveryMode : String

/-- The answers in a topology. -/
structure TopologyView where
  root : Option String
  links : List TopologyLink
  deriving DecidableEq

section Contracts

variable (rules : BrowserRules)

/-- Whether a text is shown as it is: not empty, trimmed, bounded and visible. -/
def isShownText (limit : ℕ) (text : String) : Bool :=
  text ≠ "" && text = jsTrim text && text.length ≤ limit && !text.toList.any rules.isOther

/-- Adds the group of one host. -/
def addHostGroup (configured : List String) (groups : Dict String String)
    (entry : String × Json) : Except String (Dict String String) := do
  let message := "Invalid host groups response"
  require (configured.contains entry.1) message
  let group ← present (entry.2.string?.filter (isShownText rules 48)) message
  return groups.set entry.1 group

/-- Checks the groups. -/
def normalizeHostGroups (payload : Option Json) (configured : List String) :
    Except String (Dict String String) := do
  let members ← present (payload.bind Json.object?) "Invalid host groups response"
  (objectEntries members).foldlM (addHostGroup rules configured) ∅

/-- Checks one window. -/
def windowView (raw : Json) : Except String WindowView := do
  let message := "Invalid maintenance windows response"
  let window ← present raw.object? message
  let recurring := (window.lookup "recurring").bind Json.bool? = some true
  let cadence := window.lookup "cadence"
  require ((window.lookup "until").isSome && (window.lookup "reason").isSome
    && window.all fun member =>
      ["until", "reason", "recurring", "cadence", "active"].contains member.1) message
  require ((window.lookup "recurring").all fun value => value.bool?.isSome) message
  require (cadence.all fun value =>
    recurring && value.string?.any ["weekly", "daily"].contains) message
  let active ← present ((window.lookup "active").bind Json.bool?) message
  let until_ ← present (((window.lookup "until").bind Json.string?).filter fun text =>
    (rules.dateParse text).isSome) message
  let reason ← present (((window.lookup "reason").bind Json.string?).filter fun text =>
    text.length ≤ 120 && !text.toList.any rules.isOther) message
  return { until_ := until_, reason := reason, recurring := recurring,
           cadence := if recurring then cadence.bind Json.string? else none, active := active }

/-- Adds the window of one host. -/
def addWindow (configured : List String) (windows : Dict String WindowView)
    (entry : String × Json) : Except String (Dict String WindowView) := do
  require (configured.contains entry.1) "Invalid maintenance windows response"
  let window ← windowView rules entry.2
  return windows.set entry.1 window

/-- Checks the windows. -/
def normalizeMaintenanceWindows (payload : Option Json) (configured : List String) :
    Except String (Dict String WindowView) := do
  let members ← present (payload.bind Json.object?) "Invalid maintenance windows response"
  (objectEntries members).foldlM (addWindow rules configured) ∅

/-- Checks an inventory. -/
def normalizeInventory (payload : Json) : Except String InventoryView := do
  let message := "Invalid inventory response"
  let members ← present payload.object? message
  let hosts := fun key => safeStoredHosts (members.lookup key)
  let sameLength := fun key =>
    lengthOf (members.lookup key) = some ((hosts key).length : ℚ)
  let collectorSettings ← normalizeCollectorSettings (members.lookup "collectorSettings")
  let maintenanceWindows ← normalizeMaintenanceWindows rules (members.lookup "maintenanceWindows")
    (hosts "configuredHosts")
  let hostGroups ← normalizeHostGroups rules (members.lookup "hostGroups")
    (hosts "configuredHosts")
  require (sameLength "configuredHosts" && sameLength "activeHosts" && sameLength "availableHosts")
    message
  require (Json.isNullish (members.lookup "localHost")
    || (storedHost (members.lookup "localHost")).isSome) message
  let autoDiscover ← present ((members.lookup "autoDiscover").bind Json.bool?) message
  let writable ← present ((members.lookup "writable").bind Json.bool?) message
  let ignoredCount ← present (safeInteger (members.lookup "ignoredCodeHostCount")) message
  let excludedCount ← present (safeInteger (members.lookup "excludedHostCount")) message
  let mode ← present (((members.lookup "sshDiscoveryMode").bind Json.string?).filter
    ["aliases", "topology"].contains) message
  require (((members.lookup "infrastructureHosts").bind Json.array?).any fun items =>
    (hosts "infrastructureHosts").length = items.length) message
  return {
    configuredHosts := hosts "configuredHosts"
    activeHosts := hosts "activeHosts"
    availableHosts := hosts "availableHosts"
    localHost := members.lookup "localHost"
    autoDiscover := autoDiscover
    writable := writable
    ignoredCodeHostCount := max 0 ignoredCount
    excludedHostCount := max 0 excludedCount
    collectorSettings := collectorSettings
    maintenanceWindows := maintenanceWindows
    hostGroups := hostGroups
    infrastructureHosts := hosts "infrastructureHosts"
    sshDiscoveryWarnings := ((((members.lookup "sshDiscoveryWarnings").bind Json.array?).getD
      []).filterMap Json.string?).take 1024
    sshDiscoveryMode := mode }

/-! ### The topology -/

/-- Checks one link, after links with these targets. -/
def linkView (root : String) (targets : List String) (raw : Json) :
    Except String TopologyLink := do
  let message := "Invalid topology link"
  let link ← present raw.object? message
  require (["source", "target", "transport"].all fun key => (link.lookup key).isSome) message
  require (link.all fun member =>
    ["source", "target", "transport", "label"].contains member.1) message
  let source ← present (storedHost (link.lookup "source")) message
  let target ← present (storedHost (link.lookup "target")) message
  require (source ≠ target && target ≠ root && !targets.contains target) message
  let transport ← present (((link.lookup "transport").bind Json.string?).filter
    ["ssh", "frp-stcp", "frp-xtcp", "vpn"].contains) message
  let label ←
    if Json.isNullish (link.lookup "label") then pure none
    else (present (((link.lookup "label").bind Json.string?).filter (isShownText rules 64))
      message).map some
  return { source := source, target := target, transport := transport, label := label }

/-- Adds one checked link. -/
def addLinkView (root : String) (links : List TopologyLink) (raw : Json) :
    Except String (List TopologyLink) := do
  let link ← linkView rules root (links.map (·.target)) raw
  return links ++ [link]

/-- Checks a topology. -/
def normalizeTopology (payload : Json) : Except String TopologyView := do
  let message := "Invalid topology response"
  let members ← present payload.object? message
  let raw := (members.lookup "links").bind Json.array?
  if Json.isNullish (members.lookup "root") && raw.any (·.isEmpty) then
    return { root := none, links := [] }
  let root ← present (storedHost (members.lookup "root")) message
  let raw ← present (raw.filter (·.length ≤ 512)) message
  let links ← raw.foldlM (addLinkView rules root) []
  let reachable := reachFrom TopologyLink.source TopologyLink.target links (links.length + 1)
    [root] [root]
  require (links.all fun link => reachable.contains link.source && reachable.contains link.target)
    "Invalid topology tree"
  return { root := some root, links := links }

end Contracts


/-! ### Hosts that are accepted -/

/-- The two patterns of a host are the same. -/
theorem isStoredHost_eq (text : String) : isStoredHost text = isSafeAlias text := by
  have hword : ∀ c : Char, (('A' ≤ c && c ≤ 'Z') || ('a' ≤ c && c ≤ 'z') || ('0' ≤ c && c ≤ '9'))
      = isAliasStart c := by
    intro c
    have hcodes : 'A'.toNat = 65 ∧ 'Z'.toNat = 90 ∧ 'a'.toNat = 97 ∧ 'z'.toNat = 122
      ∧ '0'.toNat = 48 ∧ '9'.toNat = 57 := by decide
    have hle : ∀ a b : Char, a ≤ b ↔ a.toNat ≤ b.toNat := fun a b => UInt32.le_iff_toNat_le
    rw [Bool.eq_iff_iff]
    simp only [isAliasStart, Bool.or_eq_true, Bool.and_eq_true, decide_eq_true_eq, hle]
    omega
  have hchar : ∀ c : Char, (isAliasStart c || ['.', '_', '-'].contains c) = isAliasChar c := by
    intro c
    simp only [isAliasChar, List.contains_cons, List.contains_nil, Bool.or_false, Bool.or_assoc]
  unfold isStoredHost isSafeAlias
  cases text.toList with
  | nil => rfl
  | cons first rest => simp only [hword, hchar]

/-- Distinct safe aliases come through as they are. -/
theorem safeStoredHosts_strings {hosts : List String}
    (hsafe : ∀ host ∈ hosts, isSafeAlias host = true) (hnodup : hosts.Nodup) :
    safeStoredHosts (some (Json.strings hosts)) = hosts := by
  have htexts : (hosts.map Json.string).filterMap Json.string? = hosts := by
    rw [List.filterMap_map]
    exact List.filterMap_some
  have hkept : hosts.filter isStoredHost = hosts :=
    List.filter_eq_self.mpr fun host hhost => (isStoredHost_eq host).trans (hsafe host hhost)
  show (((hosts.map Json.string).filterMap Json.string?).filter isStoredHost).eraseDups = hosts
  rw [htexts, hkept, eraseDups_of_nodup hnodup]

/-- The length of an array of texts. -/
theorem lengthOf_strings (hosts : List String) :
    lengthOf (some (Json.strings hosts)) = some (hosts.length : ℚ) := by
  show some (((hosts.map Json.string).length : ℕ) : ℚ) = _
  rw [List.length_map]

/-- A safe alias comes through. -/
theorem storedHost_string {host : String} (h : isSafeAlias host = true) :
    storedHost (some (.string host)) = some host := by
  have hone : safeStoredHosts (some (Json.strings [host])) = [host] :=
    safeStoredHosts_strings (by simpa using h) (List.nodup_singleton _)
  show (safeStoredHosts (some (Json.strings [host]))).head? = some host
  rw [hone]
  rfl

/-! ### Numbers and texts that are accepted -/

/-- A small integer is a safe one. -/
theorem safeInteger_integer {n : ℤ} (h : n.natAbs ≤ 9007199254740991) :
    safeInteger (some (.integer n)) = some n := by
  have hint : ((n : ℚ).isInt && (n : ℚ).num.natAbs ≤ 9007199254740991) = true := by
    rw [Bool.and_eq_true, decide_eq_true_eq]
    exact ⟨rfl, h⟩
  show ((some (n : ℚ)).filter _).map (·.num) = some n
  rw [Option.filter_some, if_pos hint]
  rfl

/-- A blank of the script is a blank of the loader or the byte order mark. -/
theorem isPySpace_of_isJsSpace {c : Char} (h : isJsSpace c = true) :
    isPySpace c = true ∨ c = '\uFEFF' := by
  by_cases hmark : c.toNat = 0xfeff
  · exact .inr (Char.toNat_inj.mp hmark)
  · left
    simp only [isJsSpace, Bool.or_eq_true, Bool.and_eq_true, decide_eq_true_eq, beq_iff_eq] at h
    simp only [isPySpace, Bool.or_eq_true, Bool.and_eq_true, decide_eq_true_eq, beq_iff_eq]
    omega

/-- What one predicate drops nothing of, a stronger one drops nothing of. -/
theorem dropWhile_eq_self_of_imp {α : Type} {p q : α → Bool} {l : List α}
    (h : l.dropWhile p = l) (himp : ∀ a ∈ l, q a = true → p a = true) : l.dropWhile q = l := by
  cases l with
  | nil => rfl
  | cons a rest =>
    by_cases hq : q a = true
    · rw [List.dropWhile_cons_of_pos (himp a List.mem_cons_self hq)] at h
      have hle : (rest.dropWhile p).length ≤ rest.length := (List.dropWhile_suffix p).length_le
      rw [h, List.length_cons] at hle
      omega
    · exact List.dropWhile_cons_of_neg hq

/-- A trimmed text has no blank at either end. -/
theorem ends_of_pyStrip_eq {text : String} (h : pyStrip text = text) :
    text.toList.dropWhile isPySpace = text.toList
      ∧ text.toList.reverse.dropWhile isPySpace = text.toList.reverse := by
  have hlist : ((text.toList.dropWhile isPySpace).reverse.dropWhile isPySpace).reverse
      = text.toList := by
    conv_rhs => rw [← h, pyStrip, String.toList_ofList]
  have hfront := List.dropWhile_suffix isPySpace (l := text.toList)
  have hback := List.dropWhile_suffix isPySpace (l := (text.toList.dropWhile isPySpace).reverse)
  have hlength := congrArg List.length hlist
  have hfrontLength := hfront.length_le
  have hbackLength := hback.length_le
  rw [List.length_reverse] at hlength hbackLength
  -- Nothing is dropped at the front, so the text itself loses nothing at its back.
  have hkept : text.toList.dropWhile isPySpace = text.toList :=
    hfront.eq_of_length (by omega)
  rw [hkept] at hlist
  exact ⟨hkept, List.reverse_eq_iff.mp hlist⟩

/-- A text that the loader has trimmed has no blanks at its ends for the script either. -/
theorem jsTrim_eq_self {text : String} (h : pyStrip text = text) (hmark : '\uFEFF' ∉ text.toList) :
    jsTrim text = text := by
  obtain ⟨hfront, hback⟩ := ends_of_pyStrip_eq h
  have hblank : ∀ c ∈ text.toList, isJsSpace c = true → isPySpace c = true := by
    intro c hc hspace
    rcases isPySpace_of_isJsSpace hspace with hpy | rfl
    · exact hpy
    · exact absurd hc hmark
  have hreverse := dropWhile_eq_self_of_imp hback fun c hc =>
    hblank c (List.mem_reverse.mp hc)
  rw [jsTrim, dropWhile_eq_self_of_imp hfront hblank, hreverse, List.reverse_reverse,
    String.ofList_toList]

/-! ### Objects that are accepted -/

section Objects

variable {α β ν : Type}

/-- The entries of an object are its members. -/
theorem objectEntries_perm (members : List (String × α)) :
    (objectEntries members).Perm members :=
  ((List.mergeSort_perm _ _).append_right _).trans
    (List.filter_append_perm (fun entry : String × α => (arrayIndex entry.1).isSome) members)

/-- The order of the entries is that of their names. -/
theorem objectEntries_map (f : α → β) (members : List (String × α)) :
    objectEntries (members.map fun entry => (entry.1, f entry.2))
      = (objectEntries members).map fun entry => (entry.1, f entry.2) := by
  have hsorted := @List.map_mergeSort (String × α) (String × β)
    (fun a b => decide ((arrayIndex a.1).getD 0 ≤ (arrayIndex b.1).getD 0))
    (fun a b => decide ((arrayIndex a.1).getD 0 ≤ (arrayIndex b.1).getD 0))
    (fun entry => (entry.1, f entry.2))
    (members.filter fun entry => (arrayIndex entry.1).isSome) fun _ _ _ _ => rfl
  unfold objectEntries
  rw [List.map_append, hsorted, List.filter_map, List.filter_map]
  rfl

/-- Where every member passes and is added under its name, the table holds the members. -/
theorem foldlM_objectEntries {add : Dict String ν → String × β → Except String (Dict String ν)}
    {encode : α → β} {view : α → ν} {members : List (String × α)}
    (hadd : ∀ table, ∀ entry ∈ members,
      add table (entry.1, encode entry.2) = .ok (table.set entry.1 (view entry.2)))
    (hnodup : (members.map Prod.fst).Nodup) :
    ∃ table, (objectEntries (members.map fun entry => (entry.1, encode entry.2))).foldlM add ∅
        = .ok table
      ∧ ∀ key value, table.get? key = some value ↔ ∃ a, (key, a) ∈ members ∧ value = view a := by
  have hfold : ∀ (listed : List (String × α)) (table : Dict String ν),
      (∀ entry ∈ listed, entry ∈ members) →
      (listed.map fun entry => (entry.1, encode entry.2)).foldlM add table
        = .ok ((listed.map fun entry => (entry.1, view entry.2)).foldl (fun d e => d.set e.1 e.2)
          table) := by
    intro listed
    induction listed with
    | nil => intro table _; rfl
    | cons entry rest ih =>
      intro table hlisted
      rw [List.map_cons, List.foldlM_cons, hadd table entry (hlisted entry List.mem_cons_self)]
      exact ih _ fun other hother => hlisted other (List.mem_cons_of_mem _ hother)
  have hperm := objectEntries_perm members
  have hkeys : (((objectEntries members).map fun entry => (entry.1, view entry.2)).map
      Prod.fst).Nodup := by
    rw [List.map_map]
    exact (hperm.map Prod.fst).nodup_iff.mpr hnodup
  rw [objectEntries_map, hfold _ ∅ fun _ hmem => hperm.subset hmem]
  refine ⟨_, rfl, fun key value => ?_⟩
  refine (Dict.get?_ofList_of_nodup _ hkeys key value).trans ?_
  rw [List.mem_map]
  constructor
  · rintro ⟨⟨name, a⟩, hmem, heq⟩
    obtain ⟨rfl, rfl⟩ := Prod.mk.inj heq
    exact ⟨a, hperm.subset hmem, rfl⟩
  · rintro ⟨a, hmem, rfl⟩
    exact ⟨(key, a), hperm.symm.subset hmem, rfl⟩

end Objects

/-! ### Inventories that are accepted -/

/-- A list of hosts that comes through as it is. -/
def HostsRead (value : Option Json) (hosts : List String) : Prop :=
  value = some (Json.strings hosts) ∧ safeStoredHosts value = hosts

/-- An inventory is accepted where each of its parts is. -/
theorem normalizeInventory_eq_ok {rules : BrowserRules} {members : List (String × Json)}
    {view : InventoryView}
    (hconfigured : HostsRead (members.lookup "configuredHosts") view.configuredHosts)
    (hactive : HostsRead (members.lookup "activeHosts") view.activeHosts)
    (havailable : HostsRead (members.lookup "availableHosts") view.availableHosts)
    (hinfrastructure : HostsRead (members.lookup "infrastructureHosts") view.infrastructureHosts)
    (hcollector : normalizeCollectorSettings (members.lookup "collectorSettings")
      = .ok view.collectorSettings)
    (hwindows : normalizeMaintenanceWindows rules (members.lookup "maintenanceWindows")
      view.configuredHosts = .ok view.maintenanceWindows)
    (hgroups : normalizeHostGroups rules (members.lookup "hostGroups") view.configuredHosts
      = .ok view.hostGroups)
    (hlocal : members.lookup "localHost" = view.localHost)
    (hlocalSafe : (Json.isNullish view.localHost || (storedHost view.localHost).isSome) = true)
    (hauto : (members.lookup "autoDiscover").bind Json.bool? = some view.autoDiscover)
    (hwritable : (members.lookup "writable").bind Json.bool? = some view.writable)
    (hignored : safeInteger (members.lookup "ignoredCodeHostCount")
      = some view.ignoredCodeHostCount) (hignoredPos : 0 ≤ view.ignoredCodeHostCount)
    (hexcluded : safeInteger (members.lookup "excludedHostCount")
      = some view.excludedHostCount) (hexcludedPos : 0 ≤ view.excludedHostCount)
    (hmode : ((members.lookup "sshDiscoveryMode").bind Json.string?).filter
      ["aliases", "topology"].contains = some view.sshDiscoveryMode)
    (hwarnings : ((((members.lookup "sshDiscoveryWarnings").bind Json.array?).getD
      []).filterMap Json.string?).take 1024 = view.sshDiscoveryWarnings) :
    normalizeInventory rules (.object members) = .ok view := by
  have hlength : ∀ {value : Option Json} {hosts : List String}, HostsRead value hosts →
      lengthOf value = some ((safeStoredHosts value).length : ℚ) := by
    rintro value hosts ⟨rfl, hread⟩
    rw [hread, lengthOf_strings]
  have hitems : ((members.lookup "infrastructureHosts").bind Json.array?).any (fun items =>
      decide ((safeStoredHosts (members.lookup "infrastructureHosts")).length = items.length))
        = true := by
    rw [hinfrastructure.2, hinfrastructure.1]
    show decide (view.infrastructureHosts.length
      = (view.infrastructureHosts.map Json.string).length) = true
    rw [List.length_map, decide_eq_true rfl]
  refine bind_eq_ok.mpr ⟨members, present_eq_ok.mpr rfl, ?_⟩
  refine bind_eq_ok.mpr ⟨_, hcollector, ?_⟩
  rw [← hconfigured.2] at hwindows hgroups
  refine bind_eq_ok.mpr ⟨_, hwindows, ?_⟩
  refine bind_eq_ok.mpr ⟨_, hgroups, ?_⟩
  refine bind_eq_ok.mpr ⟨(), require_eq_ok.mpr ?_, ?_⟩
  · simp only [Bool.and_eq_true, decide_eq_true_eq]
    exact ⟨⟨hlength hconfigured, hlength hactive⟩, hlength havailable⟩
  refine bind_eq_ok.mpr ⟨(), require_eq_ok.mpr ?_, ?_⟩
  · rw [hlocal]
    exact hlocalSafe
  refine bind_eq_ok.mpr ⟨_, present_eq_ok.mpr hauto, ?_⟩
  refine bind_eq_ok.mpr ⟨_, present_eq_ok.mpr hwritable, ?_⟩
  refine bind_eq_ok.mpr ⟨_, present_eq_ok.mpr hignored, ?_⟩
  refine bind_eq_ok.mpr ⟨_, present_eq_ok.mpr hexcluded, ?_⟩
  refine bind_eq_ok.mpr ⟨_, present_eq_ok.mpr hmode, ?_⟩
  refine bind_eq_ok.mpr ⟨(), require_eq_ok.mpr hitems, ?_⟩
  dsimp only
  rw [hconfigured.2, hactive.2, havailable.2, hinfrastructure.2, hlocal, hwarnings, max_eq_right hignoredPos,
    max_eq_right hexcludedPos]
  rfl

end Mocop.ApiContracts
