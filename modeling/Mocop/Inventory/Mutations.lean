import Mocop.Inventory.Loader

/-!
# `Mocop.Inventory.Mutations`: the inventory changes of the dashboard

`change` adds or removes a host and `updateHostGroup` sets or clears its group. Both edit the
raw document, drop the incident overrides whose host or group is gone
(`pruneIncidentOverrides`), and commit: the written document is loaded again before it
replaces the file. What the SSH configuration and the running monitor answer is a parameter.
-/

set_option autoImplicit false

namespace Mocop

/-- A failed inventory change: a request that does not apply, or a change that could not be
made. -/
inductive InventoryError where
  | request (message : String)
  | inventory (message : String)

/-- The dashboard's two actions on a host. -/
inductive InventoryAction where
  | add
  | remove
  deriving DecidableEq

/-- What the inventory asks the outside for. An alias that may be added is not excluded, and
`textLength` is the size of a written document: its text, indented by two blanks and encoded in
UTF-8. -/
structure InventoryPort (V : Type) where
  writable : Bool
  textLength : ConfigDocument V → ℕ
  eligibleAliases : MonitorConfig V → Except InventoryError (List String)
  activeHosts : MonitorConfig V → Except InventoryError (List String)
  snapshot : MonitorConfig V → Except InventoryError Unit
  onConfigChanged : MonitorConfig V → Except InventoryError Unit
  eligible_active : ∀ config aliases, eligibleAliases config = .ok aliases →
    ∀ a ∈ aliases, a ∉ config.excludeHosts

section Mutations

variable {V : Type} (rules : ValueRules V) (port : InventoryPort V)

/-- Raises the error unless the check holds. -/
def demand (check : Bool) (error : InventoryError) : Except InventoryError Unit :=
  if check then .ok () else .error error

@[simp] theorem demand_eq_ok {check : Bool} {error : InventoryError} {u : Unit} :
    demand check error = .ok u ↔ check = true := by
  cases check <;> simp [demand]

/-- Loads the current document. -/
def load (doc : ConfigDocument V) : Except InventoryError (MonitorConfig V) :=
  match loadConfig rules doc with
  | .ok config => .ok config
  | .error _ => .error (.inventory "cluster configuration is unavailable or invalid")

/-- Writes a document: the written file must load, be projected and reach the runtime. -/
def commit (doc : ConfigDocument V) : Except InventoryError (ConfigDocument V) := do
  demand (port.textLength doc ≤ configMaxBytes)
    (.inventory "cluster configuration could not be updated")
  match loadConfig rules doc with
  | .ok config => do
    port.snapshot config
    port.onConfigChanged config
    return doc
  | .error _ => .error (.inventory "cluster configuration could not be updated")

/-- Drops the incident overrides whose host or group is not among the active ones. -/
def pruneIncidentOverrides (doc : ConfigDocument V) : ConfigDocument V :=
  let active := fun host => doc.hosts.contains host && !doc.excludeHosts.contains host
  let configuredGroups :=
    (doc.hostGroups.entries.filter fun entry => active entry.1).map (·.2)
  { doc with
    incidentOverrides :=
      { hosts := doc.incidentOverrides.hosts.filterKeys active
        groups := doc.incidentOverrides.groups.filterKeys configuredGroups.contains } }

/-- Drops the links of a host and the links below it, or the whole topology of its root. -/
def removeTopologyHost (topology : TopologyDocument) (host : String) : Option TopologyDocument :=
  if topology.root = host then none
  else
    let links := topology.links.filter fun link => link.source ≠ host && link.target ≠ host
    some
      { topology with
        links := retainLinks TopologyLink.source TopologyLink.target links.length
          [topology.root] links }

/-- The document with one more host. -/
def addHost (config : MonitorConfig V) (doc : ConfigDocument V) (host : String) :
    ConfigDocument V :=
  pruneIncidentOverrides { doc with hosts := config.hosts ++ [host] }

/-- The document without a host and its entries. -/
def removeHost (config : MonitorConfig V) (doc : ConfigDocument V) (host : String) :
    ConfigDocument V :=
  pruneIncidentOverrides
    { doc with
      hosts := config.hosts.erase host
      excludeHosts :=
        if config.autoDiscover then (doc.excludeHosts ++ [host]).eraseDups else doc.excludeHosts
      localHost := if doc.localHost = some host then none else doc.localHost
      expectedGpuCounts := doc.expectedGpuCounts.erase host
      hostOverrides := doc.hostOverrides.erase host
      maintenanceWindows := doc.maintenanceWindows.erase host
      hostGroups := doc.hostGroups.erase host
      incidentActions := doc.incidentActions.filter fun action => action.host ≠ host
      topology := doc.topology.bind fun topology => removeTopologyHost topology host }

/-- The document with another group of a host. An empty group is none. -/
def regroupHost (doc : ConfigDocument V) (host group : String) : ConfigDocument V :=
  pruneIncidentOverrides
    { doc with
      hostGroups :=
        if pyStrip group = "" then doc.hostGroups.erase host
        else doc.hostGroups.set host (pyStrip group) }

/-- Adds or removes one host. -/
def change (action : InventoryAction) (host : String) (doc : ConfigDocument V) :
    Except InventoryError (ConfigDocument V) := do
  demand (isSafeAlias host) (.request "host must be a safe OpenSSH alias")
  demand port.writable (.inventory "cluster configuration is not dashboard-writable")
  let config ← load rules doc
  match action with
  | .add => do
    let eligible ← port.eligibleAliases config
    demand (!config.hosts.contains host) (.request "host is already configured")
    demand (eligible.contains host) (.request "host is not an eligible discovered alias")
    commit rules port (addHost config doc host)
  | .remove => do
    let active ← port.activeHosts config
    demand (active.contains host) (.request "host is not in the active inventory")
    commit rules port (removeHost config doc host)

/-- Sets or clears the group of one explicit host. Nothing is written when the group is the
current one. -/
def updateHostGroup (host group : String) (doc : ConfigDocument V) :
    Except InventoryError (Option (ConfigDocument V)) := do
  demand (isSafeAlias host) (.request "host must be a safe OpenSSH alias")
  demand (isValidHostGroup rules group false) (.request "host group is invalid")
  demand port.writable (.inventory "cluster configuration is not dashboard-writable")
  let config ← load rules doc
  demand (config.hosts.contains host && !config.excludeHosts.contains host)
    (.request "group host is not explicitly configured")
  if ((Dict.ofList config.hostGroups).get? host).getD "" = pyStrip group then do
    port.snapshot config
    return none
  else do
    let written ← commit rules port (regroupHost doc host group)
    return some written

/-- A request of the dashboard. -/
inductive InventoryRequest where
  | change (action : InventoryAction) (host : String)
  | updateHostGroup (host group : String)

/-- The host that a request is about. -/
def InventoryRequest.host : InventoryRequest → String
  | .change _ host => host
  | .updateHostGroup host _ => host

/-- Serves a request. The result is the written document, if one was written. -/
def serve (request : InventoryRequest) (doc : ConfigDocument V) :
    Except InventoryError (Option (ConfigDocument V)) :=
  match request with
  | .change action host => do return some (← change rules port action host doc)
  | .updateHostGroup host group => updateHostGroup rules port host group doc

/-- The document that a request writes. -/
def requested (config : MonitorConfig V) (doc : ConfigDocument V) :
    InventoryRequest → ConfigDocument V
  | .change .add host => addHost config doc host
  | .change .remove host => removeHost config doc host
  | .updateHostGroup host group => regroupHost doc host group

variable {rules port} {doc written : ConfigDocument V}

/-- A loaded document is an accepted one. -/
theorem load_eq_ok {config : MonitorConfig V} (h : load rules doc = .ok config) :
    loadConfig rules doc = .ok config := by
  unfold load at h
  split at h
  · next heq =>
    cases h
    exact heq
  · cases h

/-- A committed document is the one to write, it is not too long, and the loader accepts it. -/
theorem commit_eq_ok {doc : ConfigDocument V} (h : commit rules port doc = .ok written) :
    written = doc ∧ port.textLength written ≤ configMaxBytes
      ∧ Returns (loadConfig rules written) := by
  obtain ⟨_, hsize, h⟩ := bind_eq_ok.mp h
  rw [demand_eq_ok, decide_eq_true_eq] at hsize
  split at h
  · next config heq =>
    obtain ⟨_, _, h⟩ := bind_eq_ok.mp h
    obtain ⟨_, _, h⟩ := bind_eq_ok.mp h
    cases h
    exact ⟨rfl, hsize, config, heq⟩
  · cases h

/-- What a successful request has checked, and what it has written. -/
theorem serve_cases {request : InventoryRequest} (h : serve rules port request doc
    = .ok (some written)) :
    isSafeAlias request.host = true
      ∧ (port.textLength written ≤ configMaxBytes ∧ Returns (loadConfig rules written))
      ∧ ∃ config, loadConfig rules doc = .ok config ∧ written = requested config doc request
        ∧ (∀ action, request = .change action request.host → action = .add →
          request.host ∉ config.excludeHosts)
        ∧ (∀ group, request = .updateHostGroup request.host group →
          request.host ∉ config.excludeHosts) := by
  cases request with
  | change action host =>
    obtain ⟨result, h, heq⟩ := bind_eq_ok.mp h
    cases heq
    obtain ⟨_, hsafe, h⟩ := bind_eq_ok.mp h
    obtain ⟨_, _, h⟩ := bind_eq_ok.mp h
    obtain ⟨config, hload, h⟩ := bind_eq_ok.mp h
    rw [demand_eq_ok] at hsafe
    cases action with
    | add =>
      obtain ⟨eligible, hports, h⟩ := bind_eq_ok.mp h
      obtain ⟨_, _, h⟩ := bind_eq_ok.mp h
      obtain ⟨_, heligible, h⟩ := bind_eq_ok.mp h
      obtain ⟨hwritten, hloads⟩ := commit_eq_ok h
      rw [demand_eq_ok, List.contains_iff_mem] at heligible
      refine ⟨hsafe, hloads, config, load_eq_ok hload, hwritten, fun _ _ _ => ?_,
        fun _ heq => by cases heq⟩
      exact port.eligible_active config eligible hports host heligible
    | remove =>
      obtain ⟨_, _, h⟩ := bind_eq_ok.mp h
      obtain ⟨_, _, h⟩ := bind_eq_ok.mp h
      obtain ⟨hwritten, hloads⟩ := commit_eq_ok h
      refine ⟨hsafe, hloads, config, load_eq_ok hload, hwritten,
        fun _ heq hadd => ?_, fun _ heq => by cases heq⟩
      cases heq
      cases hadd
  | updateHostGroup host group =>
    obtain ⟨_, hsafe, h⟩ := bind_eq_ok.mp h
    obtain ⟨_, _, h⟩ := bind_eq_ok.mp h
    obtain ⟨_, _, h⟩ := bind_eq_ok.mp h
    obtain ⟨config, hload, h⟩ := bind_eq_ok.mp h
    obtain ⟨_, hexplicit, h⟩ := bind_eq_ok.mp h
    rw [demand_eq_ok] at hsafe hexplicit
    split at h
    · obtain ⟨_, _, h⟩ := bind_eq_ok.mp h
      cases h
    · obtain ⟨result, hcommit, h⟩ := bind_eq_ok.mp h
      cases h
      obtain ⟨hwritten, hloads⟩ := commit_eq_ok hcommit
      refine ⟨hsafe, hloads, config, load_eq_ok hload, hwritten,
        fun _ heq => (by cases heq), fun _ _ => ?_⟩
      simp only [Bool.and_eq_true, Bool.not_eq_true', List.contains_eq_mem,
        decide_eq_false_iff_not] at hexplicit
      exact hexplicit.2

end Mutations

end Mocop
