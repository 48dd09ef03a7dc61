import Mocop.Lib.Dict
import Mocop.Lib.Json
import Mocop.Lib.Sorting
import Mathlib.Data.String.Basic

/-!
# `Mocop.Reports.DiagnosticBundle`: the diagnostic export

`sanitizedBundle` copies allowlisted fields of a snapshot and its incidents, and writes `node-001`,
`node-002`, … for the hosts. The inputs are JSON values of any shape: what is no dictionary is
skipped where the code checks for it, and raises where it does not.

The bundle reveals no identity: two inputs that agree but for the identities have one bundle
(`bundle_reveals_no_identity`), or raise alike. `Agree` says what two dictionaries have in common
but for some secret fields, and the relations above it say which fields are secret at each level.
The aliases follow the order of the servers, so an injective renaming of the hosts permutes only
the names of the table of aliases (`get?_aliasesOf_rename`).
-/

set_option autoImplicit false

namespace Mocop.Diagnostics

/-! ### Reading JSON values -/

/-- What reading a value of an unexpected shape raises. -/
inductive ReadError where
  | typeError
  | attributeError
  | keyError
  deriving DecidableEq

/-- `isinstance(value, dict)` -/
def isDict (value : Json) : Bool := value.object?.isSome

/-- `value.get(name, default)` of a dictionary. -/
def get (value : Json) (name : String) (default : Json := .null) : Json :=
  (value.member name).getD default

/-- `value.get(name, default)` of any value. -/
def readField (value : Json) (name : String) (default : Json := .null) : Except ReadError Json :=
  if isDict value then .ok (get value name default) else .error .attributeError

/-- The items that a loop over a value visits. -/
def iterate : Json → Except ReadError (List Json)
  | .array items => .ok items
  | .object members => .ok (members.map fun entry => .string entry.1)
  | .string text => .ok (text.toList.map fun c => .string (String.singleton c))
  | _ => .error .typeError

/-- `{key: value.get(key) for key in keys}` of a dictionary. -/
def project (value : Json) (keys : List String) : List (String × Json) :=
  keys.map fun key => (key, get value key)

/-- `{key: value.get(key) for key in keys}` of any value. -/
def readFields (value : Json) (keys : List String) : Except ReadError (List (String × Json)) :=
  keys.mapM fun key => do return (key, ← readField value key)

/-! ### The bundle -/

/-- The copied fields of a device. -/
def gpuFields : List String :=
  ["index", "name", "temperature_c", "utilization_gpu_pct", "utilization_memory_pct",
    "memory_total_mib", "memory_used_mib", "memory_free_mib", "power_draw_w", "power_limit_w",
    "pstate", "processes_available", "processes_sampled", "processes_observed_at", "health"]

/-- The copied fields of a system. -/
def systemFields : List String :=
  ["uptime_seconds", "load_1m", "load_5m", "load_15m", "cpu_cores", "cpu_usage_pct",
    "memory_total_mib", "memory_used_mib", "memory_available_mib", "swap_total_mib",
    "swap_used_mib", "disk_total_mib", "disk_used_mib", "network_rx_bps", "network_tx_bps",
    "disk_read_bps", "disk_write_bps"]

/-- The copied fields of a host. -/
def serverFields : List String :=
  ["status", "stale", "polling", "latencyMs", "consecutiveFailures", "lastAttemptAt",
    "lastSuccessAt"]

/-- The copied fields of a condition. -/
def conditionFields : List String :=
  ["category", "severity", "value", "threshold", "firstObservedAt", "lastObservedAt", "action"]

/-- `f"node-{index:03d}"` -/
def nodeAlias (index : ℕ) : String :=
  let digits := toString index
  "node-" ++ String.ofList (List.replicate (3 - digits.length) '0') ++ digits

section
variable (str : Json → String)

/-- The aliases of the hosts, in the order of the servers. -/
def aliasesOf (selected : List Json) : Dict String String :=
  Dict.ofList (selected.zipIdx.map fun (server, index) =>
    (str (get server "host"), nodeAlias (index + 1)))

/-- `aliases[str(value.get("host"))]` -/
def aliasOf (aliases : Dict String String) (value : Json) : Except ReadError Json :=
  match aliases.get? (str (get value "host")) with
  | some name => .ok (.string name)
  | none => .error .keyError

/-- The copied fields of the devices. -/
def gpuViews (server : Json) : Except ReadError Json := do
  let gpus ← iterate (get server "gpus" (.array []))
  return .array ((gpus.filter isDict).map fun gpu => .object (project gpu gpuFields))

/-- The copied fields of the system, with the use of the first 64 filesystems. -/
def systemView (system : Json) : Except ReadError Json :=
  if isDict system then do
    let disks ← iterate (get system "disks" (.array []))
    return .object (project system systemFields ++
      [("diskUsagePct", .array (((disks.filter isDict).map (get · "used_pct")).take 64))])
  else return .null

/-- The view of a host. -/
def serverView (aliases : Dict String String) (server : Json) : Except ReadError Json := do
  let gpus ← gpuViews server
  let system ← systemView (get server "system")
  let node ← aliasOf str aliases server
  return .object ([("node", node)] ++ project server serverFields
    ++ [("system", system), ("gpus", gpus)])

/-- The view of a condition. -/
def conditionView (aliases : Dict String String) (condition : Json) : Except ReadError Json := do
  let node ← aliasOf str aliases condition
  return .object ([("node", node)] ++ project condition conditionFields)

/-- Whether a condition is one of an exported host. -/
def isExported (aliases : Dict String String) (condition : Json) : Bool :=
  isDict condition && aliases.contains (str (get condition "host"))

/-- The error codes of the endpoints, each once, in order. -/
def errorCodes (notifications : Json) : Except ReadError Json := do
  let endpoints ← iterate (← readField notifications "endpoints" (.array []))
  let codes := (endpoints.filter isDict).filterMap fun endpoint =>
    (get endpoint "lastError").string?
  return Json.strings (sortBy id codes.eraseDups)

/-- `sanitized_bundle` -/
def sanitizedBundle (snapshot incidents : Json) (host : Option String) : Except ReadError Json := do
  let servers ← iterate (← readField snapshot "servers" (.array []))
  let selected := servers.filter fun server =>
    isDict server && (host.isNone || (get server "host").string? == host)
  let aliases := aliasesOf str selected
  let serverViews ← selected.mapM (serverView str aliases)
  let conditions ← iterate (← readField incidents "active" (.array []))
  let active ← (conditions.filter (isExported str aliases)).mapM (conditionView str aliases)
  let persistence ← readField snapshot "persistence" (.object [])
  let notifications ← readField snapshot "notifications" (.object [])
  let codes ← errorCodes notifications
  let persistenceView ← readFields persistence
    ["enabled", "backend", "healthy", "queuedWrites", "droppedWrites"]
  let notificationsView ← readFields notifications
    ["enabled", "healthy", "queuedDeliveries", "droppedDeliveries"]
  return .object
    [("schemaVersion", .integer 1),
      ("generatedAt", get snapshot "generatedAt"),
      ("appVersion", get snapshot "appVersion"),
      ("collection", .object (project snapshot
        ["pollIntervalSeconds", "collectionStaleAfterSeconds", "lastPollCompletedAt",
          "lastPollDurationMs"])),
      ("persistence", .object persistenceView),
      ("notifications", .object (notificationsView ++ [("errorCodes", codes)])),
      ("stats", get snapshot "stats"),
      ("servers", .array serverViews),
      ("activeIncidents", .array active),
      ("redaction", .object
        [("hostAliases", .bool true), ("sshErrors", .bool true), ("gpuUuids", .bool true),
          ("processes", .bool true), ("workloadIdentity", .bool true),
          ("filesystemPaths", .bool true), ("configuration", .bool true)])]

end

/-! ### Inputs that agree but for the identities -/

/-- Two values of one shape that agree but for the secret fields. -/
structure Agree (secret : List String) (a b : Json) : Prop where
  dict : isDict a = isDict b
  plain : isDict a = false → a = b
  shape : ∀ name, (a.member name).isSome = (b.member name).isSome
  field : ∀ name, name ∉ secret → a.member name = b.member name

/-- Two fields with lists of related items, or with one value that is no list. -/
inductive AgreeItems (r : Json → Json → Prop) : Option Json → Option Json → Prop where
  | items {l l' : List Json} (h : List.Forall₂ r l l') :
      AgreeItems r (some (.array l)) (some (.array l'))
  | plain {value : Option Json} (h : ∀ items, value ≠ some (.array items)) :
      AgreeItems r value value

/-- A device: its UUID and its processes are secret. -/
abbrev GpuAgree : Json → Json → Prop := Agree ["uuid", "processes"]

/-- A filesystem: its device and its mount point are secret. -/
abbrev DiskAgree : Json → Json → Prop := Agree ["device", "mountpoint"]

/-- A system: the name that the host reports of itself is secret. -/
structure SystemAgree (a b : Json) : Prop extends Agree ["hostname", "disks"] a b where
  disks : AgreeItems DiskAgree (a.member "disks") (b.member "disks")

/-- A host under a renaming: its message, its display name, its group and the text of its
maintenance window are secret. -/
structure ServerAgree (str : Json → String) (rename : String → String) (a b : Json) : Prop extends
    Agree ["host", "message", "displayName", "group", "maintenance", "gpus", "system"] a b where
  host : isDict a = true → str (get b "host") = rename (str (get a "host"))
  gpus : AgreeItems GpuAgree (a.member "gpus") (b.member "gpus")
  system : ∀ x y, a.member "system" = some x → b.member "system" = some y → SystemAgree x y

/-- A condition under a renaming: its keys, its resource, its detail and the reasons are secret. -/
structure ConditionAgree (str : Json → String) (rename : String → String) (a b : Json) : Prop
    extends Agree ["host", "conditionKey", "groupKey", "resource", "detail", "actionReason",
      "maintenanceReason"] a b where
  host : isDict a = true → str (get b "host") = rename (str (get a "host"))

/-- Two snapshots: the error of the collector is secret. -/
structure SnapshotAgree (str : Json → String) (rename : String → String) (a b : Json) : Prop
    extends Agree ["servers", "collectorError"] a b where
  servers : AgreeItems (ServerAgree str rename) (a.member "servers") (b.member "servers")

/-- Two payloads of incidents; the events and correlations are not exported. -/
structure IncidentsAgree (str : Json → String) (rename : String → String) (a b : Json) : Prop
    extends Agree ["active", "events", "correlations"] a b where
  active : AgreeItems (ConditionAgree str rename) (a.member "active") (b.member "active")

/-! ### Reading inputs that agree -/

variable {secret : List String} {l l' : List Json} {r : Json → Json → Prop} {x y : Json}

theorem Agree.get_eq {a b : Json} (h : Agree secret a b) {name : String} (hname : name ∉ secret)
    (default : Json) : get a name default = get b name default := by
  rw [get, get, h.field name hname]

theorem Agree.readField_eq {a b : Json} (h : Agree secret a b) {name : String}
    (hname : name ∉ secret) (default : Json) :
    readField a name default = readField b name default := by
  rw [readField, readField, h.dict, h.get_eq hname]

/-- Public fields are copied alike. -/
theorem Agree.project_eq {a b : Json} (h : Agree secret a b) {keys : List String}
    (hkeys : ∀ key ∈ keys, key ∉ secret) :
    project a keys = project b keys :=
  List.map_congr_left fun key hkey => by rw [h.get_eq (hkeys key hkey)]

/-- No item of a value that is no list is a dictionary. -/
theorem not_isDict_of_iterate {value : Json} {items : List Json}
    (hvalue : ∀ items, value ≠ .array items) (h : iterate value = .ok items) :
    ∀ item ∈ items, isDict item = false := by
  intro item hitem
  cases value with
  | array found => exact absurd rfl (hvalue found)
  | object members =>
    obtain rfl := Except.ok.inj h
    obtain ⟨entry, -, rfl⟩ := List.mem_map.mp hitem
    rfl
  | string text =>
    obtain rfl := Except.ok.inj h
    obtain ⟨c, -, rfl⟩ := List.mem_map.mp hitem
    rfl
  | null => cases h
  | bool value => cases h
  | integer value => cases h
  | fraction value => cases h

/-- The dictionaries of two related lists are related. -/
theorem AgreeItems.filter (hdict : ∀ a b, r a b → isDict a = isDict b) (h : List.Forall₂ r l l') :
    List.Forall₂ (fun a b => r a b ∧ isDict a = true) (l.filter isDict) (l'.filter isDict) := by
  induction h with
  | nil => exact .nil
  | @cons a b l l' hab _ ih =>
    have hsame := hdict a b hab
    cases ha : isDict a with
    | true =>
      rw [List.filter_cons_of_pos ha, List.filter_cons_of_pos (hsame ▸ ha)]
      exact .cons ⟨hab, ha⟩ ih
    | false =>
      have hb : isDict b = false := hsame ▸ ha
      rw [List.filter_cons_of_neg (by simp [ha]), List.filter_cons_of_neg (by simp [hb])]
      exact ih

/-- What a loop over the dictionaries of two fields finds: it raises alike, or visits related
dictionaries. -/
theorem AgreeItems.iterate (hdict : ∀ a b, r a b → isDict a = isDict b) {x y : Option Json}
    (h : AgreeItems r x y) :
    (∃ error, iterate (x.getD (.array [])) = .error error
        ∧ iterate (y.getD (.array [])) = .error error)
      ∨ ∃ l l', iterate (x.getD (.array [])) = .ok l ∧ iterate (y.getD (.array [])) = .ok l'
        ∧ List.Forall₂ (fun a b => r a b ∧ isDict a = true) (l.filter isDict)
          (l'.filter isDict) := by
  cases h with
  | items h => exact .inr ⟨_, _, rfl, rfl, AgreeItems.filter hdict h⟩
  | plain hvalue =>
    cases x with
    | none => exact .inr ⟨[], [], rfl, rfl, .nil⟩
    | some value =>
      cases hresult : Diagnostics.iterate value with
      | error error => exact .inl ⟨error, hresult, hresult⟩
      | ok items =>
        have hnone : items.filter isDict = [] := by
          rw [List.filter_eq_nil_iff]
          intro item hitem hdict
          rw [not_isDict_of_iterate (fun found heq => hvalue found (by rw [heq])) hresult
            item hitem] at hdict
          cases hdict
        refine .inr ⟨items, items, hresult, hresult, ?_⟩
        rw [hnone]
        exact .nil

/-- Related lists are mapped alike. -/
theorem map_eq_of_forall₂ {α : Type} {f : Json → α} (h : List.Forall₂ r l l')
    (hf : ∀ a b, r a b → f a = f b) : l.map f = l'.map f := by
  induction h with
  | nil => rfl
  | cons hab _ ih => rw [List.map_cons, List.map_cons, hf _ _ hab, ih]

theorem mapM_eq_of_forall₂ {f g : Json → Except ReadError Json} (h : List.Forall₂ r l l')
    (hf : ∀ a b, r a b → f a = g b) :
    l.mapM f = l'.mapM g := by
  induction h with
  | nil => rfl
  | cons hab _ ih => rw [List.mapM_cons, List.mapM_cons, hf _ _ hab, ih]

/-! ### Related hosts have one view -/

theorem gpuViews_eq (h : AgreeItems GpuAgree (x.member "gpus") (y.member "gpus")) :
    gpuViews x = gpuViews y := by
  unfold gpuViews get
  rcases h.iterate (fun a b hab => hab.dict) with ⟨error, hx, hy⟩ | ⟨l, l', hx, hy, hitems⟩
  · rw [hx, hy]
  · rw [hx, hy]
    show Except.ok (Json.array ((l.filter isDict).map fun gpu => .object (project gpu gpuFields)))
      = Except.ok (Json.array ((l'.filter isDict).map fun gpu => .object (project gpu gpuFields)))
    rw [map_eq_of_forall₂ hitems fun a b hab => by rw [hab.1.project_eq (by decide)]]

theorem systemView_eq (h : SystemAgree x y) : systemView x = systemView y := by
  unfold systemView
  rw [h.dict]
  split
  · unfold get
    rcases h.disks.iterate (fun a b hab => hab.dict) with ⟨error, hx, hy⟩ | ⟨l, l', hx, hy, hitems⟩
    · rw [hx, hy]
      rfl
    · rw [hx, hy, h.project_eq (by decide)]
      show Except.ok (Json.object (project y systemFields ++ [("diskUsagePct",
          .array (((l.filter isDict).map (get · "used_pct")).take 64))]))
        = Except.ok (Json.object (project y systemFields ++ [("diskUsagePct",
          .array (((l'.filter isDict).map (get · "used_pct")).take 64))]))
      rw [map_eq_of_forall₂ hitems fun a b hab => hab.1.get_eq (by decide) _]
  · rfl

variable {str : Json → String} {rename : String → String}

/-- A renaming of the keys of a list of entries renames the lookups. -/
theorem lookup_rename (hrename : Function.Injective rename) (k : String)
    (entries : List (String × String)) :
    Dict.lookup (rename k) (entries.map fun e => (rename e.1, e.2)) = Dict.lookup k entries := by
  induction entries with
  | nil => rfl
  | cons e rest ih =>
    rw [List.map_cons, Dict.lookup, Dict.lookup, ih]
    by_cases hk : e.1 = k
    · rw [if_pos hk, if_pos (congrArg rename hk)]
    · rw [if_neg hk, if_neg fun heq => hk (hrename heq)]

/-- The aliases of renamed hosts. -/
theorem get?_aliasesOf_rename (hrename : Function.Injective rename)
    {selected selected' : List Json}
    (h : List.Forall₂ (fun a b => str (get b "host") = rename (str (get a "host"))) selected
      selected') (k : String) :
    (aliasesOf str selected').get? (rename k) = (aliasesOf str selected).get? k := by
  have hentries : ∀ start,
      (selected'.zipIdx start).map (fun e => (str (get e.1 "host"), nodeAlias (e.2 + 1)))
        = ((selected.zipIdx start).map fun e => (str (get e.1 "host"), nodeAlias (e.2 + 1))).map
          fun e => (rename e.1, e.2) := by
    induction h with
    | nil => exact fun _ => rfl
    | cons hab _ ih =>
      intro start
      rw [List.zipIdx_cons, List.zipIdx_cons, List.map_cons, List.map_cons, List.map_cons, ih,
        hab]
  show (Dict.ofList ((selected'.zipIdx 0).map _)).get? _
    = (Dict.ofList ((selected.zipIdx 0).map _)).get? _
  rw [hentries, Dict.get?_ofList, Dict.get?_ofList, ← List.map_reverse, lookup_rename hrename]

/-- What is the same of the two tables of aliases. -/
def AliasesAgree (rename : String → String) (aliases aliases' : Dict String String) : Prop :=
  ∀ k, aliases'.get? (rename k) = aliases.get? k

variable {aliases aliases' : Dict String String}

theorem aliasOf_eq (h : AliasesAgree rename aliases aliases')
    (hhost : str (get y "host") = rename (str (get x "host"))) :
    aliasOf str aliases x = aliasOf str aliases' y := by
  rw [aliasOf, aliasOf, hhost, h]

theorem serverView_eq (h : AliasesAgree rename aliases aliases')
    (hserver : ServerAgree str rename x y) (hdict : isDict x = true) :
    serverView str aliases x = serverView str aliases' y := by
  have hsystem : systemView (get x "system") = systemView (get y "system") := by
    have hshape := hserver.shape "system"
    unfold get
    cases hx : x.member "system" with
    | none =>
      cases hy : y.member "system" with
      | none => rfl
      | some found =>
        rw [hx, hy] at hshape
        cases hshape
    | some value =>
      cases hy : y.member "system" with
      | none =>
        rw [hx, hy] at hshape
        cases hshape
      | some found => exact systemView_eq (hserver.system value found hx hy)
  rw [serverView, serverView, gpuViews_eq hserver.gpus, hsystem,
    aliasOf_eq h (hserver.host hdict), hserver.project_eq (by decide)]

theorem conditionView_eq (h : AliasesAgree rename aliases aliases')
    (hcondition : ConditionAgree str rename x y) (hdict : isDict x = true) :
    conditionView str aliases x = conditionView str aliases' y := by
  rw [conditionView, conditionView, aliasOf_eq h (hcondition.host hdict),
    hcondition.project_eq (by decide)]

/-- The same conditions are exported. -/
theorem forall₂_exported (h : AliasesAgree rename aliases aliases')
    (hl : List.Forall₂ (fun x y => ConditionAgree str rename x y ∧ isDict x = true)
      (l.filter isDict) (l'.filter isDict)) :
    List.Forall₂ (fun x y => ConditionAgree str rename x y ∧ isDict x = true)
      (l.filter (isExported str aliases)) (l'.filter (isExported str aliases')) := by
  have hfilter : ∀ (table : Dict String String) (items : List Json),
      items.filter (isExported str table)
        = (items.filter isDict).filter fun item => table.contains (str (get item "host")) := by
    intro table items
    rw [List.filter_filter]
    refine List.filter_congr fun item _ => ?_
    rw [isExported, Bool.and_comm]
  rw [hfilter, hfilter]
  generalize l.filter isDict = dicts at hl ⊢
  generalize l'.filter isDict = dicts' at hl ⊢
  induction hl with
  | nil => exact .nil
  | @cons x y _ _ hxy _ ih =>
    have hsame : aliases'.contains (str (get y "host"))
        = aliases.contains (str (get x "host")) := by
      rw [hxy.1.host hxy.2, Dict.contains_eq, Dict.contains_eq, h]
    rw [List.filter_cons, List.filter_cons, hsame]
    split
    · exact .cons hxy ih
    · exact ih

/-! ### The two runs -/

/-- Two reads that raise alike, or go on alike. -/
theorem bind_eq_of {α β γ : Type} {x : Except ReadError α} {y : Except ReadError β}
    {f : α → Except ReadError γ} {g : β → Except ReadError γ}
    (h : (∃ error, x = .error error ∧ y = .error error)
      ∨ ∃ a b, x = .ok a ∧ y = .ok b ∧ f a = g b) : (x >>= f) = (y >>= g) := by
  rcases h with ⟨error, rfl, rfl⟩ | ⟨a, b, rfl, rfl, hab⟩
  · rfl
  · exact hab

/-- Reading two fields with related items. -/
theorem bind_iterate_eq {a b : Json} (hab : Agree secret a b)
    (hdict : ∀ x y, r x y → isDict x = isDict y) {name : String}
    (hitems : AgreeItems r (a.member name) (b.member name)) {γ : Type}
    {f g : List Json → Except ReadError γ}
    (h : ∀ l l', List.Forall₂ (fun x y => r x y ∧ isDict x = true) (l.filter isDict)
      (l'.filter isDict) → f l = g l') :
    (readField a name (.array []) >>= fun value => iterate value >>= f)
      = (readField b name (.array []) >>= fun value => iterate value >>= g) := by
  refine bind_eq_of ?_
  unfold readField
  rw [hab.dict]
  split
  · refine .inr ⟨_, _, rfl, rfl, bind_eq_of ?_⟩
    rcases hitems.iterate hdict with ⟨error, hx, hy⟩ | ⟨l, l', hx, hy, hrelated⟩
    · exact .inl ⟨error, hx, hy⟩
    · exact .inr ⟨l, l', hx, hy, h l l' hrelated⟩
  · exact .inl ⟨_, rfl, rfl⟩

/-- Two inputs that agree but for the identities have one bundle. -/
theorem bundle_reveals_no_identity (str : Json → String) (rename : String → String)
    (hrename : Function.Injective rename) (snapshot snapshot' incidents incidents' : Json)
    (hsnapshot : SnapshotAgree str rename snapshot snapshot')
    (hincidents : IncidentsAgree str rename incidents incidents') :
    sanitizedBundle str snapshot incidents none
      = sanitizedBundle str snapshot' incidents' none := by
  unfold sanitizedBundle
  refine bind_iterate_eq hsnapshot.toAgree (fun a b hab => hab.dict) hsnapshot.servers
    fun servers servers' hservers => ?_
  have hselected : ∀ items : List Json, (items.filter fun server =>
      isDict server && ((none : Option String).isNone || (get server "host").string? == none))
        = items.filter isDict := by
    intro items
    refine List.filter_congr fun item _ => ?_
    simp
  dsimp only
  rw [hselected, hselected]
  have haliases : AliasesAgree rename (aliasesOf str (servers.filter isDict))
      (aliasesOf str (servers'.filter isDict)) :=
    get?_aliasesOf_rename hrename (hservers.imp fun a b hab => hab.1.host hab.2)
  rw [mapM_eq_of_forall₂ hservers fun a b hab => serverView_eq haliases hab.1 hab.2]
  refine congrArg (Bind.bind _) (funext fun serverViews => ?_)
  refine bind_iterate_eq hincidents.toAgree (fun a b hab => hab.dict) hincidents.active
    fun conditions conditions' hconditions => ?_
  rw [mapM_eq_of_forall₂ (forall₂_exported haliases hconditions)
    fun a b hab => conditionView_eq haliases hab.1 hab.2]
  rw [hsnapshot.readField_eq (by decide), hsnapshot.readField_eq (by decide),
    hsnapshot.get_eq (by decide), hsnapshot.get_eq (by decide), hsnapshot.get_eq (by decide),
    hsnapshot.project_eq (by decide)]

/-- Two objects with the same names agree when their public values are equal. -/
theorem agree_object {members members' : List (String × Json)}
    (h : List.Forall₂ (fun e e' => e.1 = e'.1 ∧ (e.1 ∉ secret → e.2 = e'.2)) members members') :
    Agree secret (.object members) (.object members') := by
  refine ⟨rfl, (fun hplain => by cases hplain), fun name => ?_, fun name hname => ?_⟩
  · show (members.lookup name).isSome = (members'.lookup name).isSome
    induction h with
    | nil => rfl
    | @cons e e' _ _ hhead _ ih =>
      rw [List.lookup_cons, List.lookup_cons, ← hhead.1]
      cases name == e.1 with
      | true => rfl
      | false => exact ih
  · show members.lookup name = members'.lookup name
    induction h with
    | nil => rfl
    | @cons e e' _ _ hhead _ ih =>
      rw [List.lookup_cons, List.lookup_cons, ← hhead.1]
      cases hsame : name == e.1 with
      | true =>
        have hpublic := hhead.2 (eq_of_beq hsame ▸ hname)
        exact congrArg some hpublic
      | false => exact ih

/-- A system with the name that it reports and a filesystem. -/
private def reportedSystem (hostname mountpoint : String) : Json :=
  .object [("hostname", .string hostname), ("cpu_cores", .integer 64),
    ("disks", .array [.object [("mountpoint", .string mountpoint), ("used_pct", .integer 97)]])]

/-- A host that answers, with its message, the UUID of its device and its system. -/
private def answeringHost (host message uuid mountpoint : String) : Json :=
  .object [("host", .string host), ("status", .string "online"), ("message", .string message),
    ("gpus", .array [.object [("index", .integer 0), ("uuid", .string uuid)]]),
    ("system", reportedSystem host mountpoint)]

/-- A full disk on a host. -/
private def fullMount (host mountpoint : String) : Json :=
  .object [("host", .string host), ("conditionKey", .string ("disk:" ++ mountpoint)),
    ("category", .string "disk")]

/-- `str` of a text. -/
private def textOf : Json → String
  | .string value => value
  | _ => ""

/-- Another fleet of the same shape has the same bundle. -/
theorem bundle_reveals_no_identity_otherFleet :
    sanitizedBundle textOf
        (.object [("servers", .array [answeringHost "gpu-1" "ready" "GPU-a" "/home"])])
        (.object [("active", .array [fullMount "gpu-1" "/home"])]) none
      = sanitizedBundle textOf
        (.object [("servers", .array [answeringHost "lab-gpu-1" "back" "GPU-b" "/data"])])
        (.object [("active", .array [fullMount "lab-gpu-1" "/data"])]) none := by
  have hrename : Function.Injective fun host : String => "lab-" ++ host := by
    intro a b heq
    exact String.append_right_inj "lab-" |>.mp heq
  have hsystem : SystemAgree (reportedSystem "gpu-1" "/home")
      (reportedSystem "lab-gpu-1" "/data") := by
    refine ⟨agree_object ?_, .items (.cons (agree_object ?_) .nil)⟩
    · exact .cons ⟨rfl, fun h => absurd (by decide) h⟩ (.cons ⟨rfl, fun _ => rfl⟩
        (.cons ⟨rfl, fun h => absurd (by decide) h⟩ .nil))
    · exact .cons ⟨rfl, fun h => absurd (by decide) h⟩ (.cons ⟨rfl, fun _ => rfl⟩ .nil)
  refine bundle_reveals_no_identity textOf ("lab-" ++ ·) hrename _ _ _ _ ?_ ?_
  · refine ⟨agree_object (.cons ⟨rfl, fun h => absurd (by decide) h⟩ .nil),
      .items (.cons ⟨agree_object ?_, fun _ => rfl, .items (.cons (agree_object ?_) .nil), ?_⟩
        .nil)⟩
    · exact .cons ⟨rfl, fun h => absurd (by decide) h⟩ (.cons ⟨rfl, fun _ => rfl⟩
        (.cons ⟨rfl, fun h => absurd (by decide) h⟩
          (.cons ⟨rfl, fun h => absurd (by decide) h⟩
            (.cons ⟨rfl, fun h => absurd (by decide) h⟩ .nil))))
    · exact .cons ⟨rfl, fun _ => rfl⟩ (.cons ⟨rfl, fun h => absurd (by decide) h⟩ .nil)
    · intro x y hx hy
      cases hx
      cases hy
      exact hsystem
  · refine ⟨agree_object (.cons ⟨rfl, fun h => absurd (by decide) h⟩ .nil),
      .items (.cons ⟨agree_object ?_, fun _ => rfl⟩ .nil)⟩
    exact .cons ⟨rfl, fun h => absurd (by decide) h⟩
      (.cons ⟨rfl, fun h => absurd (by decide) h⟩ (.cons ⟨rfl, fun _ => rfl⟩ .nil))

end Mocop.Diagnostics
