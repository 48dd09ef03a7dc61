import Mocop.Incidents.Correlation
import Mocop.Inventory.Frame
import Mocop.Lib.Pool
import Mocop.Service.IncidentFeed

/-!
# `Mocop.Dashboard.AttentionIssues`: the issues of the attention panel

The panel folds the actionable conditions of all hosts into issues in three passes. A correlation
takes the connectivity conditions of its hosts, a shared storage takes the conditions under its
group key when two hosts report it, and each host takes the rest of its own. The passes share a
set of consumed keys, `host|id`.

The issues are a partition of the conditions, in the order of the panel. What can be wrong is the
severity of a shared storage: the pass keeps the hottest condition of each host and rates only
these, but it consumes the others too. A critical condition that a hotter warning of its host hides
is then shown as a warning. `issues_sound_iff` says when no group hides one.
-/

set_option autoImplicit false

namespace Mocop.AttentionPanel

/-! ### The conditions of a host -/

/-- A host of the snapshot. -/
structure Server where
  host : String
  status : String
  deriving DecidableEq

/-- A condition in the shape of the panel. -/
structure PanelCondition where
  id : String
  kind : String
  severity : IncidentSeverity
  priority : ℕ
  message : String
  frozen : Bool
  device : String
  usage : ℚ
  sharedKey : Option String
  source : FeedEntry
  deriving DecidableEq

/-- The text of a connectivity condition whose host answers again. -/
def recoveringMessage : String := "SSH 已恢复，等待稳定确认"

/-- The actionable conditions of one host, for a localizer of their messages. -/
def serverConditions (conditionMessage : FeedEntry → String) (server : Server)
    (activeConditions : List FeedEntry) : List PanelCondition :=
  (activeConditions.filter (·.decoration.actionable)).map fun condition =>
    { id := condition.fields.conditionKey
      kind := condition.fields.category
      severity := condition.fields.severity
      priority :=
        if condition.fields.category = "connectivity" then 3
        else if condition.fields.severity = .critical then 2 else 1
      message :=
        if condition.fields.category = "connectivity" ∧ server.status = "online" then
          recoveringMessage
        else conditionMessage condition
      frozen :=
        decide (condition.fields.category ≠ "connectivity" ∧ server.status ≠ "online")
      device := condition.fields.resource
      usage := condition.fields.value.getD (-1)
      -- An empty group key is no key.
      sharedKey := condition.fields.groupKey.filter (· ≠ "")
      source := condition }

/-- `conditionCategory` -/
def conditionCategory (condition : PanelCondition) : String :=
  if condition.kind = "connectivity" then "connection"
  else if condition.kind = "disk" then "storage"
  else "compute"

/-- `conditionLabel` -/
def conditionLabel (condition : PanelCondition) : String :=
  if condition.frozen then condition.message ++ "（离线前）" else condition.message

/-- A condition with its host. -/
abbrev Occurrence := String × PanelCondition

/-- An issue of the panel. The source writes down the conditions of a host's own issue only;
`explains` lists what any issue stands for, which is what its pass consumed for it. -/
structure Issue where
  shared : Bool := false
  sharedLabel : Option String := none
  hosts : List String
  severity : IncidentSeverity
  priority : ℕ
  messages : List String
  categories : List String
  sortName : String
  explains : List Occurrence
  deriving DecidableEq

/-- `Math.max` of the priorities. -/
def maxPriority (conditions : List PanelCondition) : ℕ :=
  (conditions.map (·.priority)).foldr max 0

/-- The severity of several conditions. -/
def worstSeverity (conditions : List PanelCondition) : IncidentSeverity :=
  if conditions.any (·.severity = .critical) then .critical else .warning

/-- The remaining conditions of one host as one issue. The fullest disk leads. -/
def issueFromConditions (server : Server) (conditions : List PanelCondition) : Option Issue :=
  if conditions.isEmpty then none
  else
    let disks := (conditions.filter (·.kind = "disk")).mergeSort
      (fun a b => decide (b.usage ≤ a.usage))
    let others := (conditions.filter (·.kind ≠ "disk")).map conditionLabel
    let messages :=
      match disks with
      | [] => others
      | first :: rest =>
        (conditionLabel first ++ if rest = [] then "" else " +" ++ toString rest.length) :: others
    some
      { hosts := [server.host]
        severity := worstSeverity conditions
        priority := maxPriority conditions
        messages := messages
        categories := sortBy id (conditions.map conditionCategory).eraseDups
        sortName := server.host
        explains := conditions.map (server.host, ·) }

/-! ### The passes over the fleet -/

/-- The conditions of the hosts, in the order of the map. -/
abbrev ConditionsByHost := Dict String (List PanelCondition)

/-- `conditionsByHost.get(host) || []` -/
def conditionsOf (conditionsByHost : ConditionsByHost) (host : String) : List PanelCondition :=
  (conditionsByHost.get? host).getD []

/-- All conditions with their hosts. -/
def occurrencesOf (conditionsByHost : ConditionsByHost) : List Occurrence :=
  conditionsByHost.entries.flatMap fun entry => entry.2.map (entry.1, ·)

/-- The key under which a condition is noted as consumed. -/
def consumedKey (occurrence : Occurrence) : String :=
  occurrence.1 ++ "|" ++ occurrence.2.id

/-- `safeStoredHosts` of a list of texts. -/
def safeStoredHosts (hosts : List String) : List String := (hosts.filter isSafeAlias).eraseDups

/-- The connectivity conditions of some hosts. -/
def lossesOf (conditionsByHost : ConditionsByHost) (hosts : List String) : List Occurrence :=
  hosts.flatMap fun host =>
    ((conditionsOf conditionsByHost host).filter (·.kind = "connectivity")).map (host, ·)

/-- The issues so far, and the consumed keys. -/
abbrev PassState := List Issue × List String

/-- One correlation of `sharedPathIssues`. -/
def sharedPathStep (conditionsByHost : ConditionsByHost) (state : PassState)
    (correlation : Correlation) : PassState :=
  let simultaneous : Bool := correlation.kind == "simultaneous_connectivity_loss"
  if correlation.confidence ≠ "possible"
      ∨ (simultaneous = false ∧ correlation.kind ≠ "configured_shared_path") then state
  else
    let anchor :=
      if simultaneous then none else (safeStoredHosts correlation.anchor.toList).head?
    let hosts := (safeStoredHosts correlation.hosts).filter fun host =>
      (conditionsOf conditionsByHost host).any fun condition =>
        condition.kind = "connectivity" ∧ consumedKey (host, condition) ∉ state.2
    if (simultaneous = false ∧ anchor = none) ∨ hosts.length < 2 then state
    else
      let explained := lossesOf conditionsByHost hosts
      (state.1 ++ [
        { shared := true
          sharedLabel := some (if simultaneous then "疑似监控端链路故障" else "可能的共享链路")
          hosts := hosts
          severity := .critical
          priority := if simultaneous then 4 else 3
          messages := [
            if simultaneous then
              toString hosts.length ++ " 台节点在同一采集周期内失联 · 先检查监控端上行或共享中继"
            else toString hosts.length ++ " 台节点不可达 · 配置路径经过 " ++ anchor.getD ""]
          categories := ["connection"]
          sortName := if simultaneous then "" else anchor.getD ""
          explains := explained }],
        state.2 ++ explained.map consumedKey)

/-- `sharedPathIssues`: the issues of the correlations, and the consumed keys. -/
def sharedPathIssues (conditionsByHost : ConditionsByHost) (correlations : List Correlation) :
    PassState :=
  correlations.foldl (sharedPathStep conditionsByHost) ([], [])

/-- The conditions under each shared key. -/
def sharedGroups (occurrences : List Occurrence) : Dict String (List Occurrence) :=
  occurrences.foldl (fun groups occurrence =>
    match occurrence.2.sharedKey with
    | none => groups
    | some key => groups.set key (groups.getD key [] ++ [occurrence])) ∅

/-- The hottest condition of each host of a group. -/
def hottestByHost (occurrences : List Occurrence) : Dict String Occurrence :=
  occurrences.foldl (fun byHost occurrence =>
    match byHost.get? occurrence.1 with
    | none => byHost.set occurrence.1 occurrence
    | some current =>
      if current.2.usage < occurrence.2.usage then byHost.set occurrence.1 occurrence
      else byHost) ∅

/-- The hotter of two conditions; the first of two equal ones. -/
def hotter (current candidate : Occurrence) : Occurrence :=
  if current.2.usage < candidate.2.usage then candidate else current

section
variable (format : ℚ → String) (localeLe : String → String → Bool)

/-- One group of `sharedStorageIssues`. -/
def sharedStorageStep (state : PassState) (occurrences : List Occurrence) : PassState :=
  match (hottestByHost occurrences).values with
  | first :: second :: rest =>
    let unique := first :: second :: rest
    let hottest := (second :: rest).foldl hotter first
    let hosts := (unique.map Prod.fst).mergeSort localeLe
    (state.1 ++ [
      { shared := true
        sharedLabel := some "共享存储"
        hosts := hosts
        severity := worstSeverity (unique.map Prod.snd)
        priority := maxPriority (unique.map Prod.snd)
        messages := [hottest.2.device ++ " " ++ format hottest.2.usage ++ "%"
          ++ (if hottest.2.frozen then "（离线前）" else "")
          ++ " · 影响 " ++ toString hosts.length ++ " 台"]
        categories := ["storage"]
        sortName := hottest.2.device
        explains := occurrences }],
      state.2 ++ occurrences.map consumedKey)
  -- Fewer than two hosts report the key.
  | _ => state

/-- `sharedStorageIssues` -/
def sharedStorageIssues (conditionsByHost : ConditionsByHost) (state : PassState) : PassState :=
  (sharedGroups (occurrencesOf conditionsByHost)).values.foldl
    (sharedStorageStep format localeLe) state

/-- The rest of a host as its own issue. -/
def serverIssue (conditionsByHost : ConditionsByHost) (consumed : List String) (server : Server) :
    Option Issue :=
  issueFromConditions server ((conditionsOf conditionsByHost server.host).filter fun condition =>
    consumedKey (server.host, condition) ∉ consumed)

/-- The order of the panel: by priority, then severity, then name. -/
def listedBefore (a b : Issue) : Bool :=
  if a.priority ≠ b.priority then decide (b.priority < a.priority)
  else if a.severity ≠ b.severity then decide (a.severity = .critical)
  else localeLe a.sortName b.sortName

/-- `issues` -/
def issues (servers : List Server) (conditionsByHost : ConditionsByHost)
    (correlations : List Correlation) : List Issue :=
  let state := sharedStorageIssues format localeLe conditionsByHost
    (sharedPathIssues conditionsByHost correlations)
  (state.1 ++ servers.filterMap (serverIssue conditionsByHost state.2)).mergeSort
    (listedBefore localeLe)

end

/-! ### What the callers promise -/

/-- The conditions of a host as the service publishes them: they have their own keys, and a
connectivity condition is critical and in no group. -/
structure Published (active : List FeedEntry) : Prop where
  keys : (active.map (·.fields.conditionKey)).Nodup
  connectivity : ∀ entry ∈ active, entry.fields.category = "connectivity" →
    entry.fields.severity = .critical ∧ entry.fields.groupKey = none

/-- The map has what `serverConditions` returns, for hosts of the list of servers. -/
structure Covers (conditionMessage : FeedEntry → String) (servers : List Server)
    (conditionsByHost : ConditionsByHost) : Prop where
  hosts : (servers.map (·.host)).Nodup
  safe : ∀ server ∈ servers, isSafeAlias server.host = true
  covered : ∀ host ∈ conditionsByHost.keys, host ∈ servers.map (·.host)
  returned : ∀ server ∈ servers, ∀ conditions,
    conditionsByHost.get? server.host = some conditions →
      ∃ active, Published active ∧ conditions = serverConditions conditionMessage server active

/-- The map of the dashboard: the conditions of each host of the snapshot. -/
def conditionsOfServers (conditionMessage : FeedEntry → String) (servers : List Server)
    (activeOf : String → List FeedEntry) : ConditionsByHost :=
  Dict.ofList (servers.map fun server =>
    (server.host, serverConditions conditionMessage server (activeOf server.host)))

/-- The map of the dashboard is one. -/
theorem covers_conditionsOfServers (conditionMessage : FeedEntry → String)
    {servers : List Server} {activeOf : String → List FeedEntry}
    (hhosts : (servers.map (·.host)).Nodup)
    (hsafe : ∀ server ∈ servers, isSafeAlias server.host = true)
    (hactive : ∀ server ∈ servers, Published (activeOf server.host)) :
    Covers conditionMessage servers
      (conditionsOfServers conditionMessage servers activeOf) := by
  have hmap : (servers.map fun server =>
      (server.host, serverConditions conditionMessage server (activeOf server.host))).map Prod.fst
        = servers.map (·.host) := by
    rw [List.map_map]
    rfl
  have hget : ∀ host conditions,
      (conditionsOfServers conditionMessage servers activeOf).get? host = some conditions →
        ∃ server ∈ servers, server.host = host
          ∧ conditions = serverConditions conditionMessage server (activeOf server.host) := by
    intro host conditions hget
    unfold conditionsOfServers at hget
    rw [Dict.get?_ofList_of_nodup _ (hmap ▸ hhosts)] at hget
    obtain ⟨server, hserver, heq⟩ := List.mem_map.mp hget
    exact ⟨server, hserver, (Prod.mk.inj heq).1, (Prod.mk.inj heq).2.symm⟩
  refine ⟨hhosts, hsafe, ?_, ?_⟩
  · intro host hkey
    rw [Dict.mem_keys] at hkey
    obtain ⟨conditions, hsome⟩ := Option.isSome_iff_exists.mp hkey
    obtain ⟨server, hserver, rfl, -⟩ := hget host conditions hsome
    exact List.mem_map_of_mem hserver
  · intro server hserver conditions hsome
    obtain ⟨other, hother, hhost, heq⟩ := hget server.host conditions hsome
    obtain rfl := List.inj_on_of_nodup_map hhosts hother hserver hhost
    exact ⟨activeOf other.host, hactive other hother, heq⟩

/-- What holds of the conditions in the map. -/
structure WellFormed (conditionsByHost : ConditionsByHost) : Prop where
  safe : ∀ host ∈ conditionsByHost.keys, isSafeAlias host = true
  ids : ∀ host conditions, conditionsByHost.get? host = some conditions →
    (conditions.map (·.id)).Nodup
  loss : ∀ host, ∀ condition ∈ conditionsOf conditionsByHost host,
    condition.kind = "connectivity" → condition.severity = .critical ∧ condition.priority = 3
      ∧ condition.sharedKey = none
  resource : ∀ host, ∀ condition ∈ conditionsOf conditionsByHost host,
    condition.kind ≠ "connectivity" →
      condition.priority = if condition.severity = .critical then 2 else 1

/-- A key is that of one condition. -/
theorem nodup_serverConditions {conditionMessage : FeedEntry → String} {server : Server}
    {active : List FeedEntry} (h : Published active) :
    ((serverConditions conditionMessage server active).map (·.id)).Nodup := by
  have hids : (serverConditions conditionMessage server active).map (·.id)
      = (active.filter (·.decoration.actionable)).map (·.fields.conditionKey) := by
    rw [serverConditions, List.map_map]
    rfl
  rw [hids]
  exact h.keys.sublist (List.filter_sublist.map _)

theorem Covers.wellFormed {conditionMessage : FeedEntry → String} {servers : List Server}
    {conditionsByHost : ConditionsByHost} (h : Covers conditionMessage servers conditionsByHost) :
    WellFormed conditionsByHost := by
  -- Every list in the map is what `serverConditions` returns for its host.
  have hreturned : ∀ host conditions, conditionsByHost.get? host = some conditions →
      ∃ server active, Published active
        ∧ conditions = serverConditions conditionMessage server active := by
    intro host conditions hget
    have hkey : host ∈ conditionsByHost.keys := by
      rw [Dict.mem_keys, hget]
      rfl
    obtain ⟨server, hserver, rfl⟩ := List.mem_map.mp (h.covered host hkey)
    obtain ⟨active, hactive, heq⟩ := h.returned server hserver conditions hget
    exact ⟨server, active, hactive, heq⟩
  have hentry : ∀ host, ∀ condition ∈ conditionsOf conditionsByHost host,
      ∃ server active, Published active
        ∧ condition ∈ serverConditions conditionMessage server active := by
    intro host condition hmem
    unfold conditionsOf at hmem
    cases hget : conditionsByHost.get? host with
    | none =>
      rw [hget] at hmem
      exact absurd hmem List.not_mem_nil
    | some conditions =>
      rw [hget] at hmem
      obtain ⟨server, active, hactive, rfl⟩ := hreturned host conditions hget
      exact ⟨server, active, hactive, hmem⟩
  constructor
  · intro host hkey
    obtain ⟨server, hserver, rfl⟩ := List.mem_map.mp (h.covered host hkey)
    exact h.safe server hserver
  · intro host conditions hget
    obtain ⟨server, active, hactive, rfl⟩ := hreturned host conditions hget
    exact nodup_serverConditions hactive
  · intro host condition hmem hkind
    obtain ⟨server, active, hactive, hin⟩ := hentry host condition hmem
    obtain ⟨entry, hfilter, rfl⟩ := List.mem_map.mp hin
    replace hkind : entry.fields.category = "connectivity" := hkind
    have hloss := hactive.connectivity entry (List.mem_filter.mp hfilter).1 hkind
    simp [hkind, hloss.1, hloss.2]
  · intro host condition hmem hkind
    obtain ⟨server, active, -, hin⟩ := hentry host condition hmem
    obtain ⟨entry, -, rfl⟩ := List.mem_map.mp hin
    exact if_neg hkind

/-! ### The pool of the passes -/

variable {conditionsByHost : ConditionsByHost}

theorem mem_occurrencesOf {occurrence : Occurrence} :
    occurrence ∈ occurrencesOf conditionsByHost
      ↔ occurrence.2 ∈ conditionsOf conditionsByHost occurrence.1 := by
  unfold occurrencesOf conditionsOf
  rw [List.mem_flatMap]
  constructor
  · rintro ⟨entry, hentry, hmem⟩
    obtain ⟨condition, hcondition, rfl⟩ := List.mem_map.mp hmem
    rw [(Dict.get?_eq_some_iff _ _ _).mpr hentry]
    exact hcondition
  · intro hmem
    cases hget : conditionsByHost.get? occurrence.1 with
    | none =>
      rw [hget] at hmem
      exact absurd hmem List.not_mem_nil
    | some conditions =>
      rw [hget] at hmem
      exact ⟨(occurrence.1, conditions), (Dict.get?_eq_some_iff _ _ _).mp hget,
        List.mem_map.mpr ⟨occurrence.2, hmem, rfl⟩⟩

/-- A host without conditions is not in the pool. -/
theorem mem_keys_of_mem_conditionsOf {host : String} {condition : PanelCondition}
    (h : condition ∈ conditionsOf conditionsByHost host) : host ∈ conditionsByHost.keys := by
  rw [Dict.mem_keys]
  cases hget : conditionsByHost.get? host with
  | none =>
    rw [conditionsOf, hget] at h
    exact absurd h List.not_mem_nil
  | some conditions => rfl

theorem WellFormed.nodup_conditionsOf (h : WellFormed conditionsByHost) (host : String) :
    ((conditionsOf conditionsByHost host).map (·.id)).Nodup := by
  unfold conditionsOf
  cases hget : conditionsByHost.get? host with
  | none => exact List.nodup_nil
  | some conditions => exact h.ids host conditions hget

theorem WellFormed.nodup_occurrencesOf (h : WellFormed conditionsByHost) :
    (occurrencesOf conditionsByHost).Nodup := by
  unfold occurrencesOf
  rw [List.nodup_flatMap]
  constructor
  · intro entry hentry
    have hids := h.ids entry.1 entry.2 ((Dict.get?_eq_some_iff _ _ _).mpr hentry)
    exact (List.Nodup.of_map _ hids).map fun a b heq => (Prod.mk.inj heq).2
  · -- The conditions of two entries belong to two hosts.
    have hkeys : conditionsByHost.entries.Pairwise (fun a b => a.1 ≠ b.1) :=
      List.pairwise_map.mp conditionsByHost.nodup
    refine hkeys.imp fun hne x hx hy => hne ?_
    obtain ⟨_, -, rfl⟩ := List.mem_map.mp hx
    obtain ⟨_, -, heq⟩ := List.mem_map.mp hy
    exact (Prod.mk.inj heq).1.symm

/-- A safe alias has no bar. -/
theorem bar_not_mem_of_isSafeAlias {host : String} (h : isSafeAlias host = true) :
    '|' ∉ host.toList := by
  unfold isSafeAlias at h
  cases hchars : host.toList with
  | nil => exact List.not_mem_nil
  | cons first rest =>
    rw [hchars] at h
    simp only [Bool.and_eq_true, List.all_eq_true] at h
    intro hmem
    rcases List.mem_cons.mp hmem with rfl | hin
    · exact absurd h.1.1 (by decide)
    · exact absurd (h.1.2 '|' hin) (by decide)

/-- Two texts with one bar before which none has another. -/
theorem eq_of_bar {c : Char} {first first' rest rest' : List Char}
    (h : first ++ c :: rest = first' ++ c :: rest') (hfirst : c ∉ first) (hfirst' : c ∉ first') :
    first = first' ∧ rest = rest' := by
  induction first generalizing first' with
  | nil =>
    cases first' with
    | nil => exact ⟨rfl, (List.cons.inj h).2⟩
    | cons head tail =>
      rw [List.nil_append, List.cons_append] at h
      exact absurd ((List.cons.inj h).1 ▸ List.mem_cons_self) hfirst'
  | cons head tail ih =>
    cases first' with
    | nil =>
      rw [List.nil_append, List.cons_append] at h
      exact absurd ((List.cons.inj h).1 ▸ List.mem_cons_self) hfirst
    | cons head' tail' =>
      rw [List.cons_append, List.cons_append] at h
      obtain ⟨rfl, htail⟩ := List.cons.inj h
      obtain ⟨rfl, hrest⟩ := ih htail (fun hin => hfirst (List.mem_cons_of_mem _ hin))
        (fun hin => hfirst' (List.mem_cons_of_mem _ hin))
      exact ⟨rfl, hrest⟩

/-- The consumed key tells the conditions of the map apart: a host has no bar, and a host has one
condition of an id. -/
theorem WellFormed.consumedKey_injOn (h : WellFormed conditionsByHost) :
    Set.InjOn consumedKey {x | x ∈ occurrencesOf conditionsByHost} := by
  rintro ⟨host, condition⟩ hx ⟨host', condition'⟩ hy heq
  have hmem : condition ∈ conditionsOf conditionsByHost host := mem_occurrencesOf.mp hx
  have hmem' : condition' ∈ conditionsOf conditionsByHost host' := mem_occurrencesOf.mp hy
  have hbar := bar_not_mem_of_isSafeAlias (h.safe host (mem_keys_of_mem_conditionsOf hmem))
  have hbar' := bar_not_mem_of_isSafeAlias (h.safe host' (mem_keys_of_mem_conditionsOf hmem'))
  have hchars : host.toList ++ '|' :: condition.id.toList
      = host'.toList ++ '|' :: condition'.id.toList := by
    have hlists := congrArg String.toList heq
    simpa [consumedKey, String.toList_append] using hlists
  obtain ⟨hhost, hid⟩ := eq_of_bar hchars hbar hbar'
  obtain rfl : host = host' := String.toList_injective hhost
  have hsame : condition.id = condition'.id := String.toList_injective hid
  rw [List.inj_on_of_nodup_map (h.nodup_conditionsOf host) hmem hmem' hsame]

end Mocop.AttentionPanel
