import Mocop.Inventory.Shown
import Mocop.Topology.Groups

/-!
# `Mocop.Inventory.Discovery`: the hosts that the SSH configuration offers

The discovery lists the aliases of the SSH configuration. In the mode `topology` it also asks for
their routes, leaves the hops out of the hosts, and keeps its last snapshot for a while
(`Discovers`). The aliases that the files spell, the answers of the SSH client, the name of the
machine and the clock are arbitrary.

`Discovers.found` says what every discovered snapshot satisfies after any number of calls: safe
aliases without repetitions, shown groups, and a topology that is a tree.
-/

set_option autoImplicit false

namespace Mocop

/-! ### Aliases -/

/-- Whether an alias names Git or hosted Git infrastructure. -/
def isCodeHostAlias (name : String) : Bool :=
  ((name.toList.map Char.toLower).splitOnP fun c => c == '.' || c == '_' || c == '-').any
    fun piece => ["git".toList, "github".toList, "gitlab".toList].contains piece

/-- The safe aliases, and the warnings about the other ones. -/
def safeAliases (spelled : List String) : Except String (List String × List String) := do
  let skipped := (sortedSet (spelled.filter fun name => !isSafeAlias name)).map fun name =>
    name ++ ": unsafe ssh alias ignored"
  let safe := sortedSet (spelled.filter isSafeAlias)
  require (safe.length ≤ configMaxHostAliases)
    ("SSH config contains more than " ++ toString configMaxHostAliases ++ " literal host aliases")
  return (safe, skipped)

/-- The hosts without their routes. -/
def aliasOnlyHosts (config : MonitorConfig Json) (aliases : List String) :
    Except String (List String) := do
  let discovered := config.hosts
    ++ if config.autoDiscover then aliases.filter fun name => !isCodeHostAlias name else []
  let invalid := sortedSet (discovered.filter fun name => !isSafeAlias name)
  require invalid.isEmpty ("host aliases must contain only letters, numbers, dots, underscores, "
    ++ "and hyphens: " ++ String.intercalate ", " invalid)
  return sortedSet (discovered.filter fun name => !config.excludeHosts.contains name)

/-! ### The root of the tree -/

/-- The name of the root that stands for this machine. -/
def localRootName (index : ℕ) : String := "mocop-local" ++ numberedSuffix index

/-- The first free name of the root. There is one more name than there are reserved aliases. -/
def localRoot (reserved : List String) : String :=
  (((0 :: (List.range reserved.length).map (· + 2)).map localRootName).find? fun name =>
    !reserved.contains name).getD (localRootName 0)

/-- The root of a tree without a configured one. -/
def defaultTopologyRoot (localHost : Option String) (hostname : String) (reserved : List String) :
    String :=
  match localHost with
  | some name => name
  | none =>
    let hostname := pyStrip hostname
    if isSafeAlias hostname && !reserved.contains hostname then hostname else localRoot reserved

/-! ### Snapshots -/

/-- What the discovery found. -/
structure HostDiscoverySnapshot where
  aliases : List String
  eligibleAliases : List String
  hosts : List String
  infrastructureHosts : List String
  hostGroups : List (String × String)
  topology : Option TopologyDocument
  warnings : List String
  mode : DiscoveryMode

/-- What a snapshot with routes depends on, apart from the routes. -/
structure DiscoveryKey where
  sshConfig : String
  aliases : List String
  autoDiscover : Bool
  hosts : List String
  excludeHosts : List String
  localHost : Option String
  hostGroups : List (String × String)
  topology : Option TopologyDocument
  maxWorkers : ℤ
  sshDiscovery : SshDiscoveryConfig
  warnings : List String
  deriving DecidableEq

/-- The key of a configuration and the aliases. -/
def discoveryKey (loaded : InventoryConfig) (aliases warnings : List String) : DiscoveryKey where
  sshConfig := loaded.sshConfig
  aliases := aliases
  autoDiscover := loaded.config.autoDiscover
  hosts := loaded.config.hosts
  excludeHosts := sortedSet loaded.config.excludeHosts
  localHost := loaded.config.localHost
  hostGroups := loaded.config.hostGroups
  topology := loaded.config.topology
  maxWorkers := loaded.collector.maxWorkers
  sshDiscovery := loaded.sshDiscovery
  warnings := warnings

namespace DiscoveryKey

variable (key : DiscoveryKey)

/-- The aliases that may become hosts. -/
def eligible : List String :=
  key.aliases.filter fun name => !key.excludeHosts.contains name && !isCodeHostAlias name

/-- The listed hosts that are not excluded. -/
def explicit : List String := key.hosts.filter fun name => !key.excludeHosts.contains name

/-- The snapshot of resolved routes. -/
def resolved (root : String) (resolution : SshRouteResolution) (failures : List String) :
    HostDiscoverySnapshot :=
  let infrastructure := resolution.routeMap.values.flatMap (·.hops)
  let autoHosts := key.eligible.filter fun name =>
    !infrastructure.contains name && !failures.contains name
  let hosts := sortedSet (key.explicit ++ if key.autoDiscover then autoHosts else [])
  let projection := project root hosts resolution
  let groups := (Dict.ofList projection.hostGroups).update (Dict.ofList key.hostGroups)
  { aliases := key.aliases
    eligibleAliases := autoHosts
    hosts := hosts
    infrastructureHosts := sortedSet infrastructure
    hostGroups := sortBy Prod.fst groups.entries
    topology := key.topology <|> projection.topology
    warnings := key.warnings ++ projection.warnings
    mode := .topology }

end DiscoveryKey

/-! ### The discovery -/

/-- The last snapshot with routes. -/
structure DiscoveryCache where
  key : DiscoveryKey
  expires : ℚ
  snapshot : HostDiscoverySnapshot

section Discovery

variable (rules : RouteRules)

/-- A snapshot that resolving the routes can yield. -/
def Projects (key : DiscoveryKey) (snapshot : HostDiscoverySnapshot) : Prop :=
  ∃ hostname resolution failures,
    Planned rules key.aliases (sortedSet (key.eligible ++ key.explicit)) key.localHost resolution
      failures
    ∧ snapshot = key.resolved (defaultTopologyRoot key.localHost hostname key.aliases) resolution
      failures

/-- One call of the discovery: the snapshot and the cache that it leaves. -/
inductive Discovers (loaded : InventoryConfig) :
    Option DiscoveryCache → HostDiscoverySnapshot → Option DiscoveryCache → Prop
  | aliases {cache : Option DiscoveryCache} {spelled aliases warnings hosts : List String} :
      loaded.sshDiscovery.mode = .aliases → safeAliases spelled = .ok (aliases, warnings) →
      aliasOnlyHosts loaded.config aliases = .ok hosts →
      Discovers loaded cache
        { aliases := aliases
          eligibleAliases := (discoveryKey loaded aliases warnings).eligible
          hosts := hosts
          infrastructureHosts := []
          hostGroups := loaded.config.hostGroups
          topology := loaded.config.topology
          warnings := warnings
          mode := .aliases } cache
  | cached {held : DiscoveryCache} {spelled aliases warnings : List String} {now : ℚ} :
      loaded.sshDiscovery.mode = .topology → safeAliases spelled = .ok (aliases, warnings) →
      held.key = discoveryKey loaded aliases warnings → now < held.expires →
      Discovers loaded (some held) held.snapshot (some held)
  | resolved {cache : Option DiscoveryCache} {spelled aliases warnings : List String} {now : ℚ}
      {snapshot : HostDiscoverySnapshot} :
      loaded.sshDiscovery.mode = .topology → safeAliases spelled = .ok (aliases, warnings) →
      (∀ held, cache = some held →
        held.key ≠ discoveryKey loaded aliases warnings ∨ held.expires ≤ now) →
      Projects rules (discoveryKey loaded aliases warnings) snapshot →
      Discovers loaded cache snapshot (some ⟨discoveryKey loaded aliases warnings,
        now + loaded.sshDiscovery.refreshSeconds, snapshot⟩)

/-- A cache that calls with loaded configurations can leave. -/
inductive CacheReached : Option DiscoveryCache → Prop
  | start : CacheReached none
  | call {cache cache' : Option DiscoveryCache} {loaded : InventoryConfig}
      {snapshot : HostDiscoverySnapshot} :
      CacheReached cache → Discovers rules loaded cache snapshot cache' → CacheReached cache'

end Discovery

/-! ### The cache -/

section Cache

variable {rules : RouteRules}

/-- A cached snapshot is one of its key. -/
theorem CacheReached.projects {cache : Option DiscoveryCache} (h : CacheReached rules cache) :
    ∀ held, cache = some held → Projects rules held.key held.snapshot := by
  induction h with
  | start => exact fun held hheld => by cases hheld
  | call _ hcall ih =>
    cases hcall with
    | aliases _ _ _ => exact ih
    | cached _ _ _ _ => exact ih
    | resolved _ _ _ hprojects =>
      intro held hheld
      obtain rfl := Option.some.inj hheld
      exact hprojects

end Cache

/-! ### The root of the tree -/

/-- The name of the root is safe. -/
theorem isSafeAlias_localRootName {index : ℕ} (hindex : index < 10 ^ 200) :
    isSafeAlias (localRootName index) = true := by
  obtain ⟨hchars, hlength⟩ := numberedSuffix_ok hindex
  have hname : localRootName index
      = String.ofList ('m' :: ("ocop-local".toList ++ (numberedSuffix index).toList)) := by
    have hfirst : "mocop-local".toList = 'm' :: "ocop-local".toList := by decide
    refine String.toList_inj.mp ?_
    rw [localRootName, String.toList_append, hfirst]
    exact String.toList_ofList.symm
  have hfront : "ocop-local".toList.all isAliasChar = true := by decide +kernel
  have hfrontLength : "ocop-local".toList.length = 10 := by decide
  have hsuffix : (numberedSuffix index).toList.length = (numberedSuffix index).length :=
    String.length_toList
  rw [hname]
  refine isSafeAlias_of_chars (by decide) (fun c hc => ?_) ?_
  · rcases List.mem_append.mp hc with hc | hc
    · exact List.all_eq_true.mp hfront c hc
    · exact hchars c hc
  · rw [List.length_append, hfrontLength, hsuffix]
    omega

/-- The names of the root are different. -/
theorem localRootName_injective {a b : ℕ} (h : localRootName a = localRootName b) : a = b := by
  have hlists := congrArg String.toList h
  rw [localRootName, localRootName, String.toList_append, String.toList_append,
    List.append_right_inj, String.toList_inj] at hlists
  have hdash : ∀ n : ℕ, "-" ++ toString n ≠ "" := by
    intro n heq
    have hlist := congrArg String.toList heq
    rw [String.toList_append] at hlist
    cases hlist
  unfold numberedSuffix at hlists
  by_cases ha : a = 0 <;> by_cases hb : b = 0
  · omega
  · rw [if_pos ha, if_neg hb] at hlists
    exact absurd hlists.symm (hdash b)
  · rw [if_neg ha, if_pos hb] at hlists
    exact absurd hlists (hdash a)
  · rw [if_neg ha, if_neg hb] at hlists
    have hdigits := congrArg String.toList hlists
    rw [String.toList_append, String.toList_append, List.append_right_inj, toList_toString,
      toList_toString] at hdigits
    have hvalues := congrArg (fun digits => Nat.ofDigitChars 10 digits 0) hdigits
    simpa using hvalues

/-- The root is not a reserved alias, and it is one of the names. -/
theorem localRoot_spec (reserved : List String) :
    localRoot reserved ∉ reserved
      ∧ ∃ index, index ≤ reserved.length + 1 ∧ localRoot reserved = localRootName index := by
  have hnodup : ((0 :: (List.range reserved.length).map (· + 2)).map localRootName).Nodup := by
    refine List.Nodup.map (fun a b => localRootName_injective) ?_
    rw [List.nodup_cons]
    exact ⟨by simp, List.Nodup.map (fun a b => Nat.add_right_cancel) List.nodup_range⟩
  cases hfound : ((0 :: (List.range reserved.length).map (· + 2)).map localRootName).find?
      fun name => !reserved.contains name with
  | none =>
    -- There are more names than reserved aliases.
    have hsubset : ∀ name ∈ (0 :: (List.range reserved.length).map (· + 2)).map localRootName,
        name ∈ reserved := by
      intro name hname
      have htaken := List.find?_eq_none.mp hfound name hname
      simpa using htaken
    have hle := (List.subperm_of_subset hnodup hsubset).length_le
    simp only [List.length_map, List.length_cons, List.length_range] at hle
    omega
  | some name =>
    have hroot : localRoot reserved = name := by
      rw [localRoot, hfound]
      rfl
    have hfree := List.find?_some hfound
    obtain ⟨index, hindex, rfl⟩ := List.mem_map.mp (List.mem_of_find?_eq_some hfound)
    rw [hroot]
    refine ⟨by simpa using hfree, index, ?_, rfl⟩
    rcases List.mem_cons.mp hindex with rfl | hlater
    · omega
    · obtain ⟨k, hk, rfl⟩ := List.mem_map.mp hlater
      have hlt := List.mem_range.mp hk
      omega

/-- The root of a tree is safe. -/
theorem isSafeAlias_defaultTopologyRoot {localHost : Option String} (hostname : String)
    {reserved : List String} (hlocal : ∀ name, localHost = some name → isSafeAlias name = true)
    (hreserved : reserved.length ≤ configMaxHostAliases) :
    isSafeAlias (defaultTopologyRoot localHost hostname reserved) = true := by
  unfold defaultTopologyRoot
  split
  · exact hlocal _ rfl
  · dsimp only
    split
    · next hsafe =>
      rw [Bool.and_eq_true] at hsafe
      exact hsafe.1
    · obtain ⟨-, index, hindex, hroot⟩ := localRoot_spec reserved
      rw [hroot]
      refine isSafeAlias_localRootName ?_
      unfold configMaxHostAliases at hreserved
      omega

/-! ### What a snapshot satisfies -/

/-- The printable characters of ASCII are visible. -/
def AsciiVisible (isOther : Char → Bool) : Prop :=
  ∀ c : Char, 32 ≤ c.toNat → c.toNat ≤ 126 → isOther c = false

/-- The values of a discovered snapshot. -/
structure Found (port : InstallationPort) (snapshot : HostDiscoverySnapshot) : Prop where
  aliases_bounded : snapshot.aliases.length ≤ configMaxHostAliases
  hosts_safe : ∀ name ∈ snapshot.hosts, isSafeAlias name = true
  hosts_nodup : snapshot.hosts.Nodup
  eligible_safe : ∀ name ∈ snapshot.eligibleAliases, isSafeAlias name = true
  eligible_nodup : snapshot.eligibleAliases.Nodup
  infrastructure_safe : ∀ name ∈ snapshot.infrastructureHosts, isSafeAlias name = true
  infrastructure_nodup : snapshot.infrastructureHosts.Nodup
  groups_nodup : (snapshot.hostGroups.map Prod.fst).Nodup
  groups : ∀ entry ∈ snapshot.hostGroups,
    entry.2 ≠ "" ∧ ShownText port.text.isOther hostGroupMaxLength entry.2
  topology : ∀ topology, snapshot.topology = some topology →
    ShownTree (documentRules port.collecting) topology

/-- The safe aliases of the files. -/
theorem safeAliases_spec {spelled aliases warnings : List String}
    (h : safeAliases spelled = .ok (aliases, warnings)) :
    (∀ name ∈ aliases, isSafeAlias name = true) ∧ aliases.Nodup
      ∧ aliases.length ≤ configMaxHostAliases := by
  obtain ⟨_, hbounded, h⟩ := bind_eq_ok.mp h
  obtain ⟨rfl, -⟩ := Prod.mk.inj (Except.ok.inj h)
  refine ⟨fun name hname => ?_, nodup_sortedSet _, by simpa using hbounded⟩
  exact (List.mem_filter.mp (mem_sortedSet.mp hname)).2

section Snapshots

variable {port : InstallationPort} {loaded : InventoryConfig}

/-- An inferred group is shown. -/
theorem GroupText.shown {group : String} (h : GroupText group)
    (hascii : AsciiVisible port.text.isOther) :
    group ≠ "" ∧ ShownText port.text.isOther hostGroupMaxLength group where
  left := h.ne_empty
  right :=
    { trimmed := pyStrip_of_all fun c hc => isPySpace_of_isAliasChar (h.chars c hc)
      bounded := h.bounded
      visible := fun c hc => by
        have hchar := h.chars c hc
        have hcodes : '.'.toNat = 46 ∧ '_'.toNat = 95 ∧ '-'.toNat = 45 := by decide
        simp only [isAliasChar, isAliasStart, Bool.or_eq_true, Bool.and_eq_true,
          decide_eq_true_eq, beq_iff_eq, ← Char.toNat_inj, hcodes] at hchar
        exact hascii c (by omega) (by omega) }

/-- A projected tree is shown. -/
theorem shownTree_of_project {root : String} {hosts : List String}
    {resolution : SshRouteResolution} {topology : TopologyDocument}
    (hroot : isSafeAlias root = true) (hhosts : ∀ host ∈ hosts, isSafeAlias host = true)
    (hroutes : SafeRoutes resolution.routeMap) (hascii : AsciiVisible port.text.isOther)
    (h : (project root hosts resolution).topology = some topology) :
    ShownTree (documentRules port.collecting) topology := by
  have hlabels : LabelsVisible (documentRules port.collecting) := by
    have hcodes : ("ProxyCommand".toList ++ "opaque ProxyJump".toList).all
        (fun c => decide (32 ≤ c.toNat ∧ c.toNat ≤ 126)) = true := by decide +kernel
    intro c hc
    have hcode := of_decide_eq_true (List.all_eq_true.mp hcodes c hc)
    exact hascii c hcode.1 hcode.2
  obtain ⟨-, htree, -, haccepted⟩ := project_accepted hosts resolution hroot hhosts hroutes
    hlabels h
  refine ⟨htree, fun link hlink => ?_⟩
  have hlinks := congrArg TopologyDocument.links (connectionTopology_eq_ok_iff.mp haccepted).2
  rw [hlinks] at hlink
  obtain ⟨raw, -, rfl⟩ := List.mem_map.mp hlink
  unfold trimLabel
  cases raw.label with
  | none => rfl
  | some label =>
    show some (pyStrip (pyStrip label)) = some (pyStrip label)
    rw [pyStrip_pyStrip]

/-- A snapshot with resolved routes. -/
theorem Projects.found {rules : RouteRules} {spelled aliases warnings : List String}
    {snapshot : HostDiscoverySnapshot} (hshown : Shown port loaded)
    (hascii : AsciiVisible port.text.isOther) (haliases : safeAliases spelled = .ok (aliases, warnings))
    (h : Projects rules (discoveryKey loaded aliases warnings) snapshot) :
    Found port snapshot := by
  obtain ⟨hostname, resolution, failures, hplanned, rfl⟩ := h
  obtain ⟨hsafe, hnodup, hbounded⟩ := safeAliases_spec haliases
  have hroutes := safeRoutes_of_planned hplanned hsafe
  have hroot := isSafeAlias_defaultTopologyRoot hostname hshown.localHost hbounded
  have hauto : ∀ (p : String → Bool), ∀ name ∈
      (discoveryKey loaded aliases warnings).eligible.filter p, isSafeAlias name = true :=
    fun p name hname => hsafe name (List.mem_of_mem_filter (List.mem_of_mem_filter hname))
  have hhosts : ∀ name ∈ ((discoveryKey loaded aliases warnings).resolved
      (defaultTopologyRoot loaded.config.localHost hostname aliases) resolution failures).hosts,
      isSafeAlias name = true := by
    intro name hname
    rcases List.mem_append.mp (mem_sortedSet.mp hname) with hlisted | hfound
    · exact hshown.hosts_safe name (List.mem_of_mem_filter hlisted)
    · split at hfound
      · exact hauto _ name hfound
      · cases hfound
  obtain ⟨hgroups, -⟩ := @groupText_of_project
    (defaultTopologyRoot loaded.config.localHost hostname aliases) _ _ hroutes hhosts
  exact
    { aliases_bounded := hbounded
      hosts_safe := hhosts
      hosts_nodup := nodup_sortedSet _
      eligible_safe := hauto _
      eligible_nodup := (hnodup.filter _).filter _
      infrastructure_safe := fun name hname => by
        obtain ⟨route, hroute, hhop⟩ := List.mem_flatMap.mp (mem_sortedSet.mp hname)
        obtain ⟨entry, hentry, rfl⟩ := List.mem_map.mp hroute
        exact hroutes entry.1 entry.2 ((Dict.get?_eq_some_iff _ _ _).mpr hentry) name hhop
      infrastructure_nodup := nodup_sortedSet _
      groups_nodup :=
        ((sortBy_perm Prod.fst _).map Prod.fst).nodup_iff.mpr (Dict.nodup_keys _)
      groups := fun entry hentry => by
        have hvalue := (Dict.get?_eq_some_iff _ _ _).mpr (mem_sortBy.mp hentry)
        rw [Dict.get?_update, Option.or_eq_some_iff] at hvalue
        rcases hvalue with hconfigured | ⟨-, hinferred⟩
        · exact hshown.groups _ (Dict.mem_of_get?_ofList hconfigured)
        · exact (hgroups _ (Dict.mem_of_get?_ofList hinferred)).shown hascii
      topology := fun topology htopology => by
        change (loaded.config.topology <|> (project _ _ resolution).topology) = some topology
          at htopology
        cases hconfigured : loaded.config.topology with
        | none =>
          rw [hconfigured] at htopology
          exact shownTree_of_project hroot hhosts hroutes hascii htopology
        | some configured =>
          rw [hconfigured] at htopology
          exact hshown.topology topology (hconfigured.trans htopology) }

/-- Whatever calls came before, a discovered snapshot has the values that the dashboard is
shown. -/
theorem Discovers.found {rules : RouteRules} {cache cache' : Option DiscoveryCache}
    {snapshot : HostDiscoverySnapshot} (hshown : Shown port loaded)
    (hascii : AsciiVisible port.text.isOther) (hcache : CacheReached rules cache)
    (h : Discovers rules loaded cache snapshot cache') : Found port snapshot := by
  cases h with
  | @aliases _ spelled aliases warnings hosts _ haliases hhosts =>
    obtain ⟨hsafe, hnodup, hbounded⟩ := safeAliases_spec haliases
    obtain ⟨_, hinvalid, hhosts⟩ := bind_eq_ok.mp hhosts
    obtain rfl := Except.ok.inj hhosts
    exact
      { aliases_bounded := hbounded
        hosts_safe := fun name hname => by
          have hname := List.mem_of_mem_filter (mem_sortedSet.mp hname)
          rcases List.mem_append.mp hname with hlisted | hfound
          · exact hshown.hosts_safe name hlisted
          · split at hfound
            · exact hsafe name (List.mem_of_mem_filter hfound)
            · cases hfound
        hosts_nodup := nodup_sortedSet _
        eligible_safe := fun name hname => hsafe name (List.mem_of_mem_filter hname)
        eligible_nodup := hnodup.filter _
        infrastructure_safe := fun name hname => by cases hname
        infrastructure_nodup := List.nodup_nil
        groups_nodup := hshown.groups_nodup
        groups := hshown.groups
        topology := hshown.topology }
  | @cached held spelled aliases warnings now _ haliases hkey _ =>
    have hprojects := hcache.projects held rfl
    rw [hkey] at hprojects
    exact hprojects.found hshown hascii haliases
  | resolved _ haliases _ hprojects => exact hprojects.found hshown hascii haliases

end Snapshots

end Mocop
