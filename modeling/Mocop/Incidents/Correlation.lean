import Mocop.Incidents.Tracker
import Mocop.Inventory.Acceptance
import Mocop.Lib.LinkTrees
import Mocop.Lib.Sorting
import Mocop.Lib.Windows
import Mathlib.Data.Finset.Sort
import Mathlib.Data.Prod.Lex
import Mathlib.Data.String.Basic

/-!
# `Mocop.Incidents.Correlation`: groups of connectivity incidents

The topology correlator groups the hosts that lost connectivity by the configured paths that
they share, the deepest paths first. The simultaneous-loss correlator looks for a group of
losses that began within one window. The composite correlator puts the simultaneous loss first
and drops the groups that it covers.

The traversals of the topology are those of `Mocop.Lib.LinkTrees`, and the window is
`densest`. `correlation_partitions` states what the three correlators promise of every topology
that is a tree, and of every set of incidents.
-/

set_option autoImplicit false

namespace Mocop

open TopologyLink (source target)

/-- What the correlators read of an active incident. A decoration that the incident lacks has its
default. -/
structure CorrelatedIncident where
  host : String
  category : String
  silenced : Bool := false
  actionable : Bool := true
  firstObservedAt : Option String := none

/-- A group of hosts that one cause may explain. -/
structure Correlation where
  correlationKey : String
  kind : String
  anchor : Option String
  hosts : List String
  severity : String := "critical"
  confidence : String := "possible"
  detail : String
  deriving DecidableEq

/-- Correlates the active incidents of the monitored hosts. -/
abbrev IncidentCorrelator :=
  List CorrelatedIncident → Finset String → Except KeyError (List Correlation)

/-- The connectivity incidents that ask for action, by host. -/
def actionableConnectivity (incidents : List CorrelatedIncident) (monitored : Finset String) :
    Dict String CorrelatedIncident :=
  Dict.ofList ((incidents.filter (fun item => item.category = "connectivity" && !item.silenced
    && item.actionable && decide (item.host ∈ monitored))).map (fun item => (item.host, item)))

/-- The hosts that lost connectivity. -/
def affectedHosts (incidents : List CorrelatedIncident) (monitored : Finset String) :
    Finset String :=
  (actionableConnectivity incidents monitored).keys.toFinset

/-! ### The shared paths -/

/-- A node of the topology with affected hosts below it. -/
structure PathCandidate where
  depth : ℕ
  anchor : String
  hosts : Finset String

/-- The group of the hosts below an anchor. -/
def sharedPath (anchor : String) (hosts : Finset String) : Correlation where
  correlationKey := "configured-path:" ++ anchor
  kind := "configured_shared_path"
  anchor := some anchor
  hosts := hosts.sort
  detail := toString hosts.card ++ " unreachable nodes share the configured path through "
    ++ anchor

/-- Takes the candidates in order. Each one gets the hosts that are left of it, if these are two
or more. -/
def groupPaths : List PathCandidate → Finset String → List Correlation
  | [], _ => []
  | candidate :: rest, remaining =>
    let hosts := candidate.hosts ∩ remaining
    if hosts.card < 2 then groupPaths rest remaining
    else sharedPath candidate.anchor hosts :: groupPaths rest (remaining \ hosts)

/-- The depth of each node of a topology. -/
def topologyDepths (topology : TopologyDocument) : Dict String ℕ :=
  nodeDepths source target topology.links (topology.links.length + 1)
    [topology.root] ((∅ : Dict String ℕ).set topology.root 0)

/-- The monitored hosts at or below each node of a topology. -/
def monitoredDescendants (topology : TopologyDocument) (monitored : Finset String) :
    Dict String (Finset String) :=
  (visit source target topology.links monitored
    (topology.links.length + 1) topology.root ∅).2

/-- The candidate of a node with affected hosts below it. -/
def pathCandidate (depths : Dict String ℕ) (affected : Finset String)
    (entry : String × Finset String) : Except KeyError PathCandidate := do
  let depth ← depths.item entry.1
  pure { depth := depth, anchor := entry.1, hosts := entry.2 ∩ affected }

/-- Groups the affected hosts by the configured paths that they share, the deepest paths first. -/
def correlatePaths (topology : TopologyDocument) : IncidentCorrelator :=
  fun incidents monitored => do
    let affected := affectedHosts incidents monitored
    if affected.card < 2 then pure []
    else
      let descendants := monitoredDescendants topology monitored
      let candidates ← (descendants.entries.filter (fun entry =>
        entry.1 ≠ topology.root && decide (2 ≤ (entry.2 ∩ affected).card))).mapM
          (pathCandidate (topologyDepths topology) affected)
      pure (groupPaths (sortBy (fun candidate =>
        toLex (-(candidate.depth : ℤ), candidate.anchor)) candidates) affected)

/-! ### The simultaneous loss -/

/-- The longest time between two losses of one group. -/
def simultaneousLossWindowSeconds : ℚ := 120

/-- The least number of hosts of a simultaneous loss. -/
def simultaneousLossMinHosts : ℕ := 3

/-- The least share of the monitored hosts in a simultaneous loss. -/
def simultaneousLossMinShare : ℚ := 1 / 2

section

variable (epochSeconds : String → Option ℚ)

/-- The time at which a host lost connectivity, when the incident has one. -/
def lossTime (incident : CorrelatedIncident) : Option ℚ :=
  incident.firstObservedAt.bind epochSeconds

/-- The losses with a time, in order. -/
def timedLosses (affected : Dict String CorrelatedIncident) : List (ℚ × String) :=
  sortBy toLex (affected.entries.filterMap (fun entry =>
    (lossTime epochSeconds entry.2).map (fun epoch => (epoch, entry.1))))

/-- Groups the connectivity losses that began within one window. -/
def correlateLosses (incidents : List CorrelatedIncident) (monitored : Finset String) :
    List Correlation :=
  let affected := actionableConnectivity incidents monitored
  if monitored = ∅ ∨ affected.entries.length < simultaneousLossMinHosts then []
  else
    let best := (densest Prod.fst simultaneousLossWindowSeconds []
      (timedLosses epochSeconds affected)).map Prod.snd
    if best.length < simultaneousLossMinHosts
        ∨ (best.length : ℚ) < simultaneousLossMinShare * monitored.card then []
    else
      let hosts := sortBy id best
      let first := ((hosts.filterMap (fun host =>
        (affected.get? host).bind (·.firstObservedAt))).min?).getD ""
      [{ correlationKey := "simultaneous-loss:" ++ first
         kind := "simultaneous_connectivity_loss"
         anchor := none
         hosts := hosts
         detail := toString hosts.length ++ " of " ++ toString monitored.card
          ++ " monitored nodes lost connectivity within 120 seconds of each other; the monitor's"
          ++ " own uplink or a shared relay is the likely cause" }]

/-! ### The composite correlator -/

/-- The hosts of the first group of a list. -/
def coveredHosts (groups : List Correlation) : List String := (groups.head?.map (·.hosts)).getD []

/-- The groups of a correlator that have a host which is not covered. -/
def uncoveredGroups (covered : List String) (groups : List Correlation) : List Correlation :=
  groups.filter (fun group => !(group.hosts.all covered.contains))

/-- Puts the simultaneous loss first. The other correlators explain what remains. -/
def correlateAll (correlators : List IncidentCorrelator) : IncidentCorrelator :=
  fun incidents monitored => do
    let fleet := correlateLosses epochSeconds incidents monitored
    let others ← correlators.mapM (fun correlator => do
      let groups ← correlator incidents monitored
      pure (uncoveredGroups (coveredHosts fleet) groups))
    pure (fleet ++ others.flatten)

/-- The correlator of a topology. -/
def createIncidentCorrelator (topology : Option TopologyDocument) : IncidentCorrelator :=
  correlateAll epochSeconds (topology.toList.map correlatePaths)

end

/-! ### What the path groups are -/

/-- Whether no group has the host. -/
def Ungrouped (groups : List Correlation) (host : String) : Prop :=
  ∀ group ∈ groups, host ∉ group.hosts

/-- The path groups share out the affected hosts. They are disjoint, each one has two hosts at or
below its anchor, and below no node but the root are two affected hosts left over. -/
structure SharesOut (topology : TopologyDocument) (affected : Finset String)
    (groups : List Correlation) : Prop where
  disjoint : groups.Pairwise (fun a b => a.hosts.Disjoint b.hosts)
  two : ∀ group ∈ groups, group.hosts.Nodup ∧ 2 ≤ group.hosts.length
  anchored : ∀ group ∈ groups, ∃ anchor, group.anchor = some anchor ∧ anchor ≠ topology.root
    ∧ ∀ host ∈ group.hosts, host ∈ affected
      ∧ Reaches source target topology.links anchor host
  exhausted : ∀ node, node ≠ topology.root → ∀ a ∈ affected, ∀ b ∈ affected,
    Reaches source target topology.links node a →
    Reaches source target topology.links node b →
    Ungrouped groups a → Ungrouped groups b → a = b

/-- A host of the groups was left of some candidate. -/
theorem exists_candidate {candidates : List PathCandidate} {remaining : Finset String}
    {group : Correlation} (h : group ∈ groupPaths candidates remaining) :
    ∃ candidate ∈ candidates, group.anchor = some candidate.anchor ∧ group.hosts.Nodup
      ∧ 2 ≤ group.hosts.length
      ∧ ∀ host ∈ group.hosts, host ∈ candidate.hosts ∧ host ∈ remaining := by
  induction candidates generalizing remaining with
  | nil => simp [groupPaths] at h
  | cons candidate rest ih =>
    rw [groupPaths] at h
    split at h
    · obtain ⟨other, hother, hspec⟩ := ih h
      exact ⟨other, List.mem_cons_of_mem _ hother, hspec⟩
    · rename_i htwo
      rcases List.mem_cons.mp h with rfl | h
      · refine ⟨candidate, List.mem_cons_self, rfl, Finset.sort_nodup _ _, ?_,
          fun host hhost => ?_⟩
        · rw [sharedPath, Finset.length_sort]
          exact not_lt.mp htwo
        · exact Finset.mem_inter.mp ((Finset.mem_sort _).mp hhost)
      · obtain ⟨other, hother, hanchor, hnodup, hlength, hhosts⟩ := ih h
        exact ⟨other, List.mem_cons_of_mem _ hother, hanchor, hnodup, hlength,
          fun host hhost => ⟨(hhosts host hhost).1,
            (Finset.mem_sdiff.mp (hhosts host hhost).2).1⟩⟩

/-- A host is in one group at most: a group takes its hosts out of what remains. -/
theorem disjoint_groupPaths (candidates : List PathCandidate) (remaining : Finset String) :
    (groupPaths candidates remaining).Pairwise (fun a b => a.hosts.Disjoint b.hosts) := by
  induction candidates generalizing remaining with
  | nil => exact List.Pairwise.nil
  | cons candidate rest ih =>
    rw [groupPaths]
    split
    · exact ih remaining
    · refine List.pairwise_cons.mpr ⟨fun later hlater host hhost hhost' => ?_, ih _⟩
      obtain ⟨_, -, -, -, -, hhosts⟩ := exists_candidate hlater
      have hleft := (hhosts host hhost').2
      exact (Finset.mem_sdiff.mp hleft).2 ((Finset.mem_sort _).mp hhost)

/-- No candidate is left with two ungrouped hosts: when its turn came, it took them or there was
at most one. -/
theorem exhausted_groupPaths {candidates : List PathCandidate} {remaining : Finset String}
    {candidate : PathCandidate} (h : candidate ∈ candidates) {a b : String}
    (ha : a ∈ candidate.hosts ∩ remaining) (hb : b ∈ candidate.hosts ∩ remaining)
    (hfreeA : Ungrouped (groupPaths candidates remaining) a)
    (hfreeB : Ungrouped (groupPaths candidates remaining) b) : a = b := by
  induction candidates generalizing remaining with
  | nil => simp at h
  | cons first rest ih =>
    rw [groupPaths] at hfreeA hfreeB
    by_cases hfew : (first.hosts ∩ remaining).card < 2
    · rw [if_pos hfew] at hfreeA hfreeB
      rcases List.mem_cons.mp h with rfl | h
      · exact Finset.card_le_one.mp (Nat.le_of_lt_succ hfew) a ha b hb
      · exact ih h ha hb hfreeA hfreeB
    · rw [if_neg hfew] at hfreeA hfreeB
      have htaken : ∀ host, Ungrouped (sharedPath first.anchor (first.hosts ∩ remaining)
          :: groupPaths rest (remaining \ (first.hosts ∩ remaining))) host →
          host ∉ first.hosts ∩ remaining := fun host hfree hhost =>
        hfree _ List.mem_cons_self ((Finset.mem_sort _).mpr hhost)
      rcases List.mem_cons.mp h with rfl | h
      · exact absurd ha (htaken a hfreeA)
      · have hleft : ∀ host, host ∈ candidate.hosts ∩ remaining →
            host ∉ first.hosts ∩ remaining →
            host ∈ candidate.hosts ∩ (remaining \ (first.hosts ∩ remaining)) := by
          intro host hhost hnot
          obtain ⟨hin, hremaining⟩ := Finset.mem_inter.mp hhost
          exact Finset.mem_inter.mpr ⟨hin, Finset.mem_sdiff.mpr ⟨hremaining, hnot⟩⟩
        exact ih h (hleft a ha (htaken a hfreeA)) (hleft b hb (htaken b hfreeB))
          (fun group hgroup => hfreeA group (List.mem_cons_of_mem _ hgroup))
          (fun group hgroup => hfreeB group (List.mem_cons_of_mem _ hgroup))

variable {topology : TopologyDocument}

/-- The candidate of a node that has a depth. -/
theorem pathCandidate_eq_ok_iff (depths : Dict String ℕ) (affected : Finset String)
    (entry : String × Finset String) (candidate : PathCandidate) :
    pathCandidate depths affected entry = .ok candidate ↔
      (depths.get? entry.1).isSome = true
        ∧ candidate = { depth := depths.getD entry.1 0, anchor := entry.1,
                        hosts := entry.2 ∩ affected } := by
  unfold pathCandidate Dict.item
  rw [Dict.getD_eq]
  cases hdepth : depths.get? entry.1 with
  | none => simp [bind, Except.bind]
  | some depth =>
    show Except.ok _ = Except.ok candidate ↔ _
    simp [eq_comm]

/-- An affected host has a connectivity incident that asks for action, and is monitored. -/
theorem mem_affectedHosts {incidents : List CorrelatedIncident} {monitored : Finset String}
    {host : String} : host ∈ affectedHosts incidents monitored ↔
      ∃ item ∈ incidents, item.host = host ∧ item.category = "connectivity"
        ∧ item.silenced = false ∧ item.actionable = true ∧ host ∈ monitored := by
  unfold affectedHosts actionableConnectivity
  rw [List.mem_toFinset, ← not_iff_not, ← Dict.get?_eq_none_iff, Dict.get?_ofList,
    Dict.lookup_eq_none_iff, List.map_reverse, List.mem_reverse, List.map_map, not_iff_not,
    List.mem_map]
  simp only [List.mem_filter, Bool.and_eq_true, decide_eq_true_eq, Bool.not_eq_true',
    Function.comp_apply]
  constructor
  · rintro ⟨item, ⟨hmem, ⟨⟨hcategory, hsilenced⟩, hactionable⟩, hmonitored⟩, rfl⟩
    exact ⟨item, hmem, rfl, hcategory, hsilenced, hactionable, hmonitored⟩
  · rintro ⟨item, hmem, rfl, hcategory, hsilenced, hactionable, hmonitored⟩
    exact ⟨item, ⟨hmem, ⟨⟨hcategory, hsilenced⟩, hactionable⟩, hmonitored⟩, rfl⟩

section

variable (tree : IsLinkTree source target topology.root topology.links)

include tree

/-- A node that is not in the tree reaches nothing but itself. -/
theorem eq_of_reaches_unreached {node other : String}
    (hnode : ¬ Reaches source target topology.links topology.root node)
    (h : Reaches source target topology.links node other) :
    other = node := by
  refine (reaches_iff.mp h).resolve_right (fun ⟨child, hchild, _⟩ => ?_)
  obtain ⟨link, hlink, hsource, -⟩ := mem_childrenOf.mp hchild
  exact hnode (hsource ▸ tree.reached link hlink)

/-- The dictionary of descendants holds the nodes of the tree, with the monitored hosts at or
below them. -/
theorem mem_descendants {monitored : Finset String} {entry : String × Finset String} :
    entry ∈ (monitoredDescendants topology monitored).entries ↔
      Reaches source target topology.links topology.root entry.1
        ∧ entry.2 = markedBelow source target topology.links monitored
            entry.1 := by
  rw [← get?_visit tree, ← monitoredDescendants, Dict.get?_eq_some_iff]

/-- On a tree the path groups are found, and they share out the affected hosts. -/
theorem correlatePaths_spec (incidents : List CorrelatedIncident) (monitored : Finset String) :
    ∃ groups, correlatePaths topology incidents monitored = .ok groups
      ∧ SharesOut topology (affectedHosts incidents monitored) groups := by
  unfold correlatePaths
  generalize haffected : affectedHosts incidents monitored = affected
  have hmonitored : ∀ host ∈ affected, host ∈ monitored := by
    intro host hhost
    obtain ⟨-, -, -, -, -, -, hmem⟩ := mem_affectedHosts.mp (haffected ▸ hhost)
    exact hmem
  by_cases hfew : affected.card < 2
  · refine ⟨[], by simp only [if_pos hfew]; rfl, List.Pairwise.nil, by simp, by simp, ?_⟩
    intro node _ a ha b hb _ _ _ _
    exact Finset.card_le_one.mp (Nat.le_of_lt_succ hfew) a ha b hb
  · simp only [if_neg hfew]
    -- every node with a candidate is in the tree, so it has a depth
    have hcandidates := (mapM_eq_ok_iff_of
      (pathCandidate_eq_ok_iff (topologyDepths topology) affected)
      ((monitoredDescendants topology monitored).entries.filter (fun entry =>
        entry.1 ≠ topology.root && decide (2 ≤ (entry.2 ∩ affected).card))) _).mpr
      ⟨fun entry hentry => by
        have hreaches := ((mem_descendants tree).mp (List.mem_of_mem_filter hentry)).1
        obtain ⟨depth, hdepth, -⟩ := get?_nodeDepths tree hreaches
        exact Option.isSome_iff_exists.mpr ⟨depth, hdepth⟩, rfl⟩
    refine ⟨_, by rw [hcandidates]; rfl, disjoint_groupPaths _ _, fun group hgroup => ?_,
      fun group hgroup => ?_, fun node hroot a ha b hb hreachA hreachB hfreeA hfreeB => ?_⟩
    · obtain ⟨-, -, -, hnodup, hlength, -⟩ := exists_candidate hgroup
      exact ⟨hnodup, hlength⟩
    · obtain ⟨candidate, hcandidate, hanchor, -, -, hhosts⟩ := exists_candidate hgroup
      obtain ⟨entry, hentry, rfl⟩ := List.mem_map.mp (mem_sortBy.mp hcandidate)
      obtain ⟨hmem, hkept⟩ := List.mem_filter.mp hentry
      obtain ⟨-, hbelow⟩ := (mem_descendants tree).mp hmem
      refine ⟨entry.1, hanchor, ?_, fun host hhost => ⟨(hhosts host hhost).2, ?_⟩⟩
      · simp only [Bool.and_eq_true, decide_eq_true_eq] at hkept
        simpa using hkept.1
      · have hin := (Finset.mem_inter.mp (hhosts host hhost).1).1
        rw [hbelow] at hin
        exact (mem_markedBelow.mp hin).2
    · by_cases hnode : Reaches source target topology.links
          topology.root node
      · have hentry : (node, markedBelow source target topology.links
            monitored node) ∈ (monitoredDescendants topology monitored).entries :=
          (mem_descendants tree).mpr ⟨hnode, rfl⟩
        have hbelow : ∀ host ∈ affected, Reaches source target
            topology.links node host → host ∈ markedBelow source
              target topology.links monitored node ∩ affected :=
          fun host hhost hreach => Finset.mem_inter.mpr
            ⟨mem_markedBelow.mpr ⟨hmonitored host hhost, hreach⟩, hhost⟩
        by_cases hcandidate : 2 ≤ (markedBelow source target
            topology.links monitored node ∩ affected).card
        · refine exhausted_groupPaths (mem_sortBy.mpr (List.mem_map.mpr
            ⟨_, List.mem_filter.mpr ⟨hentry, ?_⟩, rfl⟩)) ?_ ?_ hfreeA hfreeB
          · simp only [Bool.and_eq_true, decide_eq_true_eq]
            exact ⟨by simpa using hroot, hcandidate⟩
          · exact Finset.mem_inter.mpr ⟨hbelow a ha hreachA, ha⟩
          · exact Finset.mem_inter.mpr ⟨hbelow b hb hreachB, hb⟩
        · exact Finset.card_le_one.mp (by omega) a (hbelow a ha hreachA) b (hbelow b hb hreachB)
      · rw [eq_of_reaches_unreached tree hnode hreachA,
          eq_of_reaches_unreached tree hnode hreachB]

end

/-! ### What the simultaneous loss is -/

section

variable (epochSeconds : String → Option ℚ) (incidents : List CorrelatedIncident)
  (monitored : Finset String)

/-- The time at which a host lost connectivity, for an affected host whose incident has one. -/
def lossTimeOf (host : String) : Option ℚ :=
  ((actionableConnectivity incidents monitored).get? host).bind (lossTime epochSeconds)

/-- The hosts lost connectivity, and at most the window apart. -/
def LostTogether (hosts : Finset String) : Prop :=
  ∀ a ∈ hosts, ∀ b ∈ hosts, ∃ s t, lossTimeOf epochSeconds incidents monitored a = some s
    ∧ lossTimeOf epochSeconds incidents monitored b = some t
    ∧ s - t ≤ simultaneousLossWindowSeconds

/-- The simultaneous loss is a largest set of hosts that were lost together, and it reaches the
minimums. When there is none, no such set reaches them. -/
structure LargestLoss (groups : List Correlation) : Prop where
  largest : ∀ group ∈ groups, group.hosts.Nodup
    ∧ LostTogether epochSeconds incidents monitored group.hosts.toFinset
    ∧ ∀ hosts, LostTogether epochSeconds incidents monitored hosts →
        hosts.card ≤ group.hosts.length
  reaches : ∀ group ∈ groups, simultaneousLossMinHosts ≤ group.hosts.length
    ∧ simultaneousLossMinShare * monitored.card ≤ group.hosts.length
  missed : groups = [] → ∀ hosts, LostTogether epochSeconds incidents monitored hosts →
    hosts.card < simultaneousLossMinHosts
      ∨ (hosts.card : ℚ) < simultaneousLossMinShare * monitored.card

variable {epochSeconds incidents monitored}

/-- The timed losses are the hosts with a loss time. -/
theorem mem_timedLosses {loss : ℚ × String} :
    loss ∈ timedLosses epochSeconds (actionableConnectivity incidents monitored) ↔
      lossTimeOf epochSeconds incidents monitored loss.2 = some loss.1 := by
  unfold timedLosses lossTimeOf
  rw [mem_sortBy, List.mem_filterMap, Option.bind_eq_some_iff]
  constructor
  · rintro ⟨entry, hentry, htime⟩
    obtain ⟨epoch, hepoch, rfl⟩ := Option.map_eq_some_iff.mp htime
    exact ⟨entry.2, (Dict.get?_eq_some_iff _ _ _).mpr hentry, hepoch⟩
  · rintro ⟨incident, hincident, htime⟩
    exact ⟨(loss.2, incident), (Dict.get?_eq_some_iff _ _ _).mp hincident,
      Option.map_eq_some_iff.mpr ⟨loss.1, htime, rfl⟩⟩

/-- A host has one timed loss. -/
theorem nodup_timedLosses (affected : Dict String CorrelatedIncident) :
    ((timedLosses epochSeconds affected).map Prod.snd).Nodup := by
  have hperm := (sortBy_perm toLex (affected.entries.filterMap (fun entry =>
    (lossTime epochSeconds entry.2).map (fun epoch => (epoch, entry.1))))).map Prod.snd
  have hhosts : ((affected.entries.filterMap (fun entry =>
      (lossTime epochSeconds entry.2).map (fun epoch => (epoch, entry.1)))).map
        Prod.snd).Sublist affected.keys := by
    unfold Dict.keys
    induction affected.entries with
    | nil => exact List.Sublist.slnil
    | cons entry rest ih =>
      cases htime : lossTime epochSeconds entry.2 with
      | none =>
        rw [List.filterMap_cons_none (by rw [htime]; rfl), List.map_cons]
        exact ih.cons _
      | some epoch =>
        rw [List.filterMap_cons_some (by rw [htime]; rfl), List.map_cons, List.map_cons]
        exact ih.cons_cons _
  exact hperm.nodup_iff.mpr (affected.nodup_keys.sublist hhosts)

/-- The timed losses are sorted by time. -/
theorem pairwise_timedLosses (affected : Dict String CorrelatedIncident) :
    (timedLosses epochSeconds affected).Pairwise (fun a b => a.1 ≤ b.1) :=
  (pairwise_sortBy _ _).imp (fun h => Prod.Lex.monotone_fst _ _ h)

/-- A set of hosts that were lost together has its losses in the list, as many as its hosts. -/
theorem exists_losses {hosts : Finset String}
    (h : LostTogether epochSeconds incidents monitored hosts) :
    ∃ group, group.Sublist (timedLosses epochSeconds (actionableConnectivity incidents monitored))
      ∧ Spans Prod.fst simultaneousLossWindowSeconds group ∧ group.length = hosts.card := by
  refine ⟨(timedLosses epochSeconds (actionableConnectivity incidents monitored)).filter
    (fun loss => decide (loss.2 ∈ hosts)), List.filter_sublist, fun a ha b hb => ?_, ?_⟩
  · obtain ⟨hmemA, hinA⟩ := List.mem_filter.mp ha
    obtain ⟨hmemB, hinB⟩ := List.mem_filter.mp hb
    obtain ⟨s, t, hs, ht, hclose⟩ := h a.2 (by simpa using hinA) b.2 (by simpa using hinB)
    rw [mem_timedLosses.mp hmemA] at hs
    rw [mem_timedLosses.mp hmemB] at ht
    rw [Option.some.inj hs, Option.some.inj ht]
    exact hclose
  · have hnodup : (((timedLosses epochSeconds (actionableConnectivity incidents monitored)).filter
        (fun loss => decide (loss.2 ∈ hosts))).map Prod.snd).Nodup :=
      (nodup_timedLosses _).sublist (List.filter_sublist.map Prod.snd)
    have hset : (((timedLosses epochSeconds (actionableConnectivity incidents monitored)).filter
        (fun loss => decide (loss.2 ∈ hosts))).map Prod.snd).toFinset = hosts := by
      ext host
      rw [List.mem_toFinset, List.mem_map]
      constructor
      · rintro ⟨loss, hloss, rfl⟩
        simpa using (List.mem_filter.mp hloss).2
      · intro hhost
        obtain ⟨s, -, hs, -, -⟩ := h host hhost host hhost
        exact ⟨(s, host), List.mem_filter.mpr ⟨mem_timedLosses.mpr hs, by simpa using hhost⟩, rfl⟩
    have hcard := List.toFinset_card_of_nodup hnodup
    rw [hset, List.length_map] at hcard
    exact hcard.symm

/-- A set of hosts that were lost together is a set of affected hosts. -/
theorem LostTogether.subset {hosts : Finset String}
    (h : LostTogether epochSeconds incidents monitored hosts) :
    hosts ⊆ affectedHosts incidents monitored := by
  intro host hhost
  obtain ⟨s, -, hs, -, -⟩ := h host hhost host hhost
  obtain ⟨incident, hincident, -⟩ := Option.bind_eq_some_iff.mp hs
  exact List.mem_toFinset.mpr ((Dict.mem_keys _ _).mpr (by rw [hincident]; rfl))

/-- The best window holds a largest set of hosts that were lost together. -/
theorem best_spec :
    ((densest Prod.fst simultaneousLossWindowSeconds [] (timedLosses epochSeconds
        (actionableConnectivity incidents monitored))).map Prod.snd).Nodup
      ∧ LostTogether epochSeconds incidents monitored ((densest Prod.fst
          simultaneousLossWindowSeconds [] (timedLosses epochSeconds
            (actionableConnectivity incidents monitored))).map Prod.snd).toFinset
      ∧ ∀ hosts, LostTogether epochSeconds incidents monitored hosts →
          hosts.card ≤ ((densest Prod.fst simultaneousLossWindowSeconds [] (timedLosses
            epochSeconds (actionableConnectivity incidents monitored))).map Prod.snd).length := by
  obtain ⟨hspans, hlongest⟩ := densest_spec
    (@pairwise_timedLosses epochSeconds (actionableConnectivity incidents monitored)) []
    (fun a ha => absurd ha List.not_mem_nil)
  generalize hbest : densest Prod.fst simultaneousLossWindowSeconds [] (timedLosses epochSeconds
    (actionableConnectivity incidents monitored)) = best at hspans hlongest
  have hsub : best.Sublist (timedLosses epochSeconds
      (actionableConnectivity incidents monitored)) := by
    rcases @densest_subset _ _ _ _ Prod.fst simultaneousLossWindowSeconds [] (timedLosses
      epochSeconds (actionableConnectivity incidents monitored)) with heq | hsub
    · rw [← hbest, heq]
      exact List.nil_sublist _
    · exact hbest ▸ hsub
  refine ⟨(nodup_timedLosses _).sublist (hsub.map Prod.snd), fun a ha b hb => ?_,
    fun hosts hhosts => ?_⟩
  · obtain ⟨lossA, hlossA, rfl⟩ := List.mem_map.mp (List.mem_toFinset.mp ha)
    obtain ⟨lossB, hlossB, rfl⟩ := List.mem_map.mp (List.mem_toFinset.mp hb)
    exact ⟨lossA.1, lossB.1, mem_timedLosses.mp (hsub.subset hlossA),
      mem_timedLosses.mp (hsub.subset hlossB), hspans lossA hlossA lossB hlossB⟩
  · obtain ⟨group, hgroup, hwithin, hlength⟩ := exists_losses hhosts
    rw [List.length_map, ← hlength]
    exact hlongest group hgroup hwithin

/-- The simultaneous loss is a largest one. -/
theorem correlateLosses_spec : LargestLoss epochSeconds incidents monitored
    (correlateLosses epochSeconds incidents monitored) := by
  obtain ⟨hnodup, htogether, hlargest⟩ := @best_spec epochSeconds incidents monitored
  unfold correlateLosses
  dsimp only
  generalize (densest Prod.fst simultaneousLossWindowSeconds [] (timedLosses epochSeconds
    (actionableConnectivity incidents monitored))).map Prod.snd = best
    at hnodup htogether hlargest
  split
  · rename_i hfew
    refine ⟨by simp, by simp, fun _ hosts hhosts => Or.inl ?_⟩
    have hsub := Finset.card_le_card hhosts.subset
    rcases hfew with hnone | hfew
    · -- without monitored hosts no host is affected
      have hempty : affectedHosts incidents monitored = ∅ :=
        Finset.eq_empty_of_forall_notMem (fun host hhost => by
          obtain ⟨-, -, -, -, -, -, hmem⟩ := mem_affectedHosts.mp hhost
          rw [hnone] at hmem
          exact Finset.notMem_empty host hmem)
      rw [hempty, Finset.card_empty] at hsub
      exact Nat.lt_of_le_of_lt hsub (by decide)
    · refine Nat.lt_of_le_of_lt (hsub.trans (List.toFinset_card_le _)) ?_
      rw [Dict.keys, List.length_map]
      exact hfew
  · split
    · rename_i hfew
      refine ⟨by simp, by simp, fun _ hosts hhosts => ?_⟩
      have hle := hlargest hosts hhosts
      exact hfew.imp (fun h => Nat.lt_of_le_of_lt hle h)
        (fun h => lt_of_le_of_lt (Nat.cast_le.mpr hle) h)
    · rename_i hmany
      have hperm := sortBy_perm id best
      refine ⟨fun group hgroup => ?_, fun group hgroup => ?_, by simp⟩
      · obtain rfl := List.mem_singleton.mp hgroup
        dsimp only
        rw [List.toFinset_eq_of_perm _ _ hperm, hperm.nodup_iff, length_sortBy]
        exact ⟨hnodup, htogether, hlargest⟩
      · obtain rfl := List.mem_singleton.mp hgroup
        dsimp only
        rw [length_sortBy]
        rw [not_or, not_lt, not_lt] at hmany
        exact hmany

/-! ### What the composite correlator keeps -/

/-- What the composite correlator makes of what its correlators find: the simultaneous loss is
kept, a group is dropped only when the simultaneous loss covers its hosts, and no group comes
from elsewhere. -/
structure KeepsUncovered (epochSeconds : String → Option ℚ)
    (incidents : List CorrelatedIncident) (monitored : Finset String)
    (correlators : List IncidentCorrelator) (result : List Correlation) : Prop where
  losses : ∀ group ∈ correlateLosses epochSeconds incidents monitored, group ∈ result
  dropped : ∀ correlator ∈ correlators, ∃ groups, correlator incidents monitored = .ok groups
    ∧ ∀ group ∈ groups, group ∈ result ∨ ∀ host ∈ group.hosts,
        ∃ earlier ∈ correlateLosses epochSeconds incidents monitored, host ∈ earlier.hosts
  found : ∀ group ∈ result, group ∈ correlateLosses epochSeconds incidents monitored
    ∨ ∃ correlator ∈ correlators, ∃ groups, correlator incidents monitored = .ok groups
        ∧ group ∈ groups

/-- A covered host is one of the simultaneous loss. -/
theorem mem_of_mem_coveredHosts {groups : List Correlation} {host : String}
    (h : host ∈ coveredHosts groups) : ∃ earlier ∈ groups, host ∈ earlier.hosts := by
  cases groups with
  | nil => simp [coveredHosts] at h
  | cons group rest => exact ⟨group, List.mem_cons_self, h⟩

/-- A composite correlator that returns drops only covered groups. -/
theorem correlateAll_spec {correlators : List IncidentCorrelator} {result : List Correlation}
    (h : correlateAll epochSeconds correlators incidents monitored = .ok result) :
    KeepsUncovered epochSeconds incidents monitored correlators result := by
  obtain ⟨others, hothers, hresult⟩ := bind_eq_ok.mp h
  obtain rfl : correlateLosses epochSeconds incidents monitored ++ others.flatten = result :=
    Except.ok.inj hresult
  refine ⟨fun group hgroup => List.mem_append_left _ hgroup, fun correlator hcorrelator => ?_,
    fun group hgroup => ?_⟩
  · obtain ⟨kept, hkept, hrun⟩ := exists_of_mapM hothers hcorrelator
    obtain ⟨groups, hgroups, hfilter⟩ := bind_eq_ok.mp hrun
    refine ⟨groups, hgroups, fun group hgroup => ?_⟩
    by_cases hcovered : group.hosts.all
        (coveredHosts (correlateLosses epochSeconds incidents monitored)).contains = true
    · right
      intro host hhost
      exact mem_of_mem_coveredHosts
        (List.contains_iff_mem.mp (List.all_eq_true.mp hcovered host hhost))
    · left
      have hmem : group ∈ kept := by
        rw [← Except.ok.inj hfilter]
        exact List.mem_filter.mpr ⟨hgroup, by simpa using hcovered⟩
      exact List.mem_append_right _ (List.mem_flatten.mpr ⟨kept, hkept, hmem⟩)
  · rcases List.mem_append.mp hgroup with hloss | hother
    · exact Or.inl hloss
    · right
      obtain ⟨kept, hkept, hmem⟩ := List.mem_flatten.mp hother
      obtain ⟨correlator, hcorrelator, hrun⟩ := exists_of_mem_mapM hothers hkept
      obtain ⟨groups, hgroups, hfilter⟩ := bind_eq_ok.mp hrun
      rw [← Except.ok.inj hfilter] at hmem
      exact ⟨correlator, hcorrelator, groups, hgroups, List.mem_of_mem_filter hmem⟩

end

/-- A topology that the loader accepts is a tree. -/
theorem isLinkTree_of_loaded {V : Type} {rules : ValueRules V} {raw topology : TopologyDocument}
    (h : connectionTopology rules raw = .ok topology) :
    IsLinkTree source target topology.root topology.links := by
  obtain ⟨htree, rfl⟩ := connectionTopology_eq_ok_iff.mp h
  have hends : (raw.links.map trimLabel).map (fun link => (link.source, link.target))
      = raw.links.map fun link => (link.source, link.target) := by
    rw [List.map_map]
    rfl
  have hreaches := @reaches_congr _ _ source target _ _ hends
  refine ⟨fun link hlink => ?_, ?_, fun link hlink => ?_⟩
  · obtain ⟨original, horiginal, rfl⟩ := List.mem_map.mp hlink
    exact (htree.links_ok original horiginal).no_root
  · rw [List.map_map]
    exact htree.one_parent
  · obtain ⟨original, horiginal, rfl⟩ := List.mem_map.mp hlink
    rw [hreaches]
    exact htree.reached original horiginal

/-- For every topology that is a tree, and all incidents: the path groups share out the affected
hosts, the simultaneous loss is a largest set of hosts that were lost together, the configured
correlator returns, and a composite correlator drops a group only when the simultaneous loss
covers its hosts. -/
theorem correlation_partitions (epochSeconds : String → Option ℚ) {topology : TopologyDocument}
    (tree : IsLinkTree source target topology.root topology.links)
    (incidents : List CorrelatedIncident) (monitored : Finset String)
    (correlators : List IncidentCorrelator) :
    (∃ paths, correlatePaths topology incidents monitored = .ok paths
        ∧ SharesOut topology (affectedHosts incidents monitored) paths)
      ∧ LargestLoss epochSeconds incidents monitored
          (correlateLosses epochSeconds incidents monitored)
      ∧ Returns (createIncidentCorrelator epochSeconds (some topology) incidents monitored)
      ∧ ∀ result, correlateAll epochSeconds correlators incidents monitored = .ok result →
          KeepsUncovered epochSeconds incidents monitored correlators result := by
  obtain ⟨paths, hpaths, hshares⟩ := correlatePaths_spec tree incidents monitored
  refine ⟨⟨paths, hpaths, hshares⟩, correlateLosses_spec, ?_, fun result h => correlateAll_spec h⟩
  refine (returns_bind_of_forall (fun others => returns_pure _)).mpr ?_
  refine (returns_mapM_iff _ _).mpr (fun correlator hcorrelator => ?_)
  obtain rfl : correlator = correlatePaths topology := List.mem_singleton.mp hcorrelator
  exact (returns_bind_of_forall (fun groups => returns_pure _)).mpr ⟨paths, hpaths⟩

/-- A gateway with three hosts behind it. -/
private def gatewayTopology : TopologyDocument where
  root := "monitor"
  links := [⟨"monitor", "gateway", "ssh", none⟩, ⟨"gateway", "gpu-01", "ssh", none⟩,
    ⟨"gateway", "gpu-02", "ssh", none⟩, ⟨"gateway", "gpu-03", "ssh", none⟩]

/-- The hosts behind the gateway are lost within a minute. -/
private def gatewayLosses : List CorrelatedIncident :=
  [{ host := "gpu-01", category := "connectivity", firstObservedAt := some "first" },
    { host := "gpu-02", category := "connectivity", firstObservedAt := some "first" },
    { host := "gpu-03", category := "connectivity", firstObservedAt := some "second" }]

/-- The clock of the losses. -/
private def lossClock (text : String) : Option ℚ := if text = "first" then some 0 else some 60

private theorem gatewayTopology_tree : IsLinkTree source target
    gatewayTopology.root gatewayTopology.links where
  no_root := by decide
  one_parent := by decide
  reached := by
    have hgateway : Linked source target gatewayTopology.links
        "monitor" "gateway" := ⟨⟨"monitor", "gateway", "ssh", none⟩, by decide, rfl, rfl⟩
    intro link hlink
    have hsource : link.source = "monitor" ∨ link.source = "gateway" := by
      revert link
      decide
    rcases hsource with hsource | hsource
    · rw [hsource]
      exact .refl
    · rw [hsource]
      exact .single hgateway

private theorem gatewayLosses_together :
    LostTogether lossClock gatewayLosses {"gpu-01", "gpu-02", "gpu-03"}
      {"gpu-01", "gpu-02", "gpu-03"} := by
  have htimes : ∀ host ∈ ({"gpu-01", "gpu-02", "gpu-03"} : Finset String),
      (lossTimeOf lossClock gatewayLosses {"gpu-01", "gpu-02", "gpu-03"} host).any
        (fun time => decide (0 ≤ time ∧ time ≤ 60)) = true := by
    decide +kernel
  intro a ha b hb
  obtain ⟨s, hs, hlate⟩ := (Option.any_eq_true _ _).mp (htimes a ha)
  obtain ⟨t, ht, hearly⟩ := (Option.any_eq_true _ _).mp (htimes b hb)
  refine ⟨s, t, hs, ht, ?_⟩
  have hlast := (of_decide_eq_true hlate).2
  have hfirst := (of_decide_eq_true hearly).1
  unfold simultaneousLossWindowSeconds
  linarith

/-- The three hosts are a simultaneous loss, which is found. -/
theorem correlation_partitions_gateway :
    correlateLosses lossClock gatewayLosses {"gpu-01", "gpu-02", "gpu-03"} ≠ []
      ∧ (∃ paths, correlatePaths gatewayTopology gatewayLosses {"gpu-01", "gpu-02", "gpu-03"}
          = .ok paths
        ∧ SharesOut gatewayTopology
            (affectedHosts gatewayLosses {"gpu-01", "gpu-02", "gpu-03"}) paths)
      ∧ ∀ result, correlateAll lossClock [correlatePaths gatewayTopology] gatewayLosses
            {"gpu-01", "gpu-02", "gpu-03"} = .ok result →
          KeepsUncovered lossClock gatewayLosses {"gpu-01", "gpu-02", "gpu-03"}
            [correlatePaths gatewayTopology] result := by
  obtain ⟨hpaths, hlosses, -, hkeeps⟩ := correlation_partitions lossClock gatewayTopology_tree
    gatewayLosses {"gpu-01", "gpu-02", "gpu-03"} [correlatePaths gatewayTopology]
  refine ⟨fun hnone => ?_, hpaths, hkeeps⟩
  exact absurd (hlosses.missed hnone _ gatewayLosses_together) (by decide +kernel)

end Mocop
