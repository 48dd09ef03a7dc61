import Mocop.Inventory.Migration
import Mocop.Inventory.Removal

/-!
# `Mocop.Inventory.Relocation`: moving the local host through a document

What the edits of a migration leave in each section (`Relocated`), in the terms of the section:
the hosts in their order with one of them under another name (`movedHosts`), the topology under a
map of names (`TopologyDocument.rename`), and the entries of the hosts that are not local
(`isOther`). A rename keeps a tree as long as it does not fold two nodes into one
(`TreeDocument.rename`, `movedName_inj`).
-/

set_option autoImplicit false

namespace Mocop

/-! ### The sections -/

section Sections

variable {α : Type}

/-- The section that is left. -/
theorem popAlias_fst (field : String) (section_ : Dict String α) (name : String) :
    (popAlias field section_ name).1 = section_.erase name := by
  unfold popAlias
  split
  · rfl
  · next hnone => exact (Dict.erase_of_not_contains (Bool.not_eq_true _ ▸ hnone)).symm

/-- The group of the local host follows it, and the other groups stay. -/
theorem mem_moveGroup {groups : Dict String String} {old : String} {new : Option String}
    {entry : String × String} (h : entry ∈ (moveGroup groups old new).1.entries) :
    (entry ∈ groups.entries ∧ entry.1 ≠ old)
      ∨ (new = some entry.1 ∧ (old, entry.2) ∈ groups.entries) := by
  obtain ⟨name, group⟩ := entry
  rw [← Dict.get?_eq_some_iff] at h
  simp only [← Dict.get?_eq_some_iff]
  have hkept : ∀ {name group}, (groups.erase old).get? name = some group →
      groups.get? name = some group ∧ name ≠ old := by
    intro name group hget
    rw [Dict.get?_erase] at hget
    by_cases hname : name = old
    · rw [if_pos hname] at hget
      cases hget
    · rw [if_neg hname] at hget
      exact ⟨hget, hname⟩
  unfold moveGroup at h
  cases hold : groups.get? old with
  | none =>
    rw [hold] at h
    refine .inl ⟨h, ?_⟩
    rintro rfl
    rw [hold] at h
    cases h
  | some value =>
    cases new with
    | none =>
      rw [hold] at h
      exact .inl (hkept h)
    | some fresh =>
      rw [hold] at h
      dsimp only at h
      split at h
      · exact .inl (hkept h)
      · rw [Dict.get?_set] at h
        split at h
        · next heq =>
          subst heq
          exact .inr ⟨rfl, h⟩
        · exact .inl (hkept h)

/-- The groups of the other hosts stay in their order. -/
theorem filter_moveGroup (groups : Dict String String) {old : String} {new : Option String}
    {p : String → Bool} (hold : p old = false) (hnew : ∀ name, new = some name → p name = false) :
    (moveGroup groups old new).1.entries.filter (fun e => p e.1)
      = groups.entries.filter fun e => p e.1 := by
  have herase := groups.filter_entries_erase hold
  unfold moveGroup
  cases groups.get? old with
  | none => rfl
  | some value =>
    cases new with
    | none => exact herase
    | some fresh =>
      dsimp only
      split
      · exact herase
      · rw [Dict.filter_entries_set _ _ (hnew fresh rfl)]
        exact herase

end Sections

/-! ### The hosts -/

/-- The explicit hosts of the new installation. -/
def movedHosts (old new : Option String) (hosts : List String) : List String :=
  match old, new with
  | some old, new => replaceHost hosts old new
  | none, some name => hosts ++ [name]
  | none, none => hosts

/-- The hosts of a configuration, its local host and the new one. -/
structure Renaming (old new : Option String) (hosts : List String) : Prop where
  nodup : hosts.Nodup
  old_listed : ∀ name, old = some name → name ∈ hosts
  fresh : ∀ name, new = some name → new ≠ old → name ∉ hosts

variable {name : String}

section Hosts

variable {old new : Option String} {hosts : List String}

/-- A listed host is the new local one only under its old name. -/
theorem Renaming.ne_new (h : Renaming (some name) new hosts) {host : String} (hhost : host ∈ hosts)
    (hne : host ≠ name) : new ≠ some host := by
  intro heq
  refine h.fresh host heq ?_ hhost
  rw [heq]
  exact fun hold => hne (Option.some.inj hold)

/-- The renamed hosts, one by one. -/
theorem Renaming.replaceHost_eq (h : Renaming (some name) new hosts) :
    replaceHost hosts name new
      = hosts.filterMap fun host => if host = name then new else some host := by
  refine eraseDups_of_nodup (List.pairwise_filterMap.mpr ?_)
  refine h.nodup.imp_of_mem fun {a b} ha hb hne x hx y hy heq => ?_
  subst heq
  by_cases haname : a = name
  · by_cases hbname : b = name
    · exact hne (haname.trans hbname.symm)
    · rw [if_pos haname] at hx
      rw [if_neg hbname] at hy
      exact h.ne_new hb hbname (hx.trans hy.symm)
  · rw [if_neg haname] at hx
    by_cases hbname : b = name
    · rw [if_pos hbname] at hy
      exact h.ne_new ha haname (hy.trans hx.symm)
    · rw [if_neg hbname] at hy
      exact hne (Option.some.inj (hx.trans hy.symm))

/-- The hosts of the new installation: the other ones and the new local one. -/
theorem Renaming.mem_movedHosts (h : Renaming old new hosts) {host : String} :
    host ∈ movedHosts old new hosts ↔ (host ∈ hosts ∧ some host ≠ old) ∨ new = some host := by
  cases old with
  | some name =>
    show host ∈ replaceHost hosts name new ↔ _
    rw [h.replaceHost_eq, List.mem_filterMap]
    constructor
    · rintro ⟨listed, hlisted, heq⟩
      by_cases hname : listed = name
      · rw [if_pos hname] at heq
        exact .inr heq
      · rw [if_neg hname] at heq
        obtain rfl := Option.some.inj heq
        exact .inl ⟨hlisted, fun hsome => hname (Option.some.inj hsome)⟩
    · rintro (⟨hhost, hne⟩ | hnew)
      · exact ⟨host, hhost, if_neg fun heq => hne (congrArg some heq)⟩
      · exact ⟨name, h.old_listed name rfl, by rw [if_pos rfl, hnew]⟩
  | none =>
    cases new with
    | none => simp [movedHosts]
    | some name => simp [movedHosts, eq_comm]

/-- The hosts of the new installation are distinct. -/
theorem Renaming.nodup_movedHosts (h : Renaming old new hosts) :
    (movedHosts old new hosts).Nodup := by
  cases old with
  | some name => exact nodup_eraseDups _
  | none =>
    cases new with
    | none => exact h.nodup
    | some name =>
      refine h.nodup.append (List.nodup_singleton name) ?_
      rw [List.disjoint_singleton]
      exact h.fresh name rfl (by simp)

/-- The other hosts stay in their order. -/
theorem Renaming.filter_movedHosts (h : Renaming old new hosts) :
    (movedHosts old new hosts).filter (fun host => some host ≠ new)
      = hosts.filter fun host => some host ≠ old := by
  cases old with
  | some name =>
    show (replaceHost hosts name new).filter _ = _
    rw [h.replaceHost_eq, List.filter_filterMap, ← List.filterMap_eq_filter]
    refine List.filterMap_congr fun host hhost => ?_
    by_cases hname : host = name
    · cases new <;> simp [hname, Option.guard]
    · have hne := h.ne_new hhost hname
      simp [hname, Option.guard, Ne.symm hne]
  | none =>
    cases new with
    | none => rfl
    | some name =>
      have hall : hosts.filter (fun host => some host ≠ some name) = hosts :=
        List.filter_eq_self.mpr fun host hhost => by
          have hne : host ≠ name := fun heq => h.fresh name rfl (by simp) (heq ▸ hhost)
          simpa using hne
      show (hosts ++ [name]).filter _ = _
      rw [List.filter_append, hall]
      simp

/-- An added local host takes one more place. -/
theorem Renaming.length_movedHosts (h : Renaming old new hosts) :
    (movedHosts old new hosts).length
      ≤ hosts.length + if old = none ∧ new ≠ none then 1 else 0 := by
  cases old with
  | some name =>
    show (replaceHost hosts name new).length ≤ _
    rw [h.replaceHost_eq]
    exact (List.length_filterMap_le _ _).trans (Nat.le_add_right _ _)
  | none => cases new <;> simp [movedHosts]

end Hosts

/-! ### The topology -/

/-- The topology with every node under another name. -/
def TopologyDocument.rename (f : String → String) (topology : TopologyDocument) :
    TopologyDocument where
  root := f topology.root
  links := topology.links.map fun link =>
    { link with source := f link.source, target := f link.target }

/-- A node of the topology. -/
def TopologyDocument.IsNode (topology : TopologyDocument) (name : String) : Prop :=
  topology.root = name ∨ ∃ link ∈ topology.links, link.source = name ∨ link.target = name

/-- The name of a host in the new installation. -/
def movedName (old new : Option String) (name : String) : String :=
  if some name = old then new.getD name else name

section Topology

variable {rules : ValueRules Json} {topology : TopologyDocument} {old new : Option String}

/-- The nodes that the migration looks for. -/
theorem topologyContains_iff :
    topologyContains (some topology) name = true ↔ topology.IsNode name := by
  simp [topologyContains, TopologyDocument.IsNode]

/-- The nodes of a tree are safe. -/
theorem TreeDocument.node_safe (h : TreeDocument rules topology) (hname : topology.IsNode name) :
    isSafeAlias name = true := by
  rcases hname with rfl | ⟨link, hlink, rfl | rfl⟩
  · exact h.root_safe
  · exact (h.links_ok link hlink).source_safe
  · exact (h.links_ok link hlink).target_safe

/-- A tree stays one when its nodes get distinct safe names. -/
theorem TreeDocument.rename (h : TreeDocument rules topology) {f : String → String}
    (hsafe : ∀ name, topology.IsNode name → isSafeAlias (f name) = true)
    (hinj : ∀ a b, topology.IsNode a → topology.IsNode b → f a = f b → a = b) :
    TreeDocument rules (topology.rename f) where
  root_safe := hsafe _ (.inl rfl)
  bounded := by
    show (topology.links.map _).length ≤ _
    rw [List.length_map]
    exact h.bounded
  links_ok := fun renamed hrenamed => by
    obtain ⟨link, hlink, rfl⟩ := List.mem_map.mp hrenamed
    have hok := h.links_ok link hlink
    have hsource : topology.IsNode link.source := .inr ⟨link, hlink, .inl rfl⟩
    have htarget : topology.IsNode link.target := .inr ⟨link, hlink, .inr rfl⟩
    exact {
      source_safe := hsafe _ hsource
      target_safe := hsafe _ htarget
      no_self := fun heq => hok.no_self (hinj _ _ hsource htarget heq)
      no_root := fun heq => hok.no_root (hinj _ _ htarget (.inl rfl) heq)
      transport := hok.transport
      label := hok.label }
  one_parent := by
    have hmap : ((topology.links.map (·.target)).map f).Nodup :=
      h.one_parent.map_on fun a ha b hb heq => by
        obtain ⟨link, hlink, rfl⟩ := List.mem_map.mp ha
        obtain ⟨other, hother, rfl⟩ := List.mem_map.mp hb
        exact hinj _ _ (.inr ⟨link, hlink, .inr rfl⟩) (.inr ⟨other, hother, .inr rfl⟩) heq
    unfold TopologyDocument.rename
    rw [List.map_map] at hmap ⊢
    exact hmap
  reached := fun renamed hrenamed => by
    obtain ⟨link, hlink, rfl⟩ := List.mem_map.mp hrenamed
    refine (h.reached link hlink).lift f ?_
    rintro a b ⟨step, hstep, rfl, rfl⟩
    exact ⟨_, List.mem_map_of_mem hstep, rfl, rfl⟩

/-- A renamed topology is loaded under the new names. -/
theorem TopologyDocument.loaded_rename (f : String → String) :
    (topology.rename f).loaded = topology.loaded.rename f := by
  unfold TopologyDocument.loaded TopologyDocument.rename
  simp only [List.map_map]
  rfl

/-- The new names of the nodes are distinct unless a rename folds two of them. -/
theorem movedName_inj
    (hnode : ∀ name, new = some name → new ≠ old → old ≠ none → ¬ topology.IsNode name)
    {a b : String} (ha : topology.IsNode a) (hb : topology.IsNode b)
    (heq : movedName old new a = movedName old new b) : a = b := by
  have hfold : ∀ {a b : String}, topology.IsNode b → some a = old → some b ≠ old →
      new.getD a = b → a = b := by
    intro a b hb haold hbold hab
    cases new with
    | none => exact hab
    | some name =>
      obtain rfl : name = b := hab
      exact absurd hb (hnode name rfl hbold (by rw [← haold]; simp))
  unfold movedName at heq
  by_cases haold : some a = old
  · rw [if_pos haold] at heq
    by_cases hbold : some b = old
    · exact Option.some.inj (haold.trans hbold.symm)
    · rw [if_neg hbold] at heq
      exact hfold hb haold hbold heq
  · rw [if_neg haold] at heq
    by_cases hbold : some b = old
    · rw [if_pos hbold] at heq
      exact (hfold ha hbold haold heq.symm).symm
    · rw [if_neg hbold] at heq
      exact heq

/-- The topology under the new names, or none and reported. -/
theorem moveTopology_cases (raw : Option TopologyDocument) (name : String)
    (new : Option String) :
    moveTopology raw name new = (raw.map (·.rename (movedName (some name) new)), [])
      ∨ moveTopology raw name new = (none, ["topology"]) := by
  unfold moveTopology
  cases new with
  | some fresh =>
    left
    have hname : movedName (some name) (some fresh)
        = fun host => if host = name then fresh else host := by
      funext host
      simp [movedName]
    rw [hname]
    rfl
  | none =>
    have hname : movedName (some name) none = id := by
      funext host
      simp [movedName]
    have hself : ∀ topology : TopologyDocument, topology.rename id = topology := by
      intro topology
      simp [TopologyDocument.rename]
    dsimp only
    split
    · exact .inr rfl
    · left
      rw [hname]
      simp [hself]

end Topology

/-! ### The edited document -/

/-- Whether a host is neither the old local host nor the new one. -/
def isOther (old new : Option String) (name : String) : Bool :=
  some name ≠ old && some name ≠ new

/-- Removing what belongs to the old local host leaves what belongs to the other hosts. -/
theorem filter_other {α : Type} {old new : Option String} (l : List α) (host : α → String) :
    ((l.filter fun a => some (host a) ≠ old).filter fun a => isOther old new (host a))
      = l.filter fun a => isOther old new (host a) := by
  rw [List.filter_filter]
  refine List.filter_congr fun a _ => ?_
  unfold isOther
  by_cases hold : some (host a) = old <;> simp [hold]

/-- What moving the local host does to the sections that name hosts. -/
structure Relocated (old new : Option String) (hosts : List String)
    (raw moved : ConfigDocument Json) (dropped : List String) : Prop where
  autoDiscover : moved.autoDiscover = raw.autoDiscover
  hosts : moved.hosts = movedHosts old new hosts
  excludeHosts : moved.excludeHosts = raw.excludeHosts
  localHost : moved.localHost = new
  topology : moved.topology = raw.topology.map (·.rename (movedName old new))
    ∨ moved.topology = none ∧ "topology" ∈ dropped
  expected : moved.expectedGpuCounts.entries
    = raw.expectedGpuCounts.entries.filter fun e => some e.1 ≠ old
  overrides : moved.hostOverrides.entries
    = raw.hostOverrides.entries.filter fun e => some e.1 ≠ old
  windows : moved.maintenanceWindows.entries
    = raw.maintenanceWindows.entries.filter fun e => some e.1 ≠ old
  hostIncidents : moved.incidentOverrides.hosts.entries
    = raw.incidentOverrides.hosts.entries.filter fun e => some e.1 ≠ old
  groupIncidents : moved.incidentOverrides.groups = raw.incidentOverrides.groups
  groups : ∀ entry ∈ moved.hostGroups.entries,
    entry ∈ raw.hostGroups.entries ∧ some entry.1 ≠ old
      ∨ new = some entry.1 ∧ ∃ name, old = some name ∧ (name, entry.2) ∈ raw.hostGroups.entries
  otherGroups : moved.hostGroups.entries.filter (fun e => isOther old new e.1)
    = raw.hostGroups.entries.filter fun e => isOther old new e.1
  actions : moved.incidentActions
    = raw.incidentActions.filter fun action => some action.host ≠ old
  rest : moved.rest = raw.rest

/-- Nothing is removed for a local host that there is not. -/
theorem filter_ne_none {α : Type} (l : List α) (host : α → String) :
    (l.filter fun a => some (host a) ≠ none) = l :=
  List.filter_eq_self.mpr fun a _ => by simp

/-- Moving the local host of a document. -/
theorem relocate_relocated (config : MonitorConfig Json) (new : Option String)
    (raw : ConfigDocument Json) :
    Relocated config.localHost new config.hosts raw (relocate config new raw).1
      (relocate config new raw).2 := by
  unfold relocate
  cases config.localHost with
  | none =>
    have hrename : raw.topology = raw.topology.map (·.rename (movedName none new)) := by
      have hname : movedName none new = id := by
        funext host
        simp [movedName]
      rw [hname]
      cases raw.topology <;> simp [TopologyDocument.rename]
    have hsections : ∀ {α : Type} (section_ : Dict String α),
        section_.entries = section_.entries.filter fun e => some e.1 ≠ none :=
      fun section_ => (filter_ne_none _ Prod.fst).symm
    cases new <;> exact {
      autoDiscover := rfl, hosts := rfl, excludeHosts := rfl, localHost := rfl
      topology := .inl hrename
      expected := hsections _, overrides := hsections _, windows := hsections _
      hostIncidents := hsections _, groupIncidents := rfl
      groups := fun entry h => .inl ⟨h, by simp⟩, otherGroups := rfl
      actions := (filter_ne_none _ IncidentActionDocument.host).symm, rest := rfl }
  | some old =>
    have hsections : ∀ {α : Type} (field : String) (section_ : Dict String α),
        (popAlias field section_ old).1.entries
          = section_.entries.filter fun e => some e.1 ≠ some old := by
      intro α field section_
      rw [popAlias_fst]
      exact List.filter_congr fun e _ => by simp
    exact {
      autoDiscover := rfl, hosts := rfl, excludeHosts := rfl, localHost := rfl
      topology := by
        rcases moveTopology_cases raw.topology old new with hmoved | hmoved
        · exact .inl (congrArg Prod.fst hmoved)
        · refine .inr ⟨congrArg Prod.fst hmoved, ?_⟩
          have hlisted : "topology" ∈ (moveTopology raw.topology old new).2 := by
            rw [hmoved]
            exact List.mem_singleton_self _
          exact List.mem_append_left _ (List.mem_append_right _ hlisted)
      expected := hsections _ _, overrides := hsections _ _, windows := hsections _ _
      hostIncidents := hsections _ _, groupIncidents := rfl
      groups := fun entry h => by
        rcases mem_moveGroup h with ⟨hmem, hne⟩ | ⟨hnew, hmem⟩
        · exact .inl ⟨hmem, fun heq => hne (Option.some.inj heq)⟩
        · exact .inr ⟨hnew, old, rfl, hmem⟩
      otherGroups := filter_moveGroup raw.hostGroups (by simp [isOther]) fun name hname => by
        simp [isOther, hname]
      actions := List.filter_congr fun action _ => by simp
      rest := rfl }

end Mocop
