import Mocop.Topology.Routes

/-!
# `Mocop.Topology.Groups`: the groups that the projection infers

A host behind known hops is in the group of its last one, and the other hosts of a numbered fleet
are in a group of their own. `groupText_of_project` says that an inferred group is a text of at
most 48 characters of aliases, whatever the routes are.
-/

set_option autoImplicit false

namespace Mocop

/-- A non-empty text of characters of aliases. -/
structure AliasText (text : String) : Prop where
  ne_empty : text ≠ ""
  chars : ∀ c ∈ text.toList, isAliasChar c = true

/-- The text of an inferred group. -/
structure GroupText (text : String) : Prop extends AliasText text where
  bounded : text.length ≤ hostGroupMaxLength

theorem AliasText.of_isSafeAlias {name : String} (h : isSafeAlias name = true) :
    AliasText name where
  ne_empty := fun heq => by
    rw [heq] at h
    cases h
  chars := isAliasChar_of_isSafeAlias h

theorem AliasText.groupName {text : String} (h : AliasText text) : GroupText (groupName text) where
  ne_empty := fun heq => by
    have hlist := congrArg String.toList heq
    rw [Mocop.groupName, String.toList_ofList] at hlist
    rcases List.take_eq_nil_iff.mp hlist with hzero | hnil
    · cases hzero
    · exact h.ne_empty (String.toList_eq_nil_iff.mp hnil)
  chars := fun c hc => by
    rw [Mocop.groupName, String.toList_ofList] at hc
    exact h.chars c (List.take_subset _ _ hc)
  bounded := by
    rw [Mocop.groupName, ← String.length_toList, String.toList_ofList]
    exact List.length_take_le _ _

/-- The prefix of a numbered fleet is the beginning of the alias. -/
theorem AliasText.candidate {name candidate : String} (h : AliasText name)
    (hcandidate : aliasGroupCandidate name = some candidate) : AliasText candidate := by
  have hcut : ∃ k, 0 < k ∧ candidate = String.ofList (name.toList.take k) := by
    unfold aliasGroupCandidate at hcandidate
    dsimp only at hcandidate
    split at hcandidate
    · next hseparator =>
      split at hcandidate
      · exact ⟨_, hseparator, (Option.some.inj hcandidate).symm⟩
      · cases hcandidate
    · obtain ⟨k, hk, rfl⟩ := Option.map_eq_some_iff.mp hcandidate
      have hfound := List.find?_some hk
      rw [Bool.and_eq_true, decide_eq_true_eq] at hfound
      exact ⟨k, hfound.1, rfl⟩
  obtain ⟨k, hk, rfl⟩ := hcut
  refine ⟨fun heq => ?_, fun c hc => ?_⟩
  · have hlist := congrArg String.toList heq
    rw [String.toList_ofList] at hlist
    rcases List.take_eq_nil_iff.mp hlist with hzero | hnil
    · omega
    · exact h.ne_empty (String.toList_eq_nil_iff.mp hnil)
  · rw [String.toList_ofList] at hc
    exact h.chars c (List.take_subset _ _ hc)

section Layouts

variable {root : String} {routes : Dict String SshRoute}

variable (root) in
/-- The groups and the candidates of a layout are texts of aliases. -/
structure NamesGroups (layout : Layout) : Prop where
  groups : ∀ host group, layout.hostGroups.get? host = some group → GroupText group
  candidates : ∀ host candidate, layout.directCandidates.get? host = some candidate →
    AliasText candidate
  cache : layout.expansion.Ok root

/-- Adding the links of a path leaves the groups as they are. -/
theorem groups_addPath (ends : List (String × String)) (layout : Layout) :
    (ends.foldl (addPathLink routes) layout).hostGroups = layout.hostGroups
      ∧ (ends.foldl (addPathLink routes) layout).directCandidates = layout.directCandidates := by
  induction ends generalizing layout with
  | nil => exact ⟨rfl, rfl⟩
  | cons first rest ih =>
    have hstep : (addPathLink routes layout first).hostGroups = layout.hostGroups
        ∧ (addPathLink routes layout first).directCandidates = layout.directCandidates := by
      unfold addPathLink
      dsimp only
      split
      · exact ⟨rfl, rfl⟩
      · split <;> exact ⟨rfl, rfl⟩
    rw [List.foldl_cons, (ih _).1, (ih _).2]
    exact hstep

theorem NamesGroups.addPath {layout : Layout} (h : NamesGroups root layout)
    (ends : List (String × String)) :
    NamesGroups root (ends.foldl (addPathLink routes) layout) := by
  obtain ⟨hgroups, hcandidates⟩ := @groups_addPath routes ends layout
  refine ⟨?_, ?_, fun name hops hhops => ?_⟩
  · rw [hgroups]
    exact h.groups
  · rw [hcandidates]
    exact h.candidates
  · rw [cache_addPath] at hhops
    exact h.cache name hops hhops

/-- Laying out the path to one host. -/
theorem NamesGroups.addHostPath {layout : Layout} (h : NamesGroups root layout)
    (hroutes : SafeRoutes routes) (knownAliases : List String) {host : String}
    (hhost : isSafeAlias host = true) :
    NamesGroups root (addHostPath root routes knownAliases layout host) := by
  unfold Mocop.addHostPath
  split
  · exact h
  · obtain ⟨hhops, hexpanded⟩ := expandedHops_ok hroutes host h.cache
    rcases hresult : expandedHops root routes host layout.expansion with ⟨hops, expansion⟩
    rw [hresult] at hhops hexpanded
    dsimp only at hhops hexpanded ⊢
    refine NamesGroups.addPath ?_ _
    split
    · next last hlast =>
      have hknown := List.mem_of_getLast? hlast
      have hname := AliasText.of_isSafeAlias (hhops.2 last (List.mem_filter.mp hknown).1)
      refine ⟨fun other group hgroup => ?_, h.candidates, hexpanded⟩
      rw [Dict.get?_set] at hgroup
      split at hgroup
      · obtain rfl := Option.some.inj hgroup
        exact hname.groupName
      · exact h.groups other group hgroup
    · split
      · next candidate hcandidate =>
        refine ⟨h.groups, fun other found hfound => ?_, hexpanded⟩
        rw [Dict.get?_set] at hfound
        split at hfound
        · obtain rfl := Option.some.inj hfound
          exact (AliasText.of_isSafeAlias hhost).candidate hcandidate
        · exact h.candidates other found hfound
      · exact ⟨h.groups, h.candidates, hexpanded⟩

/-- Laying out the paths of all hosts. -/
theorem namesGroups_layOut {hosts : List String} {resolution : SshRouteResolution}
    (hroutes : SafeRoutes resolution.routeMap)
    (hhosts : ∀ host ∈ hosts, isSafeAlias host = true) :
    NamesGroups root (layOut root hosts resolution) := by
  have hfold : ∀ (listed : List String) (layout : Layout),
      (∀ host ∈ listed, isSafeAlias host = true) → NamesGroups root layout →
      NamesGroups root (listed.foldl (addHostPath root resolution.routeMap
        resolution.knownAliases) layout) := by
    intro listed
    induction listed with
    | nil => exact fun _ _ h => h
    | cons host rest ih =>
      intro layout hsafe h
      exact ih _ (fun other hother => hsafe other (List.mem_cons_of_mem _ hother))
        (h.addHostPath hroutes resolution.knownAliases (hsafe host List.mem_cons_self))
  refine hfold _ _ (fun host hhost => hhosts host (List.mem_mergeSort.mp hhost)) ?_
  exact
    { groups := fun host group hgroup => by cases hgroup
      candidates := fun host candidate hcandidate => by cases hcandidate
      cache := fun name hops hhops => by cases hhops }

/-- An inferred group is a bounded text of aliases, and no host has two. -/
theorem groupText_of_project {hosts : List String} {resolution : SshRouteResolution}
    (hroutes : SafeRoutes resolution.routeMap)
    (hhosts : ∀ host ∈ hosts, isSafeAlias host = true) :
    (∀ entry ∈ (project root hosts resolution).hostGroups, GroupText entry.2)
      ∧ ((project root hosts resolution).hostGroups.map Prod.fst).Nodup := by
  have hnames := @namesGroups_layOut root hosts resolution hroutes hhosts
  have hfleets : ∀ (candidates : List (String × String)) (groups : Dict String String)
      (isFleet : String × String → Prop) [DecidablePred isFleet],
      (∀ entry ∈ candidates, AliasText entry.2) →
      (∀ host group, groups.get? host = some group → GroupText group) →
      ∀ host group, (candidates.foldl (fun groups entry =>
        if isFleet entry then groups.set entry.1 (groupName entry.2) else groups) groups).get? host
          = some group → GroupText group := by
    intro candidates
    induction candidates with
    | nil => exact fun _ _ _ _ hgroups => hgroups
    | cons entry rest ih =>
      intro groups isFleet _ hcandidates hgroups
      refine ih _ isFleet (fun other hother =>
        hcandidates other (List.mem_cons_of_mem _ hother)) fun host group hgroup => ?_
      dsimp only at hgroup
      split at hgroup
      · rw [Dict.get?_set] at hgroup
        split at hgroup
        · obtain rfl := Option.some.inj hgroup
          exact (hcandidates entry List.mem_cons_self).groupName
        · exact hgroups host group hgroup
      · exact hgroups host group hgroup
  constructor
  · intro entry hentry
    have hmem := List.mem_mergeSort.mp hentry
    refine hfleets _ _ _ (fun candidate hcandidate => ?_) hnames.groups entry.1 entry.2
      ((Dict.get?_eq_some_iff _ _ _).mpr hmem)
    exact hnames.candidates candidate.1 candidate.2
      ((Dict.get?_eq_some_iff _ _ _).mpr hcandidate)
  · exact ((List.mergeSort_perm _ _).map Prod.fst).nodup_iff.mpr (Dict.nodup_keys _)

end Layouts

end Mocop
