import Mocop.Lib.Grouping
import Mocop.Reports.Brief
import Mocop.Service.IncidentFeed

/-!
# `Mocop.Reports.Attention`: the attention list of the brief

`attentionEntries` collapses the actionable conditions that share a group key in one pass. Its
entries are the folds of the groups of `Mocop.Lib.Grouping`, so no condition is lost and none is
counted twice. What an entry says of its group is `Represents`: it keeps its running maximum,
minimum and union at every condition that is absorbed. The severity is that of the first condition
alone; it is the greatest one because the feed lists critical conditions first, as the store sorts
it (`served_criticalFirst`).
-/

set_option autoImplicit false

namespace Mocop

/-- What an entry says of the conditions it stands for: the greatest severity and value, the
earliest opening, and each host once. -/
structure Represents (entry : AttentionEntry) (members : List ActiveItem) : Prop where
  severity_mem : ∃ item ∈ members, item.severity = entry.severity
  severity_max : ∀ item ∈ members, item.severity = .critical → entry.severity = .critical
  value_mem : ∀ value, entry.value = some value → ∃ item ∈ members, item.value = some value
  value_max : ∀ item ∈ members, ∀ value, item.value = some value →
    ∃ greatest, entry.value = some greatest ∧ value ≤ greatest
  first_mem : ∃ item ∈ members, item.firstObservedAt = entry.firstObservedAt
  first_min : ∀ item ∈ members, entry.firstObservedAt ≤ item.firstObservedAt
  nodup_hosts : entry.hosts.Nodup
  mem_hosts : ∀ host, host ∈ entry.hosts ↔ ∃ item ∈ members, item.host = host

/-- Among actionable conditions the critical ones come first. -/
def CriticalFirst (items : List ActiveItem) : Prop :=
  items.Pairwise fun item later => item.actionable = true → later.actionable = true →
    later.severity = .critical → item.severity = .critical

instance (items : List ActiveItem) : Decidable (CriticalFirst items) :=
  inferInstanceAs (Decidable (items.Pairwise _))

/-! ### One entry -/

theorem represents_attentionItem (item : ActiveItem) : Represents (attentionItem item) [item] where
  severity_mem := ⟨item, List.mem_singleton_self item, rfl⟩
  severity_max := fun other hother hcritical => List.mem_singleton.mp hother ▸ hcritical
  value_mem := fun value hvalue => ⟨item, List.mem_singleton_self item, hvalue⟩
  value_max := by
    intro other hother value hvalue
    rw [List.mem_singleton.mp hother] at hvalue
    exact ⟨value, hvalue, le_refl value⟩
  first_mem := ⟨item, List.mem_singleton_self item, rfl⟩
  first_min := fun other hother => (List.mem_singleton.mp hother ▸ le_refl item.firstObservedAt)
  nodup_hosts := List.nodup_singleton item.host
  mem_hosts := by
    intro host
    simp [attentionItem, eq_comm]

/-- The worse of two readings is one of them, and neither exceeds it. -/
theorem worseValue_spec (group value : Option ℚ) :
    (∀ worst, worseValue group value = some worst → group = some worst ∨ value = some worst)
      ∧ ∀ reading, group = some reading ∨ value = some reading →
        ∃ worst, worseValue group value = some worst ∧ reading ≤ worst := by
  cases group with
  | none =>
    cases value with
    | none => simp [worseValue]
    | some new => simp [worseValue]
  | some old =>
    cases value with
    | none => simp [worseValue]
    | some new =>
      unfold worseValue
      dsimp only
      by_cases hlt : old < new
      · rw [if_pos hlt]
        refine ⟨fun worst hworst => .inr hworst, fun reading hreading => ⟨new, rfl, ?_⟩⟩
        rcases hreading with hold | hnew
        · exact Option.some.inj hold ▸ le_of_lt hlt
        · exact Option.some.inj hnew ▸ le_refl new
      · rw [if_neg hlt]
        refine ⟨fun worst hworst => .inl hworst, fun reading hreading => ⟨old, rfl, ?_⟩⟩
        rcases hreading with hold | hnew
        · exact Option.some.inj hold ▸ le_refl old
        · exact Option.some.inj hnew ▸ not_lt.mp hlt

/-- A condition that is no more severe than those before it keeps what the entry says. -/
theorem Represents.absorb {entry : AttentionEntry} {members : List ActiveItem} {item : ActiveItem}
    (h : Represents entry members)
    (hordered : ∀ member ∈ members, item.severity = .critical → member.severity = .critical) :
    Represents (entry.absorb item) (members ++ [item]) := by
  obtain ⟨hvalue, hworst⟩ := worseValue_spec entry.value item.value
  have hlast : ∀ member ∈ members ++ [item], member ∈ members ∨ member = item := by
    intro member hmember
    rcases List.mem_append.mp hmember with hin | hnew
    · exact .inl hin
    · exact .inr (List.mem_singleton.mp hnew)
  have hself : item ∈ members ++ [item] := List.mem_append_right _ (List.mem_singleton_self item)
  have hkept : ∀ {member}, member ∈ members → member ∈ members ++ [item] :=
    fun hmember => List.mem_append_left _ hmember
  constructor
  · obtain ⟨member, hmember, hsame⟩ := h.severity_mem
    exact ⟨member, hkept hmember, hsame⟩
  · intro member hmember hcritical
    rcases hlast member hmember with hin | rfl
    · exact h.severity_max member hin hcritical
    · -- The entry has the severity of a condition before it.
      obtain ⟨first, hfirst, hsame⟩ := h.severity_mem
      exact h.severity_max first hfirst (hordered first hfirst hcritical)
  · intro value hsome
    rcases hvalue value hsome with hold | hnew
    · obtain ⟨member, hmember, hsame⟩ := h.value_mem value hold
      exact ⟨member, hkept hmember, hsame⟩
    · exact ⟨item, hself, hnew⟩
  · intro member hmember value hsome
    rcases hlast member hmember with hin | rfl
    · obtain ⟨greatest, hgreatest, hle⟩ := h.value_max member hin value hsome
      obtain ⟨worst, hsomeWorst, hleWorst⟩ := hworst greatest (.inl hgreatest)
      exact ⟨worst, hsomeWorst, hle.trans hleWorst⟩
    · exact hworst value (.inr hsome)
  · show ∃ member ∈ members ++ [item], member.firstObservedAt
      = if item.firstObservedAt < entry.firstObservedAt then item.firstObservedAt
        else entry.firstObservedAt
    split
    · exact ⟨item, hself, rfl⟩
    · obtain ⟨member, hmember, hsame⟩ := h.first_mem
      exact ⟨member, hkept hmember, hsame⟩
  · intro member hmember
    show (if item.firstObservedAt < entry.firstObservedAt then item.firstObservedAt
      else entry.firstObservedAt) ≤ member.firstObservedAt
    rcases hlast member hmember with hin | rfl
    · have hle := h.first_min member hin
      split
      · next hlt => exact hlt.le.trans hle
      · exact hle
    · split
      · exact le_refl _
      · next hnot => exact not_lt.mp hnot
  · show ((entry.hosts.insert item.host).mergeSort (· ≤ ·)).Nodup
    rw [(List.mergeSort_perm _ _).nodup_iff]
    exact h.nodup_hosts.insert
  · intro host
    show host ∈ (entry.hosts.insert item.host).mergeSort (· ≤ ·) ↔ _
    rw [(List.mergeSort_perm _ _).mem_iff, List.mem_insert_iff, h.mem_hosts]
    constructor
    · rintro (rfl | ⟨member, hmember, rfl⟩)
      · exact ⟨item, hself, rfl⟩
      · exact ⟨member, hkept hmember, rfl⟩
    · rintro ⟨member, hmember, rfl⟩
      rcases hlast member hmember with hin | rfl
      · exact .inr ⟨member, hin, rfl⟩
      · exact .inl rfl

/-- The entry of a group represents it, the critical conditions coming first. -/
theorem represents_foldGroup {members : List ActiveItem} {entry : AttentionEntry}
    (hordered : members.Pairwise fun item later =>
      later.severity = .critical → item.severity = .critical)
    (h : foldGroup attentionItem AttentionEntry.absorb members = some entry) :
    Represents entry members := by
  induction members using List.reverseRecOn generalizing entry with
  | nil => cases h
  | append_singleton members item ih =>
    rw [List.pairwise_append] at hordered
    obtain ⟨hbefore, -, hlast⟩ := hordered
    cases hfold : foldGroup attentionItem AttentionEntry.absorb members with
    | none =>
      cases members with
      | nil =>
        obtain rfl := Option.some.inj h
        exact represents_attentionItem item
      | cons first rest => cases hfold
    | some group =>
      rw [foldGroup_concat hfold] at h
      obtain rfl := Option.some.inj h
      exact (ih hbefore hfold).absorb fun member hmember hcritical =>
        hlast member hmember item (List.mem_singleton_self item) hcritical

/-- Entries that are the folds of their groups represent them. -/
theorem forall₂_represents {entries : List AttentionEntry} {groups : List (List ActiveItem)}
    (h : List.Forall₂ (fun entry members =>
      foldGroup attentionItem AttentionEntry.absorb members = some entry) entries groups)
    (hordered : ∀ members ∈ groups, members.Pairwise fun item later =>
      later.severity = .critical → item.severity = .critical) :
    List.Forall₂ Represents entries groups := by
  induction h with
  | nil => exact .nil
  | cons hentry hrest ih =>
    refine .cons (represents_foldGroup (hordered _ List.mem_cons_self) hentry) ?_
    exact ih fun members hmembers => hordered members (List.mem_cons_of_mem _ hmembers)

/-! ### The list -/

/-- The pass of the brief is the general one. -/
theorem addAttention_eq :
    addAttention = addItem (·.groupKey) attentionItem AttentionEntry.absorb := by
  funext state item
  unfold addAttention addItem
  dsimp only
  cases item.groupKey with
  | none => rfl
  | some key => cases hget : state.2.get? key <;> simp [hget]

/-- Every actionable condition of a feed that lists critical conditions first is in the group of
exactly one entry, every entry represents its group, and the entries stand in the order of the
first conditions of their groups. A group is one condition without a key, or all conditions of a
key. -/
theorem attention_complete (active : List ActiveItem) (hordered : CriticalFirst active) :
    ∃ groups : List (List ActiveItem),
      List.Forall₂ Represents (attentionEntries (active.filter (·.actionable))) groups
      ∧ groups.flatten.Perm (active.filter (·.actionable))
      ∧ (∀ members ∈ groups, members.Sublist (active.filter (·.actionable)))
      ∧ (groups.filterMap List.head?).Sublist (active.filter (·.actionable))
      ∧ (∀ members ∈ groups, ∀ item ∈ members, item.groupKey = none → members = [item])
      ∧ ∀ (i j : ℕ) (members others : List ActiveItem), groups[i]? = some members →
        groups[j]? = some others → ∀ item ∈ members, ∀ other ∈ others, ∀ key,
          item.groupKey = some key → (other.groupKey = some key ↔ i = j) := by
  have hgrouped := grouped_groupState (·.groupKey) (active.filter (·.actionable))
  refine ⟨groupsOf (·.groupKey) (active.filter (·.actionable)), ?_, hgrouped.perm,
    hgrouped.sublist, hgrouped.heads, hgrouped.alone, ?_⟩
  · have hcollapse := forall₂_collapse (·.groupKey) attentionItem AttentionEntry.absorb
      (active.filter (·.actionable))
    rw [attentionEntries, addAttention_eq]
    -- Within the actionable conditions, and so within each group, critical ones come first.
    have hcritical : (active.filter (·.actionable)).Pairwise fun item later =>
        later.severity = .critical → item.severity = .critical := by
      refine List.Pairwise.imp_of_mem ?_ (List.Pairwise.filter _ hordered)
      intro item later hitem hlater hboth
      exact hboth (List.mem_filter.mp hitem).2 (List.mem_filter.mp hlater).2
    refine forall₂_represents hcollapse fun members hmembers => ?_
    exact hcritical.sublist (hgrouped.sublist members hmembers)
  · intro i j members others hi hj item hitem other hother key hkey
    constructor
    · intro hsame
      exact hgrouped.eq_of_key hi hj hitem hother hkey hsame
    · rintro rfl
      obtain rfl := Option.some.inj (hi.symm.trans hj)
      exact (hgrouped.keyed i members hi item hitem key hkey).2 other hother

/-- One critical and one other reading of a shared filesystem, and a warning of its own. -/
private def sharedExport : List ActiveItem :=
  [{ host := "gpu-2", conditionKey := "disk:nas:/home:/home", groupKey := some "nfs|nas:/home"
     category := "disk", resource := "/home", severity := .critical, value := some 97
     threshold := some 80, detail := none, belowThreshold := false, firstObservedAt := "20"
     actionable := true, diagnosisTitle := none },
   { host := "gpu-1", conditionKey := "disk:nas:/home:/home", groupKey := some "nfs|nas:/home"
     category := "disk", resource := "/home", severity := .warning, value := some 98
     threshold := some 80, detail := none, belowThreshold := false, firstObservedAt := "10"
     actionable := true, diagnosisTitle := none },
   { host := "gpu-1", conditionKey := "cpu", groupKey := none, category := "cpu"
     resource := "CPU", severity := .warning, value := some 91, threshold := some 90
     detail := none, belowThreshold := false, firstObservedAt := "15", actionable := true
     diagnosisTitle := none }]

/-- The readings of the shared filesystem make one entry, which comes first. -/
theorem attention_complete_sharedExport :
    ((attentionEntries (sharedExport.filter (·.actionable))).map fun entry =>
        (entry.severity, entry.value, entry.firstObservedAt))
      = [(.critical, some 98, "10"), (.warning, some 91, "15")]
    ∧ ∃ groups : List (List ActiveItem),
      List.Forall₂ Represents (attentionEntries (sharedExport.filter (·.actionable))) groups
      ∧ groups.flatten.Perm sharedExport := by
  refine ⟨by decide +kernel, ?_⟩
  obtain ⟨groups, hrepresents, hperm, -⟩ :=
    attention_complete sharedExport (by decide : CriticalFirst sharedExport)
  exact ⟨groups, hrepresents, hperm⟩

/-! ### The feed of the store -/

/-- An entry of the feed with the title of its diagnosis. -/
def FeedEntry.item (entry : FeedEntry) (diagnosisTitle : Option String) : ActiveItem where
  host := entry.fields.host
  conditionKey := entry.fields.conditionKey
  groupKey := entry.fields.groupKey
  category := entry.fields.category
  resource := entry.fields.resource
  severity := entry.fields.severity
  value := entry.fields.value
  threshold := entry.fields.threshold
  detail := entry.fields.detail
  belowThreshold := entry.fields.belowThreshold
  firstObservedAt := entry.firstObservedAt
  actionable := entry.decoration.actionable
  diagnosisTitle

/-- The store sorts the critical conditions first. -/
theorem served_criticalFirst (state : StateStore) (now : ℚ)
    (diagnosisTitle : FeedEntry → Option String) :
    CriticalFirst ((state.activeList now).map fun entry => entry.item (diagnosisTitle entry)) := by
  unfold CriticalFirst StateStore.activeList
  rw [List.pairwise_map]
  refine (pairwise_sortBy _ _).imp fun {entry later} hle hactionable hlater hcritical => ?_
  replace hactionable : entry.decoration.actionable = true := hactionable
  replace hlater : later.decoration.actionable = true := hlater
  replace hcritical : later.fields.severity = .critical := hcritical
  show entry.fields.severity = .critical
  rw [hactionable, hlater, hcritical] at hle
  by_contra hnot
  simp only [Prod.Lex.toLex_le_toLex, hnot, ne_eq, not_true_eq_false, not_false_eq_true,
    decide_true, decide_false, lt_self_iff_false, true_and, false_or, Bool.not_true] at hle
  rcases hle with hlt | ⟨hsame, -⟩
  · exact absurd hlt (by decide)
  · cases hsame

end Mocop
