import Mocop.Processes.Persisted

/-!
# `Mocop.Processes.RestoredOrder`: the order of restored transitions

When does a list of transitions survive the way through the table? `Precedes` says that a
transition comes before another one and that the restored order can tell: its time is earlier,
or it is the other kind at the same time, and the stop comes first exactly when the two show a
reused PID. If the transitions of every process are ordered so, all of them come back in their
order (`survives_of_precedes`).

At one time a process may also stop twice: a PID is reused, and a later closing dates the hidden
stop of the new instance back to the same sample. Then the stop of the new instance comes back
before its start (`lost_of_reuse`).
-/

set_option autoImplicit false

namespace Mocop

open Toggles

/-- The start time of the workload of a transition. -/
def GpuProcessTransition.workloadStart (event : GpuProcessTransition) : Option String :=
  workloadText event.workload "started_at"

/-- A transition comes before another one of its process, and the restored order can tell. -/
def Precedes (a b : GpuProcessTransition) : Prop :=
  a.observedAt < b.observedAt ∨ (a.observedAt = b.observedAt ∧ a.event ≠ b.event
    ∧ (showsReuse a.workloadStart b.workloadStart = true ↔ b.event = .started))

/-- What a restart restores of the emitted transitions: each of them, those of every process in
their order, and with them the open starts. -/
structure SurvivesRestart (emitted restored : List GpuProcessTransition) : Prop where
  kept : restored.Perm emitted
  order : ∀ key, processEdges restored key = processEdges emitted key
  opens : ∀ key, (openTransitions restored).get? key = (openTransitions emitted).get? key

theorem showsReuse_comm (own twin : Option String) : showsReuse own twin = showsReuse twin own := by
  cases own with
  | none => cases twin <;> rfl
  | some own =>
    cases twin with
    | none => rfl
    | some twin => simp [showsReuse, ne_comm]

variable {a b : GpuProcessTransition} {key : ProcessKey}

/-- Two transitions of one process, one before the other, come so among its own. -/
theorem sublist_processEdges {events : List GpuProcessTransition} (h : [a, b].Sublist events)
    (ha : a.processKey = key) (hb : b.processKey = key) :
    [a, b].Sublist (processEdges events key) := by
  have hfiltered := h.filter (fun event => GpuProcessTransition.processKey event = key)
  have hboth : [a, b].filter (fun event => GpuProcessTransition.processKey event = key)
      = [a, b] := by simp [ha, hb]
  rw [hboth] at hfiltered
  exact hfiltered

theorem mem_processEdges {events : List GpuProcessTransition} {event : GpuProcessTransition} :
    event ∈ processEdges events key ↔ event ∈ events
      ∧ event.processKey = key := by
  rw [processEdges, edgesOf, List.mem_filter, decide_eq_true_eq]

section
variable {internalUsageGpuKey : String → String → String} {host gpuId : String}
  {emitted items : List GpuProcessTransition}

/-- Two transitions of one process at one time are of different kinds. -/
theorem eq_of_precedes (h : (processEdges emitted key).Pairwise Precedes)
    (ha : a ∈ processEdges emitted key) (hb : b ∈ processEdges emitted key)
    (htime : a.observedAt = b.observedAt) (hkind : a.event = b.event) : a = b := by
  by_contra hne
  have hnot : ∀ x y : GpuProcessTransition, x.observedAt = y.observedAt → x.event = y.event →
      ¬ Precedes x y := by
    rintro x y hxy hkinds (hlt | ⟨-, hother, -⟩)
    · exact absurd hxy (ne_of_lt hlt)
    · exact hother hkinds
  rcases pair_sublist_or ha hb hne with hpair | hpair
  · have hprecedes := h.sublist hpair
    rw [List.pairwise_pair] at hprecedes
    exact hnot a b htime hkind hprecedes
  · have hprecedes := h.sublist hpair
    rw [List.pairwise_pair] at hprecedes
    exact hnot b a htime.symm hkind.symm hprecedes

/-- Such transitions have different rows. -/
theorem nodup_rows (h : ∀ key, (processEdges emitted key).Pairwise Precedes) :
    ((emitted.map (processRow internalUsageGpuKey host)).map Prod.fst).Nodup := by
  rw [List.map_map, List.Nodup, List.pairwise_map, List.pairwise_iff_forall_sublist]
  intro a b hpair hsame
  have hfields : ∀ event : GpuProcessTransition,
      (processRow internalUsageGpuKey host event).1.observedAt = event.observedAt
        ∧ (processRow internalUsageGpuKey host event).1.event = event.event
        ∧ ((processRow internalUsageGpuKey host event).1.pid,
          (processRow internalUsageGpuKey host event).1.name) = event.processKey := by
    intro event
    unfold processRow
    split
    · exact ⟨rfl, rfl, rfl⟩
    · exact ⟨rfl, rfl, rfl⟩
  rw [Function.comp_apply, Function.comp_apply] at hsame
  have hprecedes := (h a.processKey).sublist (sublist_processEdges hpair rfl (by
    rw [← (hfields a).2.2, ← (hfields b).2.2, hsame]))
  rw [List.pairwise_pair] at hprecedes
  rcases hprecedes with hlt | ⟨-, hkind, -⟩
  · refine absurd hlt ?_
    rw [← (hfields a).1, ← (hfields b).1, hsame]
    exact lt_irrefl _
  · refine hkind ?_
    rw [← (hfields a).2.1, ← (hfields b).2.1, hsame]

/-- The last transition of an identity, when there is only one. -/
theorem startedAtOf_eq {event twin : GpuProcessTransition} {kind : ProcessEvent}
    (htwin : twin ∈ items) (hidentity : sameIdentity event twin kind = true)
    (honly : ∀ other ∈ items, sameIdentity event other kind = true → other = twin) :
    startedAtOf items event kind = twin.workloadStart := by
  have hmem : twin ∈ items.filter (sameIdentity event · kind) :=
    List.mem_filter.mpr ⟨htwin, hidentity⟩
  obtain ⟨last, hlast⟩ := Option.isSome_iff_exists.mp
    (List.getLast?_isSome.mpr (List.ne_nil_of_mem hmem))
  have hfound := List.mem_filter.mp (List.mem_of_getLast? hlast)
  rw [startedAtOf, hlast, honly last hfound.1 hfound.2]
  rfl

/-- The sort key tells the order of the transitions of a process. -/
theorem emissionKey_lt (hperm : items.Perm emitted)
    (h : (processEdges emitted key).Pairwise Precedes)
    (hpair : [a, b].Sublist (processEdges emitted key)) :
    emissionKey items a < emissionKey items b := by
  have ha := mem_processEdges.mp (hpair.subset (by simp : a ∈ [a, b]))
  have hb := mem_processEdges.mp (hpair.subset (by simp : b ∈ [a, b]))
  have hprecedes := h.sublist hpair
  rw [List.pairwise_pair] at hprecedes
  rcases hprecedes with hlt | ⟨htime, hkind, hreuse⟩
  · exact Prod.Lex.toLex_lt_toLex.mpr (Or.inl hlt)
  -- At one time the rank decides: the twin of each is the other one.
  have hprocess : a.processKey = b.processKey := ha.2.trans hb.2.symm
  have htwin : ∀ x y : GpuProcessTransition, x.processKey = key →
      y ∈ processEdges emitted key → x.observedAt = y.observedAt →
      startedAtOf items x y.event = y.workloadStart := by
    intro x y hx hy hsame
    have hkey : y.processKey = x.processKey := by rw [hx, (mem_processEdges.mp hy).2]
    refine startedAtOf_eq (hperm.mem_iff.mpr (mem_processEdges.mp hy).1)
      (by simp [sameIdentity, hsame, hkey]) ?_
    intro other hother hidentity
    simp only [sameIdentity, Bool.and_eq_true, decide_eq_true_eq] at hidentity
    obtain ⟨⟨htimes, hkeys⟩, hkinds⟩ := hidentity
    refine eq_of_precedes h (mem_processEdges.mpr ⟨hperm.mem_iff.mp hother, hkeys.trans hx⟩) hy
      (htimes.trans hsame) hkinds
  have hatwin := htwin a b ha.2 (mem_processEdges.mpr hb) htime
  have hbtwin := htwin b a hb.2 (mem_processEdges.mpr ha) htime.symm
  have hranks : emissionRank items a < emissionRank items b := by
    unfold emissionRank
    cases haevent : a.event with
    | started =>
      have hbevent : b.event = .stopped := by
        cases hbevent : b.event with
        | started => exact absurd (haevent.trans hbevent.symm) hkind
        | stopped => rfl
      rw [hbevent] at hatwin hreuse
      rw [haevent] at hbtwin
      have hno : showsReuse a.workloadStart b.workloadStart = false := by
        simpa using hreuse
      have hno' : showsReuse b.workloadStart a.workloadStart = false := by
        rw [showsReuse_comm]
        exact hno
      simp [hbevent, hatwin, hbtwin, GpuProcessTransition.workloadStart] at hno hno' ⊢
      simp [hno, hno']
    | stopped =>
      have hbevent : b.event = .started := by
        cases hbevent : b.event with
        | started => rfl
        | stopped => exact absurd (haevent.trans hbevent.symm) hkind
      rw [hbevent] at hatwin hreuse
      rw [haevent] at hbtwin
      have hyes : showsReuse a.workloadStart b.workloadStart = true := hreuse.mpr rfl
      have hyes' : showsReuse b.workloadStart a.workloadStart = true := by
        rw [showsReuse_comm]
        exact hyes
      simp [hbevent, hatwin, hbtwin, GpuProcessTransition.workloadStart] at hyes hyes' ⊢
      simp [hyes, hyes']
  have hpid : a.pid = b.pid := congrArg Prod.fst hprocess
  have hname : a.name = b.name := congrArg Prod.snd hprocess
  refine Prod.Lex.toLex_lt_toLex.mpr (Or.inr ⟨htime, ?_⟩)
  refine Prod.Lex.toLex_lt_toLex.mpr (Or.inr ⟨hpid, ?_⟩)
  exact Prod.Lex.toLex_lt_toLex.mpr (Or.inr ⟨hname, hranks⟩)

/-! ### What a restore reads of the table of one device -/

variable {table : ProcessTable} {limit : ℕ}

/-- The restored items are those whose rows are read, in the same order. -/
theorem map_decodeProcessRows (hdevice : DeviceKey.Storable (host, gpuId))
    (htable : Holds internalUsageGpuKey host gpuId table) :
    (decodeProcessRows table limit (host, gpuId)).map (processRow internalUsageGpuKey host)
        = processRows table limit
      ∧ ∀ item ∈ decodeProcessRows table limit (host, gpuId), item.gpuId = gpuId := by
  have hrows : ∀ row ∈ processRows table limit, ∃ event : GpuProcessTransition,
      event.Storable ∧ event.gpuId = gpuId ∧ row = processRow internalUsageGpuKey host event :=
    fun row hrow => htable row (mem_of_processRows hrow)
  unfold decodeProcessRows
  show (List.filterMap _ (processRows table limit)).map _ = _ ∧ ∀ item ∈ List.filterMap _
    (processRows table limit), _
  generalize processRows table limit = rows at hrows ⊢
  induction rows with
  | nil => exact ⟨rfl, fun _ h => by simp at h⟩
  | cons first rest ih =>
    obtain ⟨hmap, hids⟩ := ih (fun row hrow => hrows row (List.mem_cons_of_mem _ hrow))
    obtain ⟨event, hstorable, rfl, rfl⟩ := hrows first List.mem_cons_self
    have hdecode : decodeProcessRow (processRow internalUsageGpuKey host event)
        = some ((host, event.gpuId), event) := decodeProcessRow_processRow hstorable hdevice
    rw [List.filterMap_cons, hdecode]
    simp only [if_true, List.map_cons, hmap, true_and]
    intro item hitem
    rcases List.mem_cons.mp hitem with rfl | hitem
    · rfl
    · exact hids item hitem

/-- The pseudo-host comes before every host. -/
theorem internalUsageHost_lt (hdevice : DeviceKey.Storable (host, gpuId)) :
    internalUsageHost < host := by
  rw [String.lt_iff_toList_lt]
  cases hchars : host.toList with
  | nil =>
    have hlength := hdevice.host.1
    rw [← String.length_toList, hchars] at hlength
    simp at hlength
  | cons first rest =>
    have hfirst : first ≠ '\x00' := by
      rintro rfl
      exact hdevice.host.2.2 (by rw [hchars]; exact List.mem_cons_self)
    have hlt : '\x00' < first := by
      rw [Char.lt_def, UInt32.lt_iff_toNat_lt]
      have hne : first.val.toNat ≠ 0 := by
        intro hzero
        refine hfirst (Char.ext (UInt32.toNat_inj.mp ?_))
        rw [hzero]
        rfl
      have hpos : 0 < first.val.toNat := by omega
      exact hpos
    exact List.Lex.rel hlt

/-- The hidden items come first, and no two items of one visibility have one identity. -/
theorem pairwise_decodeProcessRows (hdevice : DeviceKey.Storable (host, gpuId))
    (htable : Holds internalUsageGpuKey host gpuId table) :
    (decodeProcessRows table limit (host, gpuId)).Pairwise (fun a b =>
      (a.visible = true → b.visible = true)
        ∧ ¬ (a.visible = b.visible ∧ sameIdentity a b a.event = true)) := by
  obtain ⟨hmap, hids⟩ := @map_decodeProcessRows _ _ _ _ limit hdevice htable
  have hrows := pairwise_processRows table limit
  rw [← hmap, List.pairwise_map] at hrows
  refine hrows.imp_of_mem fun {a b} ha hb hab => ⟨fun hvisible => ?_, fun hsame => ?_⟩
  · by_contra hhidden
    rw [Bool.not_eq_true] at hhidden
    have hle := hab.2
    simp only [processRow, hvisible, hhidden, if_true, Bool.false_eq_true, if_false,
      ProcessRowKey.partition, Prod.Lex.toLex_le_toLex] at hle
    have hlt := internalUsageHost_lt hdevice
    rcases hle with hle | ⟨heq, -⟩
    · exact absurd hle (not_lt.mpr (le_of_lt hlt))
    · exact absurd heq.symm (ne_of_lt hlt)
  · obtain ⟨hvisible, hidentity⟩ := hsame
    simp only [sameIdentity, Bool.and_eq_true, decide_eq_true_eq] at hidentity
    obtain ⟨⟨htime, hkey⟩, hkind⟩ := hidentity
    have hpid : b.pid = a.pid := congrArg Prod.fst hkey
    have hname : b.name = a.name := congrArg Prod.snd hkey
    refine hab.1 ?_
    unfold processRow
    rw [hids a ha, hids b hb, hvisible, htime, hkind, hpid, hname]
    split
    · rfl
    · rfl

/-- If every process's transitions are ordered so that the restored order can tell, all of them
survive. -/
theorem survives_of_precedes (hdevice : DeviceKey.Storable (host, gpuId))
    (batches : List (List GpuProcessTransition))
    (hstorable : ∀ event ∈ batches.flatten, event.Storable ∧ event.gpuId = gpuId)
    (hlimit : batches.flatten.length < limit)
    (h : ∀ key, (processEdges batches.flatten key).Pairwise Precedes) :
    SurvivesRestart batches.flatten (restoreProcessEvents
      (batches.foldl (writeProcessEvents internalUsageGpuKey host) ∅) limit (host, gpuId)) := by
  have hentries : (batches.foldl (writeProcessEvents internalUsageGpuKey host) ∅).entries.Perm
      (batches.flatten.map (processRow internalUsageGpuKey host)) :=
    @entries_writeAll _ _ ∅ batches (nodup_rows h)
  generalize batches.foldl (writeProcessEvents internalUsageGpuKey host) ∅ = table at hentries ⊢
  have hlength : table.entries.length = batches.flatten.length := by
    rw [hentries.length_eq, List.length_map]
  have hroom : table.entries.length ≤ limit := by omega
  have hrows := (processRows_perm hroom).trans hentries
  have hitems : (decodeProcessRows table limit (host, gpuId)).Perm batches.flatten := by
    unfold decodeProcessRows
    refine (hrows.filterMap _).trans (.of_eq ?_)
    rw [List.filterMap_map]
    refine (List.filterMap_congr fun event hevent => ?_).trans List.filterMap_some
    obtain ⟨hevent, hid⟩ := hstorable event hevent
    rw [Function.comp_apply, decodeProcessRow_processRow hevent (by rw [hid]; exact hdevice)]
    simp [hid]
  have hrestored : restoreProcessEvents table limit (host, gpuId)
      = emissionOrder (decodeProcessRows table limit (host, gpuId)) := by
    have hkept : (emissionOrder (decodeProcessRows table limit (host, gpuId))).length - limit
        = 0 := by
      rw [emissionOrder, length_sortBy, hitems.length_eq]
      omega
    rw [restoreProcessEvents, List.rtake, hkept, List.drop_zero]
  have horder : ∀ key, processEdges (restoreProcessEvents table limit (host, gpuId)) key
      = processEdges batches.flatten key := by
    intro key
    rw [hrestored, processEdges, edgesOf, emissionOrder]
    refine filter_sortBy_eq ((hitems.filter _).symm) ?_
    rw [List.pairwise_iff_forall_sublist]
    exact fun hpair => emissionKey_lt hitems (h key) hpair
  refine ⟨?_, horder, fun key => ?_⟩
  · rw [hrestored, emissionOrder]
    exact (sortBy_perm _ _).trans hitems
  · rw [openTransitions, openTransitions, get?_openStarts, get?_openStarts]
    exact congrArg _ (horder key)

/-- The last transition of an identity is the visible one. -/
theorem startedAtOf_visible (hdevice : DeviceKey.Storable (host, gpuId))
    (htable : Holds internalUsageGpuKey host gpuId table) {event twin : GpuProcessTransition}
    {kind : ProcessEvent}
    (htwin : twin ∈ decodeProcessRows table limit (host, gpuId))
    (hvisible : twin.visible = true) (hidentity : sameIdentity event twin kind = true) :
    startedAtOf (decodeProcessRows table limit (host, gpuId)) event kind
      = twin.workloadStart := by
  have hordered := @pairwise_decodeProcessRows _ _ _ _ limit hdevice htable
  generalize decodeProcessRows table limit (host, gpuId) = items at htwin hordered ⊢
  have hmem : twin ∈ items.filter (sameIdentity event · kind) :=
    List.mem_filter.mpr ⟨htwin, hidentity⟩
  obtain ⟨last, hlast⟩ := Option.isSome_iff_exists.mp
    (List.getLast?_isSome.mpr (List.ne_nil_of_mem hmem))
  have hfound := List.mem_filter.mp (List.mem_of_getLast? hlast)
  rw [startedAtOf, hlast]
  by_cases hsame : twin = last
  · rw [hsame]
    rfl
  -- Another transition is last: it is visible too, but only one visible row has this identity.
  exfalso
  obtain ⟨front, hfront⟩ := List.getLast?_eq_some_iff.mp hlast
  have hbefore : twin ∈ front := by
    rw [hfront, List.mem_append, List.mem_singleton] at hmem
    exact hmem.resolve_right hsame
  have hpair : [twin, last].Sublist items := by
    have hsub : [twin, last].Sublist (front ++ [last]) :=
      List.Sublist.append (List.singleton_sublist.mpr hbefore) (List.Sublist.refl [last])
    rw [← hfront] at hsub
    exact hsub.trans List.filter_sublist
  have hrel := hordered.sublist hpair
  rw [List.pairwise_pair] at hrel
  refine hrel.2 ⟨by rw [hvisible, hrel.1 hvisible], ?_⟩
  have hfoundlast := hfound.2
  simp only [sameIdentity, Bool.and_eq_true, decide_eq_true_eq] at hidentity hfoundlast ⊢
  exact ⟨⟨hfoundlast.1.1.trans hidentity.1.1.symm, hfoundlast.1.2.trans hidentity.1.2.symm⟩,
    hfoundlast.2.trans hidentity.2.symm⟩

/-- A PID was reused at a time, and a hidden stop of the new instance was emitted later with the
same time. Then the transitions do not survive. -/
theorem lost_of_reuse (hdevice : DeviceKey.Storable (host, gpuId))
    (htable : Holds internalUsageGpuKey host gpuId table)
    (hlimit : emitted.length < limit) {stop start close : GpuProcessTransition}
    (hstop : stop ∈ emitted) (hpair : [start, close].Sublist emitted)
    (hstopped : stop.event = .stopped ∧ stop.visible = true)
    (hstarted : start.event = .started ∧ start.visible = true)
    (hclosed : close.event = .stopped ∧ close.visible = false)
    (hidentity : stop.observedAt = start.observedAt ∧ stop.processKey = start.processKey)
    (hclosing : close.observedAt = start.observedAt ∧ close.processKey = start.processKey)
    (hreuse : showsReuse start.workloadStart stop.workloadStart = true)
    (hsame : close.workloadStart = start.workloadStart) :
    ¬ SurvivesRestart emitted (restoreProcessEvents table limit (host, gpuId)) := by
  intro h
  have hordered := @pairwise_decodeProcessRows _ _ _ _ limit hdevice htable
  have hstopTwin := fun event kind => @startedAtOf_visible _ _ _ _ limit hdevice htable event
    stop kind
  have hstartTwin := fun event kind => @startedAtOf_visible _ _ _ _ limit hdevice htable event
    start kind
  obtain ⟨hkept, horder, -⟩ := h
  -- The limit cuts nothing off.
  have hrestored : restoreProcessEvents table limit (host, gpuId)
      = emissionOrder (decodeProcessRows table limit (host, gpuId)) := by
    have hlength := hkept.length_eq
    rw [restoreProcessEvents, List.rtake, List.length_drop, emissionOrder,
      length_sortBy] at hlength
    have hfits : (emissionOrder (decodeProcessRows table limit (host, gpuId))).length - limit
        = 0 := by
      rw [emissionOrder, length_sortBy]
      omega
    rw [restoreProcessEvents, List.rtake, hfits, List.drop_zero]
  rw [hrestored, emissionOrder] at hkept horder
  generalize decodeProcessRows table limit (host, gpuId) = items at *
  have hitems : items.Perm emitted := (sortBy_perm _ _).symm.trans hkept
  have hne : close ≠ start := by
    rintro rfl
    rw [hclosed.1] at hstarted
    simp at hstarted
  have hstartIn : start ∈ items := hitems.mem_iff.mpr (hpair.subset (by simp))
  have hcloseIn : close ∈ items := hitems.mem_iff.mpr (hpair.subset (by simp))
  -- The hidden row is read before the visible one.
  have hread : [close, start].Sublist items := by
    rcases pair_sublist_or hcloseIn hstartIn hne with hpair | hpair
    · exact hpair
    · have hrel := hordered.sublist hpair
      rw [List.pairwise_pair] at hrel
      have hvisible := hrel.1 hstarted.2
      rw [hclosed.2] at hvisible
      simp at hvisible
  -- The ranks of the start and of the closing are equal.
  have hstartRank : emissionRank items start = true := by
    unfold emissionRank
    rw [show decide (start.event = .stopped) = false by rw [hstarted.1]; rfl]
    simp only [Bool.false_eq_true, if_false]
    rw [hstopTwin start .stopped (hitems.mem_iff.mpr hstop) hstopped.2
      (by simp [sameIdentity, hidentity.1, hidentity.2, hstopped.1])]
    rw [GpuProcessTransition.workloadStart] at hreuse
    rw [hreuse]
    rfl
  have hcloseRank : emissionRank items close = true := by
    have hno : showsReuse close.workloadStart start.workloadStart = false := by
      rw [hsame]
      cases start.workloadStart with
      | none => rfl
      | some text => simp [showsReuse]
    unfold emissionRank
    rw [show decide (close.event = .stopped) = true by rw [hclosed.1]; rfl]
    simp only [if_true]
    rw [hstartTwin close .started hstartIn hstarted.2
      (by simp [sameIdentity, hclosing.1, hclosing.2, hstarted.1])]
    rw [GpuProcessTransition.workloadStart] at hno
    rw [hno]
    rfl
  have hkeys : emissionKey items close = emissionKey items start := by
    have hpid : close.pid = start.pid := congrArg Prod.fst hclosing.2
    have hname : close.name = start.name := congrArg Prod.snd hclosing.2
    rw [emissionKey, emissionKey, hstartRank, hcloseRank, hclosing.1, hpid, hname]
  have hsorted : [close, start].Sublist (sortBy (emissionKey items) items) :=
    pair_sublist_sortBy (le_of_eq hkeys) hread
  -- So the closing comes back before the start that it was emitted after.
  have hback := sublist_processEdges hsorted hclosing.2 rfl
  rw [horder] at hback
  have hnodup : emitted.Nodup := by
    refine hitems.nodup_iff.mp (hordered.imp fun hab hsame => ?_)
    rw [hsame] at hab
    exact hab.2 ⟨rfl, by simp [sameIdentity]⟩
  exact not_sublist_swap (hnodup.sublist List.filter_sublist) hback
    (sublist_processEdges hpair rfl hclosing.2)

end

end Mocop
