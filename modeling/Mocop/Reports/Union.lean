import Mocop.Reports.Hourly
import Mocop.Reports.Classification
import Mocop.Reports.Pairing
import Mathlib.MeasureTheory.Measure.Lebesgue.Basic

/-!
# `Mocop.Reports.Union`: occupancy as the measure of a union

`occupied` is the set of times that intervals cover. Merged intervals cover the same times as
the intervals they come from and are separated, so their seconds are the measure of that set.
The runs of a device lie inside the window, and a window that begins earlier cuts less off
them.
-/

set_option autoImplicit false

namespace Mocop

open MeasureTheory

/-- The times that the intervals cover. -/
def occupied (intervals : List Interval) : Set ℝ :=
  {x | ∃ interval ∈ intervals, (interval.start : ℝ) ≤ x ∧ x ≤ interval.end_}

/-- Sorted and pairwise disjoint: each interval ends before the next one begins. -/
abbrev Separated (intervals : List Interval) : Prop :=
  intervals.Pairwise fun a b => a.end_ < b.start

/-- Intervals that do not end before they begin. -/
abbrev Forward (intervals : List Interval) : Prop :=
  ∀ interval ∈ intervals, interval.start ≤ interval.end_

/-- The seconds of intervals. -/
def spanSeconds (intervals : List Interval) : ℚ :=
  (intervals.map fun interval => interval.end_ - interval.start).sum

variable {interval : Interval}

section Merging

variable {intervals : List Interval}

@[simp] theorem occupied_nil : occupied [] = ∅ := by
  ext x
  simp [occupied]

@[simp] theorem occupied_append (l l' : List Interval) :
    occupied (l ++ l') = occupied l ∪ occupied l' := by
  ext x
  simp only [occupied, Set.mem_ofPred_eq, List.mem_append, Set.mem_union]
  constructor
  · rintro ⟨interval, hmem | hmem, hx⟩
    · exact Or.inl ⟨interval, hmem, hx⟩
    · exact Or.inr ⟨interval, hmem, hx⟩
  · rintro (⟨interval, hmem, hx⟩ | ⟨interval, hmem, hx⟩)
    · exact ⟨interval, Or.inl hmem, hx⟩
    · exact ⟨interval, Or.inr hmem, hx⟩

theorem occupied_singleton (interval : Interval) :
    occupied [interval] = Set.Icc (interval.start : ℝ) interval.end_ := by
  ext x
  simp [occupied]

theorem occupied_cons (interval : Interval) (l : List Interval) :
    occupied (interval :: l) = Set.Icc (interval.start : ℝ) interval.end_ ∪ occupied l := by
  rw [← List.singleton_append, occupied_append, occupied_singleton]

/-- The order of intervals does not matter. -/
theorem occupied_perm {l l' : List Interval} (h : l.Perm l') : occupied l = occupied l' := by
  ext x
  simp only [occupied, Set.mem_ofPred_eq, h.mem_iff]

/-- The seconds of intervals are not negative. -/
theorem spanSeconds_nonneg (hforward : Forward intervals) : 0 ≤ spanSeconds intervals := by
  refine List.sum_nonneg fun x hx => ?_
  obtain ⟨interval, hmem, rfl⟩ := List.mem_map.mp hx
  exact sub_nonneg.mpr (hforward interval hmem)

/-- The seconds of separated intervals are the measure of what they cover. -/
theorem volume_occupied (hforward : Forward intervals) (hseparated : Separated intervals) :
    volume (occupied intervals) = ENNReal.ofReal (spanSeconds intervals) := by
  induction intervals with
  | nil => simp [spanSeconds]
  | cons first rest ih =>
    obtain ⟨hbefore, hrest⟩ := List.pairwise_cons.mp hseparated
    obtain ⟨hfirst, hforwards⟩ := List.forall_mem_cons.mp hforward
    have hdisjoint : Disjoint (Set.Icc (first.start : ℝ) first.end_) (occupied rest) := by
      rw [Set.disjoint_left]
      rintro x ⟨-, hx⟩ ⟨interval, hmem, hx', -⟩
      have hlt : (first.end_ : ℝ) < interval.start := by exact_mod_cast hbefore interval hmem
      linarith
    have hnonneg := spanSeconds_nonneg hforwards
    have hspan : spanSeconds (first :: rest) = (first.end_ - first.start) + spanSeconds rest :=
      rfl
    rw [occupied_cons, measure_union' hdisjoint measurableSet_Icc, ih hforwards hrest,
      Real.volume_Icc, hspan, Rat.cast_add, ENNReal.ofReal_add, Rat.cast_sub]
    · exact_mod_cast sub_nonneg.mpr hfirst
    · exact_mod_cast hnonneg

/-- What has been merged so far, of intervals that begin at `bound` at the latest. -/
structure Merged (merged : List Interval) (bound : ℚ) : Prop where
  forward : Forward merged
  separated : Separated merged
  begun : ∀ interval ∈ merged, interval.start ≤ bound

/-- An interval that begins later is merged: it extends the last one or follows it. -/
theorem mergeInterval_spec {merged : List Interval} (h : Merged merged interval.start)
    (hle : interval.start ≤ interval.end_) :
    Merged (mergeInterval merged interval) interval.start
      ∧ occupied (mergeInterval merged interval) = occupied (merged ++ [interval]) := by
  have hpushed : (∀ m ∈ merged, m.end_ < interval.start) →
      Merged (merged ++ [{ interval with sampledSeconds := 0, idleSeconds := 0 }]) interval.start
        ∧ occupied (merged ++ [{ interval with sampledSeconds := 0, idleSeconds := 0 }])
          = occupied (merged ++ [interval]) := by
    intro hends
    refine ⟨⟨?_, List.pairwise_append.mpr ⟨h.separated, List.pairwise_singleton _ _, ?_⟩, ?_⟩, ?_⟩
    · exact List.forall_mem_append.mpr ⟨h.forward, List.forall_mem_singleton.mpr hle⟩
    · exact fun m hm other hother => by
        obtain rfl := List.mem_singleton.mp hother
        exact hends m hm
    · exact List.forall_mem_append.mpr ⟨h.begun, List.forall_mem_singleton.mpr le_rfl⟩
    · rw [occupied_append, occupied_append, occupied_singleton, occupied_singleton]
  unfold mergeInterval
  cases hlast : merged.getLast? with
  | none =>
    obtain rfl := List.getLast?_eq_none_iff.mp hlast
    exact hpushed (by simp)
  | some last =>
    obtain ⟨init, rfl⟩ := List.getLast?_eq_some_iff.mp hlast
    obtain ⟨hinit, -, hbefore⟩ := List.pairwise_append.mp h.separated
    obtain ⟨hforward, hlastForward⟩ := List.forall_mem_append.mp h.forward
    obtain ⟨hbegun, hlastBegun⟩ := List.forall_mem_append.mp h.begun
    have hspan := List.forall_mem_singleton.mp hlastForward
    have hstart := List.forall_mem_singleton.mp hlastBegun
    have hinits : ∀ m ∈ init, m.end_ < last.start := fun m hm =>
      hbefore m hm last List.mem_cons_self
    by_cases htouches : interval.start ≤ last.end_
    · simp only [if_pos htouches, List.dropLast_concat]
      refine ⟨⟨?_, List.pairwise_append.mpr ⟨hinit, List.pairwise_singleton _ _, ?_⟩, ?_⟩, ?_⟩
      · exact List.forall_mem_append.mpr ⟨hforward,
          List.forall_mem_singleton.mpr (hspan.trans (le_max_left _ _))⟩
      · exact fun m hm other hother => by
          obtain rfl := List.mem_singleton.mp hother
          exact hinits m hm
      · exact List.forall_mem_append.mpr ⟨hbegun, List.forall_mem_singleton.mpr hstart⟩
      · -- The two overlap, so together they have no gap.
        have hstart' : (last.start : ℝ) ≤ interval.start := by exact_mod_cast hstart
        have htouches' : (interval.start : ℝ) ≤ last.end_ := by exact_mod_cast htouches
        simp only [occupied_append, occupied_singleton, Set.union_assoc, Rat.cast_max]
        rw [Set.Icc_union_Icc', min_eq_left hstart']
        · exact htouches'
        · exact hstart'.trans (by exact_mod_cast hle)
    · simp only [if_neg htouches]
      refine hpushed (List.forall_mem_append.mpr ⟨fun m hm => ?_,
        List.forall_mem_singleton.mpr (not_le.mp htouches)⟩)
      exact ((hinits m hm).trans_le hspan).trans (not_le.mp htouches)

/-- Merged intervals are separated and cover what the intervals cover. -/
theorem mergeIntervals_spec (hforward : Forward intervals) :
    Forward (mergeIntervals intervals) ∧ Separated (mergeIntervals intervals)
      ∧ occupied (mergeIntervals intervals) = occupied intervals := by
  have hfold : ∀ (rest merged : List Interval), Forward rest →
      rest.Pairwise (fun a b => a.start ≤ b.start) →
      Forward merged → Separated merged → (∀ m ∈ merged, ∀ r ∈ rest, m.start ≤ r.start) →
      Forward (rest.foldl mergeInterval merged) ∧ Separated (rest.foldl mergeInterval merged)
        ∧ occupied (rest.foldl mergeInterval merged) = occupied (merged ++ rest) := by
    intro rest
    induction rest with
    | nil => exact fun merged _ _ hforward hseparated _ => ⟨hforward, hseparated, by simp⟩
    | cons interval rest ih =>
      intro merged hrest hsorted hforward hseparated hbegun
      obtain ⟨hhead, hrests⟩ := List.pairwise_cons.mp hsorted
      obtain ⟨hle, hforwards⟩ := List.forall_mem_cons.mp hrest
      obtain ⟨hmerged, hoccupied⟩ := mergeInterval_spec
        ⟨hforward, hseparated, fun m hm => hbegun m hm interval List.mem_cons_self⟩ hle
      obtain ⟨hforward', hseparated', hall⟩ := ih (mergeInterval merged interval) hforwards
        hrests hmerged.forward hmerged.separated
        fun m hm r hr => (hmerged.begun m hm).trans (hhead r hr)
      refine ⟨hforward', hseparated', hall.trans ?_⟩
      rw [occupied_append, hoccupied, ← occupied_append, List.append_assoc,
        List.singleton_append]
  have hsorted : (intervals.mergeSort fun a b =>
      a.start < b.start || a.start = b.start && a.end_ ≤ b.end_).Pairwise
        (fun a b => a.start ≤ b.start) := by
    refine (List.pairwise_mergeSort ?_ ?_ intervals).imp fun h => ?_
    · intro a b c hab hbc
      grind
    · intro a b
      grind
    · grind
  have hperm := List.mergeSort_perm intervals fun a b =>
    a.start < b.start || a.start = b.start && a.end_ ≤ b.end_
  obtain ⟨hforward', hseparated, hoccupied⟩ := hfold _ []
    (fun interval hmem => hforward interval (hperm.mem_iff.mp hmem)) hsorted
    (fun _ h => absurd h List.not_mem_nil) List.Pairwise.nil
    (fun _ h => absurd h List.not_mem_nil)
  exact ⟨hforward', hseparated, hoccupied.trans (occupied_perm hperm)⟩

end Merging

/-! ### The runs of a device -/

section Pairing

variable (epochSeconds : String → Option ℚ) (windowStart nowEpoch : ℚ)
  (events : List ProcessTransition) (active : Dict ProcessKey GpuProcess)
  (observedUntil : Option ℚ)

/-- The intervals of one owner. -/
abbrev ownedIntervals (owner : Option String) (intervals : List Interval) : List Interval :=
  intervals.filter fun interval => interval.owner = owner

/-- The runs that one owner had on the device. -/
abbrev ownerRuns (owner : Option String) : List Interval :=
  ownedIntervals owner
    (pairIntervals epochSeconds windowStart nowEpoch events active observedUntil).1

/-- A clipped run lies in the window, and ends no later than the run. -/
theorem Run.clip_eq_some {run : Run} (h : run.clip windowStart nowEpoch = some interval) :
    windowStart ≤ interval.start ∧ interval.start < interval.end_ ∧ interval.end_ ≤ nowEpoch
      ∧ interval.end_ ≤ run.end_ := by
  unfold Run.clip at h
  split at h
  · cases h
  · next hleft =>
    obtain rfl := Option.some.inj h
    exact ⟨le_max_right _ _, not_le.mp hleft, min_le_right _ _, min_le_left _ _⟩

/-- A window that begins earlier cuts no more off a run. -/
theorem Run.clip_earlier {run : Run} {earlierStart : ℚ} (hle : earlierStart ≤ windowStart)
    (h : run.clip windowStart nowEpoch = some interval) :
    ∃ longer, run.clip earlierStart nowEpoch = some longer ∧ longer.owner = interval.owner
      ∧ longer.start ≤ interval.start ∧ longer.end_ = interval.end_ := by
  unfold Run.clip at h
  split at h
  · cases h
  · next hleft =>
    obtain rfl := Option.some.inj h
    have hstart : max run.start earlierStart ≤ max run.start windowStart :=
      max_le_max_left _ hle
    have hleft' : ¬ min run.end_ nowEpoch ≤ max run.start earlierStart := fun h =>
      hleft (h.trans hstart)
    rw [Run.clip, if_neg hleft']
    exact ⟨_, rfl, rfl, hstart, rfl⟩

/-- The runs of a device lie in the window. -/
theorem pairIntervals_inside
    (h : interval ∈
      (pairIntervals epochSeconds windowStart nowEpoch events active observedUntil).1) :
    windowStart ≤ interval.start ∧ interval.start < interval.end_
      ∧ interval.end_ ≤ nowEpoch := by
  rw [pairIntervals_eq] at h
  obtain ⟨run, -, hrun⟩ := List.mem_filterMap.mp h
  obtain ⟨hstart, hlt, hend, -⟩ := Run.clip_eq_some windowStart nowEpoch hrun
  exact ⟨hstart, hlt, hend⟩

/-- The runs of live processes end where the live table was last confirmed. -/
theorem liveRuns_until {run : Run}
    (h : run ∈ liveRuns epochSeconds (confirmedUntil nowEpoch observedUntil) active events) :
    ∀ until_ ∈ observedUntil, run.end_ ≤ until_ := by
  intro until_ huntil
  have hend : run.end_ = confirmedUntil nowEpoch observedUntil := by
    rcases List.mem_append.mp h with hopen | hseed
    · obtain ⟨entry, -, hrun⟩ := List.mem_filterMap.mp hopen
      unfold openRun at hrun
      split at hrun
      · exact (Option.some.inj hrun) ▸ rfl
      · cases hrun
    · obtain ⟨entry, -, hrun⟩ := List.mem_filterMap.mp hseed
      unfold seedRun at hrun
      split at hrun
      · cases hrun
      · obtain ⟨anchored, -, rfl⟩ := Option.map_eq_some_iff.mp hrun
        rfl
  obtain rfl := Option.mem_def.mp huntil
  rw [hend]
  exact min_le_right _ _

/-- What an owner occupies grows when the window begins earlier. -/
theorem occupied_earlier (owner : Option String) {earlierStart : ℚ}
    (hle : earlierStart ≤ windowStart) :
    occupied (ownerRuns epochSeconds windowStart nowEpoch events active observedUntil owner)
      ⊆ occupied (ownerRuns epochSeconds earlierStart nowEpoch events active observedUntil
          owner) := by
  rintro x ⟨interval, hmem, hstart, hend⟩
  obtain ⟨hmem, howner⟩ := List.mem_filter.mp hmem
  rw [pairIntervals_eq] at hmem
  obtain ⟨run, hrun, hclip⟩ := List.mem_filterMap.mp hmem
  obtain ⟨longer, hlonger, howner', hstart', hend'⟩ :=
    Run.clip_earlier windowStart nowEpoch hle hclip
  refine ⟨longer, List.mem_filter.mpr ⟨?_, by rw [howner']; exact howner⟩, ?_, ?_⟩
  · rw [pairIntervals_eq]
    exact List.mem_filterMap.mpr ⟨run, hrun, hlonger⟩
  · exact le_trans (by exact_mod_cast hstart') hstart
  · rw [hend']
    exact hend

/-- What an owner occupies lies in the window. -/
theorem occupied_window (owner : Option String) :
    occupied (ownerRuns epochSeconds windowStart nowEpoch events active observedUntil owner)
      ⊆ Set.Icc (windowStart : ℝ) nowEpoch := by
  rintro x ⟨interval, hmem, hstart, hend⟩
  obtain ⟨hinside, -, hinside'⟩ := pairIntervals_inside epochSeconds windowStart nowEpoch events
    active observedUntil (List.mem_filter.mp hmem).1
  exact ⟨le_trans (by exact_mod_cast hinside) hstart, hend.trans (by exact_mod_cast hinside')⟩

/-- The merged runs of an owner on a device: separated, covering what the runs cover, and with
as many seconds as the measure of that. -/
theorem mergeIntervals_ownerRuns (owner : Option String) :
    Separated (mergeIntervals
        (ownerRuns epochSeconds windowStart nowEpoch events active observedUntil owner))
      ∧ occupied (mergeIntervals
          (ownerRuns epochSeconds windowStart nowEpoch events active observedUntil owner))
        = occupied (ownerRuns epochSeconds windowStart nowEpoch events active observedUntil owner)
      ∧ 0 ≤ spanSeconds (mergeIntervals
          (ownerRuns epochSeconds windowStart nowEpoch events active observedUntil owner))
      ∧ ENNReal.ofReal (spanSeconds (mergeIntervals
          (ownerRuns epochSeconds windowStart nowEpoch events active observedUntil owner)))
        = volume (occupied
            (ownerRuns epochSeconds windowStart nowEpoch events active observedUntil owner)) := by
  have hforward : Forward
      (ownerRuns epochSeconds windowStart nowEpoch events active observedUntil owner) :=
    fun interval hmem => (pairIntervals_inside epochSeconds windowStart nowEpoch events active
      observedUntil (List.mem_filter.mp hmem).1).2.1.le
  obtain ⟨hforward', hseparated, hoccupied⟩ := mergeIntervals_spec hforward
  refine ⟨hseparated, hoccupied, spanSeconds_nonneg hforward', ?_⟩
  rw [← hoccupied]
  exact (volume_occupied hforward' hseparated).symm

/-- Seconds that are not negative and a smaller measure. -/
theorem le_of_ofReal_le {first second : ℚ} (hsecond : 0 ≤ second)
    (h : ENNReal.ofReal first ≤ ENNReal.ofReal second) : first ≤ second := by
  rw [ENNReal.ofReal_le_ofReal_iff (by exact_mod_cast hsecond)] at h
  exact_mod_cast h

/-- The window bounds the seconds of an owner. -/
theorem spanSeconds_le_window (owner : Option String) :
    spanSeconds (mergeIntervals
        (ownerRuns epochSeconds windowStart nowEpoch events active observedUntil owner))
      ≤ max 0 (nowEpoch - windowStart) := by
  obtain ⟨-, -, -, hmeasure⟩ := mergeIntervals_ownerRuns epochSeconds windowStart nowEpoch events
    active observedUntil owner
  refine le_of_ofReal_le (le_max_left _ _) ?_
  calc ENNReal.ofReal (spanSeconds _)
      = volume (occupied _) := hmeasure
    _ ≤ volume (Set.Icc (windowStart : ℝ) nowEpoch) := measure_mono (occupied_window ..)
    _ = ENNReal.ofReal (nowEpoch - windowStart) := Real.volume_Icc
    _ ≤ ENNReal.ofReal ((max 0 (nowEpoch - windowStart) : ℚ) : ℝ) := by
        refine ENNReal.ofReal_le_ofReal ?_
        rw [Rat.cast_max, Rat.cast_sub]
        exact le_max_right _ _

/-- An earlier window start does not decrease the seconds of an owner. -/
theorem spanSeconds_earlier (owner : Option String) {earlierStart : ℚ}
    (hle : earlierStart ≤ windowStart) :
    spanSeconds (mergeIntervals
        (ownerRuns epochSeconds windowStart nowEpoch events active observedUntil owner))
      ≤ spanSeconds (mergeIntervals
          (ownerRuns epochSeconds earlierStart nowEpoch events active observedUntil owner)) := by
  obtain ⟨-, -, -, hmeasure⟩ := mergeIntervals_ownerRuns epochSeconds windowStart nowEpoch events
    active observedUntil owner
  obtain ⟨-, -, hnonneg, hmeasure'⟩ := mergeIntervals_ownerRuns epochSeconds earlierStart nowEpoch
    events active observedUntil owner
  refine le_of_ofReal_le hnonneg ?_
  rw [hmeasure, hmeasure']
  exact measure_mono (occupied_earlier epochSeconds windowStart nowEpoch events active
    observedUntil owner hle)

end Pairing

/-! ### The report -/

section Report

variable {epochSeconds : String → Option ℚ} {iso : ℚ → String} {now : ℚ}
  {windowHours ownerLimit : ℕ} {busyPct : ℚ} {eventCap : Option ℕ}
  {classifier : Option (List Interval → GpuKey → List Interval)}

/-- The begin and the end of an interval. -/
abbrev Interval.span (interval : Interval) : ℚ × ℚ := (interval.start, interval.end_)

/-- A classifier splits the seconds of intervals and leaves when they begin and end. -/
def KeepsSpans (classifier : Option (List Interval → GpuKey → List Interval)) : Prop :=
  ∀ classify ∈ classifier, ∀ intervals key,
    (classify intervals key).map Interval.span = intervals.map Interval.span

/-- The report of the store classifies by samples, the report of the history by hours. -/
theorem keepsSpans_none : KeepsSpans none := by
  simp [KeepsSpans]

theorem keepsSpans_classifyHourly (buckets : GpuKey → List HourBucket) :
    KeepsSpans (some fun intervals key => classifyHourly (buckets key) intervals) := by
  intro classify hclassify intervals key
  obtain rfl := Option.some.inj hclassify
  show (classifyHourly (buckets key) intervals).map Interval.span = _
  unfold classifyHourly
  split
  · rfl
  · rw [List.map_map]
    rfl

theorem spanSeconds_congr {l l' : List Interval} (h : l.map Interval.span = l'.map Interval.span) :
    spanSeconds l = spanSeconds l' := by
  have hsum : ∀ l : List Interval,
      spanSeconds l = ((l.map Interval.span).map fun span => span.2 - span.1).sum := by
    intro l
    rw [List.map_map]
    rfl
  rw [hsum, hsum, h]

variable {points : List IdleSample} {totals after : UsageTotals}

/-- The classification by samples leaves when the intervals begin and end. -/
theorem classify_spans {intervals classified : List Interval}
    (h : classify intervals points = .ok classified) :
    classified.map Interval.span = intervals.map Interval.span := by
  unfold classify at h
  split at h
  · rw [Except.ok.inj h]
  · obtain ⟨samples, -, h⟩ := bind_eq_ok.mp h
    obtain rfl := Except.ok.inj h
    rw [List.map_map]
    refine List.map_congr_left fun interval _ => ?_
    simp only [Function.comp, classifyInterval]
    split <;> rfl

/-- The GPU seconds counted for an owner so far. -/
def UsageTotals.seconds (totals : UsageTotals) (owner : Option String) : ℚ :=
  (totals.owners.getD owner {}).gpuSeconds

/-- One owner of a device is added: its merged intervals, with the begins and ends they have. -/
theorem addOwner_spec (hclassifier : KeepsSpans classifier) {key : GpuKey}
    {entry : Option String × List Interval}
    (h : addOwner classifier key points totals entry = .ok after) :
    ∃ merged : List Interval,
      merged.map Interval.span = (mergeIntervals entry.2).map Interval.span
        ∧ after = { totals with
          owners := totals.owners.set entry.1 ((totals.owners.getD entry.1 {}).addSeconds merged)
          merged := totals.merged ++ [(entry.1, merged)] } := by
  cases classifier with
  | some classify => exact ⟨_, hclassifier classify rfl _ key, (Except.ok.inj h).symm⟩
  | none =>
    have hbind : classify (mergeIntervals entry.2) points >>= _ = .ok after := h
    obtain ⟨merged, hmerged, h⟩ := bind_eq_ok.mp hbind
    exact ⟨merged, classify_spans hmerged, (Except.ok.inj h).symm⟩

/-- One owner of a device is added. -/
theorem addOwner_seconds (hclassifier : KeepsSpans classifier) {key : GpuKey}
    {entry : Option String × List Interval}
    (h : addOwner classifier key points totals entry = .ok after) (owner : Option String) :
    after.seconds owner = totals.seconds owner
      + if entry.1 = owner then spanSeconds (mergeIntervals entry.2) else 0 := by
  obtain ⟨merged, hspans, rfl⟩ := addOwner_spec hclassifier h
  rw [← spanSeconds_congr hspans]
  by_cases howner : entry.1 = owner
  · subst howner
    simp [UsageTotals.seconds, Dict.getD_eq, OwnerUsage.addSeconds, spanSeconds]
  · have hother : ¬ owner = entry.1 := fun h => howner h.symm
    simp [UsageTotals.seconds, Dict.getD_eq, howner, hother]

/-- The owners of a device are added. -/
theorem addOwners_seconds (hclassifier : KeepsSpans classifier) {key : GpuKey}
    {byOwner : Dict (Option String) (List Interval)}
    (h : byOwner.entries.foldlM (addOwner classifier key points) totals = .ok after)
    (owner : Option String) :
    after.seconds owner
      = totals.seconds owner + spanSeconds (mergeIntervals (byOwner.getD owner [])) := by
  have hfold : ∀ (entries : List (Option String × List Interval)) (totals : UsageTotals),
      (entries.map Prod.fst).Nodup →
      entries.foldlM (addOwner classifier key points) totals = .ok after →
      after.seconds owner = totals.seconds owner
        + spanSeconds (mergeIntervals ((Dict.lookup owner entries).getD [])) := by
    intro entries
    induction entries with
    | nil =>
      intro totals _ h
      obtain rfl := Except.ok.inj h
      simp [Dict.lookup, mergeIntervals, spanSeconds]
    | cons entry rest ih =>
      intro totals hnodup h
      rw [List.foldlM_cons] at h
      obtain ⟨next, hnext, h⟩ := bind_eq_ok.mp h
      obtain ⟨hnew, hnodup⟩ := List.nodup_cons.mp hnodup
      rw [ih next hnodup h, addOwner_seconds hclassifier hnext owner, Dict.lookup]
      by_cases howner : entry.1 = owner
      · -- The owner has no further entry.
        subst howner
        rw [(Dict.lookup_eq_none_iff _ _).mpr hnew, if_pos rfl, if_pos rfl]
        simp [mergeIntervals, spanSeconds]
      · rw [if_neg howner, if_neg howner, add_zero]
  exact hfold byOwner.entries totals byOwner.nodup h

/-- Counting runs adds no seconds. -/
theorem countIntervals_seconds (key : GpuKey) (intervals : List Interval)
    (state : Dict (Option String) OwnerUsage × Dict (Option String) (List Interval))
    (owner : Option String) :
    ((intervals.foldl (countInterval key) state).1.getD owner {}).gpuSeconds
      = (state.1.getD owner {}).gpuSeconds := by
  induction intervals generalizing state with
  | nil => rfl
  | cons interval rest ih =>
    rw [List.foldl_cons, ih, countInterval, Dict.getD_eq, Dict.get?_set]
    split
    · next howner =>
      rw [howner]
      rfl
    · rfl

/-- A device adds the seconds of every owner's merged runs on it. -/
theorem addDevice_seconds (hclassifier : KeepsSpans classifier) {entry : GpuKey × DeviceUsage}
    (h : addDevice epochSeconds now windowHours busyPct eventCap classifier totals entry
      = .ok after) (owner : Option String) :
    after.seconds owner = totals.seconds owner + spanSeconds (mergeIntervals
      (ownedIntervals owner (deviceIntervals epochSeconds now windowHours entry.2))) := by
  obtain ⟨key, device⟩ := entry
  unfold addDevice at h
  generalize hpaired : pairIntervals epochSeconds (now - windowHours * 3600) now device.events
    device.active (device.observedUntil.bind epochSeconds) = paired at h
  obtain ⟨intervals, dropped, earliest⟩ := paired
  have hintervals : deviceIntervals epochSeconds now windowHours device = intervals := by
    rw [deviceIntervals, hpaired]
  simp only [hpaired] at h
  rw [hintervals]
  -- Whatever else is counted before the owners, it leaves their seconds.
  have hskip : ∀ count : UsageTotals, count.owners = totals.owners → intervals = [] →
      count.seconds owner
        = totals.seconds owner + spanSeconds (mergeIntervals (ownedIntervals owner intervals)) := by
    rintro count howners rfl
    simp [UsageTotals.seconds, howners, mergeIntervals, spanSeconds]
  have hadd : ∀ (base count : UsageTotals) (points : List IdleSample),
      base.owners = totals.owners →
      count.owners = (intervals.foldl (countInterval key) (base.owners, ∅)).1 →
      (intervals.foldl (countInterval key) (base.owners, ∅)).2.entries.foldlM
        (addOwner classifier key points) count = .ok after →
      after.seconds owner
        = totals.seconds owner + spanSeconds (mergeIntervals (ownedIntervals owner intervals)) := by
    intro base count points hbase howners h
    rw [addOwners_seconds hclassifier h owner, (getD_filed key intervals _ owner).1,
      UsageTotals.seconds, howners, countIntervals_seconds, hbase]
    rfl
  by_cases hnone : intervals = []
  · rw [if_pos hnone] at h
    obtain rfl := Except.ok.inj h
    refine hskip _ ?_ hnone
    cases earliest <;> (simp only; split <;> rfl)
  · rw [if_neg hnone] at h
    refine hadd _ _ _ ?_ rfl h
    cases (idleSamples epochSeconds busyPct device.utilization).head? <;> cases earliest
      <;> (simp only; split <;> rfl)

/-- The totals hold the seconds of every owner's merged runs over all devices. -/
theorem usageTotals_seconds (hclassifier : KeepsSpans classifier)
    {devices : Dict GpuKey DeviceUsage} {totals : UsageTotals}
    (h : usageTotals epochSeconds now windowHours busyPct eventCap classifier devices = .ok totals)
    (owner : Option String) :
    totals.seconds owner = (devices.entries.map fun entry => spanSeconds (mergeIntervals
      (ownedIntervals owner (deviceIntervals epochSeconds now windowHours entry.2)))).sum := by
  have hfold : ∀ (entries : List (GpuKey × DeviceUsage)) (before after : UsageTotals),
      entries.foldlM (addDevice epochSeconds now windowHours busyPct eventCap classifier) before
        = .ok after →
      after.seconds owner = before.seconds owner
        + (entries.map fun entry => spanSeconds (mergeIntervals
            (ownedIntervals owner (deviceIntervals epochSeconds now windowHours entry.2)))).sum := by
    intro entries
    induction entries with
    | nil =>
      intro before after h
      obtain rfl := Except.ok.inj h
      simp
    | cons entry rest ih =>
      intro before after h
      rw [List.foldlM_cons] at h
      obtain ⟨next, hnext, h⟩ := bind_eq_ok.mp h
      rw [ih next after h, addDevice_seconds hclassifier hnext, List.map_cons, List.sum_cons,
        add_assoc]
  have hsum := hfold _ _ _ h
  rw [((List.mergeSort_perm devices.entries gpuKeyLe).map _).sum_eq] at hsum
  rw [hsum]
  simp [UsageTotals.seconds, UsageTotals.init, Dict.getD_eq]

/-- The measure of a sum of seconds that are not negative. -/
theorem ofReal_sum {α : Type*} (f : α → ℚ) (l : List α) (hf : ∀ x ∈ l, 0 ≤ f x) :
    ENNReal.ofReal ((l.map f).sum : ℚ) = (l.map fun x => ENNReal.ofReal (f x)).sum := by
  induction l with
  | nil => simp
  | cons x rest ih =>
    obtain ⟨hx, hrest⟩ := List.forall_mem_cons.mp hf
    have hsum : 0 ≤ (rest.map f).sum := by
      refine List.sum_nonneg fun y hy => ?_
      obtain ⟨z, hz, rfl⟩ := List.mem_map.mp hy
      exact hrest z hz
    rw [List.map_cons, List.sum_cons, Rat.cast_add, ENNReal.ofReal_add, ih hrest, List.map_cons,
      List.sum_cons]
    · exact_mod_cast hx
    · exact_mod_cast hsum

/-- The seconds of an owner are the sum over the devices of what it occupied on each. -/
theorem seconds_eq_measure (hclassifier : KeepsSpans classifier)
    {devices : Dict GpuKey DeviceUsage} {totals : UsageTotals}
    (h : usageTotals epochSeconds now windowHours busyPct eventCap classifier devices = .ok totals)
    (owner : Option String) :
    0 ≤ totals.seconds owner
      ∧ ENNReal.ofReal (totals.seconds owner) = (devices.entries.map fun device => volume
          (occupied (ownedIntervals owner
            (deviceIntervals epochSeconds now windowHours device.2)))).sum := by
  have howner := fun device : GpuKey × DeviceUsage => mergeIntervals_ownerRuns epochSeconds
    (now - windowHours * 3600) now device.2.events device.2.active
    (device.2.observedUntil.bind epochSeconds) owner
  rw [usageTotals_seconds hclassifier h owner]
  constructor
  · refine List.sum_nonneg fun x hx => ?_
    obtain ⟨device, -, rfl⟩ := List.mem_map.mp hx
    exact (howner device).2.2.1
  · rw [ofReal_sum _ _ fun device _ => (howner device).2.2.1]
    exact congrArg List.sum (List.map_congr_left fun device _ => (howner device).2.2.2)

/-- Occupancy is the measure of a union. The runs of a device lie in the window, those of live
processes end where the table was last confirmed, and for every owner the merged runs are
separated, cover what the runs cover, and have the seconds of its measure, which the length of
the window bounds and an earlier window start does not decrease. What the report lists for an
owner is the rounded sum of these measures over the devices. -/
theorem occupancy_is_measure (hclassifier : KeepsSpans classifier) :
    (∀ (windowStart : ℚ) (events : List ProcessTransition) (active : Dict ProcessKey GpuProcess)
        (observedUntil : Option ℚ),
      (∀ interval ∈ (pairIntervals epochSeconds windowStart now events active observedUntil).1,
        windowStart ≤ interval.start ∧ interval.start < interval.end_ ∧ interval.end_ ≤ now)
      ∧ (∃ live, (pairIntervals epochSeconds windowStart now events active observedUntil).1
            = (paired epochSeconds windowStart now events).intervals ++ live
          ∧ ∀ interval ∈ live, ∀ until_ ∈ observedUntil, interval.end_ ≤ until_)
      ∧ ∀ owner,
          Separated (mergeIntervals
              (ownerRuns epochSeconds windowStart now events active observedUntil owner))
            ∧ occupied (mergeIntervals
                (ownerRuns epochSeconds windowStart now events active observedUntil owner))
              = occupied
                (ownerRuns epochSeconds windowStart now events active observedUntil owner)
            ∧ 0 ≤ spanSeconds (mergeIntervals
                (ownerRuns epochSeconds windowStart now events active observedUntil owner))
            ∧ ENNReal.ofReal (spanSeconds (mergeIntervals
                (ownerRuns epochSeconds windowStart now events active observedUntil owner)))
              = volume (occupied
                (ownerRuns epochSeconds windowStart now events active observedUntil owner))
            ∧ spanSeconds (mergeIntervals
                (ownerRuns epochSeconds windowStart now events active observedUntil owner))
              ≤ max 0 (now - windowStart)
            ∧ ∀ earlierStart ≤ windowStart,
                spanSeconds (mergeIntervals
                    (ownerRuns epochSeconds windowStart now events active observedUntil owner))
                  ≤ spanSeconds (mergeIntervals
                    (ownerRuns epochSeconds earlierStart now events active observedUntil
                      owner)))
      ∧ ∀ (resolution : String) (devices : Dict GpuKey DeviceUsage) (document : UsageDocument),
          aggregateUsage epochSeconds iso now windowHours ownerLimit busyPct eventCap classifier
            resolution devices = .ok document →
          ∀ entry ∈ document.owners, ∃ seconds : ℚ, 0 ≤ seconds
            ∧ entry.gpuSeconds = roundDigits seconds 1
            ∧ ENNReal.ofReal seconds = (devices.entries.map fun device => volume (occupied
                (ownedIntervals entry.owner
                  (deviceIntervals epochSeconds now windowHours device.2)))).sum := by
  refine ⟨fun windowStart events active observedUntil => ⟨fun interval hmem => ?_, ?_, ?_⟩, ?_⟩
  · exact pairIntervals_inside epochSeconds windowStart now events active observedUntil hmem
  · refine ⟨(liveRuns epochSeconds (confirmedUntil now observedUntil) active events).filterMap
      (Run.clip windowStart now), ?_, fun interval hmem until_ huntil => ?_⟩
    · rw [pairIntervals_eq, deviceRuns, List.filterMap_append,
        (paired_spec epochSeconds windowStart now events).1]
    · obtain ⟨run, hrun, hclip⟩ := List.mem_filterMap.mp hmem
      exact (Run.clip_eq_some windowStart now hclip).2.2.2.trans
        (liveRuns_until epochSeconds now events active observedUntil hrun until_ huntil)
  · intro owner
    obtain ⟨hseparated, hoccupied, hnonneg, hmeasure⟩ := mergeIntervals_ownerRuns epochSeconds
      windowStart now events active observedUntil owner
    exact ⟨hseparated, hoccupied, hnonneg, hmeasure, spanSeconds_le_window .., fun _ hle =>
      spanSeconds_earlier epochSeconds windowStart now events active observedUntil owner hle⟩
  · intro resolution devices document h entry hentry
    obtain ⟨totals, htotals, h⟩ := bind_eq_ok.mp h
    obtain rfl := Except.ok.inj h
    obtain ⟨listed, hlisted, rfl⟩ := List.mem_map.mp hentry
    obtain ⟨hnonneg, hmeasure⟩ := seconds_eq_measure hclassifier htotals listed.1
    have hget : totals.owners.get? listed.1 = some listed.2 :=
      (Dict.get?_eq_some_iff _ _ _).mpr (List.mem_mergeSort.mp (List.mem_of_mem_take hlisted))
    refine ⟨totals.seconds listed.1, hnonneg, ?_, hmeasure⟩
    show roundDigits listed.2.gpuSeconds 1 = _
    rw [UsageTotals.seconds, Dict.getD_eq, hget, Option.getD_some]

/-- The times at which two processes are first seen. -/
private def firstSeen (text : String) : Option ℚ := if text = "first" then some 600 else some 1200

/-- Two processes that the live table holds without a start. -/
private def overlapping : Dict ProcessKey GpuProcess :=
  Dict.ofList [
    ((7, "python"), { pid := 7, name := "python", usedMemoryMib := none,
                      firstSeenAt := some "first" }),
    ((8, "python"), { pid := 8, name := "python", usedMemoryMib := none,
                      firstSeenAt := some "second" })]

/-- The runs overlap, and what they occupy together is counted once. -/
theorem occupancy_is_measure_overlapping :
    ((ownerRuns firstSeen 0 3600 [] overlapping (some 1800) none).map fun interval =>
        (interval.start, interval.end_)) = [(600, 1800), (1200, 1800)]
      ∧ volume (occupied (ownerRuns firstSeen 0 3600 [] overlapping (some 1800) none))
        = ENNReal.ofReal ((1200 : ℚ) : ℝ) := by
  have hmeasure := (((@occupancy_is_measure firstSeen (fun _ => "") 3600 1 10 5 none
    (some fun intervals key => classifyHourly ((fun _ => []) key) intervals)
    (keepsSpans_classifyHourly fun _ => [])).1 0 [] overlapping (some 1800)).2.2 none).2.2.2.1
  have hspan : spanSeconds (mergeIntervals
      (ownerRuns firstSeen 0 3600 [] overlapping (some 1800) none)) = 1200 := by
    rw [mergeIntervals, List.mergeSort_of_pairwise (by decide +kernel)]
    decide +kernel
  rw [hspan] at hmeasure
  exact ⟨by decide +kernel, hmeasure.symm⟩

end Report

end Mocop
