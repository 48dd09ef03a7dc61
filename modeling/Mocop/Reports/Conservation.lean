import Mocop.Reports.Union
import Mocop.Lib.Totals

/-!
# `Mocop.Reports.Conservation`: the history report conserves time

The report classifies the runs by the hours of the rollup and splits them by day. Both walk along
computed boundaries. `classifyHourly_eq_naive` says that the walk over the hours adds up the
overlaps of the interval with every hour, and `history_conserves_time` that the split gives every
UTC day the seconds that an owner's intervals have in it, no second lost and none counted twice.

The split ends because every segment but the last one ends a day: that is the termination
argument of `splitSegment`.
-/

set_option autoImplicit false

namespace Mocop

/-! ### Hours -/

/-- The hours of a device, in order: no two of them overlap. -/
abbrev HourSpaced (buckets : List HourBucket) : Prop :=
  buckets.Pairwise fun a b => a.1 + 3600 ≤ b.1

/-- The seconds that an interval shares with an hour, if the hour has utilization samples. -/
def HourBucket.shared (interval : Interval) (bucket : HourBucket) : ℚ :=
  if 0 < bucket.2.1 then overlap interval.start interval.end_ bucket.1 (bucket.1 + 3600) else 0

/-- The idle ones among them: the share of the samples that are not busy. -/
def HourBucket.idle (interval : Interval) (bucket : HourBucket) : ℚ :=
  HourBucket.shared interval bucket * (1 - bucket.2.2 / bucket.2.1)

section Hours

variable {interval : Interval} {buckets : List HourBucket}

/-- A bucket adds what the interval shares with its hour. -/
theorem addBucket_eq (interval : Interval) (seconds : ℚ × ℚ) (bucket : HourBucket) :
    addBucket interval seconds bucket
      = (seconds.1 + HourBucket.shared interval bucket,
          seconds.2 + HourBucket.idle interval bucket) := by
  unfold addBucket HourBucket.idle HourBucket.shared overlap
  dsimp only
  by_cases hsamples : 0 < bucket.2.1
  · rw [if_pos hsamples]
    by_cases hshared : 0 < min interval.end_ (bucket.1 + 3600) - max interval.start bucket.1
    · rw [if_pos ⟨hshared, hsamples⟩, max_eq_right hshared.le]
    · rw [if_neg fun h => hshared h.1, max_eq_left (not_lt.mp hshared)]
      simp
  · rw [if_neg fun h => hsamples h.2, if_neg hsamples]
    simp

/-- Buckets add the sums of what the interval shares with their hours. -/
theorem foldl_addBucket (interval : Interval) (buckets : List HourBucket) (seconds : ℚ × ℚ) :
    buckets.foldl (addBucket interval) seconds
      = (seconds.1 + (buckets.map (HourBucket.shared interval)).sum,
          seconds.2 + (buckets.map (HourBucket.idle interval)).sum) := by
  induction buckets generalizing seconds with
  | nil => simp
  | cons bucket rest ih =>
    rw [List.foldl_cons, ih, addBucket_eq]
    simp only [List.map_cons, List.sum_cons, add_assoc]

/-- An hour that ends before the interval or begins after it shares nothing with it. -/
theorem HourBucket.shared_eq_zero {bucket : HourBucket}
    (h : bucket.1 + 3600 ≤ interval.start ∨ interval.end_ ≤ bucket.1) :
    HourBucket.shared interval bucket = 0 := by
  unfold HourBucket.shared overlap
  split
  · refine max_eq_left ?_
    rcases h with hended | hbegun
    · have hmin := min_le_right interval.end_ (bucket.1 + 3600)
      have hmax := le_max_left interval.start bucket.1
      linarith
    · have hmin := min_le_left interval.end_ (bucket.1 + 3600)
      have hmax := le_max_right interval.start bucket.1
      linarith
  · rfl

/-- The hours before the one where the search starts end before the interval. -/
theorem ended_before_search (hspaced : HourSpaced buckets) {start : ℚ} {bucket : HourBucket}
    (h : bucket ∈ buckets.take (bisectLeft (buckets.map (·.1)) start - 1)) :
    bucket.1 + 3600 ≤ start := by
  obtain ⟨i, hi, rfl⟩ := List.getElem_of_mem h
  rw [List.getElem_take]
  rw [List.length_take] at hi
  have hbegins := List.takeWhile_prefix (fun x => decide (x < start)) (l := buckets.map (·.1))
  have hlength := hbegins.length_le
  rw [List.length_map] at hlength
  -- The hour in front of the search still begins before the interval.
  have hlast : bisectLeft (buckets.map (·.1)) start - 1
      < ((buckets.map (·.1)).takeWhile fun x => decide (x < start)).length := by
    show ((buckets.map (·.1)).takeWhile fun x => decide (x < start)).length - 1 < _
    unfold bisectLeft at hi
    omega
  have hbegun := List.mem_takeWhile_imp (List.getElem_mem hlast)
  rw [hbegins.getElem hlast, List.getElem_map, decide_eq_true_eq] at hbegun
  have hindex : bisectLeft (buckets.map (·.1)) start - 1 < buckets.length := by omega
  have hspace := List.pairwise_iff_getElem.mp hspaced i _ (by omega) hindex (by omega)
  exact hspace.trans hbegun.le

/-- The walk over the hours adds up the overlaps of an interval with every hour. -/
theorem walked_eq (hspaced : HourSpaced buckets) (share : HourBucket → ℚ)
    (hshare : ∀ bucket, HourBucket.shared interval bucket = 0 → share bucket = 0) :
    (((buckets.drop (bisectLeft (buckets.map (·.1)) interval.start - 1)).takeWhile fun bucket =>
        decide (bucket.1 < interval.end_)).map share).sum = (buckets.map share).sum := by
  have hnone : ∀ l : List HourBucket, (∀ bucket ∈ l, share bucket = 0) →
      (l.map share).sum = 0 := by
    intro l hl
    refine List.sum_eq_zero fun x hx => ?_
    obtain ⟨bucket, hbucket, rfl⟩ := List.mem_map.mp hx
    exact hl bucket hbucket
  generalize hposition : bisectLeft (buckets.map (·.1)) interval.start - 1 = position
  have hsorted : (buckets.drop position).Pairwise fun x y =>
      decide (y.1 < interval.end_) = true → decide (x.1 < interval.end_) = true := by
    refine (hspaced.sublist (List.drop_sublist _ _)).imp fun hle hlt => ?_
    rw [decide_eq_true_eq] at hlt ⊢
    linarith
  have hafter : ∀ bucket ∈ (buckets.drop position).dropWhile fun bucket =>
      decide (bucket.1 < interval.end_), share bucket = 0 := by
    intro bucket hbucket
    rw [(takeWhile_of_antitone hsorted).2] at hbucket
    have hbegun := (List.mem_filter.mp hbucket).2
    refine hshare _ (HourBucket.shared_eq_zero (Or.inr ?_))
    simpa using hbegun
  have hbefore : ∀ bucket ∈ buckets.take position, share bucket = 0 := by
    intro bucket hbucket
    rw [← hposition] at hbucket
    exact hshare _ (HourBucket.shared_eq_zero (Or.inl (ended_before_search hspaced hbucket)))
  calc (((buckets.drop position).takeWhile _).map share).sum
      = (((buckets.drop position).takeWhile _).map share).sum
        + (((buckets.drop position).dropWhile _).map share).sum := by rw [hnone _ hafter, add_zero]
    _ = ((buckets.drop position).map share).sum := by
        rw [← List.sum_append, ← List.map_append, List.takeWhile_append_dropWhile]
    _ = ((buckets.take position).map share).sum + ((buckets.drop position).map share).sum := by
        rw [hnone _ hbefore, zero_add]
    _ = (buckets.map share).sum := by
        rw [← List.sum_append, ← List.map_append, List.take_append_drop]

/-- The classification by hours adds up, for every interval, the overlaps with the hours that
have utilization samples. -/
theorem classifyHourly_eq_naive (hspaced : HourSpaced buckets) {intervals : List Interval}
    (hfresh : buckets = [] → ∀ interval ∈ intervals,
      interval.sampledSeconds = 0 ∧ interval.idleSeconds = 0) :
    classifyHourly buckets intervals = intervals.map fun interval => { interval with
      sampledSeconds := (buckets.map (HourBucket.shared interval)).sum
      idleSeconds := (buckets.map (HourBucket.idle interval)).sum } := by
  unfold classifyHourly
  split
  · next hempty =>
    subst hempty
    refine (List.map_id' intervals).symm.trans (List.map_congr_left fun interval hmem => ?_)
    obtain ⟨hsampled, hidle⟩ := hfresh rfl interval hmem
    exact (Interval.unclassified hsampled hidle).symm
  · refine List.map_congr_left fun interval _ => ?_
    have hidle : ∀ bucket, HourBucket.shared interval bucket = 0 →
        HourBucket.idle interval bucket = 0 := by
      intro bucket hnone
      rw [HourBucket.idle, hnone, zero_mul]
    dsimp only
    rw [foldl_addBucket, zero_add, zero_add, walked_eq hspaced _ fun _ h => h,
      walked_eq hspaced _ hidle]

end Hours

/-! ### Days -/

/-- The begin of the UTC day of a time. -/
def dayStart (epoch : ℚ) : ℚ := ⌊epoch / 86400⌋ * 86400

/-- The seconds of an owner on a day. -/
def DayTotals.on (days : DayTotals) (day : String) (owner : Option String) : ℚ :=
  (Dict.getD days day ∅).getD owner 0

/-- The seconds of an owner over all days. -/
def DayTotals.owned (days : DayTotals) (owner : Option String) : ℚ :=
  Dict.total days fun _ owners => owners.getD owner 0

/-- The sum over the intervals of an owner. -/
def ownerSum (owner : Option String) (f : Interval → ℚ)
    (merged : List (Option String × List Interval)) : ℚ :=
  (merged.map fun entry => if entry.1 = owner then (entry.2.map f).sum else 0).sum

theorem dayStart_le (epoch : ℚ) : dayStart epoch ≤ epoch := by
  have hfloor := Int.floor_le (epoch / 86400)
  unfold dayStart
  linarith

theorem lt_dayEnd (epoch : ℚ) : epoch < dayEnd epoch := by
  have hfloor := Int.lt_floor_add_one (epoch / 86400)
  unfold dayEnd
  linarith

/-- A later day begins when an earlier one has ended. -/
theorem dayEnd_le_dayStart {x y : ℚ} (h : ⌊x / 86400⌋ < ⌊y / 86400⌋) :
    dayEnd x ≤ dayStart y := by
  have hcast : (⌊x / 86400⌋ : ℚ) + 1 ≤ ⌊y / 86400⌋ := by exact_mod_cast h
  unfold dayEnd dayStart
  linarith

section Days

variable {dayOf : ℚ → String} {owner : Option String}

/-- What is added to a day counts for its owner on that day. -/
theorem DayTotals.on_add (days : DayTotals) (day : String) (added : Option String)
    (seconds : ℚ) (day' : String) (owner : Option String) :
    (days.add day added seconds).on day' owner
      = days.on day' owner + if day = day' ∧ added = owner then seconds else 0 := by
  unfold DayTotals.on DayTotals.add
  by_cases hday : day = day'
  · subst hday
    by_cases howner : added = owner
    · subst howner
      simp [Dict.getD_eq]
    · simp [Dict.getD_eq, howner, Ne.symm howner]
  · simp [Dict.getD_eq, hday, Ne.symm hday]

/-- What is added to a day counts for its owner. -/
theorem DayTotals.owned_add (days : DayTotals) (day : String) (added : Option String)
    (seconds : ℚ) (owner : Option String) :
    (days.add day added seconds).owned owner
      = days.owned owner + if added = owner then seconds else 0 := by
  unfold DayTotals.owned DayTotals.add
  rw [Dict.total_set]
  have hold : ((Dict.get? days day).map fun owners => owners.getD owner 0).getD 0
      = (Dict.getD days day ∅).getD owner 0 := by
    cases hget : Dict.get? days day <;> simp [Dict.getD_eq, hget]
  rw [hold]
  by_cases howner : added = owner
  · subst howner
    simp only [Dict.getD_eq, Dict.get?_set, if_true, Option.getD_some]
    ring
  · simp only [Dict.getD_eq, Dict.get?_set, if_neg (Ne.symm howner), if_neg howner]
    ring

/-- The first segment of a split and the rest share with every day what the whole shares. -/
theorem overlap_segment {cursor end_ : ℚ} (h : cursor < end_) (x : ℚ) :
    overlap cursor end_ (dayStart x) (dayEnd x)
      = (if ⌊cursor / 86400⌋ = ⌊x / 86400⌋ then min end_ (dayEnd cursor) - cursor else 0)
        + overlap (min end_ (dayEnd cursor)) end_ (dayStart x) (dayEnd x) := by
  have hbegun := dayStart_le cursor
  have hends := lt_dayEnd cursor
  unfold overlap
  rcases lt_trichotomy ⌊cursor / 86400⌋ ⌊x / 86400⌋ with hlt | heq | hgt
  · -- The day comes after the segment.
    have hlater := dayEnd_le_dayStart hlt
    rw [if_neg hlt.ne]
    grind
  · have hstart : dayStart cursor = dayStart x := by rw [dayStart, dayStart, heq]
    have hend : dayEnd cursor = dayEnd x := by rw [dayEnd, dayEnd, heq]
    rw [if_pos heq, ← hstart, ← hend]
    grind
  · -- The day came before it.
    have hearlier := dayEnd_le_dayStart hgt
    rw [if_neg hgt.ne']
    grind

/-- A split gives every day what the interval shares with it. The induction follows the
segments; the names of the days tell apart the days that the interval meets. -/
theorem on_splitSegment (added : Option String) (end_ cursor : ℚ) (days : DayTotals) {x : ℚ}
    (hday : ∀ t, cursor ≤ t → t < end_ → (dayOf t = dayOf x ↔ ⌊t / 86400⌋ = ⌊x / 86400⌋)) :
    (splitSegment dayOf added end_ cursor days).on (dayOf x) owner
      = days.on (dayOf x) owner
        + if added = owner then overlap cursor end_ (dayStart x) (dayEnd x) else 0 := by
  induction cursor, days using splitSegment.induct dayOf added end_ with
  | case1 cursor days hlt segmentEnd ih =>
    have hlater : cursor ≤ segmentEnd := le_min hlt.le (lt_dayEnd cursor).le
    rw [splitSegment, if_pos hlt]
    dsimp only
    rw [ih fun t ht => hday t (hlater.trans ht), DayTotals.on_add, overlap_segment hlt]
    simp only [hday cursor le_rfl hlt]
    by_cases howner : added = owner
    · simp only [howner, and_true, if_true]
      exact add_assoc ..
    · simp [howner]
  | case2 cursor days hge =>
    rw [splitSegment, if_neg hge]
    have hnone : overlap cursor end_ (dayStart x) (dayEnd x) = 0 := by
      unfold overlap
      grind
    simp [hnone]

/-- A split loses no seconds and counts none twice. -/
theorem owned_splitSegment (added : Option String) (end_ cursor : ℚ) (days : DayTotals) :
    (splitSegment dayOf added end_ cursor days).owned owner
      = days.owned owner + if added = owner then max 0 (end_ - cursor) else 0 := by
  induction cursor, days using splitSegment.induct dayOf added end_ with
  | case1 cursor days hlt segmentEnd ih =>
    have hends := lt_dayEnd cursor
    rw [splitSegment, if_pos hlt]
    dsimp only
    rw [ih, DayTotals.owned_add]
    by_cases howner : added = owner
    · simp only [howner, if_true]
      grind
    · simp [howner]
  | case2 cursor days hge =>
    rw [splitSegment, if_neg hge, max_eq_left (by linarith)]
    simp

/-- What folding the merged intervals adds to a reading that every split adds to. -/
theorem foldl_splitByDay (read : DayTotals → ℚ) {f : Interval → ℚ}
    {merged : List (Option String × List Interval)}
    (hsplit : ∀ entry ∈ merged, ∀ interval ∈ entry.2, ∀ days,
      read (splitSegment dayOf entry.1 interval.end_ interval.start days)
        = read days + if entry.1 = owner then f interval else 0) (days : DayTotals) :
    read (merged.foldl (splitByDay dayOf) days) = read days + ownerSum owner f merged := by
  have hintervals : ∀ (added : Option String) (intervals : List Interval) (days : DayTotals),
      (∀ interval ∈ intervals, ∀ days,
        read (splitSegment dayOf added interval.end_ interval.start days)
          = read days + if added = owner then f interval else 0) →
      read (splitByDay dayOf days (added, intervals))
        = read days + if added = owner then (intervals.map f).sum else 0 := by
    intro added intervals
    induction intervals with
    | nil => intro days _; simp [splitByDay]
    | cons interval rest ih =>
      intro days hall
      obtain ⟨hhead, hrest⟩ := List.forall_mem_cons.mp hall
      show read (splitByDay dayOf (splitSegment dayOf added interval.end_ interval.start days)
        (added, rest)) = _
      rw [ih _ hrest, hhead]
      by_cases howner : added = owner
      · simp only [howner, if_true, List.map_cons, List.sum_cons, add_assoc]
      · simp [howner]
  induction merged generalizing days with
  | nil => simp [ownerSum]
  | cons entry rest ih =>
    obtain ⟨hhead, hrest⟩ := List.forall_mem_cons.mp hsplit
    rw [List.foldl_cons, ih hrest, hintervals entry.1 entry.2 days hhead, add_assoc]
    rfl

end Days

/-! ### The report -/

section Report

variable {epochSeconds : String → Option ℚ} {iso dayOf : ℚ → String} {now : ℚ}
  {windowHours ownerLimit : ℕ} {busyPct : ℚ} {eventCap : Option ℕ}
  {classifier : Option (List Interval → GpuKey → List Interval)}

/-- The intervals handed to the sink lie in the window, and the seconds of every owner are the
sum of their lengths. -/
structure UsageTotals.Accounted (totals : UsageTotals) (windowStart now : ℚ) : Prop where
  inside : ∀ entry ∈ totals.merged, ∀ interval ∈ entry.2,
    windowStart ≤ interval.start ∧ interval.start ≤ interval.end_ ∧ interval.end_ ≤ now
  sums : ∀ owner, totals.seconds owner
    = ownerSum owner (fun interval => interval.end_ - interval.start) totals.merged

/-- The merged runs of an owner lie in the window. -/
theorem mergeIntervals_inside {windowStart : ℚ} {intervals : List Interval}
    (h : ∀ interval ∈ intervals,
      windowStart ≤ interval.start ∧ interval.start ≤ interval.end_ ∧ interval.end_ ≤ now)
    {interval : Interval} (hmem : interval ∈ mergeIntervals intervals) :
    windowStart ≤ interval.start ∧ interval.start ≤ interval.end_ ∧ interval.end_ ≤ now := by
  obtain ⟨hforward, -, hoccupied⟩ := mergeIntervals_spec fun i hi => (h i hi).2.1
  have hle := hforward interval hmem
  have hcast : (interval.start : ℝ) ≤ interval.end_ := by exact_mod_cast hle
  -- Both ends of a merged interval are covered by a run.
  have hcovered : ∀ x : ℝ, (interval.start : ℝ) ≤ x → x ≤ interval.end_ →
      (windowStart : ℝ) ≤ x ∧ x ≤ now := by
    intro x hstart hend
    have hx : x ∈ occupied intervals := hoccupied ▸ ⟨interval, hmem, hstart, hend⟩
    obtain ⟨run, hrun, hbegun, hended⟩ := hx
    obtain ⟨hinside, -, hinside'⟩ := h run hrun
    exact ⟨le_trans (by exact_mod_cast hinside) hbegun,
      hended.trans (by exact_mod_cast hinside')⟩
  have hfirst := (hcovered _ le_rfl hcast).1
  have hlast := (hcovered _ hcast le_rfl).2
  exact ⟨by exact_mod_cast hfirst, hle, by exact_mod_cast hlast⟩

/-- Adding an owner keeps the accounts. -/
theorem addOwner_accounted (hclassifier : KeepsSpans classifier) {windowStart : ℚ} {key : GpuKey}
    {points : List IdleSample} {totals after : UsageTotals}
    {entry : Option String × List Interval}
    (hinside : ∀ interval ∈ entry.2,
      windowStart ≤ interval.start ∧ interval.start ≤ interval.end_ ∧ interval.end_ ≤ now)
    (htotals : totals.Accounted windowStart now)
    (h : addOwner classifier key points totals entry = .ok after) :
    after.Accounted windowStart now := by
  obtain ⟨merged, hspans, rfl⟩ := addOwner_spec hclassifier h
  constructor
  · refine List.forall_mem_append.mpr ⟨htotals.inside, List.forall_mem_singleton.mpr ?_⟩
    intro interval hmem
    have hspan : interval.span ∈ (mergeIntervals entry.2).map Interval.span :=
      hspans ▸ List.mem_map_of_mem hmem
    obtain ⟨listed, hlisted, heq⟩ := List.mem_map.mp hspan
    obtain ⟨hstart, hend⟩ := Prod.mk.inj heq
    rw [← hstart, ← hend]
    exact mergeIntervals_inside hinside hlisted
  · intro owner
    rw [addOwner_seconds hclassifier h owner, ← spanSeconds_congr hspans, htotals.sums]
    simp [ownerSum, spanSeconds]

/-- The owner of no interval and the count of runs do not matter for the accounts. -/
theorem UsageTotals.Accounted.congr {totals other : UsageTotals} {windowStart : ℚ}
    (htotals : totals.Accounted windowStart now)
    (hseconds : ∀ owner, other.seconds owner = totals.seconds owner)
    (hmerged : other.merged = totals.merged) : other.Accounted windowStart now :=
  ⟨hmerged ▸ htotals.inside, fun owner => by rw [hseconds, hmerged, htotals.sums]⟩

/-- Adding a device keeps the accounts. -/
theorem addDevice_accounted (hclassifier : KeepsSpans classifier) {totals after : UsageTotals}
    {entry : GpuKey × DeviceUsage} (htotals : totals.Accounted (now - windowHours * 3600) now)
    (h : addDevice epochSeconds now windowHours busyPct eventCap classifier totals entry
      = .ok after) : after.Accounted (now - windowHours * 3600) now := by
  obtain ⟨key, device⟩ := entry
  unfold addDevice at h
  generalize hpaired : pairIntervals epochSeconds (now - windowHours * 3600) now device.events
    device.active (device.observedUntil.bind epochSeconds) = paired at h
  obtain ⟨intervals, dropped, earliest⟩ := paired
  have hwindow : ∀ interval ∈ intervals, now - windowHours * 3600 ≤ interval.start
      ∧ interval.start ≤ interval.end_ ∧ interval.end_ ≤ now := by
    intro interval hmem
    rw [← (Prod.mk.inj hpaired).1] at hmem
    obtain ⟨hstart, hlt, hend⟩ := pairIntervals_inside epochSeconds _ now device.events
      device.active _ hmem
    exact ⟨hstart, hlt.le, hend⟩
  have hadd : ∀ (base : UsageTotals) (points : List IdleSample),
      base.owners = totals.owners → base.merged = totals.merged →
      (intervals.foldl (countInterval key) (base.owners, ∅)).2.entries.foldlM
        (addOwner classifier key points)
        { base with owners := (intervals.foldl (countInterval key) (base.owners, ∅)).1 }
          = .ok after →
      after.Accounted (now - windowHours * 3600) now := by
    intro base points howners hmerged h
    have hbase : UsageTotals.Accounted
        { base with owners := (intervals.foldl (countInterval key) (base.owners, ∅)).1 }
        (now - windowHours * 3600) now := by
      refine htotals.congr (fun owner => ?_) hmerged
      rw [UsageTotals.seconds, UsageTotals.seconds, countIntervals_seconds, howners]
    refine foldlM_invariant (fun state => state.Accounted (now - windowHours * 3600) now) ?_
      hbase h
    intro state owned howned next hstate hnext
    refine addOwner_accounted hclassifier (fun interval hmem => ?_) hstate hnext
    have hfiled := (getD_filed key intervals base.owners owned.1).1
    rw [Dict.getD_eq, (Dict.get?_eq_some_iff _ owned.1 owned.2).mpr howned, Option.getD_some]
      at hfiled
    rw [hfiled] at hmem
    exact hwindow interval (List.mem_of_mem_filter hmem)
  simp only [hpaired] at h
  by_cases hnone : intervals = []
  · rw [if_pos hnone] at h
    obtain rfl := Except.ok.inj h
    refine htotals.congr (fun owner => ?_) ?_ <;> cases earliest <;> (simp only; split <;> rfl)
  · rw [if_neg hnone] at h
    refine hadd _ _ ?_ ?_ h <;>
      cases (idleSamples epochSeconds busyPct device.utilization).head? <;> cases earliest
        <;> (simp only; split <;> rfl)

/-- The totals of a report are accounted for. -/
theorem usageTotals_accounted (hclassifier : KeepsSpans classifier)
    {devices : Dict GpuKey DeviceUsage} {totals : UsageTotals}
    (h : usageTotals epochSeconds now windowHours busyPct eventCap classifier devices
      = .ok totals) : totals.Accounted (now - windowHours * 3600) now := by
  refine foldlM_invariant (fun state => state.Accounted (now - windowHours * 3600) now)
    (fun _ _ _ _ hstate hnext => addDevice_accounted hclassifier hstate hnext) ?_ h
  exact ⟨fun _ hentry => absurd hentry List.not_mem_nil, fun _ => rfl⟩

/-- The history report conserves time. The classification by hours adds up the overlaps of
every interval with every hour. In the report, every owner has on every UTC day of the window
the seconds that its merged intervals share with that day, and over all days its total GPU
seconds. -/
theorem history_conserves_time
    (hday : ∀ a ∈ Set.Icc (now - windowHours * 3600) now,
      ∀ b ∈ Set.Icc (now - windowHours * 3600) now,
        (dayOf a = dayOf b ↔ ⌊a / 86400⌋ = ⌊b / 86400⌋)) :
    (∀ (buckets : List HourBucket) (intervals : List Interval), HourSpaced buckets →
      (buckets = [] → ∀ interval ∈ intervals,
        interval.sampledSeconds = 0 ∧ interval.idleSeconds = 0) →
      classifyHourly buckets intervals = intervals.map fun interval => { interval with
        sampledSeconds := (buckets.map (HourBucket.shared interval)).sum
        idleSeconds := (buckets.map (HourBucket.idle interval)).sum })
      ∧ ∀ (inputs : ReportInputs) (activeByGpu : Dict GpuKey (Dict ProcessKey GpuProcess))
          (observedUntilByGpu : Dict GpuKey String) (report : UsageDocument),
        usageReport epochSeconds iso dayOf now windowHours ownerLimit busyPct inputs activeByGpu
          observedUntilByGpu = .ok report →
        ∃ (totals : UsageTotals) (days : DayTotals),
          usageTotals epochSeconds now windowHours busyPct none
              (some fun intervals key =>
                classifyHourly (deviceBuckets epochSeconds inputs.hourly key) intervals)
              (reportDevices inputs activeByGpu observedUntilByGpu) = .ok totals
            ∧ report.owners = ((rankedOwners totals).take ownerLimit).map ownerEntry
            ∧ report.days
              = some ((days.entries.mergeSort fun a b => a.1 ≤ b.1).map usageDay)
            ∧ (∀ owner, ∀ x ∈ Set.Icc (now - windowHours * 3600) now,
              days.on (dayOf x) owner = ownerSum owner (fun interval =>
                overlap interval.start interval.end_ (dayStart x) (dayEnd x)) totals.merged)
            ∧ ∀ owner, days.owned owner = totals.seconds owner := by
  refine ⟨fun buckets intervals hspaced hfresh => classifyHourly_eq_naive hspaced hfresh, ?_⟩
  intro inputs activeByGpu observedUntilByGpu report h
  obtain ⟨totals, htotals, h⟩ := bind_eq_ok.mp h
  obtain rfl := Except.ok.inj h
  obtain ⟨hinside, hsums⟩ := usageTotals_accounted (keepsSpans_classifyHourly _) htotals
  refine ⟨totals, totals.merged.foldl (splitByDay dayOf) ∅, htotals, rfl, rfl, ?_, ?_⟩
  · intro owner x hx
    refine (foldl_splitByDay (fun days => days.on (dayOf x) owner)
      (fun entry hentry interval hinterval days => ?_) ∅).trans (zero_add _)
    obtain ⟨hstart, -, hend⟩ := hinside entry hentry interval hinterval
    exact on_splitSegment entry.1 _ _ days fun t ht ht' =>
      hday t ⟨hstart.trans ht, ht'.le.trans hend⟩ x hx
  · intro owner
    rw [hsums]
    refine (foldl_splitByDay (fun days => days.owned owner)
      (fun entry hentry interval hinterval days => ?_) ∅).trans (zero_add _)
    rw [owned_splitSegment, max_eq_right]
    linarith [(hinside entry hentry interval hinterval).2.1]

/-- The names of the first two days of 1970. -/
private def firstDays (epoch : ℚ) : String :=
  if epoch < 86400 then "1970-01-01" else "1970-01-02"

/-- A process that has been running since before midnight. -/
private def overMidnight : GpuProcess where
  pid := 7
  name := "python"
  usedMemoryMib := none
  firstSeenAt := some "1970-01-01T23:53:20Z"

/-- A history without records. -/
private def noHistory : ReportInputs := ⟨∅, [], 24⟩

private theorem firstDays_iff : ∀ a ∈ Set.Icc (86800 - ((1 : ℕ) : ℚ) * 3600) 86800,
    ∀ b ∈ Set.Icc (86800 - ((1 : ℕ) : ℚ) * 3600) 86800,
      (firstDays a = firstDays b ↔ ⌊a / 86400⌋ = ⌊b / 86400⌋) := by
  have hfloor : ∀ a ∈ Set.Icc (86800 - ((1 : ℕ) : ℚ) * 3600) 86800,
      ⌊a / 86400⌋ = if a < 86400 then 0 else 1 := by
    rintro a ⟨hstart, hend⟩
    push_cast at hstart
    split
    · rw [Int.floor_eq_iff]
      constructor <;> push_cast <;> linarith
    · rw [Int.floor_eq_iff]
      constructor <;> push_cast <;> linarith
  intro a ha b hb
  rw [hfloor a ha, hfloor b hb]
  unfold firstDays
  split <;> split <;> simp

/-- A run over midnight: each day has its part, and both together have its seconds. -/
theorem history_conserves_time_firstDays :
    ∃ (report : UsageDocument) (totals : UsageTotals) (days : DayTotals),
      usageReport (fun _ => some 86000) (fun _ => "") firstDays 86800 1 10 5 noHistory
          (Dict.ofList [(("rack", "gpu"), Dict.ofList [((7, "python"), overMidnight)])]) ∅
        = .ok report
        ∧ (∀ owner, ∀ x ∈ Set.Icc (86800 - ((1 : ℕ) : ℚ) * 3600) 86800,
          days.on (firstDays x) owner = ownerSum owner (fun interval =>
            overlap interval.start interval.end_ (dayStart x) (dayEnd x)) totals.merged)
        ∧ ∀ owner, days.owned owner = totals.seconds owner := by
  obtain ⟨report, hreport⟩ : Returns (usageReport (fun _ => some 86000) (fun _ => "") firstDays
      86800 1 10 5 noHistory
      (Dict.ofList [(("rack", "gpu"), Dict.ofList [((7, "python"), overMidnight)])]) ∅) := by
    decide +kernel
  obtain ⟨totals, days, -, -, -, hon, howned⟩ :=
    (history_conserves_time firstDays_iff).2 _ _ _ report hreport
  exact ⟨report, totals, days, hreport, hon, howned⟩

end Report

end Mocop
