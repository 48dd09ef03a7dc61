import Mocop.Lib.Sorting
import Mocop.Reports.Usage
import Mathlib.Algebra.Order.BigOperators.Group.List
import Mathlib.Data.List.TakeWhile

/-!
# `Mocop.Reports.Classification`: what the classification by samples computes

`classify` sorts the samples of a device by comparing them. A comparison raises for two samples
of one time of which exactly one has a value, and `aggregateUsage_returns_iff` says that nothing
else makes the report fail.

Where it returns, it computes with prefix sums and binary searches what `secondsWithin` says
directly: the sum over the pairs of consecutive samples of the overlap with the interval
(`classify_eq_naive`). The segments that meet an interval are consecutive ones, only the first
of them begins before it and only the last ends after it.
-/

set_option autoImplicit false

namespace Mocop

/-! ### Sorting the samples -/

/-- Two samples compare: of one time both have a value, or neither has one. -/
def IdleSample.Compares (a b : IdleSample) : Prop := a.1 = b.1 → a.2.isSome = b.2.isSome

theorem IdleSample.Compares.symm {a b : IdleSample} (h : a.Compares b) : b.Compares a :=
  fun heq => (h heq.symm).symm

/-- A comparison returns for samples that compare. -/
theorem IdleSample.returns_lt_iff (a b : IdleSample) : Returns (a.lt b) ↔ a.Compares b := by
  obtain ⟨time, value⟩ := a
  obtain ⟨time', value'⟩ := b
  unfold IdleSample.lt IdleSample.Compares
  by_cases htime : time = time'
  · subst htime
    cases value <;> cases value' <;> simp
  · simp [htime]

/-- A sample that is less is not later. -/
theorem IdleSample.le_of_lt {a b : IdleSample} (h : a.lt b = .ok true) : a.1 ≤ b.1 := by
  unfold IdleSample.lt at h
  split at h
  · exact (of_decide_eq_true (Except.ok.inj h)).le
  · next heq => exact (not_not.mp heq).le

/-- A sample that is not less is not earlier. -/
theorem IdleSample.le_of_not_lt {a b : IdleSample} (h : a.lt b = .ok false) : b.1 ≤ a.1 := by
  unfold IdleSample.lt at h
  split at h
  · exact not_lt.mp (of_decide_eq_false (Except.ok.inj h))
  · next heq => exact (not_not.mp heq).ge

/-- Sorted by time. -/
abbrev TimeSorted (samples : List IdleSample) : Prop := samples.Pairwise fun a b => a.1 ≤ b.1

/-- A placed sample keeps the order. -/
theorem insertSample_sorted {sample : IdleSample} {samples placed : List IdleSample}
    (hsorted : TimeSorted samples) (h : insertSample sample samples = .ok placed) :
    placed.Perm (sample :: samples) ∧ TimeSorted placed := by
  induction samples generalizing placed with
  | nil =>
    obtain rfl := Except.ok.inj h
    exact ⟨List.Perm.refl _, List.pairwise_singleton _ _⟩
  | cons head rest ih =>
    obtain ⟨hhead, hrest⟩ := List.pairwise_cons.mp hsorted
    obtain ⟨less, hless, h⟩ := bind_eq_ok.mp h
    cases less with
    | true =>
      obtain rfl := Except.ok.inj h
      refine ⟨List.Perm.refl _, List.pairwise_cons.mpr ⟨fun x hx => ?_, hsorted⟩⟩
      have hle := IdleSample.le_of_lt hless
      rcases List.mem_cons.mp hx with rfl | hx
      · exact hle
      · exact hle.trans (hhead x hx)
    | false =>
      obtain ⟨later, hlater, h⟩ := bind_eq_ok.mp h
      obtain rfl := Except.ok.inj h
      obtain ⟨hperm, hsorted'⟩ := ih hrest hlater
      refine ⟨(hperm.cons head).trans (List.Perm.swap _ _ _),
        List.pairwise_cons.mpr ⟨fun x hx => ?_, hsorted'⟩⟩
      rcases List.mem_cons.mp (hperm.mem_iff.mp hx) with rfl | hx
      · exact IdleSample.le_of_not_lt hless
      · exact hhead x hx

variable {samples : List IdleSample}

/-- A sample is placed among samples that compare with each other when it compares with all. -/
theorem returns_insertSample_iff (sample : IdleSample) (hsorted : TimeSorted samples)
    (hcompare : samples.Pairwise IdleSample.Compares) :
    Returns (insertSample sample samples) ↔ ∀ other ∈ samples, sample.Compares other := by
  induction samples with
  | nil => simp [insertSample]
  | cons head rest ih =>
    obtain ⟨hhead, hrest⟩ := List.pairwise_cons.mp hsorted
    obtain ⟨hheads, hrests⟩ := List.pairwise_cons.mp hcompare
    rw [List.forall_mem_cons, ← IdleSample.returns_lt_iff, ← ih hrest hrests, insertSample,
      returns_bind_iff]
    constructor
    · rintro ⟨less, hless, h⟩
      refine ⟨⟨less, hless⟩, ?_⟩
      cases less with
      | true =>
        -- The rest is not compared, but it compares like the head does.
        rw [ih hrest hrests]
        intro other hother heq
        have hfirst := (IdleSample.returns_lt_iff sample head).mp ⟨true, hless⟩
        have htime : sample.1 = head.1 :=
          le_antisymm (IdleSample.le_of_lt hless) (heq ▸ hhead other hother)
        exact (hfirst htime).trans (hheads other hother (htime.symm.trans heq))
      | false =>
        obtain ⟨placed, hplaced, -⟩ := (returns_bind_iff _ _).mp h
        exact ⟨placed, hplaced⟩
    · rintro ⟨⟨less, hless⟩, ⟨placed, hplaced⟩⟩
      refine ⟨less, hless, ?_⟩
      cases less with
      | true => exact returns_pure _
      | false => exact (returns_bind_iff _ _).mpr ⟨placed, hplaced, returns_pure _⟩

/-- Sorted samples are the samples in the order of time. -/
theorem sortSamples_sorted {points samples : List IdleSample} (h : sortSamples points = .ok samples) :
    samples.Perm points ∧ TimeSorted samples := by
  have hfold : ∀ (rest sorted : List IdleSample), TimeSorted sorted →
      rest.foldlM (fun sorted sample => insertSample sample sorted) sorted = .ok samples →
      samples.Perm (rest ++ sorted) ∧ TimeSorted samples := by
    intro rest
    induction rest with
    | nil =>
      intro sorted hsorted h
      obtain rfl := Except.ok.inj h
      exact ⟨List.Perm.refl _, hsorted⟩
    | cons sample rest ih =>
      intro sorted hsorted h
      rw [List.foldlM_cons] at h
      obtain ⟨placed, hplaced, h⟩ := bind_eq_ok.mp h
      obtain ⟨hperm, hsorted'⟩ := insertSample_sorted hsorted hplaced
      obtain ⟨hall, hfinal⟩ := ih placed hsorted' h
      exact ⟨hall.trans ((hperm.append_left rest).trans List.perm_middle), hfinal⟩
  obtain ⟨hperm, hsorted⟩ := hfold points [] List.Pairwise.nil h
  exact ⟨hperm.trans (by rw [List.append_nil]), hsorted⟩

/-- The samples are sorted when they compare with each other. -/
theorem returns_sortSamples_iff (points : List IdleSample) :
    Returns (sortSamples points) ↔ points.Pairwise IdleSample.Compares := by
  have hfold : ∀ (rest sorted : List IdleSample), TimeSorted sorted →
      sorted.Pairwise IdleSample.Compares →
      (Returns (rest.foldlM (fun sorted sample => insertSample sample sorted) sorted)
        ↔ (sorted ++ rest).Pairwise IdleSample.Compares) := by
    intro rest
    induction rest with
    | nil =>
      intro sorted _ hcompare
      simpa using hcompare
    | cons sample rest ih =>
      intro sorted hsorted hcompare
      have hmoved : (sorted ++ sample :: rest).Pairwise IdleSample.Compares
          ↔ ((sample :: sorted) ++ rest).Pairwise IdleSample.Compares :=
        List.Perm.pairwise_iff (fun h => h.symm) List.perm_middle
      rw [List.foldlM_cons, returns_bind_iff, hmoved]
      constructor
      · rintro ⟨placed, hplaced, h⟩
        obtain ⟨hperm, hsorted'⟩ := insertSample_sorted hsorted hplaced
        have hall := (returns_insertSample_iff sample hsorted hcompare).mp ⟨placed, hplaced⟩
        have hcompare' : placed.Pairwise IdleSample.Compares :=
          (List.Perm.pairwise_iff (fun h => h.symm) hperm).mpr
            (List.pairwise_cons.mpr ⟨hall, hcompare⟩)
        exact (List.Perm.pairwise_iff (fun h => h.symm) (hperm.append_right rest)).mp
          ((ih placed hsorted' hcompare').mp h)
      · intro h
        have hfirst := (List.pairwise_append.mp h).1
        obtain ⟨placed, hplaced⟩ := (returns_insertSample_iff sample hsorted hcompare).mpr
          (List.pairwise_cons.mp hfirst).1
        obtain ⟨hperm, hsorted'⟩ := insertSample_sorted hsorted hplaced
        refine ⟨placed, hplaced, (ih placed hsorted' ?_).mpr ?_⟩
        · exact (List.Perm.pairwise_iff (fun h => h.symm) hperm).mpr hfirst
        · exact (List.Perm.pairwise_iff (fun h => h.symm) (hperm.append_right rest)).mpr h
  exact hfold points [] List.Pairwise.nil List.Pairwise.nil

/-- The classification returns when there is nothing to classify or the samples compare. -/
theorem returns_classify_iff (intervals : List Interval) (points : List IdleSample) :
    Returns (classify intervals points)
      ↔ intervals = [] ∨ points.Pairwise IdleSample.Compares := by
  unfold classify
  by_cases hskipped : points.length < 2 ∨ intervals = []
  · rw [if_pos hskipped]
    refine ⟨fun _ => ?_, fun _ => returns_ok _⟩
    rcases hskipped with hfew | hnone
    · right
      match points, hfew with
      | [], _ => exact List.Pairwise.nil
      | [point], _ => exact List.pairwise_singleton _ _
    · exact Or.inl hnone
  · rw [if_neg hskipped, returns_bind_of_forall fun _ => returns_pure _, returns_sortSamples_iff]
    exact ⟨Or.inr, fun h => h.resolve_left fun hnone => hskipped (Or.inr hnone)⟩

/-! ### The report -/

section Report

variable {epochSeconds : String → Option ℚ} {iso : ℚ → String} {now : ℚ}
  {windowHours ownerLimit : ℕ} {busyPct : ℚ} {eventCap : Option ℕ}
  {classifier : Option (List Interval → GpuKey → List Interval)}

/-- A merged interval stays. -/
theorem mergeInterval_ne_nil (merged : List Interval) (interval : Interval) :
    mergeInterval merged interval ≠ [] := by
  unfold mergeInterval
  split
  · split <;> simp
  · simp

variable {intervals : List Interval}

/-- The union of some intervals has an interval. -/
theorem mergeIntervals_ne_nil (h : intervals ≠ []) :
    mergeIntervals intervals ≠ [] := by
  have hfold : ∀ (rest merged : List Interval), merged ≠ [] →
      rest.foldl mergeInterval merged ≠ [] := by
    intro rest
    induction rest with
    | nil => exact fun merged hmerged => hmerged
    | cons interval rest ih => exact fun merged _ => ih _ (mergeInterval_ne_nil merged interval)
  unfold mergeIntervals
  generalize hsorted : intervals.mergeSort _ = sorted
  cases sorted with
  | nil =>
    have hlength := congrArg List.length hsorted
    rw [List.length_mergeSort, List.length_nil] at hlength
    exact absurd (List.length_eq_zero_iff.mp hlength) h
  | cons first rest => exact hfold rest _ (mergeInterval_ne_nil [] first)

/-- The runs of an owner are filed under it in order, and only owners of a run are filed. -/
theorem getD_filed (key : GpuKey) (intervals : List Interval)
    (owners : Dict (Option String) OwnerUsage) (owner : Option String) :
    (intervals.foldl (countInterval key) (owners, ∅)).2.getD owner []
        = intervals.filter (fun interval => interval.owner = owner)
      ∧ (((intervals.foldl (countInterval key) (owners, ∅)).2.get? owner).isSome
        ↔ ∃ interval ∈ intervals, interval.owner = owner) := by
  have hfold : ∀ (rest : List Interval)
      (state : Dict (Option String) OwnerUsage × Dict (Option String) (List Interval)),
      (rest.foldl (countInterval key) state).2.getD owner []
          = state.2.getD owner [] ++ rest.filter (fun interval => interval.owner = owner)
        ∧ (((rest.foldl (countInterval key) state).2.get? owner).isSome
          ↔ (state.2.get? owner).isSome ∨ ∃ interval ∈ rest, interval.owner = owner) := by
    intro rest
    induction rest with
    | nil => intro state; simp
    | cons interval rest ih =>
      intro state
      obtain ⟨hruns, hfiled⟩ := ih (countInterval key state interval)
      rw [List.foldl_cons, hruns, hfiled]
      by_cases howner : interval.owner = owner
      · subst howner
        simp [countInterval, Dict.getD_eq]
      · have hother : owner ≠ interval.owner := fun h => howner h.symm
        simp [countInterval, Dict.getD_eq, howner, hother]
  simpa [Dict.getD_eq] using hfold intervals (owners, ∅)

/-- Every owner filed has a run. -/
theorem filed_ne_nil {key : GpuKey} {owners : Dict (Option String) OwnerUsage}
    {entry : Option String × List Interval}
    (h : entry ∈ (intervals.foldl (countInterval key) (owners, ∅)).2.entries) : entry.2 ≠ [] := by
  have hget := (Dict.get?_eq_some_iff _ entry.1 entry.2).mpr h
  obtain ⟨hruns, hfiled⟩ := getD_filed key intervals owners entry.1
  obtain ⟨interval, hmem, howner⟩ := hfiled.mp (by rw [hget]; rfl)
  rw [Dict.getD_eq, hget, Option.getD_some] at hruns
  rw [hruns]
  exact List.ne_nil_of_mem (List.mem_filter.mpr ⟨hmem, decide_eq_true howner⟩)

/-- Some owner is filed when there is a run. -/
theorem filed_entries_ne_nil (key : GpuKey) (h : intervals ≠ [])
    (owners : Dict (Option String) OwnerUsage) :
    (intervals.foldl (countInterval key) (owners, ∅)).2.entries ≠ [] := by
  obtain ⟨interval, hmem⟩ := List.exists_mem_of_ne_nil _ h
  obtain ⟨runs, hget⟩ := Option.isSome_iff_exists.mp
    ((getD_filed key intervals owners interval.owner).2.mpr ⟨interval, hmem, rfl⟩)
  exact List.ne_nil_of_mem ((Dict.get?_eq_some_iff _ _ _).mp hget)

/-- One owner of a device is added when there is a classifier or the samples compare. -/
theorem returns_addOwner_iff (key : GpuKey) (points : List IdleSample) (totals : UsageTotals)
    {entry : Option String × List Interval} (h : entry.2 ≠ []) :
    Returns (addOwner classifier key points totals entry)
      ↔ classifier.isSome = true ∨ points.Pairwise IdleSample.Compares := by
  cases classifier with
  | some sql => simp [addOwner, Returns, bind, Except.bind, pure, Except.pure]
  | none =>
    show Returns (classify (mergeIntervals entry.2) points >>= fun merged => pure _) ↔ _
    rw [returns_bind_of_forall fun _ => returns_pure _, returns_classify_iff]
    simp [mergeIntervals_ne_nil h]

/-- The runs of a device. -/
abbrev deviceIntervals (epochSeconds : String → Option ℚ) (now : ℚ) (windowHours : ℕ)
    (device : DeviceUsage) : List Interval :=
  (pairIntervals epochSeconds (now - windowHours * 3600) now device.events device.active
    (device.observedUntil.bind epochSeconds)).1

/-- A device is added when it has no run, there is a classifier, or its samples compare. -/
theorem returns_addDevice_iff (totals : UsageTotals) (entry : GpuKey × DeviceUsage) :
    Returns (addDevice epochSeconds now windowHours busyPct eventCap classifier totals entry)
      ↔ deviceIntervals epochSeconds now windowHours entry.2 = [] ∨ classifier.isSome = true
        ∨ (idleSamples epochSeconds busyPct entry.2.utilization).Pairwise
            IdleSample.Compares := by
  obtain ⟨key, device⟩ := entry
  unfold addDevice
  -- The totals of the device never decide whether its owners can be added.
  generalize hpaired : pairIntervals epochSeconds (now - windowHours * 3600) now device.events
    device.active (device.observedUntil.bind epochSeconds) = paired
  obtain ⟨intervals, dropped, earliest⟩ := paired
  have hintervals : deviceIntervals epochSeconds now windowHours device = intervals := by
    rw [deviceIntervals, hpaired]
  simp only [hpaired, hintervals]
  by_cases hnone : intervals = []
  · simp [hnone]
  · rw [if_neg hnone, returns_foldlM_iff fun totals entry hentry =>
      returns_addOwner_iff key _ totals (filed_ne_nil hentry)]
    constructor
    · intro h
      obtain ⟨entry, hentry⟩ := List.exists_mem_of_ne_nil _ (filed_entries_ne_nil key hnone _)
      exact Or.inr (h entry hentry)
    · intro h _ _
      exact h.resolve_left hnone

/-- The report returns exactly when no device with a run in the window has two samples of one
time of which exactly one has a value. The classification alone fails on such samples too. -/
theorem aggregateUsage_returns_iff :
    (∀ (intervals : List Interval) (points : List IdleSample),
      Returns (classify intervals points)
        ↔ intervals = [] ∨ points.Pairwise fun a b => a.1 = b.1 → a.2.isSome = b.2.isSome)
      ∧ ∀ (resolution : String) (devices : Dict GpuKey DeviceUsage),
        Returns (aggregateUsage epochSeconds iso now windowHours ownerLimit busyPct eventCap
            classifier resolution devices)
          ↔ classifier.isSome = true ∨ ∀ entry ∈ devices.entries,
            deviceIntervals epochSeconds now windowHours entry.2 = []
              ∨ entry.2.utilization.Pairwise fun a b => ∀ epoch,
                  epochSeconds a.1 = some epoch → epochSeconds b.1 = some epoch →
                    a.2.isSome = b.2.isSome := by
  refine ⟨returns_classify_iff, fun resolution devices => ?_⟩
  have hsamples : ∀ utilization : List (String × Option ℚ),
      (idleSamples epochSeconds busyPct utilization).Pairwise IdleSample.Compares
        ↔ utilization.Pairwise fun a b => ∀ epoch,
            epochSeconds a.1 = some epoch → epochSeconds b.1 = some epoch →
              a.2.isSome = b.2.isSome := by
    intro utilization
    rw [idleSamples, List.pairwise_filterMap]
    refine List.Pairwise.iff fun a b => ?_
    simp only [Option.map_eq_some_iff, IdleSample.Compares]
    constructor
    · intro h epoch ha hb
      simpa using h _ ⟨epoch, ha, rfl⟩ _ ⟨epoch, hb, rfl⟩ rfl
    · rintro h _ ⟨epoch, ha, rfl⟩ _ ⟨epoch', hb, rfl⟩ rfl
      simpa using h epoch ha hb
  unfold aggregateUsage usageTotals
  rw [returns_bind_of_forall fun _ => returns_pure _,
    returns_foldlM_iff fun totals entry _ => returns_addDevice_iff totals entry]
  simp only [List.mem_mergeSort, hsamples]
  constructor
  · intro h
    by_cases hclassifier : classifier.isSome = true
    · exact Or.inl hclassifier
    · exact Or.inr fun entry hentry =>
        (h entry hentry).imp_right fun hrest => hrest.resolve_left hclassifier
  · rintro (hclassifier | h) entry hentry
    · exact Or.inr (Or.inl hclassifier)
    · exact (h entry hentry).imp_right Or.inr

/-- A run that fills the window of one hour. -/
private def wholeHour : ProcessTransition where
  observedAt := "first"
  event := "started"
  pid := 7
  name := "python"
  workload := none
  firstSeenAt := none

/-- A device that was sampled twice at one time, once without a value. -/
private def sampledTwice : DeviceUsage where
  events := [wholeHour, { wholeHour with observedAt := "last", event := "stopped" }]
  active := ∅
  observedUntil := none
  utilization := [("first", none), ("first", some 10)]

/-- Two samples of one time, of which one has no value, make the classification and the whole
report raise. -/
theorem sampledTwice_raises :
    ¬ Returns (classify [⟨0, 3600, none, "process", 0, 0⟩] [(0, none), (0, some false)])
      ∧ ¬ Returns (aggregateUsage (fun text => if text = "first" then some 0 else some 3600)
          (fun _ => "now") 3600 1 10 5 none none "sample"
          (Dict.ofList [(("host", "gpu"), sampledTwice)])) := by
  decide +kernel

end Report

/-! ### The classification by prefix sums -/

/-- The segments follow one another: each has a duration, and ends before the next begins. -/
structure Segment.Chained (segments : List Segment) : Prop where
  lasts : ∀ segment ∈ segments, segment.start < segment.end_
  follows : segments.Pairwise fun a b => a.end_ ≤ b.start

/-- The seconds that `[a, b]` and `[start, end_]` share. -/
def overlap (a b start end_ : ℚ) : ℚ := max 0 (min b end_ - max a start)

/-- `x` if the segment counts. -/
def Segment.counted (counts : Bool → Bool) (segment : Segment) (x : ℚ) : ℚ :=
  if counts segment.idle then x else 0

/-- The seconds that `[a, b]` shares with the segments that count. -/
def sharedSeconds (counts : Bool → Bool) (a b : ℚ) (segments : List Segment) : ℚ :=
  (segments.map fun segment =>
    segment.counted counts (overlap a b segment.start segment.end_)).sum

/-- The overlap of `[a, b]` with the stretches between consecutive samples that count: those
that are no longer than the gap bound and whose first sample has a value that counts. -/
def secondsWithin (counts : Bool → Bool) (a b : ℚ) (samples : List IdleSample) : ℚ :=
  ((samples.zip samples.tail).map fun pair =>
    if pair.1.2.any counts ∧ pair.2.1 - pair.1.1 ≤ maxSampleGapSeconds then
      overlap a b pair.1.1 pair.2.1
    else 0).sum

section Naive

variable {a b : ℚ} {segments : List Segment} (counts : Bool → Bool)

/-- An interval that is not classified has no seconds. -/
theorem Interval.unclassified {interval : Interval} (hsampled : interval.sampledSeconds = 0)
    (hidle : interval.idleSeconds = 0) :
    { interval with sampledSeconds := 0, idleSeconds := 0 } = interval := by
  obtain ⟨_, _, _, _, sampled, idle⟩ := interval
  change sampled = 0 at hsampled
  change idle = 0 at hidle
  rw [hsampled, hidle]

theorem overlap_nonneg (a b start end_ : ℚ) : 0 ≤ overlap a b start end_ := le_max_left _ _

/-- Samples of increasing times have chained segments, none before the first sample. -/
theorem segmentsOf_chained (hsorted : samples.Pairwise fun x y => x.1 < y.1) :
    Segment.Chained (segmentsOf samples)
      ∧ ∀ first ∈ samples.head?, ∀ segment ∈ segmentsOf samples, first.1 ≤ segment.start := by
  induction samples using segmentsOf.induct with
  | case1 => exact ⟨⟨by simp [segmentsOf], by simp [segmentsOf]⟩, by simp⟩
  | case2 => exact ⟨⟨by simp [segmentsOf], by simp [segmentsOf]⟩, by simp [segmentsOf]⟩
  | case3 start next rest ih =>
    obtain ⟨hhead, hrest⟩ := List.pairwise_cons.mp hsorted
    obtain ⟨hchained, hfirst⟩ := ih hrest
    rw [segmentsOf]
    refine ⟨hchained, fun first hmem segment hsegment => ?_⟩
    obtain rfl := Option.some.inj hmem
    exact (hhead next List.mem_cons_self).le.trans (hfirst next rfl segment hsegment)
  | case4 start next rest idle hskipped ih =>
    obtain ⟨hhead, hrest⟩ := List.pairwise_cons.mp hsorted
    obtain ⟨hchained, hfirst⟩ := ih hrest
    rw [segmentsOf, if_pos hskipped]
    refine ⟨hchained, fun first hmem segment hsegment => ?_⟩
    obtain rfl := Option.some.inj hmem
    exact (hhead next List.mem_cons_self).le.trans (hfirst next rfl segment hsegment)
  | case5 start next rest idle hkept ih =>
    obtain ⟨hhead, hrest⟩ := List.pairwise_cons.mp hsorted
    obtain ⟨hchained, hfirst⟩ := ih hrest
    have hnext := hhead next List.mem_cons_self
    rw [segmentsOf, if_neg hkept]
    refine ⟨⟨?_, List.pairwise_cons.mpr ⟨hfirst next rfl, hchained.follows⟩⟩, ?_⟩
    · exact List.forall_mem_cons.mpr ⟨hnext, hchained.lasts⟩
    · intro first hmem segment hsegment
      obtain rfl := Option.some.inj hmem
      rcases List.mem_cons.mp hsegment with rfl | hsegment
      · exact le_rfl
      · exact hnext.le.trans (hfirst next rfl segment hsegment)

theorem secondsWithin_cons (first next : IdleSample) (rest : List IdleSample) :
    secondsWithin counts a b (first :: next :: rest)
      = (if first.2.any counts ∧ next.1 - first.1 ≤ maxSampleGapSeconds then
          overlap a b first.1 next.1 else 0) + secondsWithin counts a b (next :: rest) := by
  simp [secondsWithin]

/-- The stretches that count are the segments that count. -/
theorem secondsWithin_eq_sum (hsorted : samples.Pairwise fun x y => x.1 < y.1) :
    secondsWithin counts a b samples = sharedSeconds counts a b (segmentsOf samples) := by
  induction samples using segmentsOf.induct with
  | case1 => rfl
  | case2 => rfl
  | case3 start next rest ih =>
    rw [secondsWithin_cons, if_neg (by simp), zero_add, segmentsOf,
      ih (List.pairwise_cons.mp hsorted).2]
  | case4 start next rest idle hskipped ih =>
    obtain ⟨hhead, hrest⟩ := List.pairwise_cons.mp hsorted
    have hgap : ¬ next.1 - start ≤ maxSampleGapSeconds :=
      not_le.mpr (hskipped.resolve_left (not_le.mpr (hhead next List.mem_cons_self)))
    rw [secondsWithin_cons, if_neg fun h => hgap h.2, zero_add, segmentsOf, if_pos hskipped,
      ih hrest]
  | case5 start next rest idle hkept ih =>
    have hgap : next.1 - start ≤ maxSampleGapSeconds := not_lt.mp (not_or.mp hkept).2
    rw [secondsWithin_cons, segmentsOf, if_neg hkept, sharedSeconds, List.map_cons, List.sum_cons,
      ih (List.pairwise_cons.mp hsorted).2]
    simp only [hgap, and_true, Option.any_some, Segment.counted, sharedSeconds]

/-- The shared seconds of segments are no more than what of `[a, b]` is not before them. -/
theorem sharedSeconds_le (hab : a ≤ b) (hchained : Segment.Chained segments) {t : ℚ}
    (ht : ∀ segment ∈ segments, t ≤ segment.start) :
    sharedSeconds counts a b segments ≤ max 0 (b - max a t) := by
  induction segments generalizing t with
  | nil => simp [sharedSeconds]
  | cons segment rest ih =>
    obtain ⟨hfollows, hrests⟩ := List.pairwise_cons.mp hchained.follows
    have hlasts := hchained.lasts segment List.mem_cons_self
    have hrest := ih ⟨fun s hs => hchained.lasts s (List.mem_cons_of_mem _ hs), hrests⟩ hfollows
    have hcounted : segment.counted counts (overlap a b segment.start segment.end_)
        ≤ overlap a b segment.start segment.end_ := by
      unfold Segment.counted
      split
      · exact le_rfl
      · exact overlap_nonneg ..
    have hsplit : overlap a b segment.start segment.end_ + max 0 (b - max a segment.end_)
        ≤ max 0 (b - max a t) := by
      have htstart := ht segment List.mem_cons_self
      unfold overlap
      grind
    rw [sharedSeconds, List.map_cons, List.sum_cons]
    unfold sharedSeconds at hrest
    linarith

/-- The shared seconds are not negative. -/
theorem sharedSeconds_nonneg (a b : ℚ) (segments : List Segment) :
    0 ≤ sharedSeconds counts a b segments := by
  refine List.sum_nonneg fun x hx => ?_
  obtain ⟨segment, -, rfl⟩ := List.mem_map.mp hx
  unfold Segment.counted
  split
  · exact overlap_nonneg ..
  · exact le_rfl

/-- An entry of the running sums is the sum of the values before it. -/
theorem getD_prefixSums (values : List ℚ) {k : ℕ} (hk : k ≤ values.length) :
    (prefixSums values).getD k 0 = (values.take k).sum := by
  have hscan : ∀ (values : List ℚ) (k : ℕ) (total : ℚ), k ≤ values.length →
      (values.scanl (· + ·) total).getD k 0 = total + (values.take k).sum := by
    intro values
    induction values with
    | nil =>
      intro k total hk
      obtain rfl := Nat.le_zero.mp hk
      simp
    | cons value rest ih =>
      intro k total hk
      cases k with
      | zero => simp
      | succ k =>
        have := ih k (total + value) (Nat.le_of_succ_le_succ hk)
        simp only [List.scanl_cons, List.getD_cons_succ, List.take_succ_cons, List.sum_cons]
        rw [this, add_assoc]
  rw [prefixSums, hscan values k 0 hk, zero_add]

/-- Values that satisfy `p` up to some point: the kept and the dropped part. -/
theorem takeWhile_of_antitone {α : Type*} {p : α → Bool} {l : List α}
    (h : l.Pairwise fun x y => p y = true → p x = true) :
    l.takeWhile p = l.filter p ∧ l.dropWhile p = l.filter fun x => !p x := by
  induction l with
  | nil => simp
  | cons x rest ih =>
    obtain ⟨hhead, hrest⟩ := List.pairwise_cons.mp h
    obtain ⟨htake, hdrop⟩ := ih hrest
    cases hx : p x with
    | true => simp [hx, htake, hdrop]
    | false =>
      have hnone : ∀ y ∈ rest, p y = false := fun y hy =>
        Bool.eq_false_iff.mpr fun hy' => by simp [hhead y hy hy'] at hx
      have hempty : rest.filter p = [] := List.filter_eq_nil_iff.mpr (by simpa using hnone)
      have hall : rest.filter (fun x => !p x) = rest :=
        List.filter_eq_self.mpr (by simpa using hnone)
      simp [hx, hempty, hall]

/-- The binary searches cut chained segments into those that end before the interval, those
that meet it, and those that begin after it. -/
theorem bisect_split (hchained : Segment.Chained segments) (a b : ℚ) :
    ∃ before within after : List Segment, segments = before ++ (within ++ after)
      ∧ (∀ segment ∈ before, segment.end_ ≤ a)
      ∧ (∀ segment ∈ within, a < segment.end_ ∧ segment.start < b)
      ∧ (∀ segment ∈ after, b ≤ segment.start)
      ∧ bisectRight (segments.map (·.end_)) a = before.length
      ∧ (within = [] → bisectLeft (segments.map (·.start)) b ≤ before.length)
      ∧ (within ≠ [] → bisectLeft (segments.map (·.start)) b = before.length + within.length) := by
  have hsegments : segments.Pairwise fun s t =>
      s.start < t.start ∧ s.end_ < t.end_ ∧ s.end_ ≤ t.start :=
    hchained.follows.imp_of_mem fun hs ht hle =>
      ⟨(hchained.lasts _ hs).trans_le hle, hle.trans_lt (hchained.lasts _ ht), hle⟩
  let ended : Segment → Bool := fun s => decide (s.end_ ≤ a)
  let begun : Segment → Bool := fun s => decide (s.start < b)
  have hended : segments.Pairwise fun s t => ended t = true → ended s = true :=
    hsegments.imp fun h ht => decide_eq_true (h.2.1.le.trans (of_decide_eq_true ht))
  have hbegun : segments.Pairwise fun s t => begun t = true → begun s = true :=
    hsegments.imp fun h ht => decide_eq_true (h.1.trans (of_decide_eq_true ht))
  let tail := segments.dropWhile ended
  have hsplit : segments = segments.takeWhile ended ++ (tail.takeWhile begun
      ++ tail.dropWhile begun) := by
    rw [List.takeWhile_append_dropWhile, List.takeWhile_append_dropWhile]
  have hbefore : ∀ s ∈ segments.takeWhile ended, ended s = true :=
    fun s hs => List.mem_takeWhile_imp hs
  have hwithin : ∀ s ∈ tail.takeWhile begun, begun s = true :=
    fun s hs => List.mem_takeWhile_imp hs
  have htail : ∀ s ∈ tail, ended s = false := by
    intro s hs
    rw [show tail = segments.filter fun x => !ended x from (takeWhile_of_antitone hended).2] at hs
    simpa using (List.mem_filter.mp hs).2
  have hafter : ∀ s ∈ tail.dropWhile begun, begun s = false := by
    intro s hs
    have hpair : tail.Pairwise fun s t => begun t = true → begun s = true :=
      hbegun.sublist (List.dropWhile_sublist ended)
    rw [(takeWhile_of_antitone hpair).2] at hs
    simpa using (List.mem_filter.mp hs).2
  have hlast : bisectLeft (segments.map (·.start)) b
      = ((segments.takeWhile ended).filter begun).length + (tail.takeWhile begun).length := by
    have hnothing : (tail.dropWhile begun).filter begun = [] :=
      List.filter_eq_nil_iff.mpr fun s hs => by rw [hafter s hs]; exact Bool.false_ne_true
    have hfilter : segments.filter begun
        = (segments.takeWhile ended).filter begun ++ tail.takeWhile begun := by
      conv_lhs => rw [hsplit]
      rw [List.filter_append, List.filter_append, List.filter_eq_self.mpr hwithin, hnothing,
        List.append_nil]
    rw [bisectLeft, List.takeWhile_map, List.length_map, ← List.length_append, ← hfilter,
      ← (takeWhile_of_antitone hbegun).1]
    rfl
  refine ⟨_, _, _, hsplit, fun s hs => of_decide_eq_true (hbefore s hs), fun s hs => ⟨?_, ?_⟩,
    fun s hs => not_lt.mp (of_decide_eq_false (hafter s hs)), ?_, fun hnone => ?_, fun hsome => ?_⟩
  · exact not_le.mp (of_decide_eq_false (htail s ((List.takeWhile_sublist begun).subset hs)))
  · exact of_decide_eq_true (hwithin s hs)
  · rw [bisectRight, List.takeWhile_map, List.length_map]
    rfl
  · rw [hlast, hnone, List.length_nil, Nat.add_zero]
    exact List.length_filter_le _ _
  · -- What ends before a segment that has begun has begun itself.
    obtain ⟨first, hfirst⟩ := List.exists_mem_of_ne_nil _ hsome
    rw [hsplit] at hbegun
    have hall : ∀ s ∈ segments.takeWhile ended, begun s = true := fun s hs =>
      (List.pairwise_append.mp hbegun).2.2 s hs first (List.mem_append_left _ hfirst)
        (hwithin first hfirst)
    rw [hlast, List.filter_eq_self.mpr hall]

/-- The seconds of chained segments that all meet `[a, b]`: only the first begins before it and
only the last ends after it. -/
theorem sharedSeconds_within {within : List Segment} (hab : a ≤ b)
    (hchained : Segment.Chained within) (hmeet : ∀ s ∈ within, a < s.end_ ∧ s.start < b)
    {first last : Segment} (hfirst : within.head? = some first)
    (hlast : within.getLast? = some last) :
    sharedSeconds counts a b within
      = (within.map fun s => s.counted counts (s.end_ - s.start)).sum
        - first.counted counts (max 0 (a - first.start))
        - last.counted counts (max 0 (last.end_ - b)) := by
  have hcounted : ∀ {s : Segment} {x : ℚ}, x ≤ 0 → s.counted counts (max 0 x) = 0 := by
    intro s x hx
    rw [max_eq_left hx, Segment.counted, ite_self]
  have hleft : (within.map fun s => s.counted counts (max 0 (a - s.start))).sum
      = first.counted counts (max 0 (a - first.start)) := by
    obtain ⟨rest, rfl⟩ := List.head?_eq_some_iff.mp hfirst
    have hfollows := (List.pairwise_cons.mp hchained.follows).1
    have hmeets := (hmeet first List.mem_cons_self).1
    rw [List.map_cons, List.sum_cons, List.sum_eq_zero, add_zero]
    rintro x hx
    obtain ⟨s, hs, rfl⟩ := List.mem_map.mp hx
    exact hcounted (by linarith [hfollows s hs])
  have hright : (within.map fun s => s.counted counts (max 0 (s.end_ - b))).sum
      = last.counted counts (max 0 (last.end_ - b)) := by
    obtain ⟨init, rfl⟩ := List.getLast?_eq_some_iff.mp hlast
    have hfollows := (List.pairwise_append.mp hchained.follows).2.2
    have hmeets := (hmeet last (List.mem_append_right _ List.mem_cons_self)).2
    rw [List.map_append, List.sum_append, List.sum_eq_zero, zero_add, List.map_singleton,
      List.sum_singleton]
    rintro x hx
    obtain ⟨s, hs, rfl⟩ := List.mem_map.mp hx
    exact hcounted (by linarith [hfollows s hs last List.mem_cons_self])
  have hsplit : (within.map fun s => s.counted counts (s.end_ - s.start))
      = within.map fun s => s.counted counts (overlap a b s.start s.end_)
          + (s.counted counts (max 0 (a - s.start)) + s.counted counts (max 0 (s.end_ - b))) := by
    refine List.map_congr_left fun s hs => ?_
    obtain ⟨hend, hstart⟩ := hmeet s hs
    have hlasts := hchained.lasts s hs
    unfold Segment.counted overlap
    split
    · grind
    · simp
  rw [hsplit, List.sum_map_add, List.sum_map_add, hleft, hright, sharedSeconds]
  ring

/-- Only the segments that meet `[a, b]` share seconds with it. -/
theorem sharedSeconds_split {before within after : List Segment}
    (hbefore : ∀ s ∈ before, s.end_ ≤ a) (hafter : ∀ s ∈ after, b ≤ s.start) :
    sharedSeconds counts a b (before ++ (within ++ after)) = sharedSeconds counts a b within := by
  have hnone : ∀ {l : List Segment}, (∀ s ∈ l, overlap a b s.start s.end_ = 0) →
      sharedSeconds counts a b l = 0 := by
    intro l hl
    refine List.sum_eq_zero fun x hx => ?_
    obtain ⟨s, hs, rfl⟩ := List.mem_map.mp hx
    rw [hl s hs, Segment.counted, ite_self]
  have happend : ∀ l l' : List Segment, sharedSeconds counts a b (l ++ l')
      = sharedSeconds counts a b l + sharedSeconds counts a b l' := by
    intro l l'
    rw [sharedSeconds, List.map_append, List.sum_append]
    rfl
  have hended : ∀ s ∈ before, overlap a b s.start s.end_ = 0 := fun s hs =>
    max_eq_left (sub_nonpos.mpr
      ((min_le_right _ _).trans ((hbefore s hs).trans (le_max_left _ _))))
  have hbegun : ∀ s ∈ after, overlap a b s.start s.end_ = 0 := fun s hs =>
    max_eq_left (sub_nonpos.mpr
      ((min_le_left _ _).trans ((hafter s hs).trans (le_max_right _ _))))
  rw [happend, happend, hnone hended, hnone hbegun, zero_add, add_zero]

/-- The prefix sums and the searches yield the seconds shared with the segments. -/
theorem classifyInterval_eq (hchained : Segment.Chained segments) {interval : Interval}
    (hle : interval.start ≤ interval.end_)
    (hfresh : interval.sampledSeconds = 0 ∧ interval.idleSeconds = 0) :
    classifyInterval segments interval = { interval with
      sampledSeconds := sharedSeconds (fun _ => true) interval.start interval.end_ segments
      idleSeconds := sharedSeconds id interval.start interval.end_ segments } := by
  obtain ⟨before, within, after, rfl, hbefore, hwithin, hafter, hright, hnone, hsome⟩ :=
    bisect_split hchained interval.start interval.end_
  rw [sharedSeconds_split _ hbefore hafter, sharedSeconds_split _ hbefore hafter]
  by_cases hempty : within = []
  · subst hempty
    have hskip := (hnone rfl).trans hright.ge
    have hnothing : ∀ counts, sharedSeconds counts interval.start interval.end_ [] = 0 :=
      fun _ => rfl
    simp only [classifyInterval, if_pos hskip, hnothing]
    exact (Interval.unclassified hfresh.1 hfresh.2).symm
  · have hleft := hsome hempty
    have hpos : 0 < within.length := List.length_pos_iff.mpr hempty
    have hgo : ¬ before.length + within.length ≤ before.length := by omega
    have hchained' : Segment.Chained within :=
      ⟨fun s hs => hchained.lasts s (List.mem_append_right _ (List.mem_append_left _ hs)),
        (List.pairwise_append.mp (List.pairwise_append.mp hchained.follows).2.1).1⟩
    have hfirst := List.head?_eq_some_head hempty
    have hlast := List.getLast?_eq_some_getLast hempty
    have hget : ∀ {α : Type} (f : Segment → α) (d : α) (i : ℕ) (s : Segment),
        within[i]? = some s →
        ((before ++ (within ++ after)).map f).getD (before.length + i) d = f s := by
      intro α f d i s hs
      have hlt := (List.getElem?_eq_some_iff.mp hs).1
      rw [List.getD_eq_getElem?_getD, List.getElem?_map, List.getElem?_append_right (by omega),
        Nat.add_sub_cancel_left, List.getElem?_append_left hlt, hs]
      rfl
    have hstart : ∀ {α : Type} (f : Segment → α) (d : α),
        ((before ++ (within ++ after)).map f).getD before.length d
          = f (within.head hempty) := fun f d => by
      simpa using hget f d 0 _ ((List.head?_eq_getElem? ..).symm.trans hfirst)
    have hend : ∀ {α : Type} (f : Segment → α) (d : α),
        ((before ++ (within ++ after)).map f).getD (before.length + within.length - 1) d
          = f (within.getLast hempty) := fun f d => by
      have hindex : before.length + within.length - 1 = before.length + (within.length - 1) := by
        omega
      rw [hindex]
      exact hget f d _ _ ((List.getLast?_eq_getElem? ..).symm.trans hlast)
    have hsums : ∀ counts : Bool → Bool,
        (prefixSums ((before ++ (within ++ after)).map fun s =>
            s.counted counts (s.end_ - s.start))).getD (before.length + within.length) 0
          - (prefixSums ((before ++ (within ++ after)).map fun s =>
              s.counted counts (s.end_ - s.start))).getD before.length 0
          = (within.map fun s => s.counted counts (s.end_ - s.start)).sum := by
      intro counts
      rw [getD_prefixSums _ (by simp), getD_prefixSums _ (by simp), ← List.map_take,
        ← List.map_take, List.take_left, ← List.append_assoc, ← List.length_append,
        List.take_left, List.map_append, List.sum_append]
      ring
    have hsampled := sharedSeconds_within (fun _ => true) hle hchained' hwithin hfirst hlast
    have hidle := sharedSeconds_within id hle hchained' hwithin hfirst hlast
    rw [← hsums] at hsampled hidle
    simp only [Segment.counted, if_true, id] at hsampled hidle
    have hnonneg := fun counts => sharedSeconds_nonneg counts interval.start interval.end_ within
    simp only [classifyInterval, hright, hleft, if_neg hgo, hstart, hend]
    congr 1
    · rw [← sub_sub, ← hsampled, max_eq_right (hnonneg _)]
    · rw [← max_eq_right (hnonneg id), hidle]
      congr 1
      cases (within.head hempty).idle <;> cases (within.getLast hempty).idle <;> simp

/-- Shared seconds are no more than the interval has. -/
theorem sharedSeconds_le_length (hab : a ≤ b) (hchained : Segment.Chained segments) :
    sharedSeconds counts a b segments ≤ b - a := by
  have hlength : 0 ≤ b - a := sub_nonneg.mpr hab
  cases segments with
  | nil => exact hlength
  | cons first rest =>
    have hstarts : ∀ s ∈ first :: rest, first.start ≤ s.start := by
      intro s hs
      rcases List.mem_cons.mp hs with rfl | hs
      · exact le_rfl
      · exact (hchained.lasts first List.mem_cons_self).le.trans
          ((List.pairwise_cons.mp hchained.follows).1 s hs)
    refine (sharedSeconds_le counts hab hchained hstarts).trans (max_le hlength ?_)
    linarith [le_max_left a first.start]

/-- Idle seconds are sampled seconds. -/
theorem sharedSeconds_idle_le (a b : ℚ) (segments : List Segment) :
    sharedSeconds id a b segments ≤ sharedSeconds (fun _ => true) a b segments := by
  refine List.sum_le_sum fun s _ => ?_
  unfold Segment.counted
  rw [if_pos rfl]
  split
  · exact le_rfl
  · exact overlap_nonneg ..

/-- Samples of distinct times are sorted into the order of their times. -/
theorem sortSamples_eq {points : List IdleSample} (hdistinct : (points.map Prod.fst).Nodup) :
    sortSamples points = .ok (sortBy Prod.fst points)
      ∧ (sortBy Prod.fst points).Pairwise fun x y => x.1 < y.1 := by
  have hne : points.Pairwise fun x y => x.1 ≠ y.1 := List.pairwise_map.mp hdistinct
  obtain ⟨samples, hsamples⟩ := (returns_sortSamples_iff points).mpr
    (hne.imp fun h heq => absurd heq h)
  obtain ⟨hperm, hsorted⟩ := sortSamples_sorted hsamples
  have hsame : samples = sortBy Prod.fst points := by
    refine List.Perm.eq_of_pairwise (fun x y hx hy hxy hyx => ?_) hsorted
      (pairwise_sortBy Prod.fst points) (hperm.trans (sortBy_perm Prod.fst points).symm)
    exact List.inj_on_of_nodup_map hdistinct (hperm.mem_iff.mp hx) (mem_sortBy.mp hy)
      (le_antisymm hxy hyx)
  rw [hsamples, hsame]
  refine ⟨rfl, (pairwise_sortBy Prod.fst points).imp₂
    (fun _ _ hle hne => lt_of_le_of_ne hle hne) ?_⟩
  exact (List.Perm.pairwise_iff (fun h => h.symm) (sortBy_perm Prod.fst points)).mpr hne

/-- For samples of distinct times the classification yields, for every interval, the seconds
that it shares with the stretches between consecutive samples that are no longer than the gap
bound and begin with a known value: all of them sampled, the idle ones idle. -/
theorem classify_eq_naive (intervals : List Interval) (points : List IdleSample)
    (hdistinct : (points.map Prod.fst).Nodup)
    (hintervals : ∀ interval ∈ intervals, interval.start ≤ interval.end_
      ∧ interval.sampledSeconds = 0 ∧ interval.idleSeconds = 0) :
    classify intervals points = .ok (intervals.map fun interval => { interval with
        sampledSeconds := secondsWithin (fun _ => true) interval.start interval.end_
          (sortBy Prod.fst points)
        idleSeconds := secondsWithin id interval.start interval.end_ (sortBy Prod.fst points) })
      ∧ ∀ a b : ℚ, a ≤ b →
        0 ≤ secondsWithin id a b (sortBy Prod.fst points)
          ∧ secondsWithin id a b (sortBy Prod.fst points)
            ≤ secondsWithin (fun _ => true) a b (sortBy Prod.fst points)
          ∧ secondsWithin (fun _ => true) a b (sortBy Prod.fst points) ≤ b - a := by
  obtain ⟨hsort, hsorted⟩ := sortSamples_eq hdistinct
  have hchained := (segmentsOf_chained hsorted).1
  constructor
  · by_cases hskipped : points.length < 2 ∨ intervals = []
    · rw [classify, if_pos hskipped]
      congr 1
      refine (List.map_id' intervals).symm.trans (List.map_congr_left fun interval hinterval => ?_)
      have hfew : points.length < 2 :=
        hskipped.resolve_right (List.ne_nil_of_mem hinterval)
      have hnothing : ∀ counts a b, secondsWithin counts a b (sortBy Prod.fst points) = 0 := by
        intro counts a b
        have hlength : (sortBy Prod.fst points).length < 2 := by rwa [length_sortBy]
        match sortBy Prod.fst points, hlength with
        | [], _ => rfl
        | [sample], _ => rfl
      obtain ⟨-, hsampled, hidle⟩ := hintervals interval hinterval
      rw [hnothing, hnothing, Interval.unclassified hsampled hidle]
    · rw [classify, if_neg hskipped, hsort]
      refine congrArg Except.ok (List.map_congr_left fun interval hinterval => ?_)
      obtain ⟨hle, hfresh⟩ := hintervals interval hinterval
      rw [classifyInterval_eq hchained hle hfresh, secondsWithin_eq_sum _ hsorted,
        secondsWithin_eq_sum _ hsorted]
  · intro a b hab
    rw [secondsWithin_eq_sum _ hsorted, secondsWithin_eq_sum _ hsorted]
    exact ⟨sharedSeconds_nonneg id a b _, sharedSeconds_idle_le a b _,
      sharedSeconds_le_length _ hab hchained⟩

/-- Three samples, the last without a value. -/
private def threeSamples : List IdleSample := [(0, some true), (30, some false), (60, none)]

/-- A run that meets both segments of the samples. -/
private def acrossBoth : Interval := ⟨10, 45, some "ada", "slurm", 0, 0⟩

theorem classify_eq_naive_threeSamples :
    classify [acrossBoth] threeSamples = .ok ([acrossBoth].map fun interval => { interval with
      sampledSeconds := secondsWithin (fun _ => true) interval.start interval.end_
        (sortBy Prod.fst threeSamples)
      idleSeconds := secondsWithin id interval.start interval.end_
        (sortBy Prod.fst threeSamples) }) :=
  (classify_eq_naive [acrossBoth] threeSamples (by decide +kernel) (by decide +kernel)).1

end Naive

end Mocop
