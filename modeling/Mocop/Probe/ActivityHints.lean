import Mocop.Probe.Collector
import Mathlib.Data.List.DropRight

/-!
# `Mocop.Probe.ActivityHints`: when the collector asks for processes again

A core sample that shows activity on a device raises the hint of its host, and the hint stays up
until a process query succeeds. A query that fails makes the next one due at once. The samples of
a host are counted from the last retention that dropped it (`mergesOf`): what the collector knew
of the host before is discarded then, its hint included (`dropped_hint_lost`).

`Remembers` is the invariant of a host over all calls: its hint, the time of its last successful
query and the retry flag are those of the samples counted. `hints_never_lost` reads the cadence
off it.
-/

set_option autoImplicit false

namespace Mocop.Probe

/-! ### Calls -/

/-- The arguments of one call of `mergeProcessSample`. -/
structure MergeInput where
  host : String
  origin : ℕ
  gpus : List GpuMetrics
  processSampled : Bool
  processesAvailable : Bool
  sampledAtMonotonic : ℚ
  observedAt : String
  workloadMode : String
  thresholds : ThresholdConfig

namespace MergeInput

/-- The sample shows activity on a device. -/
def activity (input : MergeInput) : Bool := Collector.gpuActivity input.gpus input.thresholds

/-- The sample has the processes of the host. -/
def succeeds (input : MergeInput) : Bool := input.processSampled && input.processesAvailable

/-- The sample asked for the processes and got none. -/
def fails (input : MergeInput) : Bool := input.processSampled && !input.processesAvailable

end MergeInput

/-- One call of the collector. -/
inductive CollectorCall where
  | merge (input : MergeInput)
  | systemMetrics (host : String) (origin : ℕ) (raw : RawSystemSample) (observedMonotonic : ℚ)
  | setAttended (attended : Bool)
  | retainHosts (hosts : List String)

namespace Collector

/-- The collector after one call. -/
def step (collector : Collector) : CollectorCall → Collector
  | .merge input =>
    (collector.mergeProcessSample input.host input.origin input.gpus input.processSampled
      input.processesAvailable input.sampledAtMonotonic input.observedAt input.workloadMode
      input.thresholds).2
  | .systemMetrics host origin raw observedMonotonic =>
    (collector.systemMetrics host origin raw observedMonotonic).2
  | .setAttended attended => collector.setAttended attended
  | .retainHosts hosts => collector.retainHosts hosts

/-- A new collector after a sequence of calls. -/
def run (calls : List CollectorCall) : Collector := calls.foldl step {}

/-- The pending hint of a host. -/
def hintOf (collector : Collector) (host : String) : Bool :=
  ((collector.activityHints.get? host).map (·.value)).getD false

end Collector

/-! ### The samples of a host -/

/-- The samples of a host since it was last dropped, after one more call. -/
def countCall (host : String) (merges : List MergeInput) : CollectorCall → List MergeInput
  | .merge input => if input.host = host then merges ++ [input] else merges
  | .systemMetrics _ _ _ _ => merges
  | .setAttended _ => merges
  | .retainHosts hosts => if host ∈ hosts then merges else []

/-- The samples of a host since it was last dropped. -/
def mergesOf (host : String) (calls : List CollectorCall) : List MergeInput :=
  calls.foldl (countCall host) []

/-- Whether a dashboard is open after some calls. -/
def attendedAfter (calls : List CollectorCall) : Bool :=
  calls.foldl (fun attended call =>
    match call with
    | .setAttended attended => attended
    | _ => attended) true

/-- The last successful process sample. -/
def lastSuccess (merges : List MergeInput) : Option MergeInput :=
  merges.reverse.find? (·.succeeds)

/-- The samples merged since. -/
def sinceSuccess (merges : List MergeInput) : List MergeInput :=
  merges.rtakeWhile fun input => !input.succeeds

/-- Activity in the last successful process sample, or in some sample merged since. -/
def pendingActivity (merges : List MergeInput) : Bool :=
  (lastSuccess merges).any (·.activity) || (sinceSuccess merges).any (·.activity)

theorem lastSuccess_concat (merges : List MergeInput) (input : MergeInput) :
    lastSuccess (merges ++ [input])
      = if input.succeeds then some input else lastSuccess merges := by
  rw [lastSuccess, List.reverse_append, List.reverse_singleton, List.singleton_append,
    List.find?_cons]
  cases input.succeeds <;> rfl

theorem sinceSuccess_concat (merges : List MergeInput) (input : MergeInput) :
    sinceSuccess (merges ++ [input])
      = if input.succeeds then [] else sinceSuccess merges ++ [input] := by
  rw [sinceSuccess, List.rtakeWhile_concat]
  cases input.succeeds <;> rfl

/-- A success makes the pending activity its own, any other sample adds to it. -/
theorem pendingActivity_concat (merges : List MergeInput) (input : MergeInput) :
    pendingActivity (merges ++ [input])
      = if input.succeeds then input.activity else pendingActivity merges || input.activity := by
  rw [pendingActivity, lastSuccess_concat, sinceSuccess_concat]
  cases input.succeeds with
  | true => simp
  | false => simp [pendingActivity, Bool.or_assoc]

/-! ### Retention -/

section
variable {α : Type} {table : Dict String (Recorded α)} {hosts : List String} {host : String}

/-- A table within the hosts knows no other host. -/
theorem get?_of_within (h : Collector.within table hosts = true) (hhost : host ∉ hosts) :
    table.get? host = none := by
  rw [Dict.get?_eq_none_iff]
  intro hmem
  exact hhost (of_decide_eq_true (List.all_eq_true.mp h host hmem))

/-- What a retention leaves of a table. -/
theorem get?_retained (h : Collector.within table hosts = true) :
    table.get? host = if host ∈ hosts then table.get? host else none := by
  by_cases hhost : host ∈ hosts
  · rw [if_pos hhost]
  · rw [if_neg hhost]
    exact get?_of_within h hhost

theorem get?_filterKeys_mem :
    (table.filterKeys (· ∈ hosts)).get? host = if host ∈ hosts then table.get? host else none := by
  rw [Dict.get?_filterKeys]
  simp

end

namespace Collector

variable {collector : Collector} {host : String}

/-- The records of a host after a retention: those before it, and none when it is dropped. -/
theorem get?_retainHosts (collector : Collector) (hosts : List String) (host : String) :
    (collector.retainHosts hosts).activityHints.get? host
        = (if host ∈ hosts then collector.activityHints.get? host else none)
      ∧ (collector.retainHosts hosts).processSamples.get? host
        = (if host ∈ hosts then collector.processSamples.get? host else none)
      ∧ (collector.retainHosts hosts).processRetryForced.get? host
        = (if host ∈ hosts then collector.processRetryForced.get? host else none)
      ∧ (collector.retainHosts hosts).attended = collector.attended := by
  unfold retainHosts
  split
  · next hwithin =>
    obtain ⟨-, hsamples, hhints, hforced⟩ := hwithin
    exact ⟨get?_retained hhints, get?_retained hsamples, get?_retained hforced, rfl⟩
  · exact ⟨get?_filterKeys_mem, get?_filterKeys_mem, get?_filterKeys_mem, rfl⟩

/-- A viewer who comes back adds to the retries and takes none away. -/
theorem contains_setAttended (attended : Bool)
    (h : collector.processRetryForced.contains host = true) :
    (collector.setAttended attended).processRetryForced.contains host = true := by
  have hfold : ∀ (entries : List (String × Recorded ProcessSample))
      (forced : Dict String (Recorded Unit)), forced.contains host = true →
      (entries.foldl (fun forced entry => forced.set entry.1 ⟨(), entry.2.origin⟩)
        forced).contains host = true := by
    intro entries
    induction entries with
    | nil => exact fun forced hforced => hforced
    | cons entry rest ih =>
      intro forced hforced
      refine ih _ ?_
      rw [Dict.contains_eq, Dict.get?_set]
      by_cases hk : host = entry.1
      · rw [if_pos hk]
        rfl
      · rw [if_neg hk, ← Dict.contains_eq]
        exact hforced
  unfold setAttended
  dsimp only
  split
  · exact hfold _ _ h
  · exact h

/-! ### The invariant -/

/-- What the collector keeps of a host is that of the samples counted. -/
structure Remembers (collector : Collector) (host : String) (merges : List MergeInput) : Prop where
  hint : collector.hintOf host = pendingActivity merges
  sample : (collector.processSamples.get? host).map (·.value.sampledAtMonotonic)
    = (lastSuccess merges).map (·.sampledAtMonotonic)
  forced : ∀ input ∈ merges.getLast?, input.fails = true →
    collector.processRetryForced.contains host = true

theorem remembers_start (host : String) : Remembers {} host [] where
  hint := rfl
  sample := rfl
  forced := fun _ hinput => by cases hinput

variable {merges : List MergeInput}

/-- What a sample does to the records of every host. -/
theorem step_merge (collector : Collector) (input : MergeInput) (host : String) :
    (collector.step (.merge input)).hintOf host
        = (if host = input.host then
            if input.succeeds then input.activity else collector.hintOf host || input.activity
          else collector.hintOf host)
      ∧ ((collector.step (.merge input)).processSamples.get? host).map (·.value.sampledAtMonotonic)
        = (if host = input.host ∧ input.succeeds = true then some input.sampledAtMonotonic
          else (collector.processSamples.get? host).map (·.value.sampledAtMonotonic))
      ∧ (collector.step (.merge input)).processRetryForced.get? host
        = (if host = input.host ∧ input.succeeds = true then none
          else if host = input.host ∧ input.fails = true then some ⟨(), input.origin⟩
          else collector.processRetryForced.get? host)
      ∧ (collector.step (.merge input)).attended = collector.attended := by
  obtain ⟨sampleHost, origin, gpus, sampled, available, sampledAt, observedAt, mode, thresholds⟩ :=
    input
  unfold step mergeProcessSample hintOf MergeInput.succeeds MergeInput.fails MergeInput.activity
  dsimp only
  -- A success, a failure, and a sample that did not ask.
  cases sampled with
  | true =>
    by_cases hhost : host = sampleHost
    · subst hhost
      cases available <;> simp
    · cases available <;> simp [hhost]
  | false =>
    cases hsample : collector.processSamples.get? sampleHost with
    | none =>
      by_cases hhost : host = sampleHost
      · subst hhost
        simp [hsample]
      · simp [hhost]
    | some record =>
      by_cases hhost : host = sampleHost
      · subst hhost
        simp [hsample]
      · simp [hhost]

/-- A sample of the host is counted, one of another host is not. -/
theorem Remembers.merge (h : collector.Remembers host merges) (input : MergeInput) :
    (collector.step (.merge input)).Remembers host (countCall host merges (.merge input)) := by
  obtain ⟨hhint, hsample, hforced, -⟩ := step_merge collector input host
  unfold countCall
  dsimp only
  by_cases hhost : input.host = host
  · rw [if_pos hhost]
    refine ⟨?_, ?_, fun last hlast hfails => ?_⟩
    · rw [hhint, if_pos hhost.symm, pendingActivity_concat, h.hint]
    · rw [hsample, lastSuccess_concat]
      by_cases hsucceeds : input.succeeds = true
      · rw [if_pos ⟨hhost.symm, hsucceeds⟩, if_pos hsucceeds]
        rfl
      · rw [if_neg fun hboth => hsucceeds hboth.2, if_neg hsucceeds]
        exact h.sample
    · rw [List.getLast?_concat] at hlast
      obtain rfl := Option.some.inj hlast
      have hnot : ¬ (host = input.host ∧ input.succeeds = true) := by
        rintro ⟨-, hsucceeds⟩
        simp only [MergeInput.fails, MergeInput.succeeds, Bool.and_eq_true, Bool.not_eq_true']
          at hfails hsucceeds
        rw [hsucceeds.2] at hfails
        exact absurd hfails.2 (by decide)
      rw [Dict.contains_eq, hforced, if_neg hnot, if_pos ⟨hhost.symm, hfails⟩]
      rfl
  · have hother : ¬ host = input.host := fun heq => hhost heq.symm
    rw [if_neg hhost]
    refine ⟨?_, ?_, fun last hlast hfails => ?_⟩
    · rw [hhint, if_neg hother]
      exact h.hint
    · rw [hsample, if_neg fun hboth => hother hboth.1]
      exact h.sample
    · rw [Dict.contains_eq, hforced, if_neg fun hboth => hother hboth.1,
        if_neg fun hboth => hother hboth.1, ← Dict.contains_eq]
      exact h.forced last hlast hfails

/-- A retention starts the count of a dropped host over. -/
theorem Remembers.retainHosts (h : collector.Remembers host merges) (hosts : List String) :
    (collector.step (.retainHosts hosts)).Remembers host
      (countCall host merges (.retainHosts hosts)) := by
  obtain ⟨hhint, hsample, hforced, -⟩ := get?_retainHosts collector hosts host
  unfold step countCall
  dsimp only
  by_cases hhost : host ∈ hosts
  · rw [if_pos hhost] at hhint hsample hforced ⊢
    refine ⟨?_, ?_, fun last hlast hfails => ?_⟩
    · rw [hintOf, hhint]
      exact h.hint
    · rw [hsample]
      exact h.sample
    · rw [Dict.contains_eq, hforced, ← Dict.contains_eq]
      exact h.forced last hlast hfails
  · rw [if_neg hhost] at hhint hsample hforced ⊢
    refine ⟨?_, ?_, fun last hlast => by cases hlast⟩
    · rw [hintOf, hhint]
      rfl
    · rw [hsample]
      rfl

/-- Every call keeps the invariant. -/
theorem Remembers.step (h : collector.Remembers host merges) (call : CollectorCall) :
    (collector.step call).Remembers host (countCall host merges call) := by
  cases call with
  | merge input => exact h.merge input
  | systemMetrics other origin raw observedMonotonic => exact ⟨h.hint, h.sample, h.forced⟩
  | setAttended attended =>
    exact ⟨h.hint, h.sample, fun last hlast hfails =>
      contains_setAttended attended (h.forced last hlast hfails)⟩
  | retainHosts hosts => exact h.retainHosts hosts

theorem remembers_run (calls : List CollectorCall) (host : String) :
    (run calls).Remembers host (mergesOf host calls) := by
  induction calls using List.reverseRecOn with
  | nil => exact remembers_start host
  | append_singleton calls call ih =>
    rw [run, mergesOf, List.foldl_append, List.foldl_append]
    exact ih.step call

/-- The collector follows the attendance. -/
theorem attended_run (calls : List CollectorCall) : (run calls).attended = attendedAfter calls := by
  induction calls using List.reverseRecOn with
  | nil => rfl
  | append_singleton calls call ih =>
    rw [run, attendedAfter, List.foldl_append, List.foldl_append]
    cases call with
    | merge input => exact (step_merge _ input "").2.2.2.trans ih
    | systemMetrics other origin raw observedMonotonic => exact ih
    | setAttended attended => rfl
    | retainHosts hosts => exact (get?_retainHosts _ hosts "").2.2.2.trans ih

/-! ### When a query is due -/

/-- A failed query makes the next one due, and so does a missing sample. -/
theorem processesDue_of_forced {now intervalSeconds : ℚ} {workloadMode : String}
    (h : collector.processRetryForced.contains host = true
      ∨ collector.processSamples.get? host = none) :
    collector.processesDue host now intervalSeconds workloadMode = true := by
  unfold processesDue
  cases hsample : collector.processSamples.get? host with
  | none => rfl
  | some record =>
    rw [hsample] at h
    have hforced := h.resolve_right (by simp)
    dsimp only [Option.map_some]
    rw [if_pos (.inl hforced)]

/-- With a pending hint and a reader a query is due when the base interval has passed since the
last one. -/
theorem processesDue_of_hint {now intervalSeconds : ℚ} {workloadMode : String}
    (hattended : collector.attended = true) (hhint : collector.hintOf host = true)
    (hinterval : ∀ record, collector.processSamples.get? host = some record →
      intervalSeconds ≤ now - record.value.sampledAtMonotonic) :
    collector.processesDue host now intervalSeconds workloadMode = true := by
  unfold processesDue
  cases hsample : collector.processSamples.get? host with
  | none => rfl
  | some record =>
    have hactive : ((collector.activityHints.get? host).map (·.value)).getD false = true := hhint
    have hpassed := hinterval record hsample
    dsimp only [Option.map_some]
    rw [hactive, hattended]
    split
    · rfl
    · simpa using hpassed

end Collector

/-! ### The cadence -/

/-- While no sample of a host is merged, its count stays or starts over. -/
theorem mergesOf_quiet {host : String} {after : List CollectorCall}
    (hquiet : ∀ input, .merge input ∈ after → input.host ≠ host) (merges : List MergeInput) :
    after.foldl (countCall host) merges = merges ∨ after.foldl (countCall host) merges = [] := by
  induction after generalizing merges with
  | nil => exact .inl rfl
  | cons call rest ih =>
    have hrest := ih fun input hinput => hquiet input (List.mem_cons_of_mem _ hinput)
    have hone : countCall host merges call = merges ∨ countCall host merges call = [] := by
      cases call with
      | merge input => exact .inl (if_neg (hquiet input List.mem_cons_self))
      | systemMetrics other origin raw observedMonotonic => exact .inl rfl
      | setAttended attended => exact .inl rfl
      | retainHosts hosts =>
        by_cases hhost : host ∈ hosts
        · exact .inl (if_pos hhost)
        · exact .inr (if_neg hhost)
    rw [List.foldl_cons]
    rcases hone with hsame | hempty
    · rw [hsame]
      exact hrest merges
    · rw [hempty]
      exact .inr ((hrest []).elim id id)

/-- The hint of a host is up exactly when activity was seen in its last successful process sample
or in some sample since. While it is up and a dashboard is open, a query is due as soon as the base
interval has passed. After a failed query the next cycle asks again. -/
theorem hints_never_lost (calls : List CollectorCall) (host : String) :
    ((Collector.run calls).hintOf host = true ↔
        (∃ last ∈ lastSuccess (mergesOf host calls), last.activity = true)
          ∨ ∃ input ∈ sinceSuccess (mergesOf host calls), input.activity = true)
      ∧ (attendedAfter calls = true → (Collector.run calls).hintOf host = true →
        ∀ now intervalSeconds workloadMode,
          (∀ last ∈ lastSuccess (mergesOf host calls),
            intervalSeconds ≤ now - last.sampledAtMonotonic) →
          (Collector.run calls).processesDue host now intervalSeconds workloadMode = true)
      ∧ ∀ before input after, calls = before ++ .merge input :: after → input.host = host →
        input.fails = true → (∀ later, .merge later ∈ after → later.host ≠ host) →
        ∀ now intervalSeconds workloadMode,
          (Collector.run calls).processesDue host now intervalSeconds workloadMode = true := by
  have hremembers := Collector.remembers_run calls host
  refine ⟨?_, ?_, ?_⟩
  · rw [hremembers.hint, pendingActivity, Bool.or_eq_true, List.any_eq_true, Option.any_eq_true]
    rfl
  · intro hattended hhint now intervalSeconds workloadMode hinterval
    refine Collector.processesDue_of_hint ((Collector.attended_run calls).trans hattended) hhint
      fun record hrecord => ?_
    -- The cached sample is the last successful one.
    have hsample := hremembers.sample
    rw [hrecord] at hsample
    obtain ⟨last, hlast, htime⟩ := Option.map_eq_some_iff.mp hsample.symm
    have hpassed := hinterval last hlast
    rw [show last.sampledAtMonotonic = record.value.sampledAtMonotonic from htime] at hpassed
    exact hpassed
  · intro before input after hcalls hhost hfails hquiet now intervalSeconds workloadMode
    refine Collector.processesDue_of_forced ?_
    have hmerges : mergesOf host calls
        = after.foldl (countCall host) (mergesOf host before ++ [input]) := by
      rw [hcalls, mergesOf, List.foldl_append, List.foldl_cons]
      congr 1
      exact if_pos hhost
    rcases mergesOf_quiet hquiet (mergesOf host before ++ [input]) with hsame | hempty
    · refine .inl (hremembers.forced input ?_ hfails)
      rw [hmerges, hsame, List.getLast?_concat]
      rfl
    · -- The host was dropped since.
      refine .inr ?_
      have hsample := hremembers.sample
      rw [hmerges, hempty] at hsample
      exact Option.map_eq_none_iff.mp hsample

/-- All samples of a host, from before a retention that dropped it as well. -/
def everyMergeOf (host : String) (calls : List CollectorCall) : List MergeInput :=
  calls.filterMap fun call =>
    match call with
    | .merge input => if input.host = host then some input else none
    | _ => none

/-- A successful process sample of a busy device. -/
private def busySample : MergeInput where
  host := "gpu-1"
  origin := 1
  gpus := [{ index := 0, uuid := "GPU-1", name := "A", driverVersion := "1", pstate := none
             temperatureC := none, utilizationGpuPct := some 90, utilizationMemoryPct := none
             memoryTotalMib := none, memoryUsedMib := none, memoryFreeMib := none
             powerDrawW := none, powerLimitW := none }]
  processSampled := true
  processesAvailable := true
  sampledAtMonotonic := 10
  observedAt := "10"
  workloadMode := "none"
  thresholds := {}

/-- A host that is dropped from the inventory loses its hint, although its last successful process
sample showed activity. -/
theorem dropped_hint_lost :
    lastSuccess (everyMergeOf "gpu-1" [.merge busySample, .retainHosts []]) = some busySample
      ∧ busySample.activity = true
      ∧ (Collector.run [.merge busySample, .retainHosts []]).hintOf "gpu-1" = false := by
  refine ⟨rfl, ?_, ?_⟩
  · decide +kernel
  · decide +kernel

end Mocop.Probe
