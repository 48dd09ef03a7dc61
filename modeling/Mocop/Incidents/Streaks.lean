import Mocop.Incidents.Policy
import Mocop.Incidents.Replay
import Mathlib.Data.List.DropRight

/-!
# `Mocop.Incidents.Streaks`: what the counters say about the past

A lifecycle carries three counters: the candidate of an opening, the recovery, and the pending
change of the severity. Each of them is a statement about the latest readings of the condition,
and `step` keeps it: the candidate counts the latest readings that confirm it
(`Lifecycle.Tracks`), the recovery counts the authoritative readings among the latest ones that
do not show the condition (`Lifecycle.Counts`), and the change counts the latest readings of
the contrary severity (`Lifecycle.Holds`).

The results about the tracker read the counters off its dictionaries: an incident opens exactly
on a sustained streak (`opened_iff_streak`), it resolves exactly on enough authoritative absences
(`resolved_iff_absences`), and its severity changes only on a sustained streak of contrary
readings (`severity_changes_on_streak`).
-/

set_option autoImplicit false

namespace Mocop

/-- The reading shows its condition under a severity, and not merely inside the clear band. -/
def Reading.confirms (severity : IncidentSeverity) (reading : Reading) : Bool :=
  reading.observed.any fun condition =>
    !condition.belowThreshold && decide (condition.severity = severity)

/-- The condition that a reading shows carries the time of the reading. -/
def Reading.Timed (reading : Reading) : Prop :=
  ∀ condition, reading.observed = some condition → condition.observedAt = reading.observedAt

/-- The latest readings that confirm a severity, up to the last one. -/
abbrev streak (severity : IncidentSeverity) (readings : List Reading) : List Reading :=
  readings.rtakeWhile (·.confirms severity)

/-- The reading does not show its condition. -/
def Reading.absent (reading : Reading) : Bool := reading.observed.isNone

/-- The reading speaks for the absence of its condition: the host is online, the sample is not
older than the opening, and it carries the telemetry of the category. -/
def Reading.authoritative (epochSeconds : String → Option ℚ) (category openedAt : String)
    (reading : Reading) : Bool :=
  reading.online && reading.absent
    && !IncidentTracker.isDelayed (epochSeconds reading.observedAt) (epochSeconds openedAt)
    && !telemetryUnknown category reading.key reading.observedDomains

/-- The latest readings that do not show the condition, up to the last one. -/
abbrev absences (readings : List Reading) : List Reading := readings.rtakeWhile (·.absent)

/-- The reading shows its condition under another severity than the decided one, which the clear
margin does not hold. -/
def Reading.contrary (decided : IncidentCondition) (severity : IncidentSeverity)
    (reading : Reading) : Prop :=
  ∃ shown, reading.observed = some shown ∧ shown.severity = severity
    ∧ severity ≠ decided.severity ∧ IncidentTracker.holdsSeverity shown decided = false

namespace Lifecycle

open IncidentTracker (nextStreak confirmed sustained holdsSeverity isDelayed)

variable (epochSeconds : String → Option ℚ)

/-- One more reading is one more step. -/
theorem run_concat (l : Lifecycle) (readings : List Reading) (reading : Reading) :
    (l.run epochSeconds (readings ++ [reading])).1
      = ((l.run epochSeconds readings).1.step epochSeconds reading).1 := by
  induction readings generalizing l with
  | nil => rfl
  | cons first rest ih => exact ih (l.step epochSeconds first).1

/-- What a sample that shows an active condition does: it keeps the severity, completes a change
of it, or leaves the change pending under the severity and the line that were decided. -/
theorem seenActive_cases (old : IncidentCondition) (openedAt : String)
    (change : Option SeverityChange) (new : IncidentCondition) :
    (∃ held : IncidentCondition, held.severity = old.severity ∧ held.criticalAt = new.criticalAt
      ∧ seenActive epochSeconds old openedAt change new
        = (active held openedAt new.observedAt none none, none))
    ∨ (holdsSeverity new old = false ∧ old.severity ≠ new.severity
      ∧ ((confirmed epochSeconds
            (nextStreak (change.getD (new.severity, 0, new.observedAt)) new) new = true
          ∧ seenActive epochSeconds old openedAt change new
            = (active new openedAt new.observedAt none none,
              some (if new.severity = .critical then .escalated else .deescalated, new)))
        ∨ seenActive epochSeconds old openedAt change new
            = (active { new with severity := old.severity, criticalAt := old.criticalAt }
                openedAt new.observedAt none (some (new.severity,
                  nextStreak (change.getD (new.severity, 0, new.observedAt)) new)), none))) := by
  unfold seenActive
  dsimp only
  by_cases hholds : holdsSeverity new old = true
  · refine Or.inl ⟨{ new with severity := old.severity }, rfl, rfl, ?_⟩
    rw [if_pos hholds]
    exact if_pos rfl
  · rw [if_neg hholds]
    by_cases hsame : old.severity = new.severity
    · rw [if_pos hsame]
      exact Or.inl ⟨new, hsame.symm, rfl, rfl⟩
    · rw [if_neg hsame]
      refine Or.inr ⟨Bool.eq_false_iff.mpr hholds, hsame, ?_⟩
      split
      · next hconfirmed => exact Or.inl ⟨hconfirmed, rfl⟩
      · exact Or.inr rfl

/-- A sample that shows an active condition leaves it active, without a recovery. -/
theorem seenActive_active (old : IncidentCondition) (openedAt : String)
    (change : Option SeverityChange) (new : IncidentCondition) :
    ∃ condition change', (seenActive epochSeconds old openedAt change new).1
        = active condition openedAt new.observedAt none change'
      ∧ ∀ transition ∈ (seenActive epochSeconds old openedAt change new).2,
          transition.1 = .escalated ∨ transition.1 = .deescalated := by
  obtain ⟨held, -, -, heq⟩ | ⟨-, -, ⟨-, heq⟩ | heq⟩ :=
    seenActive_cases epochSeconds old openedAt change new
  · rw [heq]
    exact ⟨held, none, rfl, by simp⟩
  · rw [heq]
    refine ⟨new, none, rfl, fun transition htransition => ?_⟩
    obtain rfl := Option.some.inj htransition
    by_cases hcritical : new.severity = .critical
    · exact Or.inl (if_pos hcritical)
    · exact Or.inr (if_neg hcritical)
  · rw [heq]
    exact ⟨_, _, rfl, by simp⟩

/-! ### Openings -/

/-- The candidate counts the latest readings that confirm it, and carries the time of the first
of them. Without a candidate the last reading confirms nothing. -/
def Tracks (readings : List Reading) : Lifecycle → Prop
  | inactive none => ∀ severity, streak severity readings = []
  | inactive (some (candidate, count, since)) =>
    (streak candidate.severity readings).length = count
      ∧ (streak candidate.severity readings).head?.map (·.observedAt) = some since
  | active .. => True

variable {epochSeconds} {readings : List Reading} {reading : Reading} {new : IncidentCondition}

/-- A streak of another severity than the last reading's is empty. -/
theorem streak_eq_nil {severity : IncidentSeverity} {first : Reading}
    (hlast : (streak severity readings).head? = some first) {other : IncidentSeverity}
    (hother : severity ≠ other) : streak other readings = [] := by
  induction readings using List.reverseRecOn with
  | nil => rfl
  | append_singleton readings last _ =>
    rw [streak, List.rtakeWhile_concat] at hlast ⊢
    by_cases hconfirms : last.confirms severity = true
    · refine if_neg fun h => hother ?_
      unfold Reading.confirms at hconfirms h
      cases hobs : last.observed with
      | none => simp [hobs] at h
      | some condition =>
        simp only [hobs, Option.any_some, Bool.and_eq_true, decide_eq_true_eq]
          at hconfirms h
        exact hconfirms.2.symm.trans h.2
    · rw [if_neg hconfirms] at hlast
      cases hlast

/-- A confirming reading makes the streak of its severity longer. -/
theorem nextStreak_eq {candidate : Option Candidate} (h : Tracks readings (inactive candidate))
    (hobserved : reading.observed = some new) (hbelow : new.belowThreshold = false)
    (htimed : reading.Timed) :
    ∃ first, (streak new.severity (readings ++ [reading])).head? = some first
      ∧ nextStreak ((candidate.getD (new, 0, new.observedAt)).1.severity,
          (candidate.getD (new, 0, new.observedAt)).2) new
        = ((streak new.severity (readings ++ [reading])).length, first.observedAt) := by
  have hconfirms : reading.confirms new.severity = true := by
    simp [Reading.confirms, hobserved, hbelow]
  have hconcat : streak new.severity (readings ++ [reading])
      = streak new.severity readings ++ [reading] := by
    rw [streak, List.rtakeWhile_concat, if_pos hconfirms]
  rw [hconcat]
  cases candidate with
  | none =>
    refine ⟨reading, ?_, ?_⟩
    · rw [h new.severity]
      rfl
    · rw [h new.severity]
      simp [nextStreak, htimed new hobserved]
  | some pending =>
    obtain ⟨candidate, count, since⟩ := pending
    obtain ⟨hlength, hsince⟩ := h
    obtain ⟨first, hfirst, rfl⟩ := Option.map_eq_some_iff.mp hsince
    by_cases hsame : candidate.severity = new.severity
    · rw [hsame] at hlength hfirst
      refine ⟨first, ?_, ?_⟩
      · rw [List.head?_append, hfirst]
        rfl
      · simp [nextStreak, hsame, hlength]
    · rw [streak_eq_nil hfirst hsame]
      refine ⟨reading, rfl, ?_⟩
      simp [nextStreak, hsame, htimed new hobserved]

/-- A step keeps what the candidate says about the past. -/
theorem Tracks.step {l : Lifecycle} (h : Tracks readings l) (htimed : reading.Timed) :
    Tracks (readings ++ [reading]) (l.step epochSeconds reading).1 := by
  have hbroken : (∀ severity, reading.confirms severity = false) →
      ∀ severity, streak severity (readings ++ [reading]) = [] := fun hnone severity => by
    rw [streak, List.rtakeWhile_concat, hnone severity]
    rfl
  cases hobserved : reading.observed with
  | none =>
    have hnone : ∀ severity, reading.confirms severity = false := by
      simp [Reading.confirms, hobserved]
    cases l with
    | inactive candidate =>
      simp only [Lifecycle.step, hobserved]
      exact hbroken hnone
    | active old openedAt lastObservedAt recovery change =>
      simp only [Lifecycle.step, hobserved, unseenActive]
      split
      · split
        · exact hbroken hnone
        · trivial
      · trivial
  | some new =>
    cases l with
    | active old openedAt lastObservedAt recovery change =>
      simp only [Lifecycle.step, hobserved]
      obtain ⟨condition, change', heq, -⟩ :=
        seenActive_active epochSeconds old openedAt change new
      rw [heq]
      trivial
    | inactive candidate =>
      simp only [Lifecycle.step, hobserved, seenInactive]
      cases hbelow : new.belowThreshold with
      | true =>
        refine hbroken fun severity => ?_
        simp [Reading.confirms, hobserved, hbelow]
      | false =>
        obtain ⟨first, hfirst, hstreak⟩ := nextStreak_eq h hobserved hbelow htimed
        rw [if_neg Bool.false_ne_true, hstreak]
        split
        · trivial
        · exact ⟨rfl, by rw [hfirst]; rfl⟩

/-- The candidate counts the past of every run from an inactive condition. -/
theorem tracks_run (htimed : ∀ reading ∈ readings, reading.Timed) :
    Tracks readings ((inactive none).run epochSeconds readings).1 := by
  induction readings using List.reverseRecOn with
  | nil => exact fun _ => rfl
  | append_singleton readings last ih =>
    rw [run_concat]
    obtain ⟨hreadings, hlast⟩ := List.forall_mem_append.mp htimed
    exact (ih hreadings).step (hlast last List.mem_cons_self)

/-- A sample opens a condition exactly when it is inactive and the sample completes a streak that
is long enough. -/
theorem opens_iff {l : Lifecycle} (h : Tracks readings l) (htimed : reading.Timed) :
    (∃ transition ∈ (l.step epochSeconds reading).2, transition.1 = .opened)
      ↔ l.condition = none ∧ ∃ new, reading.observed = some new ∧ new.belowThreshold = false
        ∧ ∃ first ∈ (streak new.severity (readings ++ [reading])).head?,
          new.openAfterCycles ≤ (streak new.severity (readings ++ [reading])).length
            ∧ sustained epochSeconds first.observedAt new = true := by
  cases l with
  | active old openedAt lastObservedAt recovery change =>
    refine iff_of_false ?_ fun hnone => by cases hnone.1
    rintro ⟨transition, htransition, hopened⟩
    cases hobserved : reading.observed with
    | none =>
      simp only [Lifecycle.step, hobserved, unseenActive] at htransition
      split at htransition
      · split at htransition
        · obtain rfl := Option.some.inj htransition
          cases hopened
        · cases htransition
      · cases htransition
    | some new =>
      simp only [Lifecycle.step, hobserved] at htransition
      obtain ⟨-, -, -, hchanges⟩ := seenActive_active epochSeconds old openedAt change new
      rcases hchanges transition htransition with hstate | hstate
      · rw [hopened] at hstate
        cases hstate
      · rw [hopened] at hstate
        cases hstate
  | inactive candidate =>
    cases hobserved : reading.observed with
    | none => simp [Lifecycle.step, hobserved]
    | some new =>
      simp only [Lifecycle.step, hobserved, seenInactive, Option.some.injEq]
      cases hbelow : new.belowThreshold with
      | true => simp [hbelow]
      | false =>
        obtain ⟨first, hfirst, hstreak⟩ := nextStreak_eq h hobserved hbelow htimed
        rw [if_neg Bool.false_ne_true, hstreak]
        have hconfirmed : confirmed epochSeconds
              ((streak new.severity (readings ++ [reading])).length, first.observedAt) new
            = true
          ↔ new.openAfterCycles ≤ (streak new.severity (readings ++ [reading])).length
            ∧ sustained epochSeconds first.observedAt new = true := by
          simp [confirmed]
        constructor
        · rintro ⟨transition, htransition, -⟩
          split at htransition
          · next hlong =>
            obtain ⟨hcycles, hsustained⟩ := hconfirmed.mp hlong
            exact ⟨rfl, new, rfl, hbelow, first, hfirst, hcycles, hsustained⟩
          · cases htransition
        · rintro ⟨-, _, rfl, -, first', hfirst', hcycles, hsustained⟩
          obtain rfl := Option.some.inj (hfirst.symm.trans hfirst')
          rw [if_pos (hconfirmed.mpr ⟨hcycles, hsustained⟩)]
          exact ⟨_, rfl, rfl⟩

/-- Observed for the required duration: none is required, or the times span it as far as they can
be read. -/
theorem sustained_iff (since : String) (condition : IncidentCondition) :
    sustained epochSeconds since condition = true
      ↔ condition.openAfterSeconds ≤ 0 ∨ ∀ started now, epochSeconds since = some started →
          epochSeconds condition.observedAt = some now →
            condition.openAfterSeconds ≤ now - started := by
  unfold sustained
  split
  · next hnone => simp [hnone]
  · next hsome =>
    rw [or_iff_right hsome]
    cases epochSeconds since with
    | none => simp
    | some started =>
      cases epochSeconds condition.observedAt with
      | none => simp
      | some now => simp

/-! ### Recoveries -/

/-- The recovery counts the authoritative readings among the latest ones without the condition,
and it is still below what the condition requires. -/
def Counts (epochSeconds : String → Option ℚ) (readings : List Reading) : Lifecycle → Prop
  | inactive _ => True
  | active condition openedAt _ recovery _ =>
    recovery.getD 0 = (absences readings).countP
        (·.authoritative epochSeconds condition.category openedAt)
      ∧ (recovery.getD 0 = 0 ∨ recovery.getD 0 < condition.recoveryCycles)

/-- What a sample does that does not show an active condition. -/
theorem unseenActive_eq (old : IncidentCondition) (openedAt lastObservedAt : String)
    (recovery : Option ℕ) (hnone : reading.observed = none) :
    unseenActive epochSeconds reading old openedAt lastObservedAt recovery
      = if reading.authoritative epochSeconds old.category openedAt = true then
          if old.recoveryCycles ≤ recovery.getD 0 + 1 then (inactive none, some (.resolved, old))
          else (active old openedAt lastObservedAt (some (recovery.getD 0 + 1)) none, none)
        else (active old openedAt lastObservedAt recovery none, none) := by
  have hauthoritative : reading.authoritative epochSeconds old.category openedAt
      = (reading.online && !isDelayed (epochSeconds reading.observedAt) (epochSeconds openedAt)
        && !telemetryUnknown old.category reading.key reading.observedDomains) := by
    simp [Reading.authoritative, Reading.absent, hnone]
  rw [hauthoritative]
  rfl

/-- One more reading without the condition counts when it is authoritative. -/
theorem countP_absences (category openedAt : String) (hnone : reading.observed = none) :
    (absences (readings ++ [reading])).countP (·.authoritative epochSeconds category openedAt)
      = (absences readings).countP (·.authoritative epochSeconds category openedAt)
        + if reading.authoritative epochSeconds category openedAt = true then 1 else 0 := by
  have habsent : reading.absent = true := by rw [Reading.absent, hnone]; rfl
  rw [absences, List.rtakeWhile_concat, if_pos habsent, List.countP_append,
    List.countP_singleton]

/-- A step keeps what the recovery says about the past. -/
theorem Counts.step {l : Lifecycle} (h : Counts epochSeconds readings l) :
    Counts epochSeconds (readings ++ [reading]) (l.step epochSeconds reading).1 := by
  cases hobserved : reading.observed with
  | some new =>
    have hreset : absences (readings ++ [reading]) = [] := by
      rw [absences, List.rtakeWhile_concat, Reading.absent, hobserved]
      rfl
    have hactive : ∀ (condition : IncidentCondition) (openedAt lastObservedAt : String)
        (change : Option SeverityChange), Counts epochSeconds (readings ++ [reading])
          (active condition openedAt lastObservedAt none change) := by
      intro condition openedAt lastObservedAt change
      rw [Counts, hreset]
      exact ⟨rfl, Or.inl rfl⟩
    cases l with
    | inactive candidate =>
      simp only [Lifecycle.step, hobserved, seenInactive]
      split
      · trivial
      · split
        · exact hactive ..
        · trivial
    | active old openedAt lastObservedAt recovery change =>
      simp only [Lifecycle.step, hobserved]
      obtain ⟨condition, change', heq, -⟩ :=
        seenActive_active epochSeconds old openedAt change new
      rw [heq]
      exact hactive ..
  | none =>
    cases l with
    | inactive candidate =>
      simp only [Lifecycle.step, hobserved]
      trivial
    | active old openedAt lastObservedAt recovery change =>
      obtain ⟨hcount, hbelow⟩ := h
      simp only [Lifecycle.step, hobserved]
      rw [unseenActive_eq old openedAt lastObservedAt recovery hobserved]
      split
      · next hcounts =>
        split
        · trivial
        · next hmore =>
          refine ⟨?_, Or.inr (not_le.mp hmore)⟩
          rw [countP_absences old.category openedAt hobserved, if_pos hcounts, ← hcount]
          rfl
      · next hignored =>
        refine ⟨?_, hbelow⟩
        rw [countP_absences old.category openedAt hobserved, if_neg hignored, ← hcount]
        rfl

/-- The recovery counts the past of every run. -/
theorem counts_run {l : Lifecycle} (h : Counts epochSeconds [] l) :
    Counts epochSeconds readings (l.run epochSeconds readings).1 := by
  induction readings using List.reverseRecOn with
  | nil => exact h
  | append_singleton readings last ih =>
    rw [run_concat]
    exact ih.step

/-- A sample resolves an active condition exactly when it is an authoritative absence that
completes the count, and only then the condition is over. -/
theorem resolves_iff {old : IncidentCondition} {openedAt lastObservedAt : String}
    {recovery : Option ℕ} {change : Option SeverityChange}
    (h : Counts epochSeconds readings (active old openedAt lastObservedAt recovery change)) :
    ((∃ transition ∈ ((active old openedAt lastObservedAt recovery change).step epochSeconds
            reading).2, transition.1 = .resolved)
        ↔ reading.authoritative epochSeconds old.category openedAt = true
          ∧ old.recoveryCycles ≤ (absences (readings ++ [reading])).countP
              (·.authoritative epochSeconds old.category openedAt))
      ∧ (((active old openedAt lastObservedAt recovery change).step epochSeconds
            reading).1.condition = none
        ↔ reading.authoritative epochSeconds old.category openedAt = true
          ∧ old.recoveryCycles ≤ (absences (readings ++ [reading])).countP
              (·.authoritative epochSeconds old.category openedAt)) := by
  cases hobserved : reading.observed with
  | some new =>
    have hnot : ¬ reading.authoritative epochSeconds old.category openedAt = true := by
      simp [Reading.authoritative, Reading.absent, hobserved]
    simp only [Lifecycle.step, hobserved]
    obtain ⟨condition, change', heq, hchanges⟩ :=
      seenActive_active epochSeconds old openedAt change new
    refine ⟨iff_of_false ?_ fun h => hnot h.1, iff_of_false ?_ fun h => hnot h.1⟩
    · rintro ⟨transition, htransition, hresolved⟩
      rcases hchanges transition htransition with hstate | hstate
      · rw [hresolved] at hstate
        cases hstate
      · rw [hresolved] at hstate
        cases hstate
    · rw [heq]
      exact Option.some_ne_none _
  | none =>
    simp only [Lifecycle.step, hobserved]
    rw [unseenActive_eq old openedAt lastObservedAt recovery hobserved,
      countP_absences old.category openedAt hobserved, ← h.1]
    split
    · next hcounts =>
      split
      · next hdone => simp [hcounts, hdone, Lifecycle.condition]
      · next hmore => simp [hmore, Lifecycle.condition]
    · next hignored => simp [hignored, Lifecycle.condition]

/-! ### Severity changes -/

/-- The severity and the critical line were decided by a reading, or came with the lifecycle, and
every later reading that shows the condition is contrary. A pending change counts the latest
of them. -/
structure Decided (epochSeconds : String → Option ℚ) (start : Lifecycle)
    (readings : List Reading) (condition : IncidentCondition)
    (change : Option SeverityChange) : Prop where
  origin : ∃ before later, readings = before ++ later
    ∧ (∃ decided openedAt lastObservedAt recovery,
        (start.run epochSeconds before).1 = active decided openedAt lastObservedAt recovery none
          ∧ decided.severity = condition.severity ∧ decided.criticalAt = condition.criticalAt)
    ∧ (before = [] ∨ ∃ reading shown, before.getLast? = some reading
        ∧ reading.observed = some shown ∧ shown.criticalAt = condition.criticalAt)
    ∧ ∀ reading ∈ later, ∀ shown, reading.observed = some shown →
        shown.severity ≠ condition.severity
  pending : ∀ severity count since, change = some (severity, count, since) →
    severity ≠ condition.severity ∧ ∃ before block, readings = before ++ block
      ∧ block.length = count ∧ block.head?.map (·.observedAt) = some since
      ∧ ∀ reading ∈ block, reading.contrary condition severity

/-- What the decided severity of an active condition says about the past. -/
def Holds (epochSeconds : String → Option ℚ) (start : Lifecycle) (readings : List Reading) :
    Lifecycle → Prop
  | inactive _ => True
  | active condition _ _ _ change => Decided epochSeconds start readings condition change

/-- Whether a reading is contrary depends on the decided severity and line alone. -/
theorem contrary_congr {decided other : IncidentCondition} {severity : IncidentSeverity}
    (hseverity : decided.severity = other.severity)
    (hline : decided.criticalAt = other.criticalAt) (h : reading.contrary decided severity) :
    reading.contrary other severity := by
  obtain ⟨shown, hshown, hsame, hne, hholds⟩ := h
  refine ⟨shown, hshown, hsame, hseverity ▸ hne, ?_⟩
  unfold holdsSeverity at hholds ⊢
  rw [← hseverity, ← hline]
  exact hholds

/-- Two severities that differ from a third are the same. -/
theorem severity_eq_of_ne {first second third : IncidentSeverity} (h : first ≠ third)
    (h' : second ≠ third) : first = second := by
  cases first <;> cases second <;> cases third <;> simp_all

variable {change : Option SeverityChange} {start : Lifecycle}

/-- One more contrary reading: the streak of the change counts the latest contrary readings. -/
theorem contrary_streak {old : IncidentCondition}
    (h : Decided epochSeconds start readings old change) (hobserved : reading.observed = some new)
    (htimed : reading.Timed) (hholds : holdsSeverity new old = false)
    (hdiff : old.severity ≠ new.severity) :
    ∃ before block, readings ++ [reading] = before ++ block
      ∧ block.length = (nextStreak (change.getD (new.severity, 0, new.observedAt)) new).1
      ∧ block.head?.map (·.observedAt)
        = some (nextStreak (change.getD (new.severity, 0, new.observedAt)) new).2
      ∧ ∀ reading ∈ block, reading.contrary old new.severity := by
  have hlast : reading.contrary old new.severity := ⟨new, hobserved, rfl, hdiff.symm, hholds⟩
  cases change with
  | none =>
    refine ⟨readings, [reading], rfl, by simp [nextStreak], ?_, by simpa using hlast⟩
    simp [nextStreak, htimed new hobserved]
  | some pending =>
    obtain ⟨severity, count, since⟩ := pending
    obtain ⟨hne, before, block, hsplit, hlength, hsince, hblock⟩ := h.pending _ _ _ rfl
    obtain rfl : severity = new.severity := severity_eq_of_ne hne hdiff.symm
    obtain ⟨first, hfirst, rfl⟩ := Option.map_eq_some_iff.mp hsince
    refine ⟨before, block ++ [reading], ?_, ?_, ?_, ?_⟩
    · rw [hsplit, List.append_assoc]
    · simp [nextStreak, hlength]
    · rw [List.head?_append, hfirst]
      simp [nextStreak]
    · exact List.forall_mem_append.mpr ⟨hblock, by simpa using hlast⟩

/-- A reading that shows the condition and leaves no change pending decides it. -/
theorem decided_now {condition : IncidentCondition} {openedAt lastObservedAt : String}
    {recovery : Option ℕ}
    (hrun : (start.run epochSeconds (readings ++ [reading])).1
      = active condition openedAt lastObservedAt recovery none)
    (hobserved : reading.observed = some new) (hline : condition.criticalAt = new.criticalAt) :
    Decided epochSeconds start (readings ++ [reading]) condition none where
  origin := by
    refine ⟨readings ++ [reading], [], (List.append_nil _).symm,
      ⟨condition, openedAt, lastObservedAt, recovery, hrun, rfl, rfl⟩, Or.inr ?_, by simp⟩
    exact ⟨reading, new, by simp, hobserved, hline.symm⟩
  pending := fun _ _ _ h => by cases h

/-- A reading after which the decided severity and line stay keeps the decision. -/
theorem Decided.later {old condition : IncidentCondition}
    (h : Decided epochSeconds start readings old change)
    (hseverity : old.severity = condition.severity) (hline : old.criticalAt = condition.criticalAt)
    (hreading : ∀ shown, reading.observed = some shown → shown.severity ≠ condition.severity) :
    ∃ before later, readings ++ [reading] = before ++ later
      ∧ (∃ decided openedAt lastObservedAt recovery,
          (start.run epochSeconds before).1 = active decided openedAt lastObservedAt recovery none
            ∧ decided.severity = condition.severity ∧ decided.criticalAt = condition.criticalAt)
      ∧ (before = [] ∨ ∃ reading shown, before.getLast? = some reading
          ∧ reading.observed = some shown ∧ shown.criticalAt = condition.criticalAt)
      ∧ ∀ reading ∈ later, ∀ shown, reading.observed = some shown →
          shown.severity ≠ condition.severity := by
  obtain ⟨before, later, hsplit, hstate, hlast, hcontrary⟩ := h.origin
  rw [hseverity] at hcontrary
  rw [hline] at hlast
  rw [hseverity, hline] at hstate
  refine ⟨before, later ++ [reading], by rw [hsplit, List.append_assoc], hstate, hlast,
    List.forall_mem_append.mpr ⟨hcontrary, ?_⟩⟩
  simpa using hreading

/-- A step keeps what the decided severity says about the past. -/
theorem Holds.step {start l : Lifecycle} (hrun : (start.run epochSeconds readings).1 = l)
    (h : Holds epochSeconds start readings l) (htimed : reading.Timed) :
    Holds epochSeconds start (readings ++ [reading]) (l.step epochSeconds reading).1 := by
  have hnext := run_concat epochSeconds start readings reading
  rw [hrun] at hnext
  cases hobserved : reading.observed with
  | none =>
    cases l with
    | inactive candidate =>
      simp only [Lifecycle.step, hobserved]
      trivial
    | active old openedAt lastObservedAt recovery change =>
      have hkept : ∀ recovery', Holds epochSeconds start (readings ++ [reading])
          (active old openedAt lastObservedAt recovery' none) := fun _ =>
        ⟨Decided.later h rfl rfl (by simp [hobserved]), fun _ _ _ h => by cases h⟩
      simp only [Lifecycle.step, hobserved]
      rw [unseenActive_eq old openedAt lastObservedAt recovery hobserved]
      split
      · split
        · trivial
        · exact hkept _
      · exact hkept _
  | some new =>
    cases l with
    | inactive candidate =>
      simp only [Lifecycle.step, hobserved, seenInactive] at hnext ⊢
      split
      · trivial
      · next hbelow =>
        split
        · next hconfirmed =>
          rw [if_neg hbelow, if_pos hconfirmed] at hnext
          exact decided_now hnext hobserved rfl
        · trivial
    | active old openedAt lastObservedAt recovery change =>
      simp only [Lifecycle.step, hobserved] at hnext ⊢
      obtain ⟨held, -, hline, heq⟩ | ⟨hholds, hdiff, ⟨-, heq⟩ | heq⟩ :=
        seenActive_cases epochSeconds old openedAt change new
      · rw [heq] at hnext ⊢
        exact decided_now hnext hobserved hline
      · rw [heq] at hnext ⊢
        exact decided_now hnext hobserved rfl
      · rw [heq]
        refine ⟨Decided.later h rfl rfl ?_, ?_⟩
        · intro shown hshown
          obtain rfl := Option.some.inj (hobserved.symm.trans hshown)
          exact hdiff.symm
        · intro severity count since hchange
          obtain ⟨before, block, hsplit, hlength, hsince, hblock⟩ :=
            contrary_streak h hobserved htimed hholds hdiff
          have hpending := Option.some.inj hchange
          obtain ⟨rfl, hstreak⟩ := Prod.mk.inj hpending
          rw [hstreak] at hlength hsince
          exact ⟨hdiff.symm, before, block, hsplit, hlength, hsince, fun reading hmem =>
            contrary_congr rfl rfl (hblock reading hmem)⟩

/-- The decided severity of every run. -/
theorem holds_run (h : Holds epochSeconds start [] start)
    (htimed : ∀ reading ∈ readings, reading.Timed) :
    Holds epochSeconds start readings (start.run epochSeconds readings).1 := by
  induction readings using List.reverseRecOn with
  | nil => exact h
  | append_singleton readings last ih =>
    obtain ⟨hreadings, hlast⟩ := List.forall_mem_append.mp htimed
    rw [run_concat]
    exact Holds.step rfl (ih hreadings) (hlast last List.mem_cons_self)

/-- A sample changes the severity of an active condition only when it completes a streak of
contrary readings that is long enough. -/
theorem change_streak {old : IncidentCondition} {openedAt lastObservedAt : String}
    {recovery : Option ℕ} (h : Decided epochSeconds start readings old change)
    (htimed : reading.Timed) {condition : IncidentCondition}
    (hcondition : ((active old openedAt lastObservedAt recovery change).step epochSeconds
      reading).1.condition = some condition) (hchanged : old.severity ≠ condition.severity) :
    ∃ before block, readings ++ [reading] = before ++ block
      ∧ condition.openAfterCycles ≤ block.length
      ∧ (∃ first ∈ block.head?, sustained epochSeconds first.observedAt condition = true)
      ∧ ∀ reading ∈ block, reading.contrary old condition.severity := by
  cases hobserved : reading.observed with
  | none =>
    simp only [Lifecycle.step, hobserved] at hcondition
    rw [unseenActive_eq old openedAt lastObservedAt recovery hobserved] at hcondition
    split at hcondition
    · split at hcondition
      · cases hcondition
      · obtain rfl := Option.some.inj hcondition
        exact absurd rfl hchanged
    · obtain rfl := Option.some.inj hcondition
      exact absurd rfl hchanged
  | some new =>
    simp only [Lifecycle.step, hobserved] at hcondition
    obtain ⟨held, hsame, -, heq⟩ | ⟨hholds, hdiff, ⟨hconfirmed, heq⟩ | heq⟩ :=
      seenActive_cases epochSeconds old openedAt change new
    · rw [heq] at hcondition
      obtain rfl := Option.some.inj hcondition
      exact absurd hsame.symm hchanged
    · rw [heq] at hcondition
      obtain rfl := Option.some.inj hcondition
      obtain ⟨before, block, hsplit, hlength, hsince, hblock⟩ :=
        contrary_streak h hobserved htimed hholds hdiff
      obtain ⟨first, hfirst, htime⟩ := Option.map_eq_some_iff.mp hsince
      simp only [confirmed, Bool.and_eq_true, decide_eq_true_eq] at hconfirmed
      rw [← hlength, ← htime] at hconfirmed
      exact ⟨before, block, hsplit, hconfirmed.1, ⟨first, hfirst, hconfirmed.2⟩, hblock⟩
    · rw [heq] at hcondition
      obtain rfl := Option.some.inj hcondition
      exact absurd rfl hchanged

end Lifecycle

namespace IncidentTracker

variable (epochSeconds : String → Option ℚ)

/-- The readings of the policies carry their time. -/
theorem reading_timed (policy : IncidentPolicy) (result : ProbeResult) (key : String) :
    (result.reading policy key).Timed := fun condition hcondition =>
  (policy.derived result key condition hcondition).observedAt_eq

theorem readingsFor_timed (samples : List Sample) (host key : String) :
    ∀ reading ∈ readingsFor samples host key, reading.Timed := by
  intro reading hreading
  obtain ⟨sample, -, rfl⟩ := List.mem_map.mp hreading
  exact reading_timed sample.policy sample.result key

theorem readingsFor_concat (samples : List Sample) (sample : Sample) (key : String) :
    readingsFor (samples ++ [sample]) sample.result.host key
      = readingsFor samples sample.result.host key
        ++ [sample.result.reading sample.policy key] := by
  simp [readingsFor]

/-- A transition of a key was created exactly when its events hold it. -/
theorem exists_event_iff {created : List IncidentEvent} {key : String}
    {transition : Option Transition} (h : transitionsOf created key = transition.toList)
    (state : IncidentState) :
    (∃ event ∈ created, event.condition.key = key ∧ event.state = state)
      ↔ ∃ t ∈ transition, t.1 = state := by
  have hmem : ∀ t : Transition, t ∈ transitionsOf created key ↔ t ∈ transition := by
    intro t
    rw [h, Option.mem_toList, Option.mem_def]
  constructor
  · rintro ⟨event, hevent, hkey, hstate⟩
    refine ⟨(event.state, event.condition), (hmem _).mp ?_, hstate⟩
    exact List.mem_map.mpr ⟨event, List.mem_filter.mpr ⟨hevent, decide_eq_true hkey⟩, rfl⟩
  · rintro ⟨t, ht, hstate⟩
    obtain ⟨event, hevent, rfl⟩ := List.mem_map.mp ((hmem t).mpr ht)
    obtain ⟨hevent, hkey⟩ := List.mem_filter.mp hevent
    exact ⟨event, hevent, of_decide_eq_true hkey, hstate⟩

/-- After a run from a new tracker, one more update does to every condition of its host what the
step of its lifecycle does. -/
theorem run_update (policy : IncidentPolicy) (historyPoints : ℕ)
    (historicalEvents : List IncidentEvent) (openIncidents : List OpenIncident)
    (samples : List Sample) (sample : Sample) :
    ∃ events tracker created tracker',
      (init policy historyPoints historicalEvents openIncidents).runSamples epochSeconds samples
        = .ok (events, tracker)
      ∧ tracker.update epochSeconds sample.policy sample.setOrder sample.result
        = .ok (created, tracker')
      ∧ ∀ key, ∀ before, before = ((restoredFleet policy.recoveryCycles openIncidents
            sample.result.host key).run epochSeconds
              (readingsFor samples sample.result.host key)).1 →
          tracker.cell sample.result.host key = before.render
            ∧ tracker'.cell sample.result.host key
              = (before.step epochSeconds (sample.result.reading sample.policy key)).1.render
            ∧ ∀ state, (∃ event ∈ created, event.condition.key = key ∧ event.state = state)
              ↔ ∃ transition ∈ (before.step epochSeconds
                  (sample.result.reading sample.policy key)).2, transition.1 = state := by
  obtain ⟨events, tracker, fleet, hrun, hrepresents, hlifecycle, -, -⟩ := run_refines epochSeconds
    (init_represents policy historyPoints historicalEvents openIncidents) samples
  obtain ⟨w, hupdate, hstep, hcreated, -⟩ :=
    @update_refines epochSeconds _ _ hrepresents sample.policy sample.result sample.setOrder
  refine ⟨events, tracker, w.created, _, hrun, hupdate, ?_⟩
  rintro key before rfl
  have hbefore := congrArg Prod.fst (hlifecycle sample.result.host key)
  rw [← hbefore]
  refine ⟨hrepresents.cell_eq _ key, ?_, exists_event_iff (hcreated key)⟩
  rw [hstep.cell_eq, Fleet.step, if_pos rfl]

/-- An incident opens exactly on a sustained streak. In every run from a tracker without
incidents, a sample opens a condition exactly when it was not active and the latest samples of
the host that confirm it under one severity, up to this one, are enough and span the required
time. -/
theorem opened_iff_streak (policy : IncidentPolicy) (historyPoints : ℕ)
    (historicalEvents : List IncidentEvent) (samples : List Sample) (sample : Sample) :
    ∃ events tracker created tracker',
      (init policy historyPoints historicalEvents []).runSamples epochSeconds samples
        = .ok (events, tracker)
      ∧ tracker.update epochSeconds sample.policy sample.setOrder sample.result
        = .ok (created, tracker')
      ∧ ∀ key, (∃ event ∈ created, event.condition.key = key ∧ event.state = .opened)
        ↔ (rowOf tracker.active sample.result.host).get? key = none
          ∧ ∃ new, (sample.policy.conditions sample.result).get? key = some new
            ∧ new.belowThreshold = false
            ∧ ∃ first ∈ (streak new.severity
                (readingsFor (samples ++ [sample]) sample.result.host key)).head?,
              new.openAfterCycles ≤ (streak new.severity
                  (readingsFor (samples ++ [sample]) sample.result.host key)).length
              ∧ (new.openAfterSeconds ≤ 0
                ∨ ∀ started now, epochSeconds first.observedAt = some started →
                    epochSeconds sample.result.observedAt = some now →
                      new.openAfterSeconds ≤ now - started) := by
  obtain ⟨events, tracker, created, tracker', hrun, hupdate, hkeys⟩ := run_update epochSeconds
    policy historyPoints historicalEvents [] samples sample
  refine ⟨events, tracker, created, tracker', hrun, hupdate, fun key => ?_⟩
  obtain ⟨hcell, -, hcreated⟩ := hkeys key _ rfl
  have htracks := @Lifecycle.tracks_run epochSeconds _
    (readingsFor_timed samples sample.result.host key)
  have hactive : (rowOf tracker.active sample.result.host).get? key
      = ((Lifecycle.inactive none).run epochSeconds
          (readingsFor samples sample.result.host key)).1.condition := by
    rw [← Lifecycle.render_active]
    exact congrArg ConditionCell.active hcell
  rw [hcreated, hactive, readingsFor_concat]
  refine (Lifecycle.opens_iff htracks (reading_timed sample.policy sample.result key)).trans
    (and_congr_right fun _ => exists_congr fun new => and_congr_right fun hnew =>
      and_congr_right fun _ => exists_congr fun first => and_congr_right fun _ =>
        and_congr_right fun _ => ?_)
  rw [Lifecycle.sustained_iff, (reading_timed sample.policy sample.result key) new hnew]
  rfl

/-- A restored or empty fleet has no counters. -/
theorem restoredFleet_cases (recoveryCycles : ℕ) (openIncidents : List OpenIncident)
    (host key : String) :
    restoredFleet recoveryCycles openIncidents host key = .inactive none
      ∨ ∃ condition openedAt lastObservedAt, restoredFleet recoveryCycles openIncidents host key
        = .active condition openedAt lastObservedAt none none := by
  have hfold : ∀ (rest : List OpenIncident) (fleet : Fleet),
      (fleet host key = .inactive none ∨ ∃ condition openedAt lastObservedAt,
        fleet host key = .active condition openedAt lastObservedAt none none) →
      (rest.foldl (restoreLifecycle recoveryCycles) fleet host key = .inactive none
        ∨ ∃ condition openedAt lastObservedAt,
          rest.foldl (restoreLifecycle recoveryCycles) fleet host key
            = .active condition openedAt lastObservedAt none none) := by
    intro rest
    induction rest with
    | nil => exact fun fleet h => h
    | cons restored rest ih =>
      intro fleet h
      refine ih _ ?_
      unfold restoreLifecycle
      split
      · exact Or.inr ⟨_, _, _, rfl⟩
      · exact h
  exact hfold openIncidents _ (Or.inl rfl)

/-- An offline sample of the threshold policy speaks about the connectivity alone. -/
theorem offline_conditions (policy : ThresholdIncidentPolicy) {result : ProbeResult}
    (hoffline : result.status ≠ .online) {key : String} (hkey : key ≠ "connectivity") :
    (policy.toIncidentPolicy.conditions result).get? key = none := by
  show (policy.conditions result).get? key = none
  rw [ThresholdIncidentPolicy.conditions, if_pos hoffline, addCondition, Dict.get?_set]
  exact if_neg hkey

/-- An active condition resolves exactly on enough authoritative absences. In every run from a
new tracker, a sample resolves an active condition exactly when it is authoritative and, with it,
the authoritative samples since the condition was last shown reach the recovery cycles, which
they had not before. A sample of a host that is not online creates no transition of a condition
outside the connectivity and leaves it as it is. -/
theorem resolved_iff_absences (policy : IncidentPolicy) (historyPoints : ℕ)
    (historicalEvents : List IncidentEvent) (openIncidents : List OpenIncident)
    (samples : List Sample) (sample : Sample) :
    ∃ events tracker created tracker',
      (init policy historyPoints historicalEvents openIncidents).runSamples epochSeconds samples
        = .ok (events, tracker)
      ∧ tracker.update epochSeconds sample.policy sample.setOrder sample.result
        = .ok (created, tracker')
      ∧ (∀ key old, (rowOf tracker.active sample.result.host).get? key = some old →
          ∃ openedAt, (rowOf tracker.openedAt sample.result.host).get? key = some openedAt
            ∧ ((absences (readingsFor samples sample.result.host key)).countP
                  (·.authoritative epochSeconds old.category openedAt) = 0
              ∨ (absences (readingsFor samples sample.result.host key)).countP
                  (·.authoritative epochSeconds old.category openedAt) < old.recoveryCycles)
            ∧ ((∃ event ∈ created, event.condition.key = key ∧ event.state = .resolved)
              ↔ (sample.result.reading sample.policy key).authoritative epochSeconds old.category
                  openedAt = true
                ∧ old.recoveryCycles
                  ≤ (absences (readingsFor (samples ++ [sample]) sample.result.host key)).countP
                    (·.authoritative epochSeconds old.category openedAt))
            ∧ ((rowOf tracker'.active sample.result.host).get? key = none
              ↔ (sample.result.reading sample.policy key).authoritative epochSeconds old.category
                  openedAt = true
                ∧ old.recoveryCycles
                  ≤ (absences (readingsFor (samples ++ [sample]) sample.result.host key)).countP
                    (·.authoritative epochSeconds old.category openedAt)))
      ∧ ∀ threshold : ThresholdIncidentPolicy, sample.policy = threshold.toIncidentPolicy →
          sample.result.status ≠ .online → ∀ key, key ≠ "connectivity" →
            (∀ event ∈ created, event.condition.key ≠ key)
              ∧ (rowOf tracker'.active sample.result.host).get? key
                = (rowOf tracker.active sample.result.host).get? key := by
  obtain ⟨events, tracker, created, tracker', hrun, hupdate, hkeys⟩ := run_update epochSeconds
    policy historyPoints historicalEvents openIncidents samples sample
  refine ⟨events, tracker, created, tracker', hrun, hupdate, fun key old hold => ?_,
    fun threshold hpolicy hoffline key hkey => ?_⟩
  · obtain ⟨hcell, hcell', hcreated⟩ := hkeys key _ rfl
    have hstart : Lifecycle.Counts epochSeconds []
        (restoredFleet policy.recoveryCycles openIncidents sample.result.host key) := by
      obtain heq | ⟨_, _, _, heq⟩ := restoredFleet_cases policy.recoveryCycles openIncidents
        sample.result.host key
      · rw [heq]
        trivial
      · rw [heq]
        exact ⟨rfl, Or.inl rfl⟩
    have hcounts := @Lifecycle.counts_run epochSeconds
      (readingsFor samples sample.result.host key) _ hstart
    clear hstart
    generalize ((restoredFleet policy.recoveryCycles openIncidents sample.result.host key).run
      epochSeconds (readingsFor samples sample.result.host key)).1 = before at *
    have hcondition : before.condition = some old := by
      rw [← Lifecycle.render_active, ← hcell]
      exact hold
    cases before with
    | inactive candidate => cases hcondition
    | active condition openedAt lastObservedAt recovery change =>
      obtain rfl := Option.some.inj hcondition
      obtain ⟨hresolved, hover⟩ := @Lifecycle.resolves_iff epochSeconds _
        (sample.result.reading sample.policy key) _ _ _ _ _ hcounts
      obtain ⟨hcount, hbelow⟩ := hcounts
      rw [hcount] at hbelow
      refine ⟨openedAt, congrArg ConditionCell.openedAt hcell, hbelow, ?_, ?_⟩
      · rw [hcreated, hresolved, readingsFor_concat]
      · rw [readingsFor_concat, ← hover, ← Lifecycle.render_active, ← hcell']
        rfl
  · obtain ⟨hcell, hcell', hcreated⟩ := hkeys key _ rfl
    generalize ((restoredFleet policy.recoveryCycles openIncidents sample.result.host key).run
      epochSeconds (readingsFor samples sample.result.host key)).1 = before at *
    have hreading : (sample.result.reading sample.policy key).observed = none := by
      rw [hpolicy]
      exact offline_conditions threshold hoffline hkey
    have hstep := before.step_offline epochSeconds _ hreading (by
      simpa [ProbeResult.reading] using hoffline)
    rw [hstep] at hcell' hcreated
    constructor
    · intro event hevent hsame
      obtain ⟨transition, htransition, -⟩ := (hcreated event.state).mp ⟨event, hevent, hsame, rfl⟩
      cases htransition
    · have hactive := congrArg ConditionCell.active hcell
      have hactive' := congrArg ConditionCell.active hcell'
      rw [Lifecycle.render_active] at hactive hactive'
      refine hactive'.trans (Eq.trans ?_ hactive.symm)
      cases before <;> rfl

/-- Readings that split come from samples that split. -/
theorem readingsFor_eq_append {samples : List Sample} {host key : String}
    {before later : List Reading} (h : readingsFor samples host key = before ++ later) :
    ∃ earlier rest, samples = earlier ++ rest ∧ readingsFor earlier host key = before
      ∧ readingsFor rest host key = later := by
  obtain ⟨kept, keptLater, hkept, rfl, rfl⟩ := List.map_eq_append_iff.mp h
  obtain ⟨earlier, rest, hsplit, rfl, rfl⟩ := List.filter_eq_append_iff.mp hkept
  exact ⟨earlier, rest, hsplit, rfl, rfl⟩

/-- What the tracker holds of a condition after a run from a new tracker. -/
theorem run_cell (policy : IncidentPolicy) (historyPoints : ℕ)
    (historicalEvents : List IncidentEvent) (openIncidents : List OpenIncident)
    (samples : List Sample) :
    ∃ events tracker,
      (init policy historyPoints historicalEvents openIncidents).runSamples epochSeconds samples
        = .ok (events, tracker)
      ∧ ∀ host key, tracker.cell host key = ((restoredFleet policy.recoveryCycles openIncidents
          host key).run epochSeconds (readingsFor samples host key)).1.render := by
  obtain ⟨events, tracker, fleet, hrun, hrepresents, hlifecycle, -, -⟩ := run_refines epochSeconds
    (init_represents policy historyPoints historicalEvents openIncidents) samples
  refine ⟨events, tracker, hrun, fun host key => ?_⟩
  rw [hrepresents.cell_eq, ← congrArg Prod.fst (hlifecycle host key)]

/-- The decided severity of a run from a restored or empty fleet. -/
theorem holds_restored (recoveryCycles : ℕ) (openIncidents : List OpenIncident)
    (samples : List Sample) (host key : String) :
    Lifecycle.Holds epochSeconds (restoredFleet recoveryCycles openIncidents host key)
      (readingsFor samples host key)
      ((restoredFleet recoveryCycles openIncidents host key).run epochSeconds
        (readingsFor samples host key)).1 := by
  refine Lifecycle.holds_run ?_ (readingsFor_timed samples host key)
  obtain heq | ⟨condition, openedAt, lastObservedAt, heq⟩ :=
    restoredFleet_cases recoveryCycles openIncidents host key
  · rw [heq]
    trivial
  · rw [heq]
    exact ⟨⟨[], [], rfl, ⟨condition, openedAt, lastObservedAt, none, rfl, rfl, rfl⟩, Or.inl rfl,
      by simp⟩, fun _ _ _ h => by cases h⟩

/-- The severity of an active condition changes only on a sustained streak. In every run from a
new tracker, a sample that changes the severity completes enough readings that show the condition
under the new one, and with the critical line unchanged none of the readings that end a critical
severity lies within the clear margin below that line. Throughout, the critical line of an active
condition is the one that its severity was decided with: the line of the last reading that
decided it, after which every reading of the condition has been contrary. -/
theorem severity_changes_on_streak (policy : IncidentPolicy) (historyPoints : ℕ)
    (historicalEvents : List IncidentEvent) (openIncidents : List OpenIncident)
    (samples : List Sample) (sample : Sample) :
    ∃ events tracker created tracker',
      (init policy historyPoints historicalEvents openIncidents).runSamples epochSeconds samples
        = .ok (events, tracker)
      ∧ tracker.update epochSeconds sample.policy sample.setOrder sample.result
        = .ok (created, tracker')
      ∧ (∀ key old condition, (rowOf tracker.active sample.result.host).get? key = some old →
          (rowOf tracker'.active sample.result.host).get? key = some condition →
          old.severity ≠ condition.severity →
            ∃ before block,
              readingsFor (samples ++ [sample]) sample.result.host key = before ++ block
              ∧ condition.openAfterCycles ≤ block.length
              ∧ (∃ first ∈ block.head?, condition.openAfterSeconds ≤ 0
                ∨ ∀ started now, epochSeconds first.observedAt = some started →
                    epochSeconds condition.observedAt = some now →
                      condition.openAfterSeconds ≤ now - started)
              ∧ ∀ reading ∈ block, ∃ shown, reading.observed = some shown
                ∧ shown.severity = condition.severity
                ∧ (old.severity = .critical → ∀ value line, shown.value = some value →
                    shown.criticalAt = some line → old.criticalAt = some line →
                      value < line - shown.recoveryMargin))
      ∧ ∀ key condition, (rowOf tracker'.active sample.result.host).get? key = some condition →
          ∃ earlier later events₀ tracker₀ decided, samples ++ [sample] = earlier ++ later
            ∧ (init policy historyPoints historicalEvents openIncidents).runSamples epochSeconds
                earlier = .ok (events₀, tracker₀)
            ∧ (rowOf tracker₀.active sample.result.host).get? key = some decided
            ∧ (rowOf tracker₀.severityChanges sample.result.host).get? key = none
            ∧ decided.severity = condition.severity
            ∧ decided.criticalAt = condition.criticalAt
            ∧ (readingsFor earlier sample.result.host key = []
              ∨ ∃ reading shown,
                  (readingsFor earlier sample.result.host key).getLast? = some reading
                  ∧ reading.observed = some shown ∧ shown.criticalAt = condition.criticalAt)
            ∧ ∀ reading ∈ readingsFor later sample.result.host key, ∀ shown,
                reading.observed = some shown → shown.severity ≠ condition.severity := by
  obtain ⟨events, tracker, created, tracker', hrun, hupdate, hkeys⟩ := run_update epochSeconds
    policy historyPoints historicalEvents openIncidents samples sample
  refine ⟨events, tracker, created, tracker', hrun, hupdate,
    fun key old condition hold hcondition hchanged => ?_, fun key condition hcondition => ?_⟩
  · obtain ⟨hcell, hcell', -⟩ := hkeys key _ rfl
    have hholds := holds_restored epochSeconds policy.recoveryCycles openIncidents samples
      sample.result.host key
    have htimed := reading_timed sample.policy sample.result key
    generalize ((restoredFleet policy.recoveryCycles openIncidents sample.result.host key).run
      epochSeconds (readingsFor samples sample.result.host key)).1 = before at *
    have hbefore : before.condition = some old := by
      rw [← Lifecycle.render_active, ← hcell]
      exact hold
    have hafter : (before.step epochSeconds
        (sample.result.reading sample.policy key)).1.condition = some condition := by
      rw [← Lifecycle.render_active, ← hcell']
      exact hcondition
    cases before with
    | inactive candidate => cases hbefore
    | active previous openedAt lastObservedAt recovery change =>
      obtain rfl := Option.some.inj hbefore
      obtain ⟨first, block, hsplit, hlength, ⟨head, hhead, hsustained⟩, hblock⟩ :=
        Lifecycle.change_streak hholds htimed hafter hchanged
      rw [readingsFor_concat]
      refine ⟨first, block, hsplit, hlength, ⟨head, hhead, ?_⟩, fun reading hmem => ?_⟩
      · exact (Lifecycle.sustained_iff _ _).mp hsustained
      · obtain ⟨shown, hshown, hsame, -, hmargin⟩ := hblock reading hmem
        refine ⟨shown, hshown, hsame, fun hcritical value line hvalue hline hheld => ?_⟩
        -- A warning within the margin below the decided line would have been held.
        by_contra hwithin
        have hwarning : shown.severity = .warning := by
          rw [hcritical] at hchanged
          rw [hsame]
          cases hseverity : condition.severity
          · rfl
          · exact absurd hseverity.symm hchanged
        simp [holdsSeverity, hvalue, hline, hheld, hcritical, hwarning] at hmargin
        exact hwithin (lt_sub_iff_add_lt.mpr hmargin)
  · obtain ⟨-, hcell', -⟩ := hkeys key _ rfl
    have hholds := holds_restored epochSeconds policy.recoveryCycles openIncidents
      (samples ++ [sample]) sample.result.host key
    have hafter := congrArg ConditionCell.active hcell'
    rw [← Lifecycle.run_concat, ← readingsFor_concat, Lifecycle.render_active] at hafter
    have hactive := hafter.symm.trans hcondition
    generalize hlast : ((restoredFleet policy.recoveryCycles openIncidents sample.result.host
      key).run epochSeconds (readingsFor (samples ++ [sample]) sample.result.host key)).1 = last
      at hholds hactive
    cases last with
    | inactive candidate => cases hactive
    | active held openedAt lastObservedAt recovery change =>
      obtain rfl := Option.some.inj hactive
      obtain ⟨before, later, hsplit, ⟨decided, _, _, _, hstate, hseverity, hline⟩, horigin,
        hcontrary⟩ := hholds.origin
      obtain ⟨earlier, rest, hsamples, rfl, rfl⟩ := readingsFor_eq_append hsplit
      obtain ⟨events₀, tracker₀, hrun₀, hcells⟩ := run_cell epochSeconds policy historyPoints
        historicalEvents openIncidents earlier
      have hcell₀ := hcells sample.result.host key
      rw [hstate] at hcell₀
      exact ⟨earlier, rest, events₀, tracker₀, decided, hsamples, hrun₀,
        congrArg ConditionCell.active hcell₀, congrArg ConditionCell.change hcell₀, hseverity,
        hline, horigin, hcontrary⟩

end IncidentTracker

end Mocop
