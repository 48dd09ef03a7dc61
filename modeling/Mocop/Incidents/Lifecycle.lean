import Mocop.Incidents.Tracker

/-!
# `Mocop.Incidents.Lifecycle`: one condition of one host

The tracker spreads what it knows about one condition of one host over six dictionaries.
`Lifecycle` is what it means: the condition is inactive, perhaps with a candidate, or it is
active, with its opening time and the state of a pending recovery or severity change. A
combination such as a recovery count of an inactive condition cannot be written down.

`Lifecycle.step` is what one sample does to it, and which transition it creates.
`CycleWord` is the language of the transitions: an opening, then escalations and
de-escalations that alternate with the severity, then a resolution, and so on.
`run_cycleWord` is the main result of this module: the transitions of every run lead from
the severity before the run to the severity after it.
-/

set_option autoImplicit false

namespace Mocop

/-- What one sample says about one condition of its host. -/
structure Reading where
  key : String
  observed : Option IncidentCondition
  online : Bool
  observedAt : String
  observedDomains : List String

/-- What one probe result says about the condition `key`. -/
def ProbeResult.reading (policy : IncidentPolicy) (result : ProbeResult) (key : String) :
    Reading where
  key := key
  observed := (policy.conditions result).get? key
  online := result.status = .online
  observedAt := result.observedAt
  observedDomains := policy.observedDomains result

/-- A transition of one condition: its kind and the condition it reports. -/
abbrev Transition := IncidentState × IncidentCondition

/-- One condition of one host. -/
inductive Lifecycle where
  | inactive (candidate : Option Candidate)
  | active (condition : IncidentCondition) (openedAt lastObservedAt : String)
      (recovery : Option ℕ) (change : Option SeverityChange)

namespace Lifecycle

open IncidentTracker (nextStreak confirmed holdsSeverity isDelayed)

/-- The active condition, if any. -/
def condition : Lifecycle → Option IncidentCondition
  | inactive _ => none
  | active condition _ _ _ _ => some condition

/-- The severity of the active condition, if any. -/
def severity (l : Lifecycle) : Option IncidentSeverity := l.condition.map (·.severity)

section
variable (epochSeconds : String → Option ℚ)

/-- A sample shows an inactive condition. -/
def seenInactive (candidate : Option Candidate) (new : IncidentCondition) :
    Lifecycle × Option Transition :=
  if new.belowThreshold then (inactive none, none)
  else
    let pending := candidate.getD (new, 0, new.observedAt)
    let streak := nextStreak (pending.1.severity, pending.2) new
    if confirmed epochSeconds streak new then
      (active new new.observedAt new.observedAt none none, some (.opened, new))
    else (inactive (some (new, streak)), none)

/-- A sample shows an active condition. -/
def seenActive (old : IncidentCondition) (openedAt : String)
    (change : Option SeverityChange) (new : IncidentCondition) :
    Lifecycle × Option Transition :=
  let new := if holdsSeverity new old then
    { new with severity := old.severity } else new
  if old.severity = new.severity then
    (active new openedAt new.observedAt none none, none)
  else
    let streak := nextStreak (change.getD (new.severity, 0, new.observedAt)) new
    if confirmed epochSeconds streak new then
      (active new openedAt new.observedAt none none,
        some (if new.severity = .critical then .escalated else .deescalated, new))
    else
      (active { new with severity := old.severity, criticalAt := old.criticalAt } openedAt
        new.observedAt none (some (new.severity, streak)), none)

/-- A sample does not show an active condition. Only an online sample that is not older than
the opening and carries the telemetry of the condition advances the recovery. -/
def unseenActive (reading : Reading) (old : IncidentCondition)
    (openedAt lastObservedAt : String) (recovery : Option ℕ) :
    Lifecycle × Option Transition :=
  if reading.online && !isDelayed (epochSeconds reading.observedAt)
        (epochSeconds openedAt)
      && !telemetryUnknown old.category reading.key reading.observedDomains then
    let count := recovery.getD 0 + 1
    if old.recoveryCycles ≤ count then (inactive none, some (.resolved, old))
    else (active old openedAt lastObservedAt (some count) none, none)
  else (active old openedAt lastObservedAt recovery none, none)

/-- What one sample does to a condition, and the transition it creates. -/
def step (l : Lifecycle) (reading : Reading) : Lifecycle × Option Transition :=
  match l, reading.observed with
  | inactive candidate, some new => seenInactive epochSeconds candidate new
  | inactive _, none => (inactive none, none)
  | active old openedAt _ _ change, some new =>
    seenActive epochSeconds old openedAt change new
  | active old openedAt lastObservedAt recovery _, none =>
    unseenActive epochSeconds reading old openedAt lastObservedAt recovery

/-- What a sample drops before it is read: a candidate that it does not confirm, and a
pending severity change of a condition that it does not show. -/
def settle (observed : Option IncidentCondition) : Lifecycle → Lifecycle
  | inactive candidate =>
    match observed with
    | some new => inactive (if new.belowThreshold then none else candidate)
    | none => inactive none
  | active old openedAt lastObservedAt recovery change =>
    active old openedAt lastObservedAt recovery (if observed.isSome then change else none)

/-- The step of a settled condition is the step of the condition. -/
theorem step_settle (l : Lifecycle) (reading : Reading) :
    (l.settle reading.observed).step epochSeconds reading = l.step epochSeconds reading := by
  cases l with
  | inactive candidate =>
    cases hobs : reading.observed with
    | none => simp only [settle, step, hobs]
    | some new =>
      by_cases hbelow : new.belowThreshold = true
      · simp only [settle, step, hobs, seenInactive, hbelow, if_true]
      · simp only [settle, step, hobs, hbelow, if_false, Bool.false_eq_true]
  | active old openedAt lastObservedAt recovery change =>
    cases hobs : reading.observed <;> simp [settle, step, hobs]

/-- A sample of a host that is not online leaves a condition it does not show settled. -/
theorem step_offline (l : Lifecycle) (reading : Reading) (hnone : reading.observed = none)
    (hoffline : reading.online = false) :
    l.step epochSeconds reading = (l.settle none, none) := by
  cases l <;> simp [step, hnone, settle, unseenActive, hoffline]

/-- What holds of the observed condition and of the active one before a step holds of the
active one after it and of the transition: the step makes a condition up only by putting the
established severity, or severity and critical line, into the observed one. -/
theorem step_condition_of {P : IncidentCondition → Prop} (l : Lifecycle) (reading : Reading)
    (hnew : ∀ new, reading.observed = some new → P new)
    (hold : ∀ old, l.condition = some old → P old)
    (hheld : ∀ new old, P new → P old → P { new with severity := old.severity }
      ∧ P { new with severity := old.severity, criticalAt := old.criticalAt }) :
    (∀ condition, (l.step epochSeconds reading).1.condition = some condition → P condition)
      ∧ ∀ transition, (l.step epochSeconds reading).2 = some transition → P transition.2 := by
  cases l with
  | inactive candidate =>
    cases hobs : reading.observed with
    | none => simp [step, hobs, Lifecycle.condition]
    | some new =>
      have hP := hnew new hobs
      simp only [step, hobs, seenInactive]
      split
      · simp [Lifecycle.condition]
      · split <;> simp [Lifecycle.condition, hP]
  | active old openedAt lastObservedAt recovery change =>
    have hP : P old := hold old rfl
    cases hobs : reading.observed with
    | none =>
      simp only [step, hobs, unseenActive]
      split
      · split <;> simp [Lifecycle.condition, hP]
      · simp [Lifecycle.condition, hP]
    | some new =>
      have hPnew := hnew new hobs
      obtain ⟨hseverity, hline⟩ := hheld new old hPnew hP
      simp only [step, hobs, seenActive]
      by_cases hholds : holdsSeverity new old = true
      · simp [hholds, Lifecycle.condition, hseverity]
      · simp only [if_neg hholds]
        split
        · simp [Lifecycle.condition, hPnew]
        · split <;> simp [Lifecycle.condition, hPnew, hline]

/-- A condition keeps its key: the sample reports it under the key of the reading. -/
theorem step_condition_key (l : Lifecycle) (reading : Reading)
    (hnew : ∀ new, reading.observed = some new → new.key = reading.key)
    (hl : ∀ old, l.condition = some old → old.key = reading.key) (condition : IncidentCondition)
    (h : (l.step epochSeconds reading).1.condition = some condition) :
    condition.key = reading.key :=
  (step_condition_of epochSeconds l reading hnew hl fun _ _ hkey _ => ⟨hkey, hkey⟩).1 condition h

end

/-! ### The language of the transitions -/

/-- Where a transition leads from the severity before it, where it may occur at all:
an opening only from an inactive condition, an escalation only from `warning`, a
de-escalation only from `critical`, and a resolution only under the severity then active. -/
def accept (before : Option IncidentSeverity) (transition : Transition) :
    Option (Option IncidentSeverity) :=
  match before, transition.1, transition.2.severity with
  | none, .opened, severity => some (some severity)
  | some .warning, .escalated, .critical => some (some .critical)
  | some .critical, .deescalated, .warning => some (some .warning)
  | some before, .resolved, severity => if before = severity then some none else none
  | _, _, _ => none

/-- The transitions form a word of cycles that leads from one severity to another. -/
def CycleWord (before : Option IncidentSeverity) (transitions : List Transition)
    (after : Option IncidentSeverity) : Prop :=
  transitions.foldlM accept before = some after

theorem CycleWord.nil (severity : Option IncidentSeverity) :
    CycleWord severity [] severity := rfl

/-- An accepted transition is a word. -/
theorem CycleWord.singleton {before after : Option IncidentSeverity}
    {transition : Transition} (h : accept before transition = some after) :
    CycleWord before [transition] after := by
  rw [CycleWord, List.foldlM_cons, h]
  rfl

/-- Two words in a row. -/
theorem CycleWord.append {before middle after : Option IncidentSeverity}
    {first second : List Transition} (h : CycleWord before first middle)
    (h' : CycleWord middle second after) : CycleWord before (first ++ second) after := by
  unfold CycleWord at *
  rw [List.foldlM_append, h]
  exact h'

/-- The severities of a severity change differ, so the transition is accepted. -/
private theorem accept_change {old : IncidentCondition} {new : IncidentCondition}
    (h : old.severity ≠ new.severity) :
    accept (some old.severity)
      (if new.severity = .critical then .escalated else .deescalated, new)
        = some (some new.severity) := by
  cases hold : old.severity <;> cases hnew : new.severity <;> simp_all [accept]

section
variable {epochSeconds : String → Option ℚ}

/-- A sample that shows an inactive condition opens it or leaves it inactive. -/
theorem seenInactive_cycleWord (candidate : Option Candidate) (new : IncidentCondition) :
    CycleWord none (seenInactive epochSeconds candidate new).2.toList
      (seenInactive epochSeconds candidate new).1.severity := by
  unfold seenInactive
  dsimp only
  split
  · exact CycleWord.nil _
  · split
    · rfl
    · exact CycleWord.nil _

/-- A sample that shows an active condition keeps its severity or changes it. -/
theorem seenActive_cycleWord (old : IncidentCondition) (openedAt : String)
    (change : Option SeverityChange) (new : IncidentCondition) :
    CycleWord (some old.severity) (seenActive epochSeconds old openedAt change new).2.toList
      (seenActive epochSeconds old openedAt change new).1.severity := by
  unfold seenActive
  dsimp only
  generalize (if holdsSeverity new old then
    { new with severity := old.severity } else new) = held
  split
  · next hsame =>
    rw [hsame]
    exact CycleWord.nil _
  · next hdiff =>
    split
    · exact CycleWord.singleton (accept_change hdiff)
    · exact CycleWord.nil _

/-- A sample that does not show an active condition resolves it or keeps its severity. -/
theorem unseenActive_cycleWord (reading : Reading) (old : IncidentCondition)
    (openedAt lastObservedAt : String) (recovery : Option ℕ) :
    CycleWord (some old.severity)
      (unseenActive epochSeconds reading old openedAt lastObservedAt recovery).2.toList
      (unseenActive epochSeconds reading old openedAt lastObservedAt recovery).1.severity := by
  unfold unseenActive
  dsimp only
  split
  · split
    · refine CycleWord.singleton ?_
      cases hseverity : old.severity <;> simp [accept, hseverity, severity, condition]
    · exact CycleWord.nil _
  · exact CycleWord.nil _

/-- The transition of one step leads from the severity before it to the one after it. -/
theorem step_cycleWord (l : Lifecycle) (reading : Reading) :
    CycleWord l.severity (l.step epochSeconds reading).2.toList
      (l.step epochSeconds reading).1.severity := by
  cases l with
  | inactive candidate =>
    cases hobs : reading.observed with
    | none =>
      simp only [step, hobs]
      exact CycleWord.nil _
    | some new =>
      simp only [step, hobs]
      exact seenInactive_cycleWord candidate new
  | active old openedAt lastObservedAt recovery change =>
    cases hobs : reading.observed with
    | none =>
      simp only [step, hobs]
      exact unseenActive_cycleWord reading old openedAt lastObservedAt recovery
    | some new =>
      simp only [step, hobs]
      exact seenActive_cycleWord old openedAt change new

end

/-! ### Runs -/

section
variable (epochSeconds : String → Option ℚ)

/-- The lifecycle after a run of samples, and the transitions of the run. -/
def run (l : Lifecycle) : List Reading → Lifecycle × List Transition
  | [] => (l, [])
  | reading :: rest =>
    let next := l.step epochSeconds reading
    let final := next.1.run rest
    (final.1, next.2.toList ++ final.2)

/-- The transitions of every run form a word of cycles that leads from the severity before
the run to the severity after it. -/
theorem run_cycleWord (l : Lifecycle) (readings : List Reading) :
    CycleWord l.severity (l.run epochSeconds readings).2
      (l.run epochSeconds readings).1.severity := by
  induction readings generalizing l with
  | nil => exact CycleWord.nil _
  | cons reading rest ih => exact (step_cycleWord l reading).append (ih _)

end

end Lifecycle

end Mocop
