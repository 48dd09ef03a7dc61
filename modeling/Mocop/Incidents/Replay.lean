import Mocop.Incidents.Refinement

/-!
# `Mocop.Incidents.Replay`: the event stream replays to the active set

A run of the tracker is a list of samples, each judged by some policy and looped over in
some set order. `runSamples` takes them through `update` and collects the events.

`run_refines` is the run lemma: from a tracker that represents a fleet, a run does not
raise, ends in a tracker that represents the fleet after the run, and creates for every
host and key the transitions of the run of its lifecycle, under consecutive event ids.
`runSamples_replays` is the result about a tracker built from restored incidents: the
transitions of every condition form a word of cycles (`CycleWord`), the event ids increase
by one, folding the events over the restored set yields the active set, and the six
dictionaries stay aligned.
-/

set_option autoImplicit false

namespace Mocop

/-- One call of `update`: the policy in force, the set order of the loop and the probe
result. -/
structure Sample where
  policy : IncidentPolicy
  setOrder : SetOrder
  result : ProbeResult

/-- The transitions of one condition of one host among some events. -/
def transitionsFor (events : List IncidentEvent) (host key : String) : List Transition :=
  transitionsOf (events.filter (fun event => event.host = host)) key

theorem transitionsFor_append (events more : List IncidentEvent) (host key : String) :
    transitionsFor (events ++ more) host key
      = transitionsFor events host key ++ transitionsFor more host key := by
  rw [transitionsFor, List.filter_append, transitionsOf_append]
  rfl

/-- Events of one host hold no transition of another host. -/
theorem transitionsFor_of_host {events : List IncidentEvent} {host : String}
    (h : ∀ event ∈ events, event.host = host) (host' key : String) :
    transitionsFor events host' key
      = if host' = host then transitionsOf events key else [] := by
  unfold transitionsFor
  by_cases hhost : host' = host
  · rw [if_pos hhost, List.filter_eq_self.mpr]
    intro event hevent
    simp [h event hevent, hhost]
  · have hnone : events.filter (fun event => event.host = host') = [] :=
      List.filter_eq_nil_iff.mpr fun event hevent => by
        simpa [h event hevent] using Ne.symm hhost
    rw [if_neg hhost, hnone]
    rfl

/-- The active severities after one event. -/
def applyEvent (severities : Dict (String × String) IncidentSeverity)
    (event : IncidentEvent) : Dict (String × String) IncidentSeverity :=
  if event.state = .resolved then severities.erase (event.host, event.condition.key)
  else severities.set (event.host, event.condition.key) event.condition.severity

/-- The severities of the restored incidents. Of two incidents with one host and key the
later one counts. -/
def restoredSet (openIncidents : List OpenIncident) :
    Dict (String × String) IncidentSeverity :=
  Dict.ofList (openIncidents.map
    (fun restored => ((restored.host, restored.condition.key), restored.condition.severity)))

namespace IncidentTracker

/-- The severity of the active condition of a host and a key, if any. -/
def severityOf (tracker : IncidentTracker) (host key : String) : Option IncidentSeverity :=
  ((rowOf tracker.active host).get? key).map (·.severity)

/-- The six dictionaries are aligned: the active conditions, the opening times and the times
of the last observation have the same keys, no candidate is active, and recovery counts and
severity changes belong to active conditions. -/
structure RowsAligned (tracker : IncidentTracker) : Prop where
  openedAt : ∀ host key, (rowOf tracker.openedAt host).contains key
    = (rowOf tracker.active host).contains key
  lastObservedAt : ∀ host key, (rowOf tracker.lastObservedAt host).contains key
    = (rowOf tracker.active host).contains key
  candidates : ∀ host key, (rowOf tracker.candidates host).contains key = true →
    (rowOf tracker.active host).contains key = false
  recoveries : ∀ host key, (rowOf tracker.recoveries host).contains key = true →
    (rowOf tracker.active host).contains key = true
  severityChanges : ∀ host key, (rowOf tracker.severityChanges host).contains key = true →
    (rowOf tracker.active host).contains key = true

variable {tracker : IncidentTracker}

/-- A tracker that represents a fleet is aligned: no lifecycle lays out another cell. -/
theorem Represents.rowsAligned {fleet : Fleet} (h : tracker.Represents fleet) :
    tracker.RowsAligned := by
  have hcell : ∀ host key, ∃ l : Lifecycle, tracker.cell host key = l.render :=
    fun host key => ⟨_, h.cell_eq host key⟩
  constructor
  all_goals
    intro host key
    obtain ⟨l, hl⟩ := hcell host key
    simp only [cell] at hl
    cases l <;> simp_all [Lifecycle.render]

/-- The active severity is the severity of the represented lifecycle. -/
theorem Represents.severityOf_eq {fleet : Fleet} (h : tracker.Represents fleet)
    (host key : String) :
    tracker.severityOf host key = (fleet host key).severity := by
  rw [severityOf, h.previous_eq]
  rfl

section
variable (epochSeconds : String → Option ℚ)

/-- Takes samples through the tracker, one after the other, and collects the events. -/
def runSamples : IncidentTracker → List Sample →
    Except KeyError (List IncidentEvent × IncidentTracker)
  | tracker, [] => .ok ([], tracker)
  | tracker, sample :: rest => do
    let (created, tracker) ←
      tracker.update epochSeconds sample.policy sample.setOrder sample.result
    let (later, tracker) ← runSamples tracker rest
    return (created ++ later, tracker)

/-- What the samples say about one condition of one host. -/
def readingsFor (samples : List Sample) (host key : String) : List Reading :=
  (samples.filter (fun sample => sample.result.host = host)).map
    (fun sample => sample.result.reading sample.policy key)

/-- From a tracker that represents a fleet, a run does not raise. It ends in a tracker that
represents the fleet after the run, creates the transitions of the run of each lifecycle,
and numbers its events consecutively. -/
theorem run_refines {fleet : Fleet} (h : tracker.Represents fleet) (samples : List Sample) :
    ∃ events tracker' fleet', tracker.runSamples epochSeconds samples = .ok (events, tracker')
      ∧ tracker'.Represents fleet'
      ∧ (∀ host key, ((fleet' host key), transitionsFor events host key)
        = (fleet host key).run epochSeconds (readingsFor samples host key))
      ∧ events.map (·.eventId) = List.range' tracker.log.nextEventId events.length
      ∧ tracker'.log.nextEventId = tracker.log.nextEventId + events.length := by
  induction samples generalizing tracker fleet with
  | nil => exact ⟨[], tracker, fleet, rfl, h, fun _ _ => rfl, rfl, rfl⟩
  | cons sample rest ih =>
    obtain ⟨w, hupdate, hstep, hcreated, hextends⟩ :=
      @update_refines epochSeconds _ _ h sample.policy sample.result sample.setOrder
    obtain ⟨later, tracker', fleet', hrun, hrepresents, hlifecycle, hids, hnext⟩ := ih hstep
    refine ⟨w.created ++ later, tracker', fleet', ?_, hrepresents, fun host key => ?_, ?_, ?_⟩
    · simp only [runSamples, hupdate, hrun, bind, Except.bind]
      rfl
    · have hsource : ∀ event ∈ w.created, event.host = sample.result.host :=
        fun event hevent => (hextends.source event hevent).1
      have hrest := hlifecycle host key
      rw [transitionsFor_append, transitionsFor_of_host hsource]
      unfold readingsFor at hrest ⊢
      by_cases hhost : sample.result.host = host
      · subst hhost
        simp only [Fleet.step, if_true] at hrest
        rw [if_pos rfl, hcreated, List.filter_cons_of_pos (by simp), List.map_cons,
          Lifecycle.run, ← hrest]
      · rw [if_neg (Ne.symm hhost), List.nil_append, List.filter_cons_of_neg (by simpa using hhost),
          hrest, Fleet.step, if_neg (Ne.symm hhost)]
    · rw [List.map_append, hextends.ids, hids]
      show _ ++ List.range' w.log.nextEventId _ = _
      rw [hextends.nextEventId, List.length_append, ← List.range'_append_1]
    · rw [hnext]
      show w.log.nextEventId + _ = _
      rw [hextends.nextEventId, List.length_append]
      omega

end

end IncidentTracker

/-! ### Folding the events -/

/-- The severity that the last transition leaves. -/
def severityAfter (_ : Option IncidentSeverity) (transition : Transition) :
    Option IncidentSeverity :=
  if transition.1 = .resolved then none else some transition.2.severity

/-- An accepted transition leads to the severity that it leaves. -/
theorem severityAfter_of_accept {before after : Option IncidentSeverity}
    {transition : Transition} (h : Lifecycle.accept before transition = some after) :
    severityAfter before transition = after := by
  obtain ⟨state, condition⟩ := transition
  cases hseverity : condition.severity <;> cases state <;> rcases before with _ | _ | _ <;>
    simp_all [Lifecycle.accept, severityAfter]

/-- A word leads to the severity that its last transition leaves. -/
theorem foldl_severityAfter {before after : Option IncidentSeverity}
    {transitions : List Transition} (h : Lifecycle.CycleWord before transitions after) :
    transitions.foldl severityAfter before = after := by
  induction transitions generalizing before with
  | nil => exact Option.some.inj h
  | cons transition rest ih =>
    rw [Lifecycle.CycleWord, List.foldlM_cons] at h
    obtain ⟨middle, haccept, hrest⟩ := Option.bind_eq_some_iff.mp h
    rw [List.foldl_cons, severityAfter_of_accept haccept]
    exact ih hrest

/-- Folding events acts on each host and key through its own transitions. -/
theorem get?_foldl_applyEvent (events : List IncidentEvent)
    (severities : Dict (String × String) IncidentSeverity) (host key : String) :
    (events.foldl applyEvent severities).get? (host, key)
      = (transitionsFor events host key).foldl severityAfter (severities.get? (host, key)) := by
  induction events generalizing severities with
  | nil => rfl
  | cons event rest ih =>
    rw [List.foldl_cons, ih, ← List.singleton_append, transitionsFor_append,
      List.foldl_append]
    congr 1
    by_cases hsame : event.host = host ∧ event.condition.key = key
    · obtain ⟨rfl, rfl⟩ := hsame
      by_cases hstate : event.state = .resolved <;>
        simp [applyEvent, hstate, transitionsFor, transitionsOf, severityAfter]
    · have hne : ¬ (host = event.host ∧ key = event.condition.key) :=
        fun h => hsame ⟨h.1.symm, h.2.symm⟩
      have hnone : transitionsFor [event] host key = [] := by
        rw [transitionsFor, transitionsOf, List.map_eq_nil_iff, List.filter_eq_nil_iff]
        intro e he
        simp only [List.mem_filter, List.mem_singleton, decide_eq_true_eq] at he
        obtain ⟨rfl, hhost⟩ := he
        simpa using fun hkey => hsame ⟨hhost, hkey⟩
      rw [hnone, List.foldl_nil]
      by_cases hstate : event.state = .resolved <;>
        simp [applyEvent, hstate, Prod.mk.injEq, hne]

namespace IncidentTracker

/-- A new tracker holds the restored severities. -/
theorem severityOf_init (policy : IncidentPolicy) (historyPoints : ℕ)
    (historicalEvents : List IncidentEvent) (openIncidents : List OpenIncident)
    (host key : String) :
    (init policy historyPoints historicalEvents openIncidents).severityOf host key
      = (restoredSet openIncidents).get? (host, key) := by
  rw [(init_represents policy historyPoints historicalEvents openIncidents).severityOf_eq]
  induction openIncidents using List.reverseRecOn with
  | nil => rfl
  | append_singleton earlier restored ih =>
    rw [restoredFleet, List.foldl_append, restoredSet, List.map_append, Dict.ofList,
      List.foldl_append]
    simp only [List.foldl_cons, List.foldl_nil, List.map_cons, List.map_nil, Dict.get?_set,
      restoreLifecycle, Prod.mk.injEq]
    split
    · rfl
    · exact ih

/-- The event stream of a run: what its events are to the incidents restored before it and
to the tracker after it. -/
structure Replays (openIncidents : List OpenIncident) (firstEventId : ℕ)
    (events : List IncidentEvent) (tracker : IncidentTracker) : Prop where
  cycles : ∀ host key, Lifecycle.CycleWord ((restoredSet openIncidents).get? (host, key))
    (transitionsFor events host key) (tracker.severityOf host key)
  eventIds : events.map (·.eventId) = List.range' firstEventId events.length
  nextEventId : tracker.log.nextEventId = firstEventId + events.length
  active : ∀ host key, (events.foldl applyEvent (restoredSet openIncidents)).get? (host, key)
    = tracker.severityOf host key
  aligned : tracker.RowsAligned

/-- The event stream replays to the active set. A tracker built from any open incidents
takes any samples without raising. The events of each condition form a word of cycles from
its restored severity to its active one, the event ids count on from the restored window,
folding the events over the restored set yields the active set, and the six dictionaries
are aligned. -/
theorem runSamples_replays (epochSeconds : String → Option ℚ) (policy : IncidentPolicy)
    (historyPoints : ℕ) (historicalEvents : List IncidentEvent)
    (openIncidents : List OpenIncident) (samples : List Sample) :
    ∃ events tracker firstEventId,
      (init policy historyPoints historicalEvents openIncidents).runSamples epochSeconds samples
        = .ok (events, tracker)
      ∧ Replays openIncidents firstEventId events tracker
      ∧ ∀ event ∈ lastItems historyPoints historicalEvents, event.eventId < firstEventId := by
  obtain ⟨events, tracker, fleet, hrun, hrepresents, hlifecycle, hids, hnext⟩ :=
    run_refines epochSeconds
      (init_represents policy historyPoints historicalEvents openIncidents) samples
  have hcycles : ∀ host key,
      Lifecycle.CycleWord ((restoredSet openIncidents).get? (host, key))
        (transitionsFor events host key) (tracker.severityOf host key) := fun host key => by
    have hword := Lifecycle.run_cycleWord epochSeconds
      (restoredFleet policy.recoveryCycles openIncidents host key)
      (readingsFor samples host key)
    rw [← hlifecycle host key] at hword
    rwa [hrepresents.severityOf_eq, ← severityOf_init policy historyPoints historicalEvents,
      (init_represents policy historyPoints historicalEvents openIncidents).severityOf_eq]
  refine ⟨events, tracker, _, hrun, ⟨hcycles, hids, hnext, fun host key => ?_,
    hrepresents.rowsAligned⟩, lt_nextEventId_init policy historyPoints historicalEvents
      openIncidents⟩
  rw [get?_foldl_applyEvent, foldl_severityAfter (hcycles host key)]

end IncidentTracker

end Mocop
