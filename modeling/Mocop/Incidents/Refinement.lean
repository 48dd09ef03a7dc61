import Mocop.Incidents.Lifecycle
import Mocop.Lib.KeyedFold

/-!
# `Mocop.Incidents.Refinement`: the tracker refines the lifecycles

The cell of a host and a key is what the six dictionaries of the tracker hold for them.
`Lifecycle.render` lays a lifecycle out as a cell, and a tracker `Represents` a fleet of
lifecycles when each of its cells is laid out so. Only such trackers are reachable:

- `init_represents`: a new tracker represents the restored incidents;
- `update_refines`: from a tracker that represents a fleet, `update` does not raise, the
  new tracker represents the fleet after one step of every lifecycle of the host, and the
  created transitions are those of the steps.

Both loops of `update` stay in the cell of the key they visit (`observe_keyLocal`,
`recover_keyLocal`), so the loop rule `KeyLocal.foldlM` covers them in any order.
-/

set_option autoImplicit false

namespace Mocop

/-- What the six dictionaries hold for one host and one key. -/
@[ext] structure ConditionCell where
  active : Option IncidentCondition
  candidate : Option Candidate
  recovery : Option ℕ
  change : Option SeverityChange
  openedAt : Option String
  lastObservedAt : Option String

/-- A lifecycle, laid out over the six dictionaries. -/
def Lifecycle.render : Lifecycle → ConditionCell
  | .inactive candidate => ⟨none, candidate, none, none, none, none⟩
  | .active condition openedAt lastObservedAt recovery change =>
    ⟨some condition, none, recovery, change, some openedAt, some lastObservedAt⟩

@[simp] theorem Lifecycle.render_active (l : Lifecycle) : l.render.active = l.condition := by
  cases l <;> rfl

/-- The transitions of one key among some events. -/
def transitionsOf (events : List IncidentEvent) (key : String) : List Transition :=
  (events.filter (fun event => event.condition.key = key)).map
    (fun event => (event.state, event.condition))

theorem transitionsOf_append (events more : List IncidentEvent) (key : String) :
    transitionsOf (events ++ more) key = transitionsOf events key ++ transitionsOf more key := by
  simp [transitionsOf]

namespace IncidentTracker

/-- The cell of a host and a key. -/
def cell (tracker : IncidentTracker) (host key : String) : ConditionCell where
  active := (rowOf tracker.active host).get? key
  candidate := (rowOf tracker.candidates host).get? key
  recovery := (rowOf tracker.recoveries host).get? key
  change := (rowOf tracker.severityChanges host).get? key
  openedAt := (rowOf tracker.openedAt host).get? key
  lastObservedAt := (rowOf tracker.lastObservedAt host).get? key

/-- The cell of a key in the local variables of an update. -/
def Locals.cell (w : Locals) (key : String) : ConditionCell where
  active := w.current.get? key
  candidate := w.candidates.get? key
  recovery := w.recoveries.get? key
  change := w.severityChanges.get? key
  openedAt := w.openedAt.get? key
  lastObservedAt := w.lastObservedAt.get? key

/-- The cell of a key with the transitions created for it so far. -/
def Locals.view (w : Locals) (key : String) : ConditionCell × List Transition :=
  (w.cell key, transitionsOf w.created key)

/-- The row of a host after its row was replaced. -/
@[simp] theorem rowOf_set {ν : Type} (table : Dict String (Dict String ν))
    (host : String) (row : Dict String ν) (host' : String) :
    rowOf (table.set host row) host' = if host' = host then row else rowOf table host' := by
  unfold rowOf
  rw [Dict.getD_eq, Dict.get?_set]
  by_cases h : host' = host
  · simp [h]
  · simp [h, Dict.getD_eq]

/-- The cell of a key of the host whose rows were stored, and of any other host. -/
theorem cell_store (tracker : IncidentTracker) (host : String) (w : Locals)
    (host' key : String) :
    (tracker.store host w).cell host' key
      = if host' = host then w.cell key else tracker.cell host' key := by
  by_cases h : host' = host
  · simp [IncidentTracker.cell, store, Locals.cell, h]
  · simp [IncidentTracker.cell, store, h]

/-! ### The loops stay in the cell of their key -/

/-- An appended transition changes no cell and is the last one of its key. -/
theorem view_append (w : Locals) (host : String) (condition : IncidentCondition)
    (state : IncidentState) (observedAt key : String) :
    (w.append host condition state observedAt).view key
      = ((w.view key).1,
        (w.view key).2 ++ (if condition.key = key then [(state, condition)] else [])) := by
  refine Prod.ext rfl ?_
  show transitionsOf (w.created ++ _) key = _
  rw [transitionsOf_append]
  by_cases h : condition.key = key <;> simp [transitionsOf, EventLog.append, h, Locals.view]

section
variable (epochSeconds : String → Option ℚ) (host observedAt : String)

open Lifecycle (seenActive seenInactive unseenActive)

/-- The first loop on an active condition: the view of its own key follows the lifecycle,
and every other view is unchanged. -/
theorem observeActive_view (w : Locals) (key openedAt lastObservedAt : String)
    (old new : IncidentCondition) (change : Option SeverityChange) (hkey : new.key = key)
    (hcell : w.cell key = (Lifecycle.active old openedAt lastObservedAt none change).render)
    (k : String) :
    (observeActive epochSeconds host observedAt w key old new).view k =
      if k = key then
        ((seenActive epochSeconds old openedAt change new).1.render,
          (w.view key).2 ++ (seenActive epochSeconds old openedAt change new).2.toList)
      else w.view k := by
  have hchange : w.severityChanges.get? key = change := congrArg ConditionCell.change hcell
  have hopened : w.openedAt.get? key = some openedAt := congrArg ConditionCell.openedAt hcell
  have hrecovery : w.recoveries.get? key = none := congrArg ConditionCell.recovery hcell
  have hheld : (if holdsSeverity new old then { new with severity := old.severity }
      else new).key = key := by
    split <;> exact hkey
  have hobs : (if holdsSeverity new old then { new with severity := old.severity }
      else new).observedAt = new.observedAt := by
    split <;> rfl
  unfold observeActive seenActive
  dsimp only
  rw [Dict.getD_eq, hchange]
  generalize (if holdsSeverity new old then { new with severity := old.severity } else new)
    = held at hheld hobs ⊢
  by_cases hsame : old.severity = held.severity
  · simp only [if_pos hsame]
    by_cases hk : k = key
    · subst hk
      simp [Locals.view, Locals.cell, Lifecycle.render, hopened, hrecovery, hobs]
    · simp [Locals.view, Locals.cell, hk]
  · simp only [if_neg hsame]
    by_cases hconf : confirmed epochSeconds
        (nextStreak (change.getD (held.severity, 0, held.observedAt)) held) held = true
    · simp only [hconf, Bool.not_true, Bool.false_eq_true, if_false, if_true, view_append]
      by_cases hk : k = key
      · subst hk
        simp [Locals.view, Locals.cell, Lifecycle.render, hopened, hrecovery, hheld, hobs]
      · have hne : held.key ≠ k := fun h => hk (h.symm.trans hheld)
        simp [Locals.view, Locals.cell, hk, hne]
    · simp only [hconf, Bool.not_false, if_true, Bool.false_eq_true, if_false]
      by_cases hk : k = key
      · subst hk
        simp [Locals.view, Locals.cell, Lifecycle.render, hopened, hrecovery, hobs]
      · simp [Locals.view, Locals.cell, hk]

/-- The first loop on an inactive condition. -/
theorem observeInactive_view (w : Locals) (key : String) (new : IncidentCondition)
    (candidate : Option Candidate) (hkey : new.key = key)
    (hbelow : new.belowThreshold = true → candidate = none)
    (hcell : w.cell key = (Lifecycle.inactive candidate).render) (k : String) :
    (observeInactive epochSeconds host observedAt w key new).view k =
      if k = key then
        ((seenInactive epochSeconds candidate new).1.render,
          (w.view key).2 ++ (seenInactive epochSeconds candidate new).2.toList)
      else w.view k := by
  have hcandidate : w.candidates.get? key = candidate :=
    congrArg ConditionCell.candidate hcell
  have hrecovery : w.recoveries.get? key = none := congrArg ConditionCell.recovery hcell
  have hchange : w.severityChanges.get? key = none := congrArg ConditionCell.change hcell
  have hactive : w.current.get? key = none := congrArg ConditionCell.active hcell
  have hopened : w.openedAt.get? key = none := congrArg ConditionCell.openedAt hcell
  have hlast : w.lastObservedAt.get? key = none :=
    congrArg ConditionCell.lastObservedAt hcell
  unfold observeInactive seenInactive
  dsimp only
  rw [Dict.getD_eq, hcandidate]
  by_cases hlow : new.belowThreshold = true
  · simp only [if_pos hlow]
    by_cases hk : k = key
    · subst hk
      simp [Locals.view, hcell, hbelow hlow]
    · simp [hk]
  · simp only [if_neg hlow]
    by_cases hconf : confirmed epochSeconds
        (nextStreak ((candidate.getD (new, 0, new.observedAt)).1.severity,
          (candidate.getD (new, 0, new.observedAt)).2) new) new = true
    · simp only [hconf, if_true, view_append]
      by_cases hk : k = key
      · subst hk
        simp [Locals.view, Locals.cell, Lifecycle.render, hrecovery, hchange, hkey]
      · have hne : new.key ≠ k := fun h => hk (h.symm.trans hkey)
        simp [Locals.view, Locals.cell, hk, hne]
    · simp only [hconf, Bool.false_eq_true, if_false]
      by_cases hk : k = key
      · subst hk
        simp [Locals.view, Locals.cell, Lifecycle.render, hrecovery, hchange, hactive,
          hopened, hlast]
      · simp [Locals.view, Locals.cell, hk]

/-- The second loop on an active condition. -/
theorem recoverActive_view (w : Locals) (reading : Reading) (old : IncidentCondition)
    (openedAt lastObservedAt : String) (recovery : Option ℕ) (hkey : old.key = reading.key)
    (honline : reading.online = true)
    (hcell : w.cell reading.key
      = (Lifecycle.active old openedAt lastObservedAt recovery none).render) (k : String) :
    (recoverActive epochSeconds host reading.observedAt reading.observedDomains w reading.key
        old openedAt).view k =
      if k = reading.key then
        ((unseenActive epochSeconds reading old openedAt lastObservedAt recovery).1.render,
          (w.view reading.key).2
            ++ (unseenActive epochSeconds reading old openedAt lastObservedAt
                recovery).2.toList)
      else w.view k := by
  have hactive : w.current.get? reading.key = some old := congrArg ConditionCell.active hcell
  have hcandidate : w.candidates.get? reading.key = none :=
    congrArg ConditionCell.candidate hcell
  have hrecovery : w.recoveries.get? reading.key = recovery :=
    congrArg ConditionCell.recovery hcell
  have hopened : w.openedAt.get? reading.key = some openedAt :=
    congrArg ConditionCell.openedAt hcell
  have hlast : w.lastObservedAt.get? reading.key = some lastObservedAt :=
    congrArg ConditionCell.lastObservedAt hcell
  have hunchanged : w.view k = if k = reading.key then
      ((Lifecycle.active old openedAt lastObservedAt recovery none).render,
        (w.view reading.key).2 ++ []) else w.view k := by
    by_cases hk : k = reading.key
    · rw [if_pos hk, hk, List.append_nil, ← hcell, Locals.view]
    · rw [if_neg hk]
  unfold recoverActive unseenActive
  rw [honline, Bool.true_and]
  by_cases hdelayed :
      isDelayed (epochSeconds reading.observedAt) (epochSeconds openedAt) = true
  · simpa [hdelayed] using hunchanged
  · by_cases hunknown :
        telemetryUnknown old.category reading.key reading.observedDomains = true
    · simpa [hdelayed, hunknown] using hunchanged
    · simp only [hdelayed, hunknown, Bool.false_eq_true, if_false, Bool.not_false,
        Bool.and_self, if_true, Dict.getD_eq, hrecovery]
      by_cases hcycles : old.recoveryCycles ≤ recovery.getD 0 + 1
      · simp only [if_pos hcycles, view_append]
        by_cases hk : k = reading.key
        · subst hk
          simp [Locals.view, Locals.cell, Lifecycle.render, hcandidate, hkey]
        · have hne : old.key ≠ k := fun h => hk (h.symm.trans hkey)
          simp [Locals.view, Locals.cell, hk, hne]
      · simp only [if_neg hcycles]
        by_cases hk : k = reading.key
        · subst hk
          simp [Locals.view, Locals.cell, Lifecycle.render, hcandidate, hactive, hopened,
            hlast]
        · simp [Locals.view, Locals.cell, hk]

/-- The first loop on the condition of a settled lifecycle. -/
theorem observe_view (w : Locals) (previous : Dict String IncidentCondition) (key : String)
    (new : IncidentCondition) (l : Lifecycle) (reading : Reading)
    (hobserved : reading.observed = some new) (hkey : new.key = key)
    (hprevious : previous.get? key = l.condition)
    (hcell : w.cell key = (l.settle (some new)).render) (k : String) :
    (observe epochSeconds host observedAt previous w (key, new)).view k =
      if k = key then
        ((l.step epochSeconds reading).1.render,
          (w.view key).2 ++ (l.step epochSeconds reading).2.toList)
      else w.view k := by
  have hstep := l.step_settle epochSeconds reading
  rw [hobserved] at hstep
  -- Only the recovery count of the visited key is dropped before the case split.
  have hcleared : ∀ k, ({ w with recoveries := w.recoveries.erase key } : Locals).view k
      = if k = key then ({ w.cell k with recovery := none }, (w.view k).2)
        else w.view k := fun k => by
    by_cases hk : k = key <;> simp [Locals.view, Locals.cell, hk]
  have hcleared' : ({ w with recoveries := w.recoveries.erase key } : Locals).cell key
      = { (l.settle (some new)).render with recovery := none } := by
    rw [← hcell]
    exact congrArg Prod.fst ((hcleared key).trans (if_pos rfl))
  have hframe : ∀ (view : ConditionCell × List Transition) (k : String),
      (if k = key then view
        else ({ w with recoveries := w.recoveries.erase key } : Locals).view k)
      = if k = key then view else w.view k := fun view k => by
    by_cases hk : k = key
    · rw [if_pos hk, if_pos hk]
    · rw [if_neg hk, if_neg hk, hcleared, if_neg hk]
  cases l with
  | inactive candidate =>
    have hnone : previous.get? key = none := hprevious
    unfold observe
    simp only [hnone]
    rw [observeInactive_view epochSeconds host observedAt _ key new _ hkey
      (fun hbelow => by simp [Lifecycle.settle, Lifecycle.render, hbelow]) hcleared', hframe,
      ← hstep]
    simp only [Lifecycle.settle, Lifecycle.step, hobserved]
    rfl
  | active old openedAt lastObservedAt recovery change =>
    have hsome : previous.get? key = some old := hprevious
    unfold observe
    simp only [hsome]
    rw [observeActive_view epochSeconds host observedAt _ key openedAt lastObservedAt old
      new _ hkey hcleared', hframe, ← hstep]
    simp only [Lifecycle.settle, Lifecycle.step, hobserved]
    rfl

/-- The first loop stays in the view of the key it visits, and passes its lifecycle through
one step. -/
theorem observe_keyLocal (previous : Dict String IncidentCondition) :
    KeyLocal (ε := KeyError) Locals.view Prod.fst
      (fun item view => item.2.key = item.1
        ∧ ∃ l : Lifecycle, previous.get? item.1 = l.condition
          ∧ view.1 = (l.settle (some item.2)).render)
      (fun item view view' => ∀ (l : Lifecycle) (reading : Reading),
        reading.observed = some item.2 → previous.get? item.1 = l.condition →
        view.1 = (l.settle (some item.2)).render →
        view' = ((l.step epochSeconds reading).1.render,
          view.2 ++ (l.step epochSeconds reading).2.toList))
      (fun w item => .ok (observe epochSeconds host observedAt previous w item)) where
  run := by
    rintro w ⟨key, new⟩ ⟨hkey, l, hprevious, hcell⟩
    refine ⟨_, rfl, fun l' reading hobserved hprevious' hcell' => ?_, fun k hk => ?_⟩
    · rw [observe_view epochSeconds host observedAt w previous key new l' reading hobserved
        hkey hprevious' hcell', if_pos rfl]
    · rw [observe_view epochSeconds host observedAt w previous key new l
        ⟨key, some new, true, observedAt, []⟩ rfl hkey hprevious hcell, if_neg hk]

/-- The second loop on the condition of a settled lifecycle: it does not raise, and the
condition takes the step of a sample that does not show it. -/
theorem recover_view (w : Locals) (previous : Dict String IncidentCondition)
    (l : Lifecycle) (reading : Reading) (old : IncidentCondition)
    (honline : reading.online = true) (hobserved : reading.observed = none)
    (hcondition : l.condition = some old) (hkey : old.key = reading.key)
    (hprevious : previous.get? reading.key = some old)
    (hcell : w.cell reading.key = (l.settle none).render) :
    ∃ w', recover epochSeconds host reading.observedAt previous reading.observedDomains w
        reading.key = .ok w' ∧ ∀ k, w'.view k =
      if k = reading.key then
        ((l.step epochSeconds reading).1.render,
          (w.view reading.key).2 ++ (l.step epochSeconds reading).2.toList)
      else w.view k := by
  cases l with
  | inactive candidate => simp [Lifecycle.condition] at hcondition
  | active old' openedAt lastObservedAt recovery change =>
    obtain rfl : old' = old := by simpa [Lifecycle.condition] using hcondition
    have hopened : w.openedAt.get? reading.key = some openedAt :=
      congrArg ConditionCell.openedAt hcell
    refine ⟨_, by rw [recover, Dict.item, Dict.item, hprevious, hopened], fun k => ?_⟩
    have hstep : (Lifecycle.active old' openedAt lastObservedAt recovery change).step
        epochSeconds reading
        = unseenActive epochSeconds reading old' openedAt lastObservedAt recovery := by
      simp only [Lifecycle.step, hobserved]
    rw [recoverActive_view epochSeconds host w reading old' openedAt lastObservedAt recovery
      hkey honline hcell k, hstep]

/-- The second loop stays in the view of the key it visits. -/
theorem recover_keyLocal (previous : Dict String IncidentCondition)
    (observedDomains : List String) :
    KeyLocal Locals.view Reading.key
      (fun reading view => (reading.online = true ∧ reading.observed = none
          ∧ reading.observedAt = observedAt ∧ reading.observedDomains = observedDomains)
        ∧ ∃ l : Lifecycle, ∃ old, l.condition = some old ∧ old.key = reading.key
          ∧ previous.get? reading.key = some old ∧ view.1 = (l.settle none).render)
      (fun reading view view' => ∀ l : Lifecycle, ∀ old, l.condition = some old →
        old.key = reading.key → previous.get? reading.key = some old →
        view.1 = (l.settle none).render →
        view' = ((l.step epochSeconds reading).1.render,
          view.2 ++ (l.step epochSeconds reading).2.toList))
      (fun w reading =>
        recover epochSeconds host observedAt previous observedDomains w reading.key) where
  run := by
    rintro w reading ⟨⟨honline, hobserved, rfl, rfl⟩, l, old, hcondition, hkey, hprevious,
      hcell⟩
    obtain ⟨w', hrun, hall⟩ := recover_view epochSeconds host w previous l reading old honline
      hobserved hcondition hkey hprevious hcell
    refine ⟨w', hrun, ?_, fun k hk => by rw [hall, if_neg hk]⟩
    intro l' old' hcondition' hkey' hprevious' hcell'
    obtain ⟨w'', hrun', hall'⟩ := recover_view epochSeconds host w previous l' reading old'
      honline hobserved hcondition' hkey' hprevious' hcell'
    obtain rfl : w'' = w' := Except.ok.inj (hrun'.symm.trans hrun)
    rw [hall', if_pos rfl]

end

/-! ### The log -/

/-- What one update adds to the log: transitions of its host and sample, under the next
event ids. -/
structure Locals.Extends (log : EventLog) (host observedAt : String) (w : Locals) : Prop where
  ids : w.created.map (·.eventId) = List.range' log.nextEventId w.created.length
  nextEventId : w.log.nextEventId = log.nextEventId + w.created.length
  version : w.log.version = log.version + w.created.length
  capacity : w.log.capacity = log.capacity
  source : ∀ event ∈ w.created, event.host = host ∧ event.observedAt = observedAt

section
variable {epochSeconds : String → Option ℚ} {log : EventLog} {host observedAt : String}

/-- Only the created transitions and the log matter. -/
theorem Locals.Extends.congr {w w' : Locals} (h : w.Extends log host observedAt)
    (hcreated : w'.created = w.created) (hlog : w'.log = w.log) :
    w'.Extends log host observedAt := by
  obtain ⟨hids, hnext, hversion, hcapacity, hsource⟩ := h
  exact ⟨hcreated ▸ hids, by rw [hlog, hcreated, hnext], by rw [hlog, hcreated, hversion],
    hlog ▸ hcapacity, hcreated ▸ hsource⟩

/-- An appended transition takes the next event id. -/
theorem Locals.Extends.append {w : Locals} (h : w.Extends log host observedAt)
    (condition : IncidentCondition) (state : IncidentState) :
    (w.append host condition state observedAt).Extends log host observedAt where
  ids := by
    simp only [Locals.append, EventLog.append, List.map_append, h.ids, List.map_cons,
      List.map_nil, List.length_append, List.length_singleton, h.nextEventId]
    rw [List.range'_concat, Nat.one_mul]
  nextEventId := by
    simp only [Locals.append, EventLog.append, List.length_append, List.length_singleton,
      h.nextEventId]
    omega
  version := by
    simp only [Locals.append, EventLog.append, List.length_append, List.length_singleton,
      h.version]
    omega
  capacity := h.capacity
  source := fun event hevent => by
    rcases List.mem_append.mp hevent with hevent | hevent
    · exact h.source event hevent
    · rw [List.mem_singleton.mp hevent]
      exact ⟨rfl, rfl⟩

/-- Before the loops nothing was added. -/
theorem locals_extends (tracker : IncidentTracker) (host observedAt : String)
    (observed : Dict String IncidentCondition) :
    (tracker.locals host observed).Extends tracker.log host observedAt :=
  ⟨rfl, rfl, rfl, rfl, fun _ hevent => absurd hevent List.not_mem_nil⟩

/-- The first loop extends the log. -/
theorem Locals.Extends.observe {w : Locals} (h : w.Extends log host observedAt)
    (previous : Dict String IncidentCondition) (item : String × IncidentCondition) :
    (observe epochSeconds host observedAt previous w item).Extends log host observedAt := by
  unfold IncidentTracker.observe
  dsimp only
  split
  · unfold observeActive
    dsimp only
    generalize (if holdsSeverity item.2 _ then _ else item.2) = held
    split
    · exact h.congr rfl rfl
    · split
      · exact h.congr rfl rfl
      · refine Locals.Extends.append ?_ held _
        exact h.congr rfl rfl
  · unfold observeInactive
    dsimp only
    split
    · exact h.congr rfl rfl
    · split
      · refine Locals.Extends.append ?_ item.2 _
        exact h.congr rfl rfl
      · exact h.congr rfl rfl

/-- The second loop extends the log. -/
theorem Locals.Extends.recoverActive {w : Locals} (h : w.Extends log host observedAt)
    (observedDomains : List String) (key : String) (old : IncidentCondition)
    (openedAt : String) :
    (recoverActive epochSeconds host observedAt observedDomains w key old openedAt).Extends log
      host observedAt := by
  unfold IncidentTracker.recoverActive
  dsimp only
  split
  · exact h
  · split
    · exact h
    · split
      · refine Locals.Extends.append ?_ old _
        exact h.congr rfl rfl
      · exact h.congr rfl rfl

/-- The whole first loop extends the log. -/
theorem Locals.Extends.observeAll {w : Locals} (h : w.Extends log host observedAt)
    (previous : Dict String IncidentCondition) (items : List (String × IncidentCondition)) :
    (items.foldl (IncidentTracker.observe epochSeconds host observedAt previous) w).Extends
      log host observedAt := by
  induction items generalizing w with
  | nil => exact h
  | cons item rest ih => exact ih (h.observe previous item)

/-- The whole second loop extends the log. -/
theorem Locals.Extends.recoverAll {w w' : Locals} (h : w.Extends log host observedAt)
    (previous : Dict String IncidentCondition) (observedDomains keys : List String)
    (hrun : keys.foldlM
      (recover epochSeconds host observedAt previous observedDomains) w = .ok w') :
    w'.Extends log host observedAt := by
  induction keys generalizing w with
  | nil => exact Except.ok.inj hrun ▸ h
  | cons key rest ih =>
    rw [List.foldlM_cons] at hrun
    cases hold : previous.item key with
    | error missing => simp [recover, hold, bind, Except.bind] at hrun
    | ok old =>
      cases hopened : w.openedAt.item key with
      | error missing => simp [recover, hold, hopened, bind, Except.bind] at hrun
      | ok openedAt =>
        simp only [recover, hold, hopened, bind, Except.bind] at hrun
        exact ih (h.recoverActive observedDomains key old openedAt) hrun

end

/-! ### One update -/

end IncidentTracker

/-- The lifecycle of every condition of every host. -/
abbrev Fleet := String → String → Lifecycle

/-- One sample takes every lifecycle of its host through one step. -/
def Fleet.step (epochSeconds : String → Option ℚ) (policy : IncidentPolicy)
    (result : ProbeResult) (fleet : Fleet) : Fleet := fun host key =>
  if host = result.host then
    ((fleet host key).step epochSeconds (result.reading policy key)).1
  else fleet host key

namespace IncidentTracker

/-- Each cell of the tracker lays out the lifecycle of its host and key, and every active
condition is stored under its own key. -/
structure Represents (tracker : IncidentTracker) (fleet : Fleet) : Prop where
  cell_eq : ∀ host key, tracker.cell host key = (fleet host key).render
  keyed : ∀ host key condition, (fleet host key).condition = some condition →
    condition.key = key

variable {tracker : IncidentTracker}

/-- The local variables hold the settled lifecycles of the host. -/
theorem locals_cell {fleet : Fleet} (h : tracker.Represents fleet) (host : String)
    (observed : Dict String IncidentCondition) (key : String) :
    (tracker.locals host observed).cell key
      = ((fleet host key).settle (observed.get? key)).render := by
  have hcell := h.cell_eq host key
  cases hl : fleet host key with
  | inactive candidate =>
    rw [hl] at hcell
    simp only [IncidentTracker.cell, Lifecycle.render, ConditionCell.mk.injEq] at hcell
    obtain ⟨hactive, hcandidate, hrecovery, hchange, hopened, hlast⟩ := hcell
    cases hobs : observed.get? key with
    | none =>
      simp [Locals.cell, locals, hobs, Lifecycle.settle, Lifecycle.render, hactive,
        hrecovery, hopened, hlast]
    | some new =>
      cases hbelow : new.belowThreshold <;>
        simp [Locals.cell, locals, hobs, hbelow, Lifecycle.settle, Lifecycle.render,
          hactive, hcandidate, hrecovery, hchange, hopened, hlast]
  | active old openedAt lastObservedAt recovery change =>
    rw [hl] at hcell
    simp only [IncidentTracker.cell, Lifecycle.render, ConditionCell.mk.injEq] at hcell
    obtain ⟨hactive, hcandidate, hrecovery, hchange, hopened, hlast⟩ := hcell
    cases hobs : observed.get? key <;>
      simp [Locals.cell, locals, hobs, Lifecycle.settle, Lifecycle.render, hactive,
        hcandidate, hrecovery, hchange, hopened, hlast]

section
variable {epochSeconds : String → Option ℚ} {tracker : IncidentTracker} {fleet : Fleet}
  (h : tracker.Represents fleet) (policy : IncidentPolicy) (result : ProbeResult)
include h

/-- The conditions active before the sample are those of the lifecycles. -/
theorem Represents.previous_eq (host key : String) :
    (rowOf tracker.active host).get? key = (fleet host key).condition := by
  rw [← Lifecycle.render_active, ← h.cell_eq host key]
  rfl

/-- After the first loop the conditions that the sample shows went through their step, and
the others are settled. -/
theorem observeAll_view (key : String) :
    ((policy.conditions result).entries.foldl
        (observe epochSeconds result.host result.observedAt
          (rowOf tracker.active result.host))
        (tracker.locals result.host (policy.conditions result))).view key =
      if ((policy.conditions result).get? key).isSome then
        (((fleet result.host key).step epochSeconds (result.reading policy key)).1.render,
          ((fleet result.host key).step epochSeconds (result.reading policy key)).2.toList)
      else (((fleet result.host key).settle none).render, []) := by
  set observed := policy.conditions result with hobserved
  have hstart : ∀ key, (tracker.locals result.host observed).view key
      = (((fleet result.host key).settle (observed.get? key)).render, []) :=
    fun key => Prod.ext (locals_cell h result.host observed key) rfl
  obtain ⟨w, hrun, hlisted, hother⟩ :=
    (observe_keyLocal epochSeconds result.host result.observedAt
      (rowOf tracker.active result.host)).foldlM observed.entries
      observed.nodup (tracker.locals result.host observed) (by
        rintro ⟨key, new⟩ hmem
        have hget := (observed.get?_eq_some_iff key new).mpr hmem
        refine ⟨(policy.derived result key new hget).key_eq, fleet result.host key,
          h.previous_eq result.host key, ?_⟩
        rw [hstart, hget])
  have hfold := (List.foldlM_pure (m := Except KeyError)).symm.trans hrun
  rw [Except.ok.inj hfold]
  cases hget : observed.get? key with
  | none =>
    have hnot : key ∉ observed.entries.map Prod.fst :=
      (observed.get?_eq_none_iff key).mp hget
    rw [hother key hnot, hstart, hget]
    rfl
  | some new =>
    have hmem := (observed.get?_eq_some_iff key new).mp hget
    rw [hlisted (key, new) hmem (fleet result.host key) (result.reading policy key) hget
      (h.previous_eq result.host key) (by rw [hstart, hget]), hstart]
    rfl

/-- The second loop of an online sample does not raise, and passes the active conditions
that the sample does not show through their step. -/
theorem recoverAll_view (setOrder : SetOrder) (honline : result.status = .online)
    (w : Locals) (hw : ∀ key, w.view key =
      if ((policy.conditions result).get? key).isSome then
        (((fleet result.host key).step epochSeconds (result.reading policy key)).1.render,
          ((fleet result.host key).step epochSeconds (result.reading policy key)).2.toList)
      else (((fleet result.host key).settle none).render, [])) :
    ∃ w', (setOrder.order ((rowOf tracker.active result.host).keys.filter
          (fun key => !(policy.conditions result).contains key))).foldlM
        (recover epochSeconds result.host result.observedAt
          (rowOf tracker.active result.host) (policy.observedDomains result)) w = .ok w'
      ∧ ∀ key, w'.view key =
        (((fleet result.host key).step epochSeconds (result.reading policy key)).1.render,
          ((fleet result.host key).step epochSeconds (result.reading policy key)).2.toList) := by
  set previous := rowOf tracker.active result.host with hprevious
  set observed := policy.conditions result with hobserved
  set missing := setOrder.order (previous.keys.filter (fun key => !observed.contains key))
    with hmissing
  have hmem : ∀ key, key ∈ missing ↔
      (∃ old, previous.get? key = some old) ∧ observed.get? key = none := fun key => by
    rw [hmissing, (setOrder.perm _).mem_iff, List.mem_filter, Dict.mem_keys,
      Option.isSome_iff_exists]
    simp
  have hnodup : ((missing.map (result.reading policy)).map Reading.key).Nodup := by
    rw [List.map_map, show Reading.key ∘ result.reading policy = id from rfl, List.map_id,
      hmissing, (setOrder.perm _).nodup_iff]
    exact previous.nodup_keys.filter _
  obtain ⟨w', hrun, hlisted, hother⟩ :=
    (recover_keyLocal epochSeconds result.host result.observedAt previous
      (policy.observedDomains result)).foldlM (missing.map (result.reading policy)) hnodup w (by
        intro reading hreading
        obtain ⟨key, hkey, rfl⟩ := List.mem_map.mp hreading
        obtain ⟨⟨old, hold⟩, hnone⟩ := (hmem key).mp hkey
        have hcondition := (h.previous_eq result.host key).symm.trans hold
        refine ⟨⟨by simpa [ProbeResult.reading] using honline, hnone, rfl, rfl⟩,
          fleet result.host key, old, hcondition, h.keyed _ _ _ hcondition, hold, ?_⟩
        rw [hw]
        simp [ProbeResult.reading, ← hobserved, hnone])
  rw [List.foldlM_map] at hrun
  refine ⟨w', hrun, fun key => ?_⟩
  by_cases hkey : key ∈ missing
  · obtain ⟨⟨old, hold⟩, hnone⟩ := (hmem key).mp hkey
    have hcondition := (h.previous_eq result.host key).symm.trans hold
    have hview : w.view key = (((fleet result.host key).settle none).render, []) := by
      rw [hw, hnone]
      rfl
    have hpost := hlisted (result.reading policy key) (List.mem_map_of_mem hkey)
      (fleet result.host key) old hcondition (h.keyed _ _ _ hcondition) hold
      (congrArg Prod.fst hview)
    rw [show (result.reading policy key).key = key from rfl, hview] at hpost
    exact hpost
  · have hnot : key ∉ (missing.map (result.reading policy)).map Reading.key := by
      rwa [List.map_map, show Reading.key ∘ result.reading policy = id from rfl, List.map_id]
    rw [hother key hnot, hw]
    cases hget : observed.get? key with
    | some new => rfl
    | none =>
      -- An unseen condition outside the loop is inactive.
      cases hl : fleet result.host key with
      | inactive candidate =>
        simp [Lifecycle.step, ProbeResult.reading, ← hobserved, hget, Lifecycle.settle]
      | active old openedAt lastObservedAt recovery change =>
        refine absurd ((hmem key).mpr ⟨⟨old, ?_⟩, hget⟩) hkey
        rw [hprevious, h.previous_eq, hl]
        rfl

/-- From a tracker that represents a fleet, one update does not raise. The new tracker
represents the fleet after the step of the sample, the transitions created for each
condition are those of its step, and the log is extended by them. -/
theorem update_refines (setOrder : SetOrder) :
    ∃ w, tracker.update epochSeconds policy setOrder result
        = .ok (w.created, tracker.store result.host w)
      ∧ (tracker.store result.host w).Represents (fleet.step epochSeconds policy result)
      ∧ (∀ key, transitionsOf w.created key
        = ((fleet result.host key).step epochSeconds (result.reading policy key)).2.toList)
      ∧ w.Extends tracker.log result.host result.observedAt := by
  obtain ⟨w₁, hw₁⟩ : ∃ w₁, w₁ = (policy.conditions result).entries.foldl
      (observe epochSeconds result.host result.observedAt (rowOf tracker.active result.host))
      (tracker.locals result.host (policy.conditions result)) := ⟨_, rfl⟩
  have hview₁ := @observeAll_view epochSeconds _ _ h policy result
  have hextends₁ : w₁.Extends tracker.log result.host result.observedAt :=
    hw₁ ▸ (locals_extends tracker _ _ _).observeAll _ _
  rw [← hw₁] at hview₁
  obtain ⟨w, hrun, hview, hextends⟩ : ∃ w,
      tracker.update epochSeconds policy setOrder result
        = .ok (w.created, tracker.store result.host w)
      ∧ (∀ key, w.view key =
        (((fleet result.host key).step epochSeconds (result.reading policy key)).1.render,
          ((fleet result.host key).step epochSeconds (result.reading policy key)).2.toList))
      ∧ w.Extends tracker.log result.host result.observedAt := by
    rw [update, ← hw₁]
    by_cases honline : result.status = .online
    · obtain ⟨w, hrun, hview⟩ := recoverAll_view h policy result setOrder honline w₁ hview₁
      refine ⟨w, ?_, hview, hextends₁.recoverAll _ _ _ hrun⟩
      simp only [if_pos honline, hrun]
      rfl
    · refine ⟨w₁, by rw [if_neg honline]; rfl, fun key => ?_, hextends₁⟩
      rw [hview₁]
      cases hget : (policy.conditions result).get? key with
      | some new => rfl
      | none =>
        rw [Lifecycle.step_offline epochSeconds _ (result.reading policy key) hget
          (by simpa [ProbeResult.reading] using honline)]
        rfl
  refine ⟨w, hrun, ⟨fun host key => ?_, fun host key condition hcondition => ?_⟩,
    fun key => congrArg Prod.snd (hview key), hextends⟩
  · rw [cell_store, Fleet.step]
    by_cases hhost : host = result.host
    · rw [if_pos hhost, if_pos hhost, hhost]
      exact congrArg Prod.fst (hview key)
    · rw [if_neg hhost, if_neg hhost, h.cell_eq]
  · rw [Fleet.step] at hcondition
    split at hcondition
    · exact Lifecycle.step_condition_key epochSeconds _ (result.reading policy key)
        (fun new hnew => (policy.derived result key new hnew).key_eq)
        (fun old hold => h.keyed _ _ _ hold) condition hcondition
    · exact h.keyed host key condition hcondition

end

/-! ### Restored incidents -/

/-- Resumes the generation of one restored incident. -/
def restoreLifecycle (recoveryCycles : ℕ) (fleet : Fleet) (restored : OpenIncident) : Fleet :=
  fun host key =>
    if host = restored.host ∧ key = restored.condition.key then
      .active { restored.condition with recoveryCycles := recoveryCycles } restored.openedAt
        restored.condition.observedAt none none
    else fleet host key

/-- The fleet that a restart resumes. -/
def restoredFleet (recoveryCycles : ℕ) (openIncidents : List OpenIncident) : Fleet :=
  openIncidents.foldl (restoreLifecycle recoveryCycles) (fun _ _ => .inactive none)

/-- The item that was stored, and every other item. -/
theorem rowOf_setItem {ν : Type} (table : Dict String (Dict String ν))
    (host key : String) (value : ν) (host' key' : String) :
    (rowOf (setItem table host key value) host').get? key'
      = if host' = host ∧ key' = key then some value
        else (rowOf table host').get? key' := by
  by_cases hhost : host' = host
  · by_cases hkey : key' = key <;> simp [setItem, hhost, hkey]
  · simp [setItem, hhost]

/-- Restoring incidents into a tracker without pending counts resumes their generations. -/
theorem restore_represents (recoveryCycles : ℕ) (openIncidents : List OpenIncident) {fleet : Fleet}
    (h : tracker.Represents fleet) (hcandidates : tracker.candidates = ∅)
    (hrecoveries : tracker.recoveries = ∅) (hchanges : tracker.severityChanges = ∅) :
    (openIncidents.foldl (restore recoveryCycles) tracker).Represents
      (openIncidents.foldl (restoreLifecycle recoveryCycles) fleet) := by
  induction openIncidents generalizing tracker fleet with
  | nil => exact h
  | cons restored rest ih =>
    refine ih ⟨fun host key => ?_, fun host key condition hcondition => ?_⟩ hcandidates
      hrecoveries hchanges
    · have hcell := h.cell_eq host key
      simp only [cell, restore, rowOf_setItem, restoreLifecycle]
      by_cases hsame : host = restored.host ∧ key = restored.condition.key
      · simp only [if_pos hsame, hcandidates, hrecoveries, hchanges]
        rfl
      · simp only [if_neg hsame, ← hcell]
        rfl
    · rw [restoreLifecycle] at hcondition
      split at hcondition
      · next hsame =>
        obtain rfl := Option.some.inj hcondition
        exact hsame.2.symm
      · exact h.keyed host key condition hcondition

/-- A new tracker represents the restored incidents. -/
theorem init_represents (policy : IncidentPolicy) (historyPoints : ℕ)
    (historicalEvents : List IncidentEvent) (openIncidents : List OpenIncident) :
    (init policy historyPoints historicalEvents openIncidents).Represents
      (restoredFleet policy.recoveryCycles openIncidents) :=
  restore_represents _ openIncidents
    ⟨fun _ _ => rfl, fun _ _ _ hcondition => by simp [Lifecycle.condition] at hcondition⟩
    rfl rfl rfl

/-- Restoring incidents leaves the log as it was. -/
theorem log_restore (recoveryCycles : ℕ) (openIncidents : List OpenIncident)
    (tracker : IncidentTracker) :
    (openIncidents.foldl (restore recoveryCycles) tracker).log = tracker.log := by
  induction openIncidents generalizing tracker with
  | nil => rfl
  | cons restored rest ih => exact ih _

/-- The first event id of a new tracker is above every event id of the restored window. -/
theorem lt_nextEventId_init (policy : IncidentPolicy) (historyPoints : ℕ)
    (historicalEvents : List IncidentEvent) (openIncidents : List OpenIncident)
    (event : IncidentEvent) (hevent : event ∈ lastItems historyPoints historicalEvents) :
    event.eventId
      < (init policy historyPoints historicalEvents openIncidents).log.nextEventId := by
  have hmax : ∀ (ids : List ℕ) (start : ℕ), start ≤ ids.foldl max start
      ∧ ∀ id ∈ ids, id ≤ ids.foldl max start := by
    intro ids
    induction ids with
    | nil => exact fun start => ⟨le_rfl, by simp⟩
    | cons id rest ih =>
      intro start
      obtain ⟨hstart, hrest⟩ := ih (max start id)
      refine ⟨le_trans (le_max_left _ _) hstart, fun id' hid' => ?_⟩
      rcases List.mem_cons.mp hid' with rfl | hid'
      · exact le_trans (le_max_right _ _) hstart
      · exact hrest id' hid'
  rw [init, log_restore]
  exact Nat.lt_succ_of_le ((hmax _ 0).2 _ (List.mem_map_of_mem hevent))

/-! ### Removed hosts -/

/-- The row of a host in a filtered table. -/
theorem rowOf_filterKeys {ν : Type} (table : Dict String (Dict String ν))
    (kept : String → Bool) (host : String) :
    rowOf (table.filterKeys kept) host = if kept host then rowOf table host else ∅ := by
  unfold rowOf
  rw [Dict.getD_eq, Dict.get?_filterKeys]
  by_cases h : kept host = true
  · simp [h, Dict.getD_eq]
  · simp [h]

/-- The lifecycles of removed hosts are over, and the others go on. -/
theorem Represents.removeHosts {fleet : Fleet} (h : tracker.Represents fleet)
    (desired : List String) :
    (tracker.removeHosts desired).Represents (fun host key =>
      if host ∈ tracker.active.keys ∧ host ∉ desired then .inactive none
      else fleet host key) where
  cell_eq := fun host key => by
    have hkept : decide (host ∉ tracker.active.keys.filter (· ∉ desired))
        = !decide (host ∈ tracker.active.keys ∧ host ∉ desired) := by
      simp [List.mem_filter]
    simp only [IncidentTracker.removeHosts, cell, rowOf_filterKeys, hkept]
    by_cases hgone : host ∈ tracker.active.keys ∧ host ∉ desired
    · simp only [hgone, decide_true, Bool.not_true, Bool.false_eq_true, if_false, if_true,
        not_false_eq_true, and_self]
      rfl
    · have hcell := h.cell_eq host key
      simp only [hgone, decide_false, Bool.not_false, if_true, if_false]
      rw [← hcell]
      rfl
  keyed := fun host key condition hcondition => by
    split at hcondition
    · simp [Lifecycle.condition] at hcondition
    · exact h.keyed host key condition hcondition

end IncidentTracker

end Mocop
