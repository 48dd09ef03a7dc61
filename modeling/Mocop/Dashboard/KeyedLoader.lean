import Mocop.Lib.Runs

/-!
# `Mocop.Dashboard.KeyedLoader`: the keyed loader of the dashboard

A keyed loader shows one resource at a time, a host's trends or a device's history. A request
for another key replaces the load in flight, a reset drops it, and a failed key waits for its
retry timer. Started loads settle in any order, so each has the number of its request, and a load
that is not the last request's writes nothing.

The key of the load in flight is one field, and every load that settles clears it when the keys
are equal. So a superseded load can clear it for its successor of the same key, and the next
request then starts a second load. `single_flight_iff` says exactly when a run stays free of
this: when no superseded load settles during a later load of its key. `late_answer_reopens_key`
is a run that goes there and back.
-/

set_option autoImplicit false

namespace Mocop.KeyedLoader

universe u

variable {V : Type u}

/-! ### The loader -/

/-- The shortest delay of a retry. -/
def minRetryMs : ℕ := 4000

/-- The longest delay of a retry. -/
def maxRetryMs : ℕ := 30000

/-- The `state` object of a loader. -/
structure State (V : Type u) where
  value : Option V := none
  key : String := ""
  loading : Bool := false
  error : Bool := false
  fetchKey : Option String := none
  retryKey : String := ""
  retryTimer : Option ℕ := none
  retryDelayMs : ℕ := 0
  request : ℕ := 0

/-- A started load. It is superseded by a reset and by a request that starts the load of another
key; the code has no such mark. -/
structure Load where
  id : ℕ
  key : String
  superseded : Bool := false
  deriving DecidableEq

/-- How a load settles: with a value, with `undefined`, or by an exception. -/
inductive Outcome (V : Type u) where
  | value (value : V)
  | undefined
  | failed

/-- A loader with its loads in flight, and the timers that are set with their delays. -/
structure Loader (V : Type u) where
  state : State V := {}
  loads : List Load := []
  timers : List (ℕ × ℕ) := []
  handles : ℕ := 0

/-- `create`: a loader before its first request. -/
def create : Loader V := {}

namespace Loader

/-- Cancels the pending retry. -/
def clearRetry (loader : Loader V) : Loader V where
  state := { loader.state with retryTimer := none, retryKey := "" }
  loads := loader.loads
  timers := match loader.state.retryTimer with
    | none => loader.timers
    | some handle => loader.timers.filter (·.1 != handle)
  handles := loader.handles

/-- Forgets the current resource. -/
def reset (loader : Loader V) (loading : Bool) : Loader V :=
  let cleared := loader.clearRetry
  { cleared with
    state := { cleared.state with
      value := none
      key := ""
      fetchKey := none
      error := false
      retryDelayMs := 0
      loading := loading
      request := cleared.state.request + 1 }
    loads := cleared.loads.map fun load => { load with superseded := true } }

/-- The part of `request` before `await`: it starts the load. -/
def startLoad (loader : Loader V) (key : String) : Loader V :=
  { loader with
    state := { loader.state with
      fetchKey := some key
      loading := true
      request := loader.state.request + 1 }
    loads := (loader.loads.map fun load =>
        { load with superseded := load.superseded || load.key != key })
      ++ [⟨loader.state.request + 1, key, false⟩] }

/-- Requests a key. -/
def request (loader : Loader V) (key : String) : Loader V :=
  if key = loader.state.key ∨ loader.state.fetchKey = some key then loader
  else match loader.state.retryTimer with
    | none => loader.startLoad key
    | some _ =>
      -- A failed key waits for its timer; only a new key replaces it.
      if key = loader.state.retryKey then loader else loader.clearRetry.startLoad key

/-- The answer to the last request. -/
def receive (loader : Loader V) (key : String) : Outcome V → Loader V
  | .value value =>
    { loader with state := { loader.state with value, key, error := false, retryDelayMs := 0 } }
  | .undefined => loader
  | .failed =>
    let delay := min maxRetryMs (max minRetryMs (loader.state.retryDelayMs * 2))
    { loader with
      state := { loader.state with
        error := true
        retryDelayMs := delay
        retryKey := key
        retryTimer := some loader.handles }
      timers := loader.timers ++ [(loader.handles, delay)]
      handles := loader.handles + 1 }

/-- The `finally` of a request: no load of this key is in flight, whichever has settled. -/
def release (loader : Loader V) (key : String) : Loader V :=
  if loader.state.fetchKey = some key then
    { loader with state := { loader.state with fetchKey := none } }
  else loader

/-- The part of `request` after `await`. -/
def settle (loader : Loader V) (load : Load) (outcome : Outcome V) : Loader V :=
  let landed := { loader with loads := loader.loads.filter (·.id != load.id) }
  if load.id = landed.state.request then
    let received := (landed.receive load.key outcome).release load.key
    { received with state := { received.state with loading := false } }
  else landed.release load.key

/-- A timer fires, and the callback of `schedule` runs. -/
def fire (loader : Loader V) (handle : ℕ) : Loader V :=
  { loader with
    state := { loader.state with retryTimer := none, retryKey := "" }
    timers := loader.timers.filter (·.1 != handle) }

end Loader

/-- What can happen to a loader. -/
inductive Event (V : Type u) where
  | request (key : String)
  | reset (loading : Bool)
  | settle (id : ℕ) (outcome : Outcome V)
  | fire (handle : ℕ)

/-- One step: a call of the page, or a promise or a timer of the browser. -/
def step (loader : Loader V) : Event V → Option (Loader V)
  | .request key => some (loader.request key)
  | .reset loading => some (loader.reset loading)
  | .settle id outcome => (loader.loads.find? (·.id == id)).map fun load =>
    loader.settle load outcome
  | .fire handle => if handle ∈ loader.timers.map Prod.fst then some (loader.fire handle) else none

/-! ### Single flight -/

/-- A request for the key of a load that is in flight and not superseded starts no load. -/
def SingleFlight (loader : Loader V) : Prop :=
  ∀ load ∈ loader.loads, load.superseded = false →
    (loader.request load.key).loads = loader.loads

/-- No superseded load settles while a load of its key is in flight that is not superseded. -/
def Undisturbed (loader : Loader V) : Event V → Prop
  | .settle id _ => ∀ old ∈ loader.loads.find? (·.id == id), old.superseded = true →
      ∀ load ∈ loader.loads, load.superseded = false → load.key ≠ old.key
  | _ => True

instance (loader : Loader V) : (event : Event V) → Decidable (Undisturbed loader event)
  | .settle id _ => inferInstanceAs (Decidable (∀ old ∈ loader.loads.find? (·.id == id),
      old.superseded = true → ∀ load ∈ loader.loads, load.superseded = false →
        load.key ≠ old.key))
  | .request _ => isTrue trivial
  | .reset _ => isTrue trivial
  | .fire _ => isTrue trivial

variable {loader next : Loader V} {event : Event V}
  {events : List (Event V)}

/-- The loads have numbers up to the last request's, and the superseded ones smaller ones. -/
structure Numbered (loader : Loader V) : Prop where
  le : ∀ load ∈ loader.loads, load.id ≤ loader.state.request
  lt : ∀ load ∈ loader.loads, load.superseded = true → load.id < loader.state.request

/-- The load that is not superseded is the last request's: its key is the one that is guarded,
it is not the one shown, and no retry is pending. -/
structure Current (loader : Loader V) (load : Load) : Prop where
  id : load.id = loader.state.request
  fetchKey : loader.state.fetchKey = some load.key
  key : load.key ≠ loader.state.key
  retryTimer : loader.state.retryTimer = none

/-- Every load in flight is superseded or current. -/
def Guarded (loader : Loader V) : Prop :=
  ∀ load ∈ loader.loads, load.superseded = false → Current loader load

/-- A request returns at once, or it starts its load after the retry of another key is dropped. -/
theorem request_cases (loader : Loader V) (key : String) :
    loader.request key = loader
      ∨ (key ≠ loader.state.key ∧ loader.state.fetchKey ≠ some key
        ∧ ∃ cleared : Loader V, loader.request key = cleared.startLoad key
          ∧ cleared.state.retryTimer = none ∧ cleared.state.key = loader.state.key
          ∧ cleared.state.request = loader.state.request ∧ cleared.loads = loader.loads) := by
  unfold Loader.request
  split
  · exact .inl rfl
  · rename_i hnew
    rw [not_or] at hnew
    split
    · rename_i htimer
      exact .inr ⟨hnew.1, hnew.2, loader, rfl, htimer, rfl, rfl, rfl⟩
    · split
      · exact .inl rfl
      · exact .inr ⟨hnew.1, hnew.2, loader.clearRetry, rfl, rfl, rfl, rfl, rfl⟩

/-- A request for a guarded key starts nothing. -/
theorem request_of_fetchKey {key : String} (h : loader.state.fetchKey = some key) :
    loader.request key = loader := by
  unfold Loader.request
  rw [if_pos (Or.inr h)]

theorem loads_release (loader : Loader V) (key : String) :
    (loader.release key).loads = loader.loads := by
  unfold Loader.release
  split
  · rfl
  · rfl

theorem request_release (loader : Loader V) (key : String) :
    (loader.release key).state.request = loader.state.request := by
  unfold Loader.release
  split
  · rfl
  · rfl

theorem receive_frame (loader : Loader V) (key : String) (outcome : Outcome V) :
    (loader.receive key outcome).loads = loader.loads
      ∧ (loader.receive key outcome).state.request = loader.state.request := by
  cases outcome with
  | value value => exact ⟨rfl, rfl⟩
  | undefined => exact ⟨rfl, rfl⟩
  | failed => exact ⟨rfl, rfl⟩

/-- A load that settles leaves the loads in flight. -/
theorem settle_frame (loader : Loader V) (load : Load) (outcome : Outcome V) :
    (loader.settle load outcome).loads = loader.loads.filter (·.id != load.id)
      ∧ (loader.settle load outcome).state.request = loader.state.request := by
  unfold Loader.settle
  dsimp only
  split
  · obtain ⟨hloads, hrequest⟩ := receive_frame
      { loader with loads := loader.loads.filter (·.id != load.id) } load.key outcome
    exact ⟨(loads_release _ _).trans hloads, (request_release _ _).trans hrequest⟩
  · exact ⟨loads_release _ _, request_release _ _⟩

/-- The step of a load that settles. -/
theorem settled_of_step {id : ℕ} {outcome : Outcome V} {old : Load}
    (hfind : loader.loads.find? (·.id == id) = some old)
    (hstep : step loader (.settle id outcome) = some next) :
    loader.settle old outcome = next := by
  dsimp only [step] at hstep
  rw [hfind] at hstep
  exact Option.some.inj hstep

theorem numbered_create : Numbered (create : Loader V) where
  le := fun _ h => by cases h
  lt := fun _ h => by cases h

/-- What a started load does to the loads in flight. -/
theorem mem_startLoad {key : String} {load : Load} :
    load ∈ (loader.startLoad key).loads ↔ load = ⟨loader.state.request + 1, key, false⟩
      ∨ ∃ old ∈ loader.loads, load = { old with superseded := old.superseded || old.key != key } := by
  show load ∈ List.map _ _ ++ _ ↔ _
  rw [List.mem_append, List.mem_singleton, List.mem_map]
  constructor
  · rintro (⟨old, hold, rfl⟩ | rfl)
    · exact .inr ⟨old, hold, rfl⟩
    · exact .inl rfl
  · rintro (rfl | ⟨old, hold, rfl⟩)
    · exact .inr rfl
    · exact .inl ⟨old, hold, rfl⟩

/-- Every step keeps the numbers of the loads. -/
theorem Numbered.step (h : Numbered loader) (hstep : step loader event = some next) :
    Numbered next := by
  cases event with
  | request key =>
    obtain rfl := Option.some.inj hstep
    rcases request_cases loader key with heq | ⟨-, -, cleared, heq, -, -, hrequest, hloads⟩
    · rw [heq]
      exact h
    · rw [heq]
      constructor
      · intro load hload
        show load.id ≤ cleared.state.request + 1
        rcases mem_startLoad.mp hload with rfl | ⟨old, hold, rfl⟩
        · exact Nat.le_refl _
        · have hle := h.le old (hloads ▸ hold)
          show old.id ≤ _
          omega
      · intro load hload hsuperseded
        show load.id < cleared.state.request + 1
        rcases mem_startLoad.mp hload with rfl | ⟨old, hold, rfl⟩
        · cases hsuperseded
        · have hle := h.le old (hloads ▸ hold)
          show old.id < _
          omega
  | reset loading =>
    obtain rfl := Option.some.inj hstep
    have hlt : ∀ load ∈ (loader.reset loading).loads,
        load.id < (loader.reset loading).state.request := by
      intro load hload
      obtain ⟨old, hold, rfl⟩ := List.mem_map.mp hload
      have hle := h.le old hold
      show old.id < loader.state.request + 1
      omega
    exact ⟨fun load hload => Nat.le_of_lt (hlt load hload), fun load hload _ => hlt load hload⟩
  | settle id outcome =>
    obtain ⟨load, -, rfl⟩ := Option.map_eq_some_iff.mp hstep
    obtain ⟨hloads, hrequest⟩ := settle_frame loader load outcome
    constructor
    · intro other hother
      rw [hrequest]
      exact h.le other (List.mem_filter.mp (hloads ▸ hother)).1
    · intro other hother
      rw [hrequest]
      exact h.lt other (List.mem_filter.mp (hloads ▸ hother)).1
  | fire handle =>
    dsimp only [KeyedLoader.step] at hstep
    split at hstep
    · obtain rfl := Option.some.inj hstep
      exact ⟨h.le, h.lt⟩
    · cases hstep

/-- A load that is not the last request's writes only the key that is guarded. -/
theorem settle_late {load : Load} (hlate : load.id ≠ loader.state.request)
    (outcome : Outcome V) : (loader.settle load outcome).state
      = { loader.state with
          fetchKey := (loader.settle load outcome).state.fetchKey } := by
  unfold Loader.settle
  rw [if_neg hlate]
  unfold Loader.release
  split
  · rfl
  · rfl

/-- The loads that settle one of the numbers are gone, and the rest stays guarded. -/
theorem Guarded.settle (h : Guarded loader) (hnumbered : Numbered loader) {old : Load}
    (hold : old ∈ loader.loads) (outcome : Outcome V)
    (hundisturbed : old.superseded = true → ∀ load ∈ loader.loads, load.superseded = false →
      load.key ≠ old.key) : Guarded (loader.settle old outcome) := by
  intro load hload hcurrent
  rw [(settle_frame loader old outcome).1, List.mem_filter, bne_iff_ne] at hload
  have hguarded := h load hload.1 hcurrent
  cases hsuperseded : old.superseded with
  | false =>
    -- Both are the last request's, so it is this load that settles.
    have hlast := (h old hold hsuperseded).id
    exact absurd (hguarded.id.trans hlast.symm) hload.2
  | true =>
    have hlt := hnumbered.lt old hold hsuperseded
    have hstate := settle_late (Nat.ne_of_lt hlt) outcome
    have hfetch : (loader.settle old outcome).state.fetchKey = loader.state.fetchKey := by
      unfold Loader.settle
      rw [if_neg (Nat.ne_of_lt hlt)]
      unfold Loader.release
      rw [if_neg]
      show ¬loader.state.fetchKey = some old.key
      rw [hguarded.fetchKey, Option.some.injEq]
      exact hundisturbed hsuperseded load hload.1 hcurrent
    rw [hfetch] at hstate
    exact ⟨by rw [hstate]; exact hguarded.id, by rw [hstate]; exact hguarded.fetchKey,
      by rw [hstate]; exact hguarded.key, by rw [hstate]; exact hguarded.retryTimer⟩

/-- An undisturbed step keeps the guard. -/
theorem Guarded.step (h : Guarded loader) (hnumbered : Numbered loader)
    (hundisturbed : Undisturbed loader event) (hstep : step loader event = some next) :
    Guarded next := by
  cases event with
  | request key =>
    obtain rfl := Option.some.inj hstep
    rcases request_cases loader key with
      heq | ⟨hkey, hfetch, cleared, heq, htimer, hshown, hrequest, hloads⟩
    · rw [heq]
      exact h
    · rw [heq]
      intro load hload hcurrent
      rcases mem_startLoad.mp hload with rfl | ⟨old, hold, rfl⟩
      · exact ⟨rfl, rfl, hshown ▸ hkey, htimer⟩
      · -- A load of the same key that is not superseded would have been guarded.
        obtain ⟨hnot, hsame⟩ := Bool.or_eq_false_iff.mp hcurrent
        have hguarded := (h old (hloads ▸ hold) hnot).fetchKey
        exact absurd (bne_eq_false_iff_eq.mp hsame ▸ hguarded) hfetch
  | reset loading =>
    obtain rfl := Option.some.inj hstep
    intro load hload hcurrent
    obtain ⟨old, hold, rfl⟩ := List.mem_map.mp hload
    cases hcurrent
  | settle id outcome =>
    obtain ⟨old, hfind, rfl⟩ := Option.map_eq_some_iff.mp hstep
    exact h.settle hnumbered (List.mem_of_find?_eq_some hfind) outcome (hundisturbed old hfind)
  | fire handle =>
    dsimp only [KeyedLoader.step] at hstep
    split at hstep
    · obtain rfl := Option.some.inj hstep
      intro load hload hcurrent
      have hguarded := h load hload hcurrent
      exact ⟨hguarded.id, hguarded.fetchKey, hguarded.key, rfl⟩
    · cases hstep

/-- A guarded loader is single flight. -/
theorem Guarded.singleFlight (h : Guarded loader) : SingleFlight loader := by
  intro load hload hcurrent
  rw [request_of_fetchKey (h load hload hcurrent).fetchKey]

/-- When a superseded load settles during a later load of its key, a request starts a second
load. -/
theorem not_singleFlight_settle (h : Guarded loader) (hnumbered : Numbered loader)
    {old load : Load} (hold : old ∈ loader.loads) (hsuperseded : old.superseded = true)
    (hload : load ∈ loader.loads) (hcurrent : load.superseded = false)
    (hkey : load.key = old.key) (outcome : Outcome V) :
    ¬SingleFlight (loader.settle old outcome) := by
  have hguarded := h load hload hcurrent
  have hlt := hnumbered.lt old hold hsuperseded
  have hlate := settle_late (Nat.ne_of_lt hlt) outcome
  have hfetch : (loader.settle old outcome).state.fetchKey = none := by
    unfold Loader.settle
    rw [if_neg (Nat.ne_of_lt hlt)]
    unfold Loader.release
    rw [if_pos (by rw [← hkey]; exact hguarded.fetchKey)]
  rw [hfetch] at hlate
  intro hsingle
  have hid := hguarded.id
  have hkept : load ∈ (loader.settle old outcome).loads := by
    rw [(settle_frame loader old outcome).1, List.mem_filter, bne_iff_ne]
    exact ⟨hload, by omega⟩
  -- The key is not shown and not guarded, and no retry is pending.
  have hstarts := hsingle load hkept hcurrent
  unfold Loader.request at hstarts
  rw [if_neg (by rw [hlate]; simpa using hguarded.key)] at hstarts
  have htimer : (loader.settle old outcome).state.retryTimer = none := by
    rw [hlate]
    exact hguarded.retryTimer
  simp only [htimer, Loader.startLoad] at hstarts
  have hlength := congrArg List.length hstarts
  rw [List.length_append, List.length_map] at hlength
  exact absurd hlength (by simp)

theorem guarded_of_run (hrun : RunWhere step Undisturbed create events loader) :
    Guarded loader ∧ Numbered loader :=
  @RunWhere.invariant _ _ _ _ _ _ _ (fun loader => Guarded loader ∧ Numbered loader)
    ⟨fun _ h => (by cases h), numbered_create⟩
    (fun _ _ _ h hundisturbed hstep => ⟨h.1.step h.2 hundisturbed hstep, h.2.step hstep⟩) hrun

/-- After an undisturbed run, the next step keeps single flight exactly when it is undisturbed. -/
theorem singleFlight_iff_undisturbed (hrun : RunWhere step Undisturbed create events loader)
    (hstep : step loader event = some next) : SingleFlight next ↔ Undisturbed loader event := by
  obtain ⟨hguarded, hnumbered⟩ := guarded_of_run hrun
  constructor
  · intro hsingle
    cases event with
    | settle id outcome =>
      intro old hfind hsuperseded load hload hcurrent hkey
      obtain rfl := settled_of_step hfind hstep
      exact not_singleFlight_settle hguarded hnumbered (List.mem_of_find?_eq_some hfind)
        hsuperseded hload hcurrent hkey outcome hsingle
    | request key => trivial
    | reset loading => trivial
    | fire handle => trivial
  · intro hundisturbed
    exact (hguarded.step hnumbered hundisturbed hstep).singleFlight

/-- A run is single flight in every state exactly when no superseded load settles during a later
load of its key. In every run, a superseded load that settles writes nothing but the key that is
guarded. -/
theorem single_flight_iff (hrun : RunWhere step (fun _ _ => True) create events loader) :
    ((∀ earlier later middle, events = earlier ++ later →
        RunWhere step (fun _ _ => True) create earlier middle → SingleFlight middle)
      ↔ RunWhere step Undisturbed create events loader)
    ∧ ∀ id outcome old next, loader.loads.find? (·.id == id) = some old →
        old.superseded = true → step loader (.settle id outcome) = some next →
        next.state = { loader.state with fetchKey := next.state.fetchKey } := by
  constructor
  · exact RunWhere.good_iff (fun _ h => by cases h) singleFlight_iff_undisturbed hrun
  · intro id outcome old next hfind hsuperseded hstep
    have hnumbered : Numbered loader :=
      hrun.invariant numbered_create fun _ _ _ h _ hstep => h.step hstep
    obtain rfl := settled_of_step hfind hstep
    have hlt := hnumbered.lt old (List.mem_of_find?_eq_some hfind) hsuperseded
    exact settle_late (Nat.ne_of_lt hlt) outcome

/-- The page goes to another key, and the answer for the first one comes late. -/
private def lateAnswer : List (Event ℕ) :=
  [.request "a", .request "b", .settle 1 (.value 7)]

/-- The late answer is dropped. -/
theorem single_flight_iff_lateAnswer :
    ∃ loader, RunWhere step (fun _ _ => True) create lateAnswer loader ∧ SingleFlight loader
      ∧ loader.state.value = none ∧ loader.loads = [⟨2, "b", false⟩] := by
  have hreached : (execute step Undisturbed create lateAnswer).any (fun loader =>
      loader.state.value == none && loader.loads == [⟨2, "b", false⟩]) = true := by
    decide +kernel
  obtain ⟨loader, hloader, hcheck⟩ := (Option.any_eq_true _ _).mp hreached
  simp only [Bool.and_eq_true, beq_iff_eq] at hcheck
  have hundisturbed := runWhere_of_execute hloader
  have hrun := hundisturbed.mono fun _ _ _ => trivial
  have hsingle := (single_flight_iff hrun).1.mpr hundisturbed lateAnswer [] loader rfl hrun
  exact ⟨loader, hrun, hsingle, hcheck⟩

/-- The page goes to another key and back, and the first load settles during the second load of
its key. The next request for the key starts another one. -/
theorem late_answer_reopens_key :
    ∃ loader : Loader ℕ, RunWhere step (fun _ _ => True) create
        [.request "a", .request "b", .request "a", .settle 1 (.value 7)] loader
      ∧ ⟨3, "a", false⟩ ∈ loader.loads
      ∧ ⟨4, "a", false⟩ ∈ (loader.request "a").loads ∧ ¬SingleFlight loader := by
  have hreached : (execute step (fun _ _ => True) create
      [.request "a", .request "b", .request "a", .settle 1 (.value 7)]).any
        (fun loader : Loader ℕ => decide (⟨3, "a", false⟩ ∈ loader.loads)
          && decide (⟨4, "a", false⟩ ∈ (loader.request "a").loads)
          && decide (⟨4, "a", false⟩ ∉ loader.loads)) = true := by
    decide +kernel
  obtain ⟨loader, hloader, hcheck⟩ := (Option.any_eq_true _ _).mp hreached
  simp only [Bool.and_eq_true, decide_eq_true_eq] at hcheck
  obtain ⟨⟨hload, hstarted⟩, hnew⟩ := hcheck
  refine ⟨loader, runWhere_of_execute hloader, hload, hstarted, fun hsingle => ?_⟩
  exact hnew (hsingle _ hload rfl ▸ hstarted)

end Mocop.KeyedLoader
