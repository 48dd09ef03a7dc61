import Mathlib.Data.List.Induction

/-!
# `Mocop.Lib.Runs`: runs of a partial step function

A machine is a step function `step : σ → ε → Option σ`: an event may not be possible in a state.
`RunWhere step allowed start events state` says that the events lead from `start` to `state`,
each of them allowed where it happens. `RunWhere.invariant` is the induction rule of every
safety proof: what holds at the start and is kept by every allowed step holds wherever a run
comes. `execute` performs a list of events, and `runWhere_of_execute` makes a run of it.
-/

set_option autoImplicit false

namespace Mocop

universe u v

variable {σ : Type u} {ε : Type v}

/-- The states that a run reaches by steps that are allowed where they happen. -/
inductive RunWhere (step : σ → ε → Option σ) (allowed : σ → ε → Prop) (start : σ) :
    List ε → σ → Prop where
  | nil : RunWhere step allowed start [] start
  | snoc {events : List ε} {state next : σ} {event : ε} :
      RunWhere step allowed start events state → allowed state event →
      step state event = some next → RunWhere step allowed start (events ++ [event]) next

/-- Performs the events one after the other, as long as they can happen and are allowed. -/
def execute (step : σ → ε → Option σ) (allowed : σ → ε → Prop)
    [∀ state event, Decidable (allowed state event)] (state : σ) (events : List ε) : Option σ :=
  events.foldlM (fun state event => if allowed state event then step state event else none) state

variable {step : σ → ε → Option σ} {allowed : σ → ε → Prop} {start state : σ} {events : List ε}

/-- What holds at the start and is kept by every allowed step holds wherever a run comes. -/
theorem RunWhere.invariant {holds : σ → Prop} (hstart : holds start)
    (hstep : ∀ state event next, holds state → allowed state event →
      step state event = some next → holds next)
    (hrun : RunWhere step allowed start events state) : holds state := by
  induction hrun with
  | nil => exact hstart
  | snoc _ hallowed hnext ih => exact hstep _ _ _ ih hallowed hnext

/-- A run whose steps are allowed is a run when more is allowed. -/
theorem RunWhere.mono {more : σ → ε → Prop} (h : ∀ state event, allowed state event →
    more state event) (hrun : RunWhere step allowed start events state) :
    RunWhere step more start events state := by
  induction hrun with
  | nil => exact .nil
  | snoc _ hallowed hnext ih => exact .snoc ih (h _ _ hallowed) hnext

/-- The last step of a run, which is allowed. -/
theorem RunWhere.last_allowed {event : ε}
    (hrun : RunWhere step allowed start (events ++ [event]) state) :
    ∃ before, RunWhere step allowed start events before ∧ allowed before event
      ∧ step before event = some state := by
  generalize hall : events ++ [event] = all at hrun
  cases hrun with
  | nil => exact absurd hall (by simp)
  | snoc hbefore hallowed hstep =>
    obtain ⟨rfl, rfl⟩ := List.append_inj' hall rfl |>.imp id List.singleton_inj.mp
    exact ⟨_, hbefore, hallowed, hstep⟩

/-- The last step of a run. -/
theorem RunWhere.last {event : ε}
    (hrun : RunWhere step allowed start (events ++ [event]) state) :
    ∃ before, RunWhere step allowed start events before ∧ step before event = some state := by
  obtain ⟨before, hbefore, -, hstep⟩ := hrun.last_allowed
  exact ⟨before, hbefore, hstep⟩

/-- A run comes through a state after each of its first events. -/
theorem RunWhere.through {earlier later : List ε}
    (hrun : RunWhere step allowed start (earlier ++ later) state) :
    ∃ middle, RunWhere step allowed start earlier middle := by
  induction later using List.reverseRecOn generalizing state with
  | nil => exact ⟨state, by simpa using hrun⟩
  | append_singleton later event ih =>
    rw [← List.append_assoc] at hrun
    obtain ⟨before, hbefore, _⟩ := hrun.last
    exact ih hbefore

/-- The events of a run decide where it comes. -/
theorem RunWhere.unique {other : σ} (hrun : RunWhere step allowed start events state)
    (hother : RunWhere step allowed start events other) : state = other := by
  induction hrun generalizing other with
  | nil =>
    generalize hnil : ([] : List ε) = none at hother
    cases hother with
    | nil => rfl
    | snoc => exact absurd hnil.symm (by simp)
  | snoc _ _ hnext ih =>
    obtain ⟨before, hbefore, hstep⟩ := hother.last
    rw [← ih hbefore, hnext] at hstep
    exact Option.some.inj hstep

/-- When an allowed run is good until a step, and good after it exactly when the step is allowed,
then a run is good all the way exactly when all its steps are allowed. -/
theorem RunWhere.good_iff {good : σ → Prop} (hstart : good start)
    (hstep : ∀ {events state event next}, RunWhere step allowed start events state →
      step state event = some next → (good next ↔ allowed state event))
    (hrun : RunWhere step (fun _ _ => True) start events state) :
    (∀ earlier later middle, events = earlier ++ later →
      RunWhere step (fun _ _ => True) start earlier middle → good middle)
    ↔ RunWhere step allowed start events state := by
  constructor
  · intro h
    induction hrun with
    | nil => exact .nil
    | @snoc events state next event hrun _ hnext ih =>
      have hbefore := ih fun earlier later middle heq =>
        h earlier (later ++ [event]) middle (by rw [heq, List.append_assoc])
      have hgood := h (events ++ [event]) [] next (by simp) (.snoc hrun trivial hnext)
      exact .snoc hbefore ((hstep hbefore hnext).mp hgood) hnext
  · intro hallowed earlier later middle heq hmiddle
    rw [heq] at hallowed
    obtain ⟨other, hother⟩ := hallowed.through
    obtain rfl := hmiddle.unique (hother.mono fun _ _ _ => trivial)
    cases hother with
    | nil => exact hstart
    | snoc hbefore hlast hnext => exact (hstep hbefore hnext).mpr hlast

/-- Performed events are a run. -/
theorem runWhere_of_execute [∀ state event, Decidable (allowed state event)]
    (h : execute step allowed start events = some state) :
    RunWhere step allowed start events state := by
  induction events using List.reverseRecOn generalizing state with
  | nil =>
    cases h
    exact .nil
  | append_singleton earlier event ih =>
    rw [execute, List.foldlM_append] at h
    obtain ⟨before, hbefore, hlast⟩ := Option.bind_eq_some_iff.mp h
    rw [List.foldlM_cons] at hlast
    obtain ⟨after, hafter, hlast⟩ := Option.bind_eq_some_iff.mp hlast
    cases hlast
    split at hafter
    · rename_i hallowed
      exact .snoc (ih hbefore) hallowed hafter
    · cases hafter

end Mocop
