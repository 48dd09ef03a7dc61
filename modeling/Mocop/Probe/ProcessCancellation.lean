import Mocop.Probe.ProcessRuns

/-!
# `Mocop.Probe.ProcessCancellation`: how a cancellation ends the calls

A byte in the wake-up pipe ends the calls that wait in their selectors: `Phase.stepsLeft` bounds
the steps that a woken call still makes, and each of them counts (`Call.Advances.nearer`).
`cancelled_call_ends` puts this together with what a cancellation has killed when it returns.
-/

set_option autoImplicit false

namespace Mocop.BoundedProcess

variable {jobs : ℕ → Job} {call : Call} {registry : Registry} {worker : ℕ}
  {machine last : Machine} {event : Event} {events : List Event}

/-- No call has more than thirteen steps left. -/
theorem Call.Keeps.stepsLeft_le (h : call.Keeps) : call.phase.stepsLeft ≤ 13 := by
  unfold Call.Keeps at h
  cases hphase : call.phase with
  | handling collection keys =>
    simp only [hphase] at h
    simp only [Phase.stepsLeft]
    split
    · have hlength := length_le_four h.2.1
      omega
    · rename_i hcancel
      have hlength := length_le_four (List.nodup_cons.mpr ⟨hcancel, h.2.1⟩)
      rw [List.length_cons] at hlength
      omega
  | _ => simp [Phase.stepsLeft]

/-- A woken call can always make its next step. -/
theorem Call.Keeps.advances (h : call.Keeps) (hregistry : call.job.processRegistry = true)
    (hwakeup : registry.wakeup = true) (worker : ℕ) :
    (∃ outcome, call.phase = .finished outcome)
      ∨ ∃ move, (call.advance registry worker move).isSome = true := by
  unfold Call.Keeps at h
  cases hphase : call.phase with
  | entered =>
    refine .inr ⟨.proceed, ?_⟩
    simp only [Call.advance, hphase]
    split <;> rfl
  | starting => exact .inr ⟨.start true, by simp only [Call.advance, hphase]; rfl⟩
  | spawned =>
    refine .inr ⟨.proceed, ?_⟩
    simp only [Call.advance, hphase, if_pos hregistry]
    split <;> rfl
  | looping collection =>
    refine .inr ⟨.clock false, ?_⟩
    simp only [Call.advance, hphase]
    split
    · rfl
    · split <;> rfl
  | selecting collection =>
    -- The selector returns at once, for the byte is never read.
    refine .inr ⟨.select [.cancel], ?_⟩
    have hready : call.mayReport registry collection [.cancel] = true := by
      simp [Call.mayReport, Call.isReady, hregistry, hwakeup]
    simp only [Call.advance, hphase, if_pos hready]
    rfl
  | handling collection keys =>
    simp only [hphase] at h
    cases keys with
    | nil => exact .inr ⟨.proceed, by simp only [Call.advance, hphase]; rfl⟩
    | cons key rest =>
      cases key with
      | output stream =>
        refine .inr ⟨.read 1, ?_⟩
        have hsome := (h.2.2 _ List.mem_cons_self).2
        have hcan : 0 < 1 ∧ 1 ≤ processIoChunkBytes
            ∧ (call.process.unread stream ≠ [] ∨ call.process.closed stream = true) :=
          ⟨by decide, by decide, hsome⟩
        simp only [Call.advance, hphase, Call.readOutput, if_pos hcan]
        split
        · rfl
        · split <;> rfl
      | stdin =>
        exact .inr ⟨.write .wouldBlock, by simp only [Call.advance, hphase]; rfl⟩
      | cancel => exact .inr ⟨.proceed, by simp only [Call.advance, hphase]; rfl⟩
  | collected collection =>
    refine .inr ⟨.proceed, ?_⟩
    simp only [Call.advance, hphase]
    split <;> rfl
  | waiting collection =>
    refine .inr ⟨.proceed, ?_⟩
    simp only [Call.advance, hphase]
    split <;> rfl
  | leaving outcome =>
    refine .inr ⟨.proceed, ?_⟩
    simp only [Call.advance, hphase]
    split <;> rfl
  | closing outcome => exact .inr ⟨.proceed, by simp only [Call.advance, hphase]; rfl⟩
  | finished outcome => exact .inl ⟨outcome, rfl⟩

/-- The event is a step of the call. -/
def Event.isMoveOf (worker : ℕ) : Event → Bool
  | .move other _ => other == worker
  | _ => false

/-- Whatever happens to a process, the calls are where they were. -/
theorem Machine.phase_setProcess (machine : Machine) (other worker : ℕ) (process : Process) :
    ((machine.setProcess other process).calls worker).phase = (machine.calls worker).phase := by
  by_cases heq : worker = other
  · subst heq
    simp [setProcess, setCall]
  · simp [setProcess, setCall, heq]

/-- A step takes a woken call nearer to its end if it is its own, and no farther from it if it is
not. -/
theorem Machine.Sound.stepsLeft (h : machine.Sound jobs)
    (hregistry : (jobs worker).processRegistry = true) (hwakeup : machine.registry.wakeup = true)
    (hstep : machine.step event = some last) :
    (last.calls worker).phase.stepsLeft + (if event.isMoveOf worker then 1 else 0)
      ≤ (machine.calls worker).phase.stepsLeft := by
  cases event with
  | move other move =>
    obtain ⟨⟨after, next⟩, hadvance, rfl⟩ := Option.map_eq_some_iff.mp hstep
    by_cases heq : other = worker
    · subst heq
      have hless := (Call.advances hadvance).nearer ((h.calls other).job ▸ hregistry) hwakeup
      simp only [Machine.setCall, Function.update_self, Event.isMoveOf, beq_self_eq_true,
        if_true]
      omega
    · simp [Machine.setCall, Function.update_of_ne (Ne.symm heq), Event.isMoveOf, heq]
  | cancel caller =>
    obtain ⟨-, rfl⟩ | ⟨-, rfl⟩ | ⟨-, rfl⟩ | ⟨-, rfl⟩ | ⟨target, rest, -, rfl⟩ :=
      Machine.cancelStep_cases hstep
    case inr.inr.inr.inr =>
      exact Nat.le_of_eq (congrArg Phase.stepsLeft (machine.phase_setProcess target worker _))
    all_goals exact Nat.le_refl _
  | child other doing =>
    simp only [Machine.step] at hstep
    split at hstep
    · obtain ⟨process, -, rfl⟩ := Option.map_eq_some_iff.mp hstep
      exact Nat.le_of_eq (congrArg Phase.stepsLeft (machine.phase_setProcess other worker _))
    · cases hstep

/-- In a run, a woken call has made as many steps as it is nearer to its end. What a cancellation
has killed stays so. -/
theorem Machine.Sound.woken_run {targets : List ℕ} (h : machine.Sound jobs)
    (hregistry : (jobs worker).processRegistry = true) (hspares : machine.Spares targets)
    (hrun : RunWhere Machine.step (fun _ _ => True) machine events last) :
    last.Sound jobs ∧ last.Spares targets
      ∧ events.countP (Event.isMoveOf worker) + (last.calls worker).phase.stepsLeft
        ≤ (machine.calls worker).phase.stepsLeft := by
  induction hrun with
  | nil => exact ⟨h, hspares, by simp⟩
  | @snoc events state next event _ _ hstep ih =>
    obtain ⟨hstate, hkilled, hcount⟩ := ih
    have hfits : Cancelling.Fits state (.killing targets) := hkilled
    have hnext := hfits.follows (hstate.follows hstep)
    refine ⟨hstate.step hstep, hnext, ?_⟩
    have hless := hstate.stepsLeft hregistry hkilled.2.1 hstep
    rw [List.countP_append, List.countP_singleton]
    omega

/-- The phases of a call that is about to kill its process. -/
def Phase.Departs : Phase → Prop
  | .spawned | .leaving _ | .closing _ => True
  | _ => False

/-- A shutdown ends the calls. Once a cancellation has returned, a process of a call with the
registry that still runs belongs to a call that is at the steps in which it kills the process; a
call that is not over can always make its next step; and after thirteen of its own steps it is
over. -/
theorem cancelled_call_ends {earlier later : List Event} {middle : Machine} {caller : ℕ}
    (hrun : Run jobs earlier middle) (hcancel : middle.cancels caller = .returned)
    (hregistry : (jobs worker).processRegistry = true)
    (hlater : RunWhere Machine.step (fun _ _ => True) middle later last) :
    ((last.calls worker).process.Running → (last.calls worker).phase.Departs)
      ∧ (13 ≤ later.countP (Event.isMoveOf worker) →
        ∃ outcome, (last.calls worker).phase = .finished outcome)
      ∧ ((∃ outcome, (last.calls worker).phase = .finished outcome)
        ∨ ∃ move, (last.step (.move worker move)).isSome = true) := by
  have hmiddle := Run.sound hrun
  have hreturned : middle.Spares [] := by
    have hfits := hmiddle.cancels caller
    rwa [hcancel] at hfits
  obtain ⟨hlast, hspares, hcount⟩ := hmiddle.woken_run hregistry hreturned hlater
  obtain ⟨hjob, hkeeps, henrolled, -⟩ := hlast.calls worker
  refine ⟨fun hrunning => ?_, fun hsteps => ?_, ?_⟩
  · -- Nothing that runs is registered, and a call that collects would be.
    have hregistered : (last.calls worker).registered = false := by
      by_contra htrue
      have hnone := hspares.2.2 worker ⟨by simpa using htrue, hrunning⟩
      cases hnone
    simp only [Call.Keeps, Call.Enrolled, hregistered, hjob, hregistry] at hkeeps henrolled
    cases hphase : (last.calls worker).phase with
    | spawned | leaving _ | closing _ => trivial
    | entered | starting =>
      simp only [hphase] at hkeeps
      simp [hkeeps, Process.Running] at hrunning
    | finished outcome =>
      simp only [hphase] at hkeeps
      exact absurd hrunning hkeeps.2
    | _ => simp [hphase] at henrolled
  · have hbound := (hmiddle.calls worker).keeps.stepsLeft_le
    have hzero : (last.calls worker).phase.stepsLeft = 0 := by omega
    cases hphase : (last.calls worker).phase with
    | finished outcome => exact ⟨outcome, rfl⟩
    | handling collection keys =>
      rw [hphase] at hzero
      have hmore := hzero ▸ @Phase.two_lt_stepsLeft collection keys
      omega
    | _ => simp [hphase, Phase.stepsLeft] at hzero
  · obtain hfinished | ⟨move, hmove⟩ := hkeeps.advances (hjob ▸ hregistry) hspares.2.1 worker
    · exact .inl hfinished
    · exact .inr ⟨move, by simpa only [Machine.step, Option.isSome_map] using hmove⟩

/-- A process that waits, until the registry is cancelled. -/
def waitingEvents : List Event :=
  [.move 0 .proceed, .move 0 (.start true), .move 0 .proceed, .move 0 (.clock false),
    .cancel 0, .cancel 0, .cancel 0, .cancel 0, .cancel 0]

/-- It is woken and leaves. -/
def leavingEvents : List Event :=
  [.move 0 (.select [.stdin, .cancel]), .move 0 (.write .wouldBlock), .move 0 .proceed,
    .move 0 .proceed, .move 0 .proceed]

/-- The call is over, and its process does not run. -/
theorem cancelled_call_ends_waiting :
    ∃ middle last, Run oneCall waitingEvents middle ∧ middle.cancels 0 = .returned
      ∧ RunWhere Machine.step (fun _ _ => True) middle leavingEvents last
      ∧ (last.calls 0).phase = .finished (.error .cancelled)
      ∧ ¬ (last.calls 0).process.Running := by
  obtain ⟨middle, hmiddle⟩ := Option.isSome_iff_exists.mp
    (show (execute Machine.step (fun _ _ => True) (.start oneCall) waitingEvents).isSome = true
      from rfl)
  have hrun := runWhere_of_execute hmiddle
  obtain ⟨last, hlast⟩ :
      ∃ last, execute Machine.step (fun _ _ => True) middle leavingEvents = some last := by
    obtain rfl := Option.some.inj hmiddle
    exact Option.isSome_iff_exists.mp rfl
  have hlater := runWhere_of_execute hlast
  obtain rfl := Option.some.inj hmiddle
  have hphase : (last.calls 0).phase = .finished (.error .cancelled) := by
    obtain rfl := Option.some.inj hlast
    rfl
  have hends := (@cancelled_call_ends _ 0 _ _ _ _ 0 hrun rfl rfl hlater).1
  rw [hphase] at hends
  exact ⟨_, last, hrun, rfl, hlater, hphase, hends⟩

end Mocop.BoundedProcess
