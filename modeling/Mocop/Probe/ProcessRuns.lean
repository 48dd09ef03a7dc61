import Mocop.Probe.ProcessCalls
import Mathlib.Data.List.Perm.Subperm

/-!
# `Mocop.Probe.ProcessRuns`: a registry with its calls

`Machine.Sound` holds wherever a run comes, whatever the processes, the calls and the cancellations
do in whatever order. `finished_call` reads off what a call leaves behind: it has left the registry,
and its process has exited or been killed. If it has a result, the process has exited and closed
its outputs, and the result has all it has written to them, in no more bytes than the bound, while
the script has reached it in full, or up to where it stopped reading.

A cancellation sets the flag before it lists the processes, and a process is listed under the lock
under which the flag is read. So the processes that it lists are all that it has to kill
(`Machine.Spares`).
-/

set_option autoImplicit false

namespace Mocop.BoundedProcess

variable {jobs : ℕ → Job} {job : Job} {process other : Process} {collection : Collection}
  {call next : Call} {registry after : Registry} {worker : ℕ} {move : Move}
  {machine last : Machine} {event : Event} {events : List Event}

/-! ### What a step of a call does to the registry -/

/-- A call with a registry is registered while it collects, and may be while it leaves. -/
def Call.Enrolled (call : Call) : Prop :=
  match call.phase with
  | .entered | .starting | .spawned | .closing _ | .finished _ => call.registered = false
  | .leaving _ => call.registered = true → call.job.processRegistry = true
  | _ => call.registered = call.job.processRegistry

/-- The most steps that a woken call makes. A call that handles what a selector reported before it
was woken comes once more to the selector. -/
def Phase.stepsLeft : Phase → ℕ
  | .entered => 12
  | .starting => 11
  | .spawned => 10
  | .looping _ => 9
  | .selecting _ => 8
  | .handling _ keys => if .cancel ∈ keys then 3 + keys.length else 10 + keys.length
  | .collected _ => 4
  | .waiting _ => 3
  | .leaving _ => 2
  | .closing _ => 1
  | .finished _ => 0

/-- The three ways in which a step of a call can concern the registry: not at all, by an entry
while nothing is cancelled, and by taking the process out. -/
inductive Call.Concerns (call : Call) (registry : Registry) (worker : ℕ) (after : Registry)
    (next : Call) : Prop where
  | nothing (hregistry : after = registry) (hregistered : next.registered = call.registered)
      (hrunning : next.process.Running → call.phase = .starting ∨ call.process.Running)
  | enters (hcancelled : registry.cancelled = false)
      (hregistry : after = { registry with processes := worker :: registry.processes })
      (hregistered : next.registered = true)
  | leaves (hregistry : after
        = { registry with processes := registry.processes.filter (· ≠ worker) })
      (hregistered : next.registered = false)

/-- A step of a call: it keeps what is known of the call and its place in the registry, it concerns
the registry in one of the three ways, and a woken call comes nearer to its end. -/
structure Call.Advances (call : Call) (registry : Registry) (worker : ℕ) (after : Registry)
    (next : Call) : Prop where
  job : next.job = call.job
  concerns : call.Concerns registry worker after next
  keeps : call.Keeps → next.Keeps
  enrolled : call.Enrolled → next.Enrolled
  nearer : call.job.processRegistry = true → registry.wakeup = true →
    next.phase.stepsLeft < call.phase.stepsLeft

/-- A step that only goes on to another phase. -/
theorem Call.Advances.turn {phase : Phase}
    (hkeeps : call.Keeps → ({ call with phase := phase } : Call).Keeps)
    (henrolled : call.Enrolled → ({ call with phase := phase } : Call).Enrolled)
    (hnearer : phase.stepsLeft < call.phase.stepsLeft) :
    call.Advances registry worker registry { call with phase := phase } :=
  ⟨rfl, .nothing rfl rfl .inr, hkeeps, henrolled, fun _ _ => hnearer⟩

/-- A step that raises in the loop. -/
theorem Call.Advances.abort {error : Raised}
    (hfair : call.Keeps → Fair call.job call.process (.error error))
    (hcollects : call.Enrolled → call.registered = call.job.processRegistry)
    (hnearer : 2 < call.phase.stepsLeft) :
    call.Advances registry worker registry (call.abort error) :=
  ⟨rfl, .nothing rfl rfl fun hrunning => absurd hrunning Process.not_running_kill,
    fun h => (hfair h).evolve Process.kill_evolves, fun h => (hcollects h).symm.trans,
    fun _ _ => hnearer⟩

/-- More than two steps are left when an event is handled. -/
theorem Phase.two_lt_stepsLeft {keys : List Key} : 2 < (handling collection keys).stepsLeft := by
  simp only [stepsLeft]
  split <;> omega

/-- An event that is no cancellation is handled, and the others are as ready as they were. -/
theorem Call.Advances.handle {changed : Collection} {key : Key} {rest : List Key}
    (hphase : call.phase = .handling collection (key :: rest)) (hkey : key ≠ .cancel)
    (hrunning : other.Running → call.process.Running)
    (hfits : collection.Fits call.job call.process → collection.Awaits call.process key →
      changed.Fits call.job other)
    (hothers : ∀ each ≠ key, collection.Awaits call.process each → changed.Awaits other each) :
    call.Advances registry worker registry
      { call with phase := .handling changed rest, process := other } := by
  refine ⟨rfl, .nothing rfl rfl fun h => .inr (hrunning h), fun h => ?_, fun h => ?_,
    fun _ _ => ?_⟩
  · simp only [Call.Keeps, hphase] at h
    obtain ⟨hall, hnodup, hawaits⟩ := h
    obtain ⟨hnot, hrest⟩ := List.nodup_cons.mp hnodup
    refine ⟨hfits hall (hawaits key List.mem_cons_self), hrest, fun each heach => ?_⟩
    exact hothers each (fun heq => hnot (heq ▸ heach)) (hawaits each (List.mem_cons_of_mem _ heach))
  · simpa only [Call.Enrolled, hphase] using h
  · have hmem : .cancel ∈ key :: rest ↔ .cancel ∈ rest := by
      rw [List.mem_cons]
      exact or_iff_right hkey.symm
    rw [hphase]
    simp only [Phase.stepsLeft, hmem, List.length_cons]
    split <;> omega

/-- A selector reports four pipes at most. -/
theorem length_le_four {keys : List Key} (h : keys.Nodup) : keys.length ≤ 4 := by
  have hsubset : keys ⊆ [.output .stdout, .output .stderr, .stdin, .cancel] := by
    intro key _
    cases key with
    | output stream => cases stream <;> simp
    | stdin => simp
    | cancel => simp
  exact (List.subperm_of_subset h hsubset).length_le

theorem Call.advances_writeInput {rest : List Key} {answer : Written}
    (hphase : call.phase = .handling collection (.stdin :: rest))
    (hstep : call.writeInput collection rest answer = some next) :
    call.Advances registry worker registry next := by
  have hothers : ∀ {changed : Collection} {process : Process},
      changed.reading = collection.reading → process.unread = call.process.unread →
      process.closed = call.process.closed → ∀ each ≠ .stdin,
      collection.Awaits call.process each → changed.Awaits process each := by
    intro changed process hreading hunread hclosed each hne hawaits
    refine hawaits.congr (fun stream _ => ?_) fun heq => absurd heq hne
    rw [hreading, hunread, hclosed]
    exact ⟨rfl, rfl, rfl⟩
  cases answer with
  | accepted count =>
    simp only [Call.writeInput] at hstep
    split at hstep
    · rename_i hcan
      cases hstep
      exact .handle hphase (by decide) id (fun h hfeeding => h.send hfeeding hcan.1 count)
        (hothers rfl rfl rfl)
    · cases hstep
  | wouldBlock =>
    cases hstep
    exact .handle hphase (by decide) id (fun h _ => h) fun _ _ => id
  | brokenPipe =>
    simp only [Call.writeInput] at hstep
    split at hstep
    · cases hstep
    · rename_i hbroken
      cases hstep
      exact .handle hphase (by decide) id
        (fun h hfeeding => h.breakPipe hfeeding (by simpa using hbroken)) (hothers rfl rfl rfl)

theorem Call.advances_readOutput {rest : List Key} {stream : Stream} {count : ℕ}
    (hphase : call.phase = .handling collection (.output stream :: rest))
    (hstep : call.readOutput collection rest stream count = some next) :
    call.Advances registry worker registry next := by
  have hne : ∀ {each : Key} {s : Stream}, each ≠ .output stream → each = .output s → s ≠ stream :=
    fun heach heq hs => heach (hs ▸ heq)
  simp only [Call.readOutput] at hstep
  split at hstep
  · rename_i hcan
    obtain ⟨hcount, -, hsome⟩ := hcan
    split at hstep
    · rename_i hchunk
      cases hstep
      -- A read of no byte: nothing is there, so the output is closed.
      have hunread : call.process.unread stream = [] := by
        rcases List.take_eq_nil_iff.mp hchunk with hzero | hnil
        · omega
        · exact hnil
      refine .handle hphase (by simp) id (fun h hawaits => h.endOutput hawaits.1
        (hsome.resolve_left fun hnot => hnot hunread) hunread) fun each heach hawaits => ?_
      exact hawaits.congr
        (fun s heq => ⟨Function.update_of_ne (hne heach heq) _ _, rfl, rfl⟩) fun _ => rfl
    · split at hstep
      · cases hstep
        refine ⟨rfl, .nothing rfl rfl fun h => absurd h Process.not_running_kill, fun _ => trivial,
          fun h => ?_, fun _ _ => hphase ▸ Phase.two_lt_stepsLeft⟩
        simp only [Call.Enrolled, hphase] at h
        exact h.symm.trans
      · rename_i hbound
        cases hstep
        refine .handle hphase (by simp) id (fun h _ => h.readChunk stream count (by omega))
          fun each heach hawaits => ?_
        exact hawaits.congr
          (fun s heq => ⟨rfl, Function.update_of_ne (hne heach heq) _ _, rfl⟩) fun _ => rfl
  · cases hstep

/-- What every step of a call does. -/
theorem Call.advances (hstep : call.advance registry worker move = some (after, next)) :
    call.Advances registry worker after next := by
  unfold Call.advance at hstep
  split at hstep
  case h_1 hphase =>
    -- Nothing is started yet, whether the flag stops the call or not.
    have hkeeps : call.Keeps → call.process = {} := fun h => by simpa only [Keeps, hphase] using h
    have henrolled : call.Enrolled → call.registered = false := fun h => by
      simpa only [Enrolled, hphase] using h
    split at hstep
    · cases hstep
      refine .turn (fun h => ⟨trivial, fun hrunning => ?_⟩) henrolled
        (by simp [hphase, Phase.stepsLeft])
      simp [hkeeps h, Process.Running] at hrunning
    · cases hstep
      exact .turn hkeeps henrolled (by simp [hphase, Phase.stepsLeft])
  case h_2 succeeds hphase =>
    have hkeeps : call.Keeps → call.process = {} := fun h => by simpa only [Keeps, hphase] using h
    have henrolled : call.Enrolled → call.registered = false := fun h => by
      simpa only [Enrolled, hphase] using h
    split at hstep
    · cases hstep
      refine ⟨rfl, .nothing rfl rfl fun _ => .inl hphase, fun h => ?_, henrolled,
        fun _ _ => by simp [hphase, Phase.stepsLeft]⟩
      simp only [Keeps, hkeeps h]
      exact Collection.start_fits
    · cases hstep
      refine .turn (fun h => ⟨trivial, fun hrunning => ?_⟩) henrolled
        (by simp [hphase, Phase.stepsLeft])
      simp [hkeeps h, Process.Running] at hrunning
  case h_3 hphase =>
    -- Under the lock, the process enters the registry only while nothing is cancelled.
    have hkeeps : call.Keeps → (Collection.start call.job.input).Fits call.job call.process :=
      fun h => by simpa only [Keeps, hphase] using h
    split at hstep
    · rename_i hregistry
      split at hstep
      · cases hstep
        exact .turn (fun _ => trivial) (fun _ _ => hregistry) (by simp [hphase, Phase.stepsLeft])
      · rename_i hcancelled
        cases hstep
        exact ⟨rfl, .enters (by simpa using hcancelled) rfl rfl, hkeeps, fun _ => hregistry.symm,
          fun _ _ => by simp [hphase, Phase.stepsLeft]⟩
    · rename_i hregistry
      cases hstep
      refine .turn hkeeps (fun h => ?_) (by simp [hphase, Phase.stepsLeft])
      simp only [Enrolled, hphase] at h ⊢
      rw [h]
      simpa using hregistry
  case h_4 collection expired hphase =>
    -- The head of the loop: no pipe is left, the flag, the deadline, or the selector.
    have hkeeps : call.Keeps → collection.Fits call.job call.process := fun h => by
      simpa only [Keeps, hphase] using h
    have henrolled : call.Enrolled → call.registered = call.job.processRegistry := fun h => by
      simpa only [Enrolled, hphase] using h
    split at hstep
    · rename_i hkeys
      cases hstep
      exact .turn (fun h => ⟨hkeeps h, hkeys⟩) henrolled (by simp [hphase, Phase.stepsLeft])
    · split at hstep
      · cases hstep
        exact .abort (fun _ => trivial) henrolled (by simp [hphase, Phase.stepsLeft])
      · split at hstep
        · cases hstep
          exact .abort (fun h => (hkeeps h).fair_timeout) henrolled
            (by simp [hphase, Phase.stepsLeft])
        · cases hstep
          exact .turn hkeeps henrolled (by simp [hphase, Phase.stepsLeft])
  case h_5 collection ready hphase =>
    split at hstep
    · rename_i hready
      cases hstep
      obtain ⟨hnodup, hawaits, hcancel⟩ := Call.awaits_of_mayReport hready
      refine ⟨rfl, .nothing rfl rfl .inr, fun h => ⟨?_, hnodup, hawaits⟩,
        fun h => by simpa only [Enrolled, hphase] using h, fun hregistry hwakeup => ?_⟩
      · simpa only [Keeps, hphase] using h
      · -- The byte in the pipe is among what the selector reports.
        have hmem : .cancel ∈ ready := hcancel (by simp [Call.isReady, hregistry, hwakeup])
        have hlength := length_le_four hnodup
        simp only [hphase, Phase.stepsLeft, if_pos hmem]
        omega
    · cases hstep
  case h_6 collection hphase =>
    cases hstep
    refine .turn (fun h => ?_) (fun h => by simpa only [Enrolled, hphase] using h)
      (by simp [hphase, Phase.stepsLeft])
    simp only [Keeps, hphase] at h ⊢
    exact h.1
  case h_7 collection rest hphase =>
    cases hstep
    exact .abort (fun _ => trivial) (fun h => by simpa only [Enrolled, hphase] using h)
      (hphase ▸ Phase.two_lt_stepsLeft)
  case h_8 collection rest answer hphase =>
    obtain ⟨written, hwritten, heq⟩ := Option.map_eq_some_iff.mp hstep
    cases heq
    exact Call.advances_writeInput hphase hwritten
  case h_9 collection stream rest count hphase =>
    obtain ⟨read, hread, heq⟩ := Option.map_eq_some_iff.mp hstep
    cases heq
    exact Call.advances_readOutput hphase hread
  case h_10 collection hphase =>
    -- Past the loop: the flag once more, then what the process has exited with.
    have henrolled : call.Enrolled → call.registered = call.job.processRegistry := fun h => by
      simpa only [Enrolled, hphase] using h
    split at hstep
    · cases hstep
      exact .turn (fun _ => trivial) (fun h => (henrolled h).symm.trans)
        (by simp [hphase, Phase.stepsLeft])
    · cases hstep
      exact .turn (fun h => by simpa only [Keeps, hphase] using h) henrolled
        (by simp [hphase, Phase.stepsLeft])
  case h_11 collection hphase =>
    have hkeeps : call.Keeps → collection.Fits call.job call.process ∧ collection.streamKeys = 0 :=
      fun h => by simpa only [Keeps, hphase] using h
    have henrolled : call.Enrolled → call.registered = call.job.processRegistry := fun h => by
      simpa only [Enrolled, hphase] using h
    split at hstep
    · cases hstep
      exact .turn (fun h => (hkeeps h).1.fair_timeout) (fun h => (henrolled h).symm.trans)
        (by simp [hphase, Phase.stepsLeft])
    · rename_i returncode hcode
      cases hstep
      exact .turn (fun h => (hkeeps h).1.exact (hkeeps h).2 hcode)
        (fun h => (henrolled h).symm.trans) (by simp [hphase, Phase.stepsLeft])
  case h_12 outcome hphase =>
    -- The `finally`: out of the registry, and then the kill.
    have hkeeps : call.Keeps → Fair call.job call.process outcome := fun h => by
      simpa only [Keeps, hphase] using h
    split at hstep
    · cases hstep
      exact ⟨rfl, .leaves rfl rfl, hkeeps, fun _ => rfl,
        fun _ _ => by simp [hphase, Phase.stepsLeft]⟩
    · rename_i hregistered
      cases hstep
      exact .turn hkeeps (fun _ => by simpa only [Enrolled, Bool.not_eq_true] using hregistered)
        (by simp [hphase, Phase.stepsLeft])
  case h_13 outcome hphase =>
    cases hstep
    refine ⟨rfl, .nothing rfl rfl fun h => absurd h Process.not_running_kill, fun h => ?_,
      fun h => by simpa only [Enrolled, hphase] using h,
      fun _ _ => by simp [hphase, Phase.stepsLeft]⟩
    simp only [Keeps, hphase] at h
    exact ⟨h.evolve Process.kill_evolves, Process.not_running_kill⟩
  case h_14 => cases hstep

/-! ### The machine -/

/-- What a cancellation does: it sets the flag, wakes the selectors, takes the list of the
processes, kills one of it, or returns. -/
theorem Machine.cancelStep_cases {caller : ℕ} (hstep : machine.cancelStep caller = some last) :
    (machine.cancels caller = .idle ∧ last = { machine with
        registry := { machine.registry with cancelled := true }
        cancels := Function.update machine.cancels caller .flagged })
      ∨ (machine.cancels caller = .flagged ∧ last = { machine with
        registry := { machine.registry with wakeup := true }
        cancels := Function.update machine.cancels caller .woken })
      ∨ (machine.cancels caller = .woken ∧ last = { machine with
        cancels := Function.update machine.cancels caller
          (.killing machine.registry.processes) })
      ∨ (machine.cancels caller = .killing [] ∧ last = { machine with
        cancels := Function.update machine.cancels caller .returned })
      ∨ ∃ worker rest, machine.cancels caller = .killing (worker :: rest)
        ∧ last = { machine.setProcess worker (machine.calls worker).process.kill with
            cancels := Function.update machine.cancels caller (.killing rest) } := by
  simp only [Machine.cancelStep] at hstep
  split at hstep
  case h_1 hcaller => exact .inl ⟨hcaller, (Option.some.inj hstep).symm⟩
  case h_2 hcaller => exact .inr (.inl ⟨hcaller, (Option.some.inj hstep).symm⟩)
  case h_3 hcaller => exact .inr (.inr (.inl ⟨hcaller, (Option.some.inj hstep).symm⟩))
  case h_4 hcaller =>
    exact .inr (.inr (.inr (.inl ⟨hcaller, (Option.some.inj hstep).symm⟩)))
  case h_5 worker rest hcaller =>
    exact .inr (.inr (.inr (.inr ⟨worker, rest, hcaller, (Option.some.inj hstep).symm⟩)))
  case h_6 => cases hstep

/-- A registered process that runs. -/
def Machine.Exposed (machine : Machine) (worker : ℕ) : Prop :=
  (machine.calls worker).registered = true ∧ (machine.calls worker).process.Running

/-- A cancellation that has listed the processes has those still to kill that run. -/
def Machine.Spares (machine : Machine) (targets : List ℕ) : Prop :=
  machine.registry.cancelled = true ∧ machine.registry.wakeup = true
    ∧ ∀ worker, machine.Exposed worker → worker ∈ targets

/-- What is known of a cancellation, by where it is. -/
def Cancelling.Fits (machine : Machine) : Cancelling → Prop
  | .idle => True
  | .flagged => machine.registry.cancelled = true
  | .woken => machine.registry.cancelled = true ∧ machine.registry.wakeup = true
  | .killing targets => machine.Spares targets
  | .returned => machine.Spares []

/-- What is known of a call in a machine. -/
structure Call.Sound (call : Call) (registry : Registry) (worker : ℕ) (job : Job) : Prop where
  job : call.job = job
  keeps : call.Keeps
  enrolled : call.Enrolled
  listed : worker ∈ registry.processes ↔ call.registered = true

/-- The registry, its calls and its cancellations fit each other. -/
structure Machine.Sound (jobs : ℕ → Job) (machine : Machine) : Prop where
  calls : ∀ worker, (machine.calls worker).Sound machine.registry worker (jobs worker)
  cancels : ∀ caller, (machine.cancels caller).Fits machine

/-- A machine in which no flag was taken back, and in which after a cancellation no process was
registered. -/
structure Machine.Follows (machine last : Machine) : Prop where
  cancelled : machine.registry.cancelled = true → last.registry.cancelled = true
  wakeup : machine.registry.wakeup = true → last.registry.wakeup = true
  exposed : ∀ worker, machine.registry.cancelled = true → last.Exposed worker →
    machine.Exposed worker

/-- What is known of a cancellation stays true. -/
theorem Cancelling.Fits.follows {cancelling : Cancelling} (h : cancelling.Fits machine)
    (hfollows : machine.Follows last) : cancelling.Fits last := by
  cases cancelling with
  | idle => trivial
  | flagged => exact hfollows.cancelled h
  | woken => exact ⟨hfollows.cancelled h.1, hfollows.wakeup h.2⟩
  | killing targets =>
    exact ⟨hfollows.cancelled h.1, hfollows.wakeup h.2.1,
      fun worker hworker => h.2.2 worker (hfollows.exposed worker h.1 hworker)⟩
  | returned =>
    exact ⟨hfollows.cancelled h.1, hfollows.wakeup h.2.1,
      fun worker hworker => h.2.2 worker (hfollows.exposed worker h.1 hworker)⟩

/-- What follows when only the call of one worker has changed. -/
theorem Machine.Follows.setCall
    (hcancelled : machine.registry.cancelled = true → after.cancelled = true)
    (hwakeup : machine.registry.wakeup = true → after.wakeup = true)
    (hexposed : machine.registry.cancelled = true → next.registered = true →
      next.process.Running → machine.Exposed worker) :
    machine.Follows { machine.setCall worker next with registry := after } := by
  refine ⟨hcancelled, hwakeup, fun other hflag hother => ?_⟩
  by_cases heq : other = worker
  · subst heq
    simp only [Machine.Exposed, Machine.setCall, Function.update_self] at hother
    exact hexposed hflag hother.1 hother.2
  · simpa only [Machine.Exposed, Machine.setCall, Function.update_of_ne heq] using hother

/-- What follows when a process has evolved. -/
theorem Machine.Follows.setProcess (hother : (machine.calls worker).process.Evolves other) :
    machine.Follows (machine.setProcess worker other) :=
  .setCall id id fun _ hregistered hrunning => ⟨hregistered, hother.running hrunning⟩

/-- A step of a call takes back no flag, and registers no process after a cancellation. -/
theorem Machine.Sound.follows_move (h : machine.Sound jobs)
    (hadvances : (machine.calls worker).Advances machine.registry worker after next) :
    machine.Follows { machine.setCall worker next with registry := after } := by
  cases hadvances.concerns with
  | nothing hregistry hregistered hrunning =>
    subst hregistry
    refine .setCall id id fun _ hnext hnextRunning => ?_
    rw [hregistered] at hnext
    refine ⟨hnext, (hrunning hnextRunning).resolve_left fun hphase => ?_⟩
    have henrolled := (h.calls worker).enrolled
    simp only [Call.Enrolled, hphase, hnext] at henrolled
    cases henrolled
  | enters hcancelled hregistry hregistered =>
    subst hregistry
    refine .setCall id id fun hflag => ?_
    rw [hcancelled] at hflag
    cases hflag
  | leaves hregistry hregistered =>
    subst hregistry
    refine .setCall id id fun _ hnext => ?_
    rw [hregistered] at hnext
    cases hnext

/-- Nor does any other step. -/
theorem Machine.Sound.follows (h : machine.Sound jobs) (hstep : machine.step event = some last) :
    machine.Follows last := by
  cases event with
  | move worker move =>
    obtain ⟨⟨after, next⟩, hadvance, rfl⟩ := Option.map_eq_some_iff.mp hstep
    exact h.follows_move (Call.advances hadvance)
  | cancel caller =>
    obtain ⟨-, rfl⟩ | ⟨-, rfl⟩ | ⟨-, rfl⟩ | ⟨-, rfl⟩ | ⟨worker, rest, -, rfl⟩ :=
      Machine.cancelStep_cases hstep
    · exact ⟨fun _ => rfl, id, fun _ _ => id⟩
    · exact ⟨id, fun _ => rfl, fun _ _ => id⟩
    · exact ⟨id, id, fun _ _ => id⟩
    · exact ⟨id, id, fun _ _ => id⟩
    · have hkilled := Machine.Follows.setProcess (machine.calls worker).process.kill_evolves
      exact ⟨hkilled.cancelled, hkilled.wakeup, hkilled.exposed⟩
  | child worker doing =>
    simp only [Machine.step] at hstep
    split at hstep
    · obtain ⟨process, hprocess, rfl⟩ := Option.map_eq_some_iff.mp hstep
      exact .setProcess (Process.perform_evolves hprocess)
    · cases hstep

/-- The start is sound. -/
theorem Machine.start_sound : (Machine.start jobs).Sound jobs where
  calls _ := ⟨rfl, rfl, rfl, by simp [Machine.start]⟩
  cancels _ := trivial

/-- A process that evolves keeps the calls sound. -/
theorem Machine.Sound.setProcess (h : machine.Sound jobs)
    (hother : (machine.calls worker).process.Evolves other)
    (hnew : (machine.calls worker).process = {} → other = {}) (each : ℕ) :
    ((machine.setProcess worker other).calls each).Sound machine.registry each (jobs each) := by
  have hcall := h.calls worker
  by_cases heq : each = worker
  · subst heq
    simp only [Machine.setProcess, Machine.setCall, Function.update_self]
    exact ⟨hcall.job, hcall.keeps.evolve hother hnew, hcall.enrolled, hcall.listed⟩
  · simpa only [Machine.setProcess, Machine.setCall, Function.update_of_ne heq] using h.calls each

/-- A step of a call keeps the calls sound. -/
theorem Machine.Sound.advance (h : machine.Sound jobs)
    (hstep : (machine.calls worker).advance machine.registry worker move = some (after, next))
    (each : ℕ) : ((machine.setCall worker next).calls each).Sound after each (jobs each) := by
  have hadvances := Call.advances hstep
  have hcall := h.calls each
  by_cases heq : each = worker
  · subst heq
    simp only [Machine.setCall, Function.update_self]
    refine ⟨hadvances.job.trans hcall.job, hadvances.keeps hcall.keeps,
      hadvances.enrolled hcall.enrolled, ?_⟩
    cases hadvances.concerns with
    | nothing hregistry hregistered => rw [hregistry, hregistered]; exact hcall.listed
    | enters _ hregistry hregistered => simp [hregistry, hregistered]
    | leaves hregistry hregistered => simp [hregistry, hregistered]
  · simp only [Machine.setCall, Function.update_of_ne heq]
    refine ⟨hcall.job, hcall.keeps, hcall.enrolled, ?_⟩
    cases hadvances.concerns with
    | nothing hregistry => rw [hregistry]; exact hcall.listed
    | enters _ hregistry => simpa [hregistry, heq] using hcall.listed
    | leaves hregistry => simpa [hregistry, heq] using hcall.listed

/-- The cancellations after a step of one of them: the processes that it lists are all that are
registered, and it is through with one when it has killed it. -/
theorem Machine.Sound.cancel {caller : ℕ} (h : machine.Sound jobs)
    (hstep : machine.step (.cancel caller) = some last) (each : ℕ) :
    (last.cancels each).Fits last := by
  have hfollows := h.follows hstep
  have hcaller := (h.cancels caller).follows hfollows
  have hothers : each ≠ caller → last.cancels each = machine.cancels each := by
    intro hne
    obtain ⟨-, rfl⟩ | ⟨-, rfl⟩ | ⟨-, rfl⟩ | ⟨-, rfl⟩ | ⟨worker, rest, -, rfl⟩ :=
      Machine.cancelStep_cases hstep <;> exact Function.update_of_ne hne _ _
  by_cases heq : each = caller
  · subst heq
    obtain ⟨hcase, rfl⟩ | ⟨hcase, rfl⟩ | ⟨hcase, rfl⟩ | ⟨hcase, rfl⟩
        | ⟨worker, rest, hcase, rfl⟩ := Machine.cancelStep_cases hstep
    all_goals
      rw [hcase] at hcaller
      simp only [Function.update_self]
    · rfl
    · exact ⟨hcaller, rfl⟩
    · exact ⟨hcaller.1, hcaller.2, fun worker hworker => (h.calls worker).listed.mpr hworker.1⟩
    · exact hcaller
    · refine ⟨hcaller.1, hcaller.2.1, fun exposed hexposed => ?_⟩
      refine (List.mem_cons.mp (hcaller.2.2 exposed hexposed)).resolve_left fun hsame => ?_
      subst hsame
      have hrunning := hexposed.2
      simp only [Machine.setProcess, Machine.setCall, Function.update_self] at hrunning
      exact Process.not_running_kill hrunning
  · rw [hothers heq]
    exact (h.cancels each).follows hfollows

/-- Every step keeps the machine sound. -/
theorem Machine.Sound.step (h : machine.Sound jobs) (hstep : machine.step event = some last) :
    last.Sound jobs := by
  have hfollows := h.follows hstep
  cases event with
  | move worker move =>
    obtain ⟨⟨after, next⟩, hadvance, rfl⟩ := Option.map_eq_some_iff.mp hstep
    exact ⟨h.advance hadvance, fun caller => (h.cancels caller).follows hfollows⟩
  | cancel caller =>
    refine ⟨fun worker => ?_, h.cancel hstep⟩
    obtain ⟨-, rfl⟩ | ⟨-, rfl⟩ | ⟨-, rfl⟩ | ⟨-, rfl⟩ | ⟨target, rest, -, rfl⟩ :=
      Machine.cancelStep_cases hstep
    · have hcall := h.calls worker
      exact ⟨hcall.job, hcall.keeps, hcall.enrolled, hcall.listed⟩
    · have hcall := h.calls worker
      exact ⟨hcall.job, hcall.keeps, hcall.enrolled, hcall.listed⟩
    · exact h.calls worker
    · exact h.calls worker
    · exact h.setProcess Process.kill_evolves (fun hnone => by rw [hnone]; rfl) worker
  | child worker doing =>
    simp only [Machine.step] at hstep
    split at hstep
    · rename_i hstarted
      obtain ⟨process, hprocess, rfl⟩ := Option.map_eq_some_iff.mp hstep
      refine ⟨h.setProcess (Process.perform_evolves hprocess) fun hnone => ?_,
        fun caller => (h.cancels caller).follows hfollows⟩
      rw [hnone] at hstarted
      cases hstarted
    · cases hstep

/-- Wherever a run comes, the machine is sound. -/
theorem Run.sound (hrun : Run jobs events machine) : machine.Sound jobs :=
  hrun.invariant Machine.start_sound fun _ _ _ h _ hstep => h.step hstep

/-- A call that is over leaves no process behind, and is not in the registry. Its result is
everything that the process has written, within the bound, and the process has exited with that
code after it has had the script; what it reports of a timeout is the beginning of what the
process has written. -/
theorem finished_call {outcome : Except Raised Result} (hrun : Run jobs events machine)
    (hfinished : (machine.calls worker).phase = .finished outcome) :
    ¬ (machine.calls worker).process.Running ∧ worker ∉ machine.registry.processes
      ∧ Fair (jobs worker) (machine.calls worker).process outcome := by
  obtain ⟨hjob, hkeeps, henrolled, hlisted⟩ := (Run.sound hrun).calls worker
  simp only [Call.Keeps, Call.Enrolled, hfinished] at hkeeps henrolled
  refine ⟨hkeeps.2, fun hmem => ?_, hjob ▸ hkeeps.1⟩
  rw [hlisted.mp hmem] at henrolled
  cases henrolled

/-- One call, of a script of two bytes. -/
def oneCall : ℕ → Job := fun _ => ⟨[108, 115], 100, true, true⟩

/-- A process that is fed byte by byte, writes a word and exits. -/
def wordEvents : List Event :=
  [.move 0 .proceed, .move 0 (.start true), .move 0 .proceed, .move 0 (.clock false),
    .move 0 (.select [.stdin]), .move 0 (.write (.accepted 1)), .move 0 .proceed,
    .move 0 (.clock false), .child 0 (.writes .stdout [104, 105]), .child 0 (.closes .stderr),
    .move 0 (.select [.output .stdout, .stdin, .output .stderr]), .move 0 (.read 65536),
    .move 0 (.write (.accepted 1)), .move 0 (.read 65536), .move 0 .proceed,
    .child 0 (.closes .stdout), .move 0 (.clock false), .move 0 (.select [.output .stdout]),
    .move 0 (.read 65536), .move 0 .proceed, .move 0 (.clock false), .move 0 .proceed,
    .child 0 (.exits 7), .move 0 .proceed, .move 0 .proceed, .move 0 .proceed]

theorem finished_call_word :
    ∃ machine, Run oneCall wordEvents machine
      ∧ Result.Exact ⟨7, fun stream => if stream = .stdout then ['h', 'i'] else []⟩ (oneCall 0)
        (machine.calls 0).process := by
  obtain ⟨machine, hmachine⟩ := Option.isSome_iff_exists.mp
    (show (execute Machine.step (fun _ _ => True) (.start oneCall) wordEvents).isSome = true from
      rfl)
  have hrun := runWhere_of_execute hmachine
  have hphase : ∃ result : Result, (machine.calls 0).phase = .finished (.ok result)
      ∧ result = ⟨7, fun stream => if stream = .stdout then ['h', 'i'] else []⟩ := by
    obtain rfl := Option.some.inj hmachine
    exact ⟨_, rfl, by congr 1; funext stream; cases stream <;> rfl⟩
  obtain ⟨result, hfinished, rfl⟩ := hphase
  exact ⟨machine, hrun, (finished_call hrun hfinished).2.2⟩

end Mocop.BoundedProcess
