import Mocop.Probe.BoundedProcess
import Mathlib.Data.List.Nodup

/-!
# `Mocop.Probe.ProcessCalls`: what a call holds of its process

`Call.Keeps` says by the phase of a call what its variables have to do with its process: the
collected bytes and the unread ones are what the process has written, a pipe leaves the selector
when it is read to its end, and what was fed and what is pending are the script. The process does
what it likes, also when it is killed, and keeps it (`Call.Keeps.evolve`); that the steps of the
call keep it follows from the lemmas about `Collection.Fits` at the end.
-/

set_option autoImplicit false

namespace Mocop.BoundedProcess

variable {job : Job} {process other : Process} {collection : Collection}
  {call next : Call} {registry after : Registry} {worker : ℕ} {move : Move}

/-! ### What a call holds -/

/-- The process has had the script, or as much of it as it wanted. -/
def Process.Delivered (process : Process) (pending input : List UInt8) : Prop :=
  process.stdin ++ pending = input
    ∨ process.stdinOpen = false ∧ process.stdin <+: input ∧ pending = []

/-- The variables of the collecting loop fit what the process has done. -/
structure Collection.Fits (collection : Collection) (job : Job) (process : Process) : Prop where
  output : ∀ stream,
    collection.output stream ++ process.unread stream = process.written stream
  ended : ∀ stream, collection.reading stream = false →
    process.closed stream = true ∧ process.unread stream = []
  total : collection.totalBytes
    = (collection.output .stdout).length + (collection.output .stderr).length
  bounded : collection.totalBytes ≤ job.maxOutputBytes
  delivered : process.Delivered collection.pendingInput job.input
  feeding : collection.feeding = !collection.pendingInput.isEmpty
  keys : collection.streamKeys = collection.feeding.toNat
    + (collection.reading .stdout).toNat + (collection.reading .stderr).toNat

/-- An event of the selector that the loop can handle. -/
def Collection.Awaits (collection : Collection) (process : Process) : Key → Prop
  | .output stream => collection.reading stream = true
      ∧ (process.unread stream ≠ [] ∨ process.closed stream = true)
  | .stdin => collection.feeding = true
  | .cancel => True

/-- A result is what the process has done, all of it. -/
structure Result.Exact (result : Result) (job : Job) (process : Process) : Prop where
  exited : process.returncode = some result.returncode
  closed : ∀ stream, process.closed stream = true
  output : ∀ stream, result.output stream = decodeOutput (process.written stream)
  bounded : (process.written .stdout).length + (process.written .stderr).length
    ≤ job.maxOutputBytes
  delivered : process.Delivered [] job.input

/-- What the outcome of a call says about its process. -/
def Fair (job : Job) (process : Process) : Except Raised Result → Prop
  | .ok result => result.Exact job process
  | .error (.timeout output) => (∀ stream, output stream <+: process.written stream)
      ∧ (output .stdout).length + (output .stderr).length ≤ job.maxOutputBytes
  | .error _ => True

/-- What is known of a call, by where it is. -/
def Call.Keeps (call : Call) : Prop :=
  match call.phase with
  | .entered | .starting => call.process = {}
  | .spawned => (Collection.start call.job.input).Fits call.job call.process
  | .looping collection | .selecting collection => collection.Fits call.job call.process
  | .handling collection keys => collection.Fits call.job call.process
      ∧ keys.Nodup ∧ ∀ key ∈ keys, collection.Awaits call.process key
  | .collected collection | .waiting collection =>
    collection.Fits call.job call.process ∧ collection.streamKeys = 0
  | .leaving outcome | .closing outcome => Fair call.job call.process outcome
  | .finished outcome => Fair call.job call.process outcome ∧ ¬ call.process.Running

/-- A killed process does not run. -/
theorem Process.not_running_kill : ¬ process.kill.Running := by
  intro hrunning
  have hstarted : process.started = true := hrunning.1
  have hcode : process.returncode = none := hrunning.2.1
  have hkilled : (process.killed || process.started && process.returncode.isNone) = false :=
    hrunning.2.2
  simp [hstarted, hcode] at hkilled

/-! ### What the process does -/

/-- What a process cannot take back: what it has written, an output or an input that is closed,
and that it has exited or been killed. What it writes is unread. -/
structure Process.Evolves (process other : Process) : Prop where
  written : ∀ stream, ∃ bytes, other.written stream = process.written stream ++ bytes
    ∧ other.unread stream = process.unread stream ++ bytes
    ∧ (process.closed stream = true → bytes = [])
  closed : ∀ stream, process.closed stream = true → other.closed stream = true
  stdin : other.stdin = process.stdin
  stdinOpen : process.stdinOpen = false → other.stdinOpen = false
  returncode : ∀ code, process.returncode = some code → other.returncode = some code
  running : other.Running → process.Running

/-- Killing writes and closes nothing. -/
theorem Process.kill_evolves : process.Evolves process.kill :=
  ⟨fun _ => ⟨[], by simp [Process.kill]⟩, fun _ => id, rfl, id, fun _ => id,
    fun hrunning => absurd hrunning not_running_kill⟩

/-- A process evolves in what it does. -/
theorem Process.perform_evolves {doing : Doing} (hdoing : process.perform doing = some other) :
    process.Evolves other := by
  cases doing with
  | writes stream bytes =>
    simp only [Process.perform] at hdoing
    split at hdoing
    · cases hdoing
    · rename_i hopen
      cases hdoing
      refine ⟨fun s => ?_, fun _ => id, rfl, id, fun _ => id, id⟩
      by_cases hs : s = stream
      · subst hs
        exact ⟨bytes, by simp, by simp, fun hclosed => absurd hclosed hopen⟩
      · exact ⟨[], by simp [hs]⟩
  | closes stream =>
    cases hdoing
    refine ⟨fun _ => ⟨[], by simp⟩, fun s hs => ?_, rfl, id, fun _ => id, id⟩
    by_cases heq : s = stream
    · simp [heq]
    · simpa [heq] using hs
  | closesInput =>
    cases hdoing
    exact ⟨fun _ => ⟨[], by simp⟩, fun _ => id, rfl, fun _ => rfl, fun _ => id, id⟩
  | exits returncode =>
    simp only [Process.perform] at hdoing
    split at hdoing
    · cases hdoing
    · rename_i hcode
      cases hdoing
      refine ⟨fun _ => ⟨[], by simp⟩, fun _ => id, rfl, id, fun code hsome => ?_, ?_⟩
      · simp [hsome] at hcode
      · exact fun hrunning => by cases hrunning.2.1

/-- Nothing is written to an output that is closed. -/
theorem Process.Evolves.of_closed (h : process.Evolves other) {stream : Stream}
    (hclosed : process.closed stream = true) :
    other.written stream = process.written stream
      ∧ other.unread stream = process.unread stream := by
  obtain ⟨bytes, hwritten, hunread, hnone⟩ := h.written stream
  rw [hwritten, hunread, hnone hclosed, List.append_nil, List.append_nil]
  exact ⟨rfl, rfl⟩

/-- What a process has had of the script it keeps. -/
theorem Process.Delivered.evolve {pending input : List UInt8}
    (h : process.Delivered pending input) (hother : process.Evolves other) :
    other.Delivered pending input := by
  rw [Process.Delivered, hother.stdin]
  exact h.imp id fun hpart => ⟨hother.stdinOpen hpart.1, hpart.2⟩

/-- What the loop holds fits whatever the process does. -/
theorem Collection.Fits.evolve (h : collection.Fits job process)
    (hother : process.Evolves other) : collection.Fits job other := by
  refine ⟨fun stream => ?_, fun stream hstream => ?_, h.total, h.bounded,
    h.delivered.evolve hother, h.feeding, h.keys⟩
  · obtain ⟨bytes, hwritten, hunread, -⟩ := hother.written stream
    rw [hwritten, hunread, ← List.append_assoc, h.output]
  · obtain ⟨hclosed, hnone⟩ := h.ended stream hstream
    exact ⟨hother.closed stream hclosed, (hother.of_closed hclosed).2.trans hnone⟩

/-- What was ready stays ready until it is read. -/
theorem Collection.Awaits.evolve {key : Key} (h : collection.Awaits process key)
    (hother : process.Evolves other) : collection.Awaits other key := by
  cases key with
  | output stream =>
    refine ⟨h.1, h.2.imp (fun hunread => ?_) (hother.closed stream)⟩
    obtain ⟨bytes, -, hmore, -⟩ := hother.written stream
    simp [hmore, hunread]
  | stdin => exact h
  | cancel => trivial

/-- What an outcome says stays true. -/
theorem Fair.evolve {outcome : Except Raised Result} (h : Fair job process outcome)
    (hother : process.Evolves other) : Fair job other outcome := by
  cases outcome with
  | ok result =>
    have hwritten : ∀ stream, other.written stream = process.written stream :=
      fun stream => (hother.of_closed (h.closed stream)).1
    refine ⟨hother.returncode _ h.exited, fun stream => hother.closed _ (h.closed stream),
      fun stream => ?_, ?_, h.delivered.evolve hother⟩
    · rw [hwritten]
      exact h.output stream
    · rw [hwritten, hwritten]
      exact h.bounded
  | error error =>
    cases error with
    | timeout output =>
      refine ⟨fun stream => (h.1 stream).trans ?_, h.2⟩
      obtain ⟨bytes, hwritten, -⟩ := hother.written stream
      exact ⟨bytes, hwritten.symm⟩
    | _ => trivial

/-- What is known of a call stays true, whatever its process does, once it is there. -/
theorem Call.Keeps.evolve (h : call.Keeps) (hother : call.process.Evolves other)
    (hnew : call.process = {} → other = {}) : ({ call with process := other } : Call).Keeps := by
  unfold Call.Keeps at h ⊢
  cases hphase : call.phase with
  | entered | starting => simp only [hphase] at h ⊢; exact hnew h
  | spawned | looping _ | selecting _ => simp only [hphase] at h ⊢; exact h.evolve hother
  | handling collection keys =>
    simp only [hphase] at h ⊢
    exact ⟨h.1.evolve hother, h.2.1, fun key hkey => (h.2.2 key hkey).evolve hother⟩
  | collected _ | waiting _ => simp only [hphase] at h ⊢; exact ⟨h.1.evolve hother, h.2⟩
  | leaving _ | closing _ => simp only [hphase] at h ⊢; exact h.evolve hother
  | finished outcome =>
    simp only [hphase] at h ⊢
    exact ⟨h.1.evolve hother, fun hrunning => h.2 (hother.running hrunning)⟩

/-! ### What a step of a call does -/

/-- A new process has written nothing, and an empty script is delivered. -/
theorem Collection.start_fits :
    (Collection.start job.input).Fits job { started := true } := by
  refine ⟨fun _ => rfl, fun stream hstream => (by cases hstream), rfl, Nat.zero_le _, .inl rfl,
    rfl, ?_⟩
  cases hinput : job.input with
  | nil => simp [Collection.start]
  | cons byte rest => simp [Collection.start]

/-- A part of what was pending reaches the process. -/
theorem Collection.Fits.send (h : collection.Fits job process)
    (hfeeding : collection.feeding = true) (hopen : process.stdinOpen = true) (count : ℕ) :
    ({ collection with
        pendingInput := collection.pendingInput.drop count
        feeding := !(collection.pendingInput.drop count).isEmpty
        streamKeys := if collection.pendingInput.drop count = [] then collection.streamKeys - 1
          else collection.streamKeys } : Collection).Fits job
      { process with stdin := process.stdin ++ collection.pendingInput.take count } := by
  have hkeys := h.keys
  rw [hfeeding] at hkeys
  refine ⟨h.output, h.ended, h.total, h.bounded, ?_, rfl, ?_⟩
  · rcases h.delivered with hall | ⟨hclosed, -⟩
    · left
      show (process.stdin ++ collection.pendingInput.take count)
        ++ collection.pendingInput.drop count = job.input
      rw [List.append_assoc, List.take_append_drop, hall]
    · rw [hopen] at hclosed
      cases hclosed
  · cases hdrop : collection.pendingInput.drop count with
    | nil => simp [hkeys]; omega
    | cons byte rest => simp [hkeys]

/-- The process does not take what is pending. -/
theorem Collection.Fits.breakPipe (h : collection.Fits job process)
    (hfeeding : collection.feeding = true) (hclosed : process.stdinOpen = false) :
    ({ collection with
        pendingInput := []
        feeding := false
        streamKeys := collection.streamKeys - 1 } : Collection).Fits job process := by
  have hkeys := h.keys
  rw [hfeeding] at hkeys
  refine ⟨h.output, h.ended, h.total, h.bounded, .inr ⟨hclosed, ?_, rfl⟩, rfl, ?_⟩
  · rcases h.delivered with hall | ⟨-, hpart, -⟩
    · exact ⟨_, hall⟩
    · exact hpart
  · simp [hkeys]
    omega

/-- An output is read to its end. -/
theorem Collection.Fits.endOutput (h : collection.Fits job process) {stream : Stream}
    (hreading : collection.reading stream = true) (hclosed : process.closed stream = true)
    (hunread : process.unread stream = []) :
    ({ collection with
        reading := Function.update collection.reading stream false
        streamKeys := collection.streamKeys - 1 } : Collection).Fits job process := by
  have hkeys := h.keys
  refine ⟨h.output, fun s hs => ?_, h.total, h.bounded, h.delivered, h.feeding, ?_⟩
  · by_cases hstream : s = stream
    · subst hstream
      exact ⟨hclosed, hunread⟩
    · exact h.ended s (by simpa only [Function.update_of_ne hstream] using hs)
  · cases stream with
    | stdout => simp [hreading] at hkeys ⊢; omega
    | stderr => simp [hreading] at hkeys ⊢; omega

/-- A chunk of an output is read, within the bound. -/
theorem Collection.Fits.readChunk (h : collection.Fits job process) (stream : Stream) (count : ℕ)
    (hbound : collection.totalBytes + ((process.unread stream).take count).length
      ≤ job.maxOutputBytes) :
    ({ collection with
        totalBytes := collection.totalBytes + ((process.unread stream).take count).length
        output := Function.update collection.output stream
          (collection.output stream ++ (process.unread stream).take count) } : Collection).Fits job
      { process with
        unread := Function.update process.unread stream ((process.unread stream).drop count) } := by
  refine ⟨fun s => ?_, fun s hs => ?_, ?_, hbound, h.delivered, h.feeding, h.keys⟩
  · by_cases hstream : s = stream
    · subst hstream
      simp only [Function.update_self]
      rw [List.append_assoc, List.take_append_drop, h.output s]
    · simp only [Function.update_of_ne hstream]
      exact h.output s
  · have hended := h.ended s hs
    refine ⟨hended.1, ?_⟩
    by_cases hstream : s = stream
    · subst hstream
      simp [hended.2]
    · simpa only [Function.update_of_ne hstream] using hended.2
  · have htotal := h.total
    cases stream with
    | stdout => simp [htotal]; omega
    | stderr => simp [htotal]; omega

/-- What the loop holds at a timeout is a part of what the process has written. -/
theorem Collection.Fits.fair_timeout (h : collection.Fits job process) :
    Fair job process (.error (.timeout collection.output)) :=
  ⟨fun stream => ⟨_, h.output stream⟩, h.total ▸ h.bounded⟩

/-- When the selector has nothing left and the process has exited, the result is exact. -/
theorem Collection.Fits.exact (h : collection.Fits job process) (hkeys : collection.streamKeys = 0)
    {returncode : ℤ} (hcode : process.returncode = some returncode) :
    Result.Exact ⟨returncode, fun stream => decodeOutput (collection.output stream)⟩ job
      process := by
  have hsum := h.keys
  rw [hkeys] at hsum
  have hreading : ∀ stream, collection.reading stream = false := by
    intro stream
    cases stream with
    | stdout => exact Bool.toNat_eq_zero.mp (by omega)
    | stderr => exact Bool.toNat_eq_zero.mp (by omega)
  have hwritten : ∀ stream, collection.output stream = process.written stream := by
    intro stream
    have hall := h.output stream
    rwa [(h.ended stream (hreading stream)).2, List.append_nil] at hall
  refine ⟨hcode, fun stream => (h.ended stream (hreading stream)).1, fun stream => ?_, ?_, ?_⟩
  · show decodeOutput (collection.output stream) = decodeOutput (process.written stream)
    rw [hwritten]
  · rw [← hwritten, ← hwritten, ← h.total]
    exact h.bounded
  · have hpending : collection.pendingInput = [] := by
      have hfeeding : collection.feeding = false := by
        exact Bool.toNat_eq_zero.mp (by omega)
      have hfeed := h.feeding
      rw [hfeeding] at hfeed
      simpa using hfeed
    exact hpending ▸ h.delivered

/-- What an event of the selector says about the process. -/
theorem Call.awaits_of_mayReport {ready : List Key}
    (hready : call.mayReport registry collection ready = true) :
    ready.Nodup ∧ (∀ key ∈ ready, collection.Awaits call.process key)
      ∧ (call.isReady registry collection .cancel = true → .cancel ∈ ready) := by
  simp only [mayReport, Bool.and_eq_true, decide_eq_true_eq] at hready
  obtain ⟨⟨hnodup, hall⟩, hcancel⟩ := hready
  refine ⟨hnodup, fun key hkey => ?_, fun hwoken => by simpa [hwoken] using hcancel⟩
  have hkeyReady := List.all_eq_true.mp hall key hkey
  cases key with
  | output stream =>
    simp only [isReady, Bool.and_eq_true, Bool.or_eq_true] at hkeyReady
    refine ⟨hkeyReady.1, hkeyReady.2.imp (fun hunread => ?_) id⟩
    intro hnil
    simp [hnil] at hunread
  | stdin => exact hkeyReady
  | cancel => trivial

/-- Handling an event leaves the others as they were. -/
theorem Collection.Awaits.congr {changed : Collection} {key : Key}
    (h : collection.Awaits process key)
    (hreading : ∀ stream, key = .output stream →
      changed.reading stream = collection.reading stream
        ∧ other.unread stream = process.unread stream
        ∧ other.closed stream = process.closed stream)
    (hfeeding : key = .stdin → changed.feeding = collection.feeding) :
    changed.Awaits other key := by
  cases key with
  | output stream =>
    obtain ⟨hread, hunread, hclosed⟩ := hreading stream rfl
    show changed.reading stream = true
      ∧ (other.unread stream ≠ [] ∨ other.closed stream = true)
    rw [hread, hunread, hclosed]
    exact h
  | stdin => exact (hfeeding rfl).trans h
  | cancel => trivial

end Mocop.BoundedProcess
