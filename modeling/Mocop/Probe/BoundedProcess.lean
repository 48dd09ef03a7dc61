import Mocop.Lib.Runs
import Mocop.Lib.Utf8
import Mathlib.Data.Int.Notation

/-!
# `Mocop.Probe.BoundedProcess`: collector processes with their bounds and their cancellation

`_run_bounded_process` starts a child, feeds it the script and collects what it writes, and
`_ActiveProcessRegistry` owns the children that run, so that a shutdown can stop them. A `Machine`
is one registry with its calls and the callers of `cancel`, each at a point of the code between
two operations on the outside: the flag, the lock, the clock, the selector, a pipe or the process.

A child does what it likes (`Event`): it writes, closes its streams, and exits, also after it has
been killed, for its group can hold other processes. The clock is an answer of a step: whether the
deadline has passed. A selector reports pipes that are ready, in any order and not necessarily all
of them, but always the wake-up pipe of the registry when a byte is in it, for nobody reads that
byte.
-/

set_option autoImplicit false

namespace Mocop.BoundedProcess

/-- An output of a child. -/
inductive Stream where
  | stdout
  | stderr
  deriving DecidableEq

/-- A child with the processes of its group, and the pipes to it. -/
structure Process where
  started : Bool := false
  returncode : Option ℤ := none
  /-- Whether its group was sent `SIGKILL`. -/
  killed : Bool := false
  /-- What was written to its input. -/
  stdin : List UInt8 := []
  /-- Whether somebody can read the input. -/
  stdinOpen : Bool := true
  /-- What it has written to an output, the part of it that was not read, and whether nobody can
  write to it any more. -/
  written : Stream → List UInt8 := fun _ => []
  unread : Stream → List UInt8 := fun _ => []
  closed : Stream → Bool := fun _ => false

/-- `_kill_process_group`. A process that has exited is not there to be killed. -/
def Process.kill (process : Process) : Process :=
  { process with killed := process.killed || process.started && process.returncode.isNone }

/-- A process that has neither exited nor been killed. -/
def Process.Running (process : Process) : Prop :=
  process.started = true ∧ process.returncode = none ∧ process.killed = false

/-- The arguments of a call. The command and its environment decide what the child does, and the
timeout what the clock says. -/
structure Job where
  input : List UInt8
  maxOutputBytes : ℕ
  /-- Whether the call is given the flag of the registry, and the registry itself. -/
  cancelEvent : Bool
  processRegistry : Bool

/-- The bytes that one system call reads or writes at most. -/
def processIoChunkBytes : ℕ := 65536

/-- What a selector waits for. -/
inductive Key where
  | output (stream : Stream)
  | stdin
  | cancel
  deriving DecidableEq

/-- The variables of the collecting loop. -/
structure Collection where
  pendingInput : List UInt8
  output : Stream → List UInt8 := fun _ => []
  totalBytes : ℕ := 0
  streamKeys : ℕ
  /-- Which pipes the selector has registered. -/
  feeding : Bool
  reading : Stream → Bool := fun _ => true

/-- How a call fails. -/
inductive Raised where
  | notStarted
  | cancelled
  | timeout (output : Stream → List UInt8)
  | outputLimit

/-- `_BoundedProcessResult`. -/
structure Result where
  returncode : ℤ
  output : Stream → List Char

/-- Where a call is. `leaving` and `closing` are the two halves of its `finally`: before and after
the process has left the registry. -/
inductive Phase where
  | entered
  | starting
  | spawned
  | looping (collection : Collection)
  | selecting (collection : Collection)
  | handling (collection : Collection) (events : List Key)
  | collected (collection : Collection)
  | waiting (collection : Collection)
  | leaving (outcome : Except Raised Result)
  | closing (outcome : Except Raised Result)
  | finished (outcome : Except Raised Result)

/-- A call of `_run_bounded_process`. -/
structure Call where
  job : Job
  phase : Phase := .entered
  process : Process := {}
  registered : Bool := false

/-- `_ActiveProcessRegistry`. -/
structure Registry where
  cancelled : Bool := false
  /-- Whether there is a byte in the wake-up pipe. -/
  wakeup : Bool := false
  processes : List ℕ := []

/-- What the outside answers to a write. -/
inductive Written where
  | accepted (count : ℕ)
  | wouldBlock
  | brokenPipe

/-- What a call does next, with the answer from outside. -/
inductive Move where
  | proceed
  | start (succeeds : Bool)
  | clock (expired : Bool)
  | select (ready : List Key)
  | write (answer : Written)
  | read (count : ℕ)

/-- The start of the collecting loop. An empty script is not registered. -/
def Collection.start (input : List UInt8) : Collection where
  pendingInput := input
  streamKeys := if input = [] then 2 else 3
  feeding := !input.isEmpty

/-- The text of the bytes, with a replacement character for what is none. -/
def decodeOutput (bytes : List UInt8) : List Char :=
  let (decoder, text) := ({} : Utf8Decoder).decode bytes
  if decoder.needed = 0 then text else text ++ ['\uFFFD']

namespace Call

/-- The call is told to stop. -/
def isCancelled (call : Call) (registry : Registry) : Bool :=
  call.job.cancelEvent && registry.cancelled

/-- Raises in the collecting loop, which kills the process. -/
def abort (call : Call) (error : Raised) : Call :=
  { call with phase := .leaving (.error error), process := call.process.kill }

/-- A pipe is ready. -/
def isReady (call : Call) (registry : Registry) (collection : Collection) : Key → Bool
  | .output stream =>
    collection.reading stream
      && (!(call.process.unread stream).isEmpty || call.process.closed stream)
  | .stdin => collection.feeding
  | .cancel => call.job.processRegistry && registry.wakeup

/-- What the selector may report. -/
def mayReport (call : Call) (registry : Registry) (collection : Collection)
    (ready : List Key) : Bool :=
  ready.Nodup && ready.all (call.isReady registry collection)
    && (!call.isReady registry collection .cancel || ready.contains .cancel)

/-- Feeds the child. When nothing is pending any more, its input is closed. -/
def writeInput (call : Call) (collection : Collection) (rest : List Key) : Written → Option Call
  | .accepted count =>
    if call.process.stdinOpen ∧ count ≤ processIoChunkBytes
        ∧ count ≤ collection.pendingInput.length then
      let pending := collection.pendingInput.drop count
      let sent := call.process.stdin ++ collection.pendingInput.take count
      some { call with
        process := { call.process with stdin := sent }
        phase := .handling
          { collection with
            pendingInput := pending
            feeding := !pending.isEmpty
            streamKeys := if pending = [] then collection.streamKeys - 1
              else collection.streamKeys } rest }
    else none
  | .wouldBlock => some { call with phase := .handling collection rest }
  | .brokenPipe =>
    if call.process.stdinOpen then none
    else some { call with
      phase := .handling
        { collection with
          pendingInput := []
          feeding := false
          streamKeys := collection.streamKeys - 1 } rest }

/-- Reads from an output of the child. No byte is the end of the output. -/
def readOutput (call : Call) (collection : Collection) (rest : List Key) (stream : Stream)
    (count : ℕ) : Option Call :=
  if 0 < count ∧ count ≤ processIoChunkBytes
      ∧ (call.process.unread stream ≠ [] ∨ call.process.closed stream = true) then
    let chunk := (call.process.unread stream).take count
    let left := (call.process.unread stream).drop count
    let read := { call.process with unread := Function.update call.process.unread stream left }
    if chunk = [] then
      some { call with
        phase := .handling
          { collection with
            reading := Function.update collection.reading stream false
            streamKeys := collection.streamKeys - 1 } rest }
    else if call.job.maxOutputBytes < collection.totalBytes + chunk.length then
      some ({ call with process := read }.abort .outputLimit)
    else
      some { call with
        process := read
        phase := .handling
          { collection with
            totalBytes := collection.totalBytes + chunk.length
            output := Function.update collection.output stream
              (collection.output stream ++ chunk) } rest }
  else none

/-- The next step of a call. -/
def advance (call : Call) (registry : Registry) (worker : ℕ) (move : Move) :
    Option (Registry × Call) :=
  match call.phase, move with
  | .entered, .proceed =>
    if call.isCancelled registry then
      some (registry, { call with phase := .finished (.error .cancelled) })
    else some (registry, { call with phase := .starting })
  | .starting, .start succeeds =>
    if succeeds then
      some (registry,
        { call with phase := .spawned, process := { call.process with started := true } })
    else some (registry, { call with phase := .finished (.error .notStarted) })
  | .spawned, .proceed =>
    let collecting := { call with phase := .looping (.start call.job.input) }
    if call.job.processRegistry then
      -- The lock of the registry: the flag is read and the process added in one step.
      if registry.cancelled then
        some (registry, { call with phase := .leaving (.error .cancelled) })
      else
        some ({ registry with processes := worker :: registry.processes },
          { collecting with registered := true })
    else some (registry, collecting)
  | .looping collection, .clock expired =>
    if collection.streamKeys = 0 then
      some (registry, { call with phase := .collected collection })
    else if call.isCancelled registry then some (registry, call.abort .cancelled)
    else if expired then some (registry, call.abort (.timeout collection.output))
    else some (registry, { call with phase := .selecting collection })
  | .selecting collection, .select ready =>
    if call.mayReport registry collection ready then
      some (registry, { call with phase := .handling collection ready })
    else none
  | .handling collection [], .proceed =>
    some (registry, { call with phase := .looping collection })
  | .handling _ (.cancel :: _), .proceed => some (registry, call.abort .cancelled)
  | .handling collection (.stdin :: rest), .write answer =>
    (call.writeInput collection rest answer).map (registry, ·)
  | .handling collection (.output stream :: rest), .read count =>
    (call.readOutput collection rest stream count).map (registry, ·)
  | .collected collection, .proceed =>
    if call.isCancelled registry then
      some (registry, { call with phase := .leaving (.error .cancelled) })
    else some (registry, { call with phase := .waiting collection })
  | .waiting collection, .proceed =>
    match call.process.returncode with
    -- The deadline has passed and the child has not exited.
    | none =>
      let error := Raised.timeout collection.output
      some (registry, { call with phase := .leaving (.error error) })
    | some returncode =>
      let result : Result := ⟨returncode, fun stream => decodeOutput (collection.output stream)⟩
      some (registry, { call with phase := .leaving (.ok result) })
  | .leaving outcome, .proceed =>
    if call.registered then
      some ({ registry with processes := registry.processes.filter (· ≠ worker) },
        { call with phase := .closing outcome, registered := false })
    else some (registry, { call with phase := .closing outcome })
  | .closing outcome, .proceed =>
    some (registry, { call with phase := .finished outcome, process := call.process.kill })
  | _, _ => none

end Call

/-! ### The registry with its calls -/

/-- Where a call of `cancel` is. -/
inductive Cancelling where
  | idle
  | flagged
  | woken
  | killing (processes : List ℕ)
  | returned

/-- A registry with its calls, and the callers of `cancel`. -/
structure Machine where
  registry : Registry := {}
  calls : ℕ → Call
  cancels : ℕ → Cancelling := fun _ => .idle

/-- What the processes of a child do. -/
inductive Doing where
  | writes (stream : Stream) (bytes : List UInt8)
  | closes (stream : Stream)
  | closesInput
  | exits (returncode : ℤ)

/-- What happens next: a step of a call or of a cancellation, or something that a child does. -/
inductive Event where
  | move (worker : ℕ) (move : Move)
  | cancel (caller : ℕ)
  | child (worker : ℕ) (doing : Doing)

/-- A child does something. -/
def Process.perform (process : Process) : Doing → Option Process
  | .writes stream bytes =>
    if process.closed stream then none
    else some { process with
      written := Function.update process.written stream (process.written stream ++ bytes)
      unread := Function.update process.unread stream (process.unread stream ++ bytes) }
  | .closes stream =>
    some { process with closed := Function.update process.closed stream true }
  | .closesInput => some { process with stdinOpen := false }
  | .exits returncode =>
    if process.returncode.isSome then none
    else some { process with returncode := some returncode }

namespace Machine

/-- No call has begun. -/
def start (jobs : ℕ → Job) : Machine where
  calls worker := { job := jobs worker }

/-- A call becomes another. -/
def setCall (machine : Machine) (worker : ℕ) (call : Call) : Machine :=
  { machine with calls := Function.update machine.calls worker call }

/-- The process of a call becomes another. -/
def setProcess (machine : Machine) (worker : ℕ) (process : Process) : Machine :=
  machine.setCall worker { machine.calls worker with process := process }

/-- The next step of a call of `cancel`. -/
def cancelStep (machine : Machine) (caller : ℕ) : Option Machine :=
  let set (cancelling : Cancelling) : ℕ → Cancelling :=
    Function.update machine.cancels caller cancelling
  match machine.cancels caller with
  | .idle =>
    some { machine with
      registry := { machine.registry with cancelled := true }, cancels := set .flagged }
  | .flagged =>
    some { machine with
      registry := { machine.registry with wakeup := true }, cancels := set .woken }
  | .woken => some { machine with cancels := set (.killing machine.registry.processes) }
  | .killing [] => some { machine with cancels := set .returned }
  | .killing (worker :: rest) =>
    some { machine.setProcess worker (machine.calls worker).process.kill with
      cancels := set (.killing rest) }
  | .returned => none

/-- The next step of the machine. -/
def step (machine : Machine) : Event → Option Machine
  | .move worker move =>
    ((machine.calls worker).advance machine.registry worker move).map fun (registry, call) =>
      { machine.setCall worker call with registry := registry }
  | .cancel caller => machine.cancelStep caller
  | .child worker doing =>
    let process := (machine.calls worker).process
    if process.started then (process.perform doing).map (machine.setProcess worker) else none

end Machine

/-- A run of the calls on one registry. -/
abbrev Run (jobs : ℕ → Job) : List Event → Machine → Prop :=
  RunWhere Machine.step (fun _ _ => True) (Machine.start jobs)

end Mocop.BoundedProcess
