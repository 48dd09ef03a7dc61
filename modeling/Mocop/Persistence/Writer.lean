import Mocop.Lib.Runs
import Mocop.Persistence.Batches

/-!
# `Mocop.Persistence.Writer`: the write queue and its writer thread

`SqliteTelemetryPersistence` puts the writes of its producers into a bounded queue, and one
writer thread takes them out in batches, commits each batch and prunes now and then. `flush`
puts a barrier into the queue and waits for it; `close` stops the admission and asks the writer
to stop once the queue is empty.

The steps are those of the locks. `_enqueue`, the insertion of a barrier, `close` and the
drain after a crash each run under the admission lock from beginning to end, so each of them is
one step. Every `get` of the writer is a step of its own, and so is the look at the stop flag
after a `get` that found nothing: producers and `close` run in between. Only calls into the
database can crash the writer, in `_connect`, in a batch or in a prune.

The `Ledger` records what became of every write. Nothing in the program reads it.
-/

set_option autoImplicit false

namespace Mocop.History

/-- `_QueueItem`: a write, with its number in the order of submission, or the barrier of a
`flush` call. -/
inductive QueueItem where
  | write (ticket : ℕ) (item : Write)
  | flush (call : ℕ)
  deriving DecidableEq

/-- `isinstance(item, _Flush)`. -/
def QueueItem.isFlush : QueueItem → Bool
  | .write .. => false
  | .flush _ => true

/-- The writes among queue items, in order. -/
def writesOf (items : List QueueItem) : List (ℕ × Write) :=
  items.filterMap fun item => match item with
    | .write ticket item => some (ticket, item)
    | .flush _ => none

/-- The numbers of the writes among queue items. -/
def ticketsOf (items : List QueueItem) : List ℕ := (writesOf items).map Prod.fst

def queueCapacity : ℕ := 4096

def writeBatchSize : ℕ := 128

/-- `_Flush`: a write barrier. -/
structure Barrier where
  completed : Bool := false
  dropped : ℕ := 0
  failed : Bool := false
  deriving DecidableEq

/-- Where a `flush` call stands. -/
inductive FlushStage where
  /-- It tries to put its barrier into the queue. -/
  | admission
  /-- Its barrier is queued. -/
  | waiting
  /-- It returned False without a completed barrier: refused, or out of time. -/
  | gaveUp
  /-- Its barrier was completed, and it returned. -/
  | returned (result : Bool)
  deriving DecidableEq

/-- A call of `flush`. -/
structure FlushCall where
  droppedBefore : ℕ
  barrier : Barrier := {}
  stage : FlushStage := .admission
  deriving DecidableEq

/-- Where the writer thread stands in `_write_loop`. -/
inductive Phase where
  | connecting
  /-- At the top of the loop. -/
  | reading
  /-- `get` raised `Empty`, and the stop flag has not been looked at. -/
  | sawEmpty
  /-- Between the stop flag and the prune of an idle round. -/
  | idle
  /-- A batch is read, one `get_nowait` after the other. -/
  | collecting (items : List QueueItem)
  | committing (items : List QueueItem)
  /-- Between the commit and the prune of a round. -/
  | committed (items : List QueueItem)
  | finishing (items : List QueueItem)
  /-- In the `except` clause, before the admission lock is taken. -/
  | crashed (items : List QueueItem) (uncommitted : ℕ) (error : String)
  /-- The thread has ended. -/
  | exited

/-- `self._writer.is_alive()`. -/
def Phase.isAlive : Phase → Bool
  | .exited => false
  | _ => true

/-- The items that the writer has taken out of the queue and not finished. -/
def Phase.items : Phase → List QueueItem
  | .collecting items | .committing items | .committed items | .finishing items
  | .crashed items _ _ => items
  | _ => []

/-- What became of the writes: how many were submitted, what was queued and in which order,
which writes were committed with all their points, and which were counted in
`_dropped_writes`. -/
structure Ledger where
  submitted : ℕ := 0
  accepted : List QueueItem := []
  committed : List ℕ := []
  counted : List ℕ := []

/-- The state of the persistence object and of its database. -/
structure State where
  backend : Backend
  db : Database
  queue : List QueueItem := []
  closed : Bool := false
  writerFailed : Bool := false
  stopRequested : Bool := false
  flushedDrops : ℕ := 0
  flushes : Dict ℕ FlushCall := ∅
  nextFlush : ℕ := 0
  phase : Phase := .connecting
  ledger : Ledger := {}

/-- What the threads and the database do. -/
inductive Event where
  /-- `_enqueue`. -/
  | enqueue (item : Write)
  /-- A call of `flush` reads the acknowledged losses. -/
  | flushBegin
  /-- It tries to queue its barrier. -/
  | flushPut (call : ℕ)
  /-- It runs out of time. -/
  | flushTimeout (call : ℕ)
  /-- It sees its barrier completed and returns. -/
  | flushReturn (call : ℕ)
  /-- `close`, up to the wait for the writer. -/
  | close
  /-- That wait runs out of time. -/
  | closeTimeout
  /-- `_connect`, and whether it succeeds. -/
  | connect (succeeds : Bool)
  /-- `get`. -/
  | read
  /-- `get_nowait`, for the next item of a batch. -/
  | readMore
  /-- The look at the stop flag. -/
  | checkStop
  /-- `_commit_batch`, and what SQLite and the clock do during it. -/
  | commit (trace : BatchTrace)
  /-- `_prune_batch` in the loop. Without a clock it fails. -/
  | prune (clock : Option PruneClock)
  /-- No prune is due. -/
  | skipPrune
  /-- `_finish_items`. -/
  | finish
  /-- A batch or a prune raises something else than an error of SQLite. A batch may have
  pruned before it does. -/
  | crash (pruned : Option PruneClock)
  /-- The `except` clause. -/
  | drain
  deriving DecidableEq

namespace State

/-- A new object on a database file. -/
def create (start : Startup) (db : Database) : State :=
  { backend := start.backend, db := db.start start }

/-- A write that is not queued is counted. -/
def reject (state : State) (ticket : ℕ) (error : Option String) : State :=
  { state with
    backend := { state.backend with
      droppedWrites := state.backend.droppedWrites + 1
      lastError := error.or state.backend.lastError }
    ledger := { state.ledger with
      submitted := ticket + 1
      counted := state.ledger.counted ++ [ticket] } }

/-- `put_nowait`, when the queue is not full. -/
def put (state : State) (item : QueueItem) : State :=
  { state with
    queue := state.queue ++ [item]
    ledger := { state.ledger with accepted := state.ledger.accepted ++ [item] } }

/-- `_enqueue`. -/
def enqueue (state : State) (item : Write) : State :=
  let ticket := state.ledger.submitted
  if state.closed then state.reject ticket (some "history persistence is closed")
  else if state.writerFailed || !state.phase.isAlive then state.reject ticket none
  else if state.queue.length < queueCapacity then
    let queued := state.put (.write ticket item)
    { queued with ledger := { queued.ledger with submitted := ticket + 1 } }
  else state.reject ticket (some "history write queue is full")

/-- The first lines of `flush`. -/
def flushBegin (state : State) : State :=
  { state with
    flushes := state.flushes.set state.nextFlush { droppedBefore := state.flushedDrops }
    nextFlush := state.nextFlush + 1 }

/-- A call of `flush` moves on. -/
def setStage (state : State) (call : ℕ) (flush : FlushCall) (stage : FlushStage) : State :=
  { state with flushes := state.flushes.set call { flush with stage } }

/-- One round of the admission loop of `flush`. A full queue is tried again. -/
def flushPut (state : State) (call : ℕ) (flush : FlushCall) : State :=
  if state.closed || state.writerFailed then state.setStage call flush .gaveUp
  else if state.queue.length < queueCapacity then
    (state.put (.flush call)).setStage call flush .waiting
  else state

/-- The last lines of `flush`. -/
def flushReturn (state : State) (call : ℕ) (flush : FlushCall) : State :=
  { state.setStage call flush (.returned
      (!flush.barrier.failed && flush.barrier.dropped == flush.droppedBefore)) with
    flushedDrops := max state.flushedDrops flush.barrier.dropped }

/-- `_finish_items`: the barriers among the items are completed. -/
def finishItems (state : State) (items : List QueueItem) (failed : Bool) : State :=
  { state with
    flushes := items.foldl (fun flushes item => match item with
      | .write .. => flushes
      | .flush call => match flushes.get? call with
        | some flush => flushes.set call { flush with
            barrier := { completed := true, dropped := state.backend.droppedWrites, failed } }
        | none => flushes) state.flushes }

end State

/-- The expiry boundary of the transaction that committed a batch. Without one, no
transaction did. -/
def committedBoundary (prepare : Prepare) (backend : Backend) (trace : BatchTrace)
    (db : Database) (writes : List Write) : Option (Option String) :=
  match transact prepare backend trace.first trace.firstNow db writes with
  | .ok _ => some (db.boundary trace.firstNow writes).1
  | .error .failsFull =>
    match trace.prune with
    | some clock =>
      let db := db.prune backend clock
      match transact prepare backend trace.second trace.secondNow db writes with
      | .ok _ => some (db.boundary trace.secondNow writes).1
      | .error _ => none
    | none => none
  | .error _ => none

/-- The ledger after a batch: the writes of a committed one that kept all their points are
committed, and the others are counted. -/
def Ledger.settle (ledger : Ledger) (batch : List (ℕ × Write))
    (boundary : Option (Option String)) : Ledger :=
  match boundary with
  | some cutoff => { ledger with
      committed := ledger.committed
        ++ (batch.filter fun write => !(write.2.retain cutoff).2).map Prod.fst
      counted := ledger.counted
        ++ (batch.filter fun write => (write.2.retain cutoff).2).map Prod.fst }
  | none => { ledger with counted := ledger.counted ++ batch.map Prod.fst }

namespace State

/-- `_commit_batch` on a batch with writes. -/
def commit (state : State) (items : List QueueItem) (trace : BatchTrace) : State :=
  let batch := writesOf items
  if batch = [] then { state with phase := .committed items }
  else
    let writes := batch.map Prod.snd
    let result := commitBatch prepareIncidentWrite state.backend trace state.db writes
    { state with
      backend := result.2.1
      db := result.2.2
      phase := .committed items
      ledger := state.ledger.settle batch
        (committedBoundary prepareIncidentWrite state.backend trace state.db writes) }

/-- `_prune_batch`, and where the loop goes on. -/
def prune (state : State) (clock : Option PruneClock) (next : Phase) : State :=
  match clock with
  | some clock => { state with db := state.db.prune state.backend clock, phase := next }
  | none => { state with
      backend := { state.backend with lastError := some "history database prune failed" }
      phase := next }

/-- The `except` clause of `_write_loop`: what is queued or uncommitted is counted, and every
barrier fails. -/
def drain (state : State) (items : List QueueItem) (uncommitted : ℕ) (error : String) : State :=
  let pending := state.queue
  let counted : State := { state with
    writerFailed := true
    queue := []
    backend := { state.backend with
      droppedWrites := state.backend.droppedWrites
        + (uncommitted + (pending.countP fun item => !item.isFlush))
      lastError := some error }
    ledger := { state.ledger with
      counted := state.ledger.counted ++ ((ticketsOf items).take uncommitted
        ++ ticketsOf pending) }
    phase := .exited }
  counted.finishItems (items ++ pending) true

end State

/-- One step of a producer, of a `flush` call or of `close`. -/
def callerStep (state : State) : Event → Option State
  | .enqueue item => some (state.enqueue item)
  | .flushBegin => some state.flushBegin
  | .flushPut call =>
    match state.flushes.get? call with
    | some flush =>
      if flush.stage = .admission then some (state.flushPut call flush) else none
    | none => none
  | .flushTimeout call =>
    match state.flushes.get? call with
    | some flush =>
      if flush.stage = .admission ∨ (flush.stage = .waiting ∧ flush.barrier.completed = false)
      then some (state.setStage call flush .gaveUp)
      else none
    | none => none
  | .flushReturn call =>
    match state.flushes.get? call with
    | some flush =>
      if flush.stage = .waiting ∧ flush.barrier.completed = true then
        some (state.flushReturn call flush)
      else none
    | none => none
  | .close => some { state with closed := true, stopRequested := true }
  | .closeTimeout =>
    if state.closed && state.phase.isAlive then
      some { state with backend := { state.backend with
        lastError := some "history writer did not stop cleanly" } }
    else none
  | _ => none

/-- One step of the writer thread, in the phases where it takes it. -/
def writerStep (state : State) : Event → Option State
  | .connect succeeds =>
    match state.phase with
    | .connecting => some { state with
        phase := if succeeds then .reading
          else .crashed [] 0 "history writer could not open the database" }
    | _ => none
  | .read =>
    match state.phase, state.queue with
    | .reading, [] => some { state with phase := .sawEmpty }
    | .reading, first :: rest => some { state with
        queue := rest
        phase := if first.isFlush then .committing [first] else .collecting [first] }
    | _, _ => none
  | .readMore =>
    match state.phase, state.queue with
    | .collecting items, [] => some { state with phase := .committing items }
    | .collecting items, item :: rest =>
      if items.length < writeBatchSize then some { state with
        queue := rest
        phase := if item.isFlush then .committing (items ++ [item])
          else .collecting (items ++ [item]) }
      else some { state with phase := .committing items }
    | _, _ => none
  | .checkStop =>
    match state.phase with
    | .sawEmpty => some { state with phase := if state.stopRequested then .exited else .idle }
    | _ => none
  | .commit trace =>
    match state.phase with
    | .committing items => some (state.commit items trace)
    | _ => none
  | .prune clock =>
    match state.phase with
    | .idle => some (state.prune clock .reading)
    | .committed items => some (state.prune clock (.finishing items))
    | _ => none
  | .skipPrune =>
    match state.phase with
    | .idle => some { state with phase := .reading }
    | .committed items => some { state with phase := .finishing items }
    | _ => none
  | .finish =>
    match state.phase with
    | .finishing items => some { state.finishItems items false with phase := .reading }
    | _ => none
  | .crash pruned =>
    let error := "history writer stopped unexpectedly"
    match state.phase with
    | .committing items => some { state with
        db := match pruned with
          | some clock => state.db.prune state.backend clock
          | none => state.db
        phase := .crashed items (writesOf items).length error }
    | .idle => some { state with phase := .crashed [] 0 error }
    | .committed items => some { state with phase := .crashed items 0 error }
    | _ => none
  | .drain =>
    match state.phase with
    | .crashed items uncommitted error => some (state.drain items uncommitted error)
    | _ => none
  | _ => none

/-- One step of the history. -/
def step (state : State) (event : Event) : Option State :=
  match event with
  | .enqueue _ | .flushBegin | .flushPut _ | .flushTimeout _ | .flushReturn _ | .close
  | .closeTimeout => callerStep state event
  | _ => writerStep state event

end Mocop.History
