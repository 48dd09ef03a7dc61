import Mocop.Persistence.Writer

/-!
# `Mocop.Persistence.Accounting`: every write is in one place

A submitted write is pending, committed with all its points, or counted in `_dropped_writes`,
and it is so once (`State.Accounted`). `droppedWrites_commitBatch` says what a batch adds to the
counter: the writes that lost points when it was committed, and all of them when it was not.

`State.Sequenced` follows the order of the queue. What the writer holds and what is queued is
the end of the accepted items, so the writer takes them in the order of their acceptance.
-/

set_option autoImplicit false

namespace Mocop.History

/-! ### Queue items -/

@[simp] theorem ticketsOf_nil : ticketsOf [] = [] := rfl

@[simp] theorem ticketsOf_append (items more : List QueueItem) :
    ticketsOf (items ++ more) = ticketsOf items ++ ticketsOf more := by
  simp [ticketsOf, writesOf]

@[simp] theorem ticketsOf_write (ticket : ℕ) (item : Write) (items : List QueueItem) :
    ticketsOf (.write ticket item :: items) = ticket :: ticketsOf items := rfl

@[simp] theorem ticketsOf_flush (call : ℕ) (items : List QueueItem) :
    ticketsOf (.flush call :: items) = ticketsOf items := rfl

/-- The writes among queue items are those that are no barriers. -/
theorem length_ticketsOf (items : List QueueItem) :
    (ticketsOf items).length = items.countP fun item => !item.isFlush := by
  induction items with
  | nil => rfl
  | cons item items ih =>
    cases item with
    | write ticket item => simp [QueueItem.isFlush, ih]
    | flush call => simp [QueueItem.isFlush, ih]

/-! ### What a batch counts -/

section
variable {prepare : Prepare} {backend : Backend} {db : Database} {writes : List Write}

theorem dropped_foldl_writeItem (busyPct : Option ℚ) (cutoff : Option String)
    (transaction : Transaction) :
    (writes.foldl (writeItem prepare busyPct cutoff) transaction).dropped
      = transaction.dropped + writes.countP fun item => (item.retain cutoff).2 := by
  induction writes generalizing transaction with
  | nil => rfl
  | cons item writes ih =>
    rw [List.foldl_cons, ih, List.countP_cons]
    show (if (item.retain cutoff).2 then transaction.dropped + 1 else transaction.dropped) + _ = _
    split <;> omega

/-- A committed transaction counts the writes that lost points. -/
theorem dropped_transact {attempt : Attempt} {now : String} {result : Transaction}
    (h : transact prepare backend attempt now db writes = .ok result) :
    result.dropped
      = writes.countP fun item => (item.retain (db.boundary now writes).1).2 := by
  unfold transact at h
  split at h
  · rename_i transaction hattempt
    cases h
    unfold attemptBatch at hattempt
    split at hattempt
    · cases hattempt
    · split at hattempt
      · cases hattempt
      · cases hattempt
        rw [dropped_foldl_writeItem]
        exact Nat.zero_add _
  · cases h
  · cases h

/-- What a batch adds to the counter, by the transaction that committed it. -/
theorem droppedWrites_commitBatch (trace : BatchTrace) :
    (commitBatch prepare backend trace db writes).2.1.droppedWrites
      = backend.droppedWrites + match committedBoundary prepare backend trace db writes with
        | some cutoff => writes.countP fun item => (item.retain cutoff).2
        | none => writes.length := by
  unfold commitBatch committedBoundary
  cases hfirst : transact prepare backend trace.first trace.firstNow db writes with
  | ok result => exact congrArg (backend.droppedWrites + ·) (dropped_transact hfirst)
  | error failure =>
    cases failure with
    | succeeds | failsOther => rfl
    | failsFull =>
      cases trace.prune with
      | none => rfl
      | some clock =>
        dsimp only
        cases hsecond : transact prepare backend trace.second trace.secondNow
            (db.prune backend clock) writes with
        | ok result => exact congrArg (backend.droppedWrites + ·) (dropped_transact hsecond)
        | error failure => rfl

end

/-- The entries of a list with a property and the others are all of them. -/
theorem count_filter_add (batch : List (ℕ × Write)) (p : ℕ × Write → Bool) (ticket : ℕ) :
    ((batch.filter fun write => !p write).map Prod.fst).count ticket
        + ((batch.filter p).map Prod.fst).count ticket
      = (batch.map Prod.fst).count ticket := by
  induction batch with
  | nil => rfl
  | cons write batch ih =>
    simp only [List.filter_cons, List.map_cons, List.count_cons]
    cases hp : p write with
    | false => simp only [Bool.not_false, if_true, Bool.false_eq_true, if_false, List.map_cons,
        List.count_cons]; omega
    | true => simp only [Bool.not_true, if_true, Bool.false_eq_true, if_false, List.map_cons,
        List.count_cons]; omega

section
variable (ledger : Ledger) (batch : List (ℕ × Write)) (boundary : Option (Option String))

/-- A settled batch is committed or counted, each write once. -/
theorem Ledger.count_settle (ticket : ℕ) :
    (ledger.settle batch boundary).committed.count ticket
        + (ledger.settle batch boundary).counted.count ticket
      = ledger.committed.count ticket + ledger.counted.count ticket
        + (batch.map Prod.fst).count ticket := by
  cases boundary with
  | none =>
    simp only [Ledger.settle, List.count_append]
    omega
  | some cutoff =>
    have hparts := count_filter_add batch
      (fun write => (write.2.retain cutoff).2) ticket
    simp only [Ledger.settle, List.count_append]
    omega

/-- The counted writes of a settled batch. -/
theorem Ledger.length_counted_settle :
    (ledger.settle batch boundary).counted.length
      = ledger.counted.length + match boundary with
        | some cutoff => (batch.map Prod.snd).countP fun item => (item.retain cutoff).2
        | none => (batch.map Prod.snd).length := by
  cases boundary with
  | none => simp [Ledger.settle]
  | some cutoff =>
    dsimp only
    rw [List.countP_map, List.countP_eq_length_filter]
    simp [Ledger.settle, Function.comp_def]

end

/-! ### Where the writes are -/

/-- The writes in the hands of the writer whose batch is not settled. -/
def Phase.unsettled : Phase → List ℕ
  | .collecting items | .committing items => ticketsOf items
  | .crashed items uncommitted _ => (ticketsOf items).take uncommitted
  | _ => []

/-- The writes that are neither committed nor counted: in the hands of the writer, or queued. -/
def State.pending (state : State) : List ℕ := state.phase.unsettled ++ ticketsOf state.queue

/-- What a phase holds: a barrier ends its batch, and a crash leaves at most its batch
uncommitted. -/
def Phase.WellFormed : Phase → Prop
  | .collecting items => ∀ call, .flush call ∉ items
  | .committing items | .committed items | .finishing items =>
    ∀ call, .flush call ∈ items → ∃ before, items = before ++ [.flush call]
  | .crashed items uncommitted _ => uncommitted ≤ (ticketsOf items).length
  | _ => True

/-- The items that left the queue and are not finished, and those that are queued. -/
def State.held (state : State) : List QueueItem := state.phase.items ++ state.queue

/-! ### What one step can do -/

/-- A step that hands items on between the queue and the writer, or touches none. -/
structure Moves (state : State) (event : Event) (next : State) : Prop where
  held : next.held = state.held
  pending : next.pending = state.pending
  phase : state.phase.WellFormed → next.phase.WellFormed
  dropped : next.backend.droppedWrites = state.backend.droppedWrites
  ledger : next.ledger = state.ledger
  flushes : next.flushes = state.flushes
  nextFlush : next.nextFlush = state.nextFlush
  flushedDrops : next.flushedDrops = state.flushedDrops
  writerFailed : next.writerFailed = state.writerFailed
  /-- Only the look at the stop flag ends the thread. -/
  exits : next.phase = .exited → next.queue = state.queue
    ∧ (state.phase = .exited ∨ (event = .checkStop ∧ state.stopRequested = true))

/-- What one step can do. -/
inductive Change (state : State) : Event → State → Prop where
  | moves {event : Event} {next : State} (h : Moves state event next) : Change state event next
  | enqueue (item : Write) : Change state (.enqueue item) (state.enqueue item)
  | flushBegin : Change state .flushBegin state.flushBegin
  | flushPut {call : ℕ} {flush : FlushCall} (hcall : state.flushes.get? call = some flush)
      (hstage : flush.stage = .admission) :
      Change state (.flushPut call) (state.flushPut call flush)
  | flushTimeout {call : ℕ} {flush : FlushCall} (hcall : state.flushes.get? call = some flush)
      (hstage : flush.stage = .admission ∨ flush.stage = .waiting) :
      Change state (.flushTimeout call) (state.setStage call flush .gaveUp)
  | flushReturn {call : ℕ} {flush : FlushCall} (hcall : state.flushes.get? call = some flush)
      (hstage : flush.stage = .waiting) (hcompleted : flush.barrier.completed = true) :
      Change state (.flushReturn call) (state.flushReturn call flush)
  | commit {items : List QueueItem} (trace : BatchTrace) (hphase : state.phase = .committing items) :
      Change state (.commit trace) (state.commit items trace)
  | finish {items : List QueueItem} (hphase : state.phase = .finishing items) :
      Change state .finish { state.finishItems items false with phase := .reading }
  | drain {items : List QueueItem} {uncommitted : ℕ} {error : String}
      (hphase : state.phase = .crashed items uncommitted error) :
      Change state .drain (state.drain items uncommitted error)

variable {event : Event} {state next : State} {items : List QueueItem}

/-- A step that changes the phase alone, and what no proof looks at. -/
theorem Moves.of_phase {phase : Phase} (hphase : state.phase = phase)
    (hnext : next = { state with backend := next.backend, db := next.db, phase := next.phase })
    (hdropped : next.backend.droppedWrites = state.backend.droppedWrites)
    (hitems : next.phase.items = phase.items) (hunsettled : next.phase.unsettled = phase.unsettled)
    (hformed : phase.WellFormed → next.phase.WellFormed)
    (hexits : next.phase = .exited → event = .checkStop ∧ state.stopRequested = true) :
    Moves state event next := by
  subst hphase
  rw [hnext]
  exact
    { held := congrArg (· ++ state.queue) hitems
      pending := congrArg (· ++ ticketsOf state.queue) hunsettled
      phase := hformed
      dropped := hdropped
      ledger := rfl
      flushes := rfl
      nextFlush := rfl
      flushedDrops := rfl
      writerFailed := rfl
      exits := fun h => ⟨rfl, Or.inr (hexits h)⟩ }

/-- The last item that a batch reads may be a barrier. -/
theorem wellFormed_committing (h : ∀ call, .flush call ∉ items) (item : QueueItem) (call : ℕ)
    (hmem : .flush call ∈ items ++ [item]) :
    ∃ before, items ++ [item] = before ++ [.flush call] := by
  rcases List.mem_append.mp hmem with hin | hlast
  · exact absurd hin (h call)
  · rw [List.mem_singleton.mp hlast]
    exact ⟨items, rfl⟩

/-- A batch that holds no barrier is read further. -/
theorem wellFormed_collecting (h : ∀ call, .flush call ∉ items) {item : QueueItem}
    (hwrite : item.isFlush = false) (call : ℕ) :
    .flush call ∉ items ++ [item] := by
  intro hmem
  rcases List.mem_append.mp hmem with hin | hlast
  · exact h call hin
  · rw [← List.mem_singleton.mp hlast] at hwrite
    cases hwrite

/-- The writer reads one item into its batch. -/
theorem moves_pop {state : State} {event : Event} {items rest : List QueueItem} {item : QueueItem}
    (hitems : state.phase.items = items) (hunsettled : state.phase.unsettled = ticketsOf items)
    (hformed : state.phase.WellFormed → ∀ call, .flush call ∉ items)
    (hqueue : state.queue = item :: rest) :
    Moves state event { state with
      queue := rest
      phase := if item.isFlush then .committing (items ++ [item])
        else .collecting (items ++ [item]) } where
  held := by
    unfold State.held
    rw [hitems, hqueue]
    cases item with
    | write ticket item => exact List.append_assoc items [_] rest
    | flush call => exact List.append_assoc items [_] rest
  pending := by
    unfold State.pending
    rw [hunsettled, hqueue]
    cases item with
    | write ticket item =>
      show ticketsOf (items ++ [_]) ++ ticketsOf rest = _
      simp
    | flush call =>
      show ticketsOf (items ++ [_]) ++ ticketsOf rest = _
      simp
  phase := by
    intro h
    cases hwrite : item.isFlush with
    | true => exact wellFormed_committing (hformed h) item
    | false => exact wellFormed_collecting (hformed h) hwrite
  dropped := rfl
  ledger := rfl
  flushes := rfl
  nextFlush := rfl
  flushedDrops := rfl
  writerFailed := rfl
  exits := by
    intro h
    cases hwrite : item.isFlush <;> simp [hwrite] at h

/-- What a caller can do. -/
theorem callerStep_change (h : callerStep state event = some next) : Change state event next := by
  cases event with
  | enqueue item =>
    cases h
    exact .enqueue item
  | flushBegin =>
    cases h
    exact .flushBegin
  | flushPut call =>
    simp only [callerStep] at h
    cases hcall : state.flushes.get? call with
    | none => simp [hcall] at h
    | some flush =>
      simp only [hcall] at h
      split at h
      · rename_i hstage
        cases h
        exact .flushPut hcall hstage
      · cases h
  | flushTimeout call =>
    simp only [callerStep] at h
    cases hcall : state.flushes.get? call with
    | none => simp [hcall] at h
    | some flush =>
      simp only [hcall] at h
      split at h
      · rename_i hstage
        cases h
        exact .flushTimeout hcall (hstage.imp id And.left)
      · cases h
  | flushReturn call =>
    simp only [callerStep] at h
    cases hcall : state.flushes.get? call with
    | none => simp [hcall] at h
    | some flush =>
      simp only [hcall] at h
      split at h
      · rename_i hstage
        cases h
        exact .flushReturn hcall hstage.1 hstage.2
      · cases h
  | close =>
    cases h
    exact .moves ⟨rfl, rfl, id, rfl, rfl, rfl, rfl, rfl, rfl, fun h => ⟨rfl, .inl h⟩⟩
  | closeTimeout =>
    simp only [callerStep] at h
    split at h
    · cases h
      exact .moves ⟨rfl, rfl, id, rfl, rfl, rfl, rfl, rfl, rfl, fun h => ⟨rfl, .inl h⟩⟩
    · cases h
  | _ => cases h

/-- What the writer thread can do. -/
theorem writerStep_change (h : writerStep state event = some next) : Change state event next := by
  cases event with
  | connect succeeds =>
    simp only [writerStep] at h
    cases hphase : state.phase <;> simp only [hphase, reduceCtorEq] at h
    cases h
    cases succeeds with
    | true => exact .moves (.of_phase hphase rfl rfl rfl rfl id nofun)
    | false => exact .moves (.of_phase hphase rfl rfl rfl rfl (fun _ => Nat.zero_le _) nofun)
  | read =>
    simp only [writerStep] at h
    cases hphase : state.phase <;> simp only [hphase, reduceCtorEq] at h
    cases hqueue : state.queue with
    | nil =>
      simp only [hqueue] at h
      cases h
      refine .moves (.of_phase hphase ?_ rfl rfl rfl id nofun)
      rw [← hqueue]
    | cons item rest =>
      simp only [hqueue] at h
      cases h
      exact .moves (@moves_pop _ _ [] _ _ (by rw [hphase]; rfl) (by rw [hphase]; rfl)
        (fun _ _ => List.not_mem_nil) hqueue)
  | readMore =>
    simp only [writerStep] at h
    cases hphase : state.phase <;> simp only [hphase, reduceCtorEq] at h
    rename_i items
    have hends : (Phase.collecting items).WellFormed → (Phase.committing items).WellFormed :=
      fun hnone call hmem => absurd hmem (hnone call)
    cases hqueue : state.queue with
    | nil =>
      simp only [hqueue] at h
      cases h
      refine .moves (.of_phase hphase ?_ rfl rfl rfl hends nofun)
      rw [← hqueue]
    | cons item rest =>
      simp only [hqueue] at h
      split at h
      · cases h
        exact .moves (@moves_pop _ _ items _ _ (by rw [hphase]; rfl) (by rw [hphase]; rfl)
          (fun hformed => by rw [hphase] at hformed; exact hformed) hqueue)
      · cases h
        refine .moves (.of_phase hphase ?_ rfl rfl rfl hends nofun)
        rw [← hqueue]
  | checkStop =>
    simp only [writerStep] at h
    cases hphase : state.phase <;> simp only [hphase, reduceCtorEq] at h
    cases h
    cases hstop : state.stopRequested with
    | true =>
      exact .moves (.of_phase hphase (by simp [hstop]) rfl rfl rfl id
        fun _ => ⟨rfl, hstop⟩)
    | false => exact .moves (.of_phase hphase (by simp [hstop]) rfl rfl rfl id nofun)
  | commit trace =>
    simp only [writerStep] at h
    cases hphase : state.phase <;> simp only [hphase, reduceCtorEq] at h
    cases h
    exact .commit trace hphase
  | prune clock =>
    simp only [writerStep] at h
    cases hphase : state.phase <;> simp only [hphase, reduceCtorEq] at h
    all_goals
      cases h
      cases clock with
      | none => exact .moves (.of_phase hphase rfl rfl rfl rfl id nofun)
      | some clock => exact .moves (.of_phase hphase rfl rfl rfl rfl id nofun)
  | skipPrune =>
    simp only [writerStep] at h
    cases hphase : state.phase <;> simp only [hphase, reduceCtorEq] at h
    all_goals
      cases h
      exact .moves (.of_phase hphase rfl rfl rfl rfl id nofun)
  | finish =>
    simp only [writerStep] at h
    cases hphase : state.phase <;> simp only [hphase, reduceCtorEq] at h
    cases h
    exact .finish hphase
  | crash pruned =>
    simp only [writerStep] at h
    cases hphase : state.phase <;> simp only [hphase, reduceCtorEq] at h
    · cases h
      exact .moves (.of_phase hphase rfl rfl rfl rfl (fun _ => Nat.zero_le _) nofun)
    · cases h
      rename_i items
      have hlength : (ticketsOf items).length = (writesOf items).length := List.length_map _
      refine .moves (.of_phase hphase rfl rfl rfl ?_ (fun _ => hlength.ge) nofun)
      show (ticketsOf items).take (writesOf items).length = ticketsOf items
      rw [← hlength, List.take_length]
    · cases h
      exact .moves (.of_phase hphase rfl rfl rfl rfl (fun _ => Nat.zero_le _) nofun)
  | drain =>
    simp only [writerStep] at h
    cases hphase : state.phase <;> simp only [hphase, reduceCtorEq] at h
    cases h
    exact .drain hphase
  | _ => cases h

/-- What one step can do. -/
theorem step_change (h : step state event = some next) :
    Change state event next := by
  cases event with
  | enqueue | flushBegin | flushPut | flushTimeout | flushReturn | close | closeTimeout =>
    exact callerStep_change h
  | connect | read | readMore | checkStop | commit | prune | skipPrune | finish | crash | drain =>
    exact writerStep_change h

/-- Every submitted write is pending, committed or counted, and it is so once. The counter is
the number of the counted ones. -/
structure State.Accounted (state : State) : Prop where
  phase : state.phase.WellFormed
  once : ∀ ticket, state.pending.count ticket + (state.ledger.committed.count ticket
    + state.ledger.counted.count ticket) = if ticket < state.ledger.submitted then 1 else 0
  counter : state.backend.droppedWrites = state.ledger.counted.length

namespace State.Accounted

theorem create (start : Startup) (db : Database) : (State.create start db).Accounted where
  phase := trivial
  once := fun _ => rfl
  counter := rfl

/-- A write that is not queued is counted. -/
theorem reject (h : state.Accounted) (error : Option String) :
    (state.reject state.ledger.submitted error).Accounted where
  phase := h.phase
  once := by
    intro ticket
    have honce := h.once ticket
    show state.pending.count ticket + (state.ledger.committed.count ticket
      + (state.ledger.counted ++ [state.ledger.submitted]).count ticket)
      = if ticket < state.ledger.submitted + 1 then 1 else 0
    rw [List.count_append, List.count_singleton]
    by_cases heq : state.ledger.submitted = ticket
    · simp only [heq, beq_self_eq_true, if_true] at honce ⊢
      rw [if_neg (by omega)] at honce
      rw [if_pos (by omega)]
      omega
    · simp only [beq_iff_eq, heq, if_false]
      split at honce <;> split <;> omega
  counter := by
    show state.backend.droppedWrites + 1 = (state.ledger.counted ++ [_]).length
    rw [List.length_append, h.counter]
    rfl

/-- A submitted write is queued or counted. -/
theorem enqueue (h : state.Accounted) (item : Write) : (state.enqueue item).Accounted := by
  unfold State.enqueue
  split
  · exact h.reject _
  · split
    · exact h.reject _
    · split
      · exact
          { phase := h.phase
            once := by
              intro ticket
              have honce := h.once ticket
              show (state.phase.unsettled ++ ticketsOf (state.queue
                ++ [.write state.ledger.submitted item])).count ticket
                + (state.ledger.committed.count ticket + state.ledger.counted.count ticket)
                = if ticket < state.ledger.submitted + 1 then 1 else 0
              rw [State.pending] at honce
              simp only [ticketsOf_append, ticketsOf_write, ticketsOf_nil, List.count_append,
                List.count_singleton] at honce ⊢
              by_cases heq : state.ledger.submitted = ticket
              · simp only [heq, beq_self_eq_true, if_true] at honce ⊢
                rw [if_neg (by omega)] at honce
                rw [if_pos (by omega)]
                omega
              · simp only [beq_iff_eq, heq, if_false]
                split at honce <;> split <;> omega
            counter := h.counter }
      · exact h.reject _

/-- What does not touch the counter, the ledger and what is pending keeps the account. -/
theorem congr {next : State} (h : state.Accounted) (hphase : next.phase.WellFormed)
    (hpending : next.pending = state.pending)
    (hcommitted : next.ledger.committed = state.ledger.committed)
    (hcounted : next.ledger.counted = state.ledger.counted)
    (hsubmitted : next.ledger.submitted = state.ledger.submitted)
    (hdropped : next.backend.droppedWrites = state.backend.droppedWrites) : next.Accounted where
  phase := hphase
  once := by
    rw [hpending, hcommitted, hcounted, hsubmitted]
    exact h.once
  counter := by rw [hdropped, hcounted, h.counter]

/-- A barrier is not a write. -/
theorem flushPut (h : state.Accounted) (call : ℕ) (flush : FlushCall) :
    (state.flushPut call flush).Accounted := by
  unfold State.flushPut
  split
  · exact h.congr h.phase rfl rfl rfl rfl rfl
  · split
    · refine h.congr h.phase ?_ rfl rfl rfl rfl
      show state.phase.unsettled ++ ticketsOf (state.queue ++ [.flush call]) = state.pending
      rw [ticketsOf_append, ticketsOf_flush, ticketsOf_nil, List.append_nil, State.pending]
    · exact h

/-- A batch settles its writes. -/
theorem commit (h : state.Accounted) (hphase : state.phase = .committing items)
    (trace : BatchTrace) :
    (state.commit items trace).Accounted := by
  have hformed := h.phase
  rw [hphase] at hformed
  have hpending : state.pending = ticketsOf items ++ ticketsOf state.queue := by
    rw [State.pending, hphase]
    rfl
  unfold State.commit
  dsimp only
  split
  · rename_i hnone
    refine h.congr hformed ?_ rfl rfl rfl rfl
    rw [hpending, show ticketsOf items = [] by rw [ticketsOf, hnone, List.map_nil]]
    rfl
  · exact
      { phase := hformed
        once := by
          intro ticket
          have honce := h.once ticket
          rw [hpending, List.count_append] at honce
          show (ticketsOf state.queue).count ticket
            + ((state.ledger.settle _ _).committed.count ticket
              + (state.ledger.settle _ _).counted.count ticket) = _
          rw [Ledger.count_settle]
          show _ + (_ + (ticketsOf items).count ticket)
            = if ticket < (state.ledger.settle _ _).submitted then 1 else 0
          rw [show (state.ledger.settle _ _).submitted = state.ledger.submitted by
            unfold Ledger.settle; split <;> rfl]
          omega
        counter := by
          show (commitBatch _ _ _ _ _).2.1.droppedWrites = (state.ledger.settle _ _).counted.length
          rw [droppedWrites_commitBatch, Ledger.length_counted_settle, h.counter] }

/-- The drain counts what is uncommitted and what is queued. -/
theorem drain (h : state.Accounted) {uncommitted : ℕ} {error : String}
    (hphase : state.phase = .crashed items uncommitted error) :
    (state.drain items uncommitted error).Accounted := by
  have hformed := h.phase
  rw [hphase] at hformed
  exact
    { phase := trivial
      once := by
        intro ticket
        have honce := h.once ticket
        rw [State.pending, hphase] at honce
        show 0 + (state.ledger.committed.count ticket + (state.ledger.counted
          ++ ((ticketsOf items).take uncommitted ++ ticketsOf state.queue)).count ticket)
          = if ticket < state.ledger.submitted then 1 else 0
        rw [← honce]
        simp only [Phase.unsettled, List.count_append]
        omega
      counter := by
        show state.backend.droppedWrites + (uncommitted + _) = (state.ledger.counted
          ++ ((ticketsOf items).take uncommitted ++ ticketsOf state.queue)).length
        have hlength := length_ticketsOf state.queue
        have huncommitted : min uncommitted (ticketsOf items).length = uncommitted :=
          Nat.min_eq_left hformed
        rw [h.counter, List.length_append, List.length_append, List.length_take, huncommitted]
        omega }

/-- Every step keeps the account. -/
theorem step {next : State} (h : state.Accounted) (hstep : History.step state event = some next) :
    next.Accounted := by
  cases step_change hstep with
  | moves hmoves =>
    exact h.congr (hmoves.phase h.phase) hmoves.pending (by rw [hmoves.ledger])
      (by rw [hmoves.ledger]) (by rw [hmoves.ledger]) hmoves.dropped
  | enqueue item => exact h.enqueue item
  | flushPut => exact h.flushPut _ _
  | commit trace hphase => exact h.commit hphase trace
  | drain hphase => exact h.drain hphase
  | flushBegin | flushTimeout | flushReturn => exact h.congr h.phase rfl rfl rfl rfl rfl
  | finish hphase =>
    refine h.congr trivial ?_ rfl rfl rfl rfl
    rw [State.pending, State.pending, hphase]
    rfl

/-- A write that is committed or counted is not pending, and a counted one is not committed. -/
theorem count_le (h : state.Accounted) (ticket : ℕ) :
    state.pending.count ticket + (state.ledger.committed.count ticket
      + state.ledger.counted.count ticket) ≤ 1 := by
  rw [h.once ticket]
  split <;> omega

/-- A submitted write that is not pending is committed or counted. -/
theorem settled (h : state.Accounted) {ticket : ℕ} (hsubmitted : ticket < state.ledger.submitted)
    (hpending : ticket ∉ state.pending) :
    ticket ∈ state.ledger.committed ∨ ticket ∈ state.ledger.counted := by
  have honce := h.once ticket
  rw [if_pos hsubmitted, List.count_eq_zero_of_not_mem hpending] at honce
  rw [← List.count_pos_iff, ← List.count_pos_iff]
  omega

/-- A counted write is submitted. -/
theorem lt_of_counted (h : state.Accounted) {ticket : ℕ} (hcounted : ticket ∈ state.ledger.counted) :
    ticket < state.ledger.submitted := by
  have honce := h.once ticket
  have hpos := List.count_pos_iff.mpr hcounted
  by_contra hlt
  rw [if_neg hlt] at honce
  omega

/-- A queued write is not counted. -/
theorem not_counted_of_queued (h : state.Accounted) {ticket : ℕ}
    (hqueued : ticket ∈ ticketsOf state.queue) : ticket ∉ state.ledger.counted := by
  have hle := h.count_le ticket
  rw [State.pending, List.count_append] at hle
  have hpos := List.count_pos_iff.mpr hqueued
  rw [← List.count_eq_zero]
  omega

end State.Accounted

/-! ### The order of acceptance -/

/-- The items come out of the queue in the order in which they were accepted, and each of them
was accepted once. -/
structure State.Sequenced (state : State) : Prop where
  held : state.held <:+ state.ledger.accepted
  nodup : state.ledger.accepted.Nodup
  tickets : (ticketsOf state.ledger.accepted).Nodup
  submitted : ∀ ticket ∈ ticketsOf state.ledger.accepted, ticket < state.ledger.submitted

/-- What a ledger can become: items are accepted behind the others, and no write that was
counted before is accepted. -/
structure Ledger.Extends (before after : Ledger) : Prop where
  accepted : ∃ more, after.accepted = before.accepted ++ more
    ∧ ∀ ticket ∈ ticketsOf more, ticket ∉ before.counted
  committed : before.committed ⊆ after.committed
  counted : before.counted <+: after.counted

theorem Ledger.Extends.of_eq {before after : Ledger} (haccepted : after.accepted = before.accepted)
    (hcommitted : before.committed ⊆ after.committed)
    (hcounted : before.counted <+: after.counted) : before.Extends after :=
  ⟨⟨[], by rw [haccepted, List.append_nil], fun _ h => absurd h List.not_mem_nil⟩, hcommitted,
    hcounted⟩

/-- The ledger of a step. -/
theorem State.Accounted.extends (h : state.Accounted)
    (hstep : History.step state event = some next) :
    state.ledger.Extends next.ledger := by
  cases step_change hstep with
  | moves hmoves =>
    rw [hmoves.ledger]
    exact .of_eq rfl (List.Subset.refl _) (List.prefix_refl _)
  | enqueue item =>
    unfold State.enqueue
    have hreject : ∀ error, state.ledger.Extends
        (state.reject state.ledger.submitted error).ledger :=
      fun error => .of_eq rfl (List.Subset.refl _) (List.prefix_append _ _)
    split
    · exact hreject _
    · split
      · exact hreject _
      · split
        · refine ⟨⟨[.write state.ledger.submitted item], rfl, ?_⟩, List.Subset.refl _,
            List.prefix_refl _⟩
          intro ticket hmem hcounted
          rw [List.mem_singleton.mp hmem] at hcounted
          exact Nat.lt_irrefl _ (h.lt_of_counted hcounted)
        · exact hreject _
  | flushPut =>
    unfold State.flushPut
    split
    · exact .of_eq rfl (List.Subset.refl _) (List.prefix_refl _)
    · split
      · exact ⟨⟨_, rfl, fun _ hmem => absurd hmem List.not_mem_nil⟩, List.Subset.refl _,
          List.prefix_refl _⟩
      · exact .of_eq rfl (List.Subset.refl _) (List.prefix_refl _)
  | flushBegin | flushTimeout | flushReturn | finish =>
    exact .of_eq rfl (List.Subset.refl _) (List.prefix_refl _)
  | commit trace hphase =>
    unfold State.commit
    dsimp only
    split
    · exact .of_eq rfl (List.Subset.refl _) (List.prefix_refl _)
    · dsimp only
      unfold Ledger.settle
      split
      · exact .of_eq rfl (List.subset_append_left _ _) (List.prefix_append _ _)
      · exact .of_eq rfl (List.Subset.refl _) (List.prefix_append _ _)
  | drain => exact .of_eq rfl (List.Subset.refl _) (List.prefix_append _ _)

namespace State.Sequenced

theorem create (start : Startup) (db : Database) : (State.create start db).Sequenced where
  held := List.suffix_refl _
  nodup := List.nodup_nil
  tickets := List.nodup_nil
  submitted := fun _ h => absurd h List.not_mem_nil

/-- What accepts nothing and holds the end of what was held keeps the order. -/
theorem congr {next : State} (h : state.Sequenced) (hheld : next.held <:+ state.held)
    (haccepted : next.ledger.accepted = state.ledger.accepted)
    (hsubmitted : state.ledger.submitted ≤ next.ledger.submitted) : next.Sequenced where
  held := by
    rw [haccepted]
    exact hheld.trans h.held
  nodup := by rw [haccepted]; exact h.nodup
  tickets := by rw [haccepted]; exact h.tickets
  submitted := by
    intro ticket hmem
    rw [haccepted] at hmem
    exact (h.submitted ticket hmem).trans_le hsubmitted

/-- A new item is accepted behind the others. -/
theorem put {next : State} (h : state.Sequenced) {item : QueueItem}
    (hheld : next.held = state.held ++ [item])
    (haccepted : next.ledger.accepted = state.ledger.accepted ++ [item])
    (hnew : item ∉ state.ledger.accepted)
    (htickets : ∀ ticket ∈ ticketsOf [item],
      state.ledger.submitted ≤ ticket ∧ ticket < next.ledger.submitted)
    (hsubmitted : state.ledger.submitted ≤ next.ledger.submitted) : next.Sequenced where
  held := by
    obtain ⟨finished, hfinished⟩ := h.held
    rw [hheld, haccepted, ← hfinished, List.append_assoc]
    exact List.suffix_append _ _
  nodup := by
    rw [haccepted]
    exact List.Nodup.append h.nodup (List.nodup_singleton item) (by simpa using hnew)
  tickets := by
    rw [haccepted, ticketsOf_append]
    refine List.Nodup.append h.tickets ?_ ?_
    · cases item with
      | write ticket item => exact List.nodup_singleton ticket
      | flush call => exact List.nodup_nil
    · intro ticket hold hmem
      have hlt := h.submitted ticket hold
      have hge := (htickets ticket hmem).1
      omega
  submitted := by
    intro ticket hmem
    rw [haccepted, ticketsOf_append] at hmem
    rcases List.mem_append.mp hmem with hold | hmem
    · exact (h.submitted ticket hold).trans_le hsubmitted
    · exact (htickets ticket hmem).2

theorem enqueue (h : state.Sequenced) (item : Write) : (state.enqueue item).Sequenced := by
  unfold State.enqueue
  have hreject : ∀ error, (state.reject state.ledger.submitted error).Sequenced :=
    fun error => h.congr (List.suffix_refl _) rfl (Nat.le_succ _)
  split
  · exact hreject _
  · split
    · exact hreject _
    · split
      · refine @put _ _ h (.write state.ledger.submitted item) ?_ rfl ?_ ?_ (Nat.le_succ _)
        · exact (List.append_assoc _ _ _).symm
        · intro hmem
          have hticket : state.ledger.submitted ∈ ticketsOf state.ledger.accepted :=
            List.mem_map.mpr ⟨(_, item), List.mem_filterMap.mpr ⟨_, hmem, rfl⟩, rfl⟩
          exact Nat.lt_irrefl _ (h.submitted _ hticket)
        · intro ticket hmem
          rw [List.mem_singleton.mp hmem]
          exact ⟨Nat.le_refl _, Nat.lt_succ_self _⟩
      · exact hreject _

/-- Every step keeps the order. A barrier is queued once. -/
theorem step {next : State} (h : state.Sequenced)
    (hadmission : ∀ call flush, state.flushes.get? call = some flush → flush.stage = .admission →
      .flush call ∉ state.ledger.accepted) (hstep : History.step state event = some next) :
    next.Sequenced := by
  cases step_change hstep with
  | moves hmoves =>
    exact h.congr (hmoves.held ▸ List.suffix_refl _) (by rw [hmoves.ledger])
      (by rw [hmoves.ledger])
  | enqueue item => exact h.enqueue item
  | @flushPut call flush hcall hstage =>
    unfold State.flushPut
    split
    · exact h.congr (List.suffix_refl _) rfl (Nat.le_refl _)
    · split
      · refine @put _ _ h (.flush call) ?_ rfl (hadmission call flush hcall hstage) ?_
          (Nat.le_refl _)
        · exact (List.append_assoc _ _ _).symm
        · intro ticket hmem
          exact absurd hmem List.not_mem_nil
      · exact h
  | flushBegin | flushTimeout | flushReturn =>
    exact h.congr (List.suffix_refl _) rfl (Nat.le_refl _)
  | commit trace hphase =>
    have hsettle : ∀ batch boundary, (state.ledger.settle batch boundary).accepted
        = state.ledger.accepted ∧ (state.ledger.settle batch boundary).submitted
        = state.ledger.submitted := by
      intro batch boundary
      cases boundary with
      | none => exact ⟨rfl, rfl⟩
      | some cutoff => exact ⟨rfl, rfl⟩
    unfold State.commit
    dsimp only
    split
    · refine h.congr ?_ rfl (Nat.le_refl _)
      rw [State.held, State.held, hphase]
      exact List.suffix_refl _
    · refine h.congr ?_ (hsettle _ _).1 (hsettle _ _).2.ge
      rw [State.held, State.held, hphase]
      exact List.suffix_refl _
  | finish hphase =>
    refine h.congr ?_ rfl (Nat.le_refl _)
    show state.queue <:+ state.held
    rw [State.held]
    exact List.suffix_append _ _
  | drain => exact h.congr (List.nil_suffix) rfl (Nat.le_refl _)

end State.Sequenced

end Mocop.History
