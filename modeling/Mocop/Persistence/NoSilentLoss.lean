import Mocop.Persistence.Accounting

/-!
# `Mocop.Persistence.NoSilentLoss`: no write is lost in silence

A barrier stands for the writes that were accepted before it. When the writer completes it,
each of them is committed or counted, and none of those behind it is (`Ledger.Fences`). The
counter that the barrier reads is thus the number of the losses up to its place in the queue.
`flush` returns True when this number is the one of an earlier barrier, whose flush had
returned before this one began, or zero. No write between the two barriers is lost then.

The writer loses writes in one place. After an empty `get` it looks at the stop flag and ends.
A write that was accepted in between stays in the queue: it is neither committed nor counted.
`no_silent_loss_iff` says that this is the only way to lose one.
-/

set_option autoImplicit false

namespace Mocop.History

/-! ### Places in a list -/

section
variable {α : Type} {first last before after : List α} {c : α}

/-- What does not hold an element lies before its place. -/
theorem split_of_not_mem_left (h : first ++ last = before ++ c :: after) (hnot : c ∉ first) :
    ∃ between, before = first ++ between ∧ last = between ++ c :: after := by
  rcases List.append_eq_append_iff.mp h with ⟨between, hbefore, hlast⟩ | ⟨between, hfirst, hafter⟩
  · exact ⟨between, hbefore, hlast⟩
  · cases between with
    | nil => exact ⟨[], by simpa using hfirst.symm, hafter.symm⟩
    | cons head between =>
      rw [List.cons_append] at hafter
      rw [hfirst, ← (List.cons.inj hafter).1] at hnot
      exact absurd (List.mem_append_right _ List.mem_cons_self) hnot

/-- What does not hold an element lies behind its place. -/
theorem split_of_not_mem_right (h : first ++ last = before ++ c :: after) (hnot : c ∉ last) :
    ∃ between, after = between ++ last ∧ first = before ++ c :: between := by
  rcases List.append_eq_append_iff.mp h with ⟨between, _, hlast⟩ | ⟨between, hfirst, hafter⟩
  · rw [hlast] at hnot
    exact absurd (List.mem_append_right _ List.mem_cons_self) hnot
  · cases between with
    | nil =>
      rw [List.nil_append] at hafter
      rw [← hafter] at hnot
      exact absurd List.mem_cons_self hnot
    | cons head between =>
      rw [List.cons_append] at hafter
      obtain ⟨rfl, hrest⟩ := List.cons.inj hafter
      exact ⟨between, hrest, hfirst⟩

/-- An element that occurs once has one place. -/
theorem split_unique {items : List α} (hnodup : items.Nodup)
    (hfirst : items = first ++ c :: last) (hbefore : items = before ++ c :: after) :
    first = before ∧ last = after := by
  have hnot : c ∉ first := by
    rw [hfirst] at hnodup
    exact fun hin => (List.nodup_append'.mp hnodup).2.2 hin List.mem_cons_self
  obtain ⟨between, hbetween, hlast⟩ := split_of_not_mem_left (hfirst.symm.trans hbefore) hnot
  cases between with
  | nil => exact ⟨by simpa using hbetween.symm, (List.cons.inj hlast).2⟩
  | cons head between =>
    rw [hbefore, hbetween, ← (List.cons.inj hlast).1] at hnodup
    have hin : c ∈ first ++ c :: between := List.mem_append_right _ List.mem_cons_self
    exact absurd List.mem_cons_self ((List.nodup_append'.mp hnodup).2.2 hin)

end

/-! ### Barriers -/

/-- A completed barrier that has read the counter: what was accepted before it is settled, and
what was accepted behind it was not counted then. -/
structure Ledger.Fences (ledger : Ledger) (call dropped : ℕ) : Prop where
  le : dropped ≤ ledger.counted.length
  settled : ∃ before after, ledger.accepted = before ++ .flush call :: after
    ∧ (∀ ticket ∈ ticketsOf before,
        ticket ∈ ledger.committed ∨ ticket ∈ ledger.counted.take dropped)
    ∧ ∀ ticket ∈ ticketsOf after, ticket ∉ ledger.counted.take dropped

/-- One barrier was accepted before another. -/
def Ledger.Precedes (ledger : Ledger) (earlier call : ℕ) : Prop :=
  ∃ before after, ledger.accepted = before ++ .flush earlier :: after
    ∧ .flush call ∉ before ++ [.flush earlier]

variable {before after : Ledger}

theorem Ledger.Extends.fences (h : before.Extends after) {call dropped : ℕ}
    (hfences : before.Fences call dropped) : after.Fences call dropped := by
  obtain ⟨hle, earlier, later, hsplit, hearlier, hlater⟩ := hfences
  obtain ⟨counted, hcounted⟩ := h.counted
  obtain ⟨more, hmore, hfresh⟩ := h.accepted
  -- The first `dropped` counted writes stay the same.
  have htake : after.counted.take dropped = before.counted.take dropped := by
    rw [← hcounted, List.take_append_of_le_length hle]
  refine ⟨?_, earlier, later ++ more, ?_, ?_, ?_⟩
  · rw [← hcounted, List.length_append]
    omega
  · rw [hmore, hsplit, List.append_assoc, List.cons_append]
  · intro ticket hmem
    rw [htake]
    exact (hearlier ticket hmem).imp (fun hin => h.committed hin) id
  · intro ticket hmem
    rw [ticketsOf_append] at hmem
    rw [htake]
    rcases List.mem_append.mp hmem with hold | hnew
    · exact hlater ticket hold
    · exact fun hin => hfresh ticket hnew (List.mem_of_mem_take hin)

theorem Ledger.Extends.precedes (h : before.Extends after) {earlier call : ℕ}
    (hprecedes : before.Precedes earlier call) :
    after.Precedes earlier call := by
  obtain ⟨first, last, hsplit, hcall⟩ := hprecedes
  obtain ⟨more, hmore, _⟩ := h.accepted
  exact ⟨first, last ++ more, by rw [hmore, hsplit, List.append_assoc, List.cons_append], hcall⟩

theorem Ledger.Extends.subset (h : before.Extends after) :
    before.accepted ⊆ after.accepted := by
  obtain ⟨more, hmore, _⟩ := h.accepted
  rw [hmore]
  exact List.subset_append_left _ _

/-! ### What holds of every call -/

/-- What holds of a call of `flush`. -/
structure State.FlushSound (state : State) (call : ℕ) (flush : FlushCall) : Prop where
  notYet : .flush call ∈ state.held → flush.barrier.completed = false
  placed : flush.barrier.completed = true → .flush call ∈ state.ledger.accepted
  fences : flush.barrier.completed = true → flush.barrier.failed = false →
    state.ledger.Fences call flush.barrier.dropped
  failed : flush.barrier.failed = true → state.writerFailed = true
  returned : ∀ result, flush.stage = .returned result → flush.barrier.completed = true
    ∧ result = (!flush.barrier.failed && flush.barrier.dropped == flush.droppedBefore)
    ∧ flush.barrier.dropped ≤ state.flushedDrops
  /-- The losses that it starts from were acknowledged for a barrier before its own. After a
  crash there is no barrier of its own. -/
  since : flush.droppedBefore = 0
    ∨ (∃ earlier done result, state.flushes.get? earlier = some done
        ∧ done.stage = .returned result ∧ done.barrier.failed = false
        ∧ done.barrier.dropped = flush.droppedBefore ∧ state.ledger.Precedes earlier call)
    ∨ (state.writerFailed = true ∧ .flush call ∉ state.ledger.accepted)

/-- The calls of `flush`, and what they acknowledged. -/
structure State.Fenced (state : State) : Prop where
  fresh : ∀ call, state.nextFlush ≤ call → state.flushes.get? call = none
  known : ∀ call, .flush call ∈ state.ledger.accepted →
    ∃ flush, state.flushes.get? call = some flush ∧ flush.stage ≠ .admission
  sound : ∀ call flush, state.flushes.get? call = some flush → state.FlushSound call flush
  acknowledged : state.flushedDrops = 0
    ∨ ∃ call flush result, state.flushes.get? call = some flush
      ∧ flush.stage = .returned result ∧ flush.barrier.dropped = state.flushedDrops

/-- A call that returned is not touched again. -/
def State.KeepsReturned (state next : State) : Prop :=
  ∀ call flush result, state.flushes.get? call = some flush → flush.stage = .returned result →
    next.flushes.get? call = some flush

section
variable {state next : State} {call : ℕ} {flush : FlushCall}

/-- What holds of a call keeps holding where the call is not touched. -/
theorem State.FlushSound.mono (h : state.FlushSound call flush)
    (hextends : state.ledger.Extends next.ledger)
    (hheld : .flush call ∈ next.held → .flush call ∈ state.held)
    (hfailed : state.writerFailed = true → next.writerFailed = true)
    (hdrops : state.flushedDrops ≤ next.flushedDrops) (hkeeps : state.KeepsReturned next)
    (hrefused : state.writerFailed = true → .flush call ∈ next.ledger.accepted →
      .flush call ∈ state.ledger.accepted) : next.FlushSound call flush where
  notYet hmem := h.notYet (hheld hmem)
  placed hcompleted := hextends.subset (h.placed hcompleted)
  fences hcompleted hfailure := hextends.fences (h.fences hcompleted hfailure)
  failed hfailure := hfailed (h.failed hfailure)
  returned := by
    intro result hstage
    obtain ⟨hcompleted, hresult, hle⟩ := h.returned result hstage
    exact ⟨hcompleted, hresult, hle.trans hdrops⟩
  since := by
    rcases h.since with hzero | ⟨earlier, done, result, hdone, hstage, hfailure, heq, hbefore⟩
      | ⟨hwriter, hnot⟩
    · exact .inl hzero
    · exact .inr (.inl ⟨earlier, done, result, hkeeps _ _ _ hdone hstage, hstage, hfailure, heq,
        hextends.precedes hbefore⟩)
    · exact .inr (.inr ⟨hfailed hwriter, fun hmem => hnot (hrefused hwriter hmem)⟩)

/-- A call that does not return yet moves on. -/
theorem State.FlushSound.setStage (h : state.FlushSound call flush) {stage : FlushStage}
    (hstage : ∀ result, stage ≠ .returned result) :
    state.FlushSound call { flush with stage } where
  notYet := h.notYet
  placed := h.placed
  fences := h.fences
  failed := h.failed
  returned result heq := absurd heq (hstage result)
  since := h.since

/-- The record of one call is replaced. -/
theorem keepsReturned_set {changed : FlushCall} (hcall : state.flushes.get? call = some flush)
    (hstage : ∀ result, flush.stage ≠ .returned result)
    (hflushes : next.flushes = state.flushes.set call changed) : state.KeepsReturned next := by
  intro other done result hdone hreturned
  rw [hflushes, Dict.get?_set]
  split
  · rename_i heq
    rw [heq, hcall] at hdone
    cases hdone
    exact absurd hreturned (hstage result)
  · exact hdone

/-- What was acknowledged stays so while the acknowledged losses do not change. -/
theorem State.Fenced.acknowledged_of_keeps (h : state.Fenced) (hkeeps : state.KeepsReturned next)
    (hdrops : next.flushedDrops = state.flushedDrops) :
    next.flushedDrops = 0 ∨ ∃ call flush result, next.flushes.get? call = some flush
      ∧ flush.stage = .returned result ∧ flush.barrier.dropped = next.flushedDrops := by
  rw [hdrops]
  exact h.acknowledged.imp id fun ⟨call, flush, result, hcall, hstage, heq⟩ =>
    ⟨call, flush, result, hkeeps _ _ _ hcall hstage, hstage, heq⟩

/-- A step that touches no call and accepts no barrier. -/
theorem State.Fenced.congr (h : state.Fenced) (hextends : state.ledger.Extends next.ledger)
    (hflushes : next.flushes = state.flushes) (hnext : next.nextFlush = state.nextFlush)
    (hdrops : next.flushedDrops = state.flushedDrops)
    (hfailed : next.writerFailed = state.writerFailed)
    (hheld : ∀ call, .flush call ∈ next.held → .flush call ∈ state.held)
    (haccepted : ∀ call, .flush call ∈ next.ledger.accepted →
      .flush call ∈ state.ledger.accepted) : next.Fenced := by
  have hkeeps : state.KeepsReturned next := by
    intro call flush result hcall _
    rw [hflushes]
    exact hcall
  exact
    { fresh := by
        rw [hflushes, hnext]
        exact h.fresh
      known := by
        intro call hmem
        rw [hflushes]
        exact h.known call (haccepted call hmem)
      sound := by
        intro call flush hcall
        rw [hflushes] at hcall
        exact (h.sound call flush hcall).mono hextends (hheld call) (fun hw => hfailed ▸ hw)
          hdrops.ge hkeeps fun _ => haccepted call
      acknowledged := h.acknowledged_of_keeps hkeeps hdrops }

/-- A step that replaces the record of one call, and accepts no other barrier. -/
theorem State.Fenced.set {changed : FlushCall} (h : state.Fenced)
    (hcall : state.flushes.get? call = some flush)
    (hstage : ∀ result, flush.stage ≠ .returned result)
    (hextends : state.ledger.Extends next.ledger)
    (hflushes : next.flushes = state.flushes.set call changed)
    (hnext : next.nextFlush = state.nextFlush) (hdrops : state.flushedDrops ≤ next.flushedDrops)
    (hfailed : next.writerFailed = state.writerFailed)
    (hheld : ∀ other, .flush other ∈ next.held → .flush other ∈ state.held ∨ other = call)
    (haccepted : ∀ other, .flush other ∈ next.ledger.accepted →
      .flush other ∈ state.ledger.accepted ∨ other = call)
    (hknown : .flush call ∈ next.ledger.accepted → changed.stage ≠ .admission)
    (hsound : next.FlushSound call changed)
    (hacknowledged : next.flushedDrops = 0 ∨ ∃ call flush result,
      next.flushes.get? call = some flush ∧ flush.stage = .returned result
        ∧ flush.barrier.dropped = next.flushedDrops) : next.Fenced where
  fresh := by
    intro other hle
    rw [hnext] at hle
    have hne : other ≠ call := by
      rintro rfl
      rw [h.fresh _ hle] at hcall
      cases hcall
    rw [hflushes, Dict.get?_set, if_neg hne]
    exact h.fresh other hle
  known := by
    intro other hmem
    rw [hflushes, Dict.get?_set]
    split
    · rename_i heq
      exact ⟨changed, rfl, hknown (heq ▸ hmem)⟩
    · rename_i hne
      exact h.known other ((haccepted other hmem).resolve_right hne)
  sound := by
    intro other record hrecord
    rw [hflushes, Dict.get?_set] at hrecord
    split at hrecord
    · rename_i heq
      cases hrecord
      exact heq ▸ hsound
    · rename_i hother
      exact (h.sound other record hrecord).mono hextends
        (fun hmem => (hheld other hmem).resolve_right hother) (fun hw => hfailed ▸ hw) hdrops
        (keepsReturned_set hcall hstage hflushes)
        fun _ hmem => (haccepted other hmem).resolve_right hother
  acknowledged := hacknowledged

/-! ### The steps of a call -/

theorem State.Fenced.create (start : Startup) (db : Database) :
    (State.create start db).Fenced where
  fresh := fun _ _ => rfl
  known := fun _ h => absurd h List.not_mem_nil
  sound := fun _ _ h => by cases h
  acknowledged := .inl rfl

/-- A call begins with the losses acknowledged so far. -/
theorem State.Fenced.flushBegin (h : state.Fenced) : state.flushBegin.Fenced := by
  have hnone : state.flushes.get? state.nextFlush = none := h.fresh _ (Nat.le_refl _)
  have hnew : .flush state.nextFlush ∉ state.ledger.accepted := by
    intro hmem
    obtain ⟨flush, hflush, _⟩ := h.known _ hmem
    rw [hnone] at hflush
    cases hflush
  have hget : ∀ call, state.flushBegin.flushes.get? call = if call = state.nextFlush then
      some { droppedBefore := state.flushedDrops } else state.flushes.get? call :=
    fun call => Dict.get?_set _ _ _ call
  have hkeeps : state.KeepsReturned state.flushBegin := by
    intro call flush result hcall _
    rw [hget, if_neg]
    · exact hcall
    · rintro rfl
      rw [hnone] at hcall
      cases hcall
  have hextends : state.ledger.Extends state.flushBegin.ledger :=
    .of_eq rfl (List.Subset.refl _) (List.prefix_refl _)
  exact
    { fresh := by
        intro call hle
        have hlt : state.nextFlush + 1 ≤ call := hle
        rw [hget, if_neg (by omega)]
        exact h.fresh call (by omega)
      known := by
        intro call hmem
        rw [hget, if_neg]
        · exact h.known call hmem
        · rintro rfl
          exact hnew hmem
      sound := by
        intro call flush hcall
        rw [hget] at hcall
        split at hcall
        · rename_i heq
          cases hcall
          subst heq
          refine ⟨fun _ => rfl, nofun, nofun, nofun, nofun, ?_⟩
          rcases h.acknowledged with hzero | ⟨earlier, done, result, hdone, hstage, heq⟩
          · exact .inl hzero
          · have hsound := h.sound earlier done hdone
            cases hfailure : done.barrier.failed with
            | true => exact .inr (.inr ⟨hsound.failed hfailure, hnew⟩)
            | false =>
              have hcompleted := (hsound.returned result hstage).1
              obtain ⟨before, after, hsplit, _⟩ := (hsound.fences hcompleted hfailure).settled
              have hprecedes : state.ledger.Precedes earlier state.nextFlush := by
                refine ⟨before, after, hsplit, fun hmem => hnew ?_⟩
                rw [hsplit]
                rcases List.mem_append.mp hmem with hin | hlast
                · exact List.mem_append_left _ hin
                · rw [List.mem_singleton.mp hlast]
                  exact List.mem_append_right _ List.mem_cons_self
              exact .inr (.inl ⟨earlier, done, result, hkeeps _ _ _ hdone hstage, hstage,
                hfailure, heq, hprecedes⟩)
        · exact (h.sound call flush hcall).mono hextends id id (Nat.le_refl _) hkeeps
            fun _ hmem => hmem
      acknowledged := h.acknowledged_of_keeps hkeeps rfl }

/-- A call gives up, and acknowledges nothing. -/
theorem State.Fenced.gaveUp (h : state.Fenced) (hcall : state.flushes.get? call = some flush)
    (hstage : flush.stage = .admission ∨ flush.stage = .waiting) :
    (state.setStage call flush .gaveUp).Fenced := by
  have hopen : ∀ result, flush.stage ≠ .returned result := by
    intro result heq
    rw [heq] at hstage
    rcases hstage with h | h <;> cases h
  have hkeeps : state.KeepsReturned (state.setStage call flush .gaveUp) :=
    keepsReturned_set hcall hopen rfl
  have hextends : state.ledger.Extends (state.setStage call flush .gaveUp).ledger :=
    .of_eq rfl (List.Subset.refl _) (List.prefix_refl _)
  have hsound : (state.setStage call flush .gaveUp).FlushSound call flush :=
    (h.sound call flush hcall).mono hextends id id (Nat.le_refl _) hkeeps fun _ hmem => hmem
  exact h.set hcall hopen hextends rfl rfl (Nat.le_refl _) rfl (fun _ hmem => .inl hmem)
    (fun _ hmem => .inl hmem) (fun _ => nofun) (hsound.setStage nofun)
    (h.acknowledged_of_keeps hkeeps rfl)

/-- A call queues its barrier, gives up, or tries again. -/
theorem State.Fenced.flushPut (h : state.Fenced) (hcall : state.flushes.get? call = some flush)
    (hstage : flush.stage = .admission) : (state.flushPut call flush).Fenced := by
  unfold State.flushPut
  split
  · exact h.gaveUp hcall (.inl hstage)
  · rename_i hopen
    have hworks : state.writerFailed = false := by
      cases hfailed : state.writerFailed with
      | false => rfl
      | true => simp [hfailed] at hopen
    split
    · have hadmission : ∀ result, flush.stage ≠ .returned result := by
        intro result heq
        rw [hstage] at heq
        cases heq
      have hkeeps : state.KeepsReturned ((state.put (.flush call)).setStage call flush .waiting) :=
        keepsReturned_set hcall hadmission rfl
      have hextends : state.ledger.Extends
          ((state.put (.flush call)).setStage call flush .waiting).ledger :=
        ⟨⟨[.flush call], rfl, fun _ hmem => absurd hmem List.not_mem_nil⟩, List.Subset.refl _,
          List.prefix_refl _⟩
      have hold := h.sound call flush hcall
      have hincomplete : flush.barrier.completed = false := by
        cases hcompleted : flush.barrier.completed with
        | false => rfl
        | true =>
          obtain ⟨other, hother, hplaced⟩ := h.known call (hold.placed hcompleted)
          rw [hcall] at hother
          cases hother
          exact absurd hstage hplaced
      have hmem : ∀ other (items : List QueueItem), .flush other ∈ items ++ [.flush call] →
          .flush other ∈ items ∨ other = call := by
        intro other items hmem
        rcases List.mem_append.mp hmem with hin | hlast
        · exact .inl hin
        · cases List.mem_singleton.mp hlast
          exact .inr rfl
      have hsound : ((state.put (.flush call)).setStage call flush .waiting).FlushSound call
          flush :=
        { notYet := fun _ => hincomplete
          placed := fun _ => List.mem_append_right _ (List.mem_singleton_self _)
          fences := fun hcompleted => by rw [hincomplete] at hcompleted; cases hcompleted
          failed := hold.failed
          returned := fun result heq => absurd heq (hadmission result)
          since := by
            rcases hold.since with hzero | ⟨earlier, done, result, hdone, hreturned, hrest⟩
              | ⟨hwriter, _⟩
            · exact .inl hzero
            · exact .inr (.inl ⟨earlier, done, result, hkeeps _ _ _ hdone hreturned, hreturned,
                hrest.1, hrest.2.1, hextends.precedes hrest.2.2⟩)
            · rw [hworks] at hwriter
              cases hwriter }
      refine h.set hcall hadmission hextends rfl rfl (Nat.le_refl _) rfl ?_
        (fun other => hmem other _) (fun _ => nofun) (hsound.setStage nofun)
        (h.acknowledged_of_keeps hkeeps rfl)
      intro other hin
      refine hmem other state.held ?_
      rw [State.held, List.append_assoc]
      exact hin
    · exact h

/-- A call returns, and acknowledges the losses that its barrier read. -/
theorem State.Fenced.flushReturn (h : state.Fenced) (hcall : state.flushes.get? call = some flush)
    (hstage : flush.stage = .waiting) (hcompleted : flush.barrier.completed = true) :
    (state.flushReturn call flush).Fenced := by
  have hopen : ∀ result, flush.stage ≠ .returned result := by
    intro result heq
    rw [hstage] at heq
    cases heq
  have hkeeps : state.KeepsReturned (state.flushReturn call flush) :=
    keepsReturned_set hcall hopen rfl
  have hextends : state.ledger.Extends (state.flushReturn call flush).ledger :=
    .of_eq rfl (List.Subset.refl _) (List.prefix_refl _)
  have hdrops : state.flushedDrops ≤ (state.flushReturn call flush).flushedDrops :=
    Nat.le_max_left _ _
  have hsound : (state.flushReturn call flush).FlushSound call flush :=
    (h.sound call flush hcall).mono hextends id id hdrops hkeeps fun _ hmem => hmem
  have hget : (state.flushReturn call flush).flushes.get? call = some { flush with
      stage := .returned (!flush.barrier.failed && flush.barrier.dropped == flush.droppedBefore) } :=
    (Dict.get?_set _ _ _ call).trans (if_pos rfl)
  refine h.set hcall hopen hextends rfl rfl hdrops rfl (fun _ hmem => .inl hmem)
    (fun _ hmem => .inl hmem) (fun _ => nofun) ?_ ?_
  · exact
      { notYet := hsound.notYet
        placed := hsound.placed
        fences := hsound.fences
        failed := hsound.failed
        returned := by
          intro result heq
          cases heq
          exact ⟨hcompleted, rfl, Nat.le_max_right _ _⟩
        since := hsound.since }
  · -- The larger of the two numbers is an old one, or that of this call.
    rcases Nat.le_total flush.barrier.dropped state.flushedDrops with hle | hle
    · exact h.acknowledged_of_keeps hkeeps (Nat.max_eq_left hle)
    · exact .inr ⟨call, _, _, hget, rfl, (Nat.max_eq_right hle).symm⟩

end

/-! ### The barriers of a batch -/

section
variable {state next : State}

/-- The barriers among the items are completed, and the others stay as they are. -/
theorem get?_finishItems (items : List QueueItem) (failed : Bool) (call : ℕ) :
    (state.finishItems items failed).flushes.get? call
      = if .flush call ∈ items then (state.flushes.get? call).map fun flush => { flush with
          barrier := { completed := true, dropped := state.backend.droppedWrites, failed } }
        else state.flushes.get? call := by
  unfold State.finishItems
  dsimp only
  generalize state.flushes = flushes
  induction items generalizing flushes with
  | nil => rfl
  | cons item items ih =>
    rw [List.foldl_cons, ih]
    cases item with
    | write ticket item => simp
    | flush other =>
      dsimp only
      cases hother : flushes.get? other with
      | none =>
        by_cases heq : call = other
        · subst heq
          simp [hother]
        · simp [heq]
      | some flush =>
        by_cases heq : call = other
        · subst heq
          simp [hother]
        · simp [heq]

/-- Every barrier in the items is completed. What they were is held no longer. -/
theorem State.Fenced.finishItems (h : state.Fenced) {items : List QueueItem} {failed : Bool}
    (hextends : state.ledger.Extends next.ledger)
    (hflushes : next.flushes = (state.finishItems items failed).flushes)
    (hnext : next.nextFlush = state.nextFlush) (hdrops : next.flushedDrops = state.flushedDrops)
    (hfailed : state.writerFailed = true → next.writerFailed = true)
    (haccepted : next.ledger.accepted = state.ledger.accepted)
    (hitems : ∀ call, .flush call ∈ items → .flush call ∈ state.held
      ∧ .flush call ∈ state.ledger.accepted)
    (hheld : ∀ call, .flush call ∈ next.held → .flush call ∈ state.held
      ∧ .flush call ∉ items)
    (hfences : ∀ call, .flush call ∈ items → failed = false →
      next.ledger.Fences call state.backend.droppedWrites)
    (hcrash : failed = true → next.writerFailed = true) : next.Fenced := by
  have hget : ∀ call, next.flushes.get? call = _ :=
    fun call => (congrArg (·.get? call) hflushes).trans (get?_finishItems items failed call)
  have hkeeps : state.KeepsReturned next := by
    intro call flush result hcall hstage
    -- A call that returned has a completed barrier, which the writer does not hold.
    have hnot : .flush call ∉ items := by
      intro hmem
      have hsound := h.sound call flush hcall
      have hincomplete := hsound.notYet (hitems call hmem).1
      rw [(hsound.returned result hstage).1] at hincomplete
      cases hincomplete
    rw [hget, if_neg hnot]
    exact hcall
  exact
    { fresh := by
        intro call hle
        rw [hnext] at hle
        rw [hget, h.fresh call hle]
        split <;> rfl
      known := by
        intro call hmem
        rw [haccepted] at hmem
        obtain ⟨flush, hflush, hstage⟩ := h.known call hmem
        rw [hget, hflush]
        split
        · exact ⟨_, rfl, hstage⟩
        · exact ⟨flush, rfl, hstage⟩
      sound := by
        intro call changed hchanged
        rw [hget] at hchanged
        split at hchanged
        · rename_i hin
          obtain ⟨flush, hcall, heq⟩ := Option.map_eq_some_iff.mp hchanged
          subst heq
          have hold := h.sound call flush hcall
          have hnot : .flush call ∉ next.held := fun hmem => (hheld call hmem).2 hin
          have hsound := hold.mono hextends (fun hmem => absurd hmem hnot) hfailed hdrops.ge
            hkeeps (fun _ hmem => haccepted ▸ hmem)
          exact
            { notYet := fun hmem => absurd hmem hnot
              placed := fun _ => haccepted ▸ (hitems call hin).2
              fences := fun _ hfailure => hfences call hin hfailure
              failed := hcrash
              returned := by
                intro result hstage
                have hcompleted := (hold.returned result hstage).1
                rw [hold.notYet (hitems call hin).1] at hcompleted
                cases hcompleted
              since := hsound.since }
        · exact (h.sound call changed hchanged).mono hextends (fun hmem => (hheld call hmem).1)
            hfailed hdrops.ge hkeeps (fun _ hmem => haccepted ▸ hmem)
      acknowledged := h.acknowledged_of_keeps hkeeps hdrops }

/-- A finished batch: its barrier has read the counter. -/
theorem State.Fenced.finish (h : state.Fenced) (haccounted : state.Accounted)
    (hsequenced : state.Sequenced) {items : List QueueItem}
    (hphase : state.phase = .finishing items) :
    ({ state.finishItems items false with phase := .reading } : State).Fenced := by
  have hheld : state.held = items ++ state.queue := by rw [State.held, hphase]; rfl
  obtain ⟨finished, hfinished⟩ := hsequenced.held
  rw [hheld] at hfinished
  have hextends : state.ledger.Extends
      ({ state.finishItems items false with phase := .reading } : State).ledger :=
    .of_eq rfl (List.Subset.refl _) (List.prefix_refl _)
  refine h.finishItems hextends rfl rfl rfl id rfl ?_ ?_ ?_ (absurd · Bool.false_ne_true)
  · intro call hmem
    constructor
    · rw [hheld]
      exact List.mem_append_left _ hmem
    · rw [← hfinished]
      exact List.mem_append_right _ (List.mem_append_left _ hmem)
  · intro call hmem
    have hqueued : .flush call ∈ state.queue := hmem
    constructor
    · rw [hheld]
      exact List.mem_append_right _ hqueued
    · intro hin
      have hnodup := hsequenced.nodup
      rw [← hfinished] at hnodup
      exact (List.nodup_append'.mp hnodup.of_append_right).2.2 hin hqueued
  · intro call hmem _
    have hformed := haccounted.phase
    rw [hphase] at hformed
    obtain ⟨before, hbefore⟩ := hformed call hmem
    have hsplit : state.ledger.accepted = (finished ++ before) ++ .flush call :: state.queue := by
      rw [← hfinished, hbefore]
      simp only [List.append_assoc, List.singleton_append]
    have htake : state.ledger.counted.take state.backend.droppedWrites = state.ledger.counted := by
      rw [haccounted.counter, List.take_length]
    refine ⟨haccounted.counter.le, finished ++ before, state.queue, hsplit, ?_, ?_⟩
    · intro ticket hticket
      show ticket ∈ state.ledger.committed
        ∨ ticket ∈ state.ledger.counted.take state.backend.droppedWrites
      rw [htake]
      -- It is not pending: the batch is settled, and the queue holds later writes.
      have htickets := hsequenced.tickets
      rw [hsplit, ticketsOf_append, ticketsOf_flush] at htickets
      refine haccounted.settled (hsequenced.submitted ticket ?_) ?_
      · rw [hsplit, ticketsOf_append]
        exact List.mem_append_left _ hticket
      · rw [State.pending, hphase]
        exact fun hqueued => (List.nodup_append'.mp htickets).2.2 hticket hqueued
    · intro ticket hqueued
      show ticket ∉ state.ledger.counted.take state.backend.droppedWrites
      rw [htake]
      exact haccounted.not_counted_of_queued hqueued

/-- The drain fails every barrier that is left. -/
theorem State.Fenced.drain (h : state.Fenced) (hsequenced : state.Sequenced)
    {items : List QueueItem} {uncommitted : ℕ} {error : String}
    (hphase : state.phase = .crashed items uncommitted error) :
    (state.drain items uncommitted error).Fenced := by
  have hheld : state.held = items ++ state.queue := by rw [State.held, hphase]; rfl
  have hextends : state.ledger.Extends (state.drain items uncommitted error).ledger :=
    .of_eq rfl (List.Subset.refl _) (List.prefix_append _ _)
  refine @State.Fenced.finishItems { state with
    backend := { state.backend with
      droppedWrites := state.backend.droppedWrites
        + (uncommitted + (state.queue.countP fun item => !item.isFlush))
      lastError := some error } } (state.drain items uncommitted error)
    (h.congr (.of_eq rfl (List.Subset.refl _) (List.prefix_refl _)) rfl rfl rfl rfl
      (fun _ hmem => hmem) fun _ hmem => hmem) (items ++ state.queue) true hextends rfl rfl rfl
      (fun _ => rfl) rfl ?_ (fun _ hmem => absurd hmem List.not_mem_nil)
      (fun _ _ hfailed => absurd hfailed.symm Bool.false_ne_true) (fun _ => rfl)
  intro call hmem
  rw [← hheld] at hmem
  exact ⟨hmem, hsequenced.held.subset hmem⟩

/-- Every step keeps what holds of the calls. -/
theorem State.Fenced.step {event : Event} (h : state.Fenced) (haccounted : state.Accounted)
    (hsequenced : state.Sequenced) (hstep : History.step state event = some next) :
    next.Fenced := by
  have hextends := haccounted.extends hstep
  cases step_change hstep with
  | moves hmoves =>
    exact h.congr hextends hmoves.flushes hmoves.nextFlush hmoves.flushedDrops
      hmoves.writerFailed (fun _ hmem => hmoves.held ▸ hmem) fun _ hmem => hmoves.ledger ▸ hmem
  | enqueue item =>
    have hput : ∀ call (items : List QueueItem),
        .flush call ∈ items ++ [.write state.ledger.submitted item] → .flush call ∈ items := by
      intro call items hmem
      rcases List.mem_append.mp hmem with hin | hlast
      · exact hin
      · cases List.mem_singleton.mp hlast
    revert hextends
    unfold State.enqueue
    have hreject : ∀ error, state.ledger.Extends
        (state.reject state.ledger.submitted error).ledger →
        (state.reject state.ledger.submitted error).Fenced :=
      fun error hextends => h.congr hextends rfl rfl rfl rfl (fun _ hmem => hmem)
        fun _ hmem => hmem
    split
    · exact hreject _
    · split
      · exact hreject _
      · split
        · intro hextends
          refine h.congr hextends rfl rfl rfl rfl (fun call hmem => ?_) fun call => hput call _
          refine hput call state.held ?_
          rw [State.held, List.append_assoc]
          exact hmem
        · exact hreject _
  | flushBegin => exact h.flushBegin
  | flushPut hcall hstage => exact h.flushPut hcall hstage
  | flushTimeout hcall hstage => exact h.gaveUp hcall hstage
  | flushReturn hcall hstage hcompleted => exact h.flushReturn hcall hstage hcompleted
  | @commit items trace hphase =>
    have hsame : (state.commit items trace).flushes = state.flushes
        ∧ (state.commit items trace).nextFlush = state.nextFlush
        ∧ (state.commit items trace).flushedDrops = state.flushedDrops
        ∧ (state.commit items trace).writerFailed = state.writerFailed
        ∧ (state.commit items trace).held = state.held
        ∧ (state.commit items trace).ledger.accepted = state.ledger.accepted := by
      unfold State.commit State.held Ledger.settle
      rw [hphase]
      dsimp only
      split
      · exact ⟨rfl, rfl, rfl, rfl, rfl, rfl⟩
      · refine ⟨rfl, rfl, rfl, rfl, rfl, ?_⟩
        dsimp only
        split <;> rfl
    obtain ⟨hflushes, hnext, hdrops, hfailed, hheld, haccepted⟩ := hsame
    exact h.congr hextends hflushes hnext hdrops hfailed (fun _ hmem => hheld ▸ hmem)
      fun _ hmem => haccepted ▸ hmem
  | finish hphase => exact h.finish haccounted hsequenced hphase
  | drain hphase => exact h.drain hsequenced hphase

end

/-! ### Runs -/

/-- A call of `flush` saw its barrier completed, and returned. -/
def State.Returned (state : State) (call : ℕ) (result : Bool) : Prop :=
  ∃ flush, state.flushes.get? call = some flush ∧ flush.stage = .returned result

/-- A write was accepted before the barrier of a call, and after the last barrier before it
whose call returned. -/
def State.Covers (state : State) (call ticket : ℕ) : Prop :=
  ∃ before item between after,
    state.ledger.accepted = before ++ .write ticket item :: (between ++ .flush call :: after)
      ∧ ∀ earlier result, .flush earlier ∈ between → ¬ state.Returned earlier result

/-- No write is lost in silence. -/
structure State.NoSilentLoss (state : State) : Prop where
  /-- `droppedWrites` is the number of the counted writes. -/
  counter : state.backend.droppedWrites = state.ledger.counted.length
  /-- Every submitted write is pending, committed with all its points or counted, and it is so
  once. -/
  once : ∀ ticket < state.ledger.submitted, state.pending.count ticket
    + (state.ledger.committed.count ticket + state.ledger.counted.count ticket) = 1
  /-- Nothing is pending when the writer has ended. -/
  ended : state.phase = .exited → state.pending = []
  /-- What is pending is in the hands of a writer that goes on. -/
  continues : state.pending ≠ [] → ∃ event next, writerStep state event = some next
  /-- A call that returned True had all its writes committed. -/
  flushed : ∀ call ticket, state.Returned call true → state.Covers call ticket →
    ticket ∈ state.ledger.committed
  /-- The acknowledged losses are the largest number that a call returned with. A call that
  gave up acknowledged nothing. -/
  acknowledged : (∀ call flush result, state.flushes.get? call = some flush →
      flush.stage = .returned result → flush.barrier.dropped ≤ state.flushedDrops)
    ∧ (state.flushedDrops = 0 ∨ ∃ call flush result, state.flushes.get? call = some flush
      ∧ flush.stage = .returned result ∧ flush.barrier.dropped = state.flushedDrops)

/-- Where the writer ends at the stop flag, no write is queued. -/
def State.Drains (state : State) (event : Event) : Prop :=
  event = .checkStop → state.stopRequested = true → ticketsOf state.queue = []

instance (state : State) (event : Event) : Decidable (state.Drains event) := by
  unfold State.Drains
  infer_instance

/-- What holds in every run: the account, the order and the barriers. -/
structure State.Sound (state : State) : Prop where
  accounted : state.Accounted
  sequenced : state.Sequenced
  fenced : state.Fenced

section
variable {state next : State} {event : Event}

theorem State.Sound.create (start : Startup) (db : Database) : (State.create start db).Sound :=
  ⟨.create start db, .create start db, .create start db⟩

theorem State.Sound.step (h : state.Sound) (hstep : History.step state event = some next) :
    next.Sound where
  accounted := h.accounted.step hstep
  sequenced := by
    refine h.sequenced.step ?_ hstep
    intro call flush hcall hstage hmem
    obtain ⟨other, hother, hplaced⟩ := h.fenced.known call hmem
    rw [hcall] at hother
    cases hother
    exact hplaced hstage
  fenced := h.fenced.step h.accounted h.sequenced hstep

/-- A writer that has ended left no write in the queue. -/
def State.Emptied (state : State) : Prop := state.phase = .exited → ticketsOf state.queue = []

theorem State.Emptied.step (h : state.Emptied) (hdrains : state.Drains event)
    (hstep : History.step state event = some next) : next.Emptied := by
  intro hphase
  cases step_change hstep with
  | moves hmoves =>
    obtain ⟨hqueue, hexits⟩ := hmoves.exits hphase
    rw [hqueue]
    exact hexits.elim h fun hstop => hdrains hstop.1 hstop.2
  | enqueue item =>
    have hended : state.phase = .exited := by
      revert hphase
      unfold State.enqueue
      dsimp only
      split
      · exact id
      · split
        · exact id
        · split <;> exact id
    -- An ended writer is not alive, and the write is refused.
    have hrefused : (state.enqueue item).queue = state.queue := by
      unfold State.enqueue
      rw [hended]
      dsimp only
      split
      · rfl
      · rw [if_pos (by simp [Phase.isAlive])]
        rfl
    rw [hrefused]
    exact h hended
  | flushBegin | flushTimeout | flushReturn => exact h hphase
  | flushPut =>
    revert hphase
    unfold State.flushPut
    split
    · exact h
    · split
      · intro hphase
        show ticketsOf (state.queue ++ [.flush _]) = []
        rw [ticketsOf_append, h hphase]
        rfl
      · exact h
  | commit trace hcommitting =>
    revert hphase
    unfold State.commit
    dsimp only
    split <;> exact nofun
  | finish => cases hphase
  | drain => rfl

/-- A call that returned True had all its writes committed. -/
theorem State.Sound.flushed (h : state.Sound) {call ticket : ℕ} (hreturned : state.Returned call true)
    (hcovers : state.Covers call ticket) : ticket ∈ state.ledger.committed := by
  obtain ⟨flush, hcall, hstage⟩ := hreturned
  obtain ⟨before, item, between, after, haccepted, hbetween⟩ := hcovers
  have hsound := h.fenced.sound call flush hcall
  obtain ⟨hcompleted, hresult, _⟩ := hsound.returned true hstage
  have hresult := Bool.and_eq_true_iff.mp hresult.symm
  have hfailure : flush.barrier.failed = false := by simpa using hresult.1
  have hdropped : flush.barrier.dropped = flush.droppedBefore := by simpa using hresult.2
  obtain ⟨first, last, hsplit, hsettled, _⟩ := (hsound.fences hcompleted hfailure).settled
  have hplace : state.ledger.accepted
      = (before ++ .write ticket item :: between) ++ .flush call :: after := by
    rw [haccepted, List.append_assoc, List.cons_append]
  have hfirst := (split_unique h.sequenced.nodup hplace hsplit).1
  have hticket : ticket ∈ ticketsOf first := by
    rw [← hfirst, ticketsOf_append, ticketsOf_write]
    exact List.mem_append_right _ List.mem_cons_self
  -- It is committed or was counted when the barrier was completed. It was not counted: no loss
  -- was, since the barrier that the call starts from.
  refine (hsettled ticket hticket).resolve_right ?_
  rw [hdropped]
  rcases hsound.since with hzero | ⟨earlier, done, result, hdone, hdonestage, hdonefailure, heq,
    start, rest, hstart, hnot⟩ | ⟨_, hnot⟩
  · rw [hzero, List.take_zero]
    exact List.not_mem_nil
  · have hdonecompleted := ((h.fenced.sound earlier done hdone).returned result hdonestage).1
    obtain ⟨front, back, hfront, _, hback⟩ :=
      ((h.fenced.sound earlier done hdone).fences hdonecompleted hdonefailure).settled
    rw [← heq]
    refine hback ticket ?_
    rw [← (split_unique h.sequenced.nodup hstart hfront).2]
    -- The earlier barrier was accepted before the call's own, and not in between.
    have hcut : (start ++ [.flush earlier]) ++ rest
        = (before ++ .write ticket item :: between) ++ .flush call :: after := by
      rw [← hplace, hstart, List.append_assoc, List.singleton_append]
    obtain ⟨more, hmore, hrest⟩ := split_of_not_mem_left hcut hnot
    have houtside : .flush earlier ∉ .write ticket item :: between := by
      intro hin
      rcases List.mem_cons.mp hin with heq | hin
      · cases heq
      · exact hbetween earlier result hin ⟨done, hdone, hdonestage⟩
    rw [List.append_assoc, List.singleton_append] at hmore
    obtain ⟨behind, hbehind, _⟩ := split_of_not_mem_right hmore houtside
    rw [hrest, hbehind, ticketsOf_append, ticketsOf_append, ticketsOf_write]
    exact List.mem_append_left _ (List.mem_append_right _ List.mem_cons_self)
  · refine absurd ?_ hnot
    rw [hplace]
    exact List.mem_append_right _ List.mem_cons_self

/-- A writer that has not ended can take a step. -/
theorem exists_writerStep (h : state.phase ≠ .exited) :
    ∃ event next, writerStep state event = some next := by
  have hsome : ∃ event, (writerStep state event).isSome = true := by
    cases hphase : state.phase with
    | connecting => exact ⟨.connect true, by simp [writerStep, hphase]⟩
    | reading =>
      refine ⟨.read, ?_⟩
      cases hqueue : state.queue <;> simp [writerStep, hphase, hqueue]
    | sawEmpty => exact ⟨.checkStop, by simp [writerStep, hphase]⟩
    | idle => exact ⟨.skipPrune, by simp [writerStep, hphase]⟩
    | collecting items =>
      refine ⟨.readMore, ?_⟩
      cases hqueue : state.queue with
      | nil => simp [writerStep, hphase, hqueue]
      | cons item rest =>
        simp only [writerStep, hphase, hqueue]
        split <;> rfl
    | committing items =>
      exact ⟨.commit ⟨.succeeds, "", none, .succeeds, ""⟩, by simp [writerStep, hphase]⟩
    | committed items => exact ⟨.skipPrune, by simp [writerStep, hphase]⟩
    | finishing items => exact ⟨.finish, by simp [writerStep, hphase]⟩
    | crashed items uncommitted error => exact ⟨.drain, by simp [writerStep, hphase]⟩
    | exited => exact absurd hphase h
  exact hsome.imp fun _ => Option.isSome_iff_exists.mp

theorem State.Sound.noSilentLoss (h : state.Sound) (hemptied : state.Emptied) :
    state.NoSilentLoss where
  counter := h.accounted.counter
  once := fun ticket hlt => (h.accounted.once ticket).trans (if_pos hlt)
  ended := by
    intro hphase
    rw [State.pending, hphase, hemptied hphase]
    rfl
  continues := by
    intro hpending
    refine exists_writerStep fun hphase => hpending ?_
    rw [State.pending, hphase, hemptied hphase]
    rfl
  flushed := fun _ _ hreturned hcovers => h.flushed hreturned hcovers
  acknowledged := ⟨fun call flush result hcall hstage =>
    ((h.fenced.sound call flush hcall).returned result hstage).2.2, h.fenced.acknowledged⟩

end

section
variable {start : Startup} {db : Database} {events : List Event} {state : State}

/-- The states that a run of the history reaches. -/
abbrev Run (start : Startup) (db : Database) : List Event → State → Prop :=
  RunWhere step (fun _ _ => True) (.create start db)

theorem Run.sound (hrun : Run start db events state) : state.Sound :=
  hrun.invariant (.create start db) fun _ _ _ h _ hstep => h.step hstep

/-- After a run that drains, the next step keeps every write in sight exactly when the writer does
not end at the stop flag with a write in the queue. -/
theorem noSilentLoss_iff_drains {next : State} {event : Event}
    (hdrains : RunWhere step State.Drains (.create start db) events state)
    (hstep : step state event = some next) : next.NoSilentLoss ↔ state.Drains event := by
  have hrun : Run start db events state := hdrains.mono fun _ _ _ => trivial
  constructor
  · -- Otherwise the writer has ended with a write in the queue, and the write is pending.
    intro hlost hcheck hstop
    subst hcheck
    cases hphase : state.phase with
    | sawEmpty =>
      simp only [step, writerStep, hphase, hstop, if_true] at hstep
      cases hstep
      exact hlost.ended rfl
    | _ => simp [step, writerStep, hphase] at hstep
  · intro hallowed
    have hnext : RunWhere step State.Drains (.create start db) (events ++ [event]) next :=
      .snoc hdrains hallowed hstep
    refine (Run.sound (hnext.mono fun _ _ _ => trivial)).noSilentLoss ?_
    exact hnext.invariant (fun hphase => by cases hphase) fun _ _ _ h hallowed hstep =>
      h.step hallowed hstep

/-- Every state of a run keeps every write in sight exactly when the writer ends at the stop
flag only where no write is queued. -/
theorem no_silent_loss_iff (hrun : Run start db events state) :
    (∀ earlier later middle, events = earlier ++ later → Run start db earlier middle →
      middle.NoSilentLoss) ↔ RunWhere step State.Drains (.create start db) events state := by
  refine hrun.good_iff ?_ noSilentLoss_iff_drains
  exact (Run.sound .nil).noSilentLoss fun hphase => by cases hphase

end

/-- A database without records. -/
private def noRecords : Database := ⟨⟨∅, ∅⟩, ⟨∅, ∅, ∅, ∅, none⟩⟩

/-- A start of the process on it. -/
private def firstLaunch : Startup where
  clock := ⟨"2026-01-01T00:00:00Z", "2026-01-01T00:00:00Z", true⟩
  companionsBefore := true
  companionsEnabled := true
  rollupsEnabled := true
  busyPct := 10

private def lands : BatchTrace := ⟨.succeeds, "2026-01-01T00:00:00Z", none, .succeeds, ""⟩

/-- A write and a flush, and the end of the writer. -/
private def oneFlush : List Event :=
  [.connect true, .enqueue (.history "node-a"), .flushBegin, .flushPut 0, .read, .readMore,
    .commit lands, .skipPrune, .finish, .flushReturn 0, .read, .close, .checkStop]

/-- The flush of a committed write returns True, and nothing is left behind. -/
theorem no_silent_loss_iff_oneFlush :
    ∃ state, Run firstLaunch noRecords oneFlush state ∧ state.NoSilentLoss
      ∧ state.Returned 0 true ∧ state.ledger.committed = [0] ∧ state.phase.isAlive = false := by
  have hreached : (execute step State.Drains (.create firstLaunch noRecords) oneFlush).any
      (fun state => (state.flushes.get? 0).any (fun flush => flush.stage = .returned true)
        && decide (state.ledger.committed = [0]) && !state.phase.isAlive) = true := by
    decide +kernel
  obtain ⟨state, hstate, hcheck⟩ := (Option.any_eq_true _ _).mp hreached
  simp only [Bool.and_eq_true, decide_eq_true_eq, Bool.not_eq_true'] at hcheck
  obtain ⟨⟨hflush, hcommitted⟩, hended⟩ := hcheck
  obtain ⟨flush, hcall, hstage⟩ := (Option.any_eq_true _ _).mp hflush
  have hdrains := runWhere_of_execute hstate
  have hrun : Run firstLaunch noRecords oneFlush state := hdrains.mono fun _ _ _ => trivial
  have hloss := (no_silent_loss_iff hrun).mpr hdrains oneFlush [] state rfl hrun
  exact ⟨state, hrun, hloss, ⟨flush, hcall, of_decide_eq_true hstage⟩, hcommitted, hended⟩

/-- A write is queued after the writer found the queue empty, and before it looks at the stop
flag. -/
private def lateWrite : List Event :=
  [.connect true, .read, .enqueue (.history "node-a"), .close, .checkStop]

/-- The writer ends at the stop flag. The write stays in the queue: it is not committed, and not
counted. -/
theorem lateWrite_lost :
    ∃ state, Run firstLaunch noRecords lateWrite state ∧ state.phase.isAlive = false
      ∧ state.ledger.submitted = 1 ∧ state.ledger.committed = [] ∧ state.ledger.counted = []
      ∧ state.backend.droppedWrites = 0 ∧ ¬ state.NoSilentLoss := by
  have hreached : (execute step (fun _ _ => True) (.create firstLaunch noRecords) lateWrite).any
      (fun state => !state.phase.isAlive && decide (state.ledger.submitted = 1)
        && decide (state.ledger.committed = []) && decide (state.ledger.counted = [])
        && decide (state.backend.droppedWrites = 0)
        && decide (state.pending = [0])) = true := by
    decide +kernel
  obtain ⟨state, hstate, hcheck⟩ := (Option.any_eq_true _ _).mp hreached
  simp only [Bool.and_eq_true, decide_eq_true_eq, Bool.not_eq_true'] at hcheck
  obtain ⟨⟨⟨⟨⟨hended, hsubmitted⟩, hcommitted⟩, hcounted⟩, hdropped⟩, hpending⟩ := hcheck
  refine ⟨state, runWhere_of_execute hstate, hended, hsubmitted, hcommitted, hcounted, hdropped,
    fun hloss => ?_⟩
  have hphase : state.phase = .exited := by
    cases hphase : state.phase with
    | exited => rfl
    | _ => simp [Phase.isAlive, hphase] at hended
  rw [hloss.ended hphase] at hpending
  cases hpending

end Mocop.History
