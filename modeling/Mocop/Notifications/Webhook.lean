import Mocop.Incidents.Types
import Mathlib.Data.List.Infix

/-!
# `Mocop.Notifications.Webhook`: the delivery worker of one endpoint

A worker takes the published events in order and delivers each with bounded retries. It
remembers the conditions that the receiver has seen open, in a table of bounded size, and
withholds a recovery for a condition that is not in the table. Once the table has evicted an
entry, its silence proves nothing, and no recovery is withheld any more.

What the sockets and the clock do to one delivery is a `Script`. A `Session` is a worker with
the log of what became of every item it took. `webhook_pairing` says when a recovery is
withheld, for every order of publications and deliveries; `Session.Paired` is the invariant
behind it, and `Receiver` says what the receiver knows, read off the log.
-/

set_option autoImplicit false

namespace Mocop

attribute [local instance] lawfulBEq_identity

/-! ### The worker -/

/-- `_WEBHOOK_QUEUE_CAPACITY` -/
def webhookQueueCapacity : ℕ := 1024

/-- `_WEBHOOK_SEEN_CAPACITY` -/
@[irreducible] def webhookSeenCapacity : ℕ := 4096

/-- A published event, or a test of the endpoint. -/
structure NotificationEnvelope where
  event : IncidentEvent
  isTest : Bool := false

/-- The condition that an envelope is about. -/
def NotificationEnvelope.conditionKey (item : NotificationEnvelope) : String × String :=
  (item.event.host, item.event.condition.key)

/-- What the worker reads of the endpoint's configuration. -/
structure WebhookConfig where
  events : List IncidentState
  maxAttempts : ℕ

/-- What the sender reports. -/
structure DeliveryResult where
  success : Bool
  retryable : Bool
  errorCode : Option String

/-- What happens at one attempt: whether the worker is stopped while it waits, whether the
event is still actionable then, and how the delivery ends. -/
structure DeliveryAttempt where
  stopped : Bool
  actionable : Bool
  result : DeliveryResult

/-- The attempts of one delivery. -/
abbrev Script := ℕ → DeliveryAttempt

/-- What became of an item. -/
inductive Fate where
  | stopped
  | unpaired
  | delivered
  | suppressed
  | dropped (errorCode : String)
  deriving DecidableEq

/-- A worker. `seen` are the latest accepted event ids, oldest first, and `activeConditions`
the conditions that the receiver has seen open, least recent first. -/
structure WebhookWorker where
  queue : List NotificationEnvelope := []
  seen : List ℕ := []
  closed : Bool := false
  running : Bool := true
  dropped : ℕ := 0
  suppressed : ℕ := 0
  delivered : ℕ := 0
  lastError : Option String := none
  activeConditions : List (String × String) := []
  pairingSaturated : Bool := false

/-- The last items of a list, as many as the capacity. -/
def latest {α : Type} (capacity : ℕ) (items : List α) : List α :=
  items.drop (items.length - capacity)

/-- A new worker. The conditions that were open at startup were delivered by an earlier
process. -/
def WebhookWorker.start (knownConditions : List (String × String)) : WebhookWorker :=
  let conditions := knownConditions.foldl (fun table key =>
    if key ∈ table then table else table ++ [key]) []
  { activeConditions := latest webhookSeenCapacity conditions
    pairingSaturated := webhookSeenCapacity < conditions.length }

section Worker

variable (config : WebhookConfig)

/-- Accepts an event into the queue. -/
def WebhookWorker.publish (worker : WebhookWorker) (envelope : NotificationEnvelope) :
    WebhookWorker :=
  if envelope.event.state ∉ config.events then worker
  else if worker.closed then
    { worker with
      dropped := worker.dropped + 1, lastError := some "notification endpoint is closed" }
  else if envelope.event.eventId ∈ worker.seen then worker
  else if webhookQueueCapacity ≤ worker.queue.length then
    { worker with dropped := worker.dropped + 1, lastError := some "delivery queue is full" }
  else
    { worker with
      queue := worker.queue ++ [envelope]
      seen := latest webhookSeenCapacity (worker.seen ++ [envelope.event.eventId]) }

/-- Accepts a test into the queue. -/
def WebhookWorker.queueTest (worker : WebhookWorker) (event : IncidentEvent) : WebhookWorker :=
  if worker.closed ∨ webhookQueueCapacity ≤ worker.queue.length then worker
  else { worker with queue := worker.queue ++ [{ event := event, isTest := true }] }

/-- Tries to deliver an item, `remaining` times at most. -/
def attemptDelivery (item : NotificationEnvelope) (script : Script) :
    ℕ → ℕ → String → Fate
  | 0, _, lastErrorCode => .dropped lastErrorCode
  | remaining + 1, attempt, _ =>
    let outcome := script attempt
    if outcome.stopped then .stopped
    else if !(item.isTest || outcome.actionable) then .suppressed
    else if outcome.result.success then .delivered
    else
      let errorCode := outcome.result.errorCode.getD "delivery_failed"
      if outcome.result.retryable then
        attemptDelivery item script remaining (attempt + 1) errorCode
      else .dropped errorCode

/-- Whether the deliveries of an item are paired. -/
def isPaired (item : NotificationEnvelope) : Bool :=
  !item.isTest && config.events.contains .opened && config.events.contains .resolved

/-- Whether a recovery is withheld: the receiver never saw the condition open. -/
def WebhookWorker.isUnpaired (worker : WebhookWorker) (item : NotificationEnvelope) : Bool :=
  isPaired config item && item.event.state = .resolved
    && !worker.activeConditions.contains item.conditionKey && !worker.pairingSaturated

/-- What becomes of an item. -/
def WebhookWorker.fate (worker : WebhookWorker) (item : NotificationEnvelope) (script : Script) :
    Fate :=
  if worker.isUnpaired config item then .unpaired
  else attemptDelivery item script config.maxAttempts 0 "delivery_failed"

/-- Notes that the receiver has seen a condition open. -/
def WebhookWorker.remember (worker : WebhookWorker) (key : String × String) : WebhookWorker :=
  let table := worker.activeConditions.erase key ++ [key]
  { worker with
    activeConditions := latest webhookSeenCapacity table
    pairingSaturated := worker.pairingSaturated || decide (webhookSeenCapacity < table.length) }

/-- Notes what became of an item. -/
def WebhookWorker.settle (worker : WebhookWorker) (item : NotificationEnvelope) (fate : Fate) :
    WebhookWorker :=
  match fate with
  | .stopped => { worker with running := false }
  | .unpaired | .suppressed => { worker with suppressed := worker.suppressed + 1 }
  | .dropped errorCode =>
    { worker with dropped := worker.dropped + 1, lastError := some errorCode }
  | .delivered =>
    let worker := { worker with delivered := worker.delivered + 1, lastError := none }
    if !isPaired config item then worker
    else if item.event.state = .resolved then
      { worker with activeConditions := worker.activeConditions.erase item.conditionKey }
    else worker.remember item.conditionKey

/-! ### Sessions -/

/-- A worker and what became of every item it took. -/
structure Session where
  worker : WebhookWorker
  log : List (NotificationEnvelope × Fate) := []

/-- What happens at an endpoint, in any order. -/
inductive EndpointStep where
  | publish (envelope : NotificationEnvelope)
  | queueTest (event : IncidentEvent)
  | deliver (script : Script)
  | close

/-- One step. -/
def Session.step (session : Session) : EndpointStep → Session
  | .publish envelope => { session with worker := session.worker.publish config envelope }
  | .queueTest event => { session with worker := session.worker.queueTest event }
  | .close => { session with worker := { session.worker with closed := true } }
  | .deliver script =>
    if !session.worker.running then session
    else
      match session.worker.queue with
      | [] => session
      | item :: rest =>
        let fate := session.worker.fate config item script
        { worker := { session.worker with queue := rest }.settle config item fate
          log := session.log ++ [(item, fate)] }

/-- A session of an endpoint from its start. -/
def Session.run (knownConditions : List (String × String)) (steps : List EndpointStep) : Session :=
  steps.foldl (Session.step config) { worker := .start knownConditions }

end Worker

/-! ### What the receiver knows -/

/-- Whether the receiver has a condition open after one more item: a delivered recovery closes
it, any other delivered transition opens it. -/
def Receiver.learn (key : String × String) (isOpen : Bool)
    (entry : NotificationEnvelope × Fate) : Bool :=
  if entry.2 = .delivered ∧ entry.1.isTest = false ∧ entry.1.conditionKey = key then
    decide (entry.1.event.state ≠ .resolved)
  else isOpen

/-- Whether the receiver has a condition open: it was known at startup or delivered as open,
and its recovery has not been delivered since. -/
def Receiver.hasOpen (knownConditions : List (String × String))
    (log : List (NotificationEnvelope × Fate)) (key : String × String) : Bool :=
  log.foldl (Receiver.learn key) (knownConditions.contains key)

/-- The table holds only conditions that the receiver has open, and all of them until it
evicts one. -/
structure Session.Paired (knownConditions : List (String × String)) (session : Session) :
    Prop where
  sound : ∀ key ∈ session.worker.activeConditions,
    Receiver.hasOpen knownConditions session.log key = true
  complete : session.worker.pairingSaturated = false → ∀ key,
    Receiver.hasOpen knownConditions session.log key = true →
    key ∈ session.worker.activeConditions
  bounded : session.worker.activeConditions.length ≤ webhookSeenCapacity
  nodup : session.worker.activeConditions.Nodup

/-! ### The invariant -/

theorem length_latest_le {α : Type} (capacity : ℕ) (items : List α) :
    (latest capacity items).length ≤ capacity := by
  rw [latest, List.length_drop]
  omega

theorem latest_sublist {α : Type} (capacity : ℕ) (items : List α) :
    (latest capacity items).Sublist items := List.drop_sublist _ _

theorem mem_of_mem_latest {α : Type} {capacity : ℕ} {items : List α} {a : α}
    (h : a ∈ latest capacity items) : a ∈ items := List.mem_of_mem_drop h

/-- A list within the capacity is kept whole. -/
theorem latest_of_le {α : Type} {capacity : ℕ} {items : List α} (h : items.length ≤ capacity) :
    latest capacity items = items := by
  rw [latest, Nat.sub_eq_zero_of_le h, List.drop_zero]

/-- The receiver after one more item. -/
theorem hasOpen_append (knownConditions : List (String × String))
    (log : List (NotificationEnvelope × Fate)) (entry : NotificationEnvelope × Fate)
    (key : String × String) :
    Receiver.hasOpen knownConditions (log ++ [entry]) key
      = Receiver.learn key (Receiver.hasOpen knownConditions log key) entry := by
  rw [Receiver.hasOpen, List.foldl_append]
  rfl

/-- The table of the known conditions holds exactly these. -/
theorem foldl_known (knownConditions table : List (String × String)) (htable : table.Nodup) :
    (knownConditions.foldl (fun table key => if key ∈ table then table else table ++ [key])
      table).Nodup
    ∧ ∀ key, key ∈ knownConditions.foldl (fun table key =>
        if key ∈ table then table else table ++ [key]) table
      ↔ key ∈ table ∨ key ∈ knownConditions := by
  induction knownConditions generalizing table with
  | nil => simpa using htable
  | cons first rest ih =>
    rw [List.foldl_cons]
    by_cases hfirst : first ∈ table
    · obtain ⟨hnodup, hmem⟩ := ih table htable
      rw [if_pos hfirst]
      refine ⟨hnodup, fun key => ?_⟩
      rw [hmem, List.mem_cons]
      constructor
      · rintro (h | h)
        · exact .inl h
        · exact .inr (.inr h)
      · rintro (h | rfl | h)
        · exact .inl h
        · exact .inl hfirst
        · exact .inr h
    · have hnext : (table ++ [first]).Nodup :=
        List.nodup_append.mpr ⟨htable, List.nodup_singleton _, fun a ha b hb heq =>
          hfirst (List.mem_singleton.mp hb ▸ heq ▸ ha)⟩
      obtain ⟨hnodup, hmem⟩ := ih _ hnext
      rw [if_neg hfirst]
      refine ⟨hnodup, fun key => ?_⟩
      rw [hmem, List.mem_append, List.mem_singleton, List.mem_cons, or_assoc]

/-- A new session is paired. -/
theorem Session.paired_start (knownConditions : List (String × String)) :
    Session.Paired knownConditions { worker := .start knownConditions } := by
  obtain ⟨hnodup, hmem⟩ := foldl_known knownConditions [] List.nodup_nil
  have htable : (WebhookWorker.start knownConditions).activeConditions
      = latest webhookSeenCapacity (knownConditions.foldl (fun table key =>
        if key ∈ table then table else table ++ [key]) []) := rfl
  refine ⟨fun key hkey => ?_, fun hsaturated key hkey => ?_, ?_, ?_⟩
  · have hknown := (hmem key).mp (mem_of_mem_latest hkey)
    simpa [Receiver.hasOpen] using hknown
  · have hknown : key ∈ knownConditions := by simpa [Receiver.hasOpen] using hkey
    have hle : (knownConditions.foldl (fun table key =>
        if key ∈ table then table else table ++ [key]) []).length ≤ webhookSeenCapacity :=
      Nat.le_of_not_lt (of_decide_eq_false hsaturated)
    rw [htable, latest_of_le hle]
    exact (hmem key).mpr (.inr hknown)
  · rw [htable]
    exact length_latest_le _ _
  · rw [htable]
    exact hnodup.sublist (latest_sublist _ _)

section Invariant

variable {config : WebhookConfig} {knownConditions : List (String × String)}

/-- The invariant reads the table and the log alone. -/
theorem Session.Paired.congr {session other : Session} (h : session.Paired knownConditions)
    (htable : other.worker.activeConditions = session.worker.activeConditions)
    (hsaturated : other.worker.pairingSaturated = session.worker.pairingSaturated)
    (hopen : ∀ key, Receiver.hasOpen knownConditions other.log key
      = Receiver.hasOpen knownConditions session.log key) : other.Paired knownConditions := by
  refine ⟨?_, ?_, ?_, ?_⟩
  · simp only [htable, hopen]
    exact h.sound
  · simp only [htable, hopen, hsaturated]
    exact h.complete
  · rw [htable]
    exact h.bounded
  · rw [htable]
    exact h.nodup

/-- An item that was not delivered teaches the receiver nothing. -/
theorem hasOpen_append_of_ne {log : List (NotificationEnvelope × Fate)}
    {item : NotificationEnvelope} {fate : Fate} (hfate : fate ≠ .delivered)
    (key : String × String) :
    Receiver.hasOpen knownConditions (log ++ [(item, fate)]) key
      = Receiver.hasOpen knownConditions log key := by
  rw [hasOpen_append, Receiver.learn, if_neg fun h => hfate h.1]

/-- A delivered item keeps the table paired with the receiver. -/
theorem Session.Paired.delivered {session : Session} (h : session.Paired knownConditions)
    (hopened : .opened ∈ config.events) (hresolved : .resolved ∈ config.events)
    (rest : List NotificationEnvelope) (item : NotificationEnvelope) :
    Session.Paired knownConditions
      { worker := { session.worker with queue := rest }.settle config item .delivered
        log := session.log ++ [(item, .delivered)] } := by
  have hpaired : isPaired config item = !item.isTest := by
    simp [isPaired, hopened, hresolved]
  have hlearn : ∀ key, Receiver.hasOpen knownConditions (session.log ++ [(item, .delivered)]) key
      = if item.isTest = false ∧ item.conditionKey = key then
          decide (item.event.state ≠ .resolved)
        else Receiver.hasOpen knownConditions session.log key := by
    intro key
    rw [hasOpen_append, Receiver.learn]
    simp
  unfold WebhookWorker.settle
  cases htest : item.isTest with
  | true =>
    simp only [hpaired, htest, Bool.not_true, Bool.not_false, if_true]
    exact h.congr rfl rfl fun key => by simp [hlearn, htest]
  | false =>
    simp only [hpaired, htest, Bool.not_false, Bool.not_true, Bool.false_eq_true, if_false]
    simp only [htest, true_and] at hlearn
    by_cases hstate : item.event.state = .resolved
    · -- A delivered recovery: the receiver closes the condition, and so does the table.
      rw [if_pos hstate]
      have hmem : ∀ key, key ∈ session.worker.activeConditions.erase item.conditionKey
          ↔ key ≠ item.conditionKey ∧ key ∈ session.worker.activeConditions := fun key =>
        h.nodup.mem_erase_iff
      refine ⟨fun key hkey => ?_, fun hsaturated key hkey => ?_,
        (List.length_erase_le).trans h.bounded, h.nodup.erase _⟩
      · obtain ⟨hne, hold⟩ := (hmem key).mp hkey
        rw [hlearn, if_neg (Ne.symm hne)]
        exact h.sound key hold
      · rw [hlearn] at hkey
        split at hkey
        · simp [hstate] at hkey
        · next hne => exact (hmem key).mpr ⟨Ne.symm hne, h.complete hsaturated key hkey⟩
    · -- Any other transition opens the condition on both sides, unless the table evicts.
      rw [if_neg hstate]
      have htable : (session.worker.activeConditions.erase item.conditionKey
          ++ [item.conditionKey]).Nodup :=
        List.nodup_append.mpr ⟨h.nodup.erase _, List.nodup_singleton _, fun a ha b hb heq =>
          h.nodup.not_mem_erase (List.mem_singleton.mp hb ▸ heq ▸ ha)⟩
      have hopen : ∀ key, Receiver.hasOpen knownConditions
          (session.log ++ [(item, .delivered)]) key = true
            ↔ item.conditionKey = key
              ∨ Receiver.hasOpen knownConditions session.log key = true := by
        intro key
        rw [hlearn]
        by_cases hkey : item.conditionKey = key <;> simp [hkey, hstate]
      unfold WebhookWorker.remember
      refine ⟨fun key hkey => ?_, fun hsaturated key hkey => ?_, ?_, ?_⟩
      · rw [hopen]
        rcases List.mem_append.mp (mem_of_mem_latest hkey) with hold | hlast
        · exact .inr (h.sound key (List.mem_of_mem_erase hold))
        · exact .inl (List.mem_singleton.mp hlast).symm
      · have hflags : session.worker.pairingSaturated = false
            ∧ (session.worker.activeConditions.erase item.conditionKey
              ++ [item.conditionKey]).length ≤ webhookSeenCapacity := by
          have hflag : (session.worker.pairingSaturated || decide (webhookSeenCapacity
            < (session.worker.activeConditions.erase item.conditionKey
              ++ [item.conditionKey]).length)) = false := hsaturated
          simpa only [Bool.or_eq_false_iff, decide_eq_false_iff_not, Nat.not_lt] using hflag
        show key ∈ latest webhookSeenCapacity _
        rw [latest_of_le hflags.2, List.mem_append, List.mem_singleton]
        by_cases hsame : key = item.conditionKey
        · exact .inr hsame
        · rcases (hopen key).mp hkey with heq | hold
          · exact absurd heq.symm hsame
          · exact .inl (h.nodup.mem_erase_iff.mpr ⟨hsame, h.complete hflags.1 key hold⟩)
      · exact length_latest_le _ _
      · exact htable.sublist (latest_sublist _ _)

/-- A delivery keeps the table paired with the receiver. -/
theorem Session.Paired.settle {session : Session} (h : session.Paired knownConditions)
    (hopened : .opened ∈ config.events) (hresolved : .resolved ∈ config.events)
    (rest : List NotificationEnvelope) (item : NotificationEnvelope) (fate : Fate) :
    Session.Paired knownConditions
      { worker := { session.worker with queue := rest }.settle config item fate
        log := session.log ++ [(item, fate)] } := by
  cases fate with
  | stopped => exact h.congr rfl rfl (hasOpen_append_of_ne (by simp))
  | unpaired => exact h.congr rfl rfl (hasOpen_append_of_ne (by simp))
  | suppressed => exact h.congr rfl rfl (hasOpen_append_of_ne (by simp))
  | dropped errorCode => exact h.congr rfl rfl (hasOpen_append_of_ne (by simp))
  | delivered => exact h.delivered hopened hresolved rest item

/-- Accepting an event touches neither the table nor the flag. -/
theorem publish_activeConditions (worker : WebhookWorker) (envelope : NotificationEnvelope) :
    (worker.publish config envelope).activeConditions = worker.activeConditions
      ∧ (worker.publish config envelope).pairingSaturated = worker.pairingSaturated := by
  unfold WebhookWorker.publish
  split_ifs <;> exact ⟨rfl, rfl⟩

/-- Every step keeps the table paired with the receiver. -/
theorem Session.Paired.step {session : Session} (h : session.Paired knownConditions)
    (hopened : .opened ∈ config.events) (hresolved : .resolved ∈ config.events)
    (step : EndpointStep) : (session.step config step).Paired knownConditions := by
  cases step with
  | publish envelope =>
    obtain ⟨htable, hflag⟩ := @publish_activeConditions config session.worker envelope
    exact h.congr htable hflag fun _ => rfl
  | queueTest event =>
    have hsame : (session.worker.queueTest event).activeConditions
          = session.worker.activeConditions
        ∧ (session.worker.queueTest event).pairingSaturated
          = session.worker.pairingSaturated := by
      unfold WebhookWorker.queueTest
      split <;> exact ⟨rfl, rfl⟩
    exact h.congr hsame.1 hsame.2 fun _ => rfl
  | close => exact h.congr rfl rfl fun _ => rfl
  | deliver script =>
    unfold Session.step
    dsimp only
    split
    · exact h
    · split
      · exact h
      · exact h.settle hopened hresolved _ _ _

/-- In every session the table is paired with the receiver. -/
theorem Session.paired_run (hopened : .opened ∈ config.events)
    (hresolved : .resolved ∈ config.events) (knownConditions : List (String × String))
    (steps : List EndpointStep) :
    (Session.run config knownConditions steps).Paired knownConditions := by
  have hfold : ∀ (l : List EndpointStep) (session : Session),
      session.Paired knownConditions →
      (l.foldl (Session.step config) session).Paired knownConditions := by
    intro l
    induction l with
    | nil => exact fun _ h => h
    | cons step rest ih => exact fun _ h => ih _ (h.step hopened hresolved step)
  exact hfold steps _ (Session.paired_start knownConditions)

/-- Delivery itself never calls an item unpaired. -/
theorem attemptDelivery_ne_unpaired (item : NotificationEnvelope) (script : Script)
    (remaining attempt : ℕ) (errorCode : String) :
    attemptDelivery item script remaining attempt errorCode ≠ .unpaired := by
  induction remaining generalizing attempt errorCode with
  | zero => simp [attemptDelivery]
  | succ remaining ih =>
    unfold attemptDelivery
    dsimp only
    split_ifs
    · simp
    · simp
    · simp
    · exact ih _ _
    · simp

/-- An endpoint that subscribes to openings and recoveries, after any steps. The recovery that
the worker takes next is withheld as unpaired only when the receiver does not have its
condition open, and until the table saturates it is withheld whenever the receiver does not.
The table never exceeds its capacity. -/
theorem webhook_pairing (hopened : .opened ∈ config.events) (hresolved : .resolved ∈ config.events)
    (knownConditions : List (String × String)) (steps : List EndpointStep) :
    (∀ item script, item.isTest = false → item.event.state = .resolved →
      (Receiver.hasOpen knownConditions (Session.run config knownConditions steps).log
          item.conditionKey = true →
        (Session.run config knownConditions steps).worker.fate config item script ≠ .unpaired)
      ∧ ((Session.run config knownConditions steps).worker.pairingSaturated = false →
        Receiver.hasOpen knownConditions (Session.run config knownConditions steps).log
          item.conditionKey = false →
        (Session.run config knownConditions steps).worker.fate config item script = .unpaired))
    ∧ (Session.run config knownConditions steps).worker.activeConditions.length
      ≤ webhookSeenCapacity := by
  have hpaired := Session.paired_run hopened hresolved knownConditions steps
  refine ⟨fun item script htest hstate => ⟨fun hopen => ?_, fun hsaturated hopen => ?_⟩,
    hpaired.bounded⟩
  · have hkept : (Session.run config knownConditions steps).worker.isUnpaired config item
        = false := by
      by_contra hnot
      simp only [WebhookWorker.isUnpaired, Bool.not_eq_false, Bool.and_eq_true, Bool.not_eq_true',
        List.contains_eq_mem, decide_eq_false_iff_not] at hnot
      exact hnot.1.2 (hpaired.complete hnot.2 _ hopen)
    rw [WebhookWorker.fate, hkept]
    exact attemptDelivery_ne_unpaired _ _ _ _ _
  · have hmissing : item.conditionKey
        ∉ (Session.run config knownConditions steps).worker.activeConditions := fun hmem => by
      rw [hpaired.sound _ hmem] at hopen
      cases hopen
    rw [WebhookWorker.fate, if_pos]
    simp [WebhookWorker.isUnpaired, isPaired, htest, hopened, hresolved, hstate, hmissing,
      hsaturated]

end Invariant

/-- A transition of a condition of a host. -/
private def transition (eventId : ℕ) (key : String) (state : IncidentState) :
    NotificationEnvelope where
  event :=
    { eventId := eventId, host := "gpu-01", state := state, observedAt := "2026-01-01T00:00:00Z",
      condition := { key := key, category := key, resource := "host", severity := .critical,
                     value := none, threshold := none, observedAt := "2026-01-01T00:00:00Z" } }

/-- A receiver that accepts every delivery. -/
private def accepting : Script := fun _ => ⟨false, true, ⟨true, false, none⟩⟩

/-- A receiver that cannot be reached. -/
private def unreachable : Script := fun _ => ⟨false, true, ⟨false, true, some "timeout"⟩⟩

/-- Two openings of which one is delivered, and a recovery that is not. -/
private def deliveries : List EndpointStep :=
  [.publish (transition 1 "connectivity" .opened), .publish (transition 2 "memory" .opened),
    .deliver accepting, .deliver unreachable, .publish (transition 3 "connectivity" .resolved),
    .deliver unreachable]

/-- The recovery of the delivered opening is sent, that of the other one is withheld. -/
theorem webhook_pairing_deliveries :
    (Session.run ⟨[.opened, .resolved], 3⟩ [] deliveries).worker.fate ⟨[.opened, .resolved], 3⟩
        (transition 4 "connectivity" .resolved) accepting ≠ .unpaired
      ∧ (Session.run ⟨[.opened, .resolved], 3⟩ [] deliveries).worker.fate
        ⟨[.opened, .resolved], 3⟩ (transition 5 "memory" .resolved) accepting = .unpaired := by
  have hpairing := (@webhook_pairing ⟨[.opened, .resolved], 3⟩ (by simp) (by simp) []
    deliveries).1
  constructor
  · exact (hpairing (transition 4 "connectivity" .resolved) _ rfl rfl).1 (by decide +kernel)
  · exact (hpairing (transition 5 "memory" .resolved) _ rfl rfl).2 (by decide +kernel)
      (by decide +kernel)

end Mocop
