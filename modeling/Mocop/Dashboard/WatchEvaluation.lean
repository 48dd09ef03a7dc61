import Mocop.Lib.Json
import Mocop.Lib.Runs
import Mocop.Reports.CapacityWatch

/-!
# `Mocop.Dashboard.WatchEvaluation`: the notifications of a capacity watch

A watch is armed until its demand is satisfied, and then notified until it is not satisfied any
more. The tabs of a browser share it through the storage, where it stands as a JSON document. A
call that can read the storage goes by the watch there, and a call that cannot goes by the copy
of its tab. Each change is written back, and a write may fail.

`notifies_once_per_edge` takes two notifications, and the calls after the first of them up to the
second. Suppose that each of these reads the storage, and finds the last change written there,
or is of the tab of the first notification. Then the demand was not satisfied at a call between
them, and they are a cooldown apart. `unshared_tab_notifies` shows why the tab matters: another
tab that cannot read goes by its own copy and notifies for itself.
-/

set_option autoImplicit false

namespace Mocop.WatchEvaluation

/-! ### The stored watch -/

/-- The time after a notification in which there is no other, in milliseconds. -/
def notifyCooldownMs : ℚ := 60000

/-- The demands that can be watched. The length of a string is counted in code units. -/
def validRequest (gpuCount minVramGiB : ℤ) (model : String) : Prop :=
  1 ≤ gpuCount ∧ gpuCount ≤ 256 ∧ 0 ≤ minVramGiB ∧ minVramGiB ≤ 512
    ∧ 1 ≤ (CapacityWatch.codeUnits model).length ∧ (CapacityWatch.codeUnits model).length ≤ 256

instance (gpuCount minVramGiB : ℤ) (model : String) :
    Decidable (validRequest gpuCount minVramGiB model) :=
  inferInstanceAs (Decidable (_ ∧ _))

/-- A valid demand. -/
structure Request where
  gpuCount : ℤ
  minVramGiB : ℤ
  model : String
  valid : validRequest gpuCount minVramGiB model
  deriving DecidableEq

/-- Whether two demands are the same. -/
def sameRequest (first second : Request) : Bool :=
  first.gpuCount == second.gpuCount && first.minVramGiB == second.minVramGiB
    && first.model == second.model

/-- The state of a watch. -/
inductive WatchState where
  | armed
  | notified
  deriving DecidableEq

/-- The spelling of a state in the document. -/
def WatchState.value : WatchState → String
  | .armed => "armed"
  | .notified => "notified"

/-- A capacity watch. Its version is always 1. -/
structure Watch where
  request : Request
  state : WatchState
  lastNotifiedAt : Option ℚ
  deriving DecidableEq

/-- An integer of the language: a number without a fraction. -/
def wholeNumber (value : Json) : Option ℤ :=
  value.number?.bind fun number => if number.den = 1 then some number.num else none

/-- Reads a demand. -/
def parseRequest (stored : Json) : Option Request := do
  let gpuCount ← (stored.member "gpuCount").bind wholeNumber
  let minVramGiB ← (stored.member "minVramGiB").bind wholeNumber
  let model ← (stored.member "model").bind Json.string?
  if valid : validRequest gpuCount minVramGiB model then
    some ⟨gpuCount, minVramGiB, model, valid⟩
  else none

/-- Reads a state. -/
def parseState (stored : Json) : Option WatchState := do
  let spelled ← stored.string?
  if spelled = "armed" then some .armed else if spelled = "notified" then some .notified else none

/-- Reads the time of the last notification: null or a number. -/
def parseNotifiedAt : Json → Option (Option ℚ)
  | .null => some none
  | stored => stored.number?.map some

/-- Reads a watch. Anything else than a watch of version 1 is none. -/
def parseWatch (stored : Json) : Option Watch := do
  let version ← (stored.member "version").bind Json.number?
  if version ≠ 1 then none
  else
    let request ← (stored.member "request").bind parseRequest
    let state ← (stored.member "state").bind parseState
    let lastNotifiedAt ← (stored.member "lastNotifiedAt").bind parseNotifiedAt
    some ⟨request, state, lastNotifiedAt⟩

/-- `JSON.stringify` of a demand. -/
def Request.stringify (request : Request) : Json :=
  .object [("gpuCount", .integer request.gpuCount), ("minVramGiB", .integer request.minVramGiB),
    ("model", .string request.model)]

/-- `JSON.stringify` of a watch. -/
def Watch.stringify (watch : Watch) : Json :=
  .object [("version", .integer 1), ("request", watch.request.stringify),
    ("state", .string watch.state.value),
    ("lastNotifiedAt", (watch.lastNotifiedAt.map Json.fraction).getD .null)]

theorem parseRequest_stringify (request : Request) :
    parseRequest request.stringify = some request := by
  simp [parseRequest, Request.stringify, Json.member, Json.object?, List.lookup_cons, wholeNumber,
    Json.number?, Json.string?, request.valid]

/-- What is written is read back. -/
@[simp] theorem parseWatch_stringify (watch : Watch) : parseWatch watch.stringify = some watch := by
  have hstate : parseState (.string watch.state.value) = some watch.state := by
    cases watch.state <;> rfl
  have hnotified : parseNotifiedAt ((watch.lastNotifiedAt.map Json.fraction).getD .null)
      = some watch.lastNotifiedAt := by
    cases watch.lastNotifiedAt <;> rfl
  simp [parseWatch, Watch.stringify, Json.member, Json.object?, List.lookup_cons, Json.number?,
    parseRequest_stringify, hstate, hnotified]

/-- What the storage has under the key of the watch: nothing, a text that is no JSON, or a
document. -/
inductive Item where
  | absent
  | malformed
  | document (value : Json)

/-- The answer of `readStored`. -/
structure Stored where
  readable : Bool
  watch : Option Watch

/-- The watch of an item. -/
def Item.watch : Item → Option Watch
  | .absent => none
  | .malformed => none
  | .document value => parseWatch value

/-- Reads the storage, which may fail. -/
def readStored (item : Item) (readable : Bool) : Stored :=
  if readable then ⟨true, item.watch⟩ else ⟨false, none⟩

/-- What is stored after a write, which may fail. -/
def persist (item : Item) (writable : Bool) (watch : Watch) : Item :=
  if writable then .document watch.stringify else item

/-! ### Evaluation -/

/-- The answer of an evaluation, with the watch that it hands to `persist`. -/
structure Evaluation where
  watch : Option Watch
  shouldNotify : Bool
  persisted : Option Watch

/-- Whether a notification now would be too early. A clock that was set back does not count. -/
def Watch.withinCooldown (watch : Watch) (now : ℚ) : Bool :=
  watch.lastNotifiedAt.any fun last =>
    decide (last ≤ now) && decide (now - last < notifyCooldownMs)

/-- The edges of a watch. -/
def Watch.transition (watch : Watch) (satisfiedCount : ℕ) (now : ℚ) : Evaluation :=
  if watch.state = .armed ∧ 0 < satisfiedCount then
    if watch.withinCooldown now then ⟨some watch, false, none⟩
    else
      let notified := { watch with state := .notified, lastNotifiedAt := some now }
      ⟨some notified, true, some notified⟩
  else if watch.state = .notified ∧ satisfiedCount = 0 then
    let armed := { watch with state := .armed }
    ⟨some armed, false, some armed⟩
  else ⟨some watch, false, none⟩

/-- Evaluates the watch of a tab. -/
def evaluateWatch (current : Stored) (watch : Watch) (satisfiedCount : ℕ) (now : ℚ) :
    Evaluation :=
  if current.readable then
    match current.watch with
    | none => ⟨none, false, none⟩
    | some shared =>
      if sameRequest shared.request watch.request then shared.transition satisfiedCount now
      else ⟨some shared, false, none⟩
  else watch.transition satisfiedCount now

/-- One call of `evaluateWatch`, and whether the storage can be read and written during it. -/
structure Call where
  tab : ℕ
  now : ℚ
  satisfiedCount : ℕ
  readable : Bool := true
  writable : Bool := true

/-- The storage, and the watch that each tab was last returned. `behind` says that the last
change could not be written; no tab knows it. -/
structure Browser where
  item : Item
  watches : ℕ → Option Watch
  behind : Bool := false
  clock : ℚ := 0

/-- A browser whose tabs all have the stored watch. -/
def Browser.open (watch : Watch) : Browser where
  item := .document watch.stringify
  watches := fun _ => some watch

/-- What a call returns. A tab without a watch makes none. -/
def Browser.evaluate (browser : Browser) (call : Call) : Option Evaluation :=
  (browser.watches call.tab).map fun watch =>
    evaluateWatch (readStored browser.item call.readable) watch call.satisfiedCount call.now

/-- Whether a call notifies. -/
def Browser.notifies (browser : Browser) (call : Call) : Bool :=
  (browser.evaluate call).any Evaluation.shouldNotify

/-- The browser after a call. -/
def Browser.settle (browser : Browser) (call : Call) (evaluation : Evaluation) : Browser where
  item := match evaluation.persisted with
    | none => browser.item
    | some watch => persist browser.item call.writable watch
  watches := Function.update browser.watches call.tab evaluation.watch
  behind := match evaluation.persisted with
    | none => browser.behind
    | some _ => !call.writable
  clock := call.now

/-- One call. The clock does not go back. -/
def step (browser : Browser) (call : Call) : Option Browser :=
  if browser.clock ≤ call.now then (browser.evaluate call).map (browser.settle call) else none

/-! ### One notification per edge -/

/-- The call reads the storage and finds the last change there, or it cannot read and is of this
tab. -/
structure GoesByCurrent (tab : ℕ) (browser : Browser) (call : Call) : Prop where
  own : call.readable = false → call.tab = tab
  shared : call.readable = true → browser.behind = false

instance (tab : ℕ) (browser : Browser) (call : Call) : Decidable (GoesByCurrent tab browser call) :=
  decidable_of_iff ((call.readable = false → call.tab = tab)
      ∧ (call.readable = true → browser.behind = false))
    ⟨fun h => ⟨h.1, h.2⟩, fun h => ⟨h.own, h.shared⟩⟩

/-- A watch that knows of a notification at `since`: its last one is not before it, and it is
armed only after a call without satisfaction. -/
structure Knows (since clock : ℚ) (calls : List Call) (watch : Watch) : Prop where
  last : ∃ last, watch.lastNotifiedAt = some last ∧ since ≤ last ∧ last ≤ clock
  edge : watch.state = .armed → ∃ call ∈ calls, call.satisfiedCount = 0

/-- The stored watch, as far as it is not behind, and the copy of the tab know of the
notification. -/
structure Settled (tab : ℕ) (since : ℚ) (calls : List Call) (browser : Browser) : Prop where
  shared : browser.behind = false → ∀ watch, browser.item.watch = some watch →
    Knows since browser.clock calls watch
  own : ∀ watch, browser.watches tab = some watch → Knows since browser.clock calls watch

section
variable {browser next : Browser} {call : Call} {calls : List Call} {tab : ℕ} {since clock : ℚ}
  {watch : Watch}

/-- A watch goes on knowing. -/
theorem Knows.later (h : Knows since clock calls watch) (call : Call) (hclock : clock ≤ call.now) :
    Knows since call.now (calls ++ [call]) watch where
  last := by
    obtain ⟨last, hlast, hsince, hle⟩ := h.last
    exact ⟨last, hlast, hsince, hle.trans hclock⟩
  edge := by
    intro harmed
    obtain ⟨earlier, hmem, hcount⟩ := h.edge harmed
    exact ⟨earlier, List.mem_append_left _ hmem, hcount⟩

/-- A transition hands on what it returns. -/
theorem persisted_transition (watch : Watch) (satisfiedCount : ℕ) (now : ℚ) :
    (watch.transition satisfiedCount now).persisted = none
      ∨ (watch.transition satisfiedCount now).persisted
        = (watch.transition satisfiedCount now).watch := by
  unfold Watch.transition
  split
  · split
    · exact .inl rfl
    · exact .inr rfl
  · split
    · exact .inr rfl
    · exact .inl rfl

/-- What a watch that knows becomes also knows. -/
theorem Knows.transition (h : Knows since clock calls watch) (hclock : clock ≤ call.now)
    {after : Watch} (hafter : (watch.transition call.satisfiedCount call.now).watch = some after) :
    Knows since call.now (calls ++ [call]) after := by
  have hlater := h.later call hclock
  obtain ⟨last, hlast, hsince, hle⟩ := hlater.last
  unfold Watch.transition at hafter
  split at hafter
  · split at hafter
    · obtain rfl := Option.some.inj hafter
      exact hlater
    · obtain rfl := Option.some.inj hafter
      exact ⟨⟨call.now, rfl, hsince.trans hle, le_refl _⟩, fun harmed => by cases harmed⟩
  · split at hafter
    · rename_i hrearm
      obtain rfl := Option.some.inj hafter
      exact ⟨⟨last, hlast, hsince, hle⟩, fun _ => ⟨call, by simp, hrearm.2⟩⟩
    · obtain rfl := Option.some.inj hafter
      exact hlater

/-- A watch that knows notifies only after an edge, and a cooldown later. -/
theorem Knows.notifies (h : Knows since clock calls watch) (hclock : clock ≤ call.now)
    (hnotifies : (watch.transition call.satisfiedCount call.now).shouldNotify = true) :
    (∃ call ∈ calls, call.satisfiedCount = 0) ∧ since + notifyCooldownMs ≤ call.now := by
  unfold Watch.transition at hnotifies
  split at hnotifies
  · rename_i harmed
    refine ⟨h.edge harmed.1, ?_⟩
    obtain ⟨last, hlast, hsince, hle⟩ := h.last
    split at hnotifies
    · cases hnotifies
    · rename_i hcooldown
      have hlate : ¬call.now - last < notifyCooldownMs := by
        intro hearly
        refine hcooldown ?_
        rw [Watch.withinCooldown, hlast]
        simp [hle.trans hclock, hearly]
      linarith
  · split at hnotifies
    · cases hnotifies
    · cases hnotifies

/-- A call goes by the stored watch or by the one of its tab; otherwise the tab adopts what is
stored. -/
theorem evaluate_cases {evaluation : Evaluation} (h : browser.evaluate call = some evaluation) :
    (∃ watch, evaluation = watch.transition call.satisfiedCount call.now
      ∧ ((call.readable = true ∧ browser.item.watch = some watch)
        ∨ (call.readable = false ∧ browser.watches call.tab = some watch)))
    ∨ (call.readable = true ∧ evaluation = ⟨browser.item.watch, false, none⟩) := by
  obtain ⟨watch, hwatch, rfl⟩ := Option.map_eq_some_iff.mp h
  cases hreadable : call.readable with
  | false => exact .inl ⟨watch, rfl, .inr ⟨rfl, hwatch⟩⟩
  | true =>
    have hread : evaluateWatch (readStored browser.item true) watch call.satisfiedCount call.now
        = match browser.item.watch with
          | none => ⟨none, false, none⟩
          | some shared =>
            if sameRequest shared.request watch.request then
              shared.transition call.satisfiedCount call.now
            else ⟨some shared, false, none⟩ := rfl
    rw [hread]
    cases hshared : browser.item.watch with
    | none => exact .inr ⟨rfl, rfl⟩
    | some shared =>
      dsimp only
      split
      · exact .inl ⟨shared, rfl, .inl ⟨rfl, rfl⟩⟩
      · exact .inr ⟨rfl, rfl⟩

/-- The watch that a call goes by knows of the notification. -/
theorem Settled.knows (h : Settled tab since calls browser) (hcall : GoesByCurrent tab browser call)
    (hsource : (call.readable = true ∧ browser.item.watch = some watch)
      ∨ (call.readable = false ∧ browser.watches call.tab = some watch)) :
    Knows since browser.clock calls watch := by
  rcases hsource with ⟨hreadable, hshared⟩ | ⟨hreadable, hown⟩
  · exact h.shared (hcall.shared hreadable) watch hshared
  · exact h.own watch (hcall.own hreadable ▸ hown)

/-- A call that goes by the current watch keeps the knowledge. -/
theorem Settled.step (h : Settled tab since calls browser) (hcall : GoesByCurrent tab browser call)
    (hstep : step browser call = some next) : Settled tab since (calls ++ [call]) next := by
  unfold WatchEvaluation.step at hstep
  split at hstep
  · rename_i hclock
    obtain ⟨evaluation, hevaluation, rfl⟩ := Option.map_eq_some_iff.mp hstep
    -- What the call returns knows, and it is what is written.
    have hreturned : ∀ after, evaluation.watch = some after →
        Knows since call.now (calls ++ [call]) after := by
      intro after hafter
      rcases evaluate_cases hevaluation with ⟨watch, rfl, hsource⟩ | ⟨hreadable, rfl⟩
      · exact (h.knows hcall hsource).transition hclock hafter
      · exact (h.shared (hcall.shared hreadable) after hafter).later call hclock
    have hpersisted : evaluation.persisted = none ∨ evaluation.persisted = evaluation.watch := by
      rcases evaluate_cases hevaluation with ⟨watch, rfl, -⟩ | ⟨-, rfl⟩
      · exact persisted_transition watch _ _
      · exact .inl rfl
    constructor
    · intro hbehind watch hwatch
      unfold Browser.settle at hbehind hwatch
      cases hwritten : evaluation.persisted with
      | none =>
        rw [hwritten] at hbehind hwatch
        exact (h.shared hbehind watch hwatch).later call hclock
      | some written =>
        rw [hwritten] at hbehind hwatch
        have hwritable : call.writable = true := by simpa using hbehind
        simp only [persist, hwritable, if_true, Item.watch, parseWatch_stringify,
          Option.some.injEq] at hwatch
        refine hreturned watch ?_
        rw [← hpersisted.resolve_left (by rw [hwritten]; exact Option.some_ne_none _), hwritten,
          hwatch]
    · intro watch hwatch
      change Function.update browser.watches call.tab evaluation.watch tab = some watch at hwatch
      by_cases htab : tab = call.tab
      · rw [htab, Function.update_self] at hwatch
        exact hreturned watch hwatch
      · rw [Function.update_of_ne htab] at hwatch
        exact (h.own watch hwatch).later call hclock
  · cases hstep

/-- After a notification, the stored watch and the copy of the tab know of it. -/
theorem settled_of_notifies (hnotifies : browser.notifies call = true)
    (hstep : step browser call = some next) : Settled call.tab call.now [] next := by
  obtain ⟨evaluation, hevaluation, hnotify⟩ := (Option.any_eq_true _ _).mp hnotifies
  unfold WatchEvaluation.step at hstep
  rw [hevaluation] at hstep
  split at hstep
  · obtain rfl := Option.some.inj hstep
    rcases evaluate_cases hevaluation with ⟨watch, rfl, -⟩ | ⟨-, rfl⟩
    · have hnotified : watch.transition call.satisfiedCount call.now
          = ⟨some { watch with state := .notified, lastNotifiedAt := some call.now }, true,
            some { watch with state := .notified, lastNotifiedAt := some call.now }⟩ := by
        unfold Watch.transition at hnotify ⊢
        split at hnotify
        · rename_i harmed
          rw [if_pos harmed]
          split at hnotify
          · cases hnotify
          · rename_i hcooldown
            rw [if_neg hcooldown]
        · split at hnotify
          · cases hnotify
          · cases hnotify
      have hknows : Knows call.now call.now []
          { watch with state := .notified, lastNotifiedAt := some call.now } :=
        ⟨⟨call.now, rfl, le_refl _, le_refl _⟩, fun harmed => by cases harmed⟩
      rw [hnotified]
      constructor
      · intro hbehind stored hstored
        have hwritable : call.writable = true := by simpa [Browser.settle] using hbehind
        simp only [Browser.settle, persist, hwritable, if_true, Item.watch, parseWatch_stringify,
          Option.some.injEq] at hstored
        exact hstored ▸ hknows
      · intro own hown
        change Function.update browser.watches call.tab _ call.tab = some own at hown
        rw [Function.update_self] at hown
        exact Option.some.inj hown ▸ hknows
    · cases hnotify
  · cases hstep

/-- Between two notifications of a watch there is a call without satisfaction, and they are a
cooldown apart, when every call after the first one up to the second goes by the current watch:
it finds the last change in the storage, or it cannot read and is of the tab of the first one. -/
theorem notifies_once_per_edge {notified middle : Browser} {first last : Call}
    (hnotifies : browser.notifies first = true) (hfirst : step browser first = some notified)
    (hbetween : RunWhere step (GoesByCurrent first.tab) notified calls middle)
    (hcurrent : GoesByCurrent first.tab middle last) (hagain : middle.notifies last = true)
    (hlast : step middle last = some next) :
    (∃ call ∈ calls, call.satisfiedCount = 0) ∧ first.now + notifyCooldownMs ≤ last.now := by
  have hsettled : Settled first.tab first.now calls middle := by
    clear hcurrent hagain hlast
    induction hbetween with
    | nil => exact settled_of_notifies hnotifies hfirst
    | snoc _ hcall hstep ih => exact ih.step hcall hstep
  have hclock : middle.clock ≤ last.now := by
    unfold WatchEvaluation.step at hlast
    split at hlast
    · assumption
    · cases hlast
  obtain ⟨evaluation, hevaluation, hnotify⟩ := (Option.any_eq_true _ _).mp hagain
  rcases evaluate_cases hevaluation with ⟨watch, rfl, hsource⟩ | ⟨-, rfl⟩
  · exact (hsettled.knows hcurrent hsource).notifies hclock hnotify
  · cases hnotify

end

/-- A watch for one device, as it is saved. -/
private def savedWatch : Watch where
  request := ⟨1, 24, "any", by decide +kernel⟩
  state := .armed
  lastNotifiedAt := none

/-- The first tab notifies at second 1. -/
private def readyCall : Call := ⟨0, 1000, 1, true, true⟩

/-- The demand is not satisfied any more when the second tab looks. -/
private def goneCall : Call := ⟨1, 2000, 0, true, true⟩

/-- The first tab looks again a minute later. -/
private def backCall : Call := ⟨0, 61000, 2, true, true⟩

/-- Two tabs that share a storage notify for the second time a minute later. -/
theorem notifies_once_per_edge_shared :
    ∃ notified middle next, step (Browser.open savedWatch) readyCall = some notified
      ∧ step notified goneCall = some middle ∧ step middle backCall = some next
      ∧ middle.notifies backCall = true
      ∧ (∃ call ∈ [goneCall], call.satisfiedCount = 0)
      ∧ readyCall.now + notifyCooldownMs ≤ backCall.now := by
  have hnotifies : (Browser.open savedWatch).notifies readyCall = true := by decide +kernel
  have hreached : (step (Browser.open savedWatch) readyCall).any (fun notified =>
      (step notified goneCall).any fun middle => (step middle backCall).isSome
        && middle.notifies backCall && decide (GoesByCurrent 0 notified goneCall)
        && decide (GoesByCurrent 0 middle backCall)) = true := by
    decide +kernel
  obtain ⟨notified, hfirst, hreached⟩ := (Option.any_eq_true _ _).mp hreached
  obtain ⟨middle, hgone, hreached⟩ := (Option.any_eq_true _ _).mp hreached
  simp only [Bool.and_eq_true, decide_eq_true_eq] at hreached
  obtain ⟨⟨⟨hback, hagain⟩, hcurrent⟩, hlast⟩ := hreached
  obtain ⟨next, hnext⟩ := Option.isSome_iff_exists.mp hback
  have hbetween : RunWhere step (GoesByCurrent 0) notified [goneCall] middle :=
    .snoc .nil hcurrent hgone
  exact ⟨notified, middle, next, hfirst, hgone, hnext, hagain,
    notifies_once_per_edge hnotifies hfirst hbetween hlast hagain hnext⟩

/-- The second tab looks a second after the first one and cannot read the storage. -/
private def unreadableCall : Call := ⟨1, 2000, 1, false, true⟩

/-- The second tab goes by its own copy, which is still armed: both notify within a second, and
the demand was satisfied all the time. -/
theorem unshared_tab_notifies :
    ∃ notified next, (Browser.open savedWatch).notifies readyCall = true
      ∧ step (Browser.open savedWatch) readyCall = some notified
      ∧ notified.notifies unreadableCall = true ∧ step notified unreadableCall = some next
      ∧ 0 < readyCall.satisfiedCount ∧ 0 < unreadableCall.satisfiedCount
      ∧ unreadableCall.now < readyCall.now + notifyCooldownMs := by
  have hreached : (step (Browser.open savedWatch) readyCall).any (fun notified =>
      notified.notifies unreadableCall && (step notified unreadableCall).isSome) = true := by
    decide +kernel
  obtain ⟨notified, hfirst, hreached⟩ := (Option.any_eq_true _ _).mp hreached
  obtain ⟨hagain, hnext⟩ := Bool.and_eq_true_iff.mp hreached
  obtain ⟨next, hnext⟩ := Option.isSome_iff_exists.mp hnext
  exact ⟨notified, next, by decide +kernel, hfirst, hagain, hnext, by decide, by decide,
    by decide +kernel⟩

end Mocop.WatchEvaluation
