import Mocop.Service.IncidentFeed

/-!
# `Mocop.Dashboard.IncidentSync`: the incidents that the dashboard fetches for a snapshot

A snapshot carries the revision of the incidents, and the dashboard fetches the incidents when it
is not the one that it shows. A newer request supersedes the one in flight, an answer that is not
the last request's is dropped, and a revision whose request failed waits for a retry timer.

`Page.Attends` is what the page must keep up: as long as it shows a snapshot, it awaits an answer,
it waits for its timer, or its incidents are as new as the snapshot. `Attends.step` says that every
step keeps it, if no answer is older than what its request was sent for. `settled_in_two` says that
the page gets to an end: two answers are enough when no snapshot comes between them.
-/

set_option autoImplicit false

namespace Mocop.IncidentSync

/-! ### The page -/

/-- A snapshot, as it arrives. -/
structure PageSnapshot where
  startedAt : String
  projection : Projection

/-- The poll interval and the time behind which a collection counts as stale. -/
structure Cadence where
  pollIntervalSeconds : ℚ
  collectionStaleAfterSeconds : ℚ

/-- The shown snapshot with the cadence that the server saved, if it is of the same start. -/
def PageSnapshot.withCadence (snapshot : PageSnapshot) (startedAt : String)
    (cadence : Cadence) : PageSnapshot :=
  if snapshot.startedAt = startedAt then
    { snapshot with projection := { snapshot.projection with
        content := { snapshot.projection.content with
          pollIntervalSeconds := cadence.pollIntervalSeconds
          collectionStaleAfterSeconds := cadence.collectionStaleAfterSeconds } } }
  else snapshot

/-- Another cadence changes neither the start nor the numbers of a snapshot. -/
theorem PageSnapshot.withCadence_numbers (snapshot : PageSnapshot) (startedAt : String)
    (cadence : Cadence) :
    (snapshot.withCadence startedAt cadence).startedAt = snapshot.startedAt
      ∧ (snapshot.withCadence startedAt cadence).projection.version = snapshot.projection.version
      ∧ (snapshot.withCadence startedAt cadence).projection.incidentVersion
        = snapshot.projection.incidentVersion := by
  unfold withCadence
  split
  · exact ⟨rfl, rfl, rfl⟩
  · exact ⟨rfl, rfl, rfl⟩

/-- What the dashboard's `view` keeps of the snapshots and the incidents. -/
structure View where
  snapshot : Option PageSnapshot := none
  cadenceSnapshotFloor : Option (String × ℕ) := none
  incidents : Option Feed := none
  incidentVersion : ℤ := -1
  incidentRequest : ℕ := 0
  incidentLoadingVersion : Option ℕ := none
  incidentRetryTimer : Option ℕ := none
  incidentRetryVersion : Option ℕ := none
  incidentRetryDelayMs : ℕ := 0
  incidentSyncFailed : Bool := false

/-- A request in flight: its number, and the revision that it was sent for. -/
structure Request where
  id : ℕ
  target : ℕ

/-- The page with its requests in flight, and the timers that are set with their delays. -/
structure Page where
  view : View := {}
  requests : List Request := []
  timers : List (ℕ × ℕ) := []
  handles : ℕ := 0

namespace View

/-- Whether a snapshot is older than the settings that were saved last. -/
def isBelowFloor (view : View) (snapshot : PageSnapshot) : Bool :=
  match view.cadenceSnapshotFloor with
  | some (startedAt, version) =>
    snapshot.startedAt == startedAt && decide (snapshot.projection.version < version)
  | none => false

/-- Whether a snapshot is older than the shown one. -/
def isOutdated (view : View) (snapshot : PageSnapshot) : Bool :=
  match view.snapshot with
  | some shown => snapshot.startedAt == shown.startedAt
    && decide (snapshot.projection.version < shown.projection.version)
  | none => false

/-- Takes a snapshot in, and says whether it did. -/
def acceptSnapshot (view : View) (snapshot : PageSnapshot) : View × Bool :=
  if view.isBelowFloor snapshot then (view, false)
  else if view.isOutdated snapshot then ({ view with cadenceSnapshotFloor := none }, false)
  else ({ view with cadenceSnapshotFloor := none, snapshot := some snapshot }, true)

/-- Takes the answer of the last request in. -/
def acceptIncidents (view : View) (feed : Feed) : View :=
  { view with
    incidents := some feed
    incidentVersion := feed.version
    incidentRetryDelayMs := 0
    incidentSyncFailed := false
    incidentLoadingVersion := none }

end View

namespace Page

/-- Cancels the retry. -/
def clearRetry (page : Page) : Page :=
  { page with
    view := { page.view with incidentRetryTimer := none, incidentRetryVersion := none }
    timers := match page.view.incidentRetryTimer with
      | none => page.timers
      | some handle => page.timers.filter (·.1 != handle) }

/-- Sends a request. -/
def startRequest (page : Page) (targetVersion : ℕ) : Page :=
  { page with
    view := { page.view with
      incidentLoadingVersion := some targetVersion
      incidentRequest := page.view.incidentRequest + 1 }
    requests := page.requests ++ [⟨page.view.incidentRequest + 1, targetVersion⟩] }

/-- `syncIncidents`, up to its `await` -/
def syncIncidents (page : Page) : Page :=
  match page.view.snapshot with
  | none => page
  | some snapshot =>
    let targetVersion := snapshot.projection.incidentVersion
    if page.view.incidents.isSome ∧ page.view.incidentVersion = targetVersion then page
    else if page.view.incidentLoadingVersion = some targetVersion then page
    else match page.view.incidentRetryTimer with
      | none => page.startRequest targetVersion
      | some _ =>
        -- A failed revision waits for its timer; only a new one replaces it.
        if page.view.incidentRetryVersion = some targetVersion then page
        else page.clearRetry.startRequest targetVersion

/-- The last request failed. -/
def scheduleRetry (page : Page) (targetVersion : ℕ) : Page :=
  let delay := min 30000 (max 4000 (page.view.incidentRetryDelayMs * 2))
  { page with
    view := { page.view with
      incidentLoadingVersion := none
      incidentRetryDelayMs := delay
      incidentRetryVersion := some targetVersion
      incidentRetryTimer := some page.handles
      incidentSyncFailed := true }
    timers := page.timers ++ [(page.handles, delay)]
    handles := page.handles + 1 }

/-- `syncIncidents` behind its `await`: a request fails, or its answer arrives. -/
def settle (page : Page) (request : Request) (answer : Option Feed) : Page :=
  let landed := { page with requests := page.requests.filter (·.id != request.id) }
  if request.id ≠ landed.view.incidentRequest then landed
  else match answer with
    | none => landed.scheduleRetry request.target
    | some feed =>
      let accepted := { landed with view := landed.view.acceptIncidents feed }
      match accepted.view.snapshot with
      | none => accepted
      | some snapshot =>
        -- The revision moved meanwhile, and the answer does not cover it.
        if snapshot.projection.incidentVersion ≠ request.target
            ∧ accepted.view.incidentVersion ≠ snapshot.projection.incidentVersion then
          accepted.syncIncidents
        else accepted

/-- A snapshot arrives. -/
def receive (page : Page) (snapshot : PageSnapshot) : Page :=
  match page.view.acceptSnapshot snapshot with
  | (view, true) => { page with view := view }.syncIncidents
  | (view, false) => { page with view := view }

/-- A timer fires. -/
def fire (page : Page) (handle : ℕ) : Page :=
  { page with
    view := { page.view with incidentRetryTimer := none, incidentRetryVersion := none }
    timers := page.timers.filter (·.1 != handle) }.syncIncidents

end Page

/-- What can happen to the page: a snapshot arrives, on the stream or as the answer to a poll; a
window, a setting or an incident action is saved; a request settles; a timer fires. -/
inductive Event where
  | snapshot (snapshot : PageSnapshot)
  | windowSaved
  | settingsSaved (startedAt : String) (version : ℕ) (cadence : Cadence)
  | actionSaved
  | settle (id : ℕ) (answer : Option Feed)
  | fire (handle : ℕ)

/-- One step of the page. -/
def Page.step (page : Page) : Event → Option Page
  | .snapshot snapshot => some (page.receive snapshot)
  | .windowSaved => some page.syncIncidents
  | .settingsSaved startedAt version cadence => some { page with view := { page.view with
      cadenceSnapshotFloor := some (startedAt, version)
      snapshot := page.view.snapshot.map (·.withCadence startedAt cadence) } }
  | .actionSaved => some { page with
      view := { page.view with incidentVersion := -1, incidentLoadingVersion := none }
      }.syncIncidents
  | .settle id answer => (page.requests.find? (·.id == id)).map fun request =>
    page.settle request answer
  | .fire handle =>
    if handle ∈ page.timers.map Prod.fst then some (page.fire handle) else none

/-! ### What every page keeps -/

namespace Page

variable {page next : Page}

/-- The page awaits the answer to its last request. -/
def Awaits (page : Page) : Prop := ∃ request ∈ page.requests, request.id = page.view.incidentRequest

/-- The incidents are as new as the snapshot. -/
def Covers (page : Page) : Prop :=
  ∀ snapshot, page.view.snapshot = some snapshot → ∃ feed, page.view.incidents = some feed
    ∧ snapshot.projection.incidentVersion ≤ feed.version

/-- The page awaits an answer, it waits for its timer, or its incidents are as new as the
snapshot. -/
def Attends (page : Page) : Prop := page.Awaits ∨ page.timers ≠ [] ∨ page.Covers

/-- The bookkeeping of a page. -/
structure Sound (page : Page) : Prop where
  ids : ∀ request ∈ page.requests, request.id ≤ page.view.incidentRequest
  nodup : (page.requests.map Request.id).Nodup
  loading : ∀ target, page.view.incidentLoadingVersion = some target →
    ⟨page.view.incidentRequest, target⟩ ∈ page.requests
  timers : page.timers.map Prod.fst = page.view.incidentRetryTimer.toList
  delays : ∀ timer ∈ page.timers, 4000 ≤ timer.2 ∧ timer.2 ≤ 30000
  idle : page.timers ≠ [] → ¬ page.Awaits ∧ page.view.incidentLoadingVersion = none
  version : page.view.incidentVersion = -1
    ∨ ∃ feed, page.view.incidents = some feed ∧ page.view.incidentVersion = feed.version
  asked : page.view.snapshot = none → page.requests = []

theorem sound_empty : ({} : Page).Sound where
  ids := fun _ h => by cases h
  nodup := List.nodup_nil
  loading := fun _ h => by cases h
  timers := rfl
  delays := fun _ h => by cases h
  idle := fun h => absurd rfl h
  version := .inl rfl
  asked := fun _ => rfl

/-- The timer of the view is the one that is set. -/
theorem Sound.timers_eq_nil (h : page.Sound) (htimer : page.view.incidentRetryTimer = none) :
    page.timers = [] := by
  have htimers := h.timers
  rw [htimer] at htimers
  exact List.map_eq_nil_iff.mp htimers

/-- What a request finds: the page without a retry. -/
structure Cleared (page cleared : Page) : Prop where
  view : ∃ retryVersion, cleared.view = { page.view with
    incidentRetryTimer := none, incidentRetryVersion := retryVersion }
  requests : cleared.requests = page.requests
  timers : cleared.timers = []

/-- The timer that is set is the one that is cancelled. -/
theorem Sound.filter_timers (h : page.Sound) {handle : ℕ}
    (htimer : handle ∈ page.timers.map Prod.fst) :
    page.timers.filter (·.1 != handle) = [] := by
  rw [List.filter_eq_nil_iff]
  intro timer hmem
  have hother : timer.1 ∈ page.timers.map Prod.fst := List.mem_map_of_mem hmem
  rw [h.timers, Option.mem_toList] at htimer hother
  rw [Option.mem_unique hother htimer, bne_self_eq_false]
  exact Bool.false_ne_true

theorem Sound.clearRetry (h : page.Sound) : page.Cleared page.clearRetry := by
  refine ⟨⟨none, rfl⟩, rfl, ?_⟩
  cases htimer : page.view.incidentRetryTimer with
  | none =>
    unfold Page.clearRetry
    rw [htimer]
    exact h.timers_eq_nil htimer
  | some handle =>
    unfold Page.clearRetry
    rw [htimer]
    refine h.filter_timers ?_
    rw [h.timers, htimer]
    exact List.mem_singleton_self handle

/-- Why `syncIncidents` sends nothing: there is no snapshot, the page shows its revision, the page
loads one, or it waits for its timer. -/
def Rests (page : Page) : Prop :=
  page.view.snapshot = none
    ∨ (∃ snapshot, page.view.snapshot = some snapshot
      ∧ page.view.incidentVersion = snapshot.projection.incidentVersion)
    ∨ (∃ target, page.view.incidentLoadingVersion = some target)
    ∨ page.timers ≠ []

theorem Sound.attends_of_rests (h : page.Sound) (hrests : page.Rests) : page.Attends := by
  rcases hrests with hnone | ⟨snapshot, hshown, hsame⟩ | ⟨target, hloading⟩ | hset
  · refine .inr (.inr fun snapshot hsnapshot => ?_)
    rw [hnone] at hsnapshot
    cases hsnapshot
  · refine .inr (.inr fun other hother => ?_)
    obtain rfl := Option.some.inj (hshown.symm.trans hother)
    rcases h.version with hnever | ⟨feed, hfeed, hversion⟩
    · omega
    · exact ⟨feed, hfeed, by omega⟩
  · exact .inl ⟨_, h.loading target hloading, rfl⟩
  · exact .inr (.inl hset)

/-- `syncIncidents` rests, or it sends a request for the revision of the snapshot. -/
theorem Sound.syncIncidents_cases (h : page.Sound) :
    (page.syncIncidents = page ∧ page.Rests)
      ∨ ∃ snapshot cleared, page.view.snapshot = some snapshot ∧ page.Cleared cleared
        ∧ page.syncIncidents = cleared.startRequest snapshot.projection.incidentVersion := by
  unfold Page.syncIncidents
  cases hshown : page.view.snapshot with
  | none => exact .inl ⟨rfl, .inl hshown⟩
  | some snapshot =>
    dsimp only
    split
    · next hsame => exact .inl ⟨rfl, .inr (.inl ⟨snapshot, hshown, hsame.2⟩)⟩
    · split
      · next hloading => exact .inl ⟨rfl, .inr (.inr (.inl ⟨_, hloading⟩))⟩
      · split
        · next htimer =>
          refine .inr ⟨snapshot, page, rfl, ⟨⟨page.view.incidentRetryVersion, ?_⟩, rfl,
            h.timers_eq_nil htimer⟩, rfl⟩
          rw [← htimer]
        · next handle htimer =>
          split
          · refine .inl ⟨rfl, .inr (.inr (.inr fun hnil => ?_))⟩
            have htimers := h.timers
            rw [hnil, htimer] at htimers
            cases htimers
          · exact .inr ⟨snapshot, page.clearRetry, rfl, h.clearRetry, rfl⟩

/-- After `syncIncidents` the page attends to its snapshot. -/
theorem Sound.attends_syncIncidents (h : page.Sound) : page.syncIncidents.Attends := by
  rcases h.syncIncidents_cases with ⟨heq, hrests⟩ | ⟨snapshot, cleared, -, -, heq⟩
  · rw [heq]
    exact h.attends_of_rests hrests
  · rw [heq]
    exact .inl ⟨_, List.mem_append_right _ (List.mem_singleton_self _), rfl⟩

/-- A request keeps the bookkeeping. -/
theorem Sound.startRequest (h : page.Sound) {cleared : Page} (hcleared : page.Cleared cleared)
    (hshown : page.view.snapshot ≠ none) (target : ℕ) : (cleared.startRequest target).Sound := by
  obtain ⟨⟨retryVersion, hview⟩, hrequests, htimers⟩ := hcleared
  have hids : ∀ request ∈ cleared.requests, request.id ≤ cleared.view.incidentRequest := by
    rw [hrequests, hview]
    exact h.ids
  constructor
  · intro request hrequest
    show request.id ≤ cleared.view.incidentRequest + 1
    rcases List.mem_append.mp hrequest with hold | hnew
    · exact Nat.le_succ_of_le (hids request hold)
    · rw [List.mem_singleton.mp hnew]
  · show ((cleared.requests ++ [_]).map Request.id).Nodup
    rw [List.map_append, List.nodup_append]
    refine ⟨by rw [hrequests]; exact h.nodup, List.nodup_singleton _, fun id hid other hother => ?_⟩
    obtain ⟨request, hrequest, rfl⟩ := List.mem_map.mp hid
    have hle := hids request hrequest
    obtain rfl := List.mem_singleton.mp hother
    show request.id ≠ cleared.view.incidentRequest + 1
    omega
  · intro other hother
    obtain rfl := Option.some.inj hother
    exact List.mem_append_right _ (List.mem_singleton_self _)
  · show cleared.timers.map Prod.fst = cleared.view.incidentRetryTimer.toList
    rw [htimers, hview]
    rfl
  · intro timer htimer
    exact absurd (htimers ▸ htimer) List.not_mem_nil
  · exact fun hset => absurd htimers hset
  · show cleared.view.incidentVersion = -1 ∨ ∃ feed, cleared.view.incidents = some feed
      ∧ cleared.view.incidentVersion = feed.version
    rw [hview]
    exact h.version
  · intro hnone
    have hkept : cleared.view.snapshot = none := hnone
    rw [hview] at hkept
    exact absurd hkept hshown

theorem Sound.syncIncidents (h : page.Sound) : page.syncIncidents.Sound := by
  rcases h.syncIncidents_cases with ⟨heq, -⟩ | ⟨snapshot, cleared, hshown, hcleared, heq⟩
  · rw [heq]
    exact h
  · rw [heq]
    exact h.startRequest hcleared (by rw [hshown]; exact Option.some_ne_none _) _

/-! ### A request settles -/

theorem Sound.timers_of_awaits (h : page.Sound) (hawaits : page.Awaits) : page.timers = [] := by
  by_contra hset
  exact (h.idle hset).1 hawaits

variable {request : Request} {event : Event}

theorem mem_filter_requests {requests : List Request} {id : ℕ} :
    request ∈ requests.filter (·.id != id) ↔ request ∈ requests ∧ request.id ≠ id := by
  rw [List.mem_filter, bne_iff_ne]

/-- A request leaves with its answer, and the page does not load. -/
theorem Sound.landed (h : page.Sound) {view : View} (id : ℕ)
    (hrequest : view.incidentRequest = page.view.incidentRequest)
    (hloading : ∀ target, view.incidentLoadingVersion = some target →
      page.view.incidentLoadingVersion = some target ∧ id ≠ page.view.incidentRequest)
    (htimer : view.incidentRetryTimer = page.view.incidentRetryTimer)
    (hidle : page.view.incidentLoadingVersion = none → view.incidentLoadingVersion = none)
    (hversion : view.incidentVersion = -1
      ∨ ∃ feed, view.incidents = some feed ∧ view.incidentVersion = feed.version)
    (hsnapshot : view.snapshot = page.view.snapshot) :
    { page with view := view, requests := page.requests.filter (·.id != id) }.Sound where
  ids := fun request hmem => hrequest ▸ h.ids request (mem_filter_requests.mp hmem).1
  nodup := h.nodup.sublist (List.filter_sublist.map _)
  loading := fun target htarget => by
    obtain ⟨hold, hne⟩ := hloading target htarget
    exact mem_filter_requests.mpr ⟨hrequest ▸ h.loading target hold, hrequest ▸ hne.symm⟩
  timers := htimer ▸ h.timers
  delays := h.delays
  idle := fun hset => by
    obtain ⟨hawaits, hnone⟩ := h.idle hset
    refine ⟨fun ⟨request, hmem, hid⟩ => hawaits ⟨request, ?_, hid.trans hrequest⟩, hidle hnone⟩
    exact (mem_filter_requests.mp hmem).1
  version := hversion
  asked := fun hnone => by
    show page.requests.filter (·.id != id) = []
    rw [h.asked (hsnapshot ▸ hnone)]
    rfl

/-- An answer that is not the last request's is dropped. -/
theorem settle_stale (hstale : request.id ≠ page.view.incidentRequest) (answer : Option Feed) :
    page.settle request answer
      = { page with requests := page.requests.filter (·.id != request.id) } := by
  unfold Page.settle
  exact if_pos hstale

theorem settle_failed (hlast : request.id = page.view.incidentRequest) :
    page.settle request none
      = { page with requests := page.requests.filter (·.id != request.id) }.scheduleRetry
        request.target := by
  unfold Page.settle
  exact if_neg (not_not_intro hlast)

/-- The page with the answer of the last request. -/
def accepted (page : Page) (request : Request) (feed : Feed) : Page :=
  { page with
    requests := page.requests.filter (·.id != request.id)
    view := page.view.acceptIncidents feed }

/-- The last request's answer is taken in, and it settles the page, or it is asked for more. -/
theorem settle_answered (hlast : request.id = page.view.incidentRequest) (feed : Feed) :
    (page.settle request (some feed) = page.accepted request feed
        ∧ ∀ snapshot, page.view.snapshot = some snapshot →
          snapshot.projection.incidentVersion = request.target
            ∨ feed.version = snapshot.projection.incidentVersion)
      ∨ (page.settle request (some feed) = (page.accepted request feed).syncIncidents
        ∧ ∀ snapshot, page.view.snapshot = some snapshot →
          snapshot.projection.incidentVersion ≠ request.target) := by
  unfold Page.settle
  dsimp only
  rw [if_neg (not_not_intro hlast)]
  have hkept : (page.view.acceptIncidents feed).snapshot = page.view.snapshot := rfl
  rw [hkept]
  cases hshown : page.view.snapshot with
  | none => exact .inl ⟨rfl, fun _ h => by cases h⟩
  | some snapshot =>
    dsimp only
    split
    · next hmoved =>
      refine .inr ⟨rfl, fun other hother => ?_⟩
      obtain rfl := Option.some.inj hother
      exact hmoved.1
    · next hkept =>
      refine .inl ⟨rfl, fun other hother => ?_⟩
      obtain rfl := Option.some.inj hother
      rcases not_and_or.mp hkept with hkept | hkept
      · exact .inl (not_not.mp hkept)
      · exact .inr (Int.ofNat.inj (not_not.mp hkept))

theorem Sound.accepted (h : page.Sound) (feed : Feed) :
    (page.accepted request feed).Sound :=
  h.landed request.id rfl (fun _ htarget => by cases htarget) rfl (fun _ => rfl)
    (.inr ⟨feed, rfl, rfl⟩) rfl

/-- A failed request leaves a timer. -/
theorem Sound.scheduleRetry (h : page.Sound) (hmem : request ∈ page.requests)
    (hlast : request.id = page.view.incidentRequest) :
    ({ page with requests := page.requests.filter (·.id != request.id) }.scheduleRetry
      request.target).Sound where
  ids := fun other hother => h.ids other (mem_filter_requests.mp hother).1
  nodup := h.nodup.sublist (List.filter_sublist.map _)
  loading := fun target htarget => by cases htarget
  timers := by
    show (page.timers ++ [(page.handles, _)]).map Prod.fst = [page.handles]
    rw [h.timers_of_awaits ⟨request, hmem, hlast⟩]
    rfl
  delays := fun timer htimer => by
    rcases List.mem_append.mp htimer with hold | hnew
    · exact h.delays timer hold
    · rw [List.mem_singleton.mp hnew]
      show 4000 ≤ min 30000 (max 4000 (page.view.incidentRetryDelayMs * 2))
        ∧ min 30000 (max 4000 (page.view.incidentRetryDelayMs * 2)) ≤ 30000
      omega
  idle := fun _ => by
    refine ⟨fun ⟨other, hother, hid⟩ => ?_, rfl⟩
    exact (mem_filter_requests.mp hother).2 (hid.trans hlast.symm)
  version := h.version
  asked := fun hnone => by
    rw [h.asked hnone] at hmem
    cases hmem

/-- The page does not await an answer, and its incidents are as new as its snapshot. -/
def Settled (page : Page) : Prop := ¬ page.Awaits ∧ page.timers = [] ∧ page.Covers

theorem not_awaits_accepted (hlast : request.id = page.view.incidentRequest) (feed : Feed) :
    ¬ (page.accepted request feed).Awaits := by
  rintro ⟨other, hother, hid⟩
  exact (mem_filter_requests.mp hother).2 (hid.trans hlast.symm)

/-- An answer that covers the revision that it was fetched for settles the page, if that is the
revision of the snapshot. -/
theorem Sound.settled_of_kept (h : page.Sound) (hmem : request ∈ page.requests)
    (hlast : request.id = page.view.incidentRequest) {feed : Feed}
    (hfresh : request.target ≤ feed.version)
    (hkept : ∀ snapshot, page.view.snapshot = some snapshot →
      snapshot.projection.incidentVersion = request.target
        ∨ feed.version = snapshot.projection.incidentVersion) :
    (page.accepted request feed).Settled := by
  refine ⟨not_awaits_accepted hlast feed, h.timers_of_awaits ⟨request, hmem, hlast⟩,
    fun snapshot hsnapshot => ⟨feed, rfl, ?_⟩⟩
  rcases hkept snapshot hsnapshot with hsame | hsame
  · omega
  · omega

/-- Two answers settle the page: the first does, or the page asks for the revision of the snapshot,
and the answer to this request does. -/
theorem Sound.settled_in_two (h : page.Sound) (hmem : request ∈ page.requests)
    (hlast : request.id = page.view.incidentRequest) {feed : Feed}
    (hfresh : request.target ≤ feed.version) :
    (page.settle request (some feed)).Settled
      ∨ (page.settle request (some feed)).Awaits
        ∧ ∀ again ∈ (page.settle request (some feed)).requests,
          again.id = (page.settle request (some feed)).view.incidentRequest →
          ∀ later : Feed, again.target ≤ later.version →
            ((page.settle request (some feed)).settle again (some later)).Settled := by
  rcases settle_answered hlast feed with ⟨heq, hkept⟩ | ⟨heq, -⟩
  · rw [heq]
    exact .inl (h.settled_of_kept hmem hlast hfresh hkept)
  · rw [heq]
    have hsound : (page.accepted request feed).Sound := h.accepted feed
    rcases hsound.syncIncidents_cases with ⟨hsame, hrests⟩ | ⟨snapshot, cleared, hshown, hcleared,
      hstart⟩
    · rw [hsame]
      have htimers : (page.accepted request feed).timers = [] :=
        h.timers_of_awaits ⟨request, hmem, hlast⟩
      refine .inl ⟨not_awaits_accepted hlast feed, htimers, ?_⟩
      exact ((hsound.attends_of_rests hrests).resolve_left
        (not_awaits_accepted hlast feed)).resolve_left (not_not_intro htimers)
    · right
      have hnext := hsound.syncIncidents
      rw [hstart] at hnext
      obtain ⟨⟨retryVersion, hview⟩, hrequests, -⟩ := hcleared
      rw [hstart]
      refine ⟨⟨_, List.mem_append_right _ (List.mem_singleton_self _), rfl⟩, ?_⟩
      intro again hagain hagainLast later hlater
      -- The request that is sent now is for the revision of the snapshot.
      have htarget : again.target = snapshot.projection.incidentVersion := by
        rcases List.mem_append.mp hagain with hold | hnew
        · rw [hrequests] at hold
          have hle := hsound.ids again hold
          have hid : again.id = cleared.view.incidentRequest + 1 := hagainLast
          rw [hview] at hid
          dsimp only at hid
          omega
        · rw [List.mem_singleton.mp hnew]
      have hsnapshot : (cleared.startRequest snapshot.projection.incidentVersion).view.snapshot
          = some snapshot := by
        show cleared.view.snapshot = some snapshot
        rw [hview]
        exact hshown
      rcases settle_answered hagainLast later with ⟨hagainEq, hkept⟩ | ⟨-, hmoved⟩
      · rw [hagainEq]
        exact hnext.settled_of_kept hagain hagainLast hlater hkept
      · exact absurd htarget.symm (hmoved snapshot hsnapshot)

/-! ### Every step -/

/-- No answer is older than what its request was sent for. -/
def Fresh (page : Page) : Event → Prop
  | .settle id (some feed) => ∀ request ∈ page.requests, request.id = id →
      request.target ≤ feed.version
  | _ => True

theorem Sound.fired (h : page.Sound) {handle : ℕ} (htimer : handle ∈ page.timers.map Prod.fst) :
    { page with
      view := { page.view with incidentRetryTimer := none, incidentRetryVersion := none }
      timers := page.timers.filter (·.1 != handle) }.Sound where
  ids := h.ids
  nodup := h.nodup
  loading := h.loading
  timers := by
    show (page.timers.filter (·.1 != handle)).map Prod.fst = []
    rw [h.filter_timers htimer]
    rfl
  delays := fun timer hmem => h.delays timer (List.mem_of_mem_filter hmem)
  idle := fun hset => absurd (h.filter_timers htimer) hset
  version := h.version
  asked := h.asked

theorem isOutdated_iff {view : View} {snapshot : PageSnapshot} :
    view.isOutdated snapshot = true ↔ ∃ shown, view.snapshot = some shown
      ∧ snapshot.startedAt = shown.startedAt
      ∧ snapshot.projection.version < shown.projection.version := by
  unfold View.isOutdated
  cases view.snapshot with
  | none =>
    constructor
    · intro h
      cases h
    · rintro ⟨_, h, -⟩
      cases h
  | some shown =>
    rw [Bool.and_eq_true, beq_iff_eq, decide_eq_true_iff]
    constructor
    · exact fun h => ⟨shown, rfl, h⟩
    · rintro ⟨other, hother, h⟩
      obtain rfl := Option.some.inj hother
      exact h

theorem isBelowFloor_iff {view : View} {snapshot : PageSnapshot} :
    view.isBelowFloor snapshot = true ↔
      ∃ version, view.cadenceSnapshotFloor = some (snapshot.startedAt, version)
        ∧ snapshot.projection.version < version := by
  unfold View.isBelowFloor
  cases view.cadenceSnapshotFloor with
  | none =>
    constructor
    · intro h
      cases h
    · rintro ⟨_, h, -⟩
      cases h
  | some floor =>
    rw [Bool.and_eq_true, beq_iff_eq, decide_eq_true_iff]
    constructor
    · rintro ⟨hstarted, h⟩
      exact ⟨floor.2, by rw [hstarted], h⟩
    · rintro ⟨version, hfloor, h⟩
      obtain rfl := Option.some.inj hfloor
      exact ⟨rfl, h⟩

/-- What a snapshot that is taken in leaves, and one that is not. -/
theorem acceptSnapshot_cases {view after : View} {snapshot : PageSnapshot} {accepted : Bool}
    (h : view.acceptSnapshot snapshot = (after, accepted)) :
    ∃ floor, after = { view with
      cadenceSnapshotFloor := floor
      snapshot := if accepted then some snapshot else view.snapshot } := by
  unfold View.acceptSnapshot at h
  split at h
  · obtain ⟨rfl, rfl⟩ := Prod.mk.inj h
    exact ⟨view.cadenceSnapshotFloor, rfl⟩
  · split at h
    · obtain ⟨rfl, rfl⟩ := Prod.mk.inj h
      exact ⟨none, rfl⟩
    · obtain ⟨rfl, rfl⟩ := Prod.mk.inj h
      exact ⟨none, rfl⟩

theorem Sound.snapshot (h : page.Sound) (floor : Option (String × ℕ))
    {shown : Option PageSnapshot} (hshown : shown = none → page.view.snapshot = none) :
    { page with view := { page.view with
      cadenceSnapshotFloor := floor, snapshot := shown } }.Sound :=
  ⟨h.ids, h.nodup, h.loading, h.timers, h.delays, h.idle, h.version,
    fun hnone => h.asked (hshown hnone)⟩

/-- An action was saved: the shown incidents do not count, and the request in flight neither. -/
theorem Sound.actionSaved (h : page.Sound) :
    { page with view := { page.view with
      incidentVersion := -1, incidentLoadingVersion := none } }.Sound where
  ids := h.ids
  nodup := h.nodup
  loading := fun _ htarget => by cases htarget
  timers := h.timers
  delays := h.delays
  idle := fun hset => ⟨(h.idle hset).1, rfl⟩
  version := .inl rfl
  asked := h.asked

/-- What an event changes before the page synchronises, and whether it does. -/
inductive Changes (page : Page) : Event → Page → Bool → Prop
  | received {snapshot : PageSnapshot} {view : View} {accepted : Bool}
      (h : page.view.acceptSnapshot snapshot = (view, accepted)) :
      Changes page (.snapshot snapshot) { page with view := view } accepted
  | windowSaved : Changes page .windowSaved page true
  | settingsSaved (startedAt : String) (version : ℕ) (cadence : Cadence) :
      Changes page (.settingsSaved startedAt version cadence) { page with view := { page.view with
        cadenceSnapshotFloor := some (startedAt, version)
        snapshot := page.view.snapshot.map (·.withCadence startedAt cadence) } } false
  | actionSaved : Changes page .actionSaved { page with
      view := { page.view with incidentVersion := -1, incidentLoadingVersion := none } } true
  | stale {request : Request} (answer : Option Feed)
      (hstale : request.id ≠ page.view.incidentRequest) :
      Changes page (.settle request.id answer)
        { page with requests := page.requests.filter (·.id != request.id) } false
  | failed {request : Request} (hmem : request ∈ page.requests)
      (hlast : request.id = page.view.incidentRequest) :
      Changes page (.settle request.id none)
        ({ page with requests := page.requests.filter (·.id != request.id) }.scheduleRetry
          request.target) false
  | answered {request : Request} (feed : Feed) {syncs : Bool} (hmem : request ∈ page.requests)
      (hlast : request.id = page.view.incidentRequest)
      (hkept : syncs = false → ∀ snapshot, page.view.snapshot = some snapshot →
        snapshot.projection.incidentVersion = request.target
          ∨ feed.version = snapshot.projection.incidentVersion) :
      Changes page (.settle request.id (some feed)) (page.accepted request feed) syncs
  | fired {handle : ℕ} (htimer : handle ∈ page.timers.map Prod.fst) :
      Changes page (.fire handle) { page with
        view := { page.view with incidentRetryTimer := none, incidentRetryVersion := none }
        timers := page.timers.filter (·.1 != handle) } true

/-- Every step makes a change and then synchronises, or not. -/
theorem step_cases (hstep : page.step event = some next) :
    ∃ before syncs, page.Changes event before syncs
      ∧ next = if syncs then before.syncIncidents else before := by
  cases event with
  | snapshot snapshot =>
    obtain rfl := Option.some.inj hstep
    unfold Page.receive
    split
    · next view heq => exact ⟨_, true, .received heq, rfl⟩
    · next view heq => exact ⟨_, false, .received heq, rfl⟩
  | windowSaved => exact ⟨_, true, .windowSaved, (Option.some.inj hstep).symm⟩
  | settingsSaved startedAt version cadence =>
    exact ⟨_, false, .settingsSaved startedAt version cadence, (Option.some.inj hstep).symm⟩
  | actionSaved => exact ⟨_, true, .actionSaved, (Option.some.inj hstep).symm⟩
  | settle id answer =>
    obtain ⟨request, hfind, rfl⟩ := Option.map_eq_some_iff.mp hstep
    have hmem := List.mem_of_find?_eq_some hfind
    have hfound := List.find?_some hfind
    obtain rfl : request.id = id := beq_iff_eq.mp hfound
    by_cases hlast : request.id = page.view.incidentRequest
    · cases answer with
      | none => exact ⟨_, false, .failed hmem hlast, settle_failed hlast⟩
      | some feed =>
        rcases settle_answered hlast feed with ⟨heq, hkept⟩ | ⟨heq, -⟩
        · exact ⟨_, false, .answered feed hmem hlast fun _ => hkept, heq⟩
        · exact ⟨_, true, .answered feed hmem hlast (fun h => by cases h), heq⟩
    · exact ⟨_, false, .stale answer hlast, settle_stale hlast answer⟩
  | fire handle =>
    dsimp only [Page.step] at hstep
    split at hstep
    · next htimer => exact ⟨_, true, .fired htimer, (Option.some.inj hstep).symm⟩
    · cases hstep

/-- Every change keeps the bookkeeping. -/
theorem Sound.changes (h : page.Sound) {before : Page} {syncs : Bool}
    (hchanges : page.Changes event before syncs) : before.Sound := by
  cases hchanges with
  | received haccepted =>
    obtain ⟨floor, rfl⟩ := acceptSnapshot_cases haccepted
    refine h.snapshot floor fun hnone => ?_
    split at hnone
    · cases hnone
    · exact hnone
  | windowSaved => exact h
  | settingsSaved startedAt version cadence => exact h.snapshot _ Option.map_eq_none_iff.mp
  | actionSaved => exact h.actionSaved
  | stale answer hstale =>
    exact h.landed _ rfl (fun _ htarget => ⟨htarget, hstale⟩) rfl (fun hnone => hnone) h.version
      rfl
  | failed hmem hlast => exact h.scheduleRetry hmem hlast
  | answered feed hmem hlast hkept => exact h.accepted feed
  | fired htimer => exact h.fired htimer

theorem Sound.step (h : page.Sound) (hstep : page.step event = some next) :
    next.Sound := by
  obtain ⟨before, syncs, hchanges, rfl⟩ := step_cases hstep
  split
  · exact (h.changes hchanges).syncIncidents
  · exact h.changes hchanges

/-- After every step the page attends to its snapshot. -/
theorem Attends.step (hattends : page.Attends) (h : page.Sound) (hfresh : page.Fresh event)
    (hstep : page.step event = some next) : next.Attends := by
  obtain ⟨before, syncs, hchanges, rfl⟩ := step_cases hstep
  have hsound := h.changes hchanges
  cases syncs with
  | true => exact hsound.attends_syncIncidents
  | false =>
    show before.Attends
    cases hchanges with
    | received haccepted =>
      obtain ⟨floor, rfl⟩ := acceptSnapshot_cases haccepted
      exact hattends
    | settingsSaved startedAt version cadence =>
      refine hattends.imp id (Or.imp id fun hcovers snapshot hsnapshot => ?_)
      obtain ⟨shown, hshown, rfl⟩ := Option.map_eq_some_iff.mp hsnapshot
      rw [(shown.withCadence_numbers startedAt cadence).2.2]
      exact hcovers shown hshown
    | stale answer hstale =>
      rcases hattends with ⟨last, hawaited, hid⟩ | hset | hcovers
      · refine .inl ⟨last, mem_filter_requests.mpr ⟨hawaited, fun heq => ?_⟩, hid⟩
        exact hstale (heq ▸ hid)
      · exact .inr (.inl hset)
      · exact .inr (.inr hcovers)
    | failed hmem hlast =>
      exact .inr (.inl (List.append_ne_nil_of_right_ne_nil _ (List.cons_ne_nil _ _)))
    | @answered request feed _ hmem hlast hkept =>
      have hle := hfresh request hmem rfl
      exact .inr (.inr (h.settled_of_kept hmem hlast hle (hkept rfl)).2.2)

/-! ### What a step sends and shows -/

/-- The requests behind a step: no new one, or one for the revision of the snapshot. -/
inductive Sends (page next : Page) : Prop
  | nothing (hrequest : next.view.incidentRequest = page.view.incidentRequest)
      (hkept : ∀ request ∈ next.requests, request ∈ page.requests)
  | request (snapshot : PageSnapshot) (hsnapshot : next.view.snapshot = some snapshot)
      (hrequest : next.view.incidentRequest = page.view.incidentRequest + 1)
      (hsent : ∀ request ∈ next.requests, request ∈ page.requests
        ∨ request = ⟨page.view.incidentRequest + 1, snapshot.projection.incidentVersion⟩)

/-- A step before the requests are sent does not count. -/
theorem Sends.of_kept {before : Page} (h : Sends before next)
    (hrequest : before.view.incidentRequest = page.view.incidentRequest)
    (hkept : ∀ request ∈ before.requests, request ∈ page.requests) : Sends page next := by
  cases h with
  | nothing hsame hnext =>
    exact .nothing (hsame.trans hrequest) fun request hmem => hkept request (hnext request hmem)
  | request snapshot hsnapshot hnext hsent =>
    rw [hrequest] at hnext hsent
    exact .request snapshot hsnapshot hnext fun request hmem =>
      (hsent request hmem).imp_left (hkept request)

theorem Sound.sends_syncIncidents (h : page.Sound) : Sends page page.syncIncidents := by
  rcases h.syncIncidents_cases with ⟨heq, -⟩ | ⟨snapshot, cleared, hshown, hcleared, heq⟩
  · rw [heq]
    exact .nothing rfl fun _ hmem => hmem
  · rw [heq]
    obtain ⟨⟨retryVersion, hview⟩, hrequests, -⟩ := hcleared
    refine .request snapshot ?_ ?_ fun request hmem => ?_
    · show cleared.view.snapshot = some snapshot
      rw [hview]
      exact hshown
    · show cleared.view.incidentRequest + 1 = page.view.incidentRequest + 1
      rw [hview]
    · rcases List.mem_append.mp hmem with hold | hnew
      · exact .inl (hrequests ▸ hold)
      · rw [List.mem_singleton.mp hnew, hview]
        exact .inr rfl

/-- What `syncIncidents` leaves alone. -/
theorem Sound.syncIncidents_view (h : page.Sound) :
    page.syncIncidents.view.snapshot = page.view.snapshot
      ∧ page.syncIncidents.view.incidents = page.view.incidents
      ∧ page.syncIncidents.view.incidentVersion = page.view.incidentVersion
      ∧ page.syncIncidents.view.cadenceSnapshotFloor = page.view.cadenceSnapshotFloor := by
  rcases h.syncIncidents_cases with ⟨heq, -⟩ | ⟨snapshot, cleared, -, ⟨⟨retryVersion, hview⟩, -, -⟩,
    heq⟩
  · rw [heq]
    exact ⟨rfl, rfl, rfl, rfl⟩
  · rw [heq]
    show cleared.view.snapshot = _ ∧ cleared.view.incidents = _ ∧ cleared.view.incidentVersion = _
      ∧ cleared.view.cadenceSnapshotFloor = _
    rw [hview]
    exact ⟨rfl, rfl, rfl, rfl⟩

/-- What a step shows. -/
inductive Shows (page next : Page) : Event → Prop
  /-- The last request's answer is shown. -/
  | answered {request : Request} (feed : Feed) (hmem : request ∈ page.requests)
      (hlast : request.id = page.view.incidentRequest)
      (hincidents : next.view.incidents = some feed)
      (hversion : next.view.incidentVersion = feed.version)
      (hgone : ∀ other ∈ next.requests, other.id ≠ page.view.incidentRequest) :
      Shows page next (.settle request.id (some feed))
  /-- An action is saved, and no request that was sent before counts. -/
  | acted (hincidents : next.view.incidents = page.view.incidents)
      (hversion : next.view.incidentVersion = -1)
      (hsuperseded : ∀ request ∈ page.requests, request.id ≠ next.view.incidentRequest) :
      Shows page next .actionSaved
  | same {event : Event} (hincidents : next.view.incidents = page.view.incidents)
      (hversion : next.view.incidentVersion = page.view.incidentVersion)
      (hother : event ≠ .actionSaved) : Shows page next event

/-- What a step makes of the snapshot and of the floor. -/
inductive Takes (page next : Page) : Event → Prop
  | arrived {snapshot : PageSnapshot} {view : View} {accepted : Bool}
      (haccepted : page.view.acceptSnapshot snapshot = (view, accepted))
      (hsnapshot : next.view.snapshot = view.snapshot)
      (hfloor : next.view.cadenceSnapshotFloor = view.cadenceSnapshotFloor) :
      Takes page next (.snapshot snapshot)
  | saved {startedAt : String} {version : ℕ} {cadence : Cadence}
      (hsnapshot : next.view.snapshot
        = page.view.snapshot.map (·.withCadence startedAt cadence))
      (hfloor : next.view.cadenceSnapshotFloor = some (startedAt, version)) :
      Takes page next (.settingsSaved startedAt version cadence)
  | same {event : Event} (hsnapshot : next.view.snapshot = page.view.snapshot)
      (hfloor : next.view.cadenceSnapshotFloor = page.view.cadenceSnapshotFloor)
      (hother : ∀ startedAt version cadence, event ≠ .settingsSaved startedAt version cadence) :
      Takes page next event

theorem Sound.sends_synced (h : page.Sound) (syncs : Bool) :
    Sends page (if syncs then page.syncIncidents else page) := by
  cases syncs with
  | true => exact h.sends_syncIncidents
  | false => exact .nothing rfl fun _ hmem => hmem

theorem Sound.sends_step (h : page.Sound) (hstep : page.step event = some next) :
    Sends page next := by
  obtain ⟨before, syncs, hchanges, rfl⟩ := step_cases hstep
  have hleft : ∀ id, ∀ request ∈ page.requests.filter (·.id != id), request ∈ page.requests :=
    fun id request hmem => (mem_filter_requests.mp hmem).1
  refine ((h.changes hchanges).sends_synced syncs).of_kept ?_ ?_
  · cases hchanges with
    | received haccepted =>
      obtain ⟨floor, rfl⟩ := acceptSnapshot_cases haccepted
      rfl
    | _ => rfl
  · cases hchanges with
    | stale answer hstale => exact hleft _
    | failed hmem hlast => exact hleft _
    | answered feed hmem hlast hkept => exact hleft _
    | _ => exact fun _ hmem => hmem

/-- What synchronising leaves alone. -/
theorem Sound.view_synced (h : page.Sound) (syncs : Bool) :
    (if syncs then page.syncIncidents else page).view.snapshot = page.view.snapshot
      ∧ (if syncs then page.syncIncidents else page).view.incidents = page.view.incidents
      ∧ (if syncs then page.syncIncidents else page).view.incidentVersion
        = page.view.incidentVersion
      ∧ (if syncs then page.syncIncidents else page).view.cadenceSnapshotFloor
        = page.view.cadenceSnapshotFloor := by
  cases syncs with
  | true => exact h.syncIncidents_view
  | false => exact ⟨rfl, rfl, rfl, rfl⟩

/-- A saved action supersedes every request. -/
theorem Sound.superseded (h : page.Sound) : ∀ request ∈ page.requests,
    request.id ≠ { page with
      view := { page.view with incidentVersion := -1, incidentLoadingVersion := none }
      }.syncIncidents.view.incidentRequest := by
  intro request hmem
  rcases h.actionSaved.syncIncidents_cases with ⟨heq, hrests⟩ | ⟨snapshot, cleared, -,
    ⟨⟨retryVersion, hview⟩, -, -⟩, heq⟩
  · rw [heq]
    -- Nothing is sent only where there is no request or no awaited one.
    rcases hrests with hnone | ⟨snapshot, -, hsame⟩ | ⟨target, hloading⟩ | hset
    · rw [h.asked hnone] at hmem
      cases hmem
    · have hnever : (-1 : ℤ) = snapshot.projection.incidentVersion := hsame
      omega
    · cases hloading
    · exact fun hid => (h.idle hset).1 ⟨request, hmem, hid⟩
  · have hle := h.ids request hmem
    rw [heq]
    show request.id ≠ cleared.view.incidentRequest + 1
    rw [hview]
    show request.id ≠ page.view.incidentRequest + 1
    omega

theorem Sound.shows_step (h : page.Sound) (hstep : page.step event = some next) :
    Shows page next event := by
  obtain ⟨before, syncs, hchanges, rfl⟩ := step_cases hstep
  obtain ⟨-, hincidents, hversion, -⟩ := (h.changes hchanges).view_synced syncs
  cases hchanges with
  | received haccepted =>
    obtain ⟨floor, rfl⟩ := acceptSnapshot_cases haccepted
    exact .same hincidents hversion (fun h => by cases h)
  | actionSaved => exact .acted hincidents hversion h.superseded
  | @answered request feed _ hmem hlast hkept =>
    refine .answered feed hmem hlast hincidents hversion fun other hother hid => ?_
    have hgone : ∀ left ∈ (page.accepted request feed).requests, left.id ≠ request.id :=
      fun left hleft => (mem_filter_requests.mp hleft).2
    cases (h.accepted feed).sends_synced syncs with
    | nothing hrequest hkept => exact hgone other (hkept other hother) (hid.trans hlast.symm)
    | request snapshot hsnapshot hrequest hsent =>
      rcases hsent other hother with hold | rfl
      · exact hgone other hold (hid.trans hlast.symm)
      · have hnew : page.view.incidentRequest + 1 = page.view.incidentRequest := hid
        omega
  | _ => exact .same hincidents hversion (fun h => by cases h)

theorem Sound.takes_step (h : page.Sound) (hstep : page.step event = some next) :
    Takes page next event := by
  obtain ⟨before, syncs, hchanges, rfl⟩ := step_cases hstep
  obtain ⟨hsnapshot, -, -, hfloor⟩ := (h.changes hchanges).view_synced syncs
  cases hchanges with
  | received haccepted => exact .arrived haccepted hsnapshot hfloor
  | settingsSaved startedAt version cadence => exact .saved hsnapshot hfloor
  | _ => exact .same hsnapshot hfloor (fun _ _ _ h => by cases h)

end Page

end Mocop.IncidentSync
