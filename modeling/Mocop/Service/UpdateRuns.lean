import Mocop.Lib.Journals
import Mocop.Service.Updates
import Mathlib.Tactic.IntervalCases

/-!
# `Mocop.Service.UpdateRuns`: what a worker installs, and how many there are

Two invariants hold along the runs of the update manager. What a worker has learnt is in the
journal (`Sound`): this is its own business, so it holds in every run, whatever the poller and the
other workers do, and with it every installation follows a verified download and every restart a
verified installation.

That there is one worker is the business of the shared state (`Control`). A worker that is at
work keeps the state at `updating`, and requests are refused. But the state says less than that
when a worker has announced the restart, when a restart has raised, and while a worker that has
reported a failure still removes its temporary directory: a request is then accepted and starts
another worker. `one_worker_iff` says that nothing else goes wrong.
-/

set_option autoImplicit false

namespace Mocop.Updates

variable {setup : Setup} {manager next : Manager} {worker : ℕ} {stage : Stage} {answer : Answer}
  {move : Move} {journal : List Entry} {release : Release} {wheel : List UInt8}

/-! ### What a worker has learnt -/

/-- A wheel that was verified: its release is newer than the service, the release names the wheel
and the sums, both were fetched from there, and the sums list the digest of the wheel. -/
structure Verified (setup : Setup) (journal : List Entry) (worker : ℕ) (release : Release)
    (wheel : List UInt8) : Prop where
  newer : ∃ current, setup.current = some current ∧ release.version.newer current = true
  fetched : ∃ wheelUrl sumsUrl sums,
    release.assets.get? (wheelName release.version) = some wheelUrl
      ∧ release.assets.get? "SHA256SUMS" = some sumsUrl
      ∧ [.released worker release, .fetchedSums worker sumsUrl sums,
          .fetchedWheel worker wheelUrl wheel].Sublist journal
      ∧ listedDigest setup.platform (wheelName release.version) sums
        = some (setup.platform.sha256 wheel)

/-- An installation of a verified wheel that reported the version of its release. -/
def Tested (setup : Setup) (journal : List Entry) (worker : ℕ) (release : Release) : Prop :=
  ∃ wheel output, Verified setup journal worker release wheel
    ∧ [.install worker wheel, .installed worker, .reported worker output].Sublist journal
    ∧ pyStrip output = release.version.text

/-- What must be in the journal before an entry. -/
def evidence (setup : Setup) (earlier : List Entry) : Entry → Prop
  | .install worker wheel => ∃ release, Verified setup earlier worker release wheel
  | .restart worker => ∃ release, Tested setup earlier worker release
  | _ => True

/-- What a worker has learnt when it comes to a stage. -/
def Knows (setup : Setup) (journal : List Entry) (worker : ℕ) : Stage → Prop
  | .refreshing => True
  | .choosing release => [Entry.released worker release].Sublist journal
  | .fetchingSums release wheelUrl sumsUrl =>
    (∃ current, setup.current = some current ∧ release.version.newer current = true)
      ∧ release.assets.get? (wheelName release.version) = some wheelUrl
      ∧ release.assets.get? "SHA256SUMS" = some sumsUrl
      ∧ [Entry.released worker release].Sublist journal
  | .fetchingWheel release wheelUrl sumsUrl sums expected =>
    (∃ current, setup.current = some current ∧ release.version.newer current = true)
      ∧ release.assets.get? (wheelName release.version) = some wheelUrl
      ∧ release.assets.get? "SHA256SUMS" = some sumsUrl
      ∧ [.released worker release, .fetchedSums worker sumsUrl sums].Sublist journal
      ∧ listedDigest setup.platform (wheelName release.version) sums = some expected
  | .announcing release wheel | .preparing release wheel | .probingPip release wheel
  | .findingUv release wheel | .installing release wheel _ =>
    Verified setup journal worker release wheel
  | .verifying release =>
    ∃ wheel, Verified setup journal worker release wheel
      ∧ [.install worker wheel, .installed worker].Sublist journal
  | .leaving release .verified | .announcingRestart release =>
    Tested setup journal worker release
  | .leaving _ _ => True
  | .restarting release => Tested setup journal worker release ∧ .reached worker ∈ journal
  | .done => True

/-- A verified wheel stays verified. -/
theorem Verified.append (h : Verified setup journal worker release wheel) (more : List Entry) :
    Verified setup (journal ++ more) worker release wheel := by
  obtain ⟨wheelUrl, sumsUrl, sums, hwheel, hsums, hfetched, hlisted⟩ := h.fetched
  exact ⟨h.newer, wheelUrl, sumsUrl, sums, hwheel, hsums, sublist_append_right hfetched more,
    hlisted⟩

/-- A tested installation stays tested. -/
theorem Tested.append (h : Tested setup journal worker release) (more : List Entry) :
    Tested setup (journal ++ more) worker release := by
  obtain ⟨wheel, output, hverified, hentries, houtput⟩ := h
  exact ⟨wheel, output, hverified.append more, sublist_append_right hentries more, houtput⟩

/-- What a worker knows it knows from then on. -/
theorem Knows.append (h : Knows setup journal worker stage) (more : List Entry) :
    Knows setup (journal ++ more) worker stage := by
  cases stage with
  | refreshing => trivial
  | choosing release => exact sublist_append_right h more
  | fetchingSums release wheelUrl sumsUrl =>
    obtain ⟨hnewer, hwheel, hsums, hreleased⟩ := h
    exact ⟨hnewer, hwheel, hsums, sublist_append_right hreleased more⟩
  | fetchingWheel release wheelUrl sumsUrl sums expected =>
    obtain ⟨hnewer, hwheel, hsums, hentries, hlisted⟩ := h
    exact ⟨hnewer, hwheel, hsums, sublist_append_right hentries more, hlisted⟩
  | announcing release wheel => exact Verified.append h more
  | preparing release wheel => exact Verified.append h more
  | probingPip release wheel => exact Verified.append h more
  | findingUv release wheel => exact Verified.append h more
  | installing release wheel tool => exact Verified.append h more
  | verifying release =>
    obtain ⟨wheel, hverified, hentries⟩ := h
    exact ⟨wheel, hverified.append more, sublist_append_right hentries more⟩
  | leaving release how =>
    cases how with
    | verified => exact Tested.append h more
    | reported => trivial
    | raising error => trivial
  | announcingRestart release => exact Tested.append h more
  | restarting release => exact ⟨h.1.append more, List.mem_append_left _ h.2⟩
  | done => trivial

/-- The stage after the choice. -/
theorem knows_choose (setup : Setup) (h : [Entry.released worker release].Sublist journal) :
    Knows setup journal worker (choose setup release).stage
      ∧ (choose setup release).entries = [] := by
  rw [choose]
  cases hcurrent : setup.current with
  | none => exact ⟨trivial, rfl⟩
  | some current =>
    dsimp only
    split_ifs with holder
    · exact ⟨trivial, rfl⟩
    · have hnewer : release.version.newer current = true := by simpa using holder
      cases hwheel : release.assets.get? (wheelName release.version) with
      | none => exact ⟨trivial, rfl⟩
      | some wheelUrl =>
        cases hsums : release.assets.get? "SHA256SUMS" with
        | none => exact ⟨trivial, rfl⟩
        | some sumsUrl =>
          exact ⟨⟨⟨current, hcurrent, hnewer⟩, hwheel, hsums, h⟩, rfl⟩

variable {entries : List Entry}

/-- Entries that need no evidence keep a journal justified. -/
theorem justified_append_of_free (hjournal : Justified (evidence setup) journal)
    (hfree : ∀ entry ∈ entries, ∀ earlier, evidence setup earlier entry) :
    Justified (evidence setup) (journal ++ entries) := by
  induction entries generalizing journal with
  | nil => simpa using hjournal
  | cons entry entries ih =>
    have hlater := ih (hjournal.append (hfree entry (by simp) journal))
      fun other hother => hfree other (List.mem_cons_of_mem _ hother)
    rwa [List.append_assoc, List.singleton_append] at hlater

/-- A step of a worker adds to the journal what the worker then knows, and what is allowed. -/
theorem knows_advance (h : Knows setup journal worker stage)
    (hjournal : Justified (evidence setup) journal)
    (hmove : advance setup worker stage answer = some move) :
    Knows setup (journal ++ move.entries) worker move.stage
      ∧ Justified (evidence setup) (journal ++ move.entries) := by
  -- A step without entries, to a stage that the worker knows enough for.
  have hquiet : ∀ {quiet : Move}, quiet.entries = [] → Knows setup journal worker quiet.stage →
      Knows setup (journal ++ quiet.entries) worker quiet.stage
        ∧ Justified (evidence setup) (journal ++ quiet.entries) := by
    intro quiet hentries hstage
    rw [hentries, List.append_nil]
    exact ⟨hstage, hjournal⟩
  revert hmove
  fun_cases advance setup worker stage answer with
  | case1 answer now release hrelease =>
    rintro ⟨rfl⟩
    exact ⟨sublist_snoc (List.nil_sublist journal) _,
      justified_append_of_free hjournal (by simp [evidence])⟩
  | case3 release =>
    rintro ⟨rfl⟩
    obtain ⟨hstage, hentries⟩ := knows_choose setup h
    exact hquiet hentries hstage
  | case6 release wheelUrl sumsUrl sums expected hlisted =>
    rintro ⟨rfl⟩
    obtain ⟨hnewer, hwheel, hsums, hreleased⟩ := h
    exact ⟨⟨hnewer, hwheel, hsums, sublist_snoc hreleased _, hlisted⟩,
      justified_append_of_free hjournal (by simp [evidence])⟩
  | case9 release wheelUrl sumsUrl sums expected wheel hdigest =>
    rintro ⟨rfl⟩
    obtain ⟨hnewer, hwheel, hsums, hentries, hlisted⟩ := h
    rw [not_not] at hdigest
    exact ⟨⟨hnewer, wheelUrl, sumsUrl, sums, hwheel, hsums, sublist_snoc hentries _,
      hdigest ▸ hlisted⟩, justified_append_of_free hjournal (by simp [evidence])⟩
  | case10 | case13 | case18 | case26 =>
    rintro ⟨rfl⟩
    exact hquiet rfl h
  | case15 release wheel probe =>
    rintro ⟨rfl⟩
    refine hquiet rfl ?_
    dsimp only
    split
    · exact h
    · exact h
  | case19 release wheel tool error =>
    rintro ⟨rfl⟩
    exact ⟨trivial, hjournal.append ⟨release, h⟩⟩
  | case20 release wheel tool result hfailed =>
    rintro ⟨rfl⟩
    exact ⟨trivial, hjournal.append ⟨release, h⟩⟩
  | case21 release wheel tool result hfailed =>
    rintro ⟨rfl⟩
    have hinstall : Justified (evidence setup) (journal ++ [.install worker wheel]) :=
      hjournal.append ⟨release, h⟩
    have hinstalled := justified_append_of_free hinstall
      (by simp [evidence] : ∀ entry ∈ [Entry.installed worker], ∀ earlier,
        evidence setup earlier entry)
    rw [List.append_assoc] at hinstalled
    exact ⟨⟨wheel, Verified.append h _, List.sublist_append_right _ _⟩, hinstalled⟩
  | case23 release probe hversion =>
    rintro ⟨rfl⟩
    obtain ⟨wheel, hverified, hentries⟩ := h
    exact ⟨⟨wheel, probe.stdout, hverified.append _, sublist_snoc hentries _, hversion.2⟩,
      justified_append_of_free hjournal (by simp [evidence])⟩
  | case29 release =>
    rintro ⟨rfl⟩
    exact ⟨⟨Tested.append h _, by simp⟩,
      justified_append_of_free hjournal (by simp [evidence])⟩
  | case30 release =>
    rintro ⟨rfl⟩
    exact ⟨trivial, hjournal.append ⟨release, h.1⟩⟩
  | case31 release error =>
    rintro ⟨rfl⟩
    have hrestart : Justified (evidence setup) (journal ++ [.restart worker]) :=
      hjournal.append ⟨release, h.1⟩
    have hraised := justified_append_of_free hrestart
      (by simp [evidence] : ∀ entry ∈ [Entry.restartRaised worker], ∀ earlier,
        evidence setup earlier entry)
    rw [List.append_assoc] at hraised
    exact ⟨trivial, hraised⟩
  | case32 => simp
  | _ =>
    -- The worker reports a failure, or leaves the directory with one.
    rintro ⟨rfl⟩
    exact hquiet rfl trivial

/-- What holds in every run: each worker knows what is in the journal, the journal has the
evidence for every entry, and a state that says that the service restarts has its entry. -/
structure Sound (setup : Setup) (manager : Manager) : Prop where
  knows : ∀ worker stage, manager.workers[worker]? = some stage →
    Knows setup manager.journal worker stage
  evident : Justified (evidence setup) manager.journal
  marked : manager.state = .restarting → ∃ worker, .reached worker ∈ manager.journal
  raised : ∀ worker, .restartRaised worker ∈ manager.journal →
    ∃ other, .reached other ∈ manager.journal

/-! ### How many workers there are -/

/-- A worker that has something left to do. -/
def Stage.live : Stage → Bool
  | .done => false
  | _ => true

/-- A worker that is at work: the state is `updating` as long as there is one. -/
def Stage.busy : Stage → Bool
  | .done | .restarting _ | .leaving _ .reported => false
  | _ => true

/-- A running worker. -/
def Manager.Running (manager : Manager) (worker : ℕ) : Prop :=
  ∃ stage, manager.workers[worker]? = some stage ∧ stage.live = true

/-- A worker may start when none has reached the restart. -/
def beforeRestart (earlier : List Entry) : Entry → Prop
  | .started _ => ∀ worker, .reached worker ∉ earlier
  | _ => True

/-- What the manager promises: there is one running worker at most, none starts after one has
reached the restart, and every installation and every restart has its evidence. -/
structure Promised (setup : Setup) (manager : Manager) : Prop where
  single : ∀ first second, manager.Running first → manager.Running second → first = second
  closed : Justified beforeRestart manager.journal
  evident : Justified (evidence setup) manager.journal

/-- A request that is not accepted while a worker that has reported a failure is still in its
temporary directory, nor after the restart was announced. -/
def Orderly (setup : Setup) (manager : Manager) : Event → Prop
  | .request => (manager.apply setup).1.1 = true →
      manager.state ≠ .restarting ∧ (∀ worker, .restartRaised worker ∉ manager.journal)
        ∧ ∀ release, .leaving release .reported ∉ manager.workers
  | _ => True

/-- Entries that do not say where a worker stands. -/
def Entry.silent : Entry → Bool
  | .started _ | .reached _ | .restartRaised _ => false
  | _ => true

/-- What a step of a worker does to the state. -/
inductive Turn (worker : ℕ) (before : UpdateState) : Stage → UpdateState → Move → Prop where
  /-- at work before and after; a failure that was superseded may become `idle` -/
  | working {stage : Stage} {after : UpdateState} {move : Move} (hstage : stage.busy = true)
      (hnext : move.stage.busy = true) (hentries : move.entries.all Entry.silent = true)
      (hafter : after = before ∨ (before = .failed ∧ after = .idle)) :
      Turn worker before stage after move
  /-- a failure is reported -/
  | failing {stage : Stage} {move : Move} (hstage : stage.busy = true)
      (hnext : move.stage = .done ∨ ∃ release, move.stage = .leaving release .reported)
      (hentries : move.entries.all Entry.silent = true) :
      Turn worker before stage .failed move
  /-- the directory is left after a report -/
  | ending {release : Release} {after : UpdateState} {move : Move}
      (hnext : move.stage = .done) (hentries : move.entries = [])
      (hafter : after = before ∨ after = .failed) :
      Turn worker before (.leaving release .reported) after move
  | reaching {release : Release} {move : Move} (hnext : move.stage = .restarting release)
      (hentries : move.entries = [.reached worker]) :
      Turn worker before (.announcingRestart release) .restarting move
  | restarted {release : Release} {move : Move} (hnext : move.stage = .done)
      (hentries : move.entries = [.restart worker]) :
      Turn worker before (.restarting release) before move
  | crashed {release : Release} {move : Move} (hnext : move.stage = .done)
      (hentries : move.entries = [.restart worker, .restartRaised worker]) :
      Turn worker before (.restarting release) .failed move

/-- Publishing a release changes the state from `failed` to `idle` only. -/
theorem state_publish (manager : Manager) (release : Release) (now : String) :
    (manager.publish setup release now).state = manager.state
      ∨ (manager.state = .failed ∧ (manager.publish setup release now).state = .idle) := by
  rw [Manager.publish]
  dsimp only
  split_ifs with hfailed
  · exact .inr ⟨hfailed.1, rfl⟩
  · exact .inl rfl

/-- The choice of a release goes on or fails. -/
theorem turn_choose (manager : Manager) (release : Release) :
    Turn worker manager.state (.choosing release) ((choose setup release).change manager).state
      (choose setup release) := by
  have hfail : ∀ message : String, Turn worker manager.state (.choosing release)
      ((Move.failed message).change manager).state (Move.failed message) :=
    fun message => .failing rfl (.inl rfl) rfl
  rw [choose]
  cases setup.current with
  | none => exact hfail _
  | some current =>
    dsimp only
    split_ifs
    · exact hfail _
    · split
      · exact .working rfl rfl rfl (.inl rfl)
      · exact hfail _

/-- A step of a worker is a turn. -/
theorem turn_advance (manager : Manager)
    (hmove : advance setup worker stage answer = some move) :
    Turn worker manager.state stage (move.change manager).state move := by
  revert hmove
  fun_cases advance setup worker stage answer with
  | case1 answer now release hrelease =>
    rintro ⟨rfl⟩
    exact .working rfl rfl rfl (state_publish manager release now)
  | case3 release =>
    rintro ⟨rfl⟩
    exact turn_choose manager release
  | case15 release wheel probe =>
    rintro ⟨rfl⟩
    refine .working rfl ?_ rfl (.inl rfl)
    dsimp only
    split <;> rfl
  | case17 | case20 | case24 =>
    -- The failure is reported in the temporary directory.
    rintro ⟨rfl⟩
    exact .failing rfl (.inr ⟨_, rfl⟩) rfl
  | case2 | case4 | case5 | case7 | case8 | case11 | case28 =>
    rintro ⟨rfl⟩
    exact .failing rfl (.inl rfl) rfl
  | case25 release how error =>
    rintro ⟨rfl⟩
    cases how with
    | reported => exact .ending rfl rfl (.inr rfl)
    | verified => exact .failing rfl (.inl rfl) rfl
    | raising earlier => exact .failing rfl (.inl rfl) rfl
  | case27 release =>
    rintro ⟨rfl⟩
    exact .ending rfl rfl (.inl rfl)
  | case29 release =>
    rintro ⟨rfl⟩
    exact .reaching rfl rfl
  | case30 release =>
    rintro ⟨rfl⟩
    exact .restarted rfl rfl
  | case31 release error =>
    rintro ⟨rfl⟩
    exact .crashed rfl rfl
  | case32 => simp
  | _ =>
    rintro ⟨rfl⟩
    exact .working rfl rfl rfl (.inl rfl)

/-! ### One step -/

/-- A step of a worker, taken apart. -/
theorem work_cases (h : step setup manager (.work worker answer) = some next) :
    ∃ stage move, manager.workers[worker]? = some stage
      ∧ advance setup worker stage answer = some move ∧ next = manager.perform worker move := by
  simp only [step, Option.bind_eq_bind, Option.bind_eq_some_iff, Option.pure_def,
    Option.some.injEq] at h
  obtain ⟨stage, hstage, move, hmove, hnext⟩ := h
  exact ⟨stage, move, hstage, hmove, hnext.symm⟩

/-- A request is refused, or it starts a worker. -/
theorem apply_cases (setup : Setup) (manager : Manager) :
    ((manager.apply setup).1.1 = false ∧ (manager.apply setup).2 = manager)
      ∨ ((manager.apply setup).1.1 = true ∧ manager.state ≠ .updating
        ∧ (manager.apply setup).2 = { manager with
            state := .updating
            detail := some "downloading"
            workers := manager.workers ++ [.refreshing]
            journal := manager.journal ++ [.started manager.workers.length] }) := by
  rw [Manager.apply]
  split_ifs with hmode hrestart hupdating havailable
  · exact .inl ⟨rfl, rfl⟩
  · exact .inl ⟨rfl, rfl⟩
  · exact .inl ⟨rfl, rfl⟩
  · exact .inl ⟨rfl, rfl⟩
  · exact .inr ⟨rfl, hupdating, rfl⟩

/-- A poll leaves the workers and the journal, and the state but for a superseded failure. -/
theorem poll_frame (setup : Setup) (manager : Manager) (answer : Except String Json)
    (now : String) :
    (manager.checkNow setup answer now).workers = manager.workers
      ∧ (manager.checkNow setup answer now).journal = manager.journal
      ∧ ((manager.checkNow setup answer now).state = manager.state
        ∨ (manager.state = .failed ∧ (manager.checkNow setup answer now).state = .idle)) := by
  rw [Manager.checkNow]
  split
  · rename_i release hrelease
    refine ⟨?_, ?_, state_publish manager release now⟩
    · rw [Manager.publish]
      dsimp only
      split <;> rfl
    · rw [Manager.publish]
      dsimp only
      split <;> rfl
  · dsimp only
    split
    · exact ⟨rfl, rfl, .inl rfl⟩
    · exact ⟨rfl, rfl, .inl rfl⟩

/-- The workers after a step of one of them. -/
theorem workers_perform {other : ℕ} {stage' : Stage}
    (h : (manager.perform worker move).workers[other]? = some stage') :
    (other = worker ∧ stage' = move.stage)
      ∨ (other ≠ worker ∧ manager.workers[other]? = some stage') := by
  have hset : (manager.workers.set worker move.stage)[other]? = some stage' := h
  rw [List.getElem?_set] at hset
  by_cases heq : worker = other
  · rw [if_pos heq] at hset
    split_ifs at hset
    exact .inl ⟨heq.symm, (Option.some.inj hset).symm⟩
  · rw [if_neg heq] at hset
    exact .inr ⟨Ne.symm heq, hset⟩

/-- The workers after a request is accepted. -/
theorem workers_started {workers : List Stage} {other : ℕ} {stage' : Stage}
    (h : (workers ++ [Stage.refreshing])[other]? = some stage') :
    (other = workers.length ∧ stage' = .refreshing) ∨ workers[other]? = some stage' := by
  rcases Nat.lt_trichotomy other workers.length with hlt | rfl | hgt
  · rw [List.getElem?_append_left hlt] at h
    exact .inr h
  · simp only [List.getElem?_concat_length, Option.some.injEq] at h
    exact .inl ⟨rfl, h.symm⟩
  · have hlength : (workers ++ [Stage.refreshing]).length ≤ other := by
      rw [List.length_append, List.length_singleton]
      omega
    rw [List.getElem?_eq_none hlength] at h
    cases h

/-- What holds in every run is kept by every event. -/
theorem Sound.step {event : Event} (h : Sound setup manager)
    (hstep : step setup manager event = some next) : Sound setup next := by
  cases event with
  | poll answer now =>
    obtain rfl := Option.some.inj hstep
    obtain ⟨hworkers, hjournal, hstate⟩ := poll_frame setup manager answer now
    refine ⟨?_, ?_, fun hmark => ?_, ?_⟩
    · rw [hworkers, hjournal]
      exact h.knows
    · rw [hjournal]
      exact h.evident
    · rw [hjournal]
      rcases hstate with hsame | ⟨-, hidle⟩
      · exact h.marked (hsame ▸ hmark)
      · rw [hidle] at hmark
        cases hmark
    · rw [hjournal]
      exact h.raised
  | request =>
    obtain rfl := Option.some.inj hstep
    rcases apply_cases setup manager with ⟨-, hsame⟩ | ⟨-, -, hstarted⟩
    · rw [hsame]
      exact h
    · rw [hstarted]
      refine ⟨fun other stage' hother => ?_, h.evident.append trivial, (by simp), ?_⟩
      · rcases workers_started hother with ⟨-, rfl⟩ | hold
        · trivial
        · exact (h.knows other stage' hold).append _
      · intro other hother
        simp only [List.mem_append, List.mem_singleton, reduceCtorEq, or_false] at hother
        obtain ⟨first, hfirst⟩ := h.raised other hother
        exact ⟨first, List.mem_append_left _ hfirst⟩
  | work worker answer =>
    obtain ⟨stage, move, hstage, hmove, rfl⟩ := work_cases hstep
    obtain ⟨hknows, hevident⟩ := knows_advance (h.knows worker stage hstage) h.evident hmove
    refine ⟨fun other stage' hother => ?_, hevident, fun hmark => ?_, fun other hother => ?_⟩
    · rcases workers_perform hother with ⟨rfl, rfl⟩ | ⟨-, hold⟩
      · exact hknows
      · exact (h.knows other stage' hold).append _
    · -- The state says that the service restarts: it did before, or it is announced now.
      have hkept : manager.state = .restarting →
          ∃ other, Entry.reached other ∈ manager.journal ++ move.entries := by
        intro hbefore
        obtain ⟨first, hfirst⟩ := h.marked hbefore
        exact ⟨first, List.mem_append_left _ hfirst⟩
      have hturn := turn_advance manager hmove
      have hmark' : (move.change manager).state = .restarting := hmark
      rw [hmark'] at hturn
      generalize manager.state = before at hturn hkept
      generalize hrestarting : UpdateState.restarting = after at hturn
      cases hturn with
      | working _ _ _ hafter =>
        rcases hafter with rfl | ⟨-, rfl⟩
        · exact hkept hrestarting.symm
        · cases hrestarting
      | failing _ _ _ => cases hrestarting
      | ending _ _ hafter =>
        rcases hafter with rfl | rfl
        · exact hkept hrestarting.symm
        · cases hrestarting
      | reaching _ hentries => exact ⟨worker, List.mem_append_right _ (by simp [hentries])⟩
      | restarted _ _ => exact hkept hrestarting.symm
      | crashed _ _ => cases hrestarting
    · have hold : ∀ first, Entry.reached first ∈ manager.journal →
          ∃ first, Entry.reached first ∈ (manager.perform worker move).journal :=
        fun first hfirst => ⟨first, List.mem_append_left _ hfirst⟩
      rcases List.mem_append.mp hother with hbefore | hnow
      · obtain ⟨first, hfirst⟩ := h.raised other hbefore
        exact hold first hfirst
      · have hloud : ∀ entries : List Entry, entries.all Entry.silent = true →
            Entry.restartRaised other ∉ entries := by
          intro entries hsilent hmem
          exact absurd (List.all_eq_true.mp hsilent _ hmem) (by simp [Entry.silent])
        have hstage' := h.knows worker stage hstage
        have hturn := turn_advance manager hmove
        generalize manager.state = before at hturn
        generalize (move.change manager).state = after at hturn
        cases hturn with
        | working _ _ hentries _ => exact absurd hnow (hloud _ hentries)
        | failing _ _ hentries => exact absurd hnow (hloud _ hentries)
        | ending _ hentries _ => simp [hentries] at hnow
        | reaching _ hentries => simp [hentries] at hnow
        | restarted _ hentries => simp [hentries] at hnow
        | crashed _ _ => exact hold worker hstage'.2

/-- What holds at the start. -/
theorem sound_new : Sound setup {} where
  knows := fun worker stage h => by simp at h
  evident := justified_nil
  marked := fun h => by cases h
  raised := fun worker h => by simp at h

/-! ### Runs whose requests are orderly -/

/-- What holds in a run whose requests are orderly. -/
structure Control (manager : Manager) : Prop where
  single : ∀ first second, manager.Running first → manager.Running second → first = second
  closed : Justified beforeRestart manager.journal
  busy : ∀ (worker : ℕ) (stage : Stage), manager.workers[worker]? = some stage →
    stage.busy = true → manager.state = .updating
  announced : ∀ (worker : ℕ) (release : Release),
    manager.workers[worker]? = some (.restarting release) → manager.state = .restarting
  final : ∀ other, .reached other ∈ manager.journal →
    (manager.state = .restarting ∨ ∃ raised, .restartRaised raised ∈ manager.journal)
      ∧ ∀ (worker : ℕ) (stage : Stage), manager.workers[worker]? = some stage →
        stage = .done ∨ ∃ release, stage = .restarting release

/-- A worker that is not at work is done, about to restart, or leaving after a report. -/
theorem cases_of_not_busy (h : stage.busy = false) :
    stage = .done ∨ (∃ release, stage = .restarting release)
      ∨ ∃ release, stage = .leaving release .reported := by
  cases stage with
  | done => exact .inl rfl
  | restarting release => exact .inr (.inl ⟨release, rfl⟩)
  | leaving release how =>
    cases how with
    | reported => exact .inr (.inr ⟨release, rfl⟩)
    | verified => cases h
    | raising error => cases h
  | _ => cases h

/-- A worker that is not running is done. -/
theorem eq_done_of_not_live (h : ¬stage.live = true) : stage = .done := by
  cases stage <;> first | rfl | exact absurd rfl h

/-- A busy worker is running. -/
theorem live_of_busy (h : stage.busy = true) : stage.live = true := by
  cases stage <;> first | rfl | cases h

/-- A worker that takes a turn is running. -/
theorem Turn.live {before after : UpdateState} (h : Turn worker before stage after move) :
    stage.live = true := by
  cases h with
  | working hstage => exact live_of_busy hstage
  | failing hstage => exact live_of_busy hstage
  | ending => rfl
  | reaching => rfl
  | restarted => rfl
  | crashed => rfl

/-- Entries that start no worker keep a journal in which none starts too late. -/
theorem closed_append (hjournal : Justified beforeRestart journal)
    (hentries : ∀ entry ∈ entries, ∀ starter, entry ≠ .started starter) :
    Justified beforeRestart (journal ++ entries) := by
  induction entries generalizing journal with
  | nil => simpa using hjournal
  | cons entry entries ih =>
    have hfree : beforeRestart journal entry := by
      cases entry with
      | started starter => exact absurd rfl (hentries _ (by simp) starter)
      | _ => trivial
    have hlater := ih (hjournal.append hfree)
      fun other hother => hentries other (List.mem_cons_of_mem _ hother)
    rwa [List.append_assoc, List.singleton_append] at hlater

/-- Silent entries neither start a worker nor reach the restart. -/
theorem silent_entries (h : entries.all Entry.silent = true) :
    (∀ entry ∈ entries, ∀ starter, entry ≠ .started starter)
      ∧ ∀ other, Entry.reached other ∉ entries := by
  refine ⟨fun entry hentry starter heq => ?_, fun other hother => ?_⟩
  · exact absurd (List.all_eq_true.mp h entry hentry) (by simp [heq, Entry.silent])
  · exact absurd (List.all_eq_true.mp h _ hother) (by simp [Entry.silent])

/-- When every worker is done, only the journal is left to look at. -/
theorem Control.of_done (hdone : ∀ (worker : ℕ) (stage : Stage),
      manager.workers[worker]? = some stage → stage = .done)
    (hclosed : Justified beforeRestart manager.journal)
    (hfinal : ∀ other, .reached other ∈ manager.journal →
      manager.state = .restarting ∨ ∃ raised, .restartRaised raised ∈ manager.journal) :
    Control manager where
  single := fun first second hfirst _ => by
    obtain ⟨stage, hstage, hlive⟩ := hfirst
    obtain rfl := hdone first stage hstage
    cases hlive
  closed := hclosed
  busy := fun worker stage hstage hbusy => by
    obtain rfl := hdone worker stage hstage
    cases hbusy
  announced := fun worker release hstage => by
    cases hdone worker _ hstage
  final := fun other hother =>
    ⟨hfinal other hother, fun worker stage hstage => .inl (hdone worker stage hstage)⟩

/-- An accepted request, when no worker is running and none has reached the restart. -/
theorem Control.start (h : Control manager) (horderly : Orderly setup manager .request)
    (haccepted : (manager.apply setup).1.1 = true) : Control (manager.apply setup).2 := by
  rcases apply_cases setup manager with ⟨hrefused, -⟩ | ⟨-, hupdating, hstarted⟩
  · rw [hrefused] at haccepted
    cases haccepted
  obtain ⟨hrestarting, hraised, hleaving⟩ := horderly haccepted
  have hnone : ∀ other, .reached other ∉ manager.journal := by
    intro other hother
    rcases (h.final other hother).1 with hstate | ⟨raised, hmem⟩
    · exact hrestarting hstate
    · exact hraised raised hmem
  have hdone : ∀ (other : ℕ) (stage' : Stage), manager.workers[other]? = some stage' →
      stage' = .done := by
    intro other stage' hother
    have hidle : stage'.busy = false := by
      rw [← Bool.not_eq_true]
      exact fun hbusy => hupdating (h.busy other stage' hother hbusy)
    rcases cases_of_not_busy hidle with hdone | ⟨release, rfl⟩ | ⟨release, rfl⟩
    · exact hdone
    · exact absurd (h.announced other release hother) hrestarting
    · exact absurd (List.mem_of_getElem? hother) (hleaving release)
  rw [hstarted]
  have hrunning : ∀ other, Manager.Running { manager with
        state := .updating
        detail := some "downloading"
        workers := manager.workers ++ [.refreshing]
        journal := manager.journal ++ [.started manager.workers.length] } other →
      other = manager.workers.length := by
    rintro other ⟨stage', hother, hlive⟩
    rcases workers_started hother with ⟨hnew, -⟩ | hold
    · exact hnew
    · rw [hdone other stage' hold] at hlive
      cases hlive
  refine ⟨fun first second hfirst hsecond => ?_, ?_, fun other stage' hother hbusy => rfl, ?_, ?_⟩
  · rw [hrunning first hfirst, hrunning second hsecond]
  · exact h.closed.append hnone
  · intro other release hother
    rcases workers_started hother with ⟨-, hnew⟩ | hold
    · cases hnew
    · cases hdone other _ hold
  · intro other hother
    simp only [List.mem_append, List.mem_singleton, reduceCtorEq, or_false] at hother
    exact absurd hother (hnone other)

/-- A step of the only running worker. -/
theorem Control.work (h : Control manager) (hstage : manager.workers[worker]? = some stage)
    (hmove : advance setup worker stage answer = some move) :
    Control (manager.perform worker move) := by
  have hturn := turn_advance manager hmove
  have hothers : ∀ (other : ℕ) (stage' : Stage), other ≠ worker →
      manager.workers[other]? = some stage' →
      stage' = .done := by
    intro other stage' hne hother
    refine eq_done_of_not_live fun hlive => hne ?_
    exact h.single other worker ⟨stage', hother, hlive⟩ ⟨stage, hstage, hturn.live⟩
  -- Afterwards there is the new stage, and every other worker is done.
  have hafter : ∀ (other : ℕ) (stage' : Stage),
          (manager.perform worker move).workers[other]? = some stage' →
      (other = worker ∧ stage' = move.stage) ∨ stage' = .done := by
    intro other stage' hother
    rcases workers_perform hother with hnew | ⟨hne, hold⟩
    · exact .inl hnew
    · exact .inr (hothers other stage' hne hold)
  have hall : ∀ P : Stage → Prop, P move.stage → P .done → ∀ (other : ℕ) (stage' : Stage),
      (manager.perform worker move).workers[other]? = some stage' → P stage' := by
    intro P hnew hdone other stage' hother
    rcases hafter other stage' hother with ⟨-, rfl⟩ | rfl
    · exact hnew
    · exact hdone
  have hsingle : ∀ first second, (manager.perform worker move).Running first →
      (manager.perform worker move).Running second → first = second := by
    have hone : ∀ other, (manager.perform worker move).Running other → other = worker := by
      rintro other ⟨stage', hother, hlive⟩
      rcases hafter other stage' hother with ⟨heq, -⟩ | rfl
      · exact heq
      · cases hlive
    intro first second hfirst hsecond
    rw [hone first hfirst, hone second hsecond]
  -- Before the restart is announced, no entry says that it is reached.
  have hearly : stage ≠ .done → (∀ release, stage ≠ .restarting release) →
      ∀ other, .reached other ∉ manager.journal := by
    intro hlive hrestarting other hother
    rcases (h.final other hother).2 worker stage hstage with heq | ⟨release, heq⟩
    · exact hlive heq
    · exact hrestarting release heq
  have hbusy := h.busy worker stage hstage
  have hannounced := h.announced worker
  have hstate : (manager.perform worker move).state = (move.change manager).state := rfl
  have hjournal : (manager.perform worker move).journal = manager.journal ++ move.entries := rfl
  generalize hresult : (move.change manager).state = after at hturn
  rw [hresult] at hstate
  cases hturn with
  | working hworking hnext hentries hsame =>
    have hupdating := hbusy hworking
    have hkeeps : after = .updating := by
      rcases hsame with rfl | ⟨hfailed, -⟩
      · exact hupdating
      · rw [hupdating] at hfailed
        cases hfailed
    obtain ⟨hstarts, hreached⟩ := silent_entries hentries
    have hno : ∀ other, .reached other ∉ manager.journal :=
      hearly (by rintro rfl; cases hworking) (by rintro release rfl; cases hworking)
    refine ⟨hsingle, hjournal ▸ closed_append h.closed hstarts,
      fun _ _ _ _ => hstate.trans hkeeps, fun other release hother => ?_, fun other hother => ?_⟩
    · rcases hafter other _ hother with ⟨-, hnew⟩ | hdone
      · rw [← hnew] at hnext
        cases hnext
      · cases hdone
    · rw [hjournal, List.mem_append] at hother
      exact absurd hother (not_or.mpr ⟨hno other, hreached other⟩)
  | failing hworking hnext hentries =>
    obtain ⟨hstarts, hreached⟩ := silent_entries hentries
    have hno : ∀ other, .reached other ∉ manager.journal :=
      hearly (by rintro rfl; cases hworking) (by rintro release rfl; cases hworking)
    have hidle := hall
      (fun stage' => stage' = .done ∨ ∃ release, stage' = .leaving release .reported)
      hnext (.inl rfl)
    refine ⟨hsingle, hjournal ▸ closed_append h.closed hstarts,
      fun other stage' hother hworks => ?_, fun other release hother => ?_,
      fun other hother => ?_⟩
    · rcases hidle other stage' hother with rfl | ⟨release, rfl⟩
      · cases hworks
      · cases hworks
    · rcases hidle other _ hother with heq | ⟨_, heq⟩
      · cases heq
      · cases heq
    · rw [hjournal, List.mem_append] at hother
      exact absurd hother (not_or.mpr ⟨hno other, hreached other⟩)
  | ending hnext hentries hsame =>
    have hno : ∀ other, .reached other ∉ manager.journal :=
      hearly (by simp) (by simp)
    rw [hentries, List.append_nil] at hjournal
    refine Control.of_done (hall (· = .done) hnext rfl) (hjournal ▸ h.closed)
      fun other hother => ?_
    rw [hjournal] at hother
    exact absurd hother (hno other)
  | reaching hnext hentries =>
    have hend := hall (fun stage' => stage' = .done ∨ ∃ release, stage' = .restarting release)
      (.inr ⟨_, hnext⟩) (.inl rfl)
    refine ⟨hsingle, ?_, fun other stage' hother hworks => ?_, fun _ _ _ => hstate,
      fun other _ => ⟨.inl hstate, hend⟩⟩
    · rw [hjournal, hentries]
      exact h.closed.append trivial
    · rcases hend other stage' hother with rfl | ⟨release, rfl⟩
      · cases hworks
      · cases hworks
  | restarted hnext hentries =>
    have hrestarting := hannounced _ hstage
    refine Control.of_done (hall (· = .done) hnext rfl) ?_
      fun other _ => .inl (hstate.trans hrestarting)
    rw [hjournal, hentries]
    exact h.closed.append trivial
  | crashed hnext hentries =>
    refine Control.of_done (hall (· = .done) hnext rfl) ?_ fun other _ => .inr ⟨worker, ?_⟩
    · rw [hjournal, hentries]
      exact closed_append h.closed (by simp)
    · rw [hjournal, hentries]
      simp

/-- What holds in a run whose requests are orderly is kept by every orderly event. -/
theorem Control.step {event : Event} (h : Control manager)
    (horderly : Orderly setup manager event) (hstep : step setup manager event = some next) :
    Control next := by
  cases event with
  | poll answer now =>
    obtain rfl := Option.some.inj hstep
    obtain ⟨hworkers, hjournal, hstate⟩ := poll_frame setup manager answer now
    -- A state other than `failed` is kept.
    have hkept : ∀ state, state ≠ UpdateState.failed → manager.state = state →
        (manager.checkNow setup answer now).state = state := by
      rintro state hne rfl
      rcases hstate with hsame | ⟨hfailed, -⟩
      · exact hsame
      · exact absurd hfailed hne
    refine ⟨?_, hjournal ▸ h.closed, ?_, ?_, ?_⟩
    · simp only [Manager.Running, hworkers]
      exact h.single
    · rw [hworkers]
      exact fun other stage' hother hbusy =>
        hkept _ (by simp) (h.busy other stage' hother hbusy)
    · rw [hworkers]
      exact fun other release hother => hkept _ (by simp) (h.announced other release hother)
    · rw [hworkers, hjournal]
      intro other hother
      obtain ⟨hwhy, hend⟩ := h.final other hother
      exact ⟨hwhy.imp (hkept _ (by simp)) id, hend⟩
  | request =>
    obtain rfl := Option.some.inj hstep
    rcases apply_cases setup manager with ⟨-, hsame⟩ | ⟨haccepted, -, -⟩
    · rw [hsame]
      exact h
    · exact h.start horderly haccepted
  | work worker answer =>
    obtain ⟨stage, move, hstage, hmove, rfl⟩ := work_cases hstep
    exact h.work hstage hmove

/-- What holds at the start of the manager. -/
theorem control_new : Control {} where
  single := by
    rintro first second ⟨stage, hstage, -⟩
    simp at hstage
  closed := justified_nil
  busy := fun worker stage h => by simp at h
  announced := fun worker release h => by simp at h
  final := fun other h => by simp at h

/-- An event of an orderly run keeps the promises exactly when it is orderly. -/
theorem promised_iff_orderly {events : List Event} {event : Event}
    (hrun : RunWhere (step setup) (Orderly setup) {} events manager)
    (hstep : step setup manager event = some next) :
    Promised setup next ↔ Orderly setup manager event := by
  have hsound : Sound setup manager :=
    hrun.invariant sound_new fun _ _ _ h _ hstep => h.step hstep
  have hcontrol : Control manager :=
    hrun.invariant control_new fun _ _ _ h hallowed hstep => h.step hallowed hstep
  constructor
  · intro hpromised
    cases event with
    | poll answer now => trivial
    | work worker answer => trivial
    | request =>
      intro haccepted
      obtain rfl := Option.some.inj hstep
      rcases apply_cases setup manager with ⟨hrefused, -⟩ | ⟨-, -, hstarted⟩
      · rw [hrefused] at haccepted
        cases haccepted
      rw [hstarted] at hpromised
      have hnone : ∀ worker, .reached worker ∉ manager.journal := hpromised.closed.last
      refine ⟨fun hrestarting => ?_, fun worker hraised => ?_, fun release hleaving => ?_⟩
      · obtain ⟨worker, hworker⟩ := hsound.marked hrestarting
        exact hnone worker hworker
      · obtain ⟨other, hother⟩ := hsound.raised worker hraised
        exact hnone other hother
      · -- The worker that is still in its directory and the new one are both running.
        obtain ⟨worker, hlt, hworker⟩ := List.getElem_of_mem hleaving
        have hold : manager.workers[worker]? = some (.leaving release .reported) := by
          rw [List.getElem?_eq_getElem hlt, hworker]
        have heq := hpromised.single worker manager.workers.length
          ⟨_, (List.getElem?_append_left hlt).trans hold, rfl⟩
          ⟨.refreshing, by simp, rfl⟩
        omega
  · intro horderly
    have hnext := hcontrol.step horderly hstep
    exact ⟨hnext.single, hnext.closed, (hsound.step hstep).evident⟩

/-- **When updates are single flight and verified**: the manager keeps its promises all along a
run exactly when every request of the run is orderly. -/
theorem one_worker_iff {events : List Event}
    (hrun : RunWhere (step setup) (fun _ _ => True) {} events manager) :
    (∀ earlier later middle, events = earlier ++ later →
        RunWhere (step setup) (fun _ _ => True) {} earlier middle → Promised setup middle)
      ↔ RunWhere (step setup) (Orderly setup) {} events manager :=
  RunWhere.good_iff ⟨control_new.single, control_new.closed, justified_nil⟩
    promised_iff_orderly hrun

/-! ### A request during the restart -/

/-- The digest of an empty payload. -/
private def emptyDigest : String :=
  "e3b0c44298fc1c149afbf4c8996fb92427ae41e4649b934ca495991b7852b855"

/-- A supervised service of version 1.0.0 that may update itself. -/
private def supervised : Setup where
  platform :=
    { digit := fun c => if c.isDigit then some (c.toNat - 48) else none
      lower := fun text => String.ofList (text.toList.map Char.toLower)
      sha256 := fun _ => emptyDigest }
  mode := "self-update"
  canRestart := true
  current := some ⟨1, 0, 0⟩

/-- A release of version 1.1.0. -/
private def releaseAnswer : Json :=
  let asset := fun name url => Json.object
    [("name", .string name), ("browser_download_url", .string url)]
  .object [("tag_name", .string "v1.1.0"),
    ("assets", .array [asset "mocop-1.1.0-py3-none-any.whl" "https://wheel",
      asset "SHA256SUMS" "https://sums"])]

/-- An update up to the restart. -/
private def updateEvents : List Event :=
  [ .poll (.ok releaseAnswer) "t0", .request, .work 0 (.release (.ok releaseAnswer) "t1"),
    .work 0 .none, .work 0 (.text (.ok (emptyDigest ++ "  mocop-1.1.0-py3-none-any.whl\n"))),
    .work 0 (.payload (.ok [])), .work 0 .none, .work 0 (.directory (.ok (.ok ()))),
    .work 0 (.process (.ok ⟨0, "pip 24", ""⟩)), .work 0 (.process (.ok ⟨0, "", ""⟩)),
    .work 0 (.process (.ok ⟨0, "1.1.0\n", ""⟩)), .work 0 (.effect (.ok ())), .work 0 .none ]

/-- A request is made while no worker was ever started. -/
private def Unstarted (manager : Manager) : Event → Bool
  | .request => manager.state == .idle && manager.workers.isEmpty && manager.journal.isEmpty
  | _ => true

/-- Such a request is orderly. -/
private theorem orderly_of_unstarted (manager : Manager) (event : Event)
    (h : Unstarted manager event = true) : Orderly supervised manager event := by
  cases event with
  | poll answer now => trivial
  | work worker answer => trivial
  | request =>
    simp only [Unstarted, Bool.and_eq_true, List.isEmpty_iff, beq_iff_eq] at h
    exact fun _ => ⟨by simp [h.1.1], by simp [h.2], by simp [h.1.2]⟩

/-- One update goes through, with its promises kept. -/
theorem one_worker_iff_update :
    ∃ manager, RunWhere (step supervised) (fun _ _ => True) {} updateEvents manager
      ∧ Promised supervised manager ∧ manager.state = .restarting := by
  have hreached : (execute (step supervised) (fun manager event => Unstarted manager event = true)
      {} updateEvents).any (fun manager => manager.state == .restarting) = true := by
    decide +kernel
  obtain ⟨manager, hmanager, hstate⟩ := (Option.any_eq_true _ _).mp hreached
  have hunstarted := runWhere_of_execute hmanager
  have hrun : RunWhere (step supervised) (fun _ _ => True) {} updateEvents manager :=
    hunstarted.mono fun _ _ _ => trivial
  have horderly := hunstarted.mono orderly_of_unstarted
  have hpromised := (one_worker_iff hrun).mpr horderly updateEvents [] manager (by simp) hrun
  exact ⟨manager, hrun, hpromised, by simpa using hstate⟩

/-- A request that arrives during the restart is accepted: two workers run, the second started
after the first had reached the restart. -/
theorem second_worker_during_restart :
    ∃ manager,
      RunWhere (step supervised) (fun _ _ => True) {} (updateEvents ++ [.request]) manager
      ∧ manager.Running 0 ∧ manager.Running 1 ∧ ¬Promised supervised manager := by
  have hreached : (execute (step supervised) (fun _ _ => True) {} (updateEvents ++ [.request])).any
      (fun manager => manager.workers.map Stage.live == [true, true]) = true := by
    decide +kernel
  obtain ⟨manager, hmanager, hlive⟩ := (Option.any_eq_true _ _).mp hreached
  have hworkers : manager.workers.map Stage.live = [true, true] := by simpa using hlive
  have hrunning : ∀ worker, worker < 2 → manager.Running worker := by
    intro worker hlt
    have hget : (manager.workers.map Stage.live)[worker]? = some true := by
      rw [hworkers]
      interval_cases worker <;> rfl
    rw [List.getElem?_map, Option.map_eq_some_iff] at hget
    obtain ⟨stage, hstage, hstageLive⟩ := hget
    exact ⟨stage, hstage, hstageLive⟩
  refine ⟨manager, runWhere_of_execute hmanager, hrunning 0 (by omega), hrunning 1 (by omega),
    fun hpromised => ?_⟩
  exact absurd (hpromised.single 0 1 (hrunning 0 (by omega)) (hrunning 1 (by omega))) (by decide)

end Mocop.Updates
