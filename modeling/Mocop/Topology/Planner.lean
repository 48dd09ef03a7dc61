import Mocop.Topology.Routes

/-!
# `Mocop.Topology.Planner`: what the rounds of the planner end with

The planner asks for the route of every known hop that a route names. `Planned.leavesNothingOut`
says that nothing is left out when it is done: every known target and every such hop has a route
or failed.
`Rounds.asked_twice` says that it always gets there: a hop that is named while its own answer is
on the way is asked for again, and no alias is asked for a third time.

The answers of one round arrive in any order. `Rounds.determined` says that the order does not
show where the client gives the same answer to the same question: what the planner returns is
determined by the answers.
-/

set_option autoImplicit false

namespace Mocop

/-- Whether an alias has a route or failed. -/
def RouteRun.Settled (run : RouteRun) (name : String) : Prop :=
  run.routes.contains name = true ∨ name ∈ run.failures

/-- The aliases that the planner asks for. -/
def Wanted (known : List String) (localHost : Option String) (name : String) : Prop :=
  name ∈ known ∧ some name ≠ localHost

variable {answer : String × Option SshRoute} {name : String}

section Settled

variable {known : List String} {localHost : Option String}

/-! ### One answer -/

variable {run : RouteRun}

/-- An answer settles its alias. -/
theorem settled_settleRoute :
    (settleRoute known localHost run answer).Settled name
      ↔ run.Settled name ∨ name = answer.1 := by
  unfold settleRoute RouteRun.Settled
  split
  · show run.routes.contains name = true ∨ name ∈ run.failures ++ [answer.1] ↔ _
    rw [List.mem_append, List.mem_singleton, or_assoc]
  · next route _ =>
    show (run.routes.set answer.1 route).contains name = true ∨ name ∈ run.failures ↔ _
    rw [Dict.contains_eq, Dict.contains_eq, Dict.get?_set]
    split
    · next heq => exact iff_of_true (.inl rfl) (.inr heq)
    · next hne => rw [or_iff_left (show ¬name = answer.1 from hne)]

theorem nodup_awaitHops {wanted : String → Bool} {hops pending : List String}
    (h : pending.Nodup) : (awaitHops wanted hops pending).Nodup := by
  unfold awaitHops
  induction hops generalizing pending with
  | nil => exact h
  | cons hop rest ih =>
    rw [List.foldl_cons]
    refine ih ?_
    split
    · next hnew =>
      rw [Bool.and_eq_true, Bool.not_eq_true', List.contains_eq_mem, decide_eq_false_iff_not]
        at hnew
      rw [← List.concat_eq_append]
      exact h.concat hnew.2
    · exact h

/-- What waits after an answer: what waited, and the wanted hops of its route that are not
settled. -/
theorem mem_pending_settleRoute :
    name ∈ (settleRoute known localHost run answer).pending
      ↔ name ∈ run.pending ∨ ∃ route, answer.2 = some route ∧ name ∈ route.hops
        ∧ Wanted known localHost name
        ∧ ¬(settleRoute known localHost run answer).Settled name := by
  unfold settleRoute
  split
  · next hnone =>
    refine ⟨.inl, ?_⟩
    rintro (hpending | ⟨route, hroute, -⟩)
    · exact hpending
    · rw [hnone] at hroute
      cases hroute
  · next route hroute =>
    rw [mem_awaitHops, decide_eq_true_eq]
    refine or_congr_right ⟨?_, ?_⟩
    · rintro ⟨hhop, hknown, hcontains, hfailed, hlocal⟩
      refine ⟨route, hroute, hhop, ⟨hknown, hlocal⟩, ?_⟩
      rintro (hrouted | hfailure)
      · rw [hcontains] at hrouted
        cases hrouted
      · exact hfailed hfailure
    · rintro ⟨found, hfound, hhop, ⟨hknown, hlocal⟩, hunsettled⟩
      obtain rfl := Option.some.inj (hroute.symm.trans hfound)
      exact ⟨hhop, hknown, Bool.eq_false_of_not_eq_true fun h => hunsettled (.inl h),
        fun h => hunsettled (.inr h), hlocal⟩

theorem nodup_pending_settleRoute (h : run.pending.Nodup) (answer : String × Option SshRoute) :
    (settleRoute known localHost run answer).pending.Nodup := by
  unfold settleRoute
  split
  · exact h
  · exact nodup_awaitHops h

/-- The routes after an answer. -/
theorem get?_routes_settleRoute {route : SshRoute}
    (h : (settleRoute known localHost run answer).routes.get? name = some route) :
    run.routes.get? name = some route ∨ name = answer.1 ∧ answer.2 = some route := by
  unfold settleRoute at h
  split at h
  · exact .inl h
  · next found hfound =>
    rw [Dict.get?_set] at h
    split at h
    · next heq => exact .inr ⟨heq, hfound.trans h⟩
    · exact .inl h

/-! ### One round -/

variable {rules : RouteRules} {replies : List (String × Option (List Char))}

/-- A round keeps what every one of its answers keeps. -/
theorem settleRound_induction {P : RouteRun → List String → Prop}
    (hstart : P { run with pending := [] } (replies.map Prod.fst))
    (hstep : ∀ (run : RouteRun) (reply : String × Option (List Char)) (rest : List String),
      reply ∈ replies → P run (reply.1 :: rest) →
      P (settleRoute known localHost run
        (reply.1, resolveRoute rules known reply.1 reply.2)) rest) :
    P (settleRound rules known localHost run replies) [] := by
  unfold settleRound
  generalize { run with pending := [] } = begun at hstart
  induction replies generalizing begun with
  | nil => exact hstart
  | cons reply rest ih =>
    exact ih (fun run other names hother => hstep run other names (List.mem_cons_of_mem _ hother))
      _ (hstep begun reply _ List.mem_cons_self hstart)

/-- A round settles the aliases that were answered. -/
theorem settled_settleRound :
    (settleRound rules known localHost run replies).Settled name
      ↔ run.Settled name ∨ name ∈ replies.map Prod.fst := by
  have h := @settleRound_induction known localHost run rules replies
    (fun next rest => run.Settled name ∨ name ∈ replies.map Prod.fst
      ↔ next.Settled name ∨ name ∈ rest) Iff.rfl fun next reply rest _ ih => by
        rw [ih, settled_settleRoute, List.mem_cons, or_assoc]
  rw [h]
  exact (or_iff_left (List.not_mem_nil)).symm

/-- What waits after a round is wanted and was not settled before. -/
theorem pending_settleRound :
    (settleRound rules known localHost run replies).pending.Nodup
      ∧ ∀ name ∈ (settleRound rules known localHost run replies).pending,
        Wanted known localHost name ∧ ¬run.Settled name := by
  have h := @settleRound_induction known localHost run rules replies
    (fun next _ => (∀ name, run.Settled name → next.Settled name) ∧ next.pending.Nodup
      ∧ ∀ name ∈ next.pending, Wanted known localHost name ∧ ¬run.Settled name)
    ⟨fun _ h => h, List.nodup_nil, fun name hname => by cases hname⟩
    fun next reply rest _ ih => by
      obtain ⟨hsettled, hnodup, hpending⟩ := ih
      refine ⟨fun name h => settled_settleRoute.mpr (.inl (hsettled name h)),
        nodup_pending_settleRoute hnodup _, fun name hname => ?_⟩
      rcases mem_pending_settleRoute.mp hname with hold | ⟨route, _, _, hwanted, hunsettled⟩
      · exact hpending name hold
      · exact ⟨hwanted, fun h => hunsettled (settled_settleRoute.mpr (.inl (hsettled name h)))⟩
  exact h.2

end Settled

section Rounds

variable {rules : RouteRules} {known targets : List String} {localHost : Option String}
  {log : List (String × Option (List Char))} {run : RouteRun}

/-- A target waits before the first round exactly when it is wanted. -/
theorem mem_pending_start :
    name ∈ (RouteRun.start known targets localHost).pending
      ↔ name ∈ targets ∧ Wanted known localHost name := by
  simp [RouteRun.start, Wanted]

/-- Nothing is settled before the first round. -/
theorem not_settled_start (name : String) :
    ¬(RouteRun.start known targets localHost).Settled name := by
  rintro (hrouted | hfailed)
  · cases hrouted
  · cases hfailed

/-! ### A host behind a jump host -/

private def jumpRules : RouteRules := ⟨id, id, fun _ => false, fun _ => none⟩

private def jumpAnswer (name : String) : Option (List Char) :=
  if name = "gpu-01" then some "proxyjump jump".toList else some []

private def jumpReplies (names : List String) : List (String × Option (List Char)) :=
  names.map fun name => (name, jumpAnswer name)

private theorem jumpAnswer_bounded (name : String) (output : List Char)
    (h : jumpAnswer name = some output) : output.length ≤ sshMaxOutputBytes := by
  unfold jumpAnswer at h
  split at h
  · obtain rfl := Option.some.inj h
    decide
  · obtain rfl := Option.some.inj h
    exact Nat.zero_le _

private def jumpRun (batches : List (List String)) : RouteRun :=
  batches.foldl (fun run names =>
    settleRound jumpRules ["gpu-01", "jump"] none run (jumpReplies names))
    (.start ["gpu-01", "jump"] ["gpu-01", "jump"] none)

/-- The jump host is named before its own answer arrives, and is asked for again. -/
private theorem rounds_jump :
    Rounds jumpRules ["gpu-01", "jump"] none (.start ["gpu-01", "jump"] ["gpu-01", "jump"] none)
      (jumpReplies ["gpu-01", "jump"] ++ jumpReplies ["jump"])
      (jumpRun [["gpu-01", "jump"], ["jump"]]) := by
  have hbounded : ∀ names, ∀ reply ∈ jumpReplies names, ∀ output, reply.2 = some output →
      output.length ≤ sshMaxOutputBytes := by
    intro names reply hreply output houtput
    obtain ⟨name, -, rfl⟩ := List.mem_map.mp hreply
    exact jumpAnswer_bounded name output houtput
  have hfirst : (jumpRun [["gpu-01", "jump"]]).pending = ["jump"] := by decide +kernel
  have hround : Rounds jumpRules ["gpu-01", "jump"] none
      (.start ["gpu-01", "jump"] ["gpu-01", "jump"] none) ([] ++ jumpReplies ["gpu-01", "jump"])
      (jumpRun [["gpu-01", "jump"]]) :=
    .round .start (by decide +kernel) (by decide +kernel) (hbounded ["gpu-01", "jump"])
  exact .round hround (hfirst ▸ List.cons_ne_nil _ _) (List.Perm.of_eq hfirst.symm)
    (hbounded ["jump"])

private theorem jumpRun_done : (jumpRun [["gpu-01", "jump"], ["jump"]]).pending = [] := by
  decide +kernel

/-! ### No alias is asked for a third time -/

/-- The aliases that were asked for, so far. An alias that waits and was asked for already was
named while its answer was on the way. -/
structure Asked (known : List String) (localHost : Option String) (questions : List String)
    (run : RouteRun) : Prop where
  nodup : run.pending.Nodup
  wanted : ∀ name ∈ run.pending, Wanted known localHost name
  asked : ∀ name ∈ questions, Wanted known localHost name
  unsettled : ∀ name, ¬run.Settled name → questions.count name = 0
  pending : ∀ name ∈ run.pending, questions.count name ≤ 1
  twice : ∀ name, questions.count name ≤ 2

/-- Nothing was asked for before the first round. -/
theorem Asked.start : Asked known localHost [] (.start known targets localHost) where
  nodup := (nodup_eraseDups targets).filter _
  wanted name hname := (mem_pending_start.mp hname).2
  asked name hname := by cases hname
  unsettled _ _ := rfl
  pending _ _ := Nat.zero_le _
  twice _ := Nat.zero_le _

/-- One more round. -/
theorem Asked.round {questions : List String} {replies : List (String × Option (List Char))}
    (h : Asked known localHost questions run) (hreplies : (replies.map Prod.fst).Perm run.pending) :
    Asked known localHost (questions ++ replies.map Prod.fst)
      (settleRound rules known localHost run replies) := by
  obtain ⟨hnodup, hpending⟩ := @pending_settleRound known localHost run rules replies
  have hbatch : ∀ name, (replies.map Prod.fst).count name ≤ 1 :=
    List.nodup_iff_count_le_one.mp (hreplies.nodup_iff.mpr h.nodup)
  have hother : ∀ name, name ∉ run.pending → (replies.map Prod.fst).count name = 0 :=
    fun name hname => List.count_eq_zero.mpr fun hmem => hname (hreplies.subset hmem)
  refine ⟨hnodup, fun name hname => (hpending name hname).1, fun name hname => ?_,
    fun name hname => ?_, fun name hname => ?_, fun name => ?_⟩
  · rcases List.mem_append.mp hname with hold | hnew
    · exact h.asked name hold
    · exact h.wanted name (hreplies.subset hnew)
  · rw [settled_settleRound, not_or] at hname
    rw [List.count_append, h.unsettled name hname.1, List.count_eq_zero.mpr hname.2]
  · -- What waits was not settled before the round, so this is its first answer.
    have hfirst := h.unsettled name (hpending name hname).2
    have hone := hbatch name
    rw [List.count_append]
    omega
  · rw [List.count_append]
    by_cases hmem : name ∈ run.pending
    · have hold := h.pending name hmem
      have hone := hbatch name
      omega
    · have hold := h.twice name
      have hnone := hother name hmem
      omega

theorem Rounds.asked (h : Rounds rules known localHost (.start known targets localHost) log run) :
    Asked known localHost (log.map Prod.fst) run := by
  induction h with
  | start => exact .start
  | round _ _ hreplies _ ih =>
    rw [List.map_append]
    exact ih.round hreplies

theorem Rounds.length_le
    (h : Rounds rules known localHost (.start known targets localHost) log run) :
    log.length ≤ 2 * known.length := by
  have hlength := length_le_of_count_le (fun name hname => (h.asked.asked name hname).1)
    fun name _ => h.asked.twice name
  rwa [List.length_map] at hlength

/-- However the answers arrive, the planner asks for known aliases other than the local host, for
none of them more than twice, and so it is done after a bounded number of questions. -/
theorem Rounds.asked_twice
    (h : Rounds rules known localHost (.start known targets localHost) log run) :
    (∀ name ∈ log.map Prod.fst, name ∈ known ∧ some name ≠ localHost)
      ∧ (∀ name, (log.map Prod.fst).count name ≤ 2) ∧ log.length ≤ 2 * known.length :=
  ⟨h.asked.asked, h.asked.twice, h.length_le⟩

/-- The jump host of a host that waits with it is asked for twice. -/
theorem asked_twice_jump :
    ∃ log run, Rounds jumpRules ["gpu-01", "jump"] none
        (.start ["gpu-01", "jump"] ["gpu-01", "jump"] none) log run
      ∧ (log.map Prod.fst).count "jump" = 2 ∧ log.length ≤ 4 :=
  ⟨_, _, rounds_jump, by decide +kernel, rounds_jump.asked_twice.2.2⟩

/-! ### Nothing is left out -/

/-- Whether an alias is settled or waits for its answer. -/
def RouteRun.Covers (run : RouteRun) (rest : List String) (name : String) : Prop :=
  run.Settled name ∨ name ∈ run.pending ∨ name ∈ rest

/-- The targets and the wanted hops of the routes are covered. -/
structure Closed (known targets : List String) (localHost : Option String) (run : RouteRun)
    (rest : List String) : Prop where
  listed : ∀ name ∈ targets, Wanted known localHost name → run.Covers rest name
  hops : ∀ name route, run.routes.get? name = some route → ∀ hop ∈ route.hops,
    Wanted known localHost hop → run.Covers rest hop

/-- What is covered stays covered by an answer. -/
theorem RouteRun.Covers.settle {rest : List String} (h : run.Covers (answer.1 :: rest) name) :
    (settleRoute known localHost run answer).Covers rest name := by
  rcases h with hsettled | hpending | hrest
  · exact .inl (settled_settleRoute.mpr (.inl hsettled))
  · exact .inr (.inl (mem_pending_settleRoute.mpr (.inl hpending)))
  · rcases List.mem_cons.mp hrest with rfl | hrest
    · exact .inl (settled_settleRoute.mpr (.inr rfl))
    · exact .inr (.inr hrest)

/-- One more answer. -/
theorem Closed.settle {rest : List String}
    (h : Closed known targets localHost run (answer.1 :: rest)) :
    Closed known targets localHost (settleRoute known localHost run answer) rest where
  listed name hname hwanted := (h.listed name hname hwanted).settle
  hops name route hroute hop hhop hwanted := by
    rcases get?_routes_settleRoute hroute with hold | ⟨rfl, hanswer⟩
    · exact (h.hops name route hold hop hhop hwanted).settle
    · by_cases hsettled : (settleRoute known localHost run answer).Settled hop
      · exact .inl hsettled
      · exact .inr (.inl (mem_pending_settleRoute.mpr
          (.inr ⟨route, hanswer, hhop, hwanted, hsettled⟩)))

theorem Rounds.closed (h : Rounds rules known localHost (.start known targets localHost) log run) :
    Closed known targets localHost run [] := by
  induction h with
  | start =>
    exact ⟨fun name hname hwanted => .inr (.inl (mem_pending_start.mpr ⟨hname, hwanted⟩)),
      fun name route hroute => by cases hroute⟩
  | @round log replies run _ _ hreplies _ ih =>
    refine settleRound_induction ?_ fun run reply rest _ hrun => hrun.settle
    have hcovers : ∀ name, run.Covers [] name →
        RouteRun.Covers { run with pending := [] } (replies.map Prod.fst) name := by
      rintro name (hsettled | hpending | hrest)
      · exact .inl hsettled
      · exact .inr (.inr (hreplies.symm.subset hpending))
      · cases hrest
    exact ⟨fun name hname hwanted => hcovers name (ih.listed name hname hwanted),
      fun name route hroute hop hhop hwanted =>
        hcovers hop (ih.hops name route hroute hop hhop hwanted)⟩

/-- When nothing waits, what is covered is settled. -/
theorem RouteRun.Covers.settled (h : run.Covers [] name) (hdone : run.pending = []) :
    run.Settled name := by
  rcases h with hsettled | hpending | hrest
  · exact hsettled
  · rw [hdone] at hpending
    cases hpending
  · cases hrest

/-- The routes of the resolution are those of the run. -/
theorem get?_routeMap_resolution (name : String) :
    (run.resolution known).routeMap.get? name = run.routes.get? name := by
  refine Option.ext fun route => ?_
  have hnodup : ((run.resolution known).routes.map Prod.fst).Nodup :=
    ((sortBy_perm Prod.fst _).map Prod.fst).nodup_iff.mpr (Dict.nodup_keys _)
  rw [SshRouteResolution.routeMap, Dict.get?_ofList_of_nodup _ hnodup, Dict.get?_eq_some_iff]
  exact mem_sortBy

/-- The warnings of an answer. -/
def routeWarnings (name : String) : Option SshRoute → List String
  | none => [name ++ ": SSH route could not be resolved"]
  | some route => if route.isOpaque then [name ++ ": proxy route contains an opaque hop"] else []

theorem warnings_settleRoute (run : RouteRun) (answer : String × Option SshRoute) :
    (settleRoute known localHost run answer).warnings
      = run.warnings ++ routeWarnings answer.1 answer.2 := by
  unfold settleRoute
  split
  · next hnone =>
    rw [hnone]
    rfl
  · next route hroute =>
    rw [hroute]
    rfl

/-- Failures and opaque routes come with their warnings. -/
def Warned (run : RouteRun) : Prop :=
  (∀ name ∈ run.failures, ∀ text ∈ routeWarnings name none, text ∈ run.warnings)
    ∧ ∀ name route, run.routes.get? name = some route →
      ∀ text ∈ routeWarnings name (some route), text ∈ run.warnings

/-- One more answer. -/
theorem Warned.settle (h : Warned run) (answer : String × Option SshRoute) :
    Warned (settleRoute known localHost run answer) := by
  refine ⟨fun name hname text htext => ?_, fun name route hroute text htext => ?_⟩ <;>
    rw [warnings_settleRoute, List.mem_append]
  · cases hanswer : answer.2 with
    | none =>
      rw [settleRoute, hanswer] at hname
      rcases List.mem_append.mp hname with hold | hnew
      · exact .inl (h.1 name hold text htext)
      · rw [List.mem_singleton.mp hnew] at htext
        exact .inr htext
    | some route =>
      rw [settleRoute, hanswer] at hname
      exact .inl (h.1 name hname text htext)
  · rcases get?_routes_settleRoute hroute with hold | ⟨rfl, hanswer⟩
    · exact .inl (h.2 name route hold text htext)
    · rw [hanswer]
      exact .inr htext

theorem Rounds.warned (h : Rounds rules known localHost (.start known targets localHost) log run) :
    Warned run := by
  induction h with
  | start =>
    exact ⟨fun name hname => (by cases hname), fun name route hroute => (by cases hroute)⟩
  | round _ _ _ _ ih =>
    exact @settleRound_induction known localHost _ rules _ (fun run _ => Warned run) ih
      fun _ _ _ _ hrun => hrun.settle _

/-- Nothing is left out of a resolution: every known target and every known hop of a route, the
local host apart, has a route or failed, and failures and opaque routes come with a warning. -/
theorem Planned.leavesNothingOut {aliases failures : List String} {resolution : SshRouteResolution}
    (h : Planned rules aliases targets localHost resolution failures) :
    (∀ name, name ∈ targets ∨ (∃ host route, resolution.routeMap.get? host = some route
          ∧ name ∈ route.hops) →
        name ∈ aliases → some name ≠ localHost →
        (resolution.routeMap.get? name).isSome = true ∨ name ∈ failures)
      ∧ (∀ name ∈ failures,
        name ++ ": SSH route could not be resolved" ∈ resolution.warnings)
      ∧ ∀ name route, resolution.routeMap.get? name = some route → route.isOpaque = true →
        name ++ ": proxy route contains an opaque hop" ∈ resolution.warnings := by
  obtain ⟨log, run, hrounds, hdone, rfl, rfl⟩ := h
  have hclosed := hrounds.closed
  have hwarned := hrounds.warned
  simp only [get?_routeMap_resolution, mem_sortedSet]
  refine ⟨fun name hname hknown hlocal => ?_, fun name hname => ?_,
    fun name route hroute hopaque => ?_⟩
  · have hwanted : Wanted (sortedSet aliases) localHost name :=
      ⟨mem_sortedSet.mpr hknown, hlocal⟩
    have hcovered : run.Covers [] name := by
      rcases hname with htarget | ⟨host, route, hroute, hhop⟩
      · exact hclosed.listed name htarget hwanted
      · exact hclosed.hops host route hroute name hhop hwanted
    exact hcovered.settled hdone
  · exact mem_sortedSet.mpr (hwarned.1 name hname _ (List.mem_singleton.mpr rfl))
  · refine mem_sortedSet.mpr (hwarned.2 name route hroute _ ?_)
    rw [routeWarnings, if_pos hopaque]
    exact List.mem_singleton.mpr rfl

end Rounds

private theorem planned_jump :
    Planned jumpRules ["gpu-01", "jump"] ["gpu-01", "jump"] none
      ((jumpRun [["gpu-01", "jump"], ["jump"]]).resolution ["gpu-01", "jump"])
      (sortedSet (jumpRun [["gpu-01", "jump"], ["jump"]]).failures) := by
  have hsorted : sortedSet ["gpu-01", "jump"] = ["gpu-01", "jump"] := by
    have hdistinct : ["gpu-01", "jump"].eraseDups = ["gpu-01", "jump"] := by decide +kernel
    rw [sortedSet, hdistinct]
    exact List.mergeSort_of_pairwise (by decide +kernel)
  refine ⟨jumpReplies ["gpu-01", "jump"] ++ jumpReplies ["jump"], _, ?_, jumpRun_done,
    by rw [hsorted], rfl⟩
  rw [hsorted]
  exact rounds_jump

/-- The jump host has a route. -/
theorem leavesNothingOut_jump :
    (((jumpRun [["gpu-01", "jump"], ["jump"]]).resolution ["gpu-01", "jump"]).routeMap.get?
      "jump").isSome = true
      ∨ "jump" ∈ sortedSet (jumpRun [["gpu-01", "jump"], ["jump"]]).failures :=
  planned_jump.leavesNothingOut.1 "jump" (.inl (by decide)) (by decide) (by decide)

/-! ### The order of the answers does not show -/

section Determined

variable {rules : RouteRules} {known targets : List String} {localHost : Option String}
  {routeOf : String → Option SshRoute} {log : List (String × Option (List Char))}
  {run : RouteRun}

/-- The aliases that the routes lead to. -/
inductive Reached (known targets : List String) (localHost : Option String)
    (routeOf : String → Option SshRoute) : String → Prop
  | target {name : String} : name ∈ targets → Wanted known localHost name →
      Reached known targets localHost routeOf name
  | hop {name hop : String} {route : SshRoute} : Reached known targets localHost routeOf name →
      routeOf name = some route → hop ∈ route.hops → Wanted known localHost hop →
      Reached known targets localHost routeOf hop

/-- A run that knows of the aliases that the routes lead to, as they are. -/
structure Knows (known targets : List String) (localHost : Option String)
    (routeOf : String → Option SshRoute) (run : RouteRun) : Prop where
  routes : ∀ name route, run.routes.get? name = some route → routeOf name = some route
  failures : ∀ name ∈ run.failures, routeOf name = none
  settled : ∀ name, run.Settled name → Reached known targets localHost routeOf name
  pending : ∀ name ∈ run.pending, Reached known targets localHost routeOf name
  warnings : ∀ text, text ∈ run.warnings
    ↔ ∃ name, run.Settled name ∧ text ∈ routeWarnings name (routeOf name)

/-- One more answer. -/
theorem Knows.settle (h : Knows known targets localHost routeOf run)
    (hname : Reached known targets localHost routeOf name) :
    Knows known targets localHost routeOf
      (settleRoute known localHost run (name, routeOf name)) where
  routes other route hroute := by
    rcases get?_routes_settleRoute hroute with hold | ⟨rfl, hanswer⟩
    · exact h.routes other route hold
    · exact hanswer
  failures other hother := by
    cases hanswer : routeOf name with
    | none =>
      rw [settleRoute, hanswer] at hother
      rcases List.mem_append.mp hother with hold | hnew
      · exact h.failures other hold
      · rw [List.mem_singleton.mp hnew, hanswer]
    | some route =>
      rw [settleRoute, hanswer] at hother
      exact h.failures other hother
  settled other hother := by
    rcases settled_settleRoute.mp hother with hold | rfl
    · exact h.settled other hold
    · exact hname
  pending other hother := by
    rcases mem_pending_settleRoute.mp hother with hold | ⟨route, hroute, hhop, hwanted, -⟩
    · exact h.pending other hold
    · exact hname.hop hroute hhop hwanted
  warnings text := by
    rw [warnings_settleRoute, List.mem_append, h.warnings]
    constructor
    · rintro (⟨other, hother, htext⟩ | htext)
      · exact ⟨other, settled_settleRoute.mpr (.inl hother), htext⟩
      · exact ⟨name, settled_settleRoute.mpr (.inr rfl), htext⟩
    · rintro ⟨other, hother, htext⟩
      rcases settled_settleRoute.mp hother with hold | rfl
      · exact .inl ⟨other, hold, htext⟩
      · exact .inr htext

theorem Rounds.knows (h : Rounds rules known localHost (.start known targets localHost) log run)
    (hanswers : ∀ reply ∈ log, resolveRoute rules known reply.1 reply.2 = routeOf reply.1) :
    Knows known targets localHost routeOf run := by
  induction h with
  | start =>
    exact {
      routes := fun name route hroute => by cases hroute
      failures := fun name hname => by cases hname
      settled := fun name hname => absurd hname (not_settled_start name)
      pending := fun name hname =>
        .target (mem_pending_start.mp hname).1 (mem_pending_start.mp hname).2
      warnings := fun text => iff_of_false List.not_mem_nil fun ⟨name, hname, _⟩ =>
        not_settled_start name hname }
  | @round log replies run _ _ hreplies _ ih =>
    have hknows := ih fun reply hreply => hanswers reply (List.mem_append_left _ hreply)
    refine @settleRound_induction known localHost _ rules _
      (fun run _ => Knows known targets localHost routeOf run)
      ⟨hknows.routes, hknows.failures, hknows.settled, fun name hname => (by cases hname),
        hknows.warnings⟩ fun run reply rest hreply hrun => ?_
    rw [hanswers reply (List.mem_append_right _ hreply)]
    exact hrun.settle (hknows.pending _ (hreplies.subset (List.mem_map_of_mem hreply)))

/-- A run that is done has settled the aliases that the routes lead to. -/
theorem Rounds.settled_iff
    (h : Rounds rules known localHost (.start known targets localHost) log run)
    (hanswers : ∀ reply ∈ log, resolveRoute rules known reply.1 reply.2 = routeOf reply.1)
    (hdone : run.pending = []) (name : String) :
    run.Settled name ↔ Reached known targets localHost routeOf name := by
  have hknows := h.knows hanswers
  refine ⟨hknows.settled name, fun hreached => ?_⟩
  induction hreached with
  | target hname hwanted => exact (h.closed.listed _ hname hwanted).settled hdone
  | @hop name hop route _ hroute hhop hwanted ih =>
    -- The alias did not fail, so the route that is known is the one with this hop.
    have hrouted : (run.routes.get? name).isSome = true := by
      rcases ih with hcontains | hfailed
      · exact hcontains
      · rw [hknows.failures name hfailed] at hroute
        cases hroute
    obtain ⟨found, hfound⟩ := Option.isSome_iff_exists.mp hrouted
    obtain rfl := Option.some.inj (hroute.symm.trans (hknows.routes name found hfound))
    exact (h.closed.hops name route hfound hop hhop hwanted).settled hdone

theorem Knows.get?_routes_iff (h : Knows known targets localHost routeOf run) {route : SshRoute} :
    run.routes.get? name = some route ↔ run.Settled name ∧ routeOf name = some route := by
  refine ⟨fun hroute => ⟨.inl ?_, h.routes name route hroute⟩, ?_⟩
  · rw [Dict.contains_eq, hroute]
    rfl
  · rintro ⟨hcontains | hfailed, hroute⟩
    · rw [Dict.contains_eq] at hcontains
      obtain ⟨found, hfound⟩ := Option.isSome_iff_exists.mp hcontains
      rw [hfound, ← hroute, h.routes name found hfound]
    · rw [h.failures name hfailed] at hroute
      cases hroute

theorem Knows.mem_failures_iff (h : Knows known targets localHost routeOf run) :
    name ∈ run.failures ↔ run.Settled name ∧ routeOf name = none := by
  refine ⟨fun hfailed => ⟨.inr hfailed, h.failures name hfailed⟩, ?_⟩
  rintro ⟨hcontains | hfailed, hnone⟩
  · rw [Dict.contains_eq] at hcontains
    obtain ⟨found, hfound⟩ := Option.isSome_iff_exists.mp hcontains
    rw [h.routes name found hfound] at hnone
    cases hnone
  · exact hfailed

/-- Runs that know the same differ in the order alone, which the resolution does not show. -/
theorem Knows.resolution_eq {other : RouteRun} (h : Knows known targets localHost routeOf run)
    (hother : Knows known targets localHost routeOf other)
    (hsettled : ∀ name, run.Settled name ↔ other.Settled name) :
    run.resolution known = other.resolution known
      ∧ sortedSet run.failures = sortedSet other.failures := by
  have hroutes : sortBy Prod.fst run.routes.entries = sortBy Prod.fst other.routes.entries := by
    refine sortBy_congr_of_mem_iff (List.Nodup.of_map _ (Dict.nodup_keys run.routes))
      (List.Nodup.of_map _ (Dict.nodup_keys other.routes)) (fun entry => ?_) ?_
    · rw [← Prod.mk.eta (p := entry), ← Dict.get?_eq_some_iff, ← Dict.get?_eq_some_iff,
        h.get?_routes_iff, hother.get?_routes_iff, hsettled]
    · rintro ⟨name, route⟩ hroute ⟨_, found⟩ hfound rfl
      rw [← Dict.get?_eq_some_iff] at hroute hfound
      rw [Option.some.inj (hroute.symm.trans hfound)]
  have hwarnings : sortedSet run.warnings = sortedSet other.warnings :=
    sortedSet_congr fun text => by
      rw [h.warnings, hother.warnings]
      exact exists_congr fun name => and_congr_left fun _ => hsettled name
  refine ⟨?_, sortedSet_congr fun name => ?_⟩
  · rw [RouteRun.resolution, RouteRun.resolution, hroutes, hwarnings]
  · rw [h.mem_failures_iff, hother.mem_failures_iff, hsettled]

/-- Every run can be finished with these answers. -/
theorem Rounds.exists_done {answers : String → Option (List Char)}
    (hbounded : ∀ name output, answers name = some output → output.length ≤ sshMaxOutputBytes)
    (h : Rounds rules known localHost (.start known targets localHost) log run) :
    ∃ more final,
      Rounds rules known localHost (.start known targets localHost) (log ++ more) final
        ∧ final.pending = [] ∧ ∀ reply ∈ more, reply.2 = answers reply.1 := by
  induction hleft : 2 * known.length - log.length using Nat.strong_induction_on
    generalizing log run with
  | _ left ih =>
    by_cases hpending : run.pending = []
    · refine ⟨[], run, ?_, hpending, fun reply hreply => by cases hreply⟩
      rwa [List.append_nil]
    · have hreplies : ((run.pending.map fun name => (name, answers name)).map Prod.fst).Perm
          run.pending := by
        rw [List.map_map]
        exact List.Perm.of_eq (List.map_id _)
      have hround := h.round hpending hreplies fun reply hreply output houtput => by
        obtain ⟨name, -, rfl⟩ := List.mem_map.mp hreply
        exact hbounded name output houtput
      -- Each round takes in an answer, and their number is bounded.
      have hlength := hround.length_le
      rw [List.length_append, List.length_map] at hlength
      have hpos := List.length_pos_iff.mpr hpending
      obtain ⟨more, final, hfinal, hdone, hanswers⟩ := ih _ (by
        rw [List.length_append, List.length_map]
        omega) hround rfl
      refine ⟨run.pending.map (fun name => (name, answers name)) ++ more, final, ?_, hdone,
        fun reply hreply => ?_⟩
      · rwa [← List.append_assoc]
      · rcases List.mem_append.mp hreply with hnow | hlater
        · obtain ⟨name, -, rfl⟩ := List.mem_map.mp hnow
          rfl
        · exact hanswers reply hlater

/-- Where the client gives the same answer to the same question, the planner always gets to an end,
and to the same one: the order in which the answers arrive does not show in what it returns. -/
theorem Rounds.determined (rules : RouteRules) (known targets : List String)
    (localHost : Option String) (answers : String → Option (List Char))
    (hbounded : ∀ name output,
      answers name = some output → output.length ≤ sshMaxOutputBytes) :
    ∃ resolution failures, ∀ log run,
      Rounds rules known localHost (.start known targets localHost) log run →
      (∀ reply ∈ log, reply.2 = answers reply.1) →
      (∃ more final, Rounds rules known localHost (.start known targets localHost) (log ++ more)
          final ∧ final.pending = [] ∧ ∀ reply ∈ more, reply.2 = answers reply.1)
        ∧ (run.pending = [] →
          run.resolution known = resolution ∧ sortedSet run.failures = failures) := by
  have hbegin : Rounds rules known localHost (.start known targets localHost) []
      (.start known targets localHost) := .start
  obtain ⟨log, final, hfinal, hdone, hanswers⟩ := hbegin.exists_done hbounded
  rw [List.nil_append] at hfinal
  obtain ⟨routeOf, hrouteOf⟩ : ∃ routeOf : String → Option SshRoute,
      ∀ name, resolveRoute rules known name (answers name) = routeOf name := ⟨_, fun _ => rfl⟩
  have hroute : ∀ log : List (String × Option (List Char)),
      (∀ reply ∈ log, reply.2 = answers reply.1) →
      ∀ reply ∈ log, resolveRoute rules known reply.1 reply.2 = routeOf reply.1 :=
    fun log hlog reply hreply => by rw [hlog reply hreply, hrouteOf]
  refine ⟨final.resolution known, sortedSet final.failures, fun other run hrun hother =>
    ⟨hrun.exists_done hbounded, fun hended => ?_⟩⟩
  refine (hrun.knows (hroute other hother)).resolution_eq (hfinal.knows (hroute log hanswers))
    fun name => ?_
  rw [hrun.settled_iff (hroute other hother) hended, hfinal.settled_iff (hroute log hanswers) hdone]

/-- The jump host is asked for again or not, and the planner returns the same. -/
theorem determined_jump :
    ∃ resolution failures, ∀ log run,
      Rounds jumpRules ["gpu-01", "jump"] none (.start ["gpu-01", "jump"] ["gpu-01", "jump"] none)
        log run →
      (∀ reply ∈ log, reply.2 = jumpAnswer reply.1) → run.pending = [] →
      run.resolution ["gpu-01", "jump"] = resolution ∧ sortedSet run.failures = failures := by
  obtain ⟨resolution, failures, h⟩ := Rounds.determined jumpRules ["gpu-01", "jump"]
    ["gpu-01", "jump"] none jumpAnswer jumpAnswer_bounded
  exact ⟨resolution, failures, fun log run hrun hsame => (h log run hrun hsame).2⟩

end Determined

end Mocop
