import Mocop.Service.CanonicalNames
import Mocop.Web.Requests

/-!
# `Mocop.Web.Access`: who gets what from the web server

The manifest gives each route an access level. A request is cleared when the manifest has its
method and path and the request meets the level (`Cleared`). A request that is not cleared gets a
reply that the checks of the server determine: no monitor, inventory or update takes part in it,
and none is changed (`answer_uncleared`). The handlers of the readers' routes check the mark of the
dashboard themselves, and the check of a write comes after the one of the framing; the proof goes
through both.
-/

set_option autoImplicit false

namespace Mocop.Web

variable {W : Type} {server : Server W} {gate : Gate} {request : Request} {path query : String}

/-! ### Tables -/

/-- A name that no entry has. -/
theorem entry_eq_none {α : Type} {entries : List (String × α)} {name : String} :
    entry entries name = none ↔ ∀ candidate ∈ entries, candidate.1 ≠ name := by
  simp [entry]

/-- A name that an entry has. -/
theorem mem_of_entry {α : Type} {entries : List (String × α)} {name : String} {value : α}
    (h : entry entries name = some value) : (name, value) ∈ entries := by
  obtain ⟨candidate, hfind, rfl⟩ := Option.map_eq_some_iff.mp h
  have hname : candidate.1 = name := by simpa using List.find?_some hfind
  exact hname ▸ List.mem_of_find?_eq_some hfind

/-- A method of a path is the one of a route. -/
theorem mem_routeMethods {method : String} :
    method ∈ routeMethods path
      ↔ ∃ route ∈ apiRoutes, route.path = path ∧ route.method = method := by
  simp [routeMethods, and_assoc]

/-- The routes of the manifest that are not for everyone authenticate. -/
theorem authenticated_of_route : ∀ route ∈ apiRoutes, route.tier ≠ .everyone →
    route.path ∉ publicPaths ∧ isApiFamilyPath route.path = true := by decide +kernel

/-- No read is for writers. -/
theorem tier_of_read : ∀ route ∈ apiRoutes, route.method = "GET" → route.tier ≠ .writer := by
  decide +kernel

/-- The routes of the readers. -/
theorem reader_paths : ∀ route ∈ apiRoutes, route.tier = .reader →
    route.path ∈ ["/api/gpu-history", "/api/diagnostics", "/api/inventory", "/api/topology",
      "/api/update"] := by decide +kernel

/-- The routes of the writers are those with a limit for the body. -/
theorem writer_paths : ∀ limit ∈ writeBodyLimits,
    ⟨"POST", limit.1, .writer⟩ ∈ apiRoutes := by decide +kernel

/-! ### Clearance -/

/-- The method in the manifest: `HEAD` mirrors `GET`. -/
def Request.method (request : Request) : String :=
  if request.command = "HEAD" then "GET" else request.command

/-- Whether the checks before the routes let a request pass. -/
def Authenticated (gate : Gate) (request : Request) : Prop :=
  authenticationError gate.urls request.headers gate.authentication gate.accessToken
    gate.policy.hostnames = none

/-- Whether a request meets an access level. -/
def Clears (gate : Gate) (request : Request) : Tier → Prop
  | .everyone => True
  | .authenticated => Authenticated gate request
  | .reader => Authenticated gate request ∧ isDashboardReadRequest gate request = true
  | .writer =>
    Authenticated gate request ∧ isDashboardWrite gate.urls request.headers gate.policy = true

/-- Whether a request meets the access level of its route. -/
def Cleared (gate : Gate) (request : Request) : Prop :=
  ∃ route ∈ apiRoutes, ∃ query, splitRequestTarget gate request = .ok (route.path, query)
    ∧ route.method = request.method ∧ Clears gate request route.tier

/-- A request to a route that authenticates has cleared the checks before it. -/
theorem authenticated_of_refused {route : Route} (hroute : route ∈ apiRoutes)
    (htier : route.tier ≠ .everyone) (h : refused gate request route.path = none) :
    Authenticated gate request := by
  obtain ⟨hpublic, hfamily⟩ := authenticated_of_route route hroute htier
  simpa [refused, hpublic, hfamily, Authenticated] using h

/-- What is left of a request to a read that is not cleared: a reader's route without the mark. -/
theorem reader_of_uncleared {route : Route} (h : ¬ Cleared gate request)
    (hroute : route ∈ apiRoutes)
    (hsplit : splitRequestTarget gate request = .ok (route.path, query))
    (hmethod : route.method = "GET") (hrequest : request.method = "GET")
    (hrefused : refused gate request route.path = none) :
    route.tier = .reader ∧ isDashboardReadRequest gate request = false := by
  have hcleared : ¬ Clears gate request route.tier := fun hclears =>
    h ⟨route, hroute, query, hsplit, hmethod.trans hrequest.symm, hclears⟩
  cases htier : route.tier with
  | everyone => exact absurd (htier ▸ trivial) hcleared
  | authenticated =>
    rw [htier] at hcleared
    exact absurd (authenticated_of_refused hroute (by simp [htier]) hrefused) hcleared
  | reader =>
    rw [htier] at hcleared
    refine ⟨rfl, Bool.eq_false_iff.mpr fun hread => hcleared ⟨?_, hread⟩⟩
    exact authenticated_of_refused hroute (by simp [htier]) hrefused
  | writer => exact absurd htier (tier_of_read route hroute hmethod)

/-! ### Reads -/

/-- The read of a route for readers, without the mark of the dashboard. -/
theorem respondToRead_unmarked (h : isDashboardReadRequest server.toGate request = false)
    (hpath : path ∈ ["/api/gpu-history", "/api/diagnostics", "/api/inventory", "/api/topology",
      "/api/update"]) :
    respondToRead server request path query = pure dashboardRequired := by
  have hmarked : ∀ handler : StateM W Reply,
      withDashboardRead server request handler = pure dashboardRequired := by
    intro handler
    rw [withDashboardRead, h]
    rfl
  simp only [List.mem_cons, List.not_mem_nil, or_false] at hpath
  rcases hpath with rfl | rfl | rfl | rfl | rfl <;>
    simp [respondToRead, entry, queryReads, plainReads, sendGpuHistory, sendDiagnostics,
      sendInventory, sendTopology, sendInventoryView, sendUpdateStatus, hmarked]

/-- The reply to a read of a path that is no route: a file, or the fallback. -/
def unroutedRead (gate : Gate) (request : Request) (path : String) : Reply :=
  match entry gate.staticRoutes path with
  | some filename => sendStatic gate request filename
  | none => sendRouteFallback "GET" path

/-- The reads are those of the manifest. -/
theorem reads_of_manifest (server : Server W) (request : Request) :
    ∀ name ∈ ["/api/snapshot", "/api/events", "/healthz", "/readyz"]
      ++ (queryReads server request).map (·.1) ++ (plainReads server request).map (·.1),
      "GET" ∈ routeMethods name := by
  show ∀ name ∈ ["/api/snapshot", "/api/events", "/healthz", "/readyz", "/api/history",
    "/api/usage", "/api/reports/usage", "/api/reports/utilization", "/api/brief",
    "/api/capacity", "/api/gpu-history", "/api/incidents", "/api/diagnostics", "/api/inventory",
    "/api/topology", "/api/update", "/api/meta", "/metrics"], "GET" ∈ routeMethods name
  decide +kernel

/-- The read of a path that is no route. -/
theorem respondToRead_unrouted (h : "GET" ∉ routeMethods path) :
    respondToRead server request path query = pure (unroutedRead server.toGate request path) := by
  have hne : ∀ name ∈ ["/api/snapshot", "/api/events", "/healthz", "/readyz"]
      ++ (queryReads server request).map (·.1) ++ (plainReads server request).map (·.1),
      name ≠ path :=
    fun name hname heq => h (heq ▸ reads_of_manifest server request name hname)
  have hquery : entry (queryReads server request) path = none :=
    entry_eq_none.mpr fun candidate hcandidate => hne _ (by
      simp only [List.mem_append, List.mem_map]
      exact .inl (.inr ⟨candidate, hcandidate, rfl⟩))
  have hplain : entry (plainReads server request) path = none :=
    entry_eq_none.mpr fun candidate hcandidate => hne _ (by
      simp only [List.mem_append, List.mem_map]
      exact .inr ⟨candidate, hcandidate, rfl⟩)
  have hsnapshot : path ≠ "/api/snapshot" := (hne "/api/snapshot" (by simp)).symm
  have hevents : path ≠ "/api/events" := (hne "/api/events" (by simp)).symm
  have hhealthz : path ≠ "/healthz" := (hne "/healthz" (by simp)).symm
  have hreadyz : path ≠ "/readyz" := (hne "/readyz" (by simp)).symm
  simp only [respondToRead, hsnapshot, hevents, hhealthz, hreadyz, or_self, if_false, hquery,
    hplain, unroutedRead]
  cases entry server.staticRoutes path with
  | none => rfl
  | some filename => rfl

/-- A viewer of the dashboard reads a route of the manifest. -/
theorem viewer_of_shows (h : showsViewer gate request path = true) :
    request.method = "GET" ∧ "GET" ∈ routeMethods path
      ∧ isDashboardReadRequest gate request = true := by
  simp only [showsViewer, Bool.and_eq_true, Bool.or_eq_true, beq_iff_eq,
    List.contains_iff_mem] at h
  obtain ⟨⟨⟨⟨hcommand, -⟩, hmethod⟩, -⟩, hread⟩ := h
  refine ⟨?_, hmethod, hread⟩
  rcases hcommand with hget | hhead
  · simp [Request.method, hget]
  · simp [Request.method, hhead]

/-- A request that is not cleared shows no viewer once it is let through. -/
theorem hidden_of_uncleared (h : ¬ Cleared gate request)
    (hsplit : splitRequestTarget gate request = .ok (path, query))
    (hrefused : refused gate request path = none) : showsViewer gate request path = false := by
  refine Bool.eq_false_iff.mpr fun hshows => ?_
  obtain ⟨hrequest, hmethods, hread⟩ := viewer_of_shows hshows
  obtain ⟨route, hroute, rfl, hmethod⟩ := mem_routeMethods.mp hmethods
  have hreader := reader_of_uncleared h hroute hsplit hmethod hrequest hrefused
  exact absurd hread (Bool.eq_false_iff.mp hreader.2)

/-- The checks before the routes leave no trace of a request that is not cleared. -/
theorem requireAuthentication_uncleared (h : ¬ Cleared server.toGate request)
    (hsplit : splitRequestTarget server.toGate request = .ok (path, query)) :
    requireAuthentication server request path
      = pure ((refused server.toGate request path).map Refusal.reply) := by
  unfold requireAuthentication
  cases hrefused : refused server.toGate request path with
  | some refusal => rfl
  | none => simp [hidden_of_uncleared h hsplit hrefused]

/-- One reply that every server with these checks gives, whatever it monitors, and no change. -/
def Inert (gate : Gate) {α : Type} (reply : (W : Type) → Server W → StateM W α) : Prop :=
  ∃ value, ∀ (W : Type) (server : Server W), server.toGate = gate → reply W server = pure value

/-- A read that is not cleared is inert. -/
theorem respondToReadRequest_inert (h : ¬ Cleared gate request)
    (hrequest : request.method = "GET") :
    Inert gate fun _ server => respondToReadRequest server request := by
  by_cases hbody : refuseRequestBody request = true
  · refine ⟨(sendError "request body is not allowed" 400 .requestBodyNotAllowed).close, ?_⟩
    intro W server _
    simp only [respondToReadRequest, hbody]
    rfl
  cases hsplit : splitRequestTarget gate request with
  | error reply =>
    refine ⟨reply, fun W server hgate => ?_⟩
    subst hgate
    simp only [respondToReadRequest, hbody, hsplit]
    rfl
  | ok target =>
    obtain ⟨path, query⟩ := target
    cases hrefused : refused gate request path with
    | some refusal =>
      refine ⟨refusal.reply, fun W server hgate => ?_⟩
      subst hgate
      simp [respondToReadRequest, hbody, hsplit, hrefused, requireAuthentication_uncleared h hsplit]
    | none =>
      by_cases hquery : query ≠ "" ∧ routeMethods path ≠ [] ∧ (entry querySchemas path).isNone
      · refine ⟨sendError "query parameters are not allowed" 400 .queryNotAllowed, ?_⟩
        intro W server hgate
        subst hgate
        simp only [respondToReadRequest, hbody, hsplit, hrefused,
          requireAuthentication_uncleared h hsplit]
        simp [hquery]
      · by_cases hrouted : "GET" ∈ routeMethods path
        · -- A read of the manifest that is let through lacks the mark of the dashboard.
          obtain ⟨route, hroute, rfl, hmethod⟩ := mem_routeMethods.mp hrouted
          obtain ⟨htier, hread⟩ :=
            reader_of_uncleared h hroute hsplit hmethod hrequest hrefused
          refine ⟨dashboardRequired, fun W server hgate => ?_⟩
          subst hgate
          simp only [respondToReadRequest, hbody, hsplit, hrefused, hquery,
            requireAuthentication_uncleared h hsplit,
            respondToRead_unmarked hread (reader_paths route hroute htier)]
          simp
        · refine ⟨unroutedRead gate request path, fun W server hgate => ?_⟩
          subst hgate
          simp only [respondToReadRequest, hbody, hsplit, hrefused, hquery,
            requireAuthentication_uncleared h hsplit, respondToRead_unrouted hrouted]
          simp

/-! ### Writes and other methods -/

/-- The body of a write that is not cleared is not read. -/
theorem readBody_uncleared (path query : String) (limit : ℕ)
    (h : isDashboardWrite gate.urls request.headers gate.policy = false) :
    ∃ reply, readBody gate request path limit query = .error reply := by
  unfold readBody
  cases declaredLength request with
  | none => exact ⟨_, rfl⟩
  | some declared =>
    dsimp only
    rw [h]
    split
    · exact ⟨_, rfl⟩
    · exact ⟨some dashboardRequired, rfl⟩

/-- A write that is not cleared is inert. -/
theorem doPost_inert (h : ¬ Cleared gate request) (hrequest : request.command = "POST") :
    Inert gate fun _ server => doPost server request := by
  cases hsplit : splitRequestTarget gate request with
  | error reply =>
    refine ⟨some reply, fun W server hgate => ?_⟩
    subst hgate
    simp only [doPost, hsplit]
  | ok target =>
    obtain ⟨path, query⟩ := target
    cases hrefused : refused gate request path with
    | some refusal =>
      refine ⟨some refusal.reply.close, fun W server hgate => ?_⟩
      subst hgate
      simp [doPost, hsplit, hrefused, requireAuthentication_uncleared h hsplit]
    | none =>
      cases hlimit : entry writeBodyLimits path with
      | none =>
        refine ⟨some (sendRouteFallback "POST" path).close, fun W server hgate => ?_⟩
        subst hgate
        simp [doPost, hsplit, hrefused, hlimit, requireAuthentication_uncleared h hsplit]
      | some limit =>
        have hroute := writer_paths _ (mem_of_entry hlimit)
        have hauthenticated : Authenticated gate request :=
          authenticated_of_refused hroute (by simp) hrefused
        have hwrite : isDashboardWrite gate.urls request.headers gate.policy = false :=
          Bool.eq_false_iff.mpr fun hwrite =>
            h ⟨_, hroute, query, hsplit, by simp [Request.method, hrequest],
              hauthenticated, hwrite⟩
        obtain ⟨reply, hreply⟩ := readBody_uncleared path query limit hwrite
        refine ⟨reply.map Reply.close, fun W server hgate => ?_⟩
        subst hgate
        simp [doPost, hsplit, hrefused, hlimit, hreply, requireAuthentication_uncleared h hsplit]

/-- A request of another method is inert. -/
theorem unsupportedMethod_inert (h : ¬ Cleared gate request) :
    Inert gate fun _ server => unsupportedMethod server request := by
  cases hsplit : splitRequestTarget gate request with
  | error reply =>
    refine ⟨reply, fun W server hgate => ?_⟩
    subst hgate
    simp only [unsupportedMethod, hsplit]
  | ok target =>
    obtain ⟨path, query⟩ := target
    refine ⟨((refused gate request path).map fun refusal => refusal.reply.close).getD
      (sendRouteFallback request.command path).close, fun W server hgate => ?_⟩
    subst hgate
    simp only [unsupportedMethod, hsplit, requireAuthentication_uncleared h hsplit]
    cases refused server.toGate request path with
    | none => rfl
    | some refusal => rfl

/-- A request that does not meet the access level of a route gets a reply that the checks alone
determine, and changes nothing. -/
theorem answer_uncleared (h : ¬ Cleared gate request) :
    ∃ reply, ∀ (W : Type) (server : Server W), server.toGate = gate →
      ∀ world, (answer server request).run world = (reply, world) := by
  suffices hinert : Inert gate fun _ server => answer server request by
    obtain ⟨reply, hreply⟩ := hinert
    exact ⟨reply, fun W server hgate world => by
      rw [show answer server request = pure reply from hreply W server hgate]
      rfl⟩
  cases hparse : parseRequest gate request with
  | some reply =>
    refine ⟨some reply, fun W server hgate => ?_⟩
    subst hgate
    simp only [answer, hparse]
  | none =>
    by_cases hread : request.command = "GET" ∨ request.command = "HEAD"
    · have hrequest : request.method = "GET" := by
        rcases hread with hget | hhead
        · simp [Request.method, hget]
        · simp [Request.method, hhead]
      obtain ⟨reply, hreply⟩ := respondToReadRequest_inert h hrequest
      refine ⟨some reply, fun W server hgate => ?_⟩
      simp only [answer, hgate, hparse, hread, hreply W server hgate]
      rfl
    · by_cases hpost : request.command = "POST"
      · obtain ⟨reply, hreply⟩ := doPost_inert h hpost
        refine ⟨reply, fun W server hgate => ?_⟩
        simp only [answer, hgate, hparse, hpost, hreply W server hgate]
        rfl
      · by_cases hoptions : request.command = "OPTIONS"
        · refine ⟨some doOptions, fun W server hgate => ?_⟩
          simp only [answer, hgate, hparse, hoptions]
          rfl
        · obtain ⟨reply, hreply⟩ := unsupportedMethod_inert h
          refine ⟨some reply, fun W server hgate => ?_⟩
          simp only [answer, hgate, hparse, hread, hpost, hoptions, hreply W server hgate]
          rfl

/-- The checks of a server on the loopback interface that asks for a token. -/
def localGate : Gate where
  urls := Hostnames.asciiRules
  queries := { unquote := id, int := String.toInt? }
  isOther := fun c => c.toNat < 32
  isSeparator := fun _ => false
  decodeJsonBody := fun _ => none
  loadAsset := fun _ => none
  strongEtag := id
  clientCacheIsCurrent := fun _ _ => false
  staticRoutes := []
  policy := { hostnames := loopbackHostnames }
  authentication := .bearer
  accessToken := "capability"
  token_ne := fun _ h => absurd (congrArg String.length h) (by decide)

/-- A restart that nobody has authorized. -/
def restartRequest : Request where
  command := "POST"
  target := "/api/service/restart"
  version := "HTTP/1.1"
  headers := ⟨[("Host", "localhost")]⟩
  persistent := true
  body := []

theorem answer_uncleared_restart :
    ∃ reply, ∀ (W : Type) (server : Server W), server.toGate = localGate →
      ∀ world, (answer server restartRequest).run world = (reply, world) := by
  refine answer_uncleared ?_
  rintro ⟨route, hroute, query, hsplit, -, hclears⟩
  have htarget : splitRequestTarget localGate restartRequest
      = .ok ("/api/service/restart", "") := rfl
  have hpath : route.path = "/api/service/restart" :=
    congrArg Prod.fst (Except.ok.inj (hsplit.symm.trans htarget))
  have hrefused : ¬ Authenticated localGate restartRequest := by
    unfold Authenticated
    decide
  have hpublic : ∀ route ∈ apiRoutes, route.tier = .everyone →
      route.path ≠ "/api/service/restart" := by decide +kernel
  cases htier : route.tier with
  | everyone => exact hpublic route hroute htier hpath
  | authenticated =>
    rw [htier] at hclears
    exact hrefused hclears
  | reader =>
    rw [htier] at hclears
    exact hrefused hclears.1
  | writer =>
    rw [htier] at hclears
    exact hrefused hclears.1

end Mocop.Web
