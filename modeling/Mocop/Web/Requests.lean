import Mocop.Inventory.Mutations
import Mocop.Lib.Json
import Mocop.Web.Manifest
import Mocop.Web.Trust

/-!
# `Mocop.Web.Requests`: how the web server answers a request

`answer` is what the handler does with one request that its base class has read: it checks the
authority (`parseRequest`), authenticates, and hands the request to the handler of its route. The
monitor, the inventory and the updates are operations on a state of any kind, which they change
as they please. A reply says whether it closes the connection; no reply means that the body did
not come in time.
-/

set_option autoImplicit false

namespace Mocop.Web

/-! ### Requests and replies -/

/-- A request as the base class has read it: `persistent` says whether its version and its
`Connection` field leave the connection open, and `body` are the bytes after the head that come
before the deadline. -/
structure Request where
  command : String
  target : String
  version : String
  headers : Headers
  persistent : Bool
  body : List UInt8

/-- What a reply carries. -/
inductive Content where
  /-- `_send_error`: the JSON error envelope, perhaps with more members -/
  | error (message : String) (code : ErrorCode) (field : Option String)
      (more : List (String × String) := [])
  /-- the status of a probe request with the code of its refusal -/
  | probe (value : Json) (code : Option ErrorCode)
  | json (value : Json)
  | openmetrics (payload : String)
  | events
  | asset (name : String)
  | notModified (name : String)
  /-- the HTML error page of the base class -/
  | errorPage

/-- A reply with its own header fields, and whether it closes the connection. -/
structure Reply where
  status : ℕ
  content : Content
  extraHeaders : List (String × String) := []
  closes : Bool := false

/-- `_send_error` -/
def sendError (message : String) (status : ℕ) (code : ErrorCode) (field : Option String := none)
    (extraHeaders : List (String × String) := []) : Reply :=
  { status, content := .error message code field, extraHeaders }

/-- `_send_json` -/
def sendJson (value : Json) (status : ℕ := 200) : Reply := { status, content := .json value }

/-- `send_error` of the base class, which closes the connection. -/
def sendErrorPage (status : ℕ) : Reply := { status, content := .errorPage, closes := true }

/-- A reply after which the connection is closed. -/
def Reply.close (reply : Reply) : Reply := { reply with closes := true }

/-- The error of a refused query or body. -/
def SchemaError.reply (error : SchemaError) : Reply :=
  sendError error.message 400 error.code error.field

/-! ### What the server asks -/

/-- `health()` -/
structure Health where
  ready : Bool
  transportRetries : Json
  document : Json

/-- The answer to a probe request. The seconds are a finite number or nothing. -/
structure ProbeAnswer where
  status : String
  retryAfterSeconds : Option ℚ
  document : Json

/-- What the server knows before it asks the monitor: its policy, its files, and what Python knows
about texts and JSON. A server that asks for a token has one. -/
structure Gate where
  urls : Hostnames.UrlRules
  queries : QueryRules
  /-- the Unicode category of a character starts with `C` -/
  isOther : Char → Bool
  /-- the category of a character is `Zl` or `Zp` -/
  isSeparator : Char → Bool
  decodeJsonBody : List UInt8 → Option Payload
  loadAsset : String → Option String
  strongEtag : String → String
  clientCacheIsCurrent : Option String → String → Bool
  staticRoutes : List (String × String)
  policy : TrustedWebPolicy
  authentication : AuthenticationMode
  accessToken : String
  token_ne : authentication = .bearer → accessToken ≠ ""

section Ports
variable (W : Type)

/-- The monitor. `capacity` matches a demand against a snapshot and the active incidents. -/
structure StatePort where
  recordDashboardActivity : StateM W Unit
  snapshotView : StateM W Json
  health : StateM W Health
  history : QueryValue → QueryValue → StateM W (Option Json)
  usage : QueryValue → QueryValue → StateM W Json
  usageReport : QueryValue → QueryValue → StateM W (Option Json)
  /-- nothing for an unknown host, whose `KeyError` the handler catches -/
  utilizationReport : QueryValue → QueryValue → StateM W (Option (Option Json))
  incidents : QueryValue → StateM W Json
  brief : QueryValue → StateM W Json
  capacity : QueryValue → QueryValue → QueryValue → StateM W Json
  gpuHistory : QueryValue → QueryValue → QueryValue → StateM W (Option Json)
  diagnosticBundle : QueryValue → StateM W (Option Json)
  activeIncidentStartedAt : BodyValue → BodyValue → StateM W (Option String)
  testNotifications : StateM W Bool
  setPollIntervalSeconds : Json → StateM W Unit
  /-- `wait_for_update` and the writes of a stream until it ends -/
  stream : StateM W Unit

/-- The configuration controller. -/
structure InventoryController where
  snapshot : StateM W (Except InventoryError Json)
  topology : StateM W (Except InventoryError Json)
  writable : W → Bool
  change : BodyValue → BodyValue → StateM W (Except InventoryError Json)
  updateCollectorSettings : Body → StateM W (Except InventoryError Json)
  updateMaintenance : BodyValue → BodyValue → BodyValue → StateM W (Except InventoryError Json)
  updateHostGroup : BodyValue → BodyValue → StateM W (Except InventoryError Json)
  updateIncidentAction :
    BodyValue → BodyValue → BodyValue → BodyValue → BodyValue → BodyValue →
      StateM W (Except InventoryError Json)

/-- The updates. A refused update has a message. -/
structure UpdatesPort where
  status : StateM W Json
  apply : StateM W (Bool × String)

/-- `MonitorHttpServer`: the monitor and the parts that it may miss. -/
structure Server extends Gate where
  renderOpenmetrics : Json → Option String
  describeMeta : (restart probe configuration updates : Bool) → AuthenticationMode → Json
  state : StatePort W
  inventory : Option (InventoryController W)
  restart : Option (StateM W Unit)
  probeControl : Option (BodyValue → StateM W ProbeAnswer)
  updates : Option (UpdatesPort W)
  currentVersion : String
  /-- a slot for one more event stream is free -/
  streamSlot : W → Bool

end Ports

variable {W : Type} (server : Server W) (gate : Gate) (request : Request)

/-! ### The path of a request -/

/-- `_is_api_family_path` -/
def isApiFamilyPath (path : String) : Bool :=
  path == "/api" || "/api/".toList.isPrefixOf path.toList
    || ["/healthz", "/readyz", "/metrics"].any fun base =>
      path == base || (base ++ "/").toList.isPrefixOf path.toList

/-- `_allowed_methods_header` -/
def allowedMethodsHeader (path : String) : String :=
  let methods := routeMethods path
  ", ".intercalate
    ((if methods.contains "GET" then
        if path ≠ "/api/events" then ["GET", "HEAD"] else ["GET"]
      else []) ++ (if methods.contains "POST" then ["POST"] else []))

/-- `_split_request_target`: the path and the query. -/
def splitRequestTarget : Except Reply (String × String) :=
  match splitUrl gate.urls request.target.toList with
  | some parsed => .ok (String.ofList parsed.parts.path, String.ofList parsed.parts.query)
  | none => .error (sendError "invalid request target" 400 .invalidRequestTarget).close

/-- `_send_route_fallback` -/
def sendRouteFallback (method path : String) : Reply :=
  if isApiFamilyPath path = false then sendErrorPage 404
  else if routeMethods path ≠ [] ∧ method ∉ routeMethods path then
    sendError "method not allowed" 405 .methodNotAllowed none [("Allow", allowedMethodsHeader path)]
  else sendError "unknown API path" 404 .notFound

/-- The error that asks for the dashboard. -/
def dashboardRequired : Reply :=
  sendError "same-origin dashboard request required" 403 .untrustedOrigin

/-- The error of a missing part of the server. -/
def unavailable (message : String) : Reply := sendError message 503 .serviceUnavailable

/-- The error envelope of a refused authentication. -/
def Refusal.reply : Refusal → Reply
  | .untrustedOrigin => sendError "untrusted request origin" 403 .untrustedOrigin
  | .authenticationRequired =>
    { status := 403
      content := .error "dashboard authentication required" .authenticationRequired none
        [("hint", "Send 'Authorization: Bearer <capability>'. A managed service stores it in "
          ++ "the private access-token file beside its configuration "
          ++ "(~/.config/mocop/access-token by default); "
          ++ "a foreground run prints it once as the URL fragment."),
          ("documentation", documentationUrl)] }

/-- The paths without authentication. -/
def publicPaths : List String := ["/healthz", "/readyz", "/api/meta"]

/-- `_is_dashboard_read_request` -/
def isDashboardReadRequest : Bool :=
  isDashboardRead gate.urls request.headers gate.policy.hostnames

/-- Whether a request that is let through counts as a viewer of the dashboard. -/
def showsViewer (path : String) : Bool :=
  (request.command == "GET" || request.command == "HEAD") && "/api/".toList.isPrefixOf path.toList
    && (routeMethods path).contains "GET" && path ≠ "/api/events"
    && isDashboardReadRequest gate request

/-- The refusal of a request to a path, if it is refused. -/
def refused (path : String) : Option Refusal :=
  if path ∈ publicPaths ∨ isApiFamilyPath path = false then none
  else
    authenticationError gate.urls request.headers gate.authentication gate.accessToken
      gate.policy.hostnames

/-- `_require_authentication`: the refusal of a request, or a viewer that is noted. -/
def requireAuthentication (path : String) : StateM W (Option Reply) := do
  match refused server.toGate request path with
  | some refusal => return some refusal.reply
  | none =>
    if path ∉ publicPaths ∧ showsViewer server.toGate request path then
      server.state.recordDashboardActivity
    return none

/-! ### Reads with a query -/

/-- `_parse_query` and the rest of a handler. -/
def withQuery (path query : String) (handler : QueryValues → StateM W Reply) : StateM W Reply :=
  match entry querySchemas path with
  | none => return sendError "unknown API path" 404 .notFound
  | some schema =>
    match parseQuery server.queries schema query with
    | .error error => return error.reply
    | .ok values => handler values

/-- `_require_dashboard_read` and the rest of a handler. -/
def withDashboardRead (handler : StateM W Reply) : StateM W Reply :=
  if isDashboardReadRequest server.toGate request then handler else return dashboardRequired

/-- The document, or the error of an unknown target. -/
def sendKnown (document : Option Json) (message : String) (code : ErrorCode) : Reply :=
  match document with
  | some document => sendJson document
  | none => sendError message 404 code

/-- `_send_report` -/
def sendReport (report : Option Json) : Reply :=
  match report with
  | some report => sendJson report
  | none => sendError "reports need history persistence" 503 .historyUnavailable

/-- `_send_history` -/
def sendHistory (query : String) : StateM W Reply :=
  withQuery server "/api/history" query fun values => do
    let history ← server.state.history (values.item "host") (values.item "limit")
    return sendKnown history "unknown monitoring target" .unknownHost

/-- `_send_usage` -/
def sendUsage (query : String) : StateM W Reply :=
  withQuery server "/api/usage" query fun values =>
    return sendJson (← server.state.usage (values.item "hours") (values.item "limit"))

/-- `_send_usage_report` -/
def sendUsageReport (query : String) : StateM W Reply :=
  withQuery server "/api/reports/usage" query fun values =>
    return sendReport (← server.state.usageReport (values.item "hours") (values.item "limit"))

/-- `_send_utilization_report` -/
def sendUtilizationReport (query : String) : StateM W Reply :=
  withQuery server "/api/reports/utilization" query fun values => do
    match ← server.state.utilizationReport (values.item "hours") (values.item "host") with
    | some report => return sendReport report
    | none => return sendError "unknown monitoring target" 404 .unknownHost

/-- `_send_capacity` -/
def sendCapacity (query : String) : StateM W Reply :=
  withQuery server "/api/capacity" query fun values =>
    return sendJson (← server.state.capacity (values.item "gpus") (values.item "min_vram_gib")
      (values.item "model"))

/-- `_send_incidents` -/
def sendIncidents (query : String) : StateM W Reply :=
  withQuery server "/api/incidents" query fun values =>
    return sendJson (← server.state.incidents (values.item "limit"))

/-- `_send_brief` -/
def sendBrief (query : String) : StateM W Reply :=
  withQuery server "/api/brief" query fun values =>
    return sendJson (← server.state.brief (values.item "hours"))

/-- `_send_gpu_history` -/
def sendGpuHistory (query : String) : StateM W Reply :=
  withDashboardRead server request <| withQuery server "/api/gpu-history" query fun values => do
    let history ← server.state.gpuHistory (values.item "host") (values.item "gpu")
      (values.item "limit")
    return sendKnown history "unknown GPU telemetry target" .unknownGpu

/-- `_send_diagnostics` -/
def sendDiagnostics (query : String) : StateM W Reply :=
  withDashboardRead server request <| withQuery server "/api/diagnostics" query fun values => do
    let bundle ← server.state.diagnosticBundle (values.item "host")
    return sendKnown bundle "unknown monitoring target" .unknownHost

/-- `_QUERY_READS` -/
def queryReads : List (String × (String → StateM W Reply)) :=
  [("/api/history", sendHistory server),
   ("/api/usage", sendUsage server),
   ("/api/reports/usage", sendUsageReport server),
   ("/api/reports/utilization", sendUtilizationReport server),
   ("/api/brief", sendBrief server),
   ("/api/capacity", sendCapacity server),
   ("/api/gpu-history", sendGpuHistory server request),
   ("/api/incidents", sendIncidents server),
   ("/api/diagnostics", sendDiagnostics server request)]

/-! ### Reads without a query -/

/-- `_send_inventory_view` -/
def sendInventoryView (load : InventoryController W → StateM W (Except InventoryError Json))
    (missing failed : String) : StateM W Reply :=
  withDashboardRead server request do
    match server.inventory with
    | none => return unavailable missing
    | some inventory =>
      match ← load inventory with
      | .ok payload => return sendJson payload
      | .error _ => return unavailable failed

/-- `_send_inventory` -/
def sendInventory : StateM W Reply :=
  sendInventoryView server request InventoryController.snapshot
    "inventory management is unavailable" "inventory scan failed"

/-- `_send_topology` -/
def sendTopology : StateM W Reply :=
  sendInventoryView server request InventoryController.topology
    "connection topology is unavailable" "connection topology could not be loaded"

/-- `_send_update_status` -/
def sendUpdateStatus : StateM W Reply :=
  withDashboardRead server request do
    match server.updates with
    | some updates => return sendJson (← updates.status)
    | none =>
      return sendJson (.object
        [("mode", .string "off"), ("currentVersion", .string server.currentVersion)])

/-- `_send_meta` -/
def sendMeta : StateM W Reply := do
  let w ← get
  return sendJson (server.describeMeta server.restart.isSome server.probeControl.isSome
    (server.inventory.any fun inventory => inventory.writable w) server.updates.isSome
    server.authentication)

/-- `_send_openmetrics` -/
def sendOpenmetrics : StateM W Reply := do
  let snapshot ← server.state.snapshotView
  match server.renderOpenmetrics snapshot with
  | some payload => return { status := 200, content := .openmetrics payload }
  | none => return sendError "metrics series budget exceeded" 503 .metricsLimitExceeded

/-- `_PLAIN_READS` -/
def plainReads : List (String × StateM W Reply) :=
  [("/api/inventory", sendInventory server request),
   ("/api/topology", sendTopology server request),
   ("/api/update", sendUpdateStatus server request),
   ("/api/meta", sendMeta server),
   ("/metrics", sendOpenmetrics server)]

/-- `_send_events`: the stream, once it has ended. -/
def sendEvents : StateM W Reply := do
  if server.streamSlot (← get) = false then
    return (unavailable "too many event stream clients").close
  server.state.stream
  return Reply.close { status := 200, content := .events }

/-- `_send_static` -/
def sendStatic (filename : String) : Reply :=
  match gate.loadAsset filename with
  | none => sendErrorPage 500
  | some payload =>
    let etag := gate.strongEtag payload
    if gate.clientCacheIsCurrent (request.headers.get "If-None-Match") etag then
      { status := 304, content := .notModified filename, extraHeaders := [("ETag", etag)] }
    else { status := 200, content := .asset filename, extraHeaders := [("ETag", etag)] }

/-- The reply of `/healthz` or `/readyz`. -/
def sendHealth (path : String) (health : Health) : Reply :=
  if path = "/healthz" then
    sendJson (.object [("status", .string "ok"), ("ready", .bool health.ready),
      ("transportRetries", health.transportRetries)])
  else sendJson health.document (if health.ready then 200 else 503)

/-- `_refuse_request_body`: whether a read declares a body. -/
def refuseRequestBody : Bool :=
  match request.headers.get "Transfer-Encoding", request.headers.getAll "Content-Length" with
  | some _, _ => true
  | none, [] => false
  | none, [declared] =>
    let length := (pyStrip declared).toList
    !(length ≠ [] && length.all (· == '0'))
  | none, _ => true

/-- `_respond_to_read_request` of a path that has cleared its checks. -/
def respondToRead (path query : String) : StateM W Reply := do
  if path = "/api/snapshot" then return sendJson (← server.state.snapshotView)
  else if path = "/api/events" then
    if request.command = "HEAD" then
      return sendError "method not allowed" 405 .methodNotAllowed none [("Allow", "GET")]
    else sendEvents server
  else
    match entry (queryReads server request) path, entry (plainReads server request) path with
    | some queryRead, _ => queryRead query
    | none, some plainRead => plainRead
    | none, none =>
      if path = "/healthz" ∨ path = "/readyz" then
        return sendHealth path (← server.state.health)
      else
        match entry server.staticRoutes path with
        | some filename => return sendStatic server.toGate request filename
        | none => return sendRouteFallback "GET" path

/-- `_respond_to_read_request` -/
def respondToReadRequest : StateM W Reply := do
  if refuseRequestBody request then
    return (sendError "request body is not allowed" 400 .requestBodyNotAllowed).close
  match splitRequestTarget server.toGate request with
  | .error reply => return reply
  | .ok (path, query) =>
    match ← requireAuthentication server request path with
    | some refusal => return refusal
    | none =>
      if query ≠ "" ∧ routeMethods path ≠ [] ∧ (entry querySchemas path).isNone then
        return sendError "query parameters are not allowed" 400 .queryNotAllowed
      else respondToRead server request path query

/-! ### Writes -/

/-- `_write_configuration` -/
def writeConfiguration
    (operation : InventoryController W → StateM W (Except InventoryError Json))
    (rejected : Reply := sendError
      "configuration changed underneath the request; re-read and retry" 409 .inventoryChanged) :
    StateM W (Except Reply Json) := do
  match server.inventory with
  | none => return .error (unavailable "configuration management is unavailable")
  | some inventory =>
    match ← operation inventory with
    | .ok value => return .ok value
    | .error (.request _) => return .error rejected
    | .error (.inventory _) => return .error (unavailable "configuration could not be updated")

/-- The reply of a configuration write. -/
def sendWritten (written : Except Reply Json) : Reply :=
  match written with
  | .ok snapshot => sendJson snapshot
  | .error reply => reply

/-- The error of a body whose fields do not go together. -/
def invalidSettings (message : String) (field : Option String := none) : Reply :=
  sendError message 400 .invalidSettings field

/-- `_change_inventory` -/
def changeInventory (body : Body) : StateM W Reply :=
  return sendWritten (← writeConfiguration server fun inventory =>
    inventory.change (body.item "action") (body.item "host"))

/-- `_change_collector_settings` -/
def changeCollectorSettings (body : Body) : StateM W Reply := do
  match ← writeConfiguration server (fun inventory => inventory.updateCollectorSettings body)
      (invalidSettings "invalid collector settings") with
  | .error reply => return reply
  | .ok settings =>
    server.state.setPollIntervalSeconds ((settings.member "pollIntervalSeconds").getD .null)
    let snapshot ← server.state.snapshotView
    return sendJson (.object
      ((["version", "startedAt", "collectionStaleAfterSeconds"].map fun name =>
        (name, (snapshot.member name).getD .null)) ++ [("collectorSettings", settings)]))

/-- Whether a text has at most `limit` characters without its outer blanks, and no disallowed
one. -/
def boundedText (disallowed : Char → Bool) (limit : ℕ) (value : String) : Bool :=
  (pyStrip value).length ≤ limit && !value.toList.any disallowed

/-- `is_valid_maintenance_reason` -/
def validReason (value : BodyValue) (required : Bool) : Bool :=
  match value with
  | .text value =>
    (pyStrip value ≠ "" || !required)
      && boundedText (fun c => gate.isOther c || gate.isSeparator c) 120 value
  | _ => false

/-- `is_valid_host_group` of a group that may be empty -/
def validGroup (value : BodyValue) : Bool :=
  match value with
  | .text value => boundedText gate.isOther 48 value
  | _ => false

/-- `is_valid_incident_action_reason` -/
def validActionReason (value : BodyValue) : Bool :=
  match value with
  | .text value => boundedText gate.isOther 120 value
  | _ => false

/-- `is_valid_incident_condition_key` -/
def validConditionKey (value : BodyValue) : Bool :=
  match value with
  | .text value => value ≠ "" && value.length ≤ 512 && !value.toList.any gate.isOther
  | _ => false

/-- `_change_maintenance` -/
def changeMaintenance (body : Body) : StateM W Reply :=
  if validReason server.toGate (body.item "reason") (body.item "durationSeconds" ≠ .integer 0) then
    return sendWritten (← writeConfiguration server fun inventory =>
      inventory.updateMaintenance (body.item "host") (body.item "durationSeconds")
        (body.item "reason"))
  else return invalidSettings "invalid maintenance settings" (some "reason")

/-- `_change_host_group` -/
def changeHostGroup (body : Body) : StateM W Reply :=
  if validGroup server.toGate (body.item "group") then
    return sendWritten (← writeConfiguration server fun inventory =>
      inventory.updateHostGroup (body.item "host") (body.item "group"))
  else return invalidSettings "invalid host group settings" (some "group")

/-- The field of an incident action that does not go with the others. -/
def rejectedField (body : Body) : Option String :=
  let clearing := body.item "action" == .text "clear"
  let startedAt := body.item "incidentStartedAt"
  if validConditionKey gate (body.item "conditionKey") = false then some "conditionKey"
  else if validActionReason gate (body.item "reason") = false then some "reason"
  else if clearing ≠ (body.item "durationSeconds" == .integer 0) then some "durationSeconds"
  else if clearing ≠ (startedAt == .null) ∨ startedAt = .text "" then some "incidentStartedAt"
  else none

/-- `_incident_generation_matches` -/
def incidentGenerationMatches (body : Body) : StateM W Bool := do
  match body.item "incidentStartedAt" with
  | .null => return true
  | startedAt =>
    let current ← server.state.activeIncidentStartedAt (body.item "host") (body.item "conditionKey")
    return current.map BodyValue.text == some startedAt

/-- The error of an incident that is not there. -/
def incidentNotActive (message : String) : Reply := sendError message 409 .incidentNotActive

/-- `_change_incident_action` -/
def changeIncidentAction (body : Body) : StateM W Reply := do
  if (rejectedField server.toGate body).isSome then
    return invalidSettings "invalid incident action settings" (rejectedField server.toGate body)
  if (← incidentGenerationMatches server body) = false then
    return incidentNotActive "incident condition is no longer active"
  match ← writeConfiguration server fun inventory =>
      inventory.updateIncidentAction (body.item "host") (body.item "conditionKey")
        (body.item "action") (body.item "durationSeconds") (body.item "reason")
        (body.item "incidentStartedAt") with
  | .error reply => return reply
  | .ok snapshot =>
    if (← incidentGenerationMatches server body) = false then
      return incidentNotActive "incident condition changed while the action was saved"
    return sendJson snapshot

/-- The status and the code of the answer to a probe request. -/
def probeStatus (status : String) : ℕ × Option ErrorCode :=
  if status = "unknown_host" then (404, some .unknownHost)
  else if status = "rate_limited" then (429, some .rateLimited)
  else if status = "in_progress" then (409, some .probeInProgress)
  else (202, none)

/-- `_request_probe` -/
def requestProbe (body : Body) : StateM W Reply := do
  match server.probeControl with
  | none => return unavailable "manual probing is unavailable"
  | some control =>
    let result ← control (body.item "host")
    let (status, code) := probeStatus result.status
    return { status, content := .probe result.document code
             extraHeaders :=
               if status = 429 then
                 (result.retryAfterSeconds.map fun seconds =>
                   ("Retry-After", toString (max 0 seconds.ceil))).toList
               else [] }

/-- `bool(value)` -/
def truthy : Json → Bool
  | .null => false
  | .bool value => value
  | .integer value => value ≠ 0
  | .fraction value => value ≠ 0
  | .string value => value ≠ ""
  | .array items => !items.isEmpty
  | .object members => !members.isEmpty

/-- Whether the notifications of a snapshot are enabled. -/
def notificationsEnabled (snapshot : Json) : Bool :=
  ((snapshot.member "notifications").bind (·.member "enabled")).any truthy

/-- `_test_notifications` -/
def testNotifications (_body : Body) : StateM W Reply := do
  if notificationsEnabled (← server.state.snapshotView) = false then
    return sendError "notifications are not configured" 503 .notificationsDisabled
  if (← server.state.testNotifications) = false then
    return sendError "notification test is rate limited" 429 .rateLimited
  return sendJson (.object [("status", .string "queued")]) 202

/-- `_apply_update` -/
def applyUpdate (_body : Body) : StateM W Reply := do
  let (accepted, message) ←
    server.updates.elim (pure (false, "self-update is off")) UpdatesPort.apply
  if accepted then return sendJson (.object [("status", .string "updating")]) 202
  else return sendError message 409 .updateNotApplicable

/-- `_restart_service` -/
def restartService (_body : Body) : StateM W Reply := do
  match server.restart with
  | none => return unavailable "managed service restart is unavailable"
  | some restart =>
    restart
    return sendJson (.object [("status", .string "restarting")]) 202

/-- The handlers of `do_POST`. -/
def writeHandlers : List (String × (Body → StateM W Reply)) :=
  [("/api/settings/hosts", changeInventory server),
   ("/api/settings/collector", changeCollectorSettings server),
   ("/api/settings/maintenance", changeMaintenance server),
   ("/api/settings/host-group", changeHostGroup server),
   ("/api/settings/incident-action", changeIncidentAction server),
   ("/api/probe", requestProbe server),
   ("/api/notifications/test", testNotifications server),
   ("/api/service/restart", restartService server),
   ("/api/update/apply", applyUpdate server)]

/-- The single declared length in ASCII digits of a body without a transfer encoding. -/
def declaredLength : Option (List Char) :=
  match request.headers.getAll "Transfer-Encoding", request.headers.getAll "Content-Length" with
  | [], [declared] =>
    if declared.toList ≠ [] ∧ declared.toList.all Char.isDigit then some declared.toList else none
  | _, _ => none

/-- The media type of the body. -/
def mediaType : List Char :=
  gate.urls.lower
    (pyStrip (String.ofList (((request.headers.get "Content-Type").getD "").toList.takeWhile
      (· ≠ ';')))).toList

/-- The length of the body, or one more than the limit where its digits are too many. -/
def contentLength (limit : ℕ) (declared : List Char) : ℕ :=
  let digits := declared.dropWhile (· == '0')
  if (toString limit).length < digits.length then limit + 1 else Nat.ofDigitChars 10 digits 0

/-- The body of a request to a route: what the checks before the handler make of it. An aborted
read has no reply. -/
def readBody (path : String) (limit : ℕ) (query : String) : Except (Option Reply) Body :=
  match declaredLength request with
  | none => .error (some (sendError "invalid request framing" 400 .invalidRequestFraming))
  | some declared =>
    if query ≠ "" then
      .error (some (sendError "query parameters are not allowed" 400 .queryNotAllowed))
    else if isDashboardWrite gate.urls request.headers gate.policy = false then
      .error (some dashboardRequired)
    else if mediaType gate request ≠ "application/json".toList then
      .error (some (sendError "application/json required" 415 .unsupportedMediaType))
    else
      let length := contentLength limit declared
      if ¬(1 ≤ length ∧ length ≤ limit) then
        .error (some (sendError "invalid request body size" 413 .payloadTooLarge))
      else if (request.body.take length).length ≠ length then .error none
      else
        match gate.decodeJsonBody (request.body.take length), entry writeSchemas path with
        | none, _ => .error (some (sendError "invalid JSON body" 400 .invalidJson))
        | some _, none => .error (some (sendError "unknown API path" 404 .notFound))
        | some payload, some schema =>
          match validateBody schema payload with
          | .error error => .error (some error.reply)
          | .ok body => .ok body

/-- `do_POST`. Every write closes the connection. -/
def doPost : StateM W (Option Reply) := do
  match splitRequestTarget server.toGate request with
  | .error reply => return some reply
  | .ok (path, query) =>
    match ← requireAuthentication server request path with
    | some refusal => return some refusal.close
    | none =>
      match entry writeBodyLimits path with
      | none => return some (sendRouteFallback "POST" path).close
      | some limit =>
        match readBody server.toGate request path limit query with
        | .error reply => return reply.map Reply.close
        | .ok body =>
          match entry (writeHandlers server) path with
          | none => return some (sendRouteFallback "POST" path).close
          | some handler => return some (← handler body).close

/-! ### Every request -/

/-- `do_OPTIONS` -/
def doOptions : Reply :=
  (sendError "cross-origin requests are not allowed" 403 .untrustedOrigin).close

/-- `_unsupported_method` -/
def unsupportedMethod : StateM W Reply := do
  match splitRequestTarget server.toGate request with
  | .error reply => return reply
  | .ok (path, _) =>
    match ← requireAuthentication server request path with
    | some refusal => return refusal.close
    | none => return (sendRouteFallback request.command path).close

/-- `parse_request`: the error of a request without an authority of its own. -/
def parseRequest : Option Reply :=
  let hosts := request.headers.getAll "Host"
  let invalidHost :=
    (request.version == "HTTP/1.1" && hosts.length ≠ 1) || 1 < hosts.length
      || hosts.head?.any fun host =>
        (Hostnames.normalizeWebHostname gate.urls host true).isNone
  let absoluteTarget := request.target.toList.head? ≠ some '/' && request.target ≠ "*"
  if invalidHost || absoluteTarget then
    some (sendError "invalid HTTP request authority" 400 .invalidRequestAuthority).close
  else none

/-- The reply to a request. -/
def answer : StateM W (Option Reply) := do
  match parseRequest server.toGate request with
  | some reply => return some reply
  | none =>
    if request.command = "GET" ∨ request.command = "HEAD" then
      return some (← respondToReadRequest server request)
    else if request.command = "POST" then doPost server request
    else if request.command = "OPTIONS" then return some doOptions
    else return some (← unsupportedMethod server request)

end Mocop.Web
