import Mocop.Web.Schemas

/-!
# `Mocop.Web.Manifest`: the published contract of the HTTP API

The manifest lists the routes with their access level (`apiRoutes`), what each accepts
(`querySchemas`, `writeSchemas`), how long a body may be (`writeBodyLimits`), and the error codes
with their statuses (`errorCodes`). The request handlers of `Mocop.Web.Requests` consult it.
-/

set_option autoImplicit false

namespace Mocop.Web

/-- Who may call a route. -/
inductive Tier where
  | everyone
  | authenticated
  | reader
  | writer
  deriving DecidableEq

/-- One route of the API. -/
structure Route where
  method : String
  path : String
  tier : Tier
  deriving DecidableEq

/-- `DOCUMENTATION_URL` -/
def documentationUrl : String := "https://github.com/ChangWinde/mocop/blob/v0.13.0/docs/API.md"

/-- `API_ROUTES` -/
def apiRoutes : List Route :=
  [⟨"GET", "/api/snapshot", .authenticated⟩,
   ⟨"GET", "/api/events", .authenticated⟩,
   ⟨"GET", "/api/history", .authenticated⟩,
   ⟨"GET", "/api/usage", .authenticated⟩,
   ⟨"GET", "/api/reports/usage", .authenticated⟩,
   ⟨"GET", "/api/reports/utilization", .authenticated⟩,
   ⟨"GET", "/api/brief", .authenticated⟩,
   ⟨"GET", "/api/capacity", .authenticated⟩,
   ⟨"GET", "/api/incidents", .authenticated⟩,
   ⟨"GET", "/api/meta", .everyone⟩,
   ⟨"GET", "/healthz", .everyone⟩,
   ⟨"GET", "/readyz", .everyone⟩,
   ⟨"GET", "/metrics", .authenticated⟩,
   ⟨"GET", "/api/gpu-history", .reader⟩,
   ⟨"GET", "/api/diagnostics", .reader⟩,
   ⟨"GET", "/api/inventory", .reader⟩,
   ⟨"GET", "/api/topology", .reader⟩,
   ⟨"GET", "/api/update", .reader⟩,
   ⟨"POST", "/api/update/apply", .writer⟩,
   ⟨"POST", "/api/settings/collector", .writer⟩,
   ⟨"POST", "/api/settings/hosts", .writer⟩,
   ⟨"POST", "/api/settings/maintenance", .writer⟩,
   ⟨"POST", "/api/settings/host-group", .writer⟩,
   ⟨"POST", "/api/settings/incident-action", .writer⟩,
   ⟨"POST", "/api/probe", .writer⟩,
   ⟨"POST", "/api/notifications/test", .writer⟩,
   ⟨"POST", "/api/service/restart", .writer⟩]

/-- `ROUTE_METHODS`: the methods of a path, none where the manifest does not have it. -/
def routeMethods (path : String) : List String :=
  (apiRoutes.filter fun route => route.path == path).map Route.method

/-- `WRITE_BODY_LIMITS` -/
def writeBodyLimits : List (String × ℕ) :=
  [("/api/settings/collector", 512),
   ("/api/settings/hosts", 512),
   ("/api/settings/maintenance", 512),
   ("/api/settings/host-group", 512),
   ("/api/service/restart", 32),
   ("/api/update/apply", 32),
   ("/api/settings/incident-action", 1024),
   ("/api/probe", 512),
   ("/api/notifications/test", 32)]

/-! ### Queries -/

/-- `_integer` -/
def integerParameter (minimum maximum default : ℤ) (invalidCode : ErrorCode) : QueryParameter :=
  { kind := .integer, minimum, maximum, default := .integer default, invalidCode }

/-- `QUERY_SCHEMAS` -/
def querySchemas : List (String × QuerySchema) :=
  [("/api/history",
      ⟨[("host", { kind := .alias, required := true }),
        ("limit", integerParameter 2 300 120 .invalidLimit)],
       .invalidQuery, "invalid host or limit"⟩),
   ("/api/usage",
      ⟨[("hours", integerParameter 1 720 24 .invalidHours),
        ("limit", integerParameter 1 500 50 .invalidLimit)],
       .invalidQuery, "invalid hours or limit"⟩),
   ("/api/reports/usage",
      ⟨[("hours", integerParameter 1 720 168 .invalidHours),
        ("limit", integerParameter 1 500 50 .invalidLimit)],
       .invalidQuery, "invalid hours or limit"⟩),
   ("/api/reports/utilization",
      ⟨[("hours", integerParameter 1 2160 168 .invalidHours),
        ("host", { kind := .alias })],
       .invalidQuery, "invalid hours or host"⟩),
   ("/api/brief",
      ⟨[("hours", integerParameter 1 168 24 .invalidHours)], .invalidHours, "invalid hours"⟩),
   ("/api/gpu-history",
      ⟨[("host", { kind := .alias, required := true }),
        ("gpu", { kind := .identity, required := true }),
        ("limit", integerParameter 2 300 120 .invalidLimit)],
       .invalidQuery, "invalid host, GPU, or limit"⟩),
   ("/api/diagnostics", ⟨[("host", { kind := .alias })], .invalidHost, "invalid host"⟩),
   ("/api/incidents",
      ⟨[("limit", integerParameter 1 200 50 .invalidLimit)], .invalidLimit, "invalid limit"⟩),
   ("/api/capacity",
      ⟨[("gpus", integerParameter 1 256 1 .invalidCapacityRequest),
        ("min_vram_gib", integerParameter 0 512 0 .invalidCapacityRequest),
        ("model", { kind := .text, default := .text "any" })],
       .invalidCapacityRequest, "invalid gpus, min_vram_gib, or model"⟩)]

/-! ### Bodies -/

/-- `_DURATION_VALUES` -/
def durationValues : List BodyValue :=
  [.integer 0, .integer 3600, .integer 14400, .integer 86400, .integer 604800]

/-- `_ENUM_ACTIONS` -/
def enumActions : List BodyValue := [.text "acknowledged", .text "silenced", .text "clear"]

/-- `WRITE_SCHEMAS` -/
def writeSchemas : List (String × BodySchema) :=
  [("/api/settings/collector",
      { fields :=
          [("pollIntervalSeconds", { kind := .number, minimum := some 2, maximum := some 60 }),
           ("probeTimeoutSeconds", { kind := .number, minimum := some 2, maximum := some 300 }),
           ("maxWorkers", { kind := .integer, minimum := some 1, maximum := some 64 })]
        exactKeys := false }),
   ("/api/settings/hosts",
      { fields :=
          [("action", { kind := .enum, values := some [.text "add", .text "remove"] }),
           ("host", { kind := .alias })] }),
   ("/api/settings/maintenance",
      { fields :=
          [("host", { kind := .alias }),
           ("durationSeconds", { kind := .integer, values := some durationValues }),
           ("reason", { kind := .text, maximum := some 120 })] }),
   ("/api/settings/host-group",
      { fields :=
          [("host", { kind := .alias }), ("group", { kind := .text, maximum := some 48 })] }),
   ("/api/settings/incident-action",
      { fields :=
          [("host", { kind := .alias }),
           ("conditionKey", { kind := .text, maximum := some 512 }),
           ("incidentStartedAt", { kind := .timestamp, nullable := true }),
           ("action", { kind := .enum, values := some enumActions }),
           ("durationSeconds", { kind := .integer, values := some durationValues }),
           ("reason", { kind := .text, maximum := some 120 })] }),
   ("/api/probe", { fields := [("host", { kind := .alias })] }),
   ("/api/service/restart", { fields := [], empty := true }),
   ("/api/update/apply", { fields := [], empty := true }),
   ("/api/notifications/test", { fields := [], empty := true })]

/-! ### Errors -/

/-- `ERROR_CODES` -/
def errorCodes : List (ErrorCode × ℕ) :=
  [(.invalidRequestAuthority, 400),
   (.invalidRequestFraming, 400),
   (.invalidRequestTarget, 400),
   (.requestBodyNotAllowed, 400),
   (.queryNotAllowed, 400),
   (.unknownQueryParameter, 400),
   (.invalidQuery, 400),
   (.invalidLimit, 400),
   (.invalidHours, 400),
   (.invalidCapacityRequest, 400),
   (.invalidHost, 400),
   (.invalidJson, 400),
   (.invalidSchema, 400),
   (.invalidSettings, 400),
   (.untrustedOrigin, 403),
   (.authenticationRequired, 403),
   (.notFound, 404),
   (.unknownHost, 404),
   (.unknownGpu, 404),
   (.methodNotAllowed, 405),
   (.probeInProgress, 409),
   (.updateNotApplicable, 409),
   (.inventoryChanged, 409),
   (.incidentNotActive, 409),
   (.payloadTooLarge, 413),
   (.unsupportedMediaType, 415),
   (.rateLimited, 429),
   (.serviceUnavailable, 503),
   (.metricsLimitExceeded, 503),
   (.notificationsDisabled, 503),
   (.historyUnavailable, 503),
   (.connectionLimit, 503)]

end Mocop.Web
