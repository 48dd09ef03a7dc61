import Mocop.Lib.Exposition
import Mocop.Lib.PyValues

/-!
# `Mocop.Reports.OpenMetrics`: the metrics exposition

`renderOpenmetrics` renders a snapshot, a dictionary of any shape, as an OpenMetrics text. A
snapshot that would exceed the budget of series is refused before any sample is made.

The code appends samples under the name of a series and writes the families at the end. Here one
append is a `Reading`: the series, the labels and the value, which may be missing. `collect`
keeps those that have a value, in order.

The library parser from a timestamp to seconds is the parameter `timestamp`, and the text of a
value that is no text is the parameter `repr`.
-/

set_option autoImplicit false

namespace Mocop.OpenMetrics

open Exposition (normalizeNewlines)
open PyDict (get)

/-- `OPENMETRICS_MAX_SERIES` -/
def maxSeries : ℕ := 100000

/-- The exceptions of an exposition. -/
inductive Raised where
  /-- `OpenMetricsLimitError` -/
  | limit (estimated : ℕ)
  /-- `ValueError("OpenMetrics samples must be finite")` -/
  | notFinite
  /-- `float(value)` of an integer out of range -/
  | overflow
  deriving DecidableEq

/-! ### Texts of labels and numbers -/

/-- Labels with their values. -/
abbrev Labels := List (String × String)

/-- `text.replace("\r\n", "\n")` -/
def replaceCrLf : List Char → List Char
  | '\r' :: '\n' :: text => '\n' :: replaceCrLf text
  | c :: text => c :: replaceCrLf text
  | [] => []

/-- `text.replace(old, new)` for one character. -/
def replaceChar (old : Char) (new : List Char) (text : List Char) : List Char :=
  text.flatMap fun c => if c = old then new else [c]

/-- `_escape_label` -/
def escapeLabel (value : String) : String :=
  String.ofList (replaceChar '"' ['\\', '"'] (replaceChar '\n' ['\\', 'n']
    (replaceChar '\\' ['\\', '\\'] (replaceChar '\r' ['\n'] (replaceCrLf value.toList)))))

/-- `_label_set` -/
def labelSet (labels : Labels) : String :=
  if labels.isEmpty then ""
  else "\x7b" ++ String.intercalate ","
    (labels.map fun (name, value) => name ++ "=\"" ++ escapeLabel value ++ "\"") ++ "\x7d"

/-- A number of a sample. -/
inductive PyNumber where
  | bool (value : Bool)
  | int (value : ℤ)
  | float (value : Float64)

/-- `float(value)` of an integer. -/
def toFloat (value : ℤ) : Except Raised Float64 :=
  if (Float64.ofRat value).isFinite then .ok (Float64.ofRat value) else .error .overflow

/-- The power of ten of the last of 15 significant digits. -/
def lastDigit (value : ℚ) : ℤ := Int.log 10 |value| - 14

/-- The 15 significant digits of a number, as an integer. -/
def significant (value : ℚ) : ℕ := (roundHalfEven (|value| / (10 : ℚ) ^ lastDigit value)).toNat

/-- `format(value, ".15g")` -/
def format15g (value : ℚ) : List Char :=
  let digits := (Numeral.general 15 (significant value) (lastDigit value)).text
  if value < 0 then '-' :: digits else digits

/-- `str(value)` of an integer. -/
def intText (value : ℤ) : List Char :=
  let digits := Nat.toDigits 10 value.natAbs
  if value < 0 then '-' :: digits else digits

/-- The text of a number in double precision. -/
def floatText : Float64 → Except Raised (List Char)
  | .finite double =>
    if double.value = 0 then .ok ['0']
    else if double.value.isInt then .ok (intText double.value.num)
    else .ok (format15g double.value)
  | _ => .error .notFinite

/-- `_number` -/
def number : PyNumber → Except Raised (List Char)
  | .bool value => .ok (if value then ['1'] else ['0'])
  | .int value => do floatText (← toFloat value)
  | .float value => floatText value

/-! ### Families -/

/-- A sample of a family. -/
structure Sample where
  labels : Labels
  value : PyNumber

/-- What the header of a family says. -/
structure Heading where
  name : String
  help : String
  unit : Option String
  metricType : String
  deriving DecidableEq

/-- A family and its samples. -/
structure Family where
  heading : Heading
  samples : List Sample

/-- The name of the samples: counters carry `_total`. -/
def Heading.sampleName (heading : Heading) : String :=
  if heading.metricType = "counter" then heading.name ++ "_total" else heading.name

/-- The header lines of a family. -/
def Heading.lines (heading : Heading) : List String :=
  ["# TYPE " ++ heading.name ++ " " ++ heading.metricType]
    ++ (heading.unit.toList.map fun unit => "# UNIT " ++ heading.name ++ " " ++ unit)
    ++ ["# HELP " ++ heading.name ++ " " ++ heading.help]

/-- The line of a sample. -/
def sampleLine (name : String) (sample : Sample) : Except Raised String := do
  let value ← number sample.value
  return name ++ labelSet sample.labels ++ " " ++ String.ofList value

/-- The lines that `_family` appends, none for no samples. -/
def familyLines (family : Family) : Except Raised (List String) :=
  if family.samples.isEmpty then .ok []
  else do
    let lines ← family.samples.mapM (sampleLine family.heading.sampleName)
    return family.heading.lines ++ lines

/-! ### Values of a snapshot -/

/-- A value of a sample, if there is one. -/
abbrev Value := Except Raised (Option PyNumber)

/-- `_metric` -/
def metric : PyValue → Except Raised (Option Float64)
  | .int value => do
    let number ← toFloat value
    return if number.isFinite then some number else none
  | .float value => .ok (if value.isFinite then some value else none)
  | _ => .ok none

/-- `_mib_as_bytes` -/
def mibAsBytes (value : PyValue) : Except Raised (Option Float64) := do
  match ← metric value with
  | none => return none
  | some number =>
    let scaled := (number.mul 1024).mul 1024
    return if scaled.isFinite then some scaled else none

/-- `_percentage_as_ratio` -/
def percentageAsRatio (value : PyValue) : Except Raised (Option Float64) := do
  return (← metric value).map (·.div 100)

/-- `_seconds_from_milliseconds` -/
def secondsFromMilliseconds (value : PyValue) : Except Raised (Option Float64) := do
  return (← metric value).map (·.div 1000)

/-- A float as the value of a sample. -/
def floatValue (value : Except Raised (Option Float64)) : Value := do
  return (← value).map PyNumber.float

/-- `int(flag)` as the value of a sample. -/
def flagValue (flag : Bool) : Value := .ok (some (.int (if flag then 1 else 0)))

/-- `int(value)` of a truth value, nothing for another value. -/
def boolValue : PyValue → Value
  | .bool value => flagValue value
  | _ => .ok none

/-- One append to the samples of a series. -/
structure Reading (κ : Type) where
  key : κ
  labels : Labels
  value : Value

/-- The samples of some appends, in order. -/
def collect {κ : Type} (readings : List (Reading κ)) : Except Raised (List (κ × Sample)) := do
  let samples ← readings.mapM fun reading => do
    return (← reading.value).map fun value => (reading.key, Sample.mk reading.labels value)
  return samples.filterMap id

/-! ### The series -/

/-- The series of a host. -/
inductive HostSeries where
  | info | up | stale | maintenance | polling | failures | incidents | criticalIncidents
  | actionableIncidents | actionableCriticalIncidents | latency | transportRetried | cpu | load
  | uptime | memoryTotal | memoryUsed | swapTotal | swapUsed | diskTotal | diskUsed | networkRx
  | networkTx | diskRead | diskWrite | pressureSome | pressureFull
  deriving DecidableEq

/-- The series of a device. -/
inductive GpuSeries where
  | info | utilization | memoryTotal | memoryUsed | memoryFree | temperature | powerDraw
  | powerLimit | processes | processesAvailable | processesSampled | processesObservedAt | ecc
  | retiredPages | remappedRows | thermalSlowdown | powerBrake
  deriving DecidableEq

/-- A series of a host or of a device. -/
inductive Series where
  | host (series : HostSeries)
  | gpu (series : GpuSeries)
  deriving DecidableEq

/-- `cluster_families` -/
def clusterFamilies : List (String × String × String) :=
  [("mocop_cluster_servers", "Configured servers.", "servers"),
  ("mocop_cluster_servers_online", "Currently online servers.", "onlineServers"),
  ("mocop_cluster_servers_stale", "Servers exposing stale last-known data.", "staleServers"),
  ("mocop_cluster_servers_maintenance", "Servers in a maintenance window.", "maintenanceServers"),
  ("mocop_cluster_gpus", "GPUs on currently online servers.", "gpus"),
  ("mocop_cluster_gpus_busy", "Currently busy GPUs.", "busyGpus"),
  ("mocop_cluster_servers_issue", "Servers with any current issue.", "issueServers"),
  ("mocop_cluster_servers_actionable_issue",
    "Servers with a current issue excluding maintained hosts.", "actionableIssueServers"),
  ("mocop_cluster_servers_incident", "Servers with an active incident.", "incidentServers"),
  ("mocop_cluster_servers_actionable_incident",
    "Servers with an active incident excluding maintained hosts.", "actionableIncidentServers"),
  ("mocop_cluster_incidents_active", "Raw active incidents.", "activeIncidents"),
  ("mocop_cluster_incidents_critical", "Raw active critical incidents.", "criticalIncidents"),
  ("mocop_cluster_incidents_actionable",
    "Active incidents excluding maintained hosts.", "actionableIncidents"),
  ("mocop_cluster_incidents_actionable_critical",
    "Active critical incidents excluding maintained hosts.", "actionableCriticalIncidents")]

/-- `host_definitions` -/
def hostDefinitions : List (Series × Heading) :=
  [(.host .info, ⟨"mocop_host_info", "Host inventory metadata.", none, "gauge"⟩),
  (.host .up, ⟨"mocop_host_up", "Whether the most recent host probe succeeded.", none, "gauge"⟩),
  (.host .stale, ⟨"mocop_host_stale",
    "Whether host resources are last-known stale data.", none, "gauge"⟩),
  (.host .maintenance, ⟨"mocop_host_maintenance",
    "Whether the host is in a maintenance window.", none, "gauge"⟩),
  (.host .polling, ⟨"mocop_host_polling",
    "Whether a probe is currently running for the host.", none, "gauge"⟩),
  (.host .failures, ⟨"mocop_host_consecutive_failures",
    "Consecutive failed probes for the host.", none, "gauge"⟩),
  (.host .incidents, ⟨"mocop_host_incidents_active",
    "Raw active incidents for the host.", none, "gauge"⟩),
  (.host .criticalIncidents, ⟨"mocop_host_incidents_critical",
    "Raw active critical incidents for the host.", none, "gauge"⟩),
  (.host .actionableIncidents, ⟨"mocop_host_incidents_actionable",
    "Active incidents for the host excluding maintenance silence.", none, "gauge"⟩),
  (.host .actionableCriticalIncidents, ⟨"mocop_host_incidents_actionable_critical",
    "Active critical incidents for the host excluding maintenance silence.", none, "gauge"⟩),
  (.host .latency, ⟨"mocop_host_probe_latency_seconds",
    "Duration of the most recent host probe attempt.", some "seconds", "gauge"⟩),
  (.host .transportRetried, ⟨"mocop_host_probe_transport_retried",
    "Whether the most recent probe retried a stale SSH transport.", none, "gauge"⟩),
  (.host .cpu, ⟨"mocop_host_cpu_utilization_ratio",
    "Current host CPU utilization as a ratio.", none, "gauge"⟩),
  (.host .load, ⟨"mocop_host_load1", "Current one-minute host load average.", none, "gauge"⟩),
  (.host .uptime, ⟨"mocop_host_uptime_seconds", "Current host uptime.", some "seconds", "gauge"⟩),
  (.host .memoryTotal, ⟨"mocop_host_memory_total_bytes",
    "Total host memory.", some "bytes", "gauge"⟩),
  (.host .memoryUsed, ⟨"mocop_host_memory_used_bytes",
    "Used host memory.", some "bytes", "gauge"⟩),
  (.host .swapTotal, ⟨"mocop_host_swap_total_bytes", "Total host swap.", some "bytes", "gauge"⟩),
  (.host .swapUsed, ⟨"mocop_host_swap_used_bytes", "Used host swap.", some "bytes", "gauge"⟩),
  (.host .diskTotal, ⟨"mocop_host_disk_total_bytes",
    "Total monitored filesystem capacity.", some "bytes", "gauge"⟩),
  (.host .diskUsed, ⟨"mocop_host_disk_used_bytes",
    "Used monitored filesystem capacity.", some "bytes", "gauge"⟩),
  (.host .networkRx, ⟨"mocop_host_network_receive_bytes_per_second",
    "Current aggregate network receive rate.", some "bytes_per_second", "gauge"⟩),
  (.host .networkTx, ⟨"mocop_host_network_transmit_bytes_per_second",
    "Current aggregate network transmit rate.", some "bytes_per_second", "gauge"⟩),
  (.host .diskRead, ⟨"mocop_host_disk_read_bytes_per_second",
    "Current aggregate disk read rate.", some "bytes_per_second", "gauge"⟩),
  (.host .diskWrite, ⟨"mocop_host_disk_write_bytes_per_second",
    "Current aggregate disk write rate.", some "bytes_per_second", "gauge"⟩),
  (.host .pressureSome, ⟨"mocop_host_pressure_some_ratio",
    "Share of the last 10 seconds with at least"
      ++ " one task stalled on the resource (kernel PSI some avg10).", none, "gauge"⟩),
  (.host .pressureFull, ⟨"mocop_host_pressure_full_ratio",
    "Share of the last 10 seconds with all"
      ++ " tasks stalled on the resource (kernel PSI full avg10).", none, "gauge"⟩)]

/-- `gpu_definitions` -/
def gpuDefinitions : List (Series × Heading) :=
  [(.gpu .info, ⟨"mocop_gpu_info", "Current GPU inventory metadata.", none, "gauge"⟩),
  (.gpu .utilization, ⟨"mocop_gpu_utilization_ratio",
    "Current GPU compute utilization as a ratio.", none, "gauge"⟩),
  (.gpu .memoryTotal, ⟨"mocop_gpu_memory_total_bytes",
    "Total GPU memory.", some "bytes", "gauge"⟩),
  (.gpu .memoryUsed, ⟨"mocop_gpu_memory_used_bytes", "Used GPU memory.", some "bytes", "gauge"⟩),
  (.gpu .memoryFree, ⟨"mocop_gpu_memory_free_bytes", "Free GPU memory.", some "bytes", "gauge"⟩),
  (.gpu .temperature, ⟨"mocop_gpu_temperature_celsius",
    "Current GPU temperature.", some "celsius", "gauge"⟩),
  (.gpu .powerDraw, ⟨"mocop_gpu_power_draw_watts",
    "Current GPU power draw.", some "watts", "gauge"⟩),
  (.gpu .powerLimit, ⟨"mocop_gpu_power_limit_watts",
    "Configured GPU power limit.", some "watts", "gauge"⟩),
  (.gpu .processes, ⟨"mocop_gpu_processes",
    "Current visible GPU compute processes.", none, "gauge"⟩),
  (.gpu .processesAvailable, ⟨"mocop_gpu_process_telemetry_available",
    "Whether GPU process telemetry is available.", none, "gauge"⟩),
  (.gpu .processesSampled, ⟨"mocop_gpu_process_telemetry_sampled",
    "Whether the latest GPU sample attempted process telemetry.", none, "gauge"⟩),
  (.gpu .processesObservedAt, ⟨"mocop_gpu_process_sample_timestamp_seconds",
    "Unix timestamp of the latest successful GPU process sample.", some "seconds", "gauge"⟩),
  (.gpu .ecc, ⟨"mocop_gpu_ecc_uncorrected",
    "Current volatile uncorrected GPU ECC errors.", none, "gauge"⟩),
  (.gpu .retiredPages, ⟨"mocop_gpu_retired_pages_pending",
    "Whether GPU page retirement is pending.", none, "gauge"⟩),
  (.gpu .remappedRows, ⟨"mocop_gpu_remapped_rows_pending",
    "Whether GPU row remapping is pending.", none, "gauge"⟩),
  (.gpu .thermalSlowdown, ⟨"mocop_gpu_thermal_slowdown",
    "Whether GPU thermal slowdown is active.", none, "gauge"⟩),
  (.gpu .powerBrake, ⟨"mocop_gpu_power_brake_slowdown",
    "Whether GPU power-brake slowdown is active.", none, "gauge"⟩)]

section
variable (timestamp : String → Option Double) (repr : PyValue → String)

/-- `epoch_seconds` as the value of a sample. -/
def epochSeconds : PyValue → Value
  | .str value =>
    .ok ((timestamp (value.replace "Z" "+00:00")).map fun seconds => .float (.finite seconds))
  | _ => .ok none

/-! ### The families of the monitor and the cluster -/

/-- Whether a submission batch completed without an error of the collector. -/
def collectionReady (snapshot : PyDict) : Bool :=
  !(get snapshot "lastPollCompletedAt").isNone
    && (get snapshot "collectorError").isNone

/-- The families of the monitor. -/
def monitorReadings (snapshot : PyDict) : List (Reading Heading) :=
  let version := get snapshot "appVersion"
  [⟨⟨"mocop_build_info", "Mocop build information.", none, "gauge"⟩,
      [("version", version.toStr repr)], .ok (if version.isNone then none else some (.int 1))⟩,
    ⟨⟨"mocop_collection_ready",
        "Whether at least one scheduler submission batch completed without a collector error.",
        none, "gauge"⟩, [], flagValue (collectionReady snapshot)⟩,
    ⟨⟨"mocop_collection_poll_interval_seconds", "Configured global collection cadence.",
        some "seconds", "gauge"⟩, [],
      floatValue (metric (get snapshot "pollIntervalSeconds"))⟩,
    ⟨⟨"mocop_collection_duration_seconds",
        "Duration of the most recently completed scheduler submission batch.",
        some "seconds", "gauge"⟩, [],
      floatValue (secondsFromMilliseconds (get snapshot "lastPollDurationMs"))⟩,
    ⟨⟨"mocop_collection_last_completed_timestamp_seconds",
        "Unix timestamp of the most recently completed scheduler submission batch.",
        some "seconds", "gauge"⟩, [],
      epochSeconds timestamp (get snapshot "lastPollCompletedAt")⟩,
    ⟨⟨"mocop_snapshot_generated_timestamp_seconds",
        "Unix timestamp when this Mocop snapshot was generated.",
        some "seconds", "gauge"⟩, [],
      epochSeconds timestamp (get snapshot "generatedAt")⟩]

/-- The two families of a component. -/
def componentReadings (snapshot : PyDict) (key name label : String) : List (Reading Heading) :=
  let component := (get snapshot key).mapping
  [⟨⟨name ++ "_enabled", "Whether Mocop's " ++ label ++ " is enabled.", none, "gauge"⟩, [],
      flagValue (get component "enabled").isTrue⟩,
    ⟨⟨name ++ "_healthy", "Whether Mocop's " ++ label ++ " is healthy.", none, "gauge"⟩, [],
      flagValue (get component "healthy").isTrue⟩]

/-- The families of the queues. -/
def queueReadings (snapshot : PyDict) : List (Reading Heading) :=
  let persistence := (get snapshot "persistence").mapping
  let notifications := (get snapshot "notifications").mapping
  [⟨⟨"mocop_persistence_queued_writes", "History records waiting for persistence.", none,
        "gauge"⟩, [], floatValue (metric (get persistence "queuedWrites"))⟩,
    ⟨⟨"mocop_persistence_dropped_writes", "History records dropped since process start.", none,
        "counter"⟩, [], floatValue (metric (get persistence "droppedWrites"))⟩,
    ⟨⟨"mocop_notifications_queued_deliveries", "Webhook events waiting for delivery.", none,
        "gauge"⟩, [], floatValue (metric (get notifications "queuedDeliveries"))⟩,
    ⟨⟨"mocop_notifications_dropped_deliveries", "Webhook events dropped since process start.",
        none, "counter"⟩, [],
      floatValue (metric (get notifications "droppedDeliveries"))⟩]

/-- The families of the cluster. -/
def clusterReadings (snapshot : PyDict) : List (Reading Heading) :=
  let stats := (get snapshot "stats").mapping
  (clusterFamilies.map fun (name, help, key) =>
    ⟨⟨name, help, none, "gauge"⟩, [], floatValue (metric (get stats key))⟩)
  ++ [⟨⟨"mocop_cluster_gpu_memory_total_bytes", "Total VRAM on online GPUs.", some "bytes",
        "gauge"⟩, [], floatValue (mibAsBytes (get stats "memoryTotalMiB"))⟩,
    ⟨⟨"mocop_cluster_gpu_memory_used_bytes", "Used VRAM on online GPUs.", some "bytes",
        "gauge"⟩, [], floatValue (mibAsBytes (get stats "memoryUsedMiB"))⟩]

/-- The families with at most one sample, in the order of the exposition. -/
def singleReadings (snapshot : PyDict) : List (Reading Heading) :=
  monitorReadings timestamp repr snapshot
  ++ componentReadings snapshot "persistence" "mocop_persistence" "history persistence subsystem"
  ++ componentReadings snapshot "notifications" "mocop_notifications"
      "notification delivery subsystem"
  ++ queueReadings snapshot ++ clusterReadings snapshot

/-- A family of at most one sample. -/
def singleFamily (reading : Reading Heading) : Except Raised Family := do
  let value ← reading.value
  return ⟨reading.key, value.toList.map (Sample.mk reading.labels)⟩

/-! ### The samples of hosts and devices -/

/-- The servers of a snapshot. -/
def serversOf (snapshot : PyDict) : List PyValue := (get snapshot "servers").items

/-- A server with its host, if it has one. -/
def namedServer : PyValue → Option (String × PyDict)
  | .dict server =>
    match get server "host" with
    | .str host => some (host, server)
    | _ => none
  | _ => none

/-- The servers that the loop over the servers does not skip. -/
def namedServers (snapshot : PyDict) : List (String × PyDict) :=
  (serversOf snapshot).filterMap namedServer

/-- A device with its index and its uuid, if it has both. -/
def namedGpu : PyValue → Option ((ℤ × String) × PyDict)
  | .dict gpu =>
    match get gpu "index", get gpu "uuid" with
    | .int index, .str uuid => some ((index, uuid), gpu)
    | _, _ => none
  | _ => none

/-- The devices of a server that the loop over the devices does not skip. -/
def namedGpus (server : PyDict) : List ((ℤ × String) × PyDict) :=
  (get server "gpus").items.filterMap namedGpu

/-- The samples that every host has. -/
def hostReadings (host : String) (server : PyDict) : List (Reading Series) :=
  let labels := [("host", host)]
  let group := match get server "group" with
    | .str group => group
    | _ => ""
  let incidents := (get server "incidents").mapping
  let online := match get server "status" with
    | .str status => status == "online"
    | _ => false
  [⟨.host .info, [("host", host), ("mocop_group", group)], flagValue true⟩,
    ⟨.host .up, labels, flagValue online⟩,
    ⟨.host .stale, labels, flagValue (get server "stale").truthy⟩,
    ⟨.host .maintenance, labels, flagValue !(get server "maintenance").isNone⟩,
    ⟨.host .polling, labels, flagValue (get server "polling").truthy⟩,
    ⟨.host .failures, labels, floatValue (metric (get server "consecutiveFailures"))⟩,
    ⟨.host .incidents, labels, floatValue (metric (get incidents "active"))⟩,
    ⟨.host .criticalIncidents, labels, floatValue (metric (get incidents "critical"))⟩,
    ⟨.host .actionableIncidents, labels, floatValue (metric (get incidents "actionable"))⟩,
    ⟨.host .actionableCriticalIncidents, labels,
      floatValue (metric (get incidents "actionableCritical"))⟩,
    ⟨.host .latency, labels,
      floatValue (secondsFromMilliseconds (get server "latencyMs"))⟩,
    ⟨.host .transportRetried, labels,
      flagValue (get server "transportRetried").truthy⟩]

/-- Whether the samples of a server are current. -/
def isCurrent (server : PyDict) : Bool :=
  let online := match get server "status" with
    | .str status => status == "online"
    | _ => false
  online && !(get server "stale").truthy

/-- The samples of a system. -/
def systemReadings (host : String) (system : PyDict) : List (Reading Series) :=
  let labels := [("host", host)]
  [⟨.host .cpu, labels, floatValue (percentageAsRatio (get system "cpu_usage_pct"))⟩,
    ⟨.host .load, labels, floatValue (metric (get system "load_1m"))⟩,
    ⟨.host .uptime, labels, floatValue (metric (get system "uptime_seconds"))⟩,
    ⟨.host .memoryTotal, labels, floatValue (mibAsBytes (get system "memory_total_mib"))⟩,
    ⟨.host .memoryUsed, labels, floatValue (mibAsBytes (get system "memory_used_mib"))⟩,
    ⟨.host .swapTotal, labels, floatValue (mibAsBytes (get system "swap_total_mib"))⟩,
    ⟨.host .swapUsed, labels, floatValue (mibAsBytes (get system "swap_used_mib"))⟩,
    ⟨.host .diskTotal, labels, floatValue (mibAsBytes (get system "disk_total_mib"))⟩,
    ⟨.host .diskUsed, labels, floatValue (mibAsBytes (get system "disk_used_mib"))⟩,
    ⟨.host .networkRx, labels, floatValue (metric (get system "network_rx_bps"))⟩,
    ⟨.host .networkTx, labels, floatValue (metric (get system "network_tx_bps"))⟩,
    ⟨.host .diskRead, labels, floatValue (metric (get system "disk_read_bps"))⟩,
    ⟨.host .diskWrite, labels, floatValue (metric (get system "disk_write_bps"))⟩]

/-- The samples of a resource under pressure. -/
def pressureReadings (host : String) (pressure : PyDict) (resource : String) :
    List (Reading Series) :=
  match get pressure resource with
  | .dict sample =>
    let labels := [("host", host), ("resource", resource)]
    [⟨.host .pressureSome, labels,
        floatValue (percentageAsRatio (get sample "some_avg10"))⟩,
      ⟨.host .pressureFull, labels,
        floatValue (percentageAsRatio (get sample "full_avg10"))⟩]
  | _ => []

/-- The labels of a device. -/
def gpuLabels (host : String) (index : ℤ) (uuid : String) : Labels :=
  [("host", host), ("index", String.ofList (intText index)), ("uuid", uuid)]

/-- The visible processes of a device, if they are available. -/
def processCount (gpu : PyDict) : Value :=
  match get gpu "processes" with
  | .list processes =>
    .ok (if (get gpu "processes_available").isTrue then some (.int processes.length)
      else none)
  | _ => .ok none

/-- The samples of a device. -/
def gpuReadings (host : String) (index : ℤ) (uuid : String) (gpu : PyDict) :
    List (Reading Series) :=
  let labels := gpuLabels host index uuid
  let health := (get gpu "health").mapping
  [⟨.gpu .info, labels
      ++ [("model", ((get gpu "name").orElse (.str "")).toStr repr),
        ("driver", ((get gpu "driver_version").orElse (.str "")).toStr repr),
        ("mig_mode", ((get health "mig_mode").orElse (.str "unknown")).toStr repr)],
      flagValue true⟩,
    ⟨.gpu .utilization, labels,
      floatValue (percentageAsRatio (get gpu "utilization_gpu_pct"))⟩,
    ⟨.gpu .memoryTotal, labels, floatValue (mibAsBytes (get gpu "memory_total_mib"))⟩,
    ⟨.gpu .memoryUsed, labels, floatValue (mibAsBytes (get gpu "memory_used_mib"))⟩,
    ⟨.gpu .memoryFree, labels, floatValue (mibAsBytes (get gpu "memory_free_mib"))⟩,
    ⟨.gpu .temperature, labels, floatValue (metric (get gpu "temperature_c"))⟩,
    ⟨.gpu .powerDraw, labels, floatValue (metric (get gpu "power_draw_w"))⟩,
    ⟨.gpu .powerLimit, labels, floatValue (metric (get gpu "power_limit_w"))⟩,
    ⟨.gpu .processes, labels, processCount gpu⟩,
    ⟨.gpu .processesAvailable, labels,
      flagValue (get gpu "processes_available").isTrue⟩,
    ⟨.gpu .processesSampled, labels, flagValue (get gpu "processes_sampled").isTrue⟩,
    ⟨.gpu .processesObservedAt, labels,
      epochSeconds timestamp (get gpu "processes_observed_at")⟩,
    ⟨.gpu .ecc, labels, floatValue (metric (get health "ecc_uncorrected_volatile"))⟩,
    ⟨.gpu .retiredPages, labels, boolValue (get health "retired_pages_pending")⟩,
    ⟨.gpu .remappedRows, labels, boolValue (get health "remapped_rows_pending")⟩,
    ⟨.gpu .thermalSlowdown, labels, boolValue (get health "thermal_slowdown")⟩,
    ⟨.gpu .powerBrake, labels, boolValue (get health "power_brake_slowdown")⟩]

/-- The samples of the system of a current server. -/
def currentReadings (host : String) (server : PyDict) : List (Reading Series) :=
  match get server "system" with
  | .dict system =>
    systemReadings host system
      ++ match get system "pressure" with
        | .dict pressure => ["cpu", "memory", "io"].flatMap (pressureReadings host pressure)
        | _ => []
  | _ => []

/-- The samples of a server: those of the host, and of what is current. -/
def serverReadings (host : String) (server : PyDict) : List (Reading Series) :=
  hostReadings host server
    ++ if isCurrent server then
        currentReadings host server
          ++ (namedGpus server).flatMap fun entry =>
            gpuReadings timestamp repr host entry.1.1 entry.1.2 entry.2
      else []

/-- The samples of all servers. -/
def snapshotReadings (snapshot : PyDict) : List (Reading Series) :=
  (namedServers snapshot).flatMap fun entry => serverReadings timestamp repr entry.1 entry.2

/-! ### The exposition -/

/-- The family of a series. -/
def seriesFamily (samples : List (Series × Sample)) (definition : Series × Heading) : Family :=
  ⟨definition.2, (samples.filter fun entry => entry.1 = definition.1).map Prod.snd⟩

/-- The families of a snapshot, in the order of the exposition. -/
def collectFamilies (snapshot : PyDict) : Except Raised (List Family) := do
  let single ← (singleReadings timestamp repr snapshot).mapM singleFamily
  let samples ← collect (snapshotReadings timestamp repr snapshot)
  return single ++ (hostDefinitions ++ gpuDefinitions).map (seriesFamily samples)

/-- The count of devices. -/
def gpuCount (snapshot : PyDict) : ℕ :=
  ((serversOf snapshot).map fun server => (get server.mapping "gpus").items.length).sum

/-- The estimate of the series of a snapshot. -/
def estimatedSeries (snapshot : PyDict) : ℕ :=
  80 + (serversOf snapshot).length * 40 + gpuCount snapshot * 20

/-- `render_openmetrics` -/
def renderOpenmetrics (snapshot : PyDict) : Except Raised String := do
  if maxSeries < estimatedSeries snapshot then throw (.limit (estimatedSeries snapshot))
  let families ← collectFamilies timestamp repr snapshot
  let lines ← families.mapM familyLines
  return String.intercalate "\n" (lines.flatten ++ ["# EOF"]) ++ "\n"

end

end Mocop.OpenMetrics
