import Mocop.Probe.Rows

/-!
# `Mocop.Probe.Payload`: parsing a resource payload

`_parse_resource_payload` reads the payload line by line into a `Scan` and then builds the
sample from it. The lines of the five sections are collected by `scanLine`; outside a section
a line is a `PSI` row or sets a value. The flags `in_gpus`, `in_disks` and so on are one
optional `Section`, since a section begins only outside every other.

The auxiliary parts (the GPUs, their processes, workloads and health) are parsed after the
system sample, each in a `try` of its own. The look at the first GPU row, which tells the
combined query from the base query, is not in one.
-/

set_option autoImplicit false

namespace Mocop.Probe

variable (convert : Conversions) (dialect : Csv.Dialect)

/-! ### Lines -/

/-- The sections of a payload. -/
inductive Section where
  | gpus
  | disks
  | processes
  | workloads
  | gpuHealth
  deriving DecidableEq, Repr

/-- The name of a section in an error. -/
def Section.label : Section → String
  | .gpus => "GPU"
  | .disks => "disk"
  | .processes => "process"
  | .workloads => "workload"
  | .gpuHealth => "GPU health"

/-- The lines that begin and end a section. -/
inductive Marker where
  | begins (target : Section)
  | ends (target : Section)
  deriving DecidableEq, Repr

/-- The marker that a line is. -/
def marker : String → Option Marker
  | "GPUS_BEGIN" => some (.begins .gpus)
  | "GPUS_END" => some (.ends .gpus)
  | "DISKS_BEGIN" => some (.begins .disks)
  | "DISKS_END" => some (.ends .disks)
  | "PROCESSES_BEGIN" => some (.begins .processes)
  | "PROCESSES_END" => some (.ends .processes)
  | "WORKLOADS_BEGIN" => some (.begins .workloads)
  | "WORKLOADS_END" => some (.ends .workloads)
  | "GPU_HEALTH_BEGIN" => some (.begins .gpuHealth)
  | "GPU_HEALTH_END" => some (.ends .gpuHealth)
  | _ => none

/-- The markers of a complete payload. -/
def expectedMarkers : List Marker :=
  [.begins .disks, .ends .disks, .begins .gpus, .ends .gpus, .begins .processes,
    .ends .processes, .begins .workloads, .ends .workloads, .begins .gpuHealth, .ends .gpuHealth]

/-- A line of the GPU section that is the state of the query instead of a row. -/
def gpuStatus (line : String) : Option String :=
  if line = "GPU_UNAVAILABLE" then some "nvidia-smi is unavailable"
  else if "GPU_ERROR\t".toList.isPrefixOf line.toList then some "nvidia-smi query failed"
  else none

/-- The outcome of a process query that returned no rows. -/
inductive ProcessStatus where
  | skipped
  | error
  deriving DecidableEq, Repr

/-- A line of the process section that is the state of the query instead of a row. -/
def processStatus (line : String) : Option ProcessStatus :=
  if line = "PROCESS_SKIPPED" then some .skipped
  else if "PROCESS_ERROR\t".toList.isPrefixOf line.toList then some .error
  else none

/-- What the lines so far say. -/
structure Scan where
  values : Dict String (List String) := ∅
  disks : List DiskMetrics := []
  psiRows : List (List String) := []
  gpuLines : List String := []
  processLines : List String := []
  healthLines : List String := []
  workloadLines : List String := []
  gpuMessage : Option String := none
  processesAvailable : Bool := true
  processesSampled : Bool := true
  processStatusMarker : Option ProcessStatus := none
  healthAvailable : Bool := true
  inside : Option Section := none
  sectionMarkers : List Marker := []

def maxDisksPerHost : ℕ := 1024

/-- The single-file mounts of container runtimes. -/
def containerFileBindMounts : List String := ["/etc/hosts", "/etc/hostname", "/etc/resolv.conf"]

/-- A section begins or ends. -/
def Scan.mark (scan : Scan) (line : Marker) : Except String Scan :=
  match line with
  | .begins target =>
    if scan.inside ≠ none ∨ line ∈ scan.sectionMarkers then
      .error ("resource payload has an invalid " ++ target.label ++ " section")
    else .ok { scan with sectionMarkers := line :: scan.sectionMarkers, inside := some target }
  | .ends target =>
    if scan.inside ≠ some target ∨ line ∈ scan.sectionMarkers then
      .error ("resource payload has an invalid " ++ target.label ++ " section")
    else .ok { scan with sectionMarkers := line :: scan.sectionMarkers, inside := none }

/-- A line of the GPU section. -/
def Scan.gpuLine (scan : Scan) (line : String) : Scan :=
  match gpuStatus line with
  | some message => { scan with gpuMessage := some message }
  | none => if isBlank line then scan else { scan with gpuLines := scan.gpuLines ++ [line] }

/-- A line of the process section. -/
def Scan.processLine (scan : Scan) (line : String) : Except String Scan :=
  match processStatus line with
  | some status =>
    if scan.processStatusMarker ≠ none ∨ scan.processLines ≠ [] then
      .error "resource payload has conflicting process telemetry"
    else .ok { scan with
      processStatusMarker := some status
      processesSampled := if status = .skipped then false else scan.processesSampled
      processesAvailable := if status = .error then false else scan.processesAvailable }
  | none =>
    if isBlank line then .ok scan
    else if scan.processStatusMarker ≠ none then
      .error "resource payload has conflicting process telemetry"
    else .ok { scan with processLines := scan.processLines ++ [line] }

/-- A line of the health section. -/
def Scan.healthLine (scan : Scan) (line : String) : Scan :=
  if "GPU_HEALTH_ERROR\t".toList.isPrefixOf line.toList then
    { scan with healthAvailable := false, healthLines := [] }
  else if isBlank line = false ∧ scan.healthAvailable then
    { scan with healthLines := scan.healthLines ++ [line] }
  else scan

/-- A line of the workload section. -/
def Scan.workloadLine (scan : Scan) (line : String) : Scan :=
  if isBlank line then scan else { scan with workloadLines := scan.workloadLines ++ [line] }

/-- The disk of a row, unless a number of it is malformed. -/
def diskOfRow (parts : List String) : Except String DiskMetrics := do
  let part := fun k => parts.getD k ""
  let total ← requiredNumber convert (part 3) "disk total"
  let used ← requiredNumber convert (part 4) "disk used"
  let available ← requiredNumber convert (part 5) "disk available"
  let usedPct ← requiredNumber convert (part 6) "disk usage"
  return {
    device := String.ofList ((part 1).toList.take 255)
    filesystemType := String.ofList ((part 2).toList.take 64)
    mountpoint := String.ofList ((part 7).toList.take 512)
    totalMib := roundDigits (total / 1024) 1
    usedMib := roundDigits (used / 1024) 1
    availableMib := roundDigits (available / 1024) 1
    usedPct := min 100 usedPct }

/-- A line of the disk section. -/
def Scan.diskLine (scan : Scan) (line : String) : Except String Scan :=
  let parts := splitAt '\t' line
  if parts.getD 0 "" = "DISK" ∧ parts.length = 8 then
    if maxDisksPerHost ≤ scan.disks.length then
      .error "resource payload has too many disk records"
    else if parts.getD 7 "" ∈ containerFileBindMounts then .ok scan
    else match diskOfRow convert parts with
      | .ok disk => .ok { scan with disks := scan.disks ++ [disk] }
      | .error _ => .ok scan
  else .ok scan

/-- A line outside the sections. -/
def Scan.valueLine (scan : Scan) (line : String) : Scan :=
  let parts := splitAt '\t' line
  if parts.getD 0 "" = "PSI" then
    if parts.length ≠ 6 then scan else { scan with psiRows := scan.psiRows ++ [parts] }
  else if 2 ≤ parts.length then
    { scan with values := scan.values.set (parts.getD 0 "") (parts.drop 1) }
  else scan

/-- One line of the payload. -/
def scanLine (scan : Scan) (line : String) : Except String Scan :=
  match marker line with
  | some mark => scan.mark mark
  | none =>
    match scan.inside with
    | some .gpus => .ok (scan.gpuLine line)
    | some .processes => scan.processLine line
    | some .gpuHealth => .ok (scan.healthLine line)
    | some .workloads => .ok (scan.workloadLine line)
    | some .disks => scan.diskLine convert line
    | none => .ok (scan.valueLine line)

/-! ### The system sample -/

/-- The system part of a payload. -/
structure RawSystemSample where
  hostname : String
  cpuTotalTicks : ℚ
  cpuIdleTicks : ℚ
  cpuCores : ℕ
  memoryTotalKib : ℚ
  memoryAvailableKib : ℚ
  swapTotalKib : ℚ
  swapFreeKib : ℚ
  load1m : ℚ
  load5m : ℚ
  load15m : ℚ
  uptimeSeconds : ℚ
  networkRxBytes : ℚ
  networkTxBytes : ℚ
  diskReadBytes : ℚ
  diskWriteBytes : ℚ
  disks : List DiskMetrics
  pressure : Option PressureStallMetrics
  deriving DecidableEq

/-- One pressure average. -/
def psiPercentage (value label : String) (required : Bool) : Except String (Option ℚ) :=
  let text := pyStrip value
  if text = "" then
    if required then .error ("resource payload has an invalid " ++ label) else .ok none
  else match convert.float text with
    | some average =>
      if 0 ≤ average ∧ average ≤ 100 then .ok (some average)
      else .error ("resource payload has an invalid " ++ label)
    | none => .error ("resource payload has an invalid " ++ label)

/-- The pressure of one resource, once per resource. -/
def addPsiRow (samples : Dict String PressureStallSample) (row : List String) :
    Except String (Dict String PressureStallSample) := do
  let part := fun k => row.getD k ""
  let resource := pyStrip (part 1)
  if resource ∉ ["cpu", "memory", "io"] ∨ samples.contains resource then
    throw "resource payload has an invalid pressure record"
  let someAvg10 ← psiPercentage convert (part 2) "pressure average" true
  let someAvg60 ← psiPercentage convert (part 3) "pressure average" true
  let fullAvg10 ← psiPercentage convert (part 4) "pressure average" false
  let fullAvg60 ← psiPercentage convert (part 5) "pressure average" false
  return samples.set resource
    { someAvg10 := someAvg10.getD 0, someAvg60 := someAvg60.getD 0, fullAvg10, fullAvg60 }

/-- The pressure of the host, when there are rows. -/
def parsePsiRecords (rows : List (List String)) : Except String (Option PressureStallMetrics) :=
  if rows = [] then .ok none
  else do
    let samples ← rows.foldlM (addPsiRow convert) ∅
    return some { cpu := samples.get? "cpu", memory := samples.get? "memory",
                  io := samples.get? "io" }

/-- The values that a payload must have, in the order of an error's list. -/
def requiredValues : List String := ["CORES", "CPU", "HOST", "IO", "LOAD", "MEM", "NET", "UPTIME"]

/-- The system sample of the lines. -/
def systemSample (scan : Scan) : Except String RawSystemSample := do
  let missing := requiredValues.filter fun key => !scan.values.contains key
  if missing ≠ [] then
    throw ("resource payload is missing: " ++ ", ".intercalate missing)
  let fields := fun key => scan.values.getD key []
  let field := fun key k => (fields key).getD k ""
  if (fields "CPU").length ≠ 2 ∨ (fields "MEM").length ≠ 4 then
    throw "resource payload has invalid CPU or memory fields"
  if (fields "LOAD").length ≠ 3 ∨ (fields "NET").length ≠ 2 ∨ (fields "IO").length ≠ 2 then
    throw "resource payload has invalid load, network or disk I/O fields"
  let cores ← requiredNumber convert (field "CORES" 0) "CPU core count" 1
  if isInteger cores = false ∨ 65536 < cores then
    throw "resource payload has invalid CPU core count"
  let pressure := match parsePsiRecords convert scan.psiRows with
    | .ok pressure => pressure
    | .error _ => none
  let hostname := String.ofList ((pyStrip (field "HOST" 0)).toList.take 255)
  let cpuTotalTicks ← requiredNumber convert (field "CPU" 0) "CPU total ticks" 1
  let cpuIdleTicks ← requiredNumber convert (field "CPU" 1) "CPU idle ticks"
  let memoryTotalKib ← requiredNumber convert (field "MEM" 0) "memory total" 1
  let memoryAvailableKib ← requiredNumber convert (field "MEM" 1) "memory available"
  let swapTotalKib ← requiredNumber convert (field "MEM" 2) "swap total"
  let swapFreeKib ← requiredNumber convert (field "MEM" 3) "swap free"
  let load1m ← requiredNumber convert (field "LOAD" 0) "load 1m"
  let load5m ← requiredNumber convert (field "LOAD" 1) "load 5m"
  let load15m ← requiredNumber convert (field "LOAD" 2) "load 15m"
  let uptimeSeconds ← requiredNumber convert (field "UPTIME" 0) "uptime"
  let networkRxBytes ← requiredNumber convert (field "NET" 0) "network RX bytes"
  let networkTxBytes ← requiredNumber convert (field "NET" 1) "network TX bytes"
  let diskReadBytes ← requiredNumber convert (field "IO" 0) "disk read bytes"
  let diskWriteBytes ← requiredNumber convert (field "IO" 1) "disk write bytes"
  return {
    hostname := if hostname = "" then "unknown" else hostname
    cpuTotalTicks, cpuIdleTicks, cpuCores := cores.num.toNat
    memoryTotalKib, memoryAvailableKib, swapTotalKib, swapFreeKib
    load1m, load5m, load15m, uptimeSeconds
    networkRxBytes, networkTxBytes, diskReadBytes, diskWriteBytes
    disks := scan.disks, pressure }

/-! ### The whole payload -/

/-- What a payload says. -/
structure ParsedResource where
  system : RawSystemSample
  gpus : List GpuMetrics
  gpuMessage : Option String
  processesAvailable : Bool
  processesSampled : Bool
  deriving DecidableEq

/-- The first row with a filled cell, which decides the query that the GPU rows come from. -/
def firstGpuRow (payload : String) : Except String (Option (List String)) :=
  let read := Csv.rows dialect payload
  match read.1.find? (fun row => !blankRow row) with
  | some row => .ok (some row)
  | none =>
    match read.2 with
    | none => .ok none
    | some failure => .error (unparseableCsv dialect failure)

/-- The sections are complete and agree with each other. -/
def checkSections (scan : Scan) : Except String Unit :=
  if (∃ mark ∈ expectedMarkers, mark ∉ scan.sectionMarkers) ∨ scan.inside ≠ none then
    .error "resource payload has incomplete metric sections"
  else if scan.gpuMessage ≠ none ∧ scan.gpuLines ≠ [] then
    .error "resource payload has conflicting GPU status"
  else if scan.processesSampled = false ∧ scan.workloadLines ≠ [] then
    .error "resource payload has workload data without a process sample"
  else .ok ()

/-- The GPU rows: the GPUs, their inline health and the message. A malformed row degrades all
of them. -/
def gpuSection (scan : Scan) (payload : String) (first : Option (List String)) :
    List GpuMetrics × Dict String GpuHealthMetrics × Option String :=
  let parsed :=
    if first.any (fun row => row.length == combinedQueryFieldCount) then
      parseNvidiaCombinedCsv convert dialect payload
    else (fun gpus => (gpus, ∅)) <$> parseNvidiaSmiCsv convert dialect payload
  match parsed with
  | .ok (gpus, inlineHealth) => (gpus, inlineHealth, scan.gpuMessage)
  | .error _ => ([], ∅, some "nvidia-smi output was malformed")

/-- The process rows, and whether they are available. -/
def processSection (scan : Scan) : Dict String (List GpuProcess) × Bool :=
  if scan.processesSampled ∧ scan.processesAvailable then
    match parseNvidiaProcessesCsv convert dialect (joinWith '\n' scan.processLines) with
    | .ok processes => (processes, true)
    | .error _ => (∅, false)
  else (∅, scan.processesAvailable)

/-- The workload records, none when one of them is malformed. -/
def workloadSection (scan : Scan) : Dict ℕ WorkloadMetadata :=
  match parseWorkloadRecords convert (joinWith '\n' scan.workloadLines) with
  | .ok workloads => workloads
  | .error _ => ∅

/-- The health records: those of the GPU rows, or of their own section. -/
def healthSection (scan : Scan) (inlineHealth : Dict String GpuHealthMetrics) :
    Dict String GpuHealthMetrics :=
  if scan.healthAvailable ∧ inlineHealth.entries = [] then
    match parseNvidiaHealthCsv convert dialect (joinWith '\n' scan.healthLines) with
    | .ok health => health
    | .error _ => ∅
  else inlineHealth

/-- The processes of one GPU. A UUID that is missing or shared names no GPU. -/
def processesFor (gpus : List GpuMetrics) (processes : Dict String (List GpuProcess))
    (workloads : Dict ℕ WorkloadMetadata) (uuid : String) : List GpuProcess :=
  if uuid = "" ∨ normalize uuid ∈ unavailable ∨ gpus.countP (fun gpu => gpu.uuid == uuid) ≠ 1 then
    []
  else (processes.getD uuid []).map fun process =>
    { process with workload := workloads.get? process.pid }

/-- The sample that the lines make. -/
def finishScan (scan : Scan) : Except String ParsedResource := do
  checkSections scan
  let system ← systemSample convert scan
  let gpuPayload := joinWith '\n' scan.gpuLines
  let first ← firstGpuRow dialect gpuPayload
  let (gpus, inlineHealth, gpuMessage) := gpuSection convert dialect scan gpuPayload first
  let (processes, processesAvailable) := processSection convert dialect scan
  let workloads := workloadSection convert scan
  if inlineHealth.entries ≠ [] ∧ scan.healthLines ≠ [] then
    throw "resource payload has conflicting GPU health records"
  let health := healthSection convert dialect scan inlineHealth
  return {
    system
    gpus := gpus.map fun gpu => { gpu with
      processes := processesFor gpus processes workloads gpu.uuid
      processesAvailable
      processesSampled := scan.processesSampled
      health := health.get? gpu.uuid }
    gpuMessage
    processesAvailable
    processesSampled := scan.processesSampled }

/-- The lines of a payload, after the one with the protocol version. -/
def parseLines (lines : List String) : Except String ParsedResource :=
  match lines with
  | [] => .error "resource payload has an unknown protocol version"
  | version :: rest =>
    if pyStrip version ≠ "MONITOR_V8" then
      .error "resource payload has an unknown protocol version"
    else rest.foldlM (scanLine convert) {} >>= finishScan convert dialect

/-- `_parse_resource_payload`. -/
def parseResourcePayload (payload : String) : Except String ParsedResource :=
  parseLines convert dialect (splitAt '\n' payload)

end Mocop.Probe
