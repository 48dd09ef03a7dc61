import Mocop.Lib.Csv
import Mocop.Lib.Dict
import Mocop.Lib.Text
import Mocop.Models

/-!
# `Mocop.Probe.Rows`: the rows of a resource payload

The parsers of `probe.py` and `workloads.py` for single rows and for whole sections. Every
error here is a `ValueError`, given by its text: `_csv_rows` turns the errors of the CSV
reader into one. The records hold every field of the payload, also those that no other module
reads; `Mocop.Models` has the rest.

`Conversions` holds the conversions of the standard library: `float` and `int` on a text, and
the timestamp of an epoch second.
-/

set_option autoImplicit false

namespace Mocop.Probe

/-! ### Records -/

/-- The hardware-health block of one GPU. -/
structure GpuHealthMetrics where
  eccUncorrectedVolatile : Option ℕ
  retiredPagesPending : Option Bool
  remappedRowsPending : Option Bool
  thermalSlowdown : Option Bool
  powerBrakeSlowdown : Option Bool
  migMode : Option String
  deriving DecidableEq

/-- The metrics of one GPU. -/
structure GpuMetrics where
  index : ℕ
  uuid : String
  name : String
  driverVersion : String
  pstate : Option String
  temperatureC : Option ℚ
  utilizationGpuPct : Option ℚ
  utilizationMemoryPct : Option ℚ
  memoryTotalMib : Option ℚ
  memoryUsedMib : Option ℚ
  memoryFreeMib : Option ℚ
  powerDrawW : Option ℚ
  powerLimitW : Option ℚ
  processes : List GpuProcess := []
  processesAvailable : Bool := true
  processesSampled : Bool := true
  processesObservedAt : Option String := none
  health : Option GpuHealthMetrics := none
  deriving DecidableEq

/-- One resource of `/proc/pressure`. -/
structure PressureStallSample where
  someAvg10 : ℚ
  someAvg60 : ℚ
  fullAvg10 : Option ℚ
  fullAvg60 : Option ℚ
  deriving DecidableEq

/-- The pressure of one host. -/
structure PressureStallMetrics where
  cpu : Option PressureStallSample
  memory : Option PressureStallSample
  io : Option PressureStallSample
  deriving DecidableEq

/-- One mounted filesystem. -/
structure DiskMetrics where
  device : String
  filesystemType : String
  mountpoint : String
  totalMib : ℚ
  usedMib : ℚ
  availableMib : ℚ
  usedPct : ℚ
  deriving DecidableEq

/-! ### Numbers and texts -/

/-- The conversions of the standard library. -/
structure Conversions where
  /-- `float(text)`, for a text that reads as a finite number. -/
  float : String → Option ℚ
  /-- `int(text)`, for a text of digits that reads as a number. -/
  int : String → Option ℕ
  /-- The timestamp of an epoch second, with `Z` for UTC. -/
  isoformat : ℕ → String

variable (convert : Conversions)

/-- What the collector writes for a missing value, in lower case. -/
def unavailable : List String := ["", "n/a", "[n/a]", "not supported", "[not supported]"]

/-- `value.strip().lower()`. -/
def normalize (value : String) : String := (pyStrip value).toLower

/-- `bool(text.strip())` is false. -/
def isBlank (text : String) : Bool := pyStrip text == ""

/-- Whether a float is a whole number. -/
def isInteger (value : ℚ) : Bool := value.den == 1

/-- The number of a text. -/
def number (value : String) : Option ℚ :=
  if normalize value ∈ unavailable then none else convert.float (normalize value)

/-- A number that must be there. -/
def requiredNumber (value label : String) (minimum : ℚ := 0) : Except String ℚ :=
  match number convert value with
  | some result => if result < minimum then .error ("invalid " ++ label) else .ok result
  | none => .error ("invalid " ++ label)

/-- A number that may be missing, within its range. -/
def optionalNumber (value label : String) (minimum : ℚ := 0) (maximum : Option ℚ := none) :
    Except String (Option ℚ) :=
  if normalize value ∈ unavailable then .ok none
  else match convert.float (normalize value) with
    | some result =>
      if result < minimum ∨ maximum.any (fun bound => decide (bound < result)) then
        .error ("nvidia-smi returned an invalid " ++ label)
      else .ok (some result)
    | none => .error ("nvidia-smi returned an invalid " ++ label)

/-- A text within its length, or the fallback when it is blank. -/
def boundedText (value label : String) (maximum : ℕ) (fallback : String := "") :
    Except String String :=
  let result := pyStrip value
  if maximum < result.length then .error ("nvidia-smi returned an oversized " ++ label)
  else .ok (if result = "" then fallback else result)

/-- A whole number between two bounds. -/
def boundedInteger (value : String) (minimum maximum : ℕ) (message : String) :
    Except String ℕ :=
  match number convert value with
  | some result =>
    if isInteger result ∧ (minimum : ℚ) ≤ result ∧ result ≤ (maximum : ℚ) then
      .ok result.num.toNat
    else .error message
  | none => .error message

/-! ### CSV rows -/

/-- The dialect of the `nvidia-smi` output. -/
def nvidiaDialect : Csv.Dialect := { skipInitialSpace := true }

variable (dialect : Csv.Dialect)

/-- A row without a filled cell. -/
def blankRow (row : List String) : Bool := row.all isBlank

/-- The text of an error of the CSV reader. -/
def unparseableCsv (failure : Csv.Failure) : String :=
  "nvidia-smi returned unparseable CSV: " ++
    match failure with
    | .refusedCharacter => "line contains NUL"
    | .strayNewline => "new-line character seen in unquoted field - "
        ++ "do you need to open the file with newline=''?"
    | .oversizedField => "field larger than field limit (" ++ toString dialect.fieldLimit ++ ")"

/-- A loop over the rows of a payload that are not blank, with their row numbers. An error of
the reader comes after the rows before it. -/
def eachRow {α : Type} (payload : String) (step : α → List String → ℕ → Except String α)
    (start : α) : Except String α := do
  let read := Csv.rows dialect payload
  let result ← (read.1.zipIdx 1).foldlM
    (fun acc row => if blankRow row.1 then .ok acc else step acc row.1 row.2) start
  match read.2 with
  | none => .ok result
  | some failure => .error (unparseableCsv dialect failure)

/-! ### GPU rows -/

def queryFieldCount : ℕ := 13
def processQueryFieldCount : ℕ := 4
def healthQueryFieldCount : ℕ := 7
def combinedQueryFieldCount : ℕ := queryFieldCount + (healthQueryFieldCount - 1)
def maxGpusPerHost : ℕ := 256
def maxProcessesPerHost : ℕ := 4096

/-- One row of the base query. -/
def parseNvidiaSmiRow (row : List String) (rowNumber : ℕ) : Except String GpuMetrics := do
  if row.length ≠ queryFieldCount then
    throw ("nvidia-smi returned " ++ toString row.length ++ " columns on row "
      ++ toString rowNumber ++ "; expected " ++ toString queryFieldCount)
  let cell := fun k => row.getD k ""
  let index ← boundedInteger convert (cell 0) 0 65535
    ("nvidia-smi returned an invalid GPU index on row " ++ toString rowNumber)
  let uuid ← boundedText (cell 1) "GPU UUID" 128
  let name ← boundedText (cell 2) "GPU name" 256 "Unknown NVIDIA GPU"
  let driverVersion ← boundedText (cell 3) "driver version" 64
  let pstate ← if normalize (cell 4) ∈ unavailable then pure none
    else some <$> boundedText (cell 4) "performance state" 32
  let temperatureC ← optionalNumber convert (cell 5) "GPU temperature" (-100) (some 250)
  let utilizationGpuPct ← optionalNumber convert (cell 6) "GPU utilization" 0 (some 100)
  let utilizationMemoryPct ← optionalNumber convert (cell 7) "memory utilization" 0 (some 100)
  let memoryTotalMib ← optionalNumber convert (cell 8) "total GPU memory" 0 (some 1000000000)
  let memoryUsedMib ← optionalNumber convert (cell 9) "used GPU memory" 0 (some 1000000000)
  let memoryFreeMib ← optionalNumber convert (cell 10) "free GPU memory" 0 (some 1000000000)
  let powerDrawW ← optionalNumber convert (cell 11) "GPU power draw" 0 (some 1000000)
  let powerLimitW ← optionalNumber convert (cell 12) "GPU power limit" 0 (some 1000000)
  return { index, uuid, name, driverVersion, pstate, temperatureC, utilizationGpuPct,
           utilizationMemoryPct, memoryTotalMib, memoryUsedMib, memoryFreeMib, powerDrawW,
           powerLimitW }

/-- The next GPU, unless there are too many or its index is taken. -/
def addGpu (gpus : List GpuMetrics) (gpu : GpuMetrics) : Except String (List GpuMetrics) :=
  if gpus.any (fun existing => existing.index == gpu.index) then
    .error "nvidia-smi returned duplicate GPU indices"
  else .ok (gpus ++ [gpu])

/-- The GPUs of the base query. -/
def parseNvidiaSmiCsv (payload : String) : Except String (List GpuMetrics) :=
  eachRow dialect payload (fun gpus row rowNumber => do
    if maxGpusPerHost ≤ gpus.length then throw "nvidia-smi returned too many GPU records"
    addGpu gpus (← parseNvidiaSmiRow convert row rowNumber)) []

/-! ### Health rows -/

/-- A health flag. -/
def optionalHealthBoolean (value : String) : Except String (Option Bool) :=
  let normalized := normalize value
  if normalized ∈ unavailable then .ok none
  else if normalized ∈ ["yes", "active", "enabled"] then .ok (some true)
  else if normalized ∈ ["no", "not active", "disabled"] then .ok (some false)
  else .error "nvidia-smi returned an invalid health boolean"

/-- One row of the health query: the UUID of the GPU and its health. -/
def parseNvidiaHealthRow (row : List String) (rowNumber : ℕ) :
    Except String (String × GpuHealthMetrics) := do
  if row.length ≠ healthQueryFieldCount then
    throw ("nvidia-smi returned " ++ toString row.length ++ " health columns on row "
      ++ toString rowNumber ++ "; expected " ++ toString healthQueryFieldCount)
  let cell := fun k => row.getD k ""
  let uuid ← boundedText (cell 0) "health GPU UUID" 128
  let ecc ← optionalNumber convert (cell 1) "uncorrected ECC count" 0 (some 9007199254740991)
  if ecc.any (fun count => !isInteger count) then
    throw "nvidia-smi returned an invalid uncorrected ECC count"
  let migMode ← if normalize (cell 6) ∈ unavailable then pure none
    else some <$> boundedText (cell 6) "MIG mode" 64
  let retiredPagesPending ← optionalHealthBoolean (cell 2)
  let remappedRowsPending ← optionalHealthBoolean (cell 3)
  let thermalSlowdown ← optionalHealthBoolean (cell 4)
  let powerBrakeSlowdown ← optionalHealthBoolean (cell 5)
  return (uuid, { eccUncorrectedVolatile := ecc.map fun count => count.num.toNat,
                  retiredPagesPending, remappedRowsPending, thermalSlowdown,
                  powerBrakeSlowdown, migMode })

/-- The health of a new GPU. -/
def addHealth (health : Dict String GpuHealthMetrics) (row : String × GpuHealthMetrics) :
    Except String (Dict String GpuHealthMetrics) :=
  if health.contains row.1 then .error "nvidia-smi returned duplicate GPU health records"
  else .ok (health.set row.1 row.2)

/-- The health of the GPUs by their UUIDs. -/
def parseNvidiaHealthCsv (payload : String) : Except String (Dict String GpuHealthMetrics) :=
  eachRow dialect payload (fun health row rowNumber => do
    if maxGpusPerHost ≤ health.entries.length then
      throw "nvidia-smi returned too many GPU health records"
    addHealth health (← parseNvidiaHealthRow convert row rowNumber)) ∅

/-- What the combined query has read so far. A malformed health field drops all health
records and ends their reading, but not that of the GPUs. -/
structure Combined where
  gpus : List GpuMetrics := []
  health : Dict String GpuHealthMetrics := ∅
  healthValid : Bool := true

/-- The GPUs and their health from one query. -/
def parseNvidiaCombinedCsv (payload : String) :
    Except String (List GpuMetrics × Dict String GpuHealthMetrics) := do
  let read ← eachRow dialect payload (fun (acc : Combined) row rowNumber => do
    if maxGpusPerHost ≤ acc.gpus.length then throw "nvidia-smi returned too many GPU records"
    if row.length ≠ combinedQueryFieldCount then
      throw ("nvidia-smi returned " ++ toString row.length ++ " combined GPU columns on row "
        ++ toString rowNumber ++ "; expected " ++ toString combinedQueryFieldCount)
    let gpus ← addGpu acc.gpus (← parseNvidiaSmiRow convert (row.take queryFieldCount) rowNumber)
    if acc.healthValid then
      let healthRow := row.getD 1 "" :: row.drop queryFieldCount
      match parseNvidiaHealthRow convert healthRow rowNumber >>= addHealth acc.health with
      | .ok health => return { acc with gpus, health }
      | .error _ => return { gpus, health := ∅, healthValid := false }
    else return { acc with gpus }) {}
  return (read.gpus, read.health)

/-! ### Process rows -/

/-- The GPU processes read so far by the UUID of their GPU, and their number. -/
structure ProcessRows where
  byGpu : Dict String (List GpuProcess) := ∅
  count : ℕ := 0

/-- The GPU processes by the UUID of their GPU. -/
def parseNvidiaProcessesCsv (payload : String) :
    Except String (Dict String (List GpuProcess)) := do
  let read ← eachRow dialect payload (fun (acc : ProcessRows) row rowNumber => do
    if maxProcessesPerHost ≤ acc.count then
      throw "nvidia-smi returned too many GPU process records"
    if row.length ≠ processQueryFieldCount then
      throw ("nvidia-smi returned " ++ toString row.length ++ " process columns on row "
        ++ toString rowNumber ++ "; expected " ++ toString processQueryFieldCount)
    let cell := fun k => row.getD k ""
    let gpuUuid ← boundedText (cell 0) "process GPU UUID" 128
    let pid ← boundedInteger convert (cell 1) 1 2147483647
      ("nvidia-smi returned an invalid process PID on row " ++ toString rowNumber)
    let name ← boundedText (cell 2) "GPU process name" 512 "unknown process"
    let usedMemoryMib ← optionalNumber convert (cell 3) "GPU process memory" 0 (some 1000000000)
    return { byGpu := acc.byGpu.set gpuUuid (acc.byGpu.getD gpuUuid [] ++
               [{ pid, name, usedMemoryMib }]),
             count := acc.count + 1 }) {}
  return read.byGpu

/-! ### Workload records -/

def maxWorkloadRecords : ℕ := 4096
def maxWorkloadStartEpoch : ℕ := 4102444800
def maxCpuSeconds : ℕ := 10000000000
def maxRssMib : ℕ := 16777216

/-- When the workload started. -/
def workloadStartIso (value : String) : Except String (Option String) :=
  let text := pyStrip value
  if text = "" then .ok none
  else match convert.int text with
    | some epoch =>
      if 0 < epoch ∧ epoch ≤ maxWorkloadStartEpoch then .ok (some (convert.isoformat epoch))
      else .error "resource payload has an invalid workload start time"
    | none => .error "resource payload has an invalid workload start time"

/-- The command line for display: controls become blanks, and only the head is kept. -/
def sanitizedWorkloadCommand (value : String) : Option String :=
  let cleaned := pyStrip (value.map fun c =>
    if c.toNat < 32 ∨ (127 ≤ c.toNat ∧ c.toNat ≤ 159) ∨ c.toNat = 0x2028 ∨ c.toNat = 0x2029
    then ' ' else c)
  let head := String.ofList (cleaned.toList.take 255)
  if head = "" then none else some head

/-- A footprint that may be missing. -/
def optionalFootprint (value label : String) (maximum : ℕ) : Except String (Option ℚ) :=
  let text := pyStrip value
  if text = "" then .ok none
  else match convert.int text with
    | some amount =>
      if amount ≤ maximum then .ok (some (amount : ℚ))
      else .error ("resource payload has an invalid workload " ++ label)
    | none => .error ("resource payload has an invalid workload " ++ label)

/-- A text that may be missing, without controls. -/
def optionalText (value label : String) : Except String (Option String) :=
  let text := pyStrip value
  if 255 < text.length ∨ text.toList.any (fun c => decide (c.toNat < 32)) then
    .error ("resource payload has invalid workload " ++ label)
  else .ok (if text = "" then none else some text)

/-- The kind of a workload. -/
def workloadKind (value : String) : Except String WorkloadKind :=
  match pyStrip value with
  | "process" => .ok .process
  | "slurm" => .ok .slurm
  | "kubernetes" => .ok .kubernetes
  | "docker" => .ok .docker
  | "podman" => .ok .podman
  | _ => .error "resource payload has an invalid workload kind"

/-- One workload record. -/
def addWorkload (workloads : Dict ℕ WorkloadMetadata) (line : String × ℕ) :
    Except String (Dict ℕ WorkloadMetadata) := do
  if isBlank line.1 then return workloads
  let fields := splitAt '\t' line.1
  if fields.length ≠ 12 ∨ fields.getD 0 "" ≠ "WORKLOAD" then
    throw ("resource payload has an invalid workload record on row " ++ toString line.2)
  let field := fun k => fields.getD k ""
  let pid ← match convert.int (pyStrip (field 1)) with
    | some pid =>
      if 1 ≤ pid ∧ pid ≤ 2147483647 then pure pid
      else throw "resource payload has an invalid workload PID"
    | none => throw "resource payload has an invalid workload PID"
  if workloads.contains pid then throw "resource payload has duplicate workload PIDs"
  let kind ← workloadKind (field 2)
  let workloadId ← optionalText (field 3) "identifier"
  let name ← optionalText (field 4) "name"
  let owner ← optionalText (field 5) "owner"
  let queue ← optionalText (field 6) "queue"
  let namespaceName ← optionalText (field 7) "namespace"
  let startedAt ← workloadStartIso convert (field 8)
  let command := sanitizedWorkloadCommand (field 9)
  let cpuSeconds ← optionalFootprint convert (field 10) "cpu time" maxCpuSeconds
  let rssMib ← optionalFootprint convert (field 11) "memory" maxRssMib
  return workloads.set pid
    { kind, workloadId, name, owner, queue, namespaceName, command, startedAt, cpuSeconds, rssMib }

/-- The workloads by their PIDs. -/
def parseWorkloadRecords (payload : String) : Except String (Dict ℕ WorkloadMetadata) := do
  let workloads ← ((splitAt '\n' payload).zipIdx 1).foldlM (addWorkload convert) ∅
  if maxWorkloadRecords < workloads.entries.length then
    throw "resource payload has too many workload records"
  return workloads

end Mocop.Probe
