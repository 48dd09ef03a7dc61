import Mathlib.Data.Rat.Floor

/-!
# `Mocop.Models`: the sample of one probe and the state kept per server

The records of `models.py`. A probe of one host yields a `ProbeResult`; the state store
keeps one `ServerState` per host and applies each result to it.

Numbers are exact: a `float` field is a rational. Timestamps are the strings that the
monitor writes, and they are compared as strings. The parser `epoch_seconds` from a
timestamp to seconds is a parameter of every definition that calls it, so the results
hold for whatever it accepts.
-/

set_option autoImplicit false

namespace Mocop

/-! ### Text and number primitives -/

/-- `value.partition(":")[0]`: the text before the first colon. -/
def partitionHead (value : String) : String :=
  String.ofList (value.toList.takeWhile (fun c => c != ':'))

/-- `value.partition(":")[2]`: the text after the first colon, empty without a colon. -/
def partitionTail (value : String) : String :=
  String.ofList ((value.toList.dropWhile (fun c => c != ':')).drop 1)

/-- A text without colons is its own head. -/
theorem partitionHead_of_not_mem (value : String) (h : ':' ∉ value.toList) :
    partitionHead value = value := by
  have hall : ∀ c ∈ value.toList, (c != ':') = true := fun c hc => by
    have hne : c ≠ ':' := fun he => h (he ▸ hc)
    simpa using hne
  have htake : (value.toList ++ []).takeWhile (fun c => c != ':') = value.toList ++ [] := by
    rw [List.takeWhile_append_of_pos hall, List.takeWhile_nil]
  rw [List.append_nil] at htake
  rw [partitionHead, htake, String.ofList_toList]

/-- The text before the first colon of `category:rest`, for a category without colons. -/
theorem partitionHead_append (category rest : String) (h : ':' ∉ category.toList) :
    partitionHead (category ++ ":" ++ rest) = category := by
  have hall : ∀ c ∈ category.toList, (c != ':') = true := fun c hc => by
    have hne : c ≠ ':' := fun he => h (he ▸ hc)
    simpa using hne
  have hcolon : ":".toList = [':'] := rfl
  rw [partitionHead, String.toList_append, String.toList_append, List.append_assoc,
    List.takeWhile_append_of_pos hall, hcolon]
  simp

/-- The text after the first colon of `category:rest`, for a category without colons. -/
theorem partitionTail_append (category rest : String) (h : ':' ∉ category.toList) :
    partitionTail (category ++ ":" ++ rest) = rest := by
  have hall : ∀ c ∈ category.toList, (c != ':') = true := fun c hc => by
    have hne : c ≠ ':' := fun he => h (he ▸ hc)
    simpa using hne
  have hcolon : ":".toList = [':'] := rfl
  rw [partitionTail, String.toList_append, String.toList_append, List.append_assoc,
    List.dropWhile_append_of_pos hall, hcolon]
  simp

/-- `round(value)`: the nearest integer, a tie going to the even one. -/
def roundHalfEven (value : ℚ) : ℤ :=
  let fraction := value - ⌊value⌋
  if fraction < 1 / 2 then ⌊value⌋
  else if 1 / 2 < fraction then ⌊value⌋ + 1
  else if ⌊value⌋ % 2 = 0 then ⌊value⌋ else ⌊value⌋ + 1

/-- `round(value, digits)` for `digits ≥ 0`. -/
def roundDigits (value : ℚ) (digits : ℕ) : ℚ :=
  (roundHalfEven (value * 10 ^ digits) : ℚ) / 10 ^ digits

/-- The text of a number of hundredths as a float: `3.0`, `3.5`, `3.25`. -/
def hundredthsText (hundredths : ℤ) : String :=
  let whole := toString (hundredths.natAbs / 100)
  let rest := hundredths.natAbs % 100
  let fraction :=
    if rest % 10 = 0 then toString (rest / 10)
    else if rest < 10 then "0" ++ toString rest else toString rest
  (if hundredths < 0 then "-" else "") ++ whole ++ "." ++ fraction

/-- The text of `round(value, 2)` in a message. -/
def round2Text (value : ℚ) : String := hundredthsText (roundHalfEven (value * 100))

/-! ### The records of one sample -/

/-- The outcome of one probe. -/
inductive ProbeStatus where
  | online
  | unreachable
  | error
  deriving DecidableEq, Repr

/-- What runs a GPU process. -/
inductive WorkloadKind where
  | process
  | slurm
  | kubernetes
  | docker
  | podman
  deriving DecidableEq, Repr

/-- The workload that a GPU process belongs to. -/
structure WorkloadMetadata where
  kind : WorkloadKind
  workloadId : Option String := none
  name : Option String := none
  owner : Option String := none
  queue : Option String := none
  namespaceName : Option String := none
  command : Option String := none
  startedAt : Option String := none
  cpuSeconds : Option ℚ := none
  rssMib : Option ℚ := none
  deriving DecidableEq

/-- One compute process on one GPU. `firstSeenAt` is when this process was first observed
on its device. -/
structure GpuProcess where
  pid : ℕ
  name : String
  usedMemoryMib : Option ℚ
  workload : Option WorkloadMetadata := none
  firstSeenAt : Option String := none
  deriving DecidableEq

/-- The hardware-health block of one GPU. -/
structure GpuHealthMetrics where
  eccUncorrectedVolatile : Option ℕ
  retiredPagesPending : Option Bool
  remappedRowsPending : Option Bool
  thermalSlowdown : Option Bool
  powerBrakeSlowdown : Option Bool
  deriving DecidableEq

/-- The metrics of one GPU. -/
structure GpuMetrics where
  index : ℕ
  uuid : String
  name : String
  temperatureC : Option ℚ
  utilizationGpuPct : Option ℚ
  memoryTotalMib : Option ℚ
  memoryUsedMib : Option ℚ
  powerDrawW : Option ℚ
  processes : List GpuProcess := []
  processesAvailable : Bool := true
  processesSampled : Bool := true
  processesObservedAt : Option String := none
  health : Option GpuHealthMetrics := none
  deriving DecidableEq

/-- One resource of `/proc/pressure`: the share of time in which some task stalled. -/
structure PressureStallSample where
  someAvg60 : ℚ
  deriving DecidableEq

/-- The pressure samples the policy reads. -/
structure PressureStallMetrics where
  memory : Option PressureStallSample := none
  io : Option PressureStallSample := none
  deriving DecidableEq

/-- One mounted filesystem. -/
structure DiskMetrics where
  device : String
  filesystemType : String
  mountpoint : String
  availableMib : ℚ
  usedPct : ℚ
  deriving DecidableEq

/-- The host-side metrics of one sample. -/
structure SystemMetrics where
  cpuUsagePct : Option ℚ
  memoryTotalMib : ℚ
  memoryUsedMib : ℚ
  swapTotalMib : ℚ
  swapUsedMib : ℚ
  disks : List DiskMetrics := []
  pressure : Option PressureStallMetrics := none
  deriving DecidableEq

/-- The result of one probe of one host. -/
structure ProbeResult where
  host : String
  status : ProbeStatus
  latencyMs : ℕ
  gpus : List GpuMetrics := []
  message : Option String := none
  observedAt : String
  system : Option SystemMetrics := none
  transportRetries : ℕ := 0
  deriving DecidableEq

/-- The identity of a GPU: its UUID, or its index when it reports none. -/
def GpuMetrics.identity (gpu : GpuMetrics) : String :=
  if gpu.uuid = "" then toString gpu.index else gpu.uuid

end Mocop
