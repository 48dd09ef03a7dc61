import Mocop.Lib.Dict
import Mathlib.Algebra.Order.Field.Rat

/-!
# `Mocop.Config`: the validated settings that the incident policy reads

The threshold names are an enumeration, since the loader accepts no other name. A scope
override replaces some thresholds for one host or one host group and excludes mount points
from the disk conditions.
-/

set_option autoImplicit false

namespace Mocop

/-- The name of a threshold. -/
inductive ThresholdName where
  | cpuWarningPct
  | memoryWarningPct
  | swapWarningPct
  | diskWarningPct
  | diskMinFreeGib
  | psiMemorySomePct
  | psiIoSomePct
  | gpuTemperatureWarningC
  | gpuBusyPct
  | gpuMemoryWarningPct
  | gpuIdleMemoryPct
  deriving DecidableEq, Repr

/-- The base thresholds. `diskMinFreeGib` is the headroom below which an alerting
filesystem is critical. -/
structure ThresholdConfig where
  cpuWarningPct : ℚ := 85
  memoryWarningPct : ℚ := 90
  swapWarningPct : ℚ := 50
  diskWarningPct : ℚ := 85
  diskMinFreeGib : ℚ := 5
  psiMemorySomePct : ℚ := 20
  psiIoSomePct : ℚ := 30
  gpuTemperatureWarningC : ℚ := 80
  gpuBusyPct : ℚ := 10
  gpuMemoryWarningPct : ℚ := 90
  gpuIdleMemoryPct : ℚ := 20

/-- The thresholds by name. -/
def ThresholdConfig.toDict (config : ThresholdConfig) : Dict ThresholdName ℚ :=
  Dict.ofList
    [(.cpuWarningPct, config.cpuWarningPct),
      (.memoryWarningPct, config.memoryWarningPct),
      (.swapWarningPct, config.swapWarningPct),
      (.diskWarningPct, config.diskWarningPct),
      (.diskMinFreeGib, config.diskMinFreeGib),
      (.psiMemorySomePct, config.psiMemorySomePct),
      (.psiIoSomePct, config.psiIoSomePct),
      (.gpuTemperatureWarningC, config.gpuTemperatureWarningC),
      (.gpuBusyPct, config.gpuBusyPct),
      (.gpuMemoryWarningPct, config.gpuMemoryWarningPct),
      (.gpuIdleMemoryPct, config.gpuIdleMemoryPct)]

/-- How many samples and how much time confirm a transition, and the hysteresis band. -/
structure IncidentConfig where
  resourceOpenCycles : ℕ := 2
  recoveryCycles : ℕ := 2
  gpuIdleMemoryCycles : ℕ := 12
  resourceOpenSeconds : ℚ := 60
  gpuIdleMemorySeconds : ℚ := 300
  recoveryMargin : ℚ := 5

/-- The thresholds and mount-point exclusions of one host or one host group. -/
structure IncidentScopeOverrideConfig where
  thresholds : List (ThresholdName × ℚ) := []
  excludeDiskMounts : List String := []

end Mocop
