import Mocop.Incidents.Types

/-!
# `Mocop.Incidents.Domains`: the telemetry domains of a condition

A resource condition may only recover on a sample that observed the telemetry it depends
on. `conditionDomains` lists the domains of a condition, and `telemetryUnknown` tells
whether a sample with the given observed domains says nothing about it. A fully observed
GPU inventory is authoritative about the absence of a device: then the domains of a device
that left the inventory do not freeze the recovery.
-/

set_option autoImplicit false

namespace Mocop

/-- Telemetry domains a condition needs before its recovery may advance. -/
def conditionDomains (category key : String) : List String :=
  let identity := partitionTail key
  if category = "cpu" then ["system", "system_cpu"]
  else if category = "pressure" then ["system", key]
  else if category ∈ ["cpu", "memory", "swap", "disk", "pressure"] then ["system"]
  else if category ∈ ["gpu_availability", "gpu_count"] then ["gpu_query"]
  else if category = "gpu_ecc" then
    ["gpu_present:" ++ identity, "gpu_ecc:" ++ identity]
  else if category ∈ ["gpu_ecc", "gpu_memory_repair", "gpu_slowdown"] then
    ["gpu_present:" ++ identity, "gpu_health:" ++ identity]
  else if category = "gpu_processes" then ["gpu_processes"]
  else if category = "gpu_temperature" then
    ["gpu_present:" ++ identity, "gpu_temperature:" ++ identity]
  else if category = "gpu_memory" then
    ["gpu_present:" ++ identity, "gpu_memory:" ++ identity]
  else if category = "gpu_idle_memory" then
    ["gpu_present:" ++ identity, "gpu_memory:" ++ identity,
      "gpu_utilization:" ++ identity]
  else []

/-- The domain prefixes that name one device. -/
def perIdentityGpuDomains : List String :=
  ["gpu_present", "gpu_health", "gpu_ecc", "gpu_temperature", "gpu_memory",
    "gpu_utilization"]

/-- Whether the sample carried no fresh telemetry for this condition. -/
def telemetryUnknown (category key : String) (observedDomains : List String) : Bool :=
  let missing := (conditionDomains category key).filter (· ∉ observedDomains)
  if missing = [] then false
  else if "gpu_inventory" ∈ observedDomains then
    if missing.any (fun domain => partitionHead domain ∉ perIdentityGpuDomains) then true
    else !(missing.map partitionTail).all
      (fun identity => ("gpu_present:" ++ identity) ∉ observedDomains)
  else true

end Mocop
