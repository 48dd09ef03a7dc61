import Mocop.Incidents.Streaks

/-!
# `Mocop.Incidents.Coverage`: the fields of a condition and its telemetry domains

Whether a sample may advance a recovery is decided by the domain table alone
(`telemetryUnknown`). `Lacks` says instead which of the fields that a condition is derived from
the sample does not report. `telemetryUnknown_of_lacks` compares the two: the table covers every
field, except the four of the health block that memory repair and slowdown are derived from.
-/

set_option autoImplicit false

namespace Mocop

open ThresholdIncidentPolicy (observedDomains gpuDomains gpuMemoryPct)

/-! ### The fields of a condition -/

/-- The fields of the host that a condition is derived from, as whether they are reported. The
fields of a filesystem always have values, so a sample with a system lacks none of them, also when
the row of the filesystem is missing. -/
def hostFields (category key : String) : List (ProbeResult → Bool) :=
  if category = "cpu" then
    [fun result => result.system.any (·.cpuUsagePct.isSome)]
  else if category ∈ ["memory", "swap", "disk"] then
    [fun result => result.system.isSome]
  else if category = "pressure" then
    if key = "pressure:memory" then
      [fun result => result.system.any (·.pressure.any (·.memory.isSome))]
    else if key = "pressure:io" then
      [fun result => result.system.any (·.pressure.any (·.io.isSome))]
    else []
  else if category = "gpu_processes" then
    [fun result => result.gpus.all (·.processesSampled)]
  else []

/-- The fields of a device that a condition is derived from, as whether they are reported. -/
def gpuFields (category : String) : List (GpuMetrics → Bool) :=
  if category = "gpu_temperature" then [(·.temperatureC.isSome)]
  else if category = "gpu_memory" then [(·.memoryUsedMib.isSome), (·.memoryTotalMib.isSome)]
  else if category = "gpu_idle_memory" then
    [(·.memoryUsedMib.isSome), (·.memoryTotalMib.isSome), (·.utilizationGpuPct.isSome)]
  else if category = "gpu_ecc" then [(·.health.any (·.eccUncorrectedVolatile.isSome))]
  else if category = "gpu_memory_repair" then
    [(·.health.any (·.retiredPagesPending.isSome)),
      (·.health.any (·.remappedRowsPending.isSome))]
  else if category = "gpu_slowdown" then
    [(·.health.any (·.thermalSlowdown.isSome)), (·.health.any (·.powerBrakeSlowdown.isSome))]
  else []

/-- Some device of the identity reports the field. -/
def reportedFor (result : ProbeResult) (identity : String) (field : GpuMetrics → Bool) : Prop :=
  ∃ gpu ∈ result.gpus, gpu.identity = identity ∧ field gpu = true

/-- The sample reports no value for a field that the condition is derived from. A device that is
in no complete inventory has no fields: its absence is itself reported, as is that of a
filesystem. -/
def Lacks (result : ProbeResult) (category key : String) : Prop :=
  (∃ field ∈ hostFields category key, field result = false)
    ∨ ((gpuQueryFailed result = true ∨ reportedFor result (partitionTail key) fun _ => true)
      ∧ ∃ field ∈ gpuFields category, ¬ reportedFor result (partitionTail key) field)

/-! ### The domains of a sample -/

/-- The domains that one device carries. -/
theorem mem_gpuDomains (gpu : GpuMetrics) (identity : String) :
    ("gpu_present:" ++ identity ∈ gpuDomains gpu ↔ gpu.identity = identity)
      ∧ ("gpu_temperature:" ++ identity ∈ gpuDomains gpu
        ↔ gpu.identity = identity ∧ gpu.temperatureC.isSome = true)
      ∧ ("gpu_memory:" ++ identity ∈ gpuDomains gpu
        ↔ gpu.identity = identity ∧ (gpuMemoryPct gpu).isSome = true)
      ∧ ("gpu_utilization:" ++ identity ∈ gpuDomains gpu
        ↔ gpu.identity = identity ∧ gpu.utilizationGpuPct.isSome = true)
      ∧ ("gpu_health:" ++ identity ∈ gpuDomains gpu
        ↔ gpu.identity = identity ∧ gpu.health.isSome = true)
      ∧ ("gpu_ecc:" ++ identity ∈ gpuDomains gpu
        ↔ gpu.identity = identity
          ∧ gpu.health.any (·.eccUncorrectedVolatile.isSome) = true) := by
  unfold gpuDomains
  cases gpu.health with
  | none =>
    simp only [← String.toList_inj]
    refine ⟨?_, ?_, ?_, ?_, ?_, ?_⟩ <;> simp [← String.toList_inj] <;> grind
  | some health =>
    simp only [← String.toList_inj]
    refine ⟨?_, ?_, ?_, ?_, ?_, ?_⟩ <;> simp [← String.toList_inj] <;> grind

/-- A domain of a device names the device. -/
theorem exists_name_of_mem_gpuDomains {gpu : GpuMetrics} {domain : String}
    (h : domain ∈ gpuDomains gpu) :
    ∃ name ∈ perIdentityGpuDomains, domain = name ++ ":" ++ gpu.identity := by
  unfold gpuDomains at h
  cases hhealth : gpu.health with
  | none =>
    simp only [hhealth, List.mem_append, List.mem_singleton, List.mem_ite_nil_right,
      List.not_mem_nil, or_false] at h
    rcases h with ((rfl | ⟨-, rfl⟩) | ⟨-, rfl⟩) | ⟨-, rfl⟩
    · exact ⟨"gpu_present", by decide, rfl⟩
    · exact ⟨"gpu_temperature", by decide, rfl⟩
    · exact ⟨"gpu_memory", by decide, rfl⟩
    · exact ⟨"gpu_utilization", by decide, rfl⟩
  | some health =>
    simp only [hhealth, List.mem_append, List.mem_singleton, List.mem_ite_nil_right] at h
    rcases h with (((rfl | ⟨-, rfl⟩) | ⟨-, rfl⟩) | ⟨-, rfl⟩) | (rfl | ⟨-, rfl⟩)
    · exact ⟨"gpu_present", by decide, rfl⟩
    · exact ⟨"gpu_temperature", by decide, rfl⟩
    · exact ⟨"gpu_memory", by decide, rfl⟩
    · exact ⟨"gpu_utilization", by decide, rfl⟩
    · exact ⟨"gpu_health", by decide, rfl⟩
    · exact ⟨"gpu_ecc", by decide, rfl⟩

variable {result : ProbeResult} {category key : String}

/-- The domains that a sample carries. -/
theorem mem_observedDomains (honline : result.status = .online) (domain : String) :
    domain ∈ observedDomains result
      ↔ (domain = "system" ∧ result.system.isSome = true)
        ∨ (domain = "system_cpu" ∧ result.system.any (·.cpuUsagePct.isSome) = true)
        ∨ (domain = "pressure:memory"
          ∧ result.system.any (·.pressure.any (·.memory.isSome)) = true)
        ∨ (domain = "pressure:io" ∧ result.system.any (·.pressure.any (·.io.isSome)) = true)
        ∨ (gpuQueryFailed result = false ∧ (domain = "gpu_query" ∨ domain = "gpu_inventory"
          ∨ (domain = "gpu_processes" ∧ result.gpus.all (·.processesSampled) = true)
          ∨ ∃ gpu ∈ result.gpus, domain ∈ gpuDomains gpu)) := by
  have hgpus : domain ∈ (if gpuQueryFailed result = true then []
      else
        ["gpu_query", "gpu_inventory"]
          ++ (if result.gpus.all (·.processesSampled) = true then ["gpu_processes"] else [])
          ++ result.gpus.flatMap gpuDomains)
      ↔ gpuQueryFailed result = false ∧ (domain = "gpu_query" ∨ domain = "gpu_inventory"
          ∨ (domain = "gpu_processes" ∧ result.gpus.all (·.processesSampled) = true)
          ∨ ∃ gpu ∈ result.gpus, domain ∈ gpuDomains gpu) := by
    cases gpuQueryFailed result with
    | true => simp
    | false => cases hsampled : result.gpus.all (·.processesSampled) <;> simp
  unfold observedDomains
  rw [if_neg (by rw [honline]; simp), List.mem_append, hgpus]
  cases hsystem : result.system with
  | none => simp
  | some system =>
    cases hpressure : system.pressure with
    | none => cases hcpu : system.cpuUsagePct <;> simp [hpressure, hcpu, or_assoc]
    | some pressure =>
      cases hcpu : system.cpuUsagePct <;> cases hmemory : pressure.memory
        <;> cases hio : pressure.io <;> simp [hpressure, hcpu, hmemory, hio, or_assoc]

/-- The domains that name no device. -/
def hostDomains : List String :=
  ["system", "system_cpu", "pressure:memory", "pressure:io", "gpu_query", "gpu_inventory",
    "gpu_processes"]

/-- The domain of a device is none of those. -/
theorem deviceDomain_ne {name host : String} (hname : name ∈ perIdentityGpuDomains)
    (identity : String) (hhost : host ∈ hostDomains) : name ++ ":" ++ identity ≠ host := by
  have hnames : ∀ name ∈ perIdentityGpuDomains, ':' ∉ name.toList := by decide
  have hheads : ∀ host ∈ hostDomains, partitionHead host ∉ perIdentityGpuDomains := by
    decide +kernel
  intro heq
  have hhead := congrArg partitionHead heq
  rw [partitionHead_append name identity (hnames name hname)] at hhead
  exact hheads host hhost (hhead ▸ hname)

/-- A domain of a device is carried when the query did not fail and a device carries it. -/
theorem mem_observedDomains_device {result : ProbeResult} (honline : result.status = .online)
    {name : String} (hname : name ∈ perIdentityGpuDomains) (identity : String)
    {field : GpuMetrics → Bool} (hfield : ∀ gpu, name ++ ":" ++ identity ∈ gpuDomains gpu
      ↔ gpu.identity = identity ∧ field gpu = true) :
    name ++ ":" ++ identity ∈ observedDomains result
      ↔ gpuQueryFailed result = false ∧ reportedFor result identity field := by
  have hne : ∀ host ∈ hostDomains, ¬ name ++ ":" ++ identity = host := fun host hhost =>
    deviceDomain_ne hname identity hhost
  simp only [hostDomains, List.mem_cons, List.not_mem_nil, or_false, forall_eq_or_imp,
    forall_eq] at hne
  simp only [mem_observedDomains honline, hne, hfield, false_and, false_or]
  rfl

/-- The domains of the devices that a sample carries. -/
theorem mem_deviceDomains (honline : result.status = .online) (identity : String) :
    ("gpu_present:" ++ identity ∈ observedDomains result
        ↔ gpuQueryFailed result = false ∧ reportedFor result identity fun _ => true)
      ∧ ("gpu_temperature:" ++ identity ∈ observedDomains result
        ↔ gpuQueryFailed result = false ∧ reportedFor result identity (·.temperatureC.isSome))
      ∧ ("gpu_memory:" ++ identity ∈ observedDomains result
        ↔ gpuQueryFailed result = false
          ∧ reportedFor result identity fun gpu => (gpuMemoryPct gpu).isSome)
      ∧ ("gpu_utilization:" ++ identity ∈ observedDomains result
        ↔ gpuQueryFailed result = false
          ∧ reportedFor result identity (·.utilizationGpuPct.isSome))
      ∧ ("gpu_health:" ++ identity ∈ observedDomains result
        ↔ gpuQueryFailed result = false ∧ reportedFor result identity (·.health.isSome))
      ∧ ("gpu_ecc:" ++ identity ∈ observedDomains result
        ↔ gpuQueryFailed result = false
          ∧ reportedFor result identity (·.health.any (·.eccUncorrectedVolatile.isSome))) := by
  have hgpus := fun gpu => mem_gpuDomains gpu identity
  refine ⟨?_, ?_, ?_, ?_, ?_, ?_⟩
  · exact @mem_observedDomains_device result honline "gpu_present" (by decide) identity _
      fun gpu => (hgpus gpu).1.trans (by simp)
  · exact @mem_observedDomains_device result honline "gpu_temperature" (by decide) identity _
      fun gpu => (hgpus gpu).2.1
  · exact @mem_observedDomains_device result honline "gpu_memory" (by decide) identity _
      fun gpu => (hgpus gpu).2.2.1
  · exact @mem_observedDomains_device result honline "gpu_utilization" (by decide) identity _
      fun gpu => (hgpus gpu).2.2.2.1
  · exact @mem_observedDomains_device result honline "gpu_health" (by decide) identity _
      fun gpu => (hgpus gpu).2.2.2.2.1
  · exact @mem_observedDomains_device result honline "gpu_ecc" (by decide) identity _
      fun gpu => (hgpus gpu).2.2.2.2.2

/-- The other domains that a sample carries. -/
theorem mem_hostDomains (honline : result.status = .online) :
    ("system" ∈ observedDomains result ↔ result.system.isSome = true)
      ∧ ("system_cpu" ∈ observedDomains result
        ↔ result.system.any (·.cpuUsagePct.isSome) = true)
      ∧ ("pressure:memory" ∈ observedDomains result
        ↔ result.system.any (·.pressure.any (·.memory.isSome)) = true)
      ∧ ("pressure:io" ∈ observedDomains result
        ↔ result.system.any (·.pressure.any (·.io.isSome)) = true)
      ∧ ("gpu_inventory" ∈ observedDomains result ↔ gpuQueryFailed result = false)
      ∧ ("gpu_processes" ∈ observedDomains result
        ↔ gpuQueryFailed result = false ∧ result.gpus.all (·.processesSampled) = true) := by
  have hgpus : ∀ host ∈ hostDomains, ∀ gpu, host ∉ gpuDomains gpu := by
    intro host hhost gpu hmem
    obtain ⟨name, hname, rfl⟩ := exists_name_of_mem_gpuDomains hmem
    exact deviceDomain_ne hname gpu.identity hhost rfl
  simp only [hostDomains, List.mem_cons, List.not_mem_nil, or_false, forall_eq_or_imp,
    forall_eq] at hgpus
  simp only [mem_observedDomains honline, hgpus, and_false, exists_false, or_false]
  refine ⟨?_, ?_, ?_, ?_, ?_, ?_⟩ <;> simp

/-! ### The domain table and the fields -/

/-- A missing domain that names no device leaves the telemetry unknown. -/
theorem telemetryUnknown_of_missing {category key domain : String} {domains : List String}
    (hmem : domain ∈ conditionDomains category key) (hmissing : domain ∉ domains)
    (hhost : partitionHead domain ∉ perIdentityGpuDomains) :
    telemetryUnknown category key domains = true := by
  have hfilter : domain ∈ (conditionDomains category key).filter (· ∉ domains) :=
    List.mem_filter.mpr ⟨hmem, decide_eq_true hmissing⟩
  unfold telemetryUnknown
  simp only [if_neg (List.ne_nil_of_mem hfilter)]
  split
  · rw [if_pos]
    exact List.any_eq_true.mpr ⟨domain, hfilter, decide_eq_true hhost⟩
  · rfl

/-- A missing domain of a device leaves the telemetry unknown, unless the device has left a
complete inventory. -/
theorem telemetryUnknown_of_missing_device {category key domain : String} {domains : List String}
    (hmem : domain ∈ conditionDomains category key) (hmissing : domain ∉ domains)
    (hpresent : "gpu_inventory" ∈ domains →
      "gpu_present:" ++ partitionTail domain ∈ domains) :
    telemetryUnknown category key domains = true := by
  have hfilter : domain ∈ (conditionDomains category key).filter (· ∉ domains) :=
    List.mem_filter.mpr ⟨hmem, decide_eq_true hmissing⟩
  unfold telemetryUnknown
  simp only [if_neg (List.ne_nil_of_mem hfilter)]
  split
  · next hinventory =>
    split
    · rfl
    · rw [Bool.not_eq_true', Bool.eq_false_iff]
      intro hall
      have := List.all_eq_true.mp hall _ (List.mem_map_of_mem hfilter)
      exact of_decide_eq_true this (hpresent hinventory)
  · rfl

/-- The table knows a condition of the host only when the sample reports its fields. -/
theorem telemetryUnknown_of_hostFields (honline : result.status = .online)
    (h : ∃ field ∈ hostFields category key, field result = false) :
    telemetryUnknown category key (observedDomains result) = true := by
  obtain ⟨hsystem, hcpu, hmemory, hio, -, hprocesses⟩ := mem_hostDomains honline
  obtain ⟨field, hfield, hfalse⟩ := h
  have hcategory : category ∈ ["cpu", "memory", "swap", "disk", "pressure", "gpu_processes"] := by
    by_contra hother
    simp only [List.mem_cons, List.not_mem_nil, or_false, not_or] at hother
    simp [hostFields, hother] at hfield
  simp only [List.mem_cons, List.not_mem_nil, or_false] at hcategory
  rcases hcategory with rfl | rfl | rfl | rfl | rfl | rfl
  · obtain rfl := List.mem_singleton.mp hfield
    exact @telemetryUnknown_of_missing "cpu" key "system_cpu" _ (by simp [conditionDomains])
      (fun h => Bool.false_ne_true (hfalse.symm.trans (hcpu.mp h))) (by decide +kernel)
  · obtain rfl := List.mem_singleton.mp hfield
    exact @telemetryUnknown_of_missing "memory" key "system" _ (by simp [conditionDomains])
      (fun h => Bool.false_ne_true (hfalse.symm.trans (hsystem.mp h))) (by decide +kernel)
  · obtain rfl := List.mem_singleton.mp hfield
    exact @telemetryUnknown_of_missing "swap" key "system" _ (by simp [conditionDomains])
      (fun h => Bool.false_ne_true (hfalse.symm.trans (hsystem.mp h))) (by decide +kernel)
  · obtain rfl := List.mem_singleton.mp hfield
    exact @telemetryUnknown_of_missing "disk" key "system" _ (by simp [conditionDomains])
      (fun h => Bool.false_ne_true (hfalse.symm.trans (hsystem.mp h))) (by decide +kernel)
  · by_cases hmemoryKey : key = "pressure:memory"
    · subst hmemoryKey
      obtain rfl := List.mem_singleton.mp hfield
      exact @telemetryUnknown_of_missing "pressure" _ "pressure:memory" _
        (by simp [conditionDomains])
        (fun h => Bool.false_ne_true (hfalse.symm.trans (hmemory.mp h))) (by decide +kernel)
    · by_cases hioKey : key = "pressure:io"
      · subst hioKey
        obtain rfl := List.mem_singleton.mp hfield
        exact @telemetryUnknown_of_missing "pressure" _ "pressure:io" _
          (by simp [conditionDomains])
          (fun h => Bool.false_ne_true (hfalse.symm.trans (hio.mp h))) (by decide +kernel)
      · simp [hostFields, hmemoryKey, hioKey] at hfield
  · obtain rfl := List.mem_singleton.mp hfield
    exact @telemetryUnknown_of_missing "gpu_processes" key "gpu_processes" _
      (by simp [conditionDomains])
      (fun h => Bool.false_ne_true (hfalse.symm.trans (hprocesses.mp h).2)) (by decide +kernel)

theorem reportedFor.mono {identity : String} {field other : GpuMetrics → Bool}
    (hle : ∀ gpu, field gpu = true → other gpu = true) (h : reportedFor result identity field) :
    reportedFor result identity other := by
  obtain ⟨gpu, hgpu, hidentity, hfield⟩ := h
  exact ⟨gpu, hgpu, hidentity, hle gpu hfield⟩

/-- A device with a memory share reports both numbers. -/
theorem reported_of_gpuMemoryPct {gpu : GpuMetrics} (h : (gpuMemoryPct gpu).isSome = true) :
    gpu.memoryUsedMib.isSome = true ∧ gpu.memoryTotalMib.isSome = true := by
  unfold gpuMemoryPct at h
  split at h
  · next hused htotal => simp [hused, htotal]
  · cases h

/-- The conditions derived from fields of the health block for which the table has no domain. -/
def uncoveredCategories : List String := ["gpu_memory_repair", "gpu_slowdown"]

/-- The table knows a condition of a device only when the sample reports its fields, except for
those derived from the health block without a domain of their own: for them it suffices that
some device of the identity reports a health block. -/
theorem telemetryUnknown_of_gpuFields (honline : result.status = .online)
    (hlisted : gpuQueryFailed result = true ∨ reportedFor result (partitionTail key) fun _ => true)
    (h : ∃ field ∈ gpuFields category, ¬ reportedFor result (partitionTail key) field)
    (hcovered : category ∈ uncoveredCategories →
      gpuQueryFailed result = true ∨ ¬ reportedFor result (partitionTail key) (·.health.isSome)) :
    telemetryUnknown category key (observedDomains result) = true := by
  obtain ⟨hpresent, htemperature, hmemory, hutilization, hhealth, hecc⟩ :=
    mem_deviceDomains honline (partitionTail key)
  obtain ⟨-, -, -, -, hinventory, -⟩ := mem_hostDomains honline
  obtain ⟨field, hfield, hmissing⟩ := h
  -- The device is listed unless the query failed, so its domains are not frozen by absence.
  have hunknown : ∀ name ∈ perIdentityGpuDomains,
      name ++ ":" ++ partitionTail key ∈ conditionDomains category key →
      name ++ ":" ++ partitionTail key ∉ observedDomains result →
      telemetryUnknown category key (observedDomains result) = true := by
    intro name hname hmem hnot
    have hnames : ∀ name ∈ perIdentityGpuDomains, ':' ∉ name.toList := by decide
    refine telemetryUnknown_of_missing_device hmem hnot fun hin => ?_
    rw [partitionTail_append name _ (hnames name hname)]
    have hok := hinventory.mp hin
    exact hpresent.mpr ⟨hok, hlisted.resolve_left fun h => by
      rw [hok] at h
      cases h⟩
  have hcategory : category ∈ ["gpu_temperature", "gpu_memory", "gpu_idle_memory", "gpu_ecc",
      "gpu_memory_repair", "gpu_slowdown"] := by
    by_contra hother
    simp only [List.mem_cons, List.not_mem_nil, or_false, not_or] at hother
    simp [gpuFields, hother] at hfield
  have hsecond : ∀ first second : String, ∀ rest : List String,
      second ∈ first :: second :: rest := fun _ _ _ =>
    List.mem_cons_of_mem _ List.mem_cons_self
  have hhealthMissing : category ∈ uncoveredCategories →
      "gpu_health:" ++ partitionTail key ∉ observedDomains result := by
    intro huncovered hin
    obtain ⟨hok, hreported⟩ := hhealth.mp hin
    rcases hcovered huncovered with hfailed | hnone
    · rw [hok] at hfailed
      cases hfailed
    · exact hnone hreported
  simp only [List.mem_cons, List.not_mem_nil, or_false] at hcategory
  rcases hcategory with rfl | rfl | rfl | rfl | rfl | rfl
  · obtain rfl := List.mem_singleton.mp hfield
    exact hunknown "gpu_temperature" (by decide) (hsecond ..) fun h =>
      hmissing (htemperature.mp h).2
  · refine hunknown "gpu_memory" (by decide) (hsecond ..) fun h => hmissing ?_
    rcases List.mem_cons.mp hfield with rfl | hfield
    · exact (hmemory.mp h).2.mono fun gpu hgpu => (reported_of_gpuMemoryPct hgpu).1
    · obtain rfl := List.mem_singleton.mp hfield
      exact (hmemory.mp h).2.mono fun gpu hgpu => (reported_of_gpuMemoryPct hgpu).2
  · rcases List.mem_cons.mp hfield with rfl | hfield
    · exact hunknown "gpu_memory" (by decide) (hsecond ..) fun h => hmissing
        ((hmemory.mp h).2.mono fun gpu hgpu => (reported_of_gpuMemoryPct hgpu).1)
    · rcases List.mem_cons.mp hfield with rfl | hfield
      · exact hunknown "gpu_memory" (by decide) (hsecond ..) fun h => hmissing
          ((hmemory.mp h).2.mono fun gpu hgpu => (reported_of_gpuMemoryPct hgpu).2)
      · obtain rfl := List.mem_singleton.mp hfield
        exact hunknown "gpu_utilization" (by decide)
          (List.mem_cons_of_mem _ (hsecond ..)) fun h => hmissing (hutilization.mp h).2
  · obtain rfl := List.mem_singleton.mp hfield
    exact hunknown "gpu_ecc" (by decide) (hsecond ..) fun h => hmissing (hecc.mp h).2
  · exact hunknown "gpu_health" (by decide) (hsecond ..) (hhealthMissing (by decide))
  · exact hunknown "gpu_health" (by decide) (hsecond ..) (hhealthMissing (by decide))

/-- For a condition without a domain of its own, a listed device with a health block is
enough. -/
theorem telemetryUnknown_uncovered (honline : result.status = .online)
    (hcategory : category ∈ uncoveredCategories) (hok : gpuQueryFailed result = false)
    (hreported : reportedFor result (partitionTail key) (·.health.isSome)) :
    telemetryUnknown category key (observedDomains result) = false := by
  obtain ⟨hpresent, -, -, -, hhealth, -⟩ := mem_deviceDomains honline (partitionTail key)
  have hdomains : conditionDomains category key
      = ["gpu_present:" ++ partitionTail key, "gpu_health:" ++ partitionTail key] := by
    simp only [uncoveredCategories, List.mem_cons, List.not_mem_nil, or_false] at hcategory
    rcases hcategory with rfl | rfl
    · rfl
    · rfl
  have hin := hpresent.mpr ⟨hok, hreported.mono fun _ _ => rfl⟩
  have hin' := hhealth.mpr ⟨hok, hreported⟩
  simp [telemetryUnknown, hdomains, hin, hin']

/-! ### Recoveries -/

namespace IncidentTracker

/-- The recovery of an active condition stands still: the condition stays active, no resolution
is created, and its count does not grow. -/
def RecoveryStands (tracker tracker' : IncidentTracker) (created : List IncidentEvent)
    (host key : String) : Prop :=
  (∀ event ∈ created, event.condition.key = key → event.state ≠ .resolved)
    ∧ ((rowOf tracker'.active host).get? key).isSome = true
    ∧ (rowOf tracker'.recoveries host).getD key 0 ≤ (rowOf tracker.recoveries host).getD key 0

/-- The recovery of an active condition stands still unless the sample is an authoritative
absence. -/
theorem recoveryStands_iff {epochSeconds : String → Option ℚ} {tracker tracker' : IncidentTracker}
    {created : List IncidentEvent} {host key : String} {reading : Reading}
    {old : IncidentCondition} {openedAt lastObservedAt : String} {recovery : Option ℕ}
    {change : Option SeverityChange}
    (hcell : tracker.cell host key
      = (Lifecycle.active old openedAt lastObservedAt recovery change).render)
    (hcell' : tracker'.cell host key = ((Lifecycle.active old openedAt lastObservedAt recovery
      change).step epochSeconds reading).1.render)
    (hcreated : ∀ state, (∃ event ∈ created, event.condition.key = key ∧ event.state = state)
      ↔ ∃ transition ∈ ((Lifecycle.active old openedAt lastObservedAt recovery change).step
          epochSeconds reading).2, transition.1 = state) :
    RecoveryStands tracker tracker' created host key
      ↔ reading.authoritative epochSeconds old.category openedAt = false := by
  have hrecovery : (rowOf tracker.recoveries host).get? key = recovery :=
    congrArg ConditionCell.recovery hcell
  have hactive' := congrArg ConditionCell.active hcell'
  have hrecovery' := congrArg ConditionCell.recovery hcell'
  rw [Lifecycle.render_active] at hactive'
  have hnone : (∀ event ∈ created, event.condition.key = key → event.state ≠ .resolved)
      ↔ ¬ ∃ transition ∈ ((Lifecycle.active old openedAt lastObservedAt recovery change).step
          epochSeconds reading).2, transition.1 = .resolved := by
    rw [← hcreated]
    push Not
    rfl
  change (rowOf tracker'.active host).get? key = _ at hactive'
  change (rowOf tracker'.recoveries host).get? key = _ at hrecovery'
  unfold RecoveryStands
  rw [hnone, hactive', Dict.getD_eq, Dict.getD_eq, hrecovery, hrecovery']
  cases hobserved : reading.observed with
  | some new =>
    have hnot : reading.authoritative epochSeconds old.category openedAt = false := by
      simp [Reading.authoritative, Reading.absent, hobserved]
    simp only [Lifecycle.step, hobserved]
    obtain ⟨condition, change', heq, hchanges⟩ :=
      Lifecycle.seenActive_active epochSeconds old openedAt change new
    rw [heq]
    refine iff_of_true ⟨?_, rfl, Nat.zero_le _⟩ hnot
    rintro ⟨transition, htransition, hresolved⟩
    rcases hchanges transition htransition with hstate | hstate
    · rw [hresolved] at hstate
      cases hstate
    · rw [hresolved] at hstate
      cases hstate
  | none =>
    simp only [Lifecycle.step, hobserved]
    rw [Lifecycle.unseenActive_eq old openedAt lastObservedAt recovery hobserved]
    cases reading.authoritative epochSeconds old.category openedAt with
    | false => simp [Lifecycle.condition, Lifecycle.render]
    | true =>
      rw [if_pos rfl]
      split
      · simp [Lifecycle.condition]
      · simp [Lifecycle.condition, Lifecycle.render]

/-- A sample that does not report a field leaves the recovery of a condition derived from it
where it is, exactly when it shows the condition, is older than its opening, or the condition is
not one of the two that the health block covers as a whole while it reports one. -/
theorem recoveryStands_of_lacks_iff (epochSeconds : String → Option ℚ) (policy : IncidentPolicy)
    (historyPoints : ℕ) (historicalEvents : List IncidentEvent)
    (openIncidents : List OpenIncident) (samples : List Sample)
    (threshold : ThresholdIncidentPolicy) (setOrder : SetOrder) (result : ProbeResult) :
    ∃ events tracker created tracker',
      (init policy historyPoints historicalEvents openIncidents).runSamples epochSeconds samples
        = .ok (events, tracker)
      ∧ tracker.update epochSeconds threshold.toIncidentPolicy setOrder result
        = .ok (created, tracker')
      ∧ ∀ key old, (rowOf tracker.active result.host).get? key = some old →
          result.status = .online → Lacks result old.category key →
          ∃ openedAt, (rowOf tracker.openedAt result.host).get? key = some openedAt
            ∧ (RecoveryStands tracker tracker' created result.host key
              ↔ ((threshold.conditions result).get? key).isSome = true
                ∨ isDelayed (epochSeconds result.observedAt) (epochSeconds openedAt) = true
                ∨ old.category ∉ uncoveredCategories
                ∨ gpuQueryFailed result = true
                ∨ ¬ reportedFor result (partitionTail key) (·.health.isSome)) := by
  obtain ⟨events, tracker, created, tracker', hrun, hupdate, hkeys⟩ := run_update epochSeconds
    policy historyPoints historicalEvents openIncidents samples
    ⟨threshold.toIncidentPolicy, setOrder, result⟩
  refine ⟨events, tracker, created, tracker', hrun, hupdate, fun key old hold honline hlacks => ?_⟩
  obtain ⟨hcell, hcell', hcreated⟩ := hkeys key _ rfl
  generalize ((restoredFleet policy.recoveryCycles openIncidents result.host key).run
    epochSeconds (readingsFor samples result.host key)).1 = before at *
  have hcondition : before.condition = some old := by
    rw [← Lifecycle.render_active, ← hcell]
    exact hold
  cases before with
  | inactive candidate => cases hcondition
  | active condition openedAt lastObservedAt recovery change =>
    obtain rfl := Option.some.inj hcondition
    refine ⟨openedAt, congrArg ConditionCell.openedAt hcell, ?_⟩
    rw [recoveryStands_iff hcell hcell' hcreated]
    have hreading : (result.reading threshold.toIncidentPolicy key).authoritative epochSeconds
          condition.category openedAt
        = (((threshold.conditions result).get? key).isNone
          && !isDelayed (epochSeconds result.observedAt) (epochSeconds openedAt)
          && !telemetryUnknown condition.category key
            (ThresholdIncidentPolicy.observedDomains result)) := by
      simp [Reading.authoritative, Reading.absent, ProbeResult.reading, honline,
        ThresholdIncidentPolicy.toIncidentPolicy]
    have hunknown : telemetryUnknown condition.category key
          (ThresholdIncidentPolicy.observedDomains result) = true
        ↔ condition.category ∉ uncoveredCategories ∨ gpuQueryFailed result = true
          ∨ ¬ reportedFor result (partitionTail key) (·.health.isSome) := by
      constructor
      · intro hunknown
        by_contra hcovered
        push Not at hcovered
        obtain ⟨huncovered, hok, hreported⟩ := hcovered
        rw [telemetryUnknown_uncovered honline huncovered (Bool.eq_false_iff.mpr hok)
          hreported] at hunknown
        cases hunknown
      · intro hcovered
        rcases hlacks with hhost | ⟨hlisted, hgpu⟩
        · exact telemetryUnknown_of_hostFields honline hhost
        · exact telemetryUnknown_of_gpuFields honline hlisted hgpu fun huncovered =>
            hcovered.resolve_left fun h => h huncovered
    rw [hreading, ← hunknown]
    cases (threshold.conditions result).get? key <;> simp [or_iff_not_imp_left]

/-- A pending memory repair, open at startup. -/
private def pendingRepair : OpenIncident where
  host := "gpu-01"
  condition :=
    { key := "gpu_memory_repair:GPU-0", category := "gpu_memory_repair", resource := "GPU 0 memory",
      severity := .critical, value := none, threshold := none,
      observedAt := "2026-01-01T00:00:00Z" }
  openedAt := "2026-01-01T00:00:00Z"

/-- A sample whose health block reports that no row remapping is pending, and nothing about
retired pages. -/
private def withoutRetiredPages : ProbeResult where
  host := "gpu-01"
  status := .online
  latencyMs := 0
  observedAt := "2026-01-01T00:00:00Z"
  gpus := [{ index := 0, uuid := "GPU-0", name := "GPU", temperatureC := none,
             utilizationGpuPct := none, memoryTotalMib := none, memoryUsedMib := none,
             powerDrawW := none, health := some ⟨some 0, none, some false, none, none⟩ }]

/-- A policy without thresholds. -/
private def plainThresholds : ThresholdIncidentPolicy where
  thresholdValues := ∅
  expectedGpuCounts := ∅
  incidents := {}
  hostOverrides := ∅
  groupOverrides := ∅
  hostGroups := ∅

/-- The recovery of the pending repair advances although the retired pages are unknown. -/
theorem partial_health_advances :
    Lacks withoutRetiredPages "gpu_memory_repair" "gpu_memory_repair:GPU-0"
      ∧ ((init plainThresholds.toIncidentPolicy 10 [] [pendingRepair]).update (fun _ => some 0)
          plainThresholds.toIncidentPolicy ⟨id, List.Perm.refl⟩ withoutRetiredPages).map
            (fun updated => (rowOf updated.2.recoveries "gpu-01").get? "gpu_memory_repair:GPU-0")
        = .ok (some 1) := by
  refine ⟨Or.inr ⟨Or.inr ⟨_, List.mem_cons_self, by decide +kernel, rfl⟩, _, List.mem_cons_self,
    ?_⟩, by decide +kernel⟩
  rintro ⟨gpu, hgpu, -, hreported⟩
  obtain rfl := List.mem_singleton.mp hgpu
  cases hreported

end IncidentTracker

end Mocop
