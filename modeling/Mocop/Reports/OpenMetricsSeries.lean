import Mocop.Inventory.Document
import Mocop.Reports.OpenMetricsText
import Mathlib.Algebra.Order.BigOperators.Group.List
import Mathlib.Data.List.Flatten

/-!
# `Mocop.Reports.OpenMetricsSeries`: the exposition is well formed

For a snapshot of the store, rendering does not raise, a reader finds every sample again, no two
samples of a family share their labels, no family is declared twice, and the samples are no more
than the estimate that admits the snapshot (`exposition_wellFormed`).

The samples of a series come from the appends to it, so two facts about the appends carry the
result. Each append has a value that is missing or written (`Reading.Sound`). And the appends of a
host have one of 31 tags, those of a device one of 17, no tag twice: the series and, for the
pressure of the kernel, the resource. With the host and the index of the device in front, no two
appends of a snapshot agree (`nodup_slots`), and there are at most 31 for each host and 17 for
each device (`length_snapshotReadings_le`).
-/

set_option autoImplicit false

namespace Mocop.OpenMetrics

open Exposition (normalizeNewlines readSamples isName)
open PyDict (get)

/-! ### Snapshots of the store -/

/-- A snapshot of the store. Its integers are in the range of a double, its hosts are distinct
aliases, and the devices of a host have distinct indices. -/
structure IsSnapshot (snapshot : PyDict) : Prop where
  inRange : PyDict.InRange snapshot
  aliases : ∀ entry ∈ namedServers snapshot, isSafeAlias entry.1 = true
  distinctHosts : ((namedServers snapshot).map Prod.fst).Nodup
  distinctIndices : ∀ entry ∈ namedServers snapshot,
    ((namedGpus entry.2).map fun gpu => gpu.1.1).Nodup

/-! ### Every append has a value that is missing or written -/

/-- A value that is missing or written. -/
def Writes (value : Value) : Prop := ∃ number, value = .ok number ∧ ∀ n ∈ number, Shows n

/-- A float that is missing or finite. -/
def Finite (value : Except Raised (Option Float64)) : Prop :=
  ∃ number, value = .ok number ∧ ∀ x ∈ number, x.isFinite = true

/-- An integer is converted when it is in range. -/
theorem finite_metric {value : PyValue} (h : value.InRange) : Finite (metric value) := by
  cases h with
  | int value hvalue =>
    have hfinite := Float64.isFinite_ofInt hvalue
    have hfloat : toFloat value = .ok (Float64.ofRat value) := by simp [toFloat, hfinite]
    refine ⟨some (Float64.ofRat value), ?_, by simpa using hfinite⟩
    rw [metric, hfloat]
    show Except.ok (if (Float64.ofRat value).isFinite then _ else _) = _
    rw [if_pos hfinite]
  | float value =>
    cases hfinite : value.isFinite with
    | true => exact ⟨some value, by simp [metric, hfinite], by simpa using hfinite⟩
    | false => exact ⟨none, by simp [metric, hfinite], by simp⟩
  | none => exact ⟨none, rfl, by simp⟩
  | bool value => exact ⟨none, rfl, by simp⟩
  | str value => exact ⟨none, rfl, by simp⟩
  | list items hlength hitems => exact ⟨none, rfl, by simp⟩
  | dict members hmembers => exact ⟨none, rfl, by simp⟩

/-- A quotient of a finite metric is finite. -/
theorem finite_div {value : PyValue} (h : value.InRange) {divisor : ℕ} (hdivisor : 2 ≤ divisor) :
    Finite (do return (← metric value).map (·.div divisor)) := by
  obtain ⟨number, hnumber, hfinite⟩ := finite_metric h
  refine ⟨number.map (·.div divisor), by rw [hnumber]; rfl, ?_⟩
  intro x hx
  obtain ⟨y, hy, rfl⟩ := Option.mem_map.mp hx
  exact Float64.isFinite_div (hfinite y hy) hdivisor

/-- The bytes of a metric are dropped when they overflow. -/
theorem finite_mibAsBytes {value : PyValue} (h : value.InRange) : Finite (mibAsBytes value) := by
  obtain ⟨number, hnumber, -⟩ := finite_metric h
  rw [mibAsBytes, hnumber]
  cases number with
  | none => exact ⟨none, rfl, by simp⟩
  | some number =>
    cases hfinite : ((number.mul 1024).mul 1024).isFinite with
    | true =>
      refine ⟨some ((number.mul 1024).mul 1024), ?_, by simpa using hfinite⟩
      show Except.ok (if ((number.mul 1024).mul 1024).isFinite then _ else _) = _
      rw [if_pos hfinite]
    | false =>
      refine ⟨none, ?_, by simp⟩
      show Except.ok (if ((number.mul 1024).mul 1024).isFinite then _ else _) = _
      rw [hfinite]
      rfl

/-- A finite float is written. -/
theorem Finite.writes {value : Except Raised (Option Float64)} (h : Finite value) :
    Writes (floatValue value) := by
  obtain ⟨number, rfl, hfinite⟩ := h
  refine ⟨number.map PyNumber.float, rfl, ?_⟩
  intro n hn
  obtain ⟨x, hx, rfl⟩ := Option.mem_map.mp hn
  exact hfinite x hx

/-- Zero and one are written. -/
theorem writes_flagValue (flag : Bool) : Writes (flagValue flag) := by
  refine ⟨some (.int (if flag then 1 else 0)), rfl, ?_⟩
  intro n hn
  obtain rfl := Option.mem_some.mp hn
  have hlarge := Float64.large_doubleLimit
  refine Float64.isFinite_ofInt ?_
  cases flag with
  | false => simp; linarith
  | true => simp; linarith

/-- A missing value is none to write. -/
theorem writes_none : Writes (.ok none) := ⟨none, rfl, by simp⟩

/-- The truth values are written. -/
theorem writes_boolValue (value : PyValue) : Writes (boolValue value) := by
  cases value with
  | bool value => exact writes_flagValue value
  | _ => exact writes_none

/-- A count of processes is written. -/
theorem writes_processCount {gpu : PyDict} (h : PyDict.InRange gpu) :
    Writes (processCount gpu) := by
  have hprocesses := h.get "processes"
  rw [processCount]
  cases hvalue : get gpu "processes" with
  | list processes =>
    rw [hvalue] at hprocesses
    cases hprocesses with
    | list items hlength hitems =>
      cases havailable : (get gpu "processes_available").isTrue with
      | false => exact writes_none
      | true =>
        refine ⟨some (.int processes.length), rfl, ?_⟩
        intro n hn
        obtain rfl := Option.mem_some.mp hn
        exact Float64.isFinite_ofInt (by simpa using hlength)
  | _ => exact writes_none

variable {server snapshot : PyDict}

section
variable (timestamp : String → Option Double) (repr : PyValue → String)

/-- A timestamp is a finite float. -/
theorem writes_epochSeconds (value : PyValue) : Writes (epochSeconds timestamp value) := by
  cases value with
  | str value =>
    refine ⟨_, rfl, ?_⟩
    intro n hn
    obtain ⟨seconds, -, rfl⟩ := Option.mem_map.mp hn
    rfl
  | _ => exact writes_none

/-- An append whose value is missing or written, under labels with names. -/
def Reading.Sound {κ : Type} (reading : Reading κ) : Prop :=
  Named reading.labels ∧ Writes reading.value

variable {members : PyDict}

/-- The metric of a value in a dictionary in range. -/
theorem writes_metric (h : PyDict.InRange members) (name : String) :
    Writes (floatValue (metric (get members name))) :=
  (finite_metric (h.get name)).writes

/-- The ratio of a value in a dictionary in range. -/
theorem writes_ratio (h : PyDict.InRange members) (name : String) :
    Writes (floatValue (percentageAsRatio (get members name))) :=
  (finite_div (h.get name) (by omega)).writes

/-- The seconds of a value in a dictionary in range. -/
theorem writes_seconds (h : PyDict.InRange members) (name : String) :
    Writes (floatValue (secondsFromMilliseconds (get members name))) :=
  (finite_div (h.get name) (by omega)).writes

/-- The bytes of a value in a dictionary in range. -/
theorem writes_bytes (h : PyDict.InRange members) (name : String) :
    Writes (floatValue (mibAsBytes (get members name))) :=
  (finite_mibAsBytes (h.get name)).writes

/-- The labels of a host. -/
theorem named_host (host : String) : Named [("host", host)] := by
  simp [Named]
  decide

/-- The labels of a device. -/
theorem named_gpuLabels (host : String) (index : ℤ) (uuid : String) :
    Named (gpuLabels host index uuid) := by
  simp [Named, gpuLabels]
  decide

/-- The samples of a host are sound. -/
theorem sound_hostReadings (host : String) (h : PyDict.InRange server) :
    ∀ reading ∈ hostReadings host server, reading.Sound := by
  have hlabels := named_host host
  have hincidents : PyDict.InRange (get server "incidents").mapping :=
    (h.get "incidents").mapping
  have hinfo : ∀ group, Named [("host", host), ("mocop_group", group)] := by
    intro group
    simp [Named]
    decide
  simp only [hostReadings, List.forall_mem_cons, Reading.Sound, writes_flagValue, hlabels, hinfo,
    writes_metric h, writes_metric hincidents, writes_seconds h, and_self, true_and]
  simp

/-- The samples of a system are sound. -/
theorem sound_systemReadings (host : String) {system : PyDict} (h : PyDict.InRange system) :
    ∀ reading ∈ systemReadings host system, reading.Sound := by
  have hlabels := named_host host
  simp only [systemReadings, List.forall_mem_cons, Reading.Sound, hlabels, writes_metric h,
    writes_ratio h, writes_bytes h, and_self, true_and]
  simp

/-- The samples of a resource under pressure are sound. -/
theorem sound_pressureReadings (host : String) {pressure : PyDict} (h : PyDict.InRange pressure)
    (resource : String) : ∀ reading ∈ pressureReadings host pressure resource, reading.Sound := by
  have hsample := (h.get resource).mapping
  have hlabels : Named [("host", host), ("resource", resource)] := by
    simp [Named]
    decide
  rw [pressureReadings]
  cases hvalue : get pressure resource with
  | dict sample =>
    rw [hvalue] at hsample
    have hin : PyDict.InRange sample := hsample
    simp only [List.forall_mem_cons, Reading.Sound, hlabels, writes_ratio hin, and_self, true_and]
    simp
  | _ => simp

/-- The samples of a device are sound. -/
theorem sound_gpuReadings (host : String) (index : ℤ) (uuid : String) {gpu : PyDict}
    (h : PyDict.InRange gpu) :
    ∀ reading ∈ gpuReadings timestamp repr host index uuid gpu, reading.Sound := by
  have hlabels := named_gpuLabels host index uuid
  have hhealth : PyDict.InRange (get gpu "health").mapping := (h.get "health").mapping
  have hinfo : ∀ model driver mode, Named (gpuLabels host index uuid
      ++ [("model", model), ("driver", driver), ("mig_mode", mode)]) := by
    intro model driver mode
    simp [Named, gpuLabels]
    decide
  simp only [gpuReadings, List.forall_mem_cons, Reading.Sound, writes_flagValue, hlabels, hinfo,
    writes_metric h, writes_metric hhealth, writes_ratio h, writes_bytes h, writes_boolValue,
    writes_processCount h, writes_epochSeconds, and_self, true_and]
  simp

/-- The samples of the system of a server are sound. -/
theorem sound_currentReadings (host : String) (h : PyDict.InRange server) :
    ∀ reading ∈ currentReadings host server, reading.Sound := by
  have hsystem := (h.get "system").mapping
  rw [currentReadings]
  cases hvalue : get server "system" with
  | dict system =>
    rw [hvalue] at hsystem
    have hin : PyDict.InRange system := hsystem
    have hpressure := (hin.get "pressure").mapping
    intro reading hreading
    rcases List.mem_append.mp hreading with hmem | hmem
    · exact sound_systemReadings host hin reading hmem
    · cases hkernel : get system "pressure" with
      | dict pressure =>
        rw [hkernel] at hpressure hmem
        obtain ⟨resource, -, hresource⟩ := List.mem_flatMap.mp hmem
        exact sound_pressureReadings host hpressure resource reading hresource
      | _ => simp [hkernel] at hmem
  | _ => simp

/-- A device of a server in range is in range. -/
theorem inRange_of_mem_namedGpus (h : PyDict.InRange server) {entry : (ℤ × String) × PyDict}
    (hentry : entry ∈ namedGpus server) :
    PyDict.InRange entry.2 := by
  obtain ⟨value, hvalue, hsome⟩ := List.mem_filterMap.mp hentry
  have hrange : value.InRange := (h.get "gpus").items value hvalue
  cases value with
  | dict gpu =>
    have hgpu := hrange.mapping
    cases hindex : get gpu "index" <;> cases huuid : get gpu "uuid" <;>
      simp [namedGpu, hindex, huuid] at hsome
    rw [← hsome]
    exact hgpu
  | _ => simp [namedGpu] at hsome

/-- A server of a snapshot in range is in range. -/
theorem inRange_of_mem_namedServers (h : PyDict.InRange snapshot) {entry : String × PyDict}
    (hentry : entry ∈ namedServers snapshot) :
    PyDict.InRange entry.2 := by
  obtain ⟨value, hvalue, hsome⟩ := List.mem_filterMap.mp hentry
  have hrange : value.InRange := (h.get "servers").items value hvalue
  cases value with
  | dict server =>
    have hserver := hrange.mapping
    cases hhost : get server "host" <;> simp [namedServer, hhost] at hsome
    rw [← hsome]
    exact hserver
  | _ => simp [namedServer] at hsome

/-- The samples of a server are sound. -/
theorem sound_serverReadings (host : String) (h : PyDict.InRange server) :
    ∀ reading ∈ serverReadings timestamp repr host server, reading.Sound := by
  intro reading hreading
  rcases List.mem_append.mp hreading with hmem | hmem
  · exact sound_hostReadings host h reading hmem
  · split at hmem
    · rcases List.mem_append.mp hmem with hsystem | hgpu
      · exact sound_currentReadings host h reading hsystem
      · obtain ⟨entry, hentry, hreading⟩ := List.mem_flatMap.mp hgpu
        exact sound_gpuReadings timestamp repr host _ _ (inRange_of_mem_namedGpus h hentry)
          reading hreading
    · simp at hmem

/-- The samples of a snapshot are sound. -/
theorem sound_snapshotReadings (h : PyDict.InRange snapshot) :
    ∀ reading ∈ snapshotReadings timestamp repr snapshot, reading.Sound := by
  intro reading hreading
  obtain ⟨entry, hentry, hmem⟩ := List.mem_flatMap.mp hreading
  exact sound_serverReadings timestamp repr entry.1 (inRange_of_mem_namedServers h hentry)
    reading hmem

/-- The single samples are sound. -/
theorem sound_singleReadings (h : PyDict.InRange snapshot) :
    ∀ reading ∈ singleReadings timestamp repr snapshot, reading.Sound := by
  have hnone : Named [] := by simp [Named]
  have hstats : PyDict.InRange (get snapshot "stats").mapping := (h.get "stats").mapping
  have hcomponent : ∀ key, PyDict.InRange (get snapshot key).mapping :=
    fun key => (h.get key).mapping
  have hversion : ∀ version, Named [("version", version)] := by
    intro version
    simp [Named]
    decide
  have hbuild : Writes (.ok (if (get snapshot "appVersion").isNone then none
      else some (.int 1))) := by
    cases (get snapshot "appVersion").isNone with
    | true => exact writes_none
    | false => exact writes_flagValue true
  have hcluster : ∀ reading ∈ clusterReadings snapshot, reading.Sound := by
    intro reading hreading
    rcases List.mem_append.mp hreading with hmem | hmem
    · obtain ⟨family, -, rfl⟩ := List.mem_map.mp hmem
      exact ⟨hnone, writes_metric hstats _⟩
    · rcases List.mem_cons.mp hmem with rfl | hlast
      · exact ⟨hnone, writes_bytes hstats _⟩
      · rw [List.mem_singleton.mp hlast]
        exact ⟨hnone, writes_bytes hstats _⟩
  simp only [singleReadings, List.forall_mem_append, monitorReadings, componentReadings,
    queueReadings, List.forall_mem_cons, Reading.Sound, hnone, hversion, hbuild,
    writes_flagValue, writes_metric h, writes_metric (hcomponent _), writes_seconds h,
    writes_epochSeconds, and_self, true_and]
  simpa [Reading.Sound] using hcluster

end

/-! ### What is collected -/

/-- The series and the labels of an append, as a reader finds them. -/
def Reading.slot {κ : Type} (reading : Reading κ) : κ × Labels :=
  (reading.key, normalized reading.labels)

/-- The series and the labels of a sample, as a reader finds them. -/
def slotOf {κ : Type} (entry : κ × Sample) : κ × Labels := (entry.1, normalized entry.2.labels)

/-- Sound appends are collected: some of them, in order, each with a value that is written. -/
theorem exists_collect {κ : Type} (readings : List (Reading κ))
    (h : ∀ reading ∈ readings, reading.Sound) :
    ∃ samples, collect readings = .ok samples
      ∧ (samples.map slotOf).Sublist (readings.map Reading.slot)
      ∧ ∀ entry ∈ samples, Named entry.2.labels ∧ Shows entry.2.value := by
  induction readings with
  | nil => exact ⟨[], rfl, .slnil, by simp⟩
  | cons reading readings ih =>
    obtain ⟨samples, hsamples, hslots, hshapes⟩ :=
      ih fun r hr => h r (List.mem_cons_of_mem _ hr)
    obtain ⟨hnamed, value, hvalue, hshows⟩ := h reading (by simp)
    -- What is collected of the others comes after the sample of the first, if it has one.
    have hcollect : collect (reading :: readings)
        = .ok ((value.map fun value => (reading.key, Sample.mk reading.labels value)).toList
          ++ samples) := by
      simp only [collect, List.mapM_cons, hvalue] at hsamples ⊢
      cases hrest : readings.mapM fun reading => do
          return (← reading.value).map fun value =>
            (reading.key, Sample.mk reading.labels value) with
      | error raised =>
        rw [hrest] at hsamples
        exact absurd hsamples (by simp [bind, Except.bind])
      | ok rest =>
        rw [hrest] at hsamples
        have hfilter : rest.filterMap (fun entry => entry) = samples := by
          simpa [bind, Except.bind, pure, Except.pure] using hsamples
        cases value <;> simp [bind, Except.bind, pure, Except.pure, hfilter]
    refine ⟨_, hcollect, ?_, ?_⟩
    · cases value with
      | none => exact .cons _ hslots
      | some value => exact .cons_cons _ hslots
    · intro entry hentry
      rcases List.mem_append.mp hentry with hfirst | hlater
      · obtain ⟨value, hmem, rfl⟩ := Option.mem_map.mp (Option.mem_toList.mp hfirst)
        exact ⟨hnamed, hshows value hmem⟩
      · exact hshapes entry hlater

/-! ### No two appends of a snapshot agree -/

/-- A text with its line ends normalised. -/
def normText (text : String) : String := String.ofList (normalizeNewlines text.toList)

/-- The value of a label after the normalisation. -/
theorem lookup_normalized (labels : Labels) (name : String) :
    (normalized labels).lookup name = (labels.lookup name).map normText := by
  induction labels with
  | nil => rfl
  | cons label labels ih =>
    obtain ⟨key, value⟩ := label
    by_cases hkey : name = key
    · subst hkey
      simp [normalized, normText]
    · have hne : (name == key) = false := by simpa using hkey
      simpa [normalized, List.lookup_cons, hne] using ih

/-- A text without carriage returns is normalised. -/
theorem normalizeNewlines_of_not_mem {text : List Char} (h : '\r' ∉ text) :
    normalizeNewlines text = text := by
  induction text with
  | nil => rfl
  | cons c text ih =>
    have hne : c ≠ '\r' := fun heq => h (by simp [heq])
    have hrest := ih fun hmem => h (List.mem_cons_of_mem _ hmem)
    rw [Exposition.normalizeNewlines_cons hne, hrest]

/-- An alias is normalised. -/
theorem normText_of_isSafeAlias {host : String} (h : isSafeAlias host = true) :
    normText host = host := by
  have hchars : ∀ c ∈ host.toList, isAliasChar c = true := by
    intro c hc
    cases hhost : host.toList with
    | nil => simp [hhost] at hc
    | cons first rest =>
      simp only [isSafeAlias, hhost, Bool.and_eq_true, List.all_eq_true] at h
      rcases List.mem_cons.mp (hhost ▸ hc) with rfl | hrest
      · simp [isAliasChar, h.1.1]
      · exact h.1.2 c hrest
  have hreturn : '\r' ∉ host.toList := fun hmem => absurd (hchars _ hmem) (by decide)
  rw [normText, normalizeNewlines_of_not_mem hreturn, String.ofList_toList]

/-- The text of an integer is normalised. -/
theorem normText_intText (value : ℤ) :
    normText (String.ofList (intText value)) = String.ofList (intText value) := by
  have hdigits : '\r' ∉ Nat.toDigits 10 value.natAbs := by
    intro hmem
    have hdigit := Nat.isDigit_of_mem_toDigits (b := 10) (by omega) (by omega) hmem
    exact absurd hdigit (by decide)
  have hreturn : '\r' ∉ intText value := by
    rw [intText]
    split_ifs
    · simpa using hdigits
    · exact hdigits
  rw [normText, String.toList_ofList, normalizeNewlines_of_not_mem hreturn]

/-- Two integers with one text are equal. -/
theorem intText_injective {a b : ℤ}
    (h : String.ofList (intText a) = String.ofList (intText b)) : a = b := by
  have htext : intText a = intText b := by simpa using congrArg String.toList h
  have ha := (reads_intText a).1
  rw [htext, (reads_intText b).1, Option.some.injEq] at ha
  exact_mod_cast ha.symm

/-- The series of an append of a host, and the resource under pressure. -/
def hostTag (slot : Series × Labels) : Series × Option String :=
  (slot.1, slot.2.lookup "resource")

/-- The tags of series that a host has once. -/
def plainTags (series : List HostSeries) : List (Series × Option String) :=
  series.map fun series => (.host series, none)

/-- The tags of the resources under pressure. -/
def pressureTags : List (Series × Option String) :=
  ["cpu", "memory", "io"].flatMap fun resource =>
    [(.host .pressureSome, some resource), (.host .pressureFull, some resource)]

/-- The tags of the samples that every host has. -/
def alwaysTags : List (Series × Option String) :=
  plainTags [.info, .up, .stale, .maintenance, .polling, .failures, .incidents,
    .criticalIncidents, .actionableIncidents, .actionableCriticalIncidents, .latency,
    .transportRetried]

/-- The tags of the samples of a system. -/
def systemTags : List (Series × Option String) :=
  plainTags [.cpu, .load, .uptime, .memoryTotal, .memoryUsed, .swapTotal, .swapUsed, .diskTotal,
    .diskUsed, .networkRx, .networkTx, .diskRead, .diskWrite]

/-- The tags of the appends of a host. -/
def hostTags : List (Series × Option String) := alwaysTags ++ (systemTags ++ pressureTags)

/-- The series of the appends of a device. -/
def gpuTags : List Series :=
  ([.info, .utilization, .memoryTotal, .memoryUsed, .memoryFree, .temperature, .powerDraw,
    .powerLimit, .processes, .processesAvailable, .processesSampled, .processesObservedAt, .ecc,
    .retiredPages, .remappedRows, .thermalSlowdown, .powerBrake] : List GpuSeries).map .gpu

section
variable (timestamp : String → Option Double) (repr : PyValue → String)

/-- The appends of a host without those of its devices. -/
def hostPart (host : String) (server : PyDict) : List (Reading Series) :=
  hostReadings host server ++ if isCurrent server then currentReadings host server else []

/-- The appends of the devices of a host. -/
def gpuPart (host : String) (server : PyDict) : List (Reading Series) :=
  if isCurrent server then
    (namedGpus server).flatMap fun entry =>
      gpuReadings timestamp repr host entry.1.1 entry.1.2 entry.2
  else []

/-- The appends of a server. -/
theorem serverReadings_eq (host : String) (server : PyDict) :
    serverReadings timestamp repr host server
      = hostPart host server ++ gpuPart timestamp repr host server := by
  cases hcurrent : isCurrent server <;> simp [serverReadings, hostPart, gpuPart, hcurrent]

/-- Each append of a host has a tag of its own. -/
theorem hostTags_sublist (host : String) (server : PyDict) :
    ((hostPart host server).map fun reading => hostTag reading.slot).Sublist hostTags := by
  have hresource : ∀ resource, (normalized [("host", host), ("resource", resource)]).lookup
      "resource" = some (normText resource) := by
    intro resource
    rw [lookup_normalized]
    simp [List.lookup_cons]
  have hnone : (normalized [("host", host)]).lookup "resource" = none := by
    rw [lookup_normalized]
    simp [List.lookup_cons]
  have hgroup : ∀ group, (normalized [("host", host), ("mocop_group", group)]).lookup
      "resource" = none := by
    intro group
    rw [lookup_normalized]
    simp [List.lookup_cons]
  have halways : (hostReadings host server).map (fun reading => hostTag reading.slot)
      = alwaysTags := by
    simp [hostReadings, hostTag, Reading.slot, hnone, hgroup, alwaysTags, plainTags]
  have hsystem : ∀ system, (systemReadings host system).map (fun reading => hostTag reading.slot)
      = systemTags := by
    intro system
    simp [systemReadings, hostTag, Reading.slot, hnone, systemTags, plainTags]
  have hpressure : ∀ pressure, ((["cpu", "memory", "io"].flatMap
      (pressureReadings host pressure)).map fun reading => hostTag reading.slot).Sublist
        pressureTags := by
    intro pressure
    rw [List.map_flatMap, pressureTags]
    refine List.Sublist.flatMap_right _ ?_
    intro resource hresources
    have hkept : normText resource = resource := by
      have hall : ∀ r ∈ ["cpu", "memory", "io"], normText r = r := by decide
      exact hall resource hresources
    cases hsample : get pressure resource with
    | dict sample => simp [pressureReadings, hsample, hostTag, Reading.slot, hresource, hkept]
    | _ => simp [pressureReadings, hsample]
  have hcurrent : ((currentReadings host server).map fun reading => hostTag reading.slot).Sublist
      (systemTags ++ pressureTags) := by
    cases hvalue : get server "system" with
    | dict system =>
      cases hkernel : get system "pressure" with
      | dict pressure =>
        simp only [currentReadings, hvalue, hkernel, List.map_append, hsystem]
        exact (hpressure pressure).append_left _
      | _ => simp [currentReadings, hvalue, hkernel, hsystem]
    | _ => simp [currentReadings, hvalue]
  rw [hostPart, List.map_append, halways, hostTags]
  refine List.Sublist.append_left ?_ _
  split
  · exact hcurrent
  · exact List.nil_sublist _

/-- No two appends of a host agree. -/
theorem nodup_hostPart (host : String) (server : PyDict) :
    ((hostPart host server).map Reading.slot).Nodup := by
  have hnodup : hostTags.Nodup := by decide
  refine List.Nodup.of_map hostTag ?_
  rw [List.map_map]
  exact (hostTags_sublist host server).nodup hnodup

/-- Each append of a device has a series of its own. -/
theorem key_gpuReadings (host : String) (index : ℤ) (uuid : String) (gpu : PyDict) :
    (gpuReadings timestamp repr host index uuid gpu).map Reading.key = gpuTags := by
  simp [gpuReadings, gpuTags]

/-- No two appends of a device agree. -/
theorem nodup_gpuReadings (host : String) (index : ℤ) (uuid : String) (gpu : PyDict) :
    ((gpuReadings timestamp repr host index uuid gpu).map Reading.slot).Nodup := by
  have hnodup : gpuTags.Nodup := by decide
  refine List.Nodup.of_map Prod.fst ?_
  rw [List.map_map]
  show ((gpuReadings timestamp repr host index uuid gpu).map Reading.key).Nodup
  rw [key_gpuReadings]
  exact hnodup

/-- The index of an append of a device. -/
theorem lookup_index (host : String) (index : ℤ) (uuid : String) (gpu : PyDict) :
    ∀ slot ∈ (gpuReadings timestamp repr host index uuid gpu).map Reading.slot,
      slot.2.lookup "index" = some (String.ofList (intText index)) := by
  have hlabels : ∀ more, (normalized (gpuLabels host index uuid ++ more)).lookup "index"
      = some (String.ofList (intText index)) := by
    intro more
    rw [lookup_normalized]
    simp [gpuLabels, List.lookup_cons, normText_intText]
  have hplain := hlabels []
  rw [List.append_nil] at hplain
  simp [gpuReadings, Reading.slot, hplain, hlabels]

/-- The host of an append of a host. -/
theorem lookup_host_hostPart (host : String) (server : PyDict) :
    ∀ reading ∈ hostPart host server, reading.labels.lookup "host" = some host := by
  have halways : ∀ reading ∈ hostReadings host server,
      reading.labels.lookup "host" = some host := by
    simp [hostReadings]
  have hsystem : ∀ system, ∀ reading ∈ systemReadings host system,
      reading.labels.lookup "host" = some host := by
    intro system
    simp [systemReadings]
  have hresource : ∀ pressure resource, ∀ reading ∈ pressureReadings host pressure resource,
      reading.labels.lookup "host" = some host := by
    intro pressure resource
    cases hsample : get pressure resource with
    | dict sample => simp [pressureReadings, hsample]
    | _ => simp [pressureReadings, hsample]
  have hcurrent : ∀ reading ∈ currentReadings host server,
      reading.labels.lookup "host" = some host := by
    intro reading hreading
    cases hvalue : get server "system" with
    | dict system =>
      simp only [currentReadings, hvalue] at hreading
      rcases List.mem_append.mp hreading with hmem | hmem
      · exact hsystem system reading hmem
      · cases hkernel : get system "pressure" with
        | dict pressure =>
          simp only [hkernel] at hmem
          obtain ⟨resource, -, hmem⟩ := List.mem_flatMap.mp hmem
          exact hresource pressure resource reading hmem
        | _ => simp [hkernel] at hmem
    | _ => simp [currentReadings, hvalue] at hreading
  intro reading hreading
  rcases List.mem_append.mp hreading with hmem | hmem
  · exact halways reading hmem
  · split at hmem
    · exact hcurrent reading hmem
    · simp at hmem

/-- The host of an append of a server. -/
theorem lookup_host (host : String) (server : PyDict) :
    ∀ reading ∈ serverReadings timestamp repr host server,
      reading.labels.lookup "host" = some host := by
  have hdevice : ∀ index uuid gpu, ∀ reading ∈ gpuReadings timestamp repr host index uuid gpu,
      reading.labels.lookup "host" = some host := by
    intro index uuid gpu
    simp [gpuReadings, gpuLabels]
  intro reading hreading
  rw [serverReadings_eq] at hreading
  rcases List.mem_append.mp hreading with hmem | hmem
  · exact lookup_host_hostPart host server reading hmem
  · rw [gpuPart] at hmem
    split at hmem
    · obtain ⟨entry, -, hgpu⟩ := List.mem_flatMap.mp hmem
      exact hdevice _ _ _ reading hgpu
    · simp at hmem

/-- No two appends of the devices of a host agree. -/
theorem nodup_gpuPart (host : String) (h : ((namedGpus server).map fun gpu => gpu.1.1).Nodup) :
    ((gpuPart timestamp repr host server).map Reading.slot).Nodup := by
  rw [gpuPart]
  split
  · rw [List.map_flatMap, List.nodup_flatMap]
    refine ⟨fun entry _ => nodup_gpuReadings timestamp repr host _ _ _, ?_⟩
    refine (List.pairwise_map.mp h).imp fun {a b} hne slot ha hb => hne ?_
    -- A common slot would have both indices.
    have hindex := lookup_index timestamp repr host a.1.1 a.1.2 a.2 slot ha
    rw [lookup_index timestamp repr host b.1.1 b.1.2 b.2 slot hb, Option.some.injEq] at hindex
    exact intText_injective hindex.symm
  · simp

/-- Whether a series is one of a host. -/
def isHostSeries : Series → Bool
  | .host _ => true
  | .gpu _ => false

/-- No two appends of a server agree. -/
theorem nodup_serverReadings (host : String)
    (h : ((namedGpus server).map fun gpu => gpu.1.1).Nodup) :
    ((serverReadings timestamp repr host server).map Reading.slot).Nodup := by
  have hhosts : ∀ tag ∈ hostTags, isHostSeries tag.1 = true := by decide
  have hgpus : ∀ series ∈ gpuTags, isHostSeries series = false := by decide
  rw [serverReadings_eq, List.map_append]
  refine List.Nodup.append (nodup_hostPart host server)
    (nodup_gpuPart timestamp repr host h) ?_
  -- The series of the one are not those of the other.
  intro slot hhost hgpu
  have hmem : hostTag slot ∈ hostTags := by
    obtain ⟨reading, hreading, rfl⟩ := List.mem_map.mp hhost
    exact (hostTags_sublist host server).subset (List.mem_map_of_mem hreading)
  have hseries : slot.1 ∈ gpuTags := by
    obtain ⟨reading, hreading, rfl⟩ := List.mem_map.mp hgpu
    rw [gpuPart] at hreading
    split at hreading
    · obtain ⟨entry, -, hentry⟩ := List.mem_flatMap.mp hreading
      rw [← key_gpuReadings timestamp repr host entry.1.1 entry.1.2 entry.2]
      exact List.mem_map_of_mem hentry
    · simp at hreading
  have htrue := hhosts _ hmem
  have hfalse := hgpus _ hseries
  rw [hostTag, hfalse] at htrue
  exact Bool.false_ne_true htrue

/-- No two appends of a snapshot agree. -/
theorem nodup_slots (h : IsSnapshot snapshot) :
    ((snapshotReadings timestamp repr snapshot).map Reading.slot).Nodup := by
  rw [snapshotReadings, List.map_flatMap, List.nodup_flatMap]
  refine ⟨fun entry hentry => nodup_serverReadings timestamp repr entry.1
    (h.distinctIndices entry hentry), ?_⟩
  have hslot : ∀ entry ∈ namedServers snapshot,
      ∀ slot ∈ (serverReadings timestamp repr entry.1 entry.2).map Reading.slot,
        slot.2.lookup "host" = some entry.1 := by
    intro entry hentry slot hmem
    obtain ⟨reading, hreading, rfl⟩ := List.mem_map.mp hmem
    rw [Reading.slot, lookup_normalized, lookup_host timestamp repr _ _ reading hreading,
      Option.map_some, normText_of_isSafeAlias (h.aliases entry hentry)]
  refine (List.pairwise_map.mp h.distinctHosts).imp_of_mem fun {a b} ha hb hne slot hsa hsb => ?_
  -- A common slot would have both hosts.
  have hhost := hslot a ha slot hsa
  rw [hslot b hb slot hsb, Option.some.injEq] at hhost
  exact hne hhost.symm

/-! ### The count of appends -/

/-- The appends of a server: at most 31 and 17 for each device. -/
theorem length_serverReadings_le (host : String) (server : PyDict) :
    (serverReadings timestamp repr host server).length
      ≤ 31 + 17 * (get server "gpus").items.length := by
  have hhost : (hostPart host server).length ≤ 31 := by
    have hsub := (hostTags_sublist host server).length_le
    have hcount : hostTags.length = 31 := rfl
    rwa [List.length_map, hcount] at hsub
  have hdevice : ∀ entry : (ℤ × String) × PyDict,
      (gpuReadings timestamp repr host entry.1.1 entry.1.2 entry.2).length = 17 := fun _ => rfl
  have hnamed : (namedGpus server).length ≤ (get server "gpus").items.length :=
    List.length_filterMap_le _ _
  have hgpus : (gpuPart timestamp repr host server).length ≤ 17 * (namedGpus server).length := by
    rw [gpuPart]
    split
    · simp [List.length_flatMap, hdevice, Nat.mul_comm]
    · simp
  rw [serverReadings_eq, List.length_append]
  omega

/-- The appends of a snapshot: at most 31 for each server and 17 for each device. -/
theorem length_snapshotReadings_le (snapshot : PyDict) :
    (snapshotReadings timestamp repr snapshot).length
      ≤ 31 * (serversOf snapshot).length + 17 * gpuCount snapshot := by
  rw [snapshotReadings, namedServers, gpuCount]
  induction serversOf snapshot with
  | nil => simp
  | cons value values ih =>
    rw [List.map_cons, List.sum_cons, List.length_cons]
    cases hnamed : namedServer value with
    | none =>
      rw [List.filterMap_cons_none hnamed]
      omega
    | some entry =>
      -- A named server is a dictionary.
      have hserver : value.mapping = entry.2 := by
        cases value with
        | dict server =>
          cases hhost : get server "host" <;> simp [namedServer, hhost] at hnamed
          rw [← hnamed]
          rfl
        | _ => simp [namedServer] at hnamed
      have hlength := length_serverReadings_le timestamp repr entry.1 entry.2
      rw [List.filterMap_cons_some hnamed, List.flatMap_cons, List.length_append, hserver]
      omega

/-! ### The families -/

/-- The headings of an exposition, in order: they do not depend on the snapshot. -/
def headings : List Heading :=
  (singleReadings (fun _ => none) (fun _ => "") []).map Reading.key
    ++ (hostDefinitions ++ gpuDefinitions).map Prod.snd

/-- The headings of the single samples. -/
theorem key_singleReadings (snapshot : PyDict) :
    (singleReadings timestamp repr snapshot).map Reading.key
      = (singleReadings (fun _ => none) (fun _ => "") []).map Reading.key := rfl

/-- The check of a heading. -/
def Heading.check (heading : Heading) : Bool :=
  isName heading.name.toList && !heading.help.toList.contains '\n'
    && !heading.metricType.toList.contains '\n'
    && heading.unit.all fun unit => !unit.toList.contains '\n'

/-- The name of the samples is a name like that of the family. -/
theorem isName_sampleName {heading : Heading} (h : isName heading.name.toList = true) :
    isName heading.sampleName.toList = true := by
  rw [Heading.sampleName]
  split
  · have hsuffix : "_total".toList.all Exposition.isNameChar = true := by decide
    have hne := Exposition.ne_nil_of_isName h
    simp only [isName, Bool.and_eq_true, String.toList_append, List.all_append] at h ⊢
    refine ⟨⟨?_, h.1.2, hsuffix⟩, ?_⟩
    · simp
    · rw [List.head?_append_of_ne_nil _ hne]
      exact h.2
  · exact h

/-- A checked heading is well formed. -/
theorem Heading.wellFormed_of_check {heading : Heading} (h : heading.check = true) :
    heading.WellFormed := by
  simp only [Heading.check, Bool.and_eq_true, Bool.not_eq_true', List.contains_eq_mem,
    decide_eq_false_iff_not] at h
  obtain ⟨⟨⟨hname, hhelp⟩, htype⟩, hunit⟩ := h
  have hline := Exposition.newline_not_mem_name hname
  refine ⟨hname, isName_sampleName hname, ?_⟩
  intro line hmem
  simp only [Heading.lines, List.mem_append, List.mem_singleton, List.mem_map] at hmem
  rcases hmem with (rfl | ⟨unit, hsome, rfl⟩) | rfl
  · simp [hline, htype]
  · have hnone : '\n' ∉ unit.toList := by
      rw [Option.mem_toList] at hsome
      simpa [hsome] using hunit
    simp [hline, hnone]
  · simp [hline, hhelp]

/-- The check of a heading whose texts are given by their characters. -/
theorem Heading.check_ofList {name help : List Char} {unit : Option String} {metricType : String}
    (hname : isName name = true) (hhelp : '\n' ∉ help)
    (hunit : ∀ text ∈ unit, '\n' ∉ text.toList) (htype : '\n' ∉ metricType.toList) :
    Heading.check ⟨String.ofList name, String.ofList help, unit, metricType⟩ = true := by
  cases unit <;> simp_all [Heading.check]

/-- Every heading passes the check. -/
theorem check_headings : ∀ heading ∈ headings, heading.check = true := by
  simp only [headings, singleReadings, monitorReadings, componentReadings, queueReadings,
    clusterReadings, clusterFamilies, hostDefinitions, gpuDefinitions, List.map_cons, List.map_nil,
    List.cons_append, List.nil_append, List.forall_mem_cons, String.reduceAppend]
  repeat' apply And.intro
  -- The characters of a literal are compared with the literal, which is much faster than
  -- reading them from its bytes.
  all_goals first
    | exact Heading.check_ofList (by decide +kernel) (by decide +kernel) (by decide +kernel)
        (by decide +kernel)
    | simp

/-- The headings are well formed. -/
theorem wellFormed_headings {heading : Heading} (h : heading ∈ headings) : heading.WellFormed :=
  Heading.wellFormed_of_check (check_headings heading h)

/-- No two headings have the same name of samples. -/
theorem nodup_sampleNames : (headings.map Heading.sampleName).Nodup := by decide +kernel

/-- No two headings have the same name. -/
theorem nodup_names : (headings.map Heading.name).Nodup := by decide +kernel

/-- The samples of a single family: at most one, and it is written. -/
structure Single (family : Family) : Prop where
  length : family.samples.length ≤ 1
  labels : ∀ sample ∈ family.samples, Named sample.labels
  values : ∀ sample ∈ family.samples, Shows sample.value

/-- Sound single samples become families under their headings. -/
theorem exists_singleFamilies (readings : List (Reading Heading))
    (h : ∀ reading ∈ readings, reading.Sound) :
    ∃ families, readings.mapM singleFamily = .ok families
      ∧ families.map Family.heading = readings.map Reading.key
      ∧ ∀ family ∈ families, Single family := by
  induction readings with
  | nil => exact ⟨[], rfl, rfl, by simp⟩
  | cons reading readings ih =>
    obtain ⟨families, hfamilies, hheadings, hsingle⟩ :=
      ih fun r hr => h r (List.mem_cons_of_mem _ hr)
    obtain ⟨hnamed, value, hvalue, hshows⟩ := h reading (by simp)
    have hfamily : singleFamily reading
        = .ok ⟨reading.key, value.toList.map (Sample.mk reading.labels)⟩ := by
      rw [singleFamily, hvalue]
      rfl
    refine ⟨⟨reading.key, value.toList.map (Sample.mk reading.labels)⟩ :: families, ?_, ?_, ?_⟩
    · rw [List.mapM_cons, hfamily, hfamilies]
      rfl
    · rw [List.map_cons, List.map_cons, hheadings]
    · rw [List.forall_mem_cons]
      refine ⟨⟨?_, ?_, ?_⟩, hsingle⟩
      · cases value <;> simp
      · intro sample hsample
        obtain ⟨number, -, rfl⟩ := List.mem_map.mp hsample
        exact hnamed
      · intro sample hsample
        obtain ⟨number, hnumber, rfl⟩ := List.mem_map.mp hsample
        exact hshows number (Option.mem_toList.mp hnumber)

/-- The name and the labels of a sample as a reader finds them. -/
def nameAndLabels (sample : Exposition.Sample) : String × Labels := (sample.name, sample.labels)

/-- The families of collected samples have these samples, once each. -/
theorem length_seriesFamilies_le (samples : List (Series × Sample))
    (definitions : List (Series × Heading)) (h : (definitions.map Prod.fst).Nodup) :
    ((definitions.map (seriesFamily samples)).map fun family => family.samples.length).sum
      ≤ samples.length := by
  induction samples with
  | nil => simp [seriesFamily, List.map_map, Function.comp_def]
  | cons entry samples ih =>
    -- One more sample goes to one family, or to none.
    have hone : ((definitions.map (seriesFamily (entry :: samples))).map
        fun family => family.samples.length).sum
        = (definitions.map Prod.fst).count entry.1
          + ((definitions.map (seriesFamily samples)).map
            fun family => family.samples.length).sum := by
      clear ih h
      induction definitions with
      | nil => rfl
      | cons definition definitions ih =>
        simp only [List.map_cons, List.sum_cons, ih, List.count_cons]
        by_cases hkey : entry.1 = definition.1
        · have hback : (definition.1 == entry.1) = true := by simp [hkey]
          simp [seriesFamily, hkey]
          omega
        · have hback : (definition.1 == entry.1) = false := by simpa using Ne.symm hkey
          simp [seriesFamily, hkey, hback]
          omega
    have hcount := List.nodup_iff_count_le_one.mp h entry.1
    rw [hone, List.length_cons]
    omega

/-- No two samples of a series agree in their labels. -/
theorem nodup_seriesFamily {samples : List (Series × Sample)}
    (h : (samples.map slotOf).Nodup) (definition : Series × Heading) :
    ((seriesFamily samples definition).readBack.map nameAndLabels).Nodup := by
  have hfilter : ((samples.filter fun entry => entry.1 = definition.1).map slotOf).Nodup :=
    (List.filter_sublist.map slotOf).nodup h
  rw [seriesFamily, Family.readBack, List.map_map, List.map_map]
  refine List.pairwise_map.mpr ((List.pairwise_map.mp hfilter).imp_of_mem ?_)
  intro a b ha hb hne heq
  have hkeya : a.1 = definition.1 := by simpa using (List.mem_filter.mp ha).2
  have hkeyb : b.1 = definition.1 := by simpa using (List.mem_filter.mp hb).2
  refine hne (Prod.ext (hkeya.trans hkeyb.symm) ?_)
  exact (Prod.ext_iff.mp heq).2

/-! ### The exposition -/

variable {timestamp repr}

/-- The families of a snapshot: under the headings, well formed, with distinct labels in each
family and no more samples than the estimate. -/
theorem exists_families {snapshot : PyDict} (h : IsSnapshot snapshot) :
    ∃ families, collectFamilies timestamp repr snapshot = .ok families
      ∧ families.map Family.heading = headings
      ∧ (∀ family ∈ families, family.WellFormed)
      ∧ (∀ family ∈ families, (family.readBack.map nameAndLabels).Nodup)
      ∧ (families.map fun family => family.samples.length).sum ≤ estimatedSeries snapshot := by
  obtain ⟨single, hsingle, hkeys, hshape⟩ := exists_singleFamilies _
    (sound_singleReadings timestamp repr h.inRange)
  obtain ⟨samples, hsamples, hslots, hsound⟩ := exists_collect _
    (sound_snapshotReadings timestamp repr h.inRange)
  have hdistinct : (samples.map slotOf).Nodup := hslots.nodup (nodup_slots timestamp repr h)
  have hheadings : (single ++ (hostDefinitions ++ gpuDefinitions).map
      (seriesFamily samples)).map Family.heading = headings := by
    rw [List.map_append, hkeys, key_singleReadings, List.map_map]
    rfl
  have hvalues : ∀ definition, ∀ sample ∈ (seriesFamily samples definition).samples,
      Named sample.labels ∧ Shows sample.value := by
    intro definition sample hsample
    obtain ⟨entry, hentry, rfl⟩ := List.mem_map.mp hsample
    exact hsound entry (List.mem_filter.mp hentry).1
  refine ⟨single ++ (hostDefinitions ++ gpuDefinitions).map (seriesFamily samples), ?_,
    hheadings, ?_, ?_, ?_⟩
  · rw [collectFamilies, hsingle, hsamples]
    rfl
  · intro family hfamily
    have hheading : family.heading.WellFormed :=
      wellFormed_headings (hheadings ▸ List.mem_map_of_mem hfamily)
    rcases List.mem_append.mp hfamily with hmem | hmem
    · exact ⟨hheading, (hshape family hmem).labels, (hshape family hmem).values⟩
    · obtain ⟨definition, -, rfl⟩ := List.mem_map.mp hmem
      exact ⟨hheading, fun sample hs => (hvalues definition sample hs).1,
        fun sample hs => (hvalues definition sample hs).2⟩
  · intro family hfamily
    rcases List.mem_append.mp hfamily with hmem | hmem
    · have hlength := (hshape family hmem).length
      cases hlist : family.samples with
      | nil => simp [Family.readBack, hlist]
      | cons sample rest =>
        have hnil : rest = [] := by simpa [hlist] using hlength
        simp [Family.readBack, hlist, hnil]
    · obtain ⟨definition, -, rfl⟩ := List.mem_map.mp hmem
      exact nodup_seriesFamily hdistinct definition
  · -- 30 single families, and the appends.
    have hcount : (single.map fun family => family.samples.length).sum ≤ 30 := by
      have hlength : single.length = 30 := by
        have hkeys := congrArg List.length hkeys
        simpa [singleReadings, monitorReadings, componentReadings, queueReadings,
          clusterReadings, clusterFamilies] using hkeys
      have hsum := List.sum_le_card_nsmul (single.map fun family => family.samples.length) 1
        (by simpa using fun family hmem => (hshape family hmem).length)
      simpa [hlength] using hsum
    have hnodup : ((hostDefinitions ++ gpuDefinitions).map Prod.fst).Nodup := by decide
    have hseries := length_seriesFamilies_le samples _ hnodup
    have hcollected : samples.length ≤ (snapshotReadings timestamp repr snapshot).length := by
      simpa using hslots.length_le
    have happends := length_snapshotReadings_le timestamp repr snapshot
    rw [List.map_append, List.sum_append, estimatedSeries]
    omega

/-- The exposition of every snapshot of the store within the budget is well formed. Rendering does
not raise; a reader finds each sample again, with its normalised labels and the number that is
shown; no two samples with one name share their labels; no family is declared twice; and there
are no more samples than the estimate. -/
theorem exposition_wellFormed (timestamp : String → Option Double) (repr : PyValue → String)
    (snapshot : PyDict) (h : IsSnapshot snapshot) (hbudget : estimatedSeries snapshot ≤ maxSeries) :
    ∃ families text, collectFamilies timestamp repr snapshot = .ok families
      ∧ renderOpenmetrics timestamp repr snapshot = .ok text
      ∧ readSamples text.toList = some (families.flatMap Family.readBack)
      ∧ ((families.flatMap Family.readBack).map nameAndLabels).Nodup
      ∧ (Exposition.declaredNames text.toList).Nodup
      ∧ (families.flatMap Family.readBack).length ≤ estimatedSeries snapshot := by
  obtain ⟨families, hfamilies, hheadings, hshape, hdistinct, hcount⟩ :=
    @exists_families timestamp repr snapshot h
  obtain ⟨lines, hlines, hread, hdeclared⟩ := exists_text families hshape
  refine ⟨families, textOf lines.flatten, hfamilies, ?_, hread, ?_, ?_, ?_⟩
  · have hwithin : ¬ maxSeries < estimatedSeries snapshot := by omega
    rw [renderOpenmetrics, if_neg hwithin, hfamilies]
    show (families.mapM familyLines >>= fun lines => pure (textOf lines.flatten)) = _
    rw [hlines]
    rfl
  · -- Samples of different families have different names.
    rw [List.map_flatMap, List.nodup_flatMap]
    refine ⟨hdistinct, ?_⟩
    have hnames : (families.map fun family => family.heading.sampleName).Nodup := by
      have hall := nodup_sampleNames
      rwa [← hheadings, List.map_map] at hall
    refine (List.pairwise_map.mp hnames).imp fun {a b} hne entry ha hb => hne ?_
    have hname : ∀ family : Family, entry ∈ family.readBack.map nameAndLabels →
        entry.1 = family.heading.sampleName := by
      intro family hmem
      obtain ⟨sample, hsample, rfl⟩ := List.mem_map.mp hmem
      obtain ⟨original, -, rfl⟩ := List.mem_map.mp hsample
      rfl
    exact (hname a ha).symm.trans (hname b hb)
  · have hnames : (families.map fun family => family.heading.name.toList).Nodup := by
      have hall := nodup_names.map fun _ _ heq => String.toList_injective heq
      rwa [← hheadings, List.map_map, List.map_map] at hall
    rw [hdeclared]
    exact (List.filter_sublist.map _).nodup hnames
  · simpa [List.length_flatMap, Family.readBack, Function.comp_def] using hcount

/-- One server with a device; the group of the server has quotes and a line end. -/
def oneServer : PyDict :=
  [("servers", .list [.dict [("host", .str "gpu-1"), ("status", .str "online"),
    ("group", .str "lab \"A\"\r\nroom 1"), ("gpus", .list [.dict [("index", .int 0),
      ("uuid", .str "GPU-0"), ("temperature_c", .int 4)]])]])]

/-- It is a snapshot. -/
theorem isSnapshot_oneServer : IsSnapshot oneServer := by
  have hsmall : ∀ q : ℚ, q ≤ 4 → q ≤ doubleLimit / 2 := by
    intro q hq
    have hlarge := Float64.large_doubleLimit
    linarith
  have hgpu : ∀ entry ∈ ([("index", .int 0), ("uuid", .str "GPU-0"), ("temperature_c", .int 4)] :
      PyDict), entry.2.InRange := by
    simp only [List.forall_mem_cons]
    exact ⟨.int 0 (hsmall _ (by norm_num)), .str _, .int 4 (hsmall _ (by norm_num)), by simp⟩
  have hserver : ∀ entry ∈ ([("host", .str "gpu-1"), ("status", .str "online"),
      ("group", .str "lab \"A\"\r\nroom 1"), ("gpus", .list [.dict [("index", .int 0),
        ("uuid", .str "GPU-0"), ("temperature_c", .int 4)]])] : PyDict), entry.2.InRange := by
    simp only [List.forall_mem_cons]
    exact ⟨.str _, .str _, .str _,
      .list _ (hsmall _ (by norm_num)) (by simpa using .dict _ hgpu), by simp⟩
  refine ⟨?_, ?_, ?_, ?_⟩
  · simpa [PyDict.InRange, oneServer] using
      PyValue.InRange.list _ (hsmall _ (by norm_num)) (by simpa using .dict _ hserver)
  · have haliases : ∀ host ∈ (namedServers oneServer).map Prod.fst, isSafeAlias host = true := by
      decide +kernel
    exact fun entry hentry => haliases _ (List.mem_map_of_mem hentry)
  · decide +kernel
  · have hindices : (namedServers oneServer).all
        (fun entry => ((namedGpus entry.2).map fun gpu => gpu.1.1).Nodup) = true := by
      decide +kernel
    exact fun entry hentry => by simpa using List.all_eq_true.mp hindices entry hentry

theorem exposition_wellFormed_oneServer :
    ∃ families text, collectFamilies (fun _ => none) (fun _ => "") oneServer = .ok families
      ∧ renderOpenmetrics (fun _ => none) (fun _ => "") oneServer = .ok text
      ∧ readSamples text.toList = some (families.flatMap Family.readBack)
      ∧ ((families.flatMap Family.readBack).map nameAndLabels).Nodup
      ∧ (Exposition.declaredNames text.toList).Nodup
      ∧ (families.flatMap Family.readBack).length ≤ estimatedSeries oneServer :=
  exposition_wellFormed (fun _ => none) (fun _ => "") oneServer isSnapshot_oneServer
    (by decide +kernel)

end

end Mocop.OpenMetrics
