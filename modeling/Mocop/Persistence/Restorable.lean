import Mocop.Inventory.Document
import Mocop.Persistence.Durability
import Mocop.Probe.Collected

/-!
# `Mocop.Persistence.Restorable`: which incident events can be read back

The decoder of the incident rows bounds every text that it reads, the parser bounds what it
accepts of a host, and the policy builds keys, resources and details in between. The bounds of
the parser are smaller than those of the decoder for everything but a filesystem: the key of
its condition is `disk:device:mountpoint`, and its resource is the mount point. Such a condition
can be read back when the mount point is not empty and the two texts together leave room for the
rest of the key (`DiskMetrics.Fits`).

`StorableBut` is the invariant of the loops of the policy: every condition so far is storable,
except that one of a filesystem is when the filesystem fits. `emitted_restorable` carries it
over the runs of the tracker with its history.
-/

set_option autoImplicit false

namespace Mocop

/-- The row written for an event decodes to the event: under its id, with every column and the
critical line. -/
def IncidentEvent.Restorable (event : IncidentEvent) : Prop :=
  ∃ restored, eventFromRow event.eventId event.row event.condition.criticalAt = some restored
    ∧ restored.eventId = event.eventId ∧ restored.row = event.row
    ∧ restored.condition.criticalAt = event.condition.criticalAt

/-- An event whose numeric condition has a critical line is restorable when its row is within
the bounds of the decoder. -/
theorem IncidentEvent.restorable_iff {event : IncidentEvent}
    (hline : event.condition.category ∈ numericCategories →
      event.condition.criticalAt.isSome = true) :
    event.Restorable ↔ 1 ≤ event.eventId ∧ event.row.isStorable = true := by
  unfold Restorable eventFromRow
  constructor
  · rintro ⟨restored, hrestored, -⟩
    split at hrestored
    · cases hrestored
    · next hguard =>
      rw [not_or, Nat.not_lt, Bool.not_eq_false] at hguard
      exact hguard
  · rintro ⟨hone, hstorable⟩
    have hguard : ¬ (event.eventId < 1 ∨ event.row.isStorable = false) := by
      rw [hstorable]
      simp
      omega
    refine ⟨_, if_neg hguard, rfl, rfl, ?_⟩
    dsimp only
    cases hcritical : event.condition.criticalAt with
    | some criticalAt => rfl
    | none =>
      -- Without a line the category is not numeric, so none is made up.
      refine legacyCriticalAt_of_not_mem _ _ fun hnumeric => ?_
      rw [hcritical] at hline
      exact absurd (hline hnumeric) (by simp)

/-! ### Lengths -/

theorem isStorableText_iff {text : String} :
    isStorableText text = true ↔ 0 < text.length ∧ text.length ≤ 512 := by
  simp [isStorableText]

/-- The text of a small number is short. -/
theorem length_toString_le {n digits : ℕ} (hpos : 0 < digits) (h : n < 10 ^ digits) :
    (toString n).length ≤ digits :=
  (Nat.length_repr_le_iff hpos).mpr h

/-- Rounding leaves a number between two whole numbers between them. -/
theorem roundHalfEven_mem {value : ℚ} {low high : ℤ} (hlow : (low : ℚ) ≤ value)
    (hhigh : value ≤ high) : low ≤ roundHalfEven value ∧ roundHalfEven value ≤ high + 1 := by
  have hfloor : low ≤ ⌊value⌋ := Int.le_floor.mpr hlow
  have hceil : ⌊value⌋ ≤ high := by
    have hle : (⌊value⌋ : ℚ) ≤ high := (Int.floor_le value).trans hhigh
    exact_mod_cast hle
  unfold roundHalfEven
  dsimp only
  split_ifs <;> omega

/-- The text of a share is short. -/
theorem length_round2Text_le {value : ℚ} (h : Probe.IsShare value) :
    (round2Text value).length ≤ 32 := by
  obtain ⟨hnonneg, hle⟩ := h
  have hlow : ((0 : ℤ) : ℚ) ≤ value * 100 := by
    rw [Int.cast_zero]
    linarith
  have hhigh : value * 100 ≤ ((10000 : ℤ) : ℚ) := by
    push_cast
    linarith
  obtain ⟨hzero, hbound⟩ := roundHalfEven_mem hlow hhigh
  unfold round2Text hundredthsText
  generalize roundHalfEven (value * 100) = hundredths at hzero hbound
  have hwhole : (toString (hundredths.natAbs / 100)).length ≤ 5 :=
    length_toString_le (by decide) (by omega)
  have hrest : (toString (hundredths.natAbs % 100)).length ≤ 5 :=
    length_toString_le (by decide) (by omega)
  have htens : (toString (hundredths.natAbs % 100 / 10)).length ≤ 5 :=
    length_toString_le (by decide) (by omega)
  have hsign : (if hundredths < 0 then "-" else "").length ≤ 1 := by
    split <;> decide
  have hfraction : (if hundredths.natAbs % 100 % 10 = 0 then
      toString (hundredths.natAbs % 100 / 10)
    else if hundredths.natAbs % 100 < 10 then "0" ++ toString (hundredths.natAbs % 100)
    else toString (hundredths.natAbs % 100)).length ≤ 6 := by
    split_ifs
    · omega
    · rw [String.length_append]
      have : "0".length = 1 := rfl
      omega
    · omega
  dsimp only
  rw [String.length_append, String.length_append, String.length_append]
  have hdot : ".".length = 1 := rfl
  omega

/-- The name of a GPU is short. -/
theorem length_gpuText {index : ℕ} (h : index ≤ 65535) :
    4 < ("GPU " ++ toString index).length ∧ ("GPU " ++ toString index).length ≤ 9 := by
  have hindex : (toString index).length ≤ 5 := length_toString_le (by decide) (by omega)
  have hpos : 0 < (toString index).length := Nat.length_repr_pos
  have hgpu : "GPU ".length = 4 := rfl
  rw [String.length_append]
  omega

variable {gpu : GpuMetrics} {condition : IncidentCondition} {policy : ThresholdIncidentPolicy}
  {result : ProbeResult}

/-- The identity of a GPU within its bounds is short. -/
theorem length_identity_le (hindex : gpu.index ≤ 65535) (huuid : gpu.uuid.length ≤ 128) :
    gpu.identity.length ≤ 128 := by
  unfold GpuMetrics.identity
  split
  · have hdigits : (toString gpu.index).length ≤ 5 := length_toString_le (by decide) (by omega)
    omega
  · exact huuid

/-! ### One condition -/

/-- A condition is storable when each of its texts is within its bound. -/
theorem IncidentCondition.isStorable_iff :
    condition.isStorable = true ↔ isStorableText condition.key = true
      ∧ isStorableText condition.category = true ∧ isStorableText condition.resource = true
      ∧ isStorableText condition.observedAt = true
      ∧ (∀ detail, condition.detail = some detail → detail.length ≤ 4096)
      ∧ ∀ groupKey, condition.groupKey = some groupKey → groupKey.length ≤ 512 := by
  simp [IncidentCondition.isStorable, Option.all_eq_true, and_assoc]

/-- A category of the policy other than that of the filesystems. -/
def OtherCategory (category : String) : Prop :=
  ':' ∉ category.toList ∧ category ≠ "disk" ∧ 0 < category.length ∧ category.length ≤ 32

instance (category : String) : Decidable (OtherCategory category) :=
  inferInstanceAs (Decidable (_ ∧ _))

theorem OtherCategory.storable {category : String} (h : OtherCategory category) :
    isStorableText category = true :=
  isStorableText_iff.mpr ⟨h.2.2.1, h.2.2.2.trans (by decide)⟩

/-- A condition under `category:identity` is storable when its identity is short, and it is not one
of a filesystem when its category is not. -/
theorem IncidentCondition.storable_of_identity (category : String) (hother : OtherCategory category)
    {identity : String} (hidentity : identity.length ≤ 128)
    (hcategory : condition.category = category) (hkey : condition.key = category ++ ":" ++ identity)
    (hresource : isStorableText condition.resource = true)
    (hobserved : isStorableText condition.observedAt = true)
    (hdetail : ∀ text, condition.detail = some text → text.length ≤ 4096)
    (hgroup : condition.groupKey = none) :
    partitionHead condition.key ≠ "disk" ∧ condition.isStorable = true := by
  obtain ⟨hcolon, hdisk, hpos, hlength⟩ := hother
  have hcolonLength : ":".length = 1 := rfl
  refine ⟨?_, isStorable_iff.mpr
    ⟨isStorableText_iff.mpr ?_, ?_, hresource, hobserved, hdetail, ?_⟩⟩
  · rw [hkey, partitionHead_append _ identity hcolon]
    exact hdisk
  · rw [hkey, String.length_append, String.length_append]
    omega
  · rw [hcategory]
    exact OtherCategory.storable ⟨hcolon, hdisk, hpos, hlength⟩
  · intro groupKey hsome
    rw [hgroup] at hsome
    cases hsome

/-- A condition under its category alone is storable. -/
theorem IncidentCondition.storable_of_category (category : String) (hother : OtherCategory category)
    (hcategory : condition.category = category) (hkey : condition.key = category)
    (hresource : isStorableText condition.resource = true)
    (hobserved : isStorableText condition.observedAt = true)
    (hdetail : ∀ text, condition.detail = some text → text.length ≤ 4096)
    (hgroup : condition.groupKey = none) :
    partitionHead condition.key ≠ "disk" ∧ condition.isStorable = true := by
  refine ⟨?_, isStorable_iff.mpr ⟨?_, ?_, hresource, hobserved, hdetail, ?_⟩⟩
  · rw [hkey, partitionHead_of_not_mem category hother.1]
    exact hother.2.1
  · rw [hkey]
    exact hother.storable
  · rw [hcategory]
    exact hother.storable
  · intro groupKey hsome
    rw [hgroup] at hsome
    cases hsome

/-- The condition of a filesystem can be read back: its resource is the mount point, and its key
is `disk:device:mountpoint`. -/
def DiskMetrics.Fits (disk : DiskMetrics) : Prop :=
  disk.mountpoint ≠ "" ∧ disk.device.length + disk.mountpoint.length ≤ 506

instance (disk : DiskMetrics) : Decidable disk.Fits := inferInstanceAs (Decidable (_ ∧ _))

/-- The key of the condition of a filesystem. -/
def diskKey (disk : DiskMetrics) : String :=
  "disk" ++ ":" ++ (disk.device ++ ":" ++ disk.mountpoint)

/-- The condition of a filesystem of a host: it is storable when the filesystem fits, and it opens
as the policy says, where the usage is not below the warning line. -/
structure OfDisk (policy : ThresholdIncidentPolicy) (host : String) (disk : DiskMetrics)
    (condition : IncidentCondition) : Prop where
  storable_iff : condition.isStorable = true ↔ disk.Fits
  openAfterCycles : condition.openAfterCycles = policy.incidents.resourceOpenCycles
  openAfterSeconds : condition.openAfterSeconds = policy.incidents.resourceOpenSeconds
  belowThreshold : condition.belowThreshold
    = decide (roundDigits disk.usedPct 2 < (policy.thresholdsFor host).getD .diskWarningPct 0)

/-- Every condition so far is storable, except that the one of an alerting filesystem is when
the filesystem fits. -/
structure StorableBut (policy : ThresholdIncidentPolicy) (host : String)
    (alerting : Dict String DiskMetrics) (conditions : Dict String IncidentCondition) : Prop where
  other : ∀ key condition, conditions.get? key = some condition → alerting.get? key = none →
    condition.isStorable = true
  disks : ∀ key disk, alerting.get? key = some disk → partitionHead key = "disk"
    ∧ ∃ condition, conditions.get? key = some condition
      ∧ OfDisk policy host disk condition

namespace StorableBut

variable {host : String} {alerting : Dict String DiskMetrics}
  {conditions : Dict String IncidentCondition}

theorem empty : StorableBut policy host ∅ ∅ where
  other := fun _ _ h => by simp at h
  disks := fun _ _ h => by simp at h

/-- All conditions are storable when every alerting filesystem fits. -/
theorem storable_iff (h : StorableBut policy host alerting conditions) :
    (∀ entry ∈ conditions.entries, entry.2.isStorable = true)
      ↔ ∀ entry ∈ alerting.entries, entry.2.Fits := by
  constructor
  · rintro hall ⟨key, disk⟩ hentry
    obtain ⟨-, condition, hget, hof⟩ :=
      h.disks key disk ((Dict.get?_eq_some_iff _ _ _).mpr hentry)
    exact hof.storable_iff.mp (hall (key, condition) ((Dict.get?_eq_some_iff _ _ _).mp hget))
  · rintro hall ⟨key, condition⟩ hentry
    have hget := (Dict.get?_eq_some_iff _ _ _).mpr hentry
    cases halerting : alerting.get? key with
    | none => exact h.other key condition hget halerting
    | some disk =>
      obtain ⟨-, stored, hstored, hof⟩ := h.disks key disk halerting
      obtain rfl := Option.some.inj (hstored.symm.trans hget)
      exact hof.storable_iff.mpr (hall (key, disk) ((Dict.get?_eq_some_iff _ _ _).mp halerting))

/-- A storable condition of another kind keeps the invariant. -/
theorem addCondition (h : StorableBut policy host alerting conditions)
    (hadded : partitionHead condition.key ≠ "disk" ∧ condition.isStorable = true) :
    StorableBut policy host alerting (addCondition conditions condition) where
  other := by
    intro key stored hget hnone
    rw [Mocop.addCondition, Dict.get?_set] at hget
    split at hget
    · obtain rfl := Option.some.inj hget
      exact hadded.2
    · exact h.other key stored hget hnone
  disks := by
    intro key disk halerting
    obtain ⟨hdisk, stored, hstored, hof⟩ := h.disks key disk halerting
    refine ⟨hdisk, stored, ?_, hof⟩
    rw [Mocop.addCondition, Dict.get?_set, if_neg ?_]
    · exact hstored
    · rintro rfl
      exact hadded.1 hdisk

/-- Storable conditions of other kinds keep it. -/
theorem addConditions (h : StorableBut policy host alerting conditions)
    (added : List IncidentCondition)
    (hadded : ∀ condition ∈ added,
      partitionHead condition.key ≠ "disk" ∧ condition.isStorable = true) :
    StorableBut policy host alerting (added.foldl Mocop.addCondition conditions) := by
  induction added generalizing conditions with
  | nil => exact h
  | cons condition rest ih =>
    exact ih (h.addCondition (hadded condition List.mem_cons_self))
      fun other hother => hadded other (List.mem_cons_of_mem _ hother)

/-- The condition of an alerting filesystem keeps it. -/
theorem addDisk (h : StorableBut policy host alerting conditions) {disk : DiskMetrics}
    (hkey : condition.key = diskKey disk) (hof : OfDisk policy host disk condition) :
    StorableBut policy host (alerting.set (diskKey disk) disk)
      (Mocop.addCondition conditions condition) where
  other := by
    intro key stored hget hnone
    rw [Mocop.addCondition, hkey, Dict.get?_set] at hget
    rw [Dict.get?_set] at hnone
    split at hget
    · next hsame =>
      rw [if_pos hsame] at hnone
      cases hnone
    · next hother =>
      rw [if_neg hother] at hnone
      exact h.other key stored hget hnone
  disks := by
    intro key found hget
    rw [Dict.get?_set] at hget
    simp only [Mocop.addCondition, hkey, Dict.get?_set]
    split at hget
    · next hsame =>
      obtain rfl := Option.some.inj hget
      rw [if_pos hsame]
      exact ⟨hsame ▸ partitionHead_append "disk" _ (by decide), condition, rfl, hof⟩
    · next hother =>
      rw [if_neg hother]
      exact h.disks key found hget

end StorableBut

/-! ### The filesystems of a sample -/

namespace ThresholdIncidentPolicy

variable (policy : ThresholdIncidentPolicy)

/-- A filesystem has a condition: it is not excluded, and no further below the warning line than
the recovery margin. -/
def Alerts (host : String) (disk : DiskMetrics) : Prop :=
  disk.mountpoint ∉ policy.excludedDiskMounts host
    ∧ (policy.thresholdsFor host).getD .diskWarningPct 0 - policy.incidents.recoveryMargin
      ≤ disk.usedPct

instance (host : String) (disk : DiskMetrics) : Decidable (policy.Alerts host disk) :=
  inferInstanceAs (Decidable (_ ∧ _))

/-- Notes a filesystem that has a condition, under the key of the condition. -/
def addAlerting (host : String) (alerting : Dict String DiskMetrics) (disk : DiskMetrics) :
    Dict String DiskMetrics :=
  if policy.Alerts host disk then alerting.set (diskKey disk) disk else alerting

/-- The filesystems of a sample that have a condition. Of two with one key the later one has
it. -/
def alertingDisks (result : ProbeResult) : Dict String DiskMetrics :=
  if result.status ≠ .online then ∅
  else match result.system with
    | some system => system.disks.foldl (policy.addAlerting result.host) ∅
    | none => ∅

/-- Every filesystem of a sample that has a condition fits. -/
def DisksFit (result : ProbeResult) : Prop :=
  ∀ entry ∈ (policy.alertingDisks result).entries, entry.2.Fits

instance (result : ProbeResult) : Decidable (policy.DisksFit result) :=
  inferInstanceAs (Decidable (∀ entry ∈ (policy.alertingDisks result).entries, entry.2.Fits))

/-- The settings that a loaded configuration has checked. -/
def Configured : Prop :=
  ∀ host expected, policy.expectedGpuCounts.get? host = some expected → expected ≤ 256

end ThresholdIncidentPolicy

/-- The key of the group of a network filesystem is short. -/
theorem length_networkDiskGroupKey_le {device filesystemType groupKey : String}
    (hdevice : device.length ≤ 255) (htype : filesystemType.length ≤ 64)
    (h : ThresholdIncidentPolicy.networkDiskGroupKey device filesystemType = some groupKey) :
    groupKey.length ≤ 512 := by
  unfold ThresholdIncidentPolicy.networkDiskGroupKey at h
  dsimp only at h
  split at h
  · cases h
    have hlower : filesystemType.toLower.length = filesystemType.length := String.length_map
    have hbar : "|".length = 1 := rfl
    rw [String.length_append, String.length_append]
    omega
  · cases h

namespace StorableBut

variable (policy : ThresholdIncidentPolicy) {host : String} {alerting : Dict String DiskMetrics}
  {conditions other : Dict String IncidentCondition}

theorem ite (p : Prop) [Decidable p] (h : StorableBut policy host alerting conditions)
    (h' : StorableBut policy host alerting other) :
    StorableBut policy host alerting (if p then conditions else other) := by
  split
  · exact h
  · exact h'

variable {observedAt : String}

/-- A numeric condition of another kind keeps the invariant. -/
theorem addPercentage (h : StorableBut policy host alerting conditions) (category : String)
    (hother : OtherCategory category) {identity : Option String}
    (hidentity : ∀ text, identity = some text → text.length ≤ 128) {resource : String}
    (hresource : isStorableText resource = true) (value : Option ℚ) (limit : ℚ)
    (hobserved : isStorableText observedAt = true) (criticalAt : ℚ) {detail : Option String}
    (hdetail : ∀ text, detail = some text → text.length ≤ 4096) :
    StorableBut policy host alerting (policy.addPercentage conditions category identity resource
      value limit observedAt criticalAt none detail) := by
  unfold ThresholdIncidentPolicy.addPercentage
  cases value with
  | none => exact h
  | some value =>
    dsimp only
    split
    · exact h
    · cases identity with
      | none =>
        refine h.addCondition ?_
        exact IncidentCondition.storable_of_category category hother rfl rfl hresource
          hobserved hdetail rfl
      | some identity =>
        refine h.addCondition ?_
        exact IncidentCondition.storable_of_identity category hother (hidentity identity rfl)
          rfl rfl hresource hobserved hdetail rfl

/-- A numeric condition of the host itself keeps it. -/
theorem addPlain (h : StorableBut policy host alerting conditions) (category resource : String)
    (hother : OtherCategory category) (hresource : isStorableText resource = true)
    (value : Option ℚ) (limit : ℚ) (hobserved : isStorableText observedAt = true) (criticalAt : ℚ) :
    StorableBut policy host alerting (policy.addPercentage conditions category none resource value
      limit observedAt criticalAt none none) :=
  h.addPercentage policy category hother (fun _ hnone => (by cases hnone)) hresource value limit
    hobserved criticalAt (fun _ hnone => (by cases hnone))

/-- A filesystem keeps the invariant: it is noted as alerting exactly when it gets a condition,
and the condition is storable exactly when it fits. -/
theorem addAlerting (h : StorableBut policy result.host alerting conditions)
    (hobserved : isStorableText result.observedAt = true) {disk : DiskMetrics}
    (hdevice : disk.device.length ≤ 255) (htype : disk.filesystemType.length ≤ 64) :
    StorableBut policy result.host (policy.addAlerting result.host alerting disk)
      (policy.addDisk (fun name => (policy.thresholdsFor result.host).getD name 0) result
        conditions disk) := by
  unfold ThresholdIncidentPolicy.addAlerting ThresholdIncidentPolicy.addDisk
    ThresholdIncidentPolicy.addPercentage
  dsimp only
  by_cases hexcluded : disk.mountpoint ∈ policy.excludedDiskMounts result.host
  · have hsilent : ¬ policy.Alerts result.host disk := fun halerts => halerts.1 hexcluded
    rw [if_pos hexcluded, if_neg hsilent]
    exact h
  · rw [if_neg hexcluded]
    by_cases hbelow : disk.usedPct < (policy.thresholdsFor result.host).getD .diskWarningPct 0
        - policy.incidents.recoveryMargin
    · have hsilent : ¬ policy.Alerts result.host disk :=
        fun halerts => absurd hbelow (not_lt.mpr halerts.2)
      rw [if_pos hbelow, if_neg hsilent]
      exact h
    · have halerts : policy.Alerts result.host disk := ⟨hexcluded, not_lt.mp hbelow⟩
      rw [if_neg hbelow, if_pos halerts]
      refine h.addDisk rfl ?_
      have hkey : (diskKey disk).length = 6 + disk.device.length + disk.mountpoint.length := by
        have hdisk : "disk".length = 4 := rfl
        have hcolon : ":".length = 1 := rfl
        simp only [diskKey, String.length_append]
        omega
      have hgroup : ∀ groupKey, ThresholdIncidentPolicy.networkDiskGroupKey disk.device
          disk.filesystemType = some groupKey → groupKey.length ≤ 512 :=
        fun groupKey hgroupKey => length_networkDiskGroupKey_le hdevice htype hgroupKey
      refine ⟨?_, rfl, rfl, rfl⟩
      rw [IncidentCondition.isStorable_iff]
      constructor
      · rintro ⟨hkeyStorable, -, hresource, -⟩
        have hkeyBound : (diskKey disk).length ≤ 512 := (isStorableText_iff.mp hkeyStorable).2
        have hmount := (isStorableText_iff.mp hresource).1
        refine ⟨fun hempty => ?_, by omega⟩
        simp [hempty] at hmount
      · rintro ⟨hmount, hbound⟩
        have hpos : 0 < disk.mountpoint.length := by
          rw [Nat.pos_iff_ne_zero, ne_eq, String.length_eq_zero_iff]
          exact hmount
        have hkeyStorable : isStorableText (diskKey disk) = true :=
          isStorableText_iff.mpr ⟨by omega, by omega⟩
        have hresource : isStorableText disk.mountpoint = true :=
          isStorableText_iff.mpr ⟨hpos, by omega⟩
        have hcategory : isStorableText "disk" = true := by decide
        exact ⟨hkeyStorable, hcategory, hresource, hobserved, fun _ hnone => (by cases hnone),
          hgroup⟩

/-- A pressure condition keeps the invariant. -/
theorem addPressure (h : StorableBut policy host alerting conditions)
    (threshold : ThresholdName → ℚ)
    (hobserved : isStorableText result.observedAt = true) (resource label : String)
    (hresource : resource.length ≤ 16) (hlabel : label.length ≤ 16)
    {sample : Option PressureStallSample} (thresholdName : ThresholdName)
    (hshare : ∀ value, sample = some value → Probe.IsShare value.someAvg60) :
    StorableBut policy host alerting (policy.addPressure threshold result conditions resource sample
      thresholdName label) := by
  unfold ThresholdIncidentPolicy.addPressure
  cases sample with
  | none => exact h
  | some sample =>
    have htext := length_round2Text_le (hshare sample rfl)
    have hpressure : " pressure".length = 9 := rfl
    refine h.addPercentage policy _ (by decide) ?_ ?_ _ _ hobserved _ ?_
    · intro text htext
      cases htext
      omega
    · rw [isStorableText_iff, String.length_append]
      omega
    · intro text hdetail
      cases hdetail
      have hstalled : "Tasks stalled on ".length = 17 := rfl
      have hfor : " for ".length = 5 := rfl
      have hminute : "% of the last minute".length = 20 := rfl
      simp only [String.length_append]
      omega

/-- The conditions of the host keep the invariant, and its alerting filesystems are noted. -/
theorem systemConditions (h : StorableBut policy result.host ∅ conditions)
    (hobserved : isStorableText result.observedAt = true) (hwithin : Probe.ResultWithin result)
    {system : SystemMetrics} (hsystem : result.system = some system) :
    StorableBut policy result.host (system.disks.foldl (policy.addAlerting result.host) ∅)
      (policy.systemConditions (fun name => (policy.thresholdsFor result.host).getD name 0) result
        system conditions) := by
  -- The two loops over the filesystems go along with each other.
  have hdisks : ∀ (disks : List DiskMetrics) (noted : Dict String DiskMetrics)
      (conditions : Dict String IncidentCondition), (∀ disk ∈ disks, disk ∈ system.disks) →
      StorableBut policy result.host noted conditions →
      StorableBut policy result.host (disks.foldl (policy.addAlerting result.host) noted)
        (disks.foldl (policy.addDisk (fun name => (policy.thresholdsFor result.host).getD name 0)
          result) conditions) := by
    intro disks
    induction disks with
    | nil => exact fun _ _ _ hkept => hkept
    | cons disk rest ih =>
      intro noted conditions hmem hkept
      obtain ⟨hdevice, htype, -⟩ :=
        hwithin.disks system hsystem disk (hmem disk List.mem_cons_self)
      exact ih _ _ (fun other hother => hmem other (List.mem_cons_of_mem _ hother))
        (hkept.addAlerting policy hobserved hdevice htype)
  refine hdisks _ _ _ (fun _ hdisk => hdisk) ?_
  have hmemory := ((h.addPlain policy "cpu" "CPU" (by decide) (by decide) system.cpuUsagePct
    ((policy.thresholdsFor result.host).getD .cpuWarningPct 0) hobserved
    95).addPlain policy "memory" "RAM" (by decide) (by decide)
    (some (ThresholdIncidentPolicy.percentage system.memoryUsedMib system.memoryTotalMib))
    ((policy.thresholdsFor result.host).getD .memoryWarningPct 0) hobserved 95)
  have hswap := ite policy (0 < system.swapTotalMib) (hmemory.addPlain policy "swap" "Swap"
    (by decide) (by decide)
    (some (ThresholdIncidentPolicy.percentage system.swapUsedMib system.swapTotalMib))
    ((policy.thresholdsFor result.host).getD .swapWarningPct 0) hobserved 90) hmemory
  have hshare := hwithin.pressure system hsystem
  dsimp only
  split
  · next pressure hpressure =>
    refine addPressure policy ?_ _ hobserved _ _ (by decide) (by decide) _
      fun sample hsample => hshare pressure hpressure sample (.inr hsample)
    exact hswap.addPressure policy _ hobserved _ _ (by decide) (by decide) _
      fun sample hsample => hshare pressure hpressure sample (.inl hsample)
  · exact hswap

/-- The hardware-health conditions of a device keep the invariant. -/
theorem addHealth (h : StorableBut policy host alerting conditions) (hindex : gpu.index ≤ 65535)
    (hidentity : gpu.identity.length ≤ 128) (hobserved : isStorableText observedAt = true)
    (incidents : IncidentConfig) :
    StorableBut policy host alerting
      ((gpuHealthConditions gpu gpu.identity observedAt incidents).foldl Mocop.addCondition
        conditions) := by
  have hgpu := length_gpuText hindex
  refine h.addConditions _ fun condition hmem => ?_
  unfold gpuHealthConditions at hmem
  cases hhealth : gpu.health with
  | none => simp [hhealth] at hmem
  | some health =>
    simp only [hhealth, List.mem_append, List.mem_ite_nil_right, List.mem_singleton] at hmem
    rcases hmem with (⟨-, rfl⟩ | ⟨-, rfl⟩) | ⟨-, rfl⟩
    · refine IncidentCondition.storable_of_identity "gpu_ecc" (by decide) hidentity rfl rfl ?_
        hobserved (fun text htext => ?_) rfl
      · have hecc : " ECC".length = 4 := rfl
        rw [isStorableText_iff, String.length_append]
        omega
      · cases htext
        decide
    · refine IncidentCondition.storable_of_identity "gpu_memory_repair" (by decide) hidentity rfl
        rfl ?_ hobserved (fun text htext => ?_) rfl
      · have hmemory : " memory".length = 7 := rfl
        rw [isStorableText_iff, String.length_append]
        omega
      · cases htext
        decide
    · refine IncidentCondition.storable_of_identity "gpu_slowdown" (by decide) hidentity rfl rfl
        ?_ hobserved (fun text htext => ?_) rfl
      · exact isStorableText_iff.mpr ⟨Nat.zero_lt_of_lt hgpu.1, hgpu.2.trans (by decide)⟩
      · cases htext
        split_ifs <;> decide

/-- The condition of a device that holds memory without computing keeps it. -/
theorem addIdleMemory (h : StorableBut policy host alerting conditions)
    (threshold : ThresholdName → ℚ) (hobserved : isStorableText result.observedAt = true)
    (hindex : gpu.index ≤ 65535) (hidentity : gpu.identity.length ≤ 128)
    (hshare : ∀ value, gpu.utilizationGpuPct = some value → Probe.IsShare value) :
    StorableBut policy host alerting (policy.addIdleMemory threshold result gpu conditions) := by
  have hgpu := length_gpuText hindex
  unfold ThresholdIncidentPolicy.addIdleMemory
  dsimp only
  split
  · next memoryPct utilization _ hutilization =>
    have htext := length_round2Text_le (hshare utilization hutilization)
    refine ite policy _ (h.addCondition ?_) h
    refine IncidentCondition.storable_of_identity "gpu_idle_memory" (by decide) hidentity rfl rfl
      ?_ hobserved (fun text hdetail => ?_) rfl
    · have hvram : " VRAM".length = 5 := rfl
      rw [isStorableText_iff, String.length_append]
      omega
    · cases hdetail
      have hprefix : "GPU utilization is ".length = 19 := rfl
      have hpercent : "%".length = 1 := rfl
      rw [String.length_append, String.length_append]
      omega
  · exact h

/-- The conditions of a device keep the invariant. -/
theorem gpuConditions (h : StorableBut policy host alerting conditions)
    (threshold : ThresholdName → ℚ) (hobserved : isStorableText result.observedAt = true)
    (hindex : gpu.index ≤ 65535) (huuid : gpu.uuid.length ≤ 128)
    (hshare : ∀ value, gpu.utilizationGpuPct = some value → Probe.IsShare value) :
    StorableBut policy host alerting (policy.gpuConditions threshold result conditions gpu) := by
  have hidentity := length_identity_le hindex huuid
  have hgpu := length_gpuText hindex
  have hname : isStorableText ("GPU " ++ toString gpu.index) = true :=
    isStorableText_iff.mpr ⟨Nat.zero_lt_of_lt hgpu.1, hgpu.2.trans (by decide)⟩
  have hvram : isStorableText ("GPU " ++ toString gpu.index ++ " VRAM") = true := by
    have hlength : " VRAM".length = 5 := rfl
    rw [isStorableText_iff, String.length_append]
    omega
  have hsome : ∀ text, some gpu.identity = some text → text.length ≤ 128 :=
    fun text htext => Option.some.inj htext ▸ hidentity
  have hnone : ∀ text, (none : Option String) = some text → text.length ≤ 4096 :=
    fun text htext => by cases htext
  have hmemory := (h.addPercentage policy "gpu_temperature" (by decide) hsome hname
    gpu.temperatureC (threshold .gpuTemperatureWarningC) hobserved
    (threshold .gpuTemperatureWarningC + 5) hnone).addPercentage policy "gpu_memory" (by decide)
    hsome hvram (ThresholdIncidentPolicy.gpuMemoryPct gpu) (threshold .gpuMemoryWarningPct)
    hobserved 95 hnone
  exact (hmemory.addIdleMemory policy threshold hobserved hindex hidentity hshare).addHealth policy
    hindex hidentity hobserved policy.incidents

/-- The conditions of the GPU inventory as a whole are storable. -/
theorem inventoryConditions (hconfigured : policy.Configured)
    (hobserved : isStorableText result.observedAt = true) (hwithin : Probe.ResultWithin result) :
    StorableBut policy host ∅ (policy.inventoryConditions result) := by
  have hmessage : ∀ text, result.message = some text → text.length ≤ 4096 :=
    fun text htext => (hwithin.message text htext).trans (by decide)
  have havailability : StorableBut policy host ∅ (if gpuQueryFailed result then
      Mocop.addCondition ∅ (policy.gpuAvailabilityCondition result) else ∅) := by
    refine ite policy _ (empty.addCondition ?_) empty
    exact IncidentCondition.storable_of_category "gpu_availability" (by decide) rfl rfl
      (show isStorableText "NVIDIA telemetry" = true by decide) hobserved hmessage rfl
  unfold ThresholdIncidentPolicy.inventoryConditions
  cases hexpected : policy.expectedGpuCounts.get? result.host with
  | none => exact havailability
  | some expected =>
    refine ite policy _ (havailability.addCondition ?_) havailability
    refine IncidentCondition.storable_of_category "gpu_count" (by decide) rfl rfl
      (show isStorableText "GPU inventory" = true by decide) hobserved (fun text htext => ?_) rfl
    cases htext
    -- Both counts have three digits at most.
    have hcount := hconfigured result.host expected hexpected
    have hlength : result.gpus.length ≤ 256 := hwithin.length_gpus_le
    have hwanted : (toString expected).length ≤ 3 :=
      length_toString_le (by decide) (by omega)
    have hobservedCount : (toString result.gpus.length).length ≤ 3 :=
      length_toString_le (by decide) (by omega)
    have hprefix : "Expected ".length = 9 := rfl
    have hmiddle : " GPUs; observed ".length = 16 := rfl
    simp only [String.length_append]
    omega

/-- The conditions of an accepted sample are storable, except that the one of an alerting
filesystem is when the filesystem fits. -/
theorem conditions_accepted (hconfigured : policy.Configured)
    (hobserved : isStorableText result.observedAt = true) (hwithin : Probe.ResultWithin result)
    (honline : result.status = .online) :
    StorableBut policy result.host (policy.alertingDisks result) (policy.conditions result) := by
  have hinventory : StorableBut policy result.host ∅ (policy.inventoryConditions result) :=
    inventoryConditions policy hconfigured hobserved hwithin
  have hsystem : StorableBut policy result.host (policy.alertingDisks result)
      (match result.system with
        | some system => policy.systemConditions
            (fun name => (policy.thresholdsFor result.host).getD name 0) result system
            (policy.inventoryConditions result)
        | none => policy.inventoryConditions result) := by
    unfold ThresholdIncidentPolicy.alertingDisks
    rw [if_neg (not_not.mpr honline)]
    cases hsome : result.system with
    | none => exact hinventory
    | some system => exact hinventory.systemConditions policy hobserved hwithin hsome
  have hgpus : ∀ (gpus : List GpuMetrics) (conditions : Dict String IncidentCondition),
      (∀ gpu ∈ gpus, gpu ∈ result.gpus) →
      StorableBut policy result.host (policy.alertingDisks result) conditions →
      StorableBut policy result.host (policy.alertingDisks result) (gpus.foldl (policy.gpuConditions
        (fun name => (policy.thresholdsFor result.host).getD name 0) result) conditions) := by
    intro gpus
    induction gpus with
    | nil => exact fun _ _ hkept => hkept
    | cons gpu rest ih =>
      intro conditions hmem hkept
      obtain ⟨hindex, huuid, hshare⟩ := hwithin.gpus gpu (hmem gpu List.mem_cons_self)
      exact ih _ (fun other hother => hmem other (List.mem_cons_of_mem _ hother))
        (hkept.gpuConditions policy _ hobserved hindex huuid hshare)
  unfold ThresholdIncidentPolicy.conditions
  dsimp only
  rw [if_neg (not_not.mpr honline)]
  refine hgpus _ _ (fun _ hgpu => hgpu) (ite policy _ (hsystem.addCondition ?_) hsystem)
  refine IncidentCondition.storable_of_category "gpu_processes" (by decide) rfl rfl
    (show isStorableText "GPU processes" = true by decide) hobserved (fun text htext => ?_) rfl
  cases htext
  decide

/-- The condition of a failed probe is storable. -/
theorem conditions_failed (hobserved : isStorableText result.observedAt = true)
    (hmessage : ∀ text, result.message = some text → text.length ≤ 4096)
    (hfailed : result.status ≠ .online) :
    StorableBut policy result.host (policy.alertingDisks result) (policy.conditions result) := by
  unfold ThresholdIncidentPolicy.alertingDisks ThresholdIncidentPolicy.conditions
  dsimp only
  rw [if_pos hfailed, if_pos hfailed]
  refine empty.addCondition ?_
  exact IncidentCondition.storable_of_category "connectivity" (by decide) rfl rfl
    (show isStorableText "SSH" = true by decide) hobserved hmessage rfl

end StorableBut

/-! ### Samples -/

variable {convert : Probe.Conversions} {dialect : Csv.Dialect}

/-- The results of the probes of a host: a failed probe, or the end of one whose output the
parser accepts. -/
inductive Probed (convert : Probe.Conversions) (dialect : Csv.Dialect) : ProbeResult → Prop
  | failed {result : ProbeResult} : isSafeAlias result.host = true →
      isStorableText result.observedAt = true → result.status ≠ .online →
      (∀ message, result.message = some message → message.length ≤ 4096) →
      Probed convert dialect result
  | accepted {payload : String} {parsed : Probe.ParsedResource} (collector : Probe.Collector)
      (host : String) (origin : ℕ) (started observedMonotonic : ℚ) (processSampled : Bool)
      (observedAt workloadMode : String) (thresholds : ThresholdConfig) (transportRetries : ℕ) :
      isSafeAlias host = true → isStorableText observedAt = true →
      Probe.parseResourcePayload convert dialect payload = .ok parsed →
      Probed convert dialect (Probe.acceptedResult collector host origin parsed started
        observedMonotonic processSampled observedAt workloadMode thresholds transportRetries)

/-- A safe alias is within the bounds of the decoder. -/
theorem isStorableText_of_isSafeAlias {value : String} (h : isSafeAlias value = true) :
    isStorableText value = true := by
  unfold isSafeAlias at h
  have hlength : value.length = value.toList.length := String.length_toList.symm
  split at h
  · cases h
  · next first rest hvalue =>
    rw [hvalue, List.length_cons] at hlength
    simp only [Bool.and_eq_true, decide_eq_true_eq] at h
    exact isStorableText_iff.mpr ⟨by omega, by omega⟩

/-- Host and time of a result are within the bounds of the decoder, and under a loaded policy so
are all its conditions when its alerting filesystems fit. -/
theorem Probed.storable_iff (hconfigured : policy.Configured) (h : Probed convert dialect result) :
    isStorableText result.host = true ∧ isStorableText result.observedAt = true
      ∧ ((∀ entry ∈ (policy.conditions result).entries, entry.2.isStorable = true)
        ↔ policy.DisksFit result) := by
  cases h with
  | failed hhost hobserved hfailed hmessage =>
    exact ⟨isStorableText_of_isSafeAlias hhost, hobserved,
      (StorableBut.conditions_failed policy hobserved hmessage hfailed).storable_iff⟩
  | accepted collector host origin started observedMonotonic sampled observedAt mode thresholds
      retries hhost hobserved hpayload =>
      have hwithin := Probe.within_acceptedResult hpayload collector host origin started
        observedMonotonic sampled observedAt mode thresholds retries
      exact ⟨isStorableText_of_isSafeAlias hhost, hobserved,
        (StorableBut.conditions_accepted policy hconfigured hobserved hwithin rfl).storable_iff⟩

/-- An event that reports a condition of a sample. -/
structure ThresholdIncidentPolicy.Reports (policy : ThresholdIncidentPolicy) (result : ProbeResult)
    (event : IncidentEvent) : Prop where
  one_le : 1 ≤ event.eventId
  host : event.host = result.host
  condition : ∃ key, (policy.conditions result).get? key = some event.condition
  observedAt : event.observedAt = result.observedAt

/-- The events of a sample can be read back, whatever they are numbered and whatever transition
they report, exactly when its alerting filesystems fit. -/
theorem Probed.restorable_iff (hconfigured : policy.Configured)
    (h : Probed convert dialect result) :
    (∀ event, policy.Reports result event → event.Restorable) ↔ policy.DisksFit result := by
  obtain ⟨hhost, hobserved, hiff⟩ := h.storable_iff hconfigured
  rw [← hiff]
  constructor
  · rintro hall ⟨key, condition⟩ hentry
    have hget := (Dict.get?_eq_some_iff _ _ _).mpr hentry
    have hderived := policy.conditions_derived result key condition hget
    -- Any event about the condition tells of it.
    have hevent := hall ⟨1, result.host, condition, .opened, result.observedAt⟩
      ⟨le_refl 1, rfl, ⟨key, hget⟩, rfl⟩
    have hrow := (IncidentEvent.restorable_iff hderived.criticalAt_isSome).mp hevent
    exact (isStorable_row_iff.mp hrow.2).2.1
  · rintro hall event ⟨hone, hsource, ⟨key, hget⟩, htime⟩
    have hderived := policy.conditions_derived result key event.condition hget
    have hstorable := hall (key, event.condition) ((Dict.get?_eq_some_iff _ _ _).mp hget)
    refine (IncidentEvent.restorable_iff hderived.criticalAt_isSome).mpr ⟨hone, ?_⟩
    exact isStorable_row_iff.mpr ⟨hsource ▸ hhost, hstorable, htime ▸ hobserved⟩

/-! ### Runs -/

/-- A step whose sample is of a probe, under a loaded policy, with alerting filesystems that all
fit. A restart keeps some history. -/
def StoreStep.Fits (convert : Probe.Conversions) (dialect : Csv.Dialect) : StoreStep → Prop
  | .sample taken => ∃ policy : ThresholdIncidentPolicy, taken.policy = policy.toIncidentPolicy
      ∧ policy.Configured ∧ Probed convert dialect taken.result ∧ policy.DisksFit taken.result
  | .restart _ incidentPoints _ => 0 < incidentPoints
  | _ => True

theorem StoreStep.Fits.inBounds {step : StoreStep} (h : step.Fits convert dialect) :
    step.InBounds := by
  cases step with
  | sample taken =>
    obtain ⟨policy, hpolicy, hconfigured, hprobed, hfit⟩ := h
    obtain ⟨hhost, hobserved, hiff⟩ := hprobed.storable_iff hconfigured
    refine ⟨hhost, hobserved, ?_⟩
    rw [hpolicy]
    exact hiff.mpr hfit
  | restart policy incidentPoints start => exact h
  | _ => trivial

/-- The tracker of a durable store numbers its events from one on. -/
theorem IncidentStore.Durable.one_le_nextEventId {store : IncidentStore} {fleet : Fleet}
    {set : OpenSet} {nextId : ℕ} (h : store.Durable fleet set nextId) :
    1 ≤ store.tracker.log.nextEventId :=
  (h.keeps.drain h.drains).1.numbered.one_le

/-- A step within the bounds emits restorable events only. -/
theorem IncidentStore.Durable.step_restorable {epochSeconds : String → Option ℚ}
    {store next : IncidentStore} {fleet : Fleet} {set : OpenSet} {nextId : ℕ}
    (h : store.Durable fleet set nextId) {step : StoreStep} (hbounds : step.InBounds)
    (hstep : store.step epochSeconds step = some next)
    (hall : ∀ event ∈ store.emitted, event.Restorable) :
    ∀ event ∈ next.emitted, event.Restorable := by
  have hone := h.one_le_nextEventId
  cases step with
  | sample taken =>
    rw [IncidentStore.step] at hstep
    split at hstep
    · next created tracker' hupdate =>
      obtain rfl := Option.some.inj hstep
      obtain ⟨hids, hlawful⟩ :=
        IncidentTracker.created_lawful h.represents h.lawful hbounds hupdate
      intro event hevent
      rcases List.mem_append.mp hevent with hold | hnew
      · exact hall event hold
      · obtain ⟨hhost, hobserved, hcondition⟩ := hlawful event hnew
        have hid := List.mem_map_of_mem (f := (·.eventId)) hnew
        rw [hids, List.mem_range'_1] at hid
        refine (IncidentEvent.restorable_iff hcondition.criticalAt_isSome).mpr ⟨by omega, ?_⟩
        exact isStorable_row_iff.mpr
          ⟨hhost ▸ hbounds.host, hcondition.storable, hobserved ▸ hbounds.observedAt⟩
    · cases hstep
  | recordHistory host =>
    obtain rfl := Option.some.inj hstep
    exact hall
  | recordGpuTelemetry host points =>
    obtain rfl := Option.some.inj hstep
    exact hall
  | commit count trace =>
    rw [IncidentStore.step] at hstep
    split at hstep
    · obtain rfl := Option.some.inj hstep
      exact hall
    · cases hstep
  | prune clock =>
    obtain rfl := Option.some.inj hstep
    exact hall
  | restart policy incidentPoints start =>
    rw [IncidentStore.step] at hstep
    split at hstep
    · obtain rfl := Option.some.inj hstep
      exact hall
    · cases hstep

/-- A run within the bounds emits restorable events only. -/
theorem IncidentStore.Durable.run_restorable {epochSeconds : String → Option ℚ}
    {store final : IncidentStore} {fleet : Fleet} {set : OpenSet} {nextId : ℕ}
    (h : store.Durable fleet set nextId) {steps : List StoreStep}
    (hbounds : ∀ step ∈ steps, step.InBounds) (hrun : store.run epochSeconds steps = some final)
    (hall : ∀ event ∈ store.emitted, event.Restorable) :
    ∀ event ∈ final.emitted, event.Restorable := by
  induction steps generalizing store fleet set nextId with
  | nil =>
    obtain rfl := Option.some.inj hrun
    exact hall
  | cons step rest ih =>
    rw [IncidentStore.run, List.foldlM_cons] at hrun
    obtain ⟨next, hstep, hrest⟩ := Option.bind_eq_some_iff.mp hrun
    have hfirst := hbounds step List.mem_cons_self
    obtain ⟨fleet', set', nextId', hnext⟩ := h.step hfirst hstep
    exact ih hnext (fun other hother => hbounds other (List.mem_cons_of_mem _ hother)) hrest
      (h.step_restorable hfirst hstep hall)

/-- Every event of a run can be read back from its row when the alerting filesystems of its
samples fit. Of one sample nothing less will do: all events about its conditions can be read
back exactly when its alerting filesystems fit. -/
theorem emitted_restorable (epochSeconds : String → Option ℚ) (policy : IncidentPolicy)
    (incidentPoints : ℕ) (start : Startup) (steps : List StoreStep) (store : IncidentStore)
    (hfits : ∀ step ∈ steps, step.Fits convert dialect)
    (hrun : (IncidentStore.create policy incidentPoints start).run epochSeconds steps
      = some store) :
    (∀ event ∈ store.emitted, event.Restorable)
      ∧ ∀ (configured : ThresholdIncidentPolicy) (result : ProbeResult), configured.Configured →
        Probed convert dialect result →
        ((∀ event, configured.Reports result event → event.Restorable)
          ↔ configured.DisksFit result) :=
  ⟨(IncidentStore.durable_create policy incidentPoints start).run_restorable
      (fun step hstep => (hfits step hstep).inBounds) hrun
      (fun _ hevent => absurd hevent List.not_mem_nil),
    fun _ _ hconfigured hprobed => hprobed.restorable_iff hconfigured⟩

/-! ### A full filesystem -/

/-- Under a policy that opens at the first sample, a filesystem that does not fit and is not below
the warning line is lost: the new condition is announced, and its row is refused. -/
theorem StorableBut.lost (epochSeconds : String → Option ℚ) {alerting : Dict String DiskMetrics}
    (h : StorableBut policy result.host alerting (policy.conditions result))
    (hcycles : policy.incidents.resourceOpenCycles ≤ 1)
    (hseconds : policy.incidents.resourceOpenSeconds ≤ 0) {key : String} {disk : DiskMetrics}
    (hdisk : alerting.get? key = some disk) (hlong : ¬ disk.Fits)
    (hline : (policy.thresholdsFor result.host).getD .diskWarningPct 0
      ≤ roundDigits disk.usedPct 2) (incidentPoints : ℕ) (start : Startup) (setOrder : SetOrder) :
    ∃ store, (IncidentStore.create policy.toIncidentPolicy incidentPoints start).run epochSeconds
        [.sample ⟨policy.toIncidentPolicy, setOrder, result⟩] = some store
      ∧ ∃ event ∈ store.emitted, event.condition.key = key ∧ event.state = .opened
        ∧ eventFromRow event.eventId event.row event.condition.criticalAt = none := by
  obtain ⟨-, condition, hget, hof⟩ := h.disks key disk hdisk
  obtain ⟨w, hupdate, -, htransitions, -⟩ :=
    @IncidentTracker.update_refines epochSeconds _ _ (IncidentTracker.init_represents
      policy.toIncidentPolicy incidentPoints [] []) policy.toIncidentPolicy result setOrder
  have hstep : ∃ store, (IncidentStore.create policy.toIncidentPolicy incidentPoints start).step
      epochSeconds (.sample ⟨policy.toIncidentPolicy, setOrder, result⟩) = some store
      ∧ store.emitted = w.created := by
    rw [IncidentStore.step]
    simp only [IncidentStore.create, hupdate]
    exact ⟨_, rfl, List.nil_append _⟩
  obtain ⟨store, hstep, hemitted⟩ := hstep
  refine ⟨store, ?_, ?_⟩
  · rw [IncidentStore.run, List.foldlM_cons, hstep]
    rfl
  · -- The condition was inactive and is confirmed at once.
    have hobserved : (result.reading policy.toIncidentPolicy key).observed = some condition := hget
    have hopens : ((IncidentTracker.restoredFleet policy.toIncidentPolicy.recoveryCycles []
        result.host key).step epochSeconds (result.reading policy.toIncidentPolicy key)).2
          = some (.opened, condition) := by
      have habove : condition.belowThreshold = false := by
        rw [hof.belowThreshold, decide_eq_false_iff_not, not_lt]
        exact hline
      have hconfirmed : ∀ streak, IncidentTracker.confirmed epochSeconds
          (IncidentTracker.nextStreak streak condition) condition = true := by
        intro streak
        rw [IncidentTracker.confirmed, Bool.and_eq_true, decide_eq_true_eq, hof.openAfterCycles]
        refine ⟨hcycles.trans (Nat.le_add_left 1 _), ?_⟩
        rw [IncidentTracker.sustained, hof.openAfterSeconds, if_pos hseconds]
      have hinactive : IncidentTracker.restoredFleet policy.toIncidentPolicy.recoveryCycles []
          result.host key = .inactive none := rfl
      rw [hinactive]
      simp only [Lifecycle.step, hobserved, Lifecycle.seenInactive, habove, hconfirmed,
        Bool.false_eq_true, if_false, if_true]
    have hlisted : (.opened, condition) ∈ transitionsOf w.created key := by
      rw [htransitions key, hopens]
      exact List.mem_singleton_self _
    obtain ⟨event, hevent, heq⟩ := List.mem_map.mp hlisted
    obtain ⟨hevent, hkey⟩ := List.mem_filter.mp hevent
    obtain ⟨hstate, hcondition⟩ := Prod.mk.inj heq
    refine ⟨event, hemitted ▸ hevent, of_decide_eq_true hkey, hstate, ?_⟩
    have hunstorable : ¬ event.row.isStorable = true := by
      rw [isStorable_row_iff, hcondition]
      exact fun hrow => hlong (hof.storable_iff.mp hrow.2.1)
    unfold eventFromRow
    rw [if_pos (.inr ((Bool.not_eq_true _).mp hunstorable))]

/-- A line with a tab is no marker. -/
theorem Probe.marker_eq_none {line : String} (h : (splitAt '\t' line).length ≠ 1) :
    Probe.marker line = none := by
  unfold Probe.marker
  split <;> first
    | rfl
    | exact absurd (by decide +kernel) h

/-- The number of a text of digits. -/
private def wholeNumber (text : String) : Option ℕ :=
  if text ≠ "" ∧ text.toList.all Char.isDigit then
    some (text.toList.foldl (fun n c => 10 * n + (c.toNat - 48)) 0)
  else none

private def wholeNumbers : Probe.Conversions where
  float := fun text => (wholeNumber text).map fun n => (n : ℚ)
  int := wholeNumber
  isoformat := toString

/-- The output of a host up to its filesystems. -/
private def beforeDisks : List String :=
  ["HOST\tnode-a", "CPU\t100\t40", "CORES\t8", "MEM\t2048\t1024\t0\t0", "LOAD\t1\t1\t0",
    "UPTIME\t86400", "NET\t1000\t2000", "IO\t4096\t8192", "DISKS_BEGIN"]

/-- The output after them. -/
private def afterDisks : List String :=
  ["GPUS_BEGIN", "GPUS_END", "PROCESSES_BEGIN", "PROCESSES_END", "WORKLOADS_BEGIN",
    "WORKLOADS_END", "GPU_HEALTH_BEGIN", "GPU_HEALTH_END", ""]

/-- A filesystem that is almost full. -/
private def fullDiskFields (mountpoint : String) : List String :=
  ["DISK", "/dev/sda1", "ext4", "1048576", "1038336", "10240", "99", mountpoint]

private def fullDiskPayload (mountpoint : String) : String :=
  joinWith '\n' ("MONITOR_V8" :: (beforeDisks
    ++ joinWith '\t' (fullDiskFields mountpoint) :: "DISKS_END" :: afterDisks))

/-- What the parser makes of the host. -/
private def fullHost (disks : List Probe.DiskMetrics) : Probe.ParsedResource where
  system :=
    { hostname := "node-a", cpuTotalTicks := 100, cpuIdleTicks := 40, cpuCores := 8
      memoryTotalKib := 2048, memoryAvailableKib := 1024, swapTotalKib := 0, swapFreeKib := 0
      load1m := 1, load5m := 1, load15m := 0, uptimeSeconds := 86400, networkRxBytes := 1000
      networkTxBytes := 2000, diskReadBytes := 4096, diskWriteBytes := 8192, disks
      pressure := none }
  gpus := []
  gpuMessage := none
  processesAvailable := true
  processesSampled := true

private def fullDisk (mountpoint : String) : Probe.DiskMetrics where
  device := "/dev/sda1"
  filesystemType := "ext4"
  mountpoint
  totalMib := 1024
  usedMib := 1014
  availableMib := 10
  usedPct := 99

/-- The parser accepts the filesystem under every mount point of up to 512 characters. -/
private theorem fullDisk_parsed {mountpoint : String} (htab : '\t' ∉ mountpoint.toList)
    (hline : '\n' ∉ mountpoint.toList) (hlength : mountpoint.length ≤ 512)
    (hmount : mountpoint ∉ Probe.containerFileBindMounts) :
    Probe.parseResourcePayload wholeNumbers Probe.nvidiaDialect (fullDiskPayload mountpoint)
      = .ok (fullHost [fullDisk mountpoint]) := by
  have hfields : splitAt '\t' (joinWith '\t' (fullDiskFields mountpoint))
      = fullDiskFields mountpoint := by
    refine splitAt_joinWith (fun piece hpiece => ?_) (List.cons_ne_nil _ _)
    simp only [fullDiskFields, List.mem_cons, List.not_mem_nil, or_false] at hpiece
    rcases hpiece with rfl | rfl | rfl | rfl | rfl | rfl | rfl | rfl
    all_goals first | exact htab | decide
  have hlines : splitAt '\n' (fullDiskPayload mountpoint) = "MONITOR_V8" :: (beforeDisks
      ++ joinWith '\t' (fullDiskFields mountpoint) :: "DISKS_END" :: afterDisks) := by
    refine splitAt_joinWith (fun piece hpiece => ?_) (List.cons_ne_nil _ _)
    have hplain : ∀ piece ∈ "MONITOR_V8" :: (beforeDisks ++ "DISKS_END" :: afterDisks),
        '\n' ∉ piece.toList := by decide +kernel
    by_cases hrow : piece = joinWith '\t' (fullDiskFields mountpoint)
    · rw [hrow, joinWith, String.toList_ofList]
      simp only [fullDiskFields, List.map_cons, List.map_nil]
      simp [List.intercalate, hline]
    · refine hplain piece ?_
      simpa [hrow] using hpiece
  have hopened : ((beforeDisks.foldlM (Probe.scanLine wholeNumbers) {}).toOption.map fun scan =>
      (scan.inside, scan.disks, decide (.begins .disks ∈ scan.sectionMarkers)))
      = some (some .disks, [], true) := by decide +kernel
  have hbase : Probe.parseLines wholeNumbers Probe.nvidiaDialect
      ("MONITOR_V8" :: (beforeDisks ++ "DISKS_END" :: afterDisks)) = .ok (fullHost []) := by
    decide +kernel
  obtain ⟨opened, hsome, hopened⟩ := Option.map_eq_some_iff.mp hopened
  have hread : beforeDisks.foldlM (Probe.scanLine wholeNumbers) {} = .ok opened := by
    cases hfold : beforeDisks.foldlM (Probe.scanLine wholeNumbers) {} with
    | ok scan =>
      rw [hfold] at hsome
      rw [Option.some.inj hsome]
    | error message =>
      rw [hfold] at hsome
      cases hsome
  simp only [Prod.mk.injEq, decide_eq_true_eq] at hopened
  obtain ⟨hinside, hdisks, hbegun⟩ := hopened
  have hdisk : Probe.diskOfRow wholeNumbers (fullDiskFields mountpoint)
      = .ok (fullDisk mountpoint) := by
    have hcut : String.ofList (mountpoint.toList.take 512) = mountpoint := by
      rw [List.take_of_length_le (by rw [String.length_toList]; exact hlength),
        String.ofList_toList]
    have htotal : Probe.requiredNumber wholeNumbers "1048576" "disk total" = .ok 1048576 := by
      decide +kernel
    have hused : Probe.requiredNumber wholeNumbers "1038336" "disk used" = .ok 1038336 := by
      decide +kernel
    have havailable : Probe.requiredNumber wholeNumbers "10240" "disk available" = .ok 10240 := by
      decide +kernel
    have hpct : Probe.requiredNumber wholeNumbers "99" "disk usage" = .ok 99 := by decide +kernel
    have hdevice : String.ofList ("/dev/sda1".toList.take 255) = "/dev/sda1" := by decide +kernel
    have htype : String.ofList ("ext4".toList.take 64) = "ext4" := by decide +kernel
    have hsizes : roundDigits ((1048576 : ℚ) / 1024) 1 = 1024
        ∧ roundDigits ((1038336 : ℚ) / 1024) 1 = 1014 ∧ roundDigits ((10240 : ℚ) / 1024) 1 = 10
        ∧ min 100 (99 : ℚ) = 99 := by decide +kernel
    have hrow : Probe.diskOfRow wholeNumbers (fullDiskFields mountpoint) = .ok
        { device := String.ofList ("/dev/sda1".toList.take 255)
          filesystemType := String.ofList ("ext4".toList.take 64)
          mountpoint := String.ofList (mountpoint.toList.take 512)
          totalMib := roundDigits (1048576 / 1024) 1
          usedMib := roundDigits (1038336 / 1024) 1
          availableMib := roundDigits (10240 / 1024) 1
          usedPct := min 100 99 } :=
      bind_eq_ok.mpr ⟨_, htotal, bind_eq_ok.mpr ⟨_, hused,
        bind_eq_ok.mpr ⟨_, havailable, bind_eq_ok.mpr ⟨_, hpct, rfl⟩⟩⟩⟩
    rw [hrow, hcut, hdevice, htype, hsizes.1, hsizes.2.1, hsizes.2.2.1, hsizes.2.2.2]
    rfl
  rw [Probe.parseResourcePayload, hlines]
  exact Probe.parseLines_disk hread hinside hdisks hbegun
    (Probe.marker_eq_none (by rw [hfields]; exact (by decide : 8 ≠ 1)))
    (by rw [hfields]; exact ⟨rfl, rfl⟩)
    (by rw [hfields]; exact hmount) (by rw [hfields]; exact hdisk) hbase

/-- Settings under which the first sample opens a condition. -/
private def promptPolicy : ThresholdIncidentPolicy :=
  ⟨({} : ThresholdConfig).toDict, ∅, { resourceOpenCycles := 1, resourceOpenSeconds := 0 }, ∅, ∅, ∅⟩

/-- The sample of the host. -/
private def fullDiskSample (mountpoint : String) : ProbeResult :=
  Probe.acceptedResult {} "node-a" 1 (fullHost [fullDisk mountpoint]) 0 1 true "10" "none" {} 0

private def emptyHistory : Startup where
  clock := ⟨"00", "00", true⟩
  companionsBefore := true
  companionsEnabled := true
  rollupsEnabled := true
  busyPct := 50

/-- The seconds of a sample. -/
private def wholeSeconds (observedAt : String) : Option ℚ := wholeNumbers.float observedAt

/-- The filesystem is over the warning line. -/
private theorem alertingDisks_fullDisk (mountpoint : String) :
    promptPolicy.alertingDisks (fullDiskSample mountpoint)
      = (∅ : Dict String DiskMetrics).set (diskKey (fullDisk mountpoint).observed)
          (fullDisk mountpoint).observed := by
  have halerts : promptPolicy.Alerts "node-a" (fullDisk mountpoint).observed := by
    refine ⟨List.not_mem_nil, ?_⟩
    show _ ≤ (99 : ℚ)
    decide +kernel
  show promptPolicy.addAlerting "node-a" ∅ (fullDisk mountpoint).observed = _
  rw [ThresholdIncidentPolicy.addAlerting, if_pos halerts]

private theorem probed_fullDisk {mountpoint : String} (htab : '\t' ∉ mountpoint.toList)
    (hline : '\n' ∉ mountpoint.toList) (hlength : mountpoint.length ≤ 512)
    (hmount : mountpoint ∉ Probe.containerFileBindMounts) :
    Probed wholeNumbers Probe.nvidiaDialect (fullDiskSample mountpoint) :=
  .accepted _ _ _ _ _ _ _ _ _ _ (by decide) (by decide)
    (fullDisk_parsed htab hline hlength hmount)

private theorem promptPolicy_configured : promptPolicy.Configured := by
  intro host expected hnone
  simp [promptPolicy] at hnone

/-- The run of a new store with that sample. -/
private def fullDiskRun (mountpoint : String) : Option IncidentStore :=
  (IncidentStore.create promptPolicy.toIncidentPolicy 20 emptyHistory).run wholeSeconds
    [.sample ⟨promptPolicy.toIncidentPolicy, ⟨id, List.Perm.refl⟩,
      fullDiskSample mountpoint⟩]

private theorem fits_shortMount : (StoreStep.sample ⟨promptPolicy.toIncidentPolicy,
    ⟨id, List.Perm.refl⟩, fullDiskSample "/data"⟩).Fits wholeNumbers
      Probe.nvidiaDialect := by
  have hprobed := probed_fullDisk (by decide : '\t' ∉ "/data".toList)
    (by decide : '\n' ∉ "/data".toList) (by decide) (by decide)
  have hfit : promptPolicy.DisksFit (fullDiskSample "/data") := by
    rw [ThresholdIncidentPolicy.DisksFit, alertingDisks_fullDisk]
    decide +kernel
  exact ⟨promptPolicy, rfl, promptPolicy_configured, hprobed, hfit⟩

/-- With a short mount point the condition is announced, and its event can be read back. -/
theorem emitted_restorable_shortMount :
    ∃ store, fullDiskRun "/data" = some store
      ∧ (store.emitted.map fun event => (event.eventId, event.condition.key, event.state))
        = [(1, "disk:/dev/sda1:/data", .opened)]
      ∧ (∀ event ∈ store.emitted, event.Restorable) := by
  have hevents : (fullDiskRun "/data").map (fun store =>
      store.emitted.map fun event => (event.eventId, event.condition.key, event.state))
      = some [(1, "disk:/dev/sda1:/data", .opened)] := by decide +kernel
  obtain ⟨store, hrun, hopened⟩ := Option.map_eq_some_iff.mp hevents
  have hall := emitted_restorable wholeSeconds _ 20 emptyHistory _ store
    (fun step hstep => List.mem_singleton.mp hstep ▸ fits_shortMount) hrun
  exact ⟨store, hrun, hopened, hall.1⟩

/-- A mount point with a name of some length. -/
private def mountOf (length : ℕ) : String := String.ofList ('/' :: List.replicate length 'm')

private theorem length_mountOf (length : ℕ) : (mountOf length).length = length + 1 := by
  rw [mountOf, String.length_ofList, List.length_cons, List.length_replicate]

private theorem not_mem_mountOf (length : ℕ) {c : Char} (hslash : c ≠ '/') (hletter : c ≠ 'm') :
    c ∉ (mountOf length).toList := by
  intro hmem
  rw [mountOf, String.toList_ofList] at hmem
  rcases List.mem_cons.mp hmem with hfirst | hrest
  · exact hslash hfirst
  · exact hletter (List.eq_of_mem_replicate hrest)

/-- A mount point of 512 characters. -/
private def longMount : String := mountOf 511

/-- With a mount point of 512 characters, which the parser accepts, the row of the announced event
is refused. -/
theorem longMount_lost :
    Probe.parseResourcePayload wholeNumbers Probe.nvidiaDialect (fullDiskPayload longMount)
        = .ok (fullHost [fullDisk longMount])
      ∧ ∃ store, fullDiskRun longMount = some store
        ∧ ∃ event ∈ store.emitted,
          event.condition.key = diskKey (fullDisk longMount).observed ∧ event.state = .opened
          ∧ eventFromRow event.eventId event.row event.condition.criticalAt = none := by
  have hlength : longMount.length = 512 := length_mountOf 511
  have hplain : ∀ {c : Char}, c ≠ '/' → c ≠ 'm' → c ∉ longMount.toList := not_mem_mountOf 511
  -- From here on only the length and these characters matter.
  generalize longMount = mountpoint at hlength hplain ⊢
  have hmount : mountpoint ∉ Probe.containerFileBindMounts := by
    intro hmem
    have hshort : ∀ mount ∈ Probe.containerFileBindMounts, mount.length ≤ 100 := by decide
    have hbound := hshort _ hmem
    omega
  have htab : '\t' ∉ mountpoint.toList := hplain (by decide) (by decide)
  have hline : '\n' ∉ mountpoint.toList := hplain (by decide) (by decide)
  have hparsed := fullDisk_parsed htab hline (by omega) hmount
  have hwithin := Probe.within_acceptedResult hparsed {} "node-a" 1 0 1 true "10" "none" {} 0
  have hstorable := StorableBut.conditions_accepted promptPolicy promptPolicy_configured
    (show isStorableText "10" = true by decide) hwithin rfl
  have hdisk : (promptPolicy.alertingDisks (fullDiskSample mountpoint)).get?
      (diskKey (fullDisk mountpoint).observed) = some (fullDisk mountpoint).observed := by
    rw [alertingDisks_fullDisk, Dict.get?_set, if_pos rfl]
  have hlong : ¬ (fullDisk mountpoint).observed.Fits := by
    rintro ⟨-, hbound⟩
    have hmountpoint : (fullDisk mountpoint).observed.mountpoint = mountpoint := rfl
    rw [hmountpoint] at hbound
    omega
  have hwarning : (promptPolicy.thresholdsFor "node-a").getD .diskWarningPct 0
      ≤ roundDigits 99 2 := by decide +kernel
  exact ⟨hparsed, hstorable.lost wholeSeconds (le_refl 1) (le_refl (0 : ℚ)) hdisk hlong hwarning 20
    emptyHistory ⟨id, List.Perm.refl⟩⟩

end Mocop
