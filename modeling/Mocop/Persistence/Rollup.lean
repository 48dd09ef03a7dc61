import Mocop.Lib.Totals
import Mocop.Persistence.Gpu
import Mathlib.Algebra.Group.Prod
import Mathlib.Data.String.Basic

/-!
# `Mocop.Persistence.Rollup`: each sample is counted once

The `Ledger` remembers, for every raw point that was ever accepted, the point as it was last
written and the busy threshold of that time. It is the history of a run, and no table of the
program. `Ledger.row` is the hour as it should be: the aggregate of the ledger over the hour,
with a missing memory size counted as zero.

`GpuTables.Accounts` relates the tables to the ledger for every hour that rollup retention
did not delete. Each operation keeps it: `Accounts.writeGpuPoint`, `Accounts.pruneGpu`,
`Accounts.pruneRollups` and `Accounts.ensureRollups`. `Accounts.hourly_eq` reads the result
off, and `Accounts.rebuild` compares the rollup with one rebuilt from the raw points.
-/

set_option autoImplicit false

namespace Mocop

/-- The numeric columns of a row that add up. -/
def HourlyRow.totals (row : HourlyRow) : ℤ × ℤ × ℤ × ℚ × ℤ × ℚ :=
  (row.samples, row.utilizationSamples, row.busySamples, row.utilizationSum,
    row.memorySamples, row.memoryUsedSum)

/-- A row with a missing memory maximum counted as zero. -/
def HourlyRow.nullAsZero (row : HourlyRow) : HourlyRow :=
  { row with memoryTotalMax := some (coalesce row.memoryTotalMax) }

/-- A raw point as it was last written, and the busy threshold of that time. -/
structure LedgerEntry where
  point : GpuPoint
  busyPct : ℚ
  deriving DecidableEq

/-- What the entry contributes to its hour. -/
def LedgerEntry.contribution (entry : LedgerEntry) : HourlyRow :=
  rollupRow entry.point entry.busyPct

/-- The raw points that were ever accepted. -/
abbrev Ledger := Dict PointKey LedgerEntry

namespace Ledger

variable (ledger : Ledger)

/-- What the points of one hour contribute. -/
def contributions (hour : HourKey) : List HourlyRow :=
  (ledger.entries.filter (fun e => e.1.hour = hour)).map (fun e => e.2.contribution)

/-- The aggregate of one hour. -/
def row (hour : HourKey) : Option HourlyRow :=
  match ledger.contributions hour with
  | [] => none
  | rows => some
    { samples := rows.length
      utilizationSamples := (rows.map (·.utilizationSamples)).sum
      busySamples := (rows.map (·.busySamples)).sum
      utilizationSum := (rows.map (·.utilizationSum)).sum
      memorySamples := (rows.map (·.memorySamples)).sum
      memoryUsedSum := (rows.map (·.memoryUsedSum)).sum
      memoryTotalMax := some (peak (rows.map (fun row => coalesce row.memoryTotalMax))) }

/-- The sums of one hour. -/
def totals (hour : HourKey) : ℤ × ℤ × ℤ × ℚ × ℤ × ℚ :=
  ledger.total (fun key entry => if key.hour = hour then entry.contribution.totals else 0)

/-- `x` is at least zero and every memory size of one hour, with a missing size counted as
zero. -/
def Bounded (hour : HourKey) (x : ℚ) : Prop :=
  0 ≤ x ∧ ∀ key entry, ledger.get? key = some entry → key.hour = hour →
    coalesce entry.point.memoryTotalMib ≤ x

/-- Records the points of one telemetry write. -/
def record (host : String) (points : List GpuPoint) (busyPct : ℚ) : Ledger :=
  points.foldl
    (fun ledger point => ledger.set (host, point.gpuId, point.observedAt) ⟨point, busyPct⟩) ledger

end Ledger

/-! ### Maxima -/

/-- The upper bounds of a fold whose step keeps the bounds that its two sides share. -/
private theorem coalesce_foldl_le_iff {step : Option ℚ → Option ℚ → Option ℚ} {x : ℚ}
    (hstep : ∀ best value, 0 ≤ coalesce best → 0 ≤ coalesce value →
      0 ≤ coalesce (step best value)
        ∧ (coalesce (step best value) ≤ x ↔ coalesce best ≤ x ∧ coalesce value ≤ x))
    (values : List (Option ℚ)) :
    ∀ start : Option ℚ, 0 ≤ coalesce start → (∀ value ∈ values, 0 ≤ coalesce value) →
      (coalesce (values.foldl step start) ≤ x
        ↔ coalesce start ≤ x ∧ ∀ value ∈ values, coalesce value ≤ x) := by
  induction values with
  | nil => intro start _ _; simp
  | cons value rest ih =>
    intro start hstart hvalues
    have hrest := fun other hother => hvalues other (List.mem_cons_of_mem value hother)
    obtain ⟨hnonneg, hle⟩ := hstep start value hstart (hvalues value List.mem_cons_self)
    rw [List.foldl_cons, List.forall_mem_cons, ← and_assoc, ih _ hnonneg hrest, hle]

/-- The upper bounds of an aggregate maximum over values that are not negative. -/
theorem coalesce_sqlMax_le_iff {values : List (Option ℚ)}
    (hnonneg : ∀ value ∈ values, 0 ≤ coalesce value) {x : ℚ} :
    coalesce (sqlMax values) ≤ x ↔ 0 ≤ x ∧ ∀ value ∈ values, coalesce value ≤ x := by
  refine coalesce_foldl_le_iff (fun best value hbest hvalue => ?_) values none le_rfl hnonneg
  cases best with
  | none =>
    have hzero : coalesce value ≤ x ↔ coalesce none ≤ x ∧ coalesce value ≤ x :=
      ⟨fun h => ⟨le_trans hvalue h, h⟩, fun h => h.2⟩
    exact ⟨hvalue, hzero⟩
  | some best =>
    cases value with
    | none =>
      have hzero : coalesce (some best) ≤ x ↔ coalesce (some best) ≤ x ∧ coalesce none ≤ x :=
        ⟨fun h => ⟨h, le_trans hbest h⟩, fun h => h.1⟩
      exact ⟨hbest, hzero⟩
    | some value => exact ⟨le_trans hbest (le_max_left _ _), max_le_iff⟩

/-- A memory size is not negative, and a missing one counts as zero. -/
theorem GpuPoint.coalesce_nonneg (point : GpuPoint) : 0 ≤ coalesce point.memoryTotalMib := by
  cases h : point.memoryTotalMib with
  | none => exact le_rfl
  | some total => exact point.memoryTotal_nonneg total h

/-! ### Sums -/

/-- The upsert of a contribution adds its columns. -/
theorem totals_add (row : HourlyRow) (point : GpuPoint) (busyPct : ℚ) :
    (row.add (rollupRow point busyPct)).totals = row.totals + (rollupRow point busyPct).totals :=
  rfl

/-- The removal of a replaced contribution takes its columns back, as they were counted. -/
theorem totals_subtract (row : HourlyRow) (old : GpuPoint) (busyPct counted : ℚ) :
    (row.subtract (rollupRow old busyPct) (rollupRow old counted).busySamples).totals
      = row.totals - (rollupRow old counted).totals := rfl

/-! ### The tables and the ledger -/

/-- The archived memory maximum of an hour, zero without one. -/
def GpuTables.retiredPeak (tables : GpuTables) (hour : HourKey) : ℚ :=
  coalesce (tables.retiredMemory.get? hour).join

/-- The tables store the raw points of the ledger: each one as it was last written, together
with how it was counted. Only points before the boundary are missing, and the archived
maximum of an hour that rollup retention did not delete is that of its missing points. -/
structure GpuTables.Stores (tables : GpuTables) (ledger : Ledger) (lost : List HourKey) :
    Prop where
  stored : ∀ key point, tables.history.get? key = some point →
    ∃ busyPct, ledger.get? key = some ⟨point, busyPct⟩
      ∧ tables.busy.get? key = some (rollupRow point busyPct).busySamples
  expired : ∀ key entry, ledger.get? key = some entry → tables.history.get? key = none →
    ∃ boundary, tables.retention = some boundary ∧ key.2.2 < boundary
  retired : ∀ hour ∉ lost, ∀ x, tables.retiredPeak hour ≤ x
    ↔ 0 ≤ x ∧ ∀ key entry, ledger.get? key = some entry → tables.history.get? key = none →
      key.hour = hour → coalesce entry.point.memoryTotalMib ≤ x

/-- The tables account for the ledger: they store its raw points, and an hour that rollup
retention did not delete has a row exactly when the ledger has a point in it, with the sums
and the memory maximum of the ledger. -/
structure GpuTables.Accounts (tables : GpuTables) (ledger : Ledger) (lost : List HourKey) :
    Prop extends tables.Stores ledger lost where
  hasRow : ∀ hour ∉ lost, (tables.hourly.get? hour).isSome = true
    ↔ ∃ key entry, ledger.get? key = some entry ∧ key.hour = hour
  totals : ∀ hour ∉ lost, ∀ row, tables.hourly.get? hour = some row →
    row.totals = ledger.totals hour
  memory : ∀ hour ∉ lost, ∀ row, tables.hourly.get? hour = some row → ∀ x,
    coalesce row.memoryTotalMax ≤ x ↔ Ledger.Bounded ledger hour x

namespace GpuTables

/-- The tables of a new database account for an empty ledger. -/
theorem accounts_empty : Accounts ⟨∅, ∅, ∅, ∅, none⟩ ∅ [] where
  stored := fun _ _ hget => absurd hget (by simp)
  expired := fun _ _ hget => absurd hget (by simp)
  retired := fun hour _ x => by
    show (0 : ℚ) ≤ x ↔ _
    simp
  hasRow := fun hour _ => by simp
  totals := fun _ _ _ hget => absurd hget (by simp)
  memory := fun _ _ _ hget => absurd hget (by simp)

variable {tables : GpuTables} {ledger : Ledger} {lost : List HourKey}

variable {hour : HourKey} {boundary : String} {key : PointKey}

/-- The raw points of an hour, by their keys. -/
theorem mem_pointsOf {e : PointKey × GpuPoint} :
    e ∈ tables.pointsOf hour ↔ tables.history.get? e.1 = some e.2 ∧ e.1.hour = hour := by
  have hparts : e.1.hour = hour → e.1.1 = hour.1 ∧ e.1.2.1 = hour.2.1 := by
    rintro rfl
    exact ⟨rfl, rfl⟩
  rw [pointsOf, List.mem_filter, ← Dict.get?_eq_some_iff]
  simp only [Bool.and_eq_true, decide_eq_true_eq]
  exact ⟨fun hmem => ⟨hmem.1, hmem.2.2⟩, fun hmem => ⟨hmem.1, hparts hmem.2, hmem.2⟩⟩

/-- The upper bounds of the maximum over the raw points of an hour. -/
theorem pointsMax_le_iff {hour : HourKey} (x : ℚ) :
    coalesce (sqlMax ((tables.pointsOf hour).map (fun e => e.2.memoryTotalMib))) ≤ x
      ↔ 0 ≤ x ∧ ∀ key point, tables.history.get? key = some point → key.hour = hour →
        coalesce point.memoryTotalMib ≤ x := by
  rw [coalesce_sqlMax_le_iff]
  · simp only [List.forall_mem_map, mem_pointsOf, and_imp, Prod.forall]
  · simp only [List.forall_mem_map]
    exact fun e _ => e.2.coalesce_nonneg

/-- The recomputed memory maximum of an hour is that of its stored points and the archived
one. -/
theorem memoryMaximum_le_iff_max (hour : HourKey) (hretired : 0 ≤ tables.retiredPeak hour)
    (x : ℚ) :
    coalesce (tables.memoryMaximum hour) ≤ x
      ↔ coalesce (sqlMax ((tables.pointsOf hour).map (fun e => e.2.memoryTotalMib))) ≤ x
        ∧ tables.retiredPeak hour ≤ x := by
  have hstored := ((@pointsMax_le_iff tables hour _).mp le_rfl).1
  unfold memoryMaximum
  unfold retiredPeak at hretired ⊢
  cases hget : tables.retiredMemory.get? hour with
  | none =>
    rw [coalesce_sqlMax_le_iff (by simpa using hstored)]
    simp only [List.forall_mem_cons, List.not_mem_nil, false_implies, implies_true, and_true,
      Option.join_none]
    exact and_comm
  | some retired =>
    rw [hget] at hretired
    simp only [Option.join_some] at hretired ⊢
    rw [coalesce_sqlMax_le_iff (by simpa using ⟨hstored, hretired⟩)]
    simp only [List.forall_mem_cons, List.not_mem_nil, false_implies, implies_true, and_true]
    exact ⟨fun hx => hx.2, fun hx => ⟨le_trans hstored hx.1, hx⟩⟩

/-- The recomputed memory maximum of an hour is that of the ledger. -/
theorem Stores.memoryMaximum_le_iff (h : tables.Stores ledger lost) (hlost : hour ∉ lost) (x : ℚ) :
    coalesce (tables.memoryMaximum hour) ≤ x ↔ Ledger.Bounded ledger hour x := by
  have hretired := h.retired hour hlost
  rw [memoryMaximum_le_iff_max hour ((hretired _).mp le_rfl).1, pointsMax_le_iff, hretired]
  constructor
  · rintro ⟨⟨hx, hpoint⟩, -, hmissing⟩
    refine ⟨hx, fun key entry hentry hhour => ?_⟩
    cases hget : tables.history.get? key with
    | none => exact hmissing key entry hentry hget hhour
    | some point =>
      obtain ⟨busyPct, hledger, -⟩ := h.stored key point hget
      obtain rfl := Option.some.inj (hledger.symm.trans hentry)
      exact hpoint key point hget hhour
  · rintro ⟨hx, hall⟩
    refine ⟨⟨hx, fun key point hget hhour => ?_⟩, hx,
      fun key entry hentry _ hhour => hall key entry hentry hhour⟩
    obtain ⟨busyPct, hledger, -⟩ := h.stored key point hget
    exact hall key ⟨point, busyPct⟩ hledger hhour

/-! ### Writing one point -/

/-- A point that is not before the boundary was never expired: it is new, or it is still
stored. -/
theorem Stores.admitted (h : tables.Stores ledger lost)
    (hboundary : tables.retention = some boundary) (hafter : boundary ≤ key.2.2)
    (hget : tables.history.get? key = none) : ledger.get? key = none := by
  cases hledger : ledger.get? key with
  | none => rfl
  | some entry =>
    obtain ⟨stored, hstored, hbefore⟩ := h.expired key entry hledger hget
    obtain rfl := Option.some.inj (hstored.symm.trans hboundary)
    exact absurd hbefore (not_lt.mpr hafter)

/-- Storing an admitted point together with how it was counted. -/
theorem Stores.write (h : tables.Stores ledger lost) (hboundary : tables.retention = some boundary)
    (hafter : boundary ≤ key.2.2) (point : GpuPoint) (busyPct : ℚ) {written : GpuTables}
    (hhistory : written.history = tables.history.set key point)
    (hbusy : written.busy = tables.busy.set key (rollupRow point busyPct).busySamples)
    (hretiredMemory : written.retiredMemory = tables.retiredMemory)
    (hretention : written.retention = tables.retention) :
    written.Stores (ledger.set key ⟨point, busyPct⟩) lost where
  stored := fun key' point' hget => by
    rw [hhistory, Dict.get?_set] at hget
    rw [hbusy, Dict.get?_set, Dict.get?_set]
    split at hget
    · next heq =>
      obtain rfl := Option.some.inj hget
      exact ⟨busyPct, by rw [if_pos heq], by rw [if_pos heq]⟩
    · next hne =>
      rw [if_neg hne, if_neg hne]
      exact h.stored key' point' hget
  expired := fun key' entry hentry hget => by
    rw [hhistory, Dict.get?_set] at hget
    split at hget
    · exact absurd hget (by simp)
    · next hne =>
      rw [Dict.get?_set, if_neg hne] at hentry
      rw [hretention]
      exact h.expired key' entry hentry hget
  retired := fun hour hlost x => by
    rw [retiredPeak, hretiredMemory]
    refine (h.retired hour hlost x).trans (and_congr_right fun _ => ?_)
    rw [hhistory]
    constructor
    · intro hall key' entry hentry hget hhour
      rw [Dict.get?_set] at hentry hget
      split at hget
      · exact absurd hget (by simp)
      · next hne => exact hall key' entry (by rwa [if_neg hne] at hentry) hget hhour
    · intro hall key' entry hentry hget hhour
      -- The written key itself was not missing.
      have hne : key' ≠ key := by
        rintro rfl
        rw [h.admitted hboundary hafter hget] at hentry
        exact absurd hentry (by simp)
      refine hall key' entry ?_ ?_ hhour
      · rw [Dict.get?_set, if_neg hne, hentry]
      · rw [Dict.get?_set, if_neg hne, hget]

/-- The sums of the ledger after a point was recorded. -/
theorem totals_set (ledger : Ledger) (key : PointKey) (entry : LedgerEntry) (hour : HourKey) :
    Ledger.totals (ledger.set key entry) hour = Ledger.totals ledger hour
      - (if key.hour = hour then ((ledger.get? key).map (·.contribution.totals)).getD 0 else 0)
      + (if key.hour = hour then entry.contribution.totals else 0) := by
  unfold Ledger.totals
  rw [Dict.total_set]
  split
  · rfl
  · cases ledger.get? key <;> rfl

/-- Tables that store a recorded point account for it when no other hour changed and its own
hour has the sums and the memory maximum of the ledger. -/
theorem Accounts.write (h : tables.Accounts ledger lost) {entry : LedgerEntry} {written : GpuTables}
    (hstores : written.Stores (ledger.set key entry) lost)
    (hother : ∀ hour, key.hour ≠ hour → written.hourly.get? hour = tables.hourly.get? hour)
    (hown : key.hour ∉ lost → ∃ row, written.hourly.get? key.hour = some row
      ∧ row.totals = Ledger.totals (ledger.set key entry) key.hour
      ∧ ∀ x, coalesce row.memoryTotalMax ≤ x
        ↔ Ledger.Bounded (ledger.set key entry) key.hour x) :
    written.Accounts (ledger.set key entry) lost := by
  -- The points of another hour are those of the ledger before.
  have hpoint : ∀ hour, key.hour ≠ hour → ∀ key' entry', key'.hour = hour →
      ((ledger.set key entry).get? key' = some entry' ↔ ledger.get? key' = some entry') := by
    rintro hour hne key' entry' rfl
    rw [Dict.get?_set, if_neg (fun heq => hne (congrArg PointKey.hour heq).symm)]
  refine ⟨hstores, fun hour hlost => ?_, fun hour hlost row hrow => ?_,
    fun hour hlost row hrow x => ?_⟩
  · by_cases hhour : key.hour = hour
    · subst hhour
      obtain ⟨row, hrow, -⟩ := hown hlost
      rw [hrow]
      exact ⟨fun _ => ⟨key, entry, by simp, rfl⟩, fun _ => rfl⟩
    · rw [hother hour hhour, h.hasRow hour hlost]
      constructor
      · rintro ⟨key', entry', hget, hkey⟩
        exact ⟨key', entry', (hpoint hour hhour key' entry' hkey).mpr hget, hkey⟩
      · rintro ⟨key', entry', hget, hkey⟩
        exact ⟨key', entry', (hpoint hour hhour key' entry' hkey).mp hget, hkey⟩
  · by_cases hhour : key.hour = hour
    · subst hhour
      obtain ⟨row', hrow', htotals, -⟩ := hown hlost
      obtain rfl := Option.some.inj (hrow'.symm.trans hrow)
      exact htotals
    · rw [hother hour hhour] at hrow
      rw [totals_set, if_neg hhour, if_neg hhour, sub_zero, add_zero]
      exact h.totals hour hlost row hrow
  · by_cases hhour : key.hour = hour
    · subst hhour
      obtain ⟨row', hrow', -, hmemory⟩ := hown hlost
      obtain rfl := Option.some.inj (hrow'.symm.trans hrow)
      exact hmemory x
    · rw [hother hour hhour] at hrow
      refine (h.memory hour hlost row hrow x).trans (and_congr_right fun _ => ?_)
      constructor
      · intro hall key' entry' hget hkey
        exact hall key' entry' ((hpoint hour hhour key' entry' hkey).mp hget) hkey
      · intro hall key' entry' hget hkey
        exact hall key' entry' ((hpoint hour hhour key' entry' hkey).mpr hget) hkey

/-- The bounds of an hour after a new point was recorded in it. -/
theorem bounded_set_of_none (entry : LedgerEntry) (hnone : ledger.get? key = none) (x : ℚ) :
    Ledger.Bounded (ledger.set key entry) key.hour x
      ↔ Ledger.Bounded ledger key.hour x ∧ coalesce entry.point.memoryTotalMib ≤ x := by
  constructor
  · rintro ⟨hx, hall⟩
    refine ⟨⟨hx, fun key' entry' hget hhour => ?_⟩, hall key entry (by simp) rfl⟩
    refine hall key' entry' ?_ hhour
    rw [Dict.get?_set, if_neg, hget]
    rintro rfl
    rw [hnone] at hget
    exact absurd hget (by simp)
  · rintro ⟨⟨hx, hall⟩, hentry⟩
    refine ⟨hx, fun key' entry' hget hhour => ?_⟩
    rw [Dict.get?_set] at hget
    split at hget
    · rw [← Option.some.inj hget]
      exact hentry
    · exact hall key' entry' hget hhour

/-- An hour without a row has no point in the ledger. -/
theorem Accounts.of_no_row (h : tables.Accounts ledger lost) (hlost : hour ∉ lost)
    (hnone : tables.hourly.get? hour = none) :
    (∀ key entry, ledger.get? key = some entry → key.hour ≠ hour)
      ∧ Ledger.totals ledger hour = 0 ∧ ∀ x, Ledger.Bounded ledger hour x ↔ 0 ≤ x := by
  have hempty : ∀ key entry, ledger.get? key = some entry → key.hour ≠ hour := by
    intro key entry hget hhour
    have hrow := (h.hasRow hour hlost).mpr ⟨key, entry, hget, hhour⟩
    rw [hnone] at hrow
    exact absurd hrow (by simp)
  refine ⟨hempty, ?_, fun x => and_iff_left fun key entry hget hhour => ?_⟩
  · unfold Ledger.totals Dict.total
    refine List.sum_eq_zero fun value hvalue => ?_
    obtain ⟨e, he, rfl⟩ := List.mem_map.mp hvalue
    exact if_neg (hempty e.1 e.2 ((Dict.get?_eq_some_iff _ _ _).mpr he))
  · exact absurd hhour (hempty key entry hget)

/-- The upsert of a point adds it to the row of its hour, or starts one with it. -/
theorem upsertRollups_eq (host : String) (point : GpuPoint) (busyPct : ℚ) :
    tables.upsertRollups host point busyPct = { tables with
      hourly := tables.hourly.set (PointKey.hour (host, point.gpuId, point.observedAt))
        ((tables.hourly.get? (PointKey.hour (host, point.gpuId, point.observedAt))).elim
          (rollupRow point busyPct) (·.add (rollupRow point busyPct))) } := by
  unfold upsertRollups
  dsimp only
  cases tables.hourly.get? (PointKey.hour (host, point.gpuId, point.observedAt)) with
  | none => rfl
  | some row => rfl

/-- Writing an admitted point accounts for it, whether it is new or replaces another one. -/
theorem Accounts.writeGpuPoint (h : tables.Accounts ledger lost) (host : String) (point : GpuPoint)
    (busyPct : ℚ) (hboundary : tables.retention = some boundary)
    (hafter : boundary ≤ point.observedAt) :
    (tables.writeGpuPoint host (some busyPct) point).Accounts
      (ledger.set (host, point.gpuId, point.observedAt) ⟨point, busyPct⟩) lost := by
  set key : PointKey := (host, point.gpuId, point.observedAt) with hkey
  have hstored : ∀ {written : GpuTables},
      written.history = tables.history.set key point →
      written.busy = tables.busy.set key (rollupRow point busyPct).busySamples →
      written.retiredMemory = tables.retiredMemory → written.retention = tables.retention →
      written.Stores (ledger.set key ⟨point, busyPct⟩) lost :=
    h.toStores.write hboundary hafter point busyPct
  cases hold : tables.history.get? key with
  | none =>
    have hnone := h.admitted hboundary hafter hold
    have hwritten : tables.writeGpuPoint host (some busyPct) point
        = { tables with
            history := tables.history.set key point
            hourly := tables.hourly.set key.hour
              ((tables.hourly.get? key.hour).elim (rollupRow point busyPct)
                (·.add (rollupRow point busyPct)))
            busy := tables.busy.set key (rollupRow point busyPct).busySamples } := by
      rw [GpuTables.writeGpuPoint]
      simp only [← hkey, hold, upsertRollups_eq]
    rw [hwritten]
    refine h.write (hstored rfl rfl rfl rfl) (fun hour hne => ?_) fun hlost => ?_
    · rw [Dict.get?_set, if_neg (Ne.symm hne)]
    · rw [Dict.get?_set, if_pos rfl]
      refine ⟨_, rfl, ?_, fun x => ?_⟩
      · rw [totals_set, if_pos rfl, if_pos rfl, hnone, Option.map_none, Option.getD_none,
          sub_zero]
        cases hrow : tables.hourly.get? key.hour with
        | none => rw [(h.of_no_row hlost hrow).2.1, zero_add]; rfl
        | some row =>
          rw [← h.totals key.hour hlost row hrow]
          exact totals_add row point busyPct
      · rw [bounded_set_of_none ⟨point, busyPct⟩ hnone]
        cases hrow : tables.hourly.get? key.hour with
        | none =>
          rw [(h.of_no_row hlost hrow).2.2]
          exact ⟨fun hx => ⟨le_trans point.coalesce_nonneg hx, hx⟩, fun hx => hx.2⟩
        | some row =>
          rw [← h.memory key.hour hlost row hrow]
          exact max_le_iff
  | some old =>
    obtain ⟨counted, hledger, hbusy⟩ := h.stored key old hold
    set middle : GpuTables := { tables with
      history := tables.history.set key point
      hourly := (tables.hourly.modify key.hour (fun row =>
          row.subtract (rollupRow old busyPct) (rollupRow old counted).busySamples)).set key.hour
        (((tables.hourly.modify key.hour (fun row => row.subtract (rollupRow old busyPct)
            (rollupRow old counted).busySamples)).get? key.hour).elim (rollupRow point busyPct)
          (·.add (rollupRow point busyPct)))
      busy := tables.busy.set key (rollupRow point busyPct).busySamples } with hmiddle
    have hwritten : tables.writeGpuPoint host (some busyPct) point
        = { middle with
            hourly := middle.hourly.modify key.hour
              (fun row => { row with memoryTotalMax := middle.memoryMaximum key.hour }) } := by
      rw [GpuTables.writeGpuPoint]
      simp only [← hkey, hold, hbusy, upsertRollups_eq, hmiddle]
    have hmiddleStores : middle.Stores (ledger.set key ⟨point, busyPct⟩) lost :=
      hstored rfl rfl rfl rfl
    rw [hwritten]
    refine h.write (hstored rfl rfl rfl rfl) (fun hour hne => ?_) fun hlost => ?_
    · rw [Dict.get?_modify, if_neg (Ne.symm hne), hmiddle, Dict.get?_set, if_neg (Ne.symm hne),
        Dict.get?_modify, if_neg (Ne.symm hne)]
    · obtain ⟨row, hrow⟩ := Option.isSome_iff_exists.mp
        ((h.hasRow key.hour hlost).mpr ⟨key, _, hledger, rfl⟩)
      have hmiddleRow : middle.hourly.get? key.hour = some
          ((row.subtract (rollupRow old busyPct) (rollupRow old counted).busySamples).add
            (rollupRow point busyPct)) := by
        rw [hmiddle, Dict.get?_set, if_pos rfl, Dict.get?_modify, if_pos rfl, hrow]
        rfl
      rw [Dict.get?_modify, if_pos rfl, hmiddleRow, Option.map_some]
      refine ⟨_, rfl, ?_, fun x => hmiddleStores.memoryMaximum_le_iff hlost x⟩
      -- The old contribution is taken back as it was counted.
      rw [totals_set, if_pos rfl, if_pos rfl, hledger, Option.map_some, Option.getD_some]
      show ((row.subtract (rollupRow old busyPct) (rollupRow old counted).busySamples).add
        (rollupRow point busyPct)).totals = _
      rw [totals_add, totals_subtract, h.totals key.hour hlost row hrow]
      rfl

/-! ### Retention -/

/-- The later of two texts is not before either. -/
theorem le_laterText (a b : String) : a ≤ laterText a b ∧ b ≤ laterText a b := by
  unfold laterText
  split
  · next hlt => exact ⟨le_of_lt hlt, le_rfl⟩
  · next hge => exact ⟨le_rfl, not_lt.mp hge⟩

/-- Moving the boundary keeps the account: it never moves backward. -/
theorem Accounts.gpuCutoff (h : tables.Accounts ledger lost) (cutoff : String) :
    (tables.gpuCutoff cutoff).2.Accounts ledger lost where
  stored := h.stored
  expired := fun key entry hentry hget => by
    obtain ⟨boundary, hboundary, hbefore⟩ := h.expired key entry hentry hget
    refine ⟨_, rfl, ?_⟩
    rw [hboundary]
    exact lt_of_lt_of_le hbefore (le_laterText boundary cutoff).1
  retired := h.retired
  hasRow := h.hasRow
  totals := h.totals
  memory := h.memory

/-- Archiving one maximum raises the archived maximum of its hour. -/
theorem retiredPeak_retireMemory (tables : GpuTables) (key hour : HourKey) {maximum : Option ℚ}
    (hmaximum : 0 ≤ coalesce maximum) (x : ℚ) :
    (tables.retireMemory key maximum).retiredPeak hour ≤ x
      ↔ tables.retiredPeak hour ≤ x ∧ (key = hour → coalesce maximum ≤ x) := by
  unfold retiredPeak retireMemory
  rw [Dict.get?_set]
  by_cases hkey : hour = key
  · subst hkey
    rw [if_pos rfl]
    simp only [true_implies]
    cases tables.retiredMemory.get? hour with
    | none => exact ⟨fun hx => ⟨le_trans hmaximum hx, hx⟩, fun hx => hx.2⟩
    | some retired => exact max_le_iff
  · rw [if_neg hkey]
    exact (and_iff_left fun heq => absurd heq.symm hkey).symm

/-- Archiving maxima raises the archived maximum of each hour, and touches nothing else. -/
theorem foldl_retireMemory (maxima : List (HourKey × Option ℚ))
    (hmaxima : ∀ e ∈ maxima, 0 ≤ coalesce e.2) (tables : GpuTables) :
    ∃ retiredMemory,
      maxima.foldl (fun tables e => tables.retireMemory e.1 e.2) tables
        = { tables with retiredMemory }
      ∧ ∀ hour x, GpuTables.retiredPeak { tables with retiredMemory } hour ≤ x
        ↔ tables.retiredPeak hour ≤ x ∧ ∀ e ∈ maxima, e.1 = hour → coalesce e.2 ≤ x := by
  induction maxima generalizing tables with
  | nil => exact ⟨tables.retiredMemory, rfl, fun hour x => by simp⟩
  | cons first rest ih =>
    obtain ⟨retiredMemory, hfold, hpeak⟩ :=
      ih (fun e he => hmaxima e (List.mem_cons_of_mem first he))
        (tables.retireMemory first.1 first.2)
    refine ⟨retiredMemory, hfold, fun hour x => ?_⟩
    rw [List.forall_mem_cons, ← and_assoc,
      ← retiredPeak_retireMemory tables first.1 hour (hmaxima first List.mem_cons_self)]
    exact hpeak hour x

/-- Expiring the raw points before the boundary keeps the account: the archived maxima take
over what the points were. -/
theorem Accounts.pruneGpu (h : tables.Accounts ledger lost)
    (hboundary : tables.retention = some boundary) :
    (tables.pruneGpu boundary).Accounts ledger lost := by
  set expired := tables.history.entries.filter (fun e => e.1.2.2 < boundary) with hexpired
  set maxima := ((expired.map (fun e => e.1.hour)).dedup).map (fun key =>
    (key, sqlMax ((expired.filter (fun e => e.1.hour = key)).map (fun e => e.2.memoryTotalMib))))
    with hmaxima
  have hmem : ∀ e, e ∈ expired ↔ tables.history.get? e.1 = some e.2 ∧ e.1.2.2 < boundary := by
    intro e
    rw [hexpired, List.mem_filter, ← Dict.get?_eq_some_iff, decide_eq_true_eq]
  have hmax : ∀ hour x, coalesce (sqlMax ((expired.filter (fun e => e.1.hour = hour)).map
      (fun e => e.2.memoryTotalMib))) ≤ x
      ↔ 0 ≤ x ∧ ∀ e ∈ expired, e.1.hour = hour → coalesce e.2.memoryTotalMib ≤ x := by
    intro hour x
    rw [coalesce_sqlMax_le_iff]
    · simp only [List.forall_mem_map, List.mem_filter, decide_eq_true_eq, and_imp]
    · simp only [List.forall_mem_map]
      exact fun e _ => e.2.coalesce_nonneg
  have hnonneg : ∀ e ∈ maxima, 0 ≤ coalesce e.2 := by
    intro e he
    obtain ⟨hour, -, rfl⟩ := List.mem_map.mp he
    exact ((hmax hour _).mp le_rfl).1
  obtain ⟨retiredMemory, hfold, hpeak⟩ := foldl_retireMemory maxima hnonneg
    { tables with
      history := tables.history.filterKeys (fun key => !(key.2.2 < boundary))
      busy := tables.busy.filterKeys (fun key => !(key.2.2 < boundary)) }
  have hpruned : tables.pruneGpu boundary = _ := hfold
  rw [hpruned]
  -- A point is stored after the prune when it was stored and is not before the boundary.
  have hkept : ∀ key, (tables.history.filterKeys (fun key => !(key.2.2 < boundary))).get? key
      = if key.2.2 < boundary then none else tables.history.get? key := by
    intro key
    rw [Dict.get?_filterKeys]
    by_cases hbefore : key.2.2 < boundary <;> simp [hbefore]
  refine ⟨⟨fun key point hget => ?_, fun key entry hentry hget => ?_, fun hour hlost x => ?_⟩,
    h.hasRow, h.totals, h.memory⟩
  · rw [hkept] at hget
    split at hget
    · exact absurd hget (by simp)
    · next hafter =>
      obtain ⟨busyPct, hledger, hbusy⟩ := h.stored key point hget
      refine ⟨busyPct, hledger, ?_⟩
      rw [Dict.get?_filterKeys, if_pos (by simpa using hafter), hbusy]
  · rw [hkept] at hget
    split at hget
    · next hbefore => exact ⟨boundary, hboundary, hbefore⟩
    · exact h.expired key entry hentry hget
  · rw [hpeak]
    have hretired : GpuTables.retiredPeak { tables with
        history := tables.history.filterKeys (fun key => !(key.2.2 < boundary))
        busy := tables.busy.filterKeys (fun key => !(key.2.2 < boundary)) } hour ≤ x ↔ _ :=
      h.retired hour hlost x
    rw [hretired]
    constructor
    · rintro ⟨⟨hx, hmissing⟩, hnew⟩
      refine ⟨hx, fun key entry hentry hget hhour => ?_⟩
      rw [hkept] at hget
      cases hold : tables.history.get? key with
      | none => exact hmissing key entry hentry hold hhour
      | some point =>
        -- The point expires now, so its hour has an archived maximum.
        have hbefore : key.2.2 < boundary := by
          by_contra hafter
          rw [if_neg hafter, hold] at hget
          exact absurd hget (by simp)
        obtain ⟨busyPct, hledger, -⟩ := h.stored key point hold
        obtain rfl := Option.some.inj (hledger.symm.trans hentry)
        have hin : (key, point) ∈ expired := (hmem _).mpr ⟨hold, hbefore⟩
        have hle := hnew (hour, _) (List.mem_map.mpr ⟨hour, List.mem_dedup.mpr
          (List.mem_map.mpr ⟨(key, point), hin, hhour⟩), rfl⟩) rfl
        exact ((hmax hour x).mp hle).2 (key, point) hin hhour
    · rintro ⟨hx, hall⟩
      refine ⟨⟨hx, fun key entry hentry hget hhour => hall key entry hentry ?_ hhour⟩,
        fun e he heq => ?_⟩
      · rw [hkept, hget, ite_self]
      · obtain ⟨hour', -, rfl⟩ := List.mem_map.mp he
        obtain rfl : hour' = hour := heq
        refine (hmax hour' x).mpr ⟨hx, fun e he hhour => ?_⟩
        obtain ⟨hget, hbefore⟩ := (hmem e).mp he
        obtain ⟨busyPct, hledger, -⟩ := h.stored e.1 e.2 hget
        exact hall e.1 ⟨e.2, busyPct⟩ hledger (by rw [hkept, if_pos hbefore]) hhour

/-- The hours whose rows a deletion takes away. -/
def lostHours (before after : GpuTables) : List HourKey :=
  before.hourly.keys.filter (fun hour => !after.hourly.contains hour)

/-- Deleting old hours keeps the account of the hours that had no row deleted. -/
theorem Accounts.pruneRollups (h : tables.Accounts ledger lost) (cutoff : String) :
    (tables.pruneRollups cutoff).Accounts ledger
      (lost ++ lostHours tables (tables.pruneRollups cutoff)) := by
  -- An hour that is not lost keeps its row, or had none.
  have hrow : ∀ hour, hour ∉ lost ++ lostHours tables (tables.pruneRollups cutoff) →
      hour ∉ lost ∧ (tables.pruneRollups cutoff).hourly.get? hour = tables.hourly.get? hour := by
    intro hour hnot
    rw [List.mem_append, not_or] at hnot
    obtain ⟨hlost, hnow⟩ := hnot
    refine ⟨hlost, ?_⟩
    cases hget : tables.hourly.get? hour with
    | none =>
      rw [GpuTables.pruneRollups, Dict.get?_filterKeys, hget, ite_self]
    | some row =>
      by_contra hgone
      refine hnow (List.mem_filter.mpr ⟨(Dict.mem_keys _ _).mpr (by rw [hget]; rfl), ?_⟩)
      rw [Dict.contains_eq, GpuTables.pruneRollups, Dict.get?_filterKeys]
      rw [GpuTables.pruneRollups, Dict.get?_filterKeys, hget] at hgone
      split
      · next hkeep => exact absurd (if_pos hkeep) hgone
      · rfl
  refine ⟨⟨h.stored, h.expired, fun hour hnot x => ?_⟩, fun hour hnot => ?_,
    fun hour hnot row hget => ?_, fun hour hnot row hget => ?_⟩
  · obtain ⟨hlost, hkept⟩ := hrow hour hnot
    have hbefore := h.retired hour hlost x
    by_cases hold : hour.2.2 < cutoff
    · -- The hour had no row, so no point of it is missing.
      have hnone : tables.hourly.get? hour = none := by
        rw [← hkept, GpuTables.pruneRollups, Dict.get?_filterKeys, if_neg (by simpa using hold)]
      have hempty := (h.of_no_row hlost hnone).1
      have hzero : (tables.pruneRollups cutoff).retiredPeak hour = 0 := by
        rw [retiredPeak, GpuTables.pruneRollups, Dict.get?_filterKeys,
          if_neg (by simpa using hold)]
        rfl
      rw [hzero]
      exact (and_iff_left fun key entry hentry _ hhour =>
        absurd hhour (hempty key entry hentry)).symm
    · have hsame : (tables.pruneRollups cutoff).retiredPeak hour = tables.retiredPeak hour := by
        rw [retiredPeak, GpuTables.pruneRollups, Dict.get?_filterKeys,
          if_pos (by simpa using hold), retiredPeak]
      rw [hsame]
      exact hbefore
  · obtain ⟨hlost, hkept⟩ := hrow hour hnot
    rw [hkept]
    exact h.hasRow hour hlost
  · obtain ⟨hlost, hkept⟩ := hrow hour hnot
    exact h.totals hour hlost row (hkept ▸ hget)
  · obtain ⟨hlost, hkept⟩ := hrow hour hnot
    exact h.memory hour hlost row (hkept ▸ hget)

/-! ### Starts -/

/-- The row that the backfill aggregates for an hour that the rollup lacks: that of the raw
points of the hour from some time on. -/
def backfillRow (tables : GpuTables) (busyPct : ℚ) (since : String) (hour : HourKey) :
    Option HourlyRow :=
  let rows := tables.history.entries.filter (fun e => since ≤ e.1.2.2)
  if hour ∈ rows.map (fun e => e.1.hour) then
    some (aggregate ((rows.filter (fun e => e.1.hour = hour)).map Prod.snd) busyPct)
  else none

/-- What the backfill leaves: every row as it was, and a row for each raw hour without
one. -/
theorem get?_rollupBackfill (tables : GpuTables) (busyPct : ℚ) (since : String)
    (hour : HourKey) :
    (tables.rollupBackfill busyPct since).hourly.get? hour
      = (tables.hourly.get? hour).or (tables.backfillRow busyPct since hour) := by
  set rows := tables.history.entries.filter (fun e => since ≤ e.1.2.2) with hrows
  have hfold : ∀ (hours : List HourKey) (hourly : Dict HourKey HourlyRow),
      (hours.foldl (fun hourly key =>
        if hourly.contains key then hourly
        else hourly.set key
          (aggregate ((rows.filter (fun e => e.1.hour = key)).map Prod.snd) busyPct))
        hourly).get? hour
      = (hourly.get? hour).or (if hour ∈ hours then
          some (aggregate ((rows.filter (fun e => e.1.hour = hour)).map Prod.snd) busyPct)
        else none) := by
    intro hours
    induction hours with
    | nil => intro hourly; simp
    | cons key rest ih =>
      intro hourly
      rw [List.foldl_cons, ih]
      by_cases hkey : hour = key
      · subst hkey
        cases hget : hourly.get? hour with
        | none => simp [hget]
        | some row => simp [hget]
      · by_cases hcontains : hourly.contains key = true
        · rw [if_pos hcontains]
          simp [hkey]
        · rw [if_neg hcontains, Dict.get?_set, if_neg hkey]
          simp [hkey]
  unfold rollupBackfill backfillRow
  rw [hfold]
  simp only [List.mem_dedup, ← hrows]

/-- The backfill at a start keeps the account: every hour with a raw point has its row. -/
theorem Accounts.ensureRollups (h : tables.Accounts ledger lost) (busyPct : ℚ) :
    (tables.ensureRollups busyPct).Accounts ledger lost := by
  have hsame : ∀ hour ∉ lost,
      (tables.ensureRollups busyPct).hourly.get? hour = tables.hourly.get? hour := by
    intro hour hlost
    rw [GpuTables.ensureRollups, get?_rollupBackfill]
    cases hget : tables.hourly.get? hour with
    | some row => rfl
    | none =>
      rw [Option.none_or, backfillRow]
      refine if_neg fun hmem => ?_
      obtain ⟨e, he, hhour⟩ := List.mem_map.mp hmem
      obtain ⟨busyPct, hledger, -⟩ := h.stored e.1 e.2
        ((Dict.get?_eq_some_iff _ _ _).mpr (List.mem_filter.mp he).1)
      exact (h.of_no_row hlost hget).1 e.1 _ hledger hhour
  exact ⟨⟨h.stored, h.expired, h.retired⟩, fun hour hlost => by
      rw [hsame hour hlost]
      exact h.hasRow hour hlost,
    fun hour hlost row hget => h.totals hour hlost row (hsame hour hlost ▸ hget),
    fun hour hlost row hget => h.memory hour hlost row (hsame hour hlost ▸ hget)⟩

/-- Before the companion tables exist no point was accepted. Expiring raw points then changes
nothing that counts. -/
theorem Accounts.bootstrapGpuRetention (h : tables.Accounts ∅ lost) (cutoff : String)
    (fits : Bool) : (tables.bootstrapGpuRetention cutoff fits).Accounts ∅ lost := by
  unfold GpuTables.bootstrapGpuRetention
  split
  · refine ⟨⟨fun key point hget => ?_, fun key entry hentry => absurd hentry (by simp),
      fun hour hlost x => ?_⟩, h.hasRow, h.totals, h.memory⟩
    · rw [Dict.get?_filterKeys] at hget
      split at hget
      · exact h.stored key point hget
      · exact absurd hget (by simp)
    · refine (h.retired hour hlost x).trans (and_congr_right fun _ => ?_)
      exact ⟨fun _ key entry hentry => absurd hentry (by simp),
        fun _ key entry hentry => absurd hentry (by simp)⟩
  · exact h

/-- Before the companion tables exist the rollup has no row whose maximum could be taken
over. -/
theorem Accounts.legacyMemoryBaseline (h : tables.Accounts ∅ lost) :
    tables.legacyMemoryBaseline.Accounts ∅ lost := by
  have hnone : ∀ hour ∉ lost, tables.hourly.get? hour = none := by
    intro hour hlost
    cases hget : tables.hourly.get? hour with
    | none => rfl
    | some row =>
      obtain ⟨key, entry, hentry, -⟩ := (h.hasRow hour hlost).mp (by rw [hget]; rfl)
      exact absurd hentry (by simp)
  have hfold : ∀ (entries : List (HourKey × HourlyRow)) (retired : Dict HourKey (Option ℚ))
      (hour : HourKey), hour ∉ entries.map Prod.fst →
      (entries.foldl (fun retired e => if retired.contains e.1 then retired
        else retired.set e.1 e.2.memoryTotalMax) retired).get? hour = retired.get? hour := by
    intro entries
    induction entries with
    | nil => exact fun _ _ _ => rfl
    | cons first rest ih =>
      intro retired hour hnot
      rw [List.map_cons, List.mem_cons, not_or] at hnot
      rw [List.foldl_cons, ih _ hour hnot.2]
      split
      · rfl
      · rw [Dict.get?_set, if_neg hnot.1]
  refine ⟨⟨h.stored, h.expired, fun hour hlost x => ?_⟩, h.hasRow, h.totals, h.memory⟩
  rw [retiredPeak, GpuTables.legacyMemoryBaseline,
    hfold _ _ _ ((Dict.get?_eq_none_iff _ _).mp (hnone hour hlost))]
  exact h.retired hour hlost x

/-! ### Reading the account -/

/-- The contributions of an hour of the ledger. -/
theorem mem_contributions {row : HourlyRow} :
    row ∈ Ledger.contributions ledger hour ↔ ∃ key entry, ledger.get? key = some entry
      ∧ key.hour = hour ∧ entry.contribution = row := by
  unfold Ledger.contributions
  simp only [List.mem_map, List.mem_filter, decide_eq_true_eq, Prod.exists,
    ← Dict.get?_eq_some_iff, and_assoc]

/-- The sums of an hour of the ledger are those of its contributions. -/
theorem totals_eq_sum (ledger : Ledger) (hour : HourKey) :
    Ledger.totals ledger hour = ((Ledger.contributions ledger hour).map HourlyRow.totals).sum := by
  unfold Ledger.totals Dict.total Ledger.contributions
  induction ledger.entries with
  | nil => rfl
  | cons e rest ih =>
    rw [List.map_cons, List.sum_cons, ih]
    dsimp only
    by_cases hhour : e.1.hour = hour
    · rw [if_pos hhour, List.filter_cons_of_pos (by simpa using hhour), List.map_cons,
        List.map_cons, List.sum_cons]
    · rw [if_neg hhour, List.filter_cons_of_neg (by simpa using hhour), zero_add]

/-- The columns of a sum of rows. -/
theorem sum_totals (rows : List HourlyRow) : (rows.map HourlyRow.totals).sum
    = ((rows.map (·.samples)).sum, (rows.map (·.utilizationSamples)).sum,
      (rows.map (·.busySamples)).sum, (rows.map (·.utilizationSum)).sum,
      (rows.map (·.memorySamples)).sum, (rows.map (·.memoryUsedSum)).sum) := by
  induction rows with
  | nil => rfl
  | cons row rest ih =>
    simp only [List.map_cons, List.sum_cons, ih]
    rfl

/-- A kept hour is the hour of the ledger, with a missing memory maximum counted as zero. -/
theorem Accounts.hourly_eq (h : tables.Accounts ledger lost) (hlost : hour ∉ lost) :
    (tables.hourly.get? hour).map HourlyRow.nullAsZero = Ledger.row ledger hour := by
  have hsamples : ∀ rows : List HourlyRow, (∀ row ∈ rows, row ∈ Ledger.contributions ledger hour) →
      (rows.map HourlyRow.samples).sum = rows.length := by
    intro rows
    induction rows with
    | nil => intro _; rfl
    | cons row rest ih =>
      intro hall
      obtain ⟨key, entry, -, -, hrow⟩ := mem_contributions.mp (hall row List.mem_cons_self)
      have hone : row.samples = 1 := by
        rw [← hrow]
        rfl
      rw [List.map_cons, List.sum_cons, ih fun other hother =>
        hall other (List.mem_cons_of_mem row hother), hone, List.length_cons]
      omega
  cases hget : tables.hourly.get? hour with
  | none =>
    have hempty := (h.of_no_row hlost hget).1
    have hnone : Ledger.contributions ledger hour = [] := by
      refine List.eq_nil_iff_forall_not_mem.mpr fun row hrow => ?_
      obtain ⟨key, entry, hentry, hhour, -⟩ := mem_contributions.mp hrow
      exact hempty key entry hentry hhour
    rw [Ledger.row, hnone]
    rfl
  | some row =>
    obtain ⟨key, entry, hentry, hhour⟩ := (h.hasRow hour hlost).mp (by rw [hget]; rfl)
    have hin : entry.contribution ∈ Ledger.contributions ledger hour :=
      mem_contributions.mpr ⟨key, entry, hentry, hhour, rfl⟩
    have htotals := h.totals hour hlost row hget
    rw [totals_eq_sum, sum_totals, hsamples _ fun row hrow => hrow] at htotals
    have hmemory : coalesce row.memoryTotalMax = peak
        ((Ledger.contributions ledger hour).map (fun row => coalesce row.memoryTotalMax)) := by
      refine eq_of_upperBounds fun x => ?_
      rw [h.memory hour hlost row hget, peak_le_iff, Ledger.Bounded]
      refine and_congr_right fun _ => ?_
      rw [List.forall_mem_map]
      constructor
      · intro hall row' hrow'
        obtain ⟨key', entry', hentry', hhour', rfl⟩ := mem_contributions.mp hrow'
        exact hall key' entry' hentry' hhour'
      · intro hall key' entry' hentry' hhour'
        exact hall _ (mem_contributions.mpr ⟨key', entry', hentry', hhour', rfl⟩)
    unfold Ledger.row
    cases hrows : Ledger.contributions ledger hour with
    | nil =>
      rw [hrows] at hin
      exact absurd hin List.not_mem_nil
    | cons first rest =>
      rw [hrows] at htotals hmemory
      simp only [HourlyRow.totals, Prod.mk.injEq] at htotals
      obtain ⟨hsamples, hutilization, hbusy, hsum, hmemorySamples, hused⟩ := htotals
      dsimp only
      rw [Option.map_some, HourlyRow.nullAsZero, hmemory, ← hsamples, ← hutilization, ← hbusy,
        ← hsum, ← hmemorySamples, ← hused]

/-- The sums of an aggregate are those of its points. -/
theorem totals_aggregate (points : List GpuPoint) (busyPct : ℚ) :
    (aggregate points busyPct).totals
      = (points.map (fun point => (rollupRow point busyPct).totals)).sum := by
  induction points with
  | nil => rfl
  | cons point rest ih =>
    rw [List.map_cons, List.sum_cons, ← ih]
    simp only [HourlyRow.totals, aggregate, rollupRow, List.length_cons, List.countP_cons,
      List.map_cons, List.sum_cons, Prod.mk_add_mk, Prod.mk.injEq, Nat.cast_add, Nat.cast_ite,
      Nat.cast_one, Nat.cast_zero, true_and, and_true]
    refine ⟨by omega, by omega, ?_, by omega⟩
    cases point.utilizationGpuPct with
    | none => simp
    | some utilization =>
      simp only [Option.any_some, decide_eq_true_eq]
      omega

/-- The rollup rebuilt from the raw points. -/
def rebuilt (tables : GpuTables) (busyPct : ℚ) : GpuTables :=
  { tables with hourly := ∅ }.rollupBackfill busyPct ""

/-- Where nothing expired and the busy threshold never changed, the rollup rebuilt from the
raw points accounts for the ledger too. -/
theorem Accounts.rebuild (h : tables.Accounts ledger []) {busyPct : ℚ}
    (hstored : ∀ key entry, ledger.get? key = some entry →
      (tables.history.get? key).isSome = true)
    (hbusy : ∀ key entry, ledger.get? key = some entry → entry.busyPct = busyPct) :
    (tables.rebuilt busyPct).Accounts ledger [] := by
  have hledger : ∀ key entry, ledger.get? key = some entry
      ↔ tables.history.get? key = some entry.point ∧ entry.busyPct = busyPct := by
    intro key entry
    constructor
    · intro hentry
      obtain ⟨point, hpoint⟩ := Option.isSome_iff_exists.mp (hstored key entry hentry)
      obtain ⟨counted, hsame, -⟩ := h.stored key point hpoint
      obtain rfl := Option.some.inj (hsame.symm.trans hentry)
      exact ⟨hpoint, hbusy key _ hentry⟩
    · rintro ⟨hpoint, rfl⟩
      obtain ⟨counted, hsame, -⟩ := h.stored key _ hpoint
      have hcounted : counted = entry.busyPct := hbusy key _ hsame
      rw [hsame, hcounted]
  -- The ledger and the raw points are the same list up to the order.
  have hperm : (tables.history.entries.map
      (fun e => ((e.1, ⟨e.2, busyPct⟩) : PointKey × LedgerEntry))).Perm ledger.entries := by
    refine (List.perm_ext_iff_of_nodup ?_ (List.Nodup.of_map Prod.fst ledger.nodup)).mpr
      fun e => ?_
    · refine List.Nodup.of_map Prod.fst ?_
      rw [List.map_map]
      exact tables.history.nodup
    · rw [← Dict.get?_eq_some_iff, hledger]
      constructor
      · intro hmem
        obtain ⟨raw, hraw, rfl⟩ := List.mem_map.mp hmem
        exact ⟨(Dict.get?_eq_some_iff _ _ _).mpr hraw, rfl⟩
      · rintro ⟨hpoint, rfl⟩
        exact List.mem_map.mpr ⟨(e.1, e.2.point), (Dict.get?_eq_some_iff _ _ _).mp hpoint, rfl⟩
  have hrow : ∀ hour, (tables.rebuilt busyPct).hourly.get? hour
      = if hour ∈ tables.history.entries.map (fun e => e.1.hour) then
          some (aggregate ((tables.history.entries.filter (fun e => e.1.hour = hour)).map
            Prod.snd) busyPct)
        else none := by
    intro hour
    rw [rebuilt, get?_rollupBackfill]
    have hall : tables.history.entries.filter (fun e => "" ≤ e.1.2.2) = tables.history.entries :=
      List.filter_eq_self.mpr fun e _ => by
        simp only [String.le_iff_toList_le, decide_eq_true_eq]
        exact not_lt.mp (List.not_lt_nil _)
    simp only [Dict.get?_emptyc, Option.none_or, backfillRow, hall]
  refine ⟨⟨h.stored, h.expired, h.retired⟩, fun hour _ => ?_, fun hour _ row hget => ?_,
    fun hour _ row hget x => ?_⟩
  · rw [hrow]
    constructor
    · intro hsome
      split at hsome
      · next hmem =>
        obtain ⟨e, he, hhour⟩ := List.mem_map.mp hmem
        exact ⟨e.1, ⟨e.2, busyPct⟩,
          (hledger _ _).mpr ⟨(Dict.get?_eq_some_iff _ _ _).mpr he, rfl⟩, hhour⟩
      · exact absurd hsome (by simp)
    · rintro ⟨key, entry, hentry, hhour⟩
      rw [if_pos (List.mem_map.mpr ⟨(key, entry.point),
        (Dict.get?_eq_some_iff _ _ _).mp ((hledger _ _).mp hentry).1, hhour⟩)]
      rfl
  · rw [hrow] at hget
    split at hget
    · rw [← Option.some.inj hget, totals_aggregate, totals_eq_sum, Ledger.contributions]
      have hfiltered := ((hperm.filter (fun e => e.1.hour = hour)).map
        (fun e => e.2.contribution.totals)).sum_eq
      rw [List.filter_map, List.map_map] at hfiltered
      rw [List.map_map, List.map_map]
      exact hfiltered
    · exact absurd hget (by simp)
  · rw [hrow] at hget
    split at hget
    · rw [← Option.some.inj hget, aggregate, coalesce_sqlMax_le_iff]
      · simp only [List.forall_mem_map, List.mem_filter, decide_eq_true_eq, and_imp]
        refine and_congr_right fun _ => ⟨fun hall key entry hentry hhour => ?_,
          fun hall e he hhour => ?_⟩
        · exact hall (key, entry.point)
            ((Dict.get?_eq_some_iff _ _ _).mp ((hledger _ _).mp hentry).1) hhour
        · exact hall e.1 ⟨e.2, busyPct⟩
            ((hledger _ _).mpr ⟨(Dict.get?_eq_some_iff _ _ _).mpr he, rfl⟩) hhour
      · simp only [List.forall_mem_map]
        exact fun e _ => e.2.coalesce_nonneg
    · exact absurd hget (by simp)

end GpuTables

end Mocop
