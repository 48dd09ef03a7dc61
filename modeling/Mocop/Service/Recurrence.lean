import Mocop.Inventory.Windows
import Mocop.Lib.Periodic
import Mocop.Service.Snapshots

/-!
# `Mocop.Service.Recurrence`: recurring windows are exact

A recurring window is checked by one search: the last begin before the instant, or the next one
when its end has passed. `MaintenanceSchedule.StartsAt` says directly when an instance begins: at
the minute of the day, on the weekday of a weekly window. For a window that the loader accepts,
`recurring_windows_exact` says that the search decides whether an instance covers the instant, and
that the reported end is the next end of an instance.

The instances of a window repeat with its period, and last less than that, so they are the spans
of a `Periodic`. The search ends at one of its spans (`instanceEnd_spec`).
-/

set_option autoImplicit false

namespace Mocop

/-- Whether an instance of a schedule begins at an instant. -/
def MaintenanceSchedule.StartsAt (schedule : MaintenanceSchedule) (instant : ℚ) : Prop :=
  match schedule with
  | .once _ => False
  | .weekly weekday startMinutes _ =>
    weekdayOf instant = weekday ∧ instant = midnightOf instant + startMinutes * 60
  | .daily startMinutes _ => instant = midnightOf instant + startMinutes * 60

/-- The seconds that an instance lasts. -/
def MaintenanceSchedule.lasts (schedule : MaintenanceSchedule) : ℚ :=
  match schedule with
  | .once _ => 0
  | .weekly _ _ durationMinutes => durationMinutes * 60
  | .daily _ durationMinutes => durationMinutes * 60

section Search

variable {startMinutes durationMinutes : ℕ} {now : ℚ}

/-- The day of an instant that lies a number of seconds after a midnight. -/
theorem floor_midnight {day : ℤ} {seconds : ℚ} (hpos : 0 ≤ seconds) (hlt : seconds < daySeconds) :
    ⌊(day * daySeconds + seconds) / daySeconds⌋ = day := by
  have hday : (0 : ℚ) < daySeconds := by norm_num [daySeconds]
  rw [Int.floor_eq_iff, le_div_iff₀ hday, div_lt_iff₀ hday]
  constructor <;> linarith

theorem minute_lt_day (h : startMinutes < 1440) : (startMinutes : ℚ) * 60 < daySeconds := by
  have hcast : (startMinutes : ℚ) < 1440 := by exact_mod_cast h
  unfold daySeconds
  linarith

/-- A minute of a day is an instant of that day. -/
theorem startsAt_day (h : startMinutes < 1440) (instant : ℚ) :
    instant = midnightOf instant + startMinutes * 60
      ↔ ∃ day : ℤ, instant = day * daySeconds + startMinutes * 60 := by
  constructor
  · intro heq
    exact ⟨⌊instant / daySeconds⌋, heq⟩
  · rintro ⟨day, rfl⟩
    rw [midnightOf, floor_midnight (by positivity) (minute_lt_day h)]

/-- The search ends at a span of the window: its end lies ahead, and the end before it does
not. -/
theorem instanceEnd_spec (r : Periodic) (k : ℤ) {daysBack : ℤ}
    (hstart : r.start k = midnightOf now - daysBack * daySeconds + startMinutes * 60)
    (hduration : r.duration = durationMinutes * 60)
    (hbegun : r.start k - r.period ≤ now) (hnext : now < r.start k + r.period) :
    ∃ j, instanceEnd now daysBack r.period startMinutes durationMinutes = r.ending j
      ∧ now < r.ending j ∧ r.ending j - r.period ≤ now := by
  -- The last begin before the instant.
  obtain ⟨j, hj, hle, hlt⟩ : ∃ j, (if now < r.start k then r.start k - r.period else r.start k)
      = r.start j ∧ r.start j ≤ now ∧ now < r.start j + r.period := by
    have hprevious : r.start (k - 1) = r.start k - r.period := by
      rw [← Int.sub_add_cancel k 1, Periodic.start_add_one, Int.sub_add_cancel]
      ring
    split
    · next hahead => exact ⟨k - 1, hprevious.symm, by rw [hprevious]; exact hbegun,
        by rw [hprevious]; linarith⟩
    · next hbehind => exact ⟨k, rfl, not_lt.mp hbehind, hnext⟩
  have hend : instanceEnd now daysBack r.period startMinutes durationMinutes
      = if r.ending j ≤ now then r.ending (j + 1) else r.ending j := by
    have hsearch : instanceEnd now daysBack r.period startMinutes durationMinutes
        = if r.start j + durationMinutes * 60 ≤ now
          then r.start j + r.period + durationMinutes * 60
          else r.start j + durationMinutes * 60 := by
      rw [← hj, hstart]
      rfl
    rw [hsearch, Periodic.ending_add_one, Periodic.ending, hduration]
    split
    · ring
    · rfl
  have hlasts := r.duration_lt
  rw [hend]
  split
  · next hpassed =>
    refine ⟨j + 1, rfl, ?_, ?_⟩
    · rw [Periodic.ending_add_one, Periodic.ending]
      linarith [r.duration_pos]
    · rw [Periodic.ending_add_one]
      linarith
  · next hahead =>
    refine ⟨j, rfl, not_le.mp hahead, ?_⟩
    unfold Periodic.ending
    linarith

end Search

/-! ### The spans of a window -/

/-- The instances of a weekly window. The first Monday of a week before the epoch is day `-3`. -/
def weeklySpans (weekday startMinutes durationMinutes : ℕ) (hpos : 1 ≤ durationMinutes)
    (hle : durationMinutes ≤ 10079) : Periodic where
  phase := ((weekday : ℤ) - 3 : ℤ) * daySeconds + startMinutes * 60
  period := 7 * daySeconds
  duration := durationMinutes * 60
  duration_pos := by
    have hcast : (1 : ℚ) ≤ durationMinutes := by exact_mod_cast hpos
    linarith
  duration_lt := by
    have hcast : (durationMinutes : ℚ) ≤ 10079 := by exact_mod_cast hle
    unfold daySeconds
    linarith

/-- The instances of a daily window. -/
def dailySpans (startMinutes durationMinutes : ℕ) (hpos : 1 ≤ durationMinutes)
    (hle : durationMinutes ≤ 1439) : Periodic where
  phase := startMinutes * 60
  period := daySeconds
  duration := durationMinutes * 60
  duration_pos := by
    have hcast : (1 : ℚ) ≤ durationMinutes := by exact_mod_cast hpos
    linarith
  duration_lt := by
    have hcast : (durationMinutes : ℚ) ≤ 1439 := by exact_mod_cast hle
    unfold daySeconds
    linarith

/-- What a search that ends at a span of the window says: whether an instance covers the instant,
and the next end of an instance. -/
theorem search_exact {r : Periodic} {starts : ℚ → Prop} {now ending : ℚ} {durationMinutes : ℕ}
    (hstarts : ∀ instant, starts instant ↔ ∃ k, instant = r.start k)
    (hduration : r.duration = durationMinutes * 60)
    (hend : ∃ j, ending = r.ending j ∧ now < r.ending j ∧ r.ending j - r.period ≤ now) :
    (isInstanceActive now ending durationMinutes = true
        ↔ ∃ start, starts start ∧ start ≤ now ∧ now < start + durationMinutes * 60)
      ∧ IsLeast {e | now < e ∧ ∃ start, starts start ∧ e = start + durationMinutes * 60}
        ending := by
  obtain ⟨j, rfl, hahead, hprevious⟩ := hend
  constructor
  · have hbegin : r.ending j - durationMinutes * 60 = r.start j := by
      rw [Periodic.ending, hduration]
      ring
    rw [isInstanceActive, hbegin, Bool.and_eq_true, decide_eq_true_eq, decide_eq_true_eq,
      and_iff_left hahead, ← Periodic.covers_iff hahead hprevious]
    constructor
    · rintro ⟨k, hstart, hlt⟩
      rw [Periodic.ending, hduration] at hlt
      exact ⟨r.start k, (hstarts _).mpr ⟨k, rfl⟩, hstart, hlt⟩
    · rintro ⟨start, hstart, hle, hlt⟩
      obtain ⟨k, rfl⟩ := (hstarts start).mp hstart
      rw [← hduration] at hlt
      exact ⟨k, hle, hlt⟩
  · have hends : {e | now < e ∧ ∃ start, starts start ∧ e = start + durationMinutes * 60}
        = {e | now < e ∧ ∃ k, e = r.ending k} := by
      ext e
      refine and_congr_right fun _ => ?_
      constructor
      · rintro ⟨start, hstart, rfl⟩
        obtain ⟨k, rfl⟩ := (hstarts start).mp hstart
        exact ⟨k, by rw [Periodic.ending, hduration]⟩
      · rintro ⟨k, rfl⟩
        exact ⟨r.start k, (hstarts _).mpr ⟨k, rfl⟩, by rw [Periodic.ending, hduration]⟩
    rw [hends]
    exact Periodic.isLeast_ends hahead hprevious

section Windows

variable {weekday startMinutes durationMinutes : ℕ}

theorem midnightOf_le (now : ℚ) : midnightOf now ≤ now ∧ now < midnightOf now + daySeconds := by
  have hday : (0 : ℚ) < daySeconds := by norm_num [daySeconds]
  have hfloor := (le_div_iff₀ hday).mp (Int.floor_le (now / daySeconds))
  have hnext := (div_lt_iff₀ hday).mp (Int.lt_floor_add_one (now / daySeconds))
  unfold midnightOf
  constructor <;> linarith

/-- The instances of a daily window begin at its minute of every day. -/
theorem daily_exact (now : ℚ) (hminute : startMinutes < 1440) (hpos : 1 ≤ durationMinutes)
    (hle : durationMinutes ≤ 1439) :
    (∀ instant, (MaintenanceSchedule.daily startMinutes durationMinutes).StartsAt instant
        ↔ ∃ k, instant = (dailySpans startMinutes durationMinutes hpos hle).start k)
      ∧ ∃ j, instanceEnd now 0 daySeconds startMinutes durationMinutes
          = (dailySpans startMinutes durationMinutes hpos hle).ending j
        ∧ now < (dailySpans startMinutes durationMinutes hpos hle).ending j
        ∧ (dailySpans startMinutes durationMinutes hpos hle).ending j - daySeconds ≤ now := by
  have hstart : ∀ k : ℤ, (dailySpans startMinutes durationMinutes hpos hle).start k
      = k * daySeconds + startMinutes * 60 := fun k => add_comm ..
  constructor
  · intro instant
    simp only [hstart]
    exact startsAt_day hminute instant
  · obtain ⟨hbegun, hends⟩ := midnightOf_le now
    have hsmall := minute_lt_day hminute
    have hnonneg : (0 : ℚ) ≤ startMinutes * 60 := by positivity
    have htoday := hstart ⌊now / daySeconds⌋
    rw [← midnightOf] at htoday
    refine instanceEnd_spec (dailySpans startMinutes durationMinutes hpos hle) ⌊now / daySeconds⌋
      ?_ rfl ?_ ?_
    · rw [htoday]
      simp
    · show _ - daySeconds ≤ now
      linarith
    · show now < _ + daySeconds
      linarith

/-- The instances of a weekly window begin at its minute of its weekday. -/
theorem weekly_exact (now : ℚ) (hweekday : weekday ≤ 6) (hminute : startMinutes < 1440)
    (hpos : 1 ≤ durationMinutes) (hle : durationMinutes ≤ 10079) :
    (∀ instant, (MaintenanceSchedule.weekly weekday startMinutes durationMinutes).StartsAt instant
        ↔ ∃ k, instant = (weeklySpans weekday startMinutes durationMinutes hpos hle).start k)
      ∧ ∃ j, instanceEnd now ((weekdayOf now - weekday) % 7) (7 * daySeconds) startMinutes
          durationMinutes = (weeklySpans weekday startMinutes durationMinutes hpos hle).ending j
        ∧ now < (weeklySpans weekday startMinutes durationMinutes hpos hle).ending j
        ∧ (weeklySpans weekday startMinutes durationMinutes hpos hle).ending j - 7 * daySeconds
          ≤ now := by
  have hstart : ∀ k : ℤ, (weeklySpans weekday startMinutes durationMinutes hpos hle).start k
      = ((weekday - 3 + 7 * k : ℤ) : ℚ) * daySeconds + startMinutes * 60 := by
    intro k
    show ((weekday : ℤ) - 3 : ℤ) * daySeconds + startMinutes * 60 + k * (7 * daySeconds) = _
    push_cast
    ring
  constructor
  · intro instant
    simp only [hstart]
    constructor
    · rintro ⟨hday, hminutes⟩
      obtain ⟨day, rfl⟩ := (startsAt_day hminute instant).mp hminutes
      rw [weekdayOf, floor_midnight (by positivity) (minute_lt_day hminute)] at hday
      -- The days of one weekday are the days of one remainder.
      exact ⟨(day + 3 - weekday) / 7, by rw [show weekday - 3 + 7 * ((day + 3 - weekday) / 7) = day
        by omega]⟩
    · rintro ⟨k, rfl⟩
      refine ⟨?_, (startsAt_day hminute _).mpr ⟨_, rfl⟩⟩
      rw [weekdayOf, floor_midnight (by positivity) (minute_lt_day hminute)]
      omega
  · obtain ⟨hbegun, hends⟩ := midnightOf_le now
    have hsmall := minute_lt_day hminute
    have hnonneg : (0 : ℚ) ≤ startMinutes * 60 := by positivity
    -- The last day of the weekday, at most six days before.
    generalize hback : (weekdayOf now - weekday) % 7 = back
    have hbounds : 0 ≤ back ∧ back ≤ 6 := by omega
    have hlow : (0 : ℚ) ≤ back := by exact_mod_cast hbounds.1
    have hhigh : (back : ℚ) ≤ 6 := by exact_mod_cast hbounds.2
    have hday : (0 : ℚ) < daySeconds := by norm_num [daySeconds]
    have hlast := hstart ((⌊now / daySeconds⌋ - back + 3 - weekday) / 7)
    have hindex : (weekday : ℤ) - 3 + 7 * ((⌊now / daySeconds⌋ - back + 3 - weekday) / 7)
        = ⌊now / daySeconds⌋ - back := by
      unfold weekdayOf at hback
      omega
    rw [hindex, Int.cast_sub, sub_mul, ← midnightOf] at hlast
    refine instanceEnd_spec (weeklySpans weekday startMinutes durationMinutes hpos hle) _ hlast rfl
      ?_ ?_
    · show _ - 7 * daySeconds ≤ now
      nlinarith
    · show now < _ + 7 * daySeconds
      nlinarith

/-- The end of an instance is a whole number of seconds, so it is shown as it is. -/
theorem shown_end {r : Periodic} {k : ℤ}
    (hstart : r.start k = midnightOf (r.start k) + startMinutes * 60)
    (hduration : r.duration = durationMinutes * 60) : ((⌊r.ending k⌋ : ℤ) : ℚ) = r.ending k := by
  obtain ⟨day, hday⟩ : ∃ day : ℤ, r.start k = day * daySeconds + startMinutes * 60 :=
    ⟨_, hstart⟩
  have hwhole : r.ending k
      = ((day * 86400 + startMinutes * 60 + durationMinutes * 60 : ℤ) : ℚ) := by
    rw [Periodic.ending, hday, hduration]
    push_cast
    rfl
  rw [hwhole, Int.floor_intCast]

end Windows

/-- Recurring maintenance windows are exact. For a weekly or daily window that the loader accepts
and every instant, the window silences its host when an instance covers the instant, and the
end that is shown is the next end of an instance. -/
theorem recurring_windows_exact {text : TextRules} {name : String} {raw : Json}
    {window : MaintenanceWindowConfig} (hload : maintenanceWindow text name raw = .ok window)
    (hrecurs : ∀ until_, window.schedule ≠ .once until_) (now : ℚ) :
    (window.isActive now = true
        ↔ ∃ start, window.schedule.StartsAt start ∧ start ≤ now
          ∧ now < start + window.schedule.lasts)
      ∧ IsLeast {e | now < e ∧ ∃ start, window.schedule.StartsAt start
          ∧ e = start + window.schedule.lasts} ((window.toDict now).until_ : ℚ) := by
  have hbounds := maintenanceWindow_recurs text hload
  obtain ⟨reason, schedule⟩ := window
  cases schedule with
  | once until_ => exact absurd rfl (hrecurs until_)
  | weekly weekday startMinutes durationMinutes =>
    obtain ⟨hweekday, hminute, hpos, hle⟩ := hbounds
    obtain ⟨hstarts, hend⟩ := weekly_exact now hweekday hminute hpos hle
    obtain ⟨hactive, hleast⟩ := search_exact hstarts rfl hend
    obtain ⟨j, hj, -⟩ := hend
    refine ⟨hactive, ?_⟩
    show IsLeast _ ((⌊instanceEnd now _ _ startMinutes durationMinutes⌋ : ℤ) : ℚ)
    rw [hj, shown_end ((hstarts _).mpr ⟨j, rfl⟩).2 rfl, ← hj]
    exact hleast
  | daily startMinutes durationMinutes =>
    obtain ⟨hminute, hpos, hle⟩ := hbounds
    obtain ⟨hstarts, hend⟩ := daily_exact now hminute hpos hle
    obtain ⟨hactive, hleast⟩ := search_exact hstarts rfl hend
    obtain ⟨j, hj, -⟩ := hend
    refine ⟨hactive, ?_⟩
    show IsLeast _ ((⌊instanceEnd now _ _ startMinutes durationMinutes⌋ : ℤ) : ℚ)
    rw [hj, shown_end ((hstarts _).mpr ⟨j, rfl⟩) rfl, ← hj]
    exact hleast

/-- Sundays from 23:30 on for ten hours, past the end of the week. -/
private def overSunday : Json := .object [("reason", .string "backup"),
  ("recurrence", .object [("weekday", .integer 6), ("start", .string "23:30"),
    ("duration_minutes", .integer 600)])]

/-- At the start of a Monday the window of the Sunday before is active until half past nine. -/
theorem recurring_windows_exact_overSunday :
    maintenanceWindow asciiText "rack" overSunday = .ok ⟨"backup", .weekly 6 1410 600⟩
      ∧ (MaintenanceWindowConfig.isActive ⟨"backup", .weekly 6 1410 600⟩ (4 * 86400) = true
        ↔ ∃ start, (MaintenanceSchedule.weekly 6 1410 600).StartsAt start ∧ start ≤ 4 * 86400
          ∧ 4 * 86400 < start + (MaintenanceSchedule.weekly 6 1410 600).lasts) := by
  have hload : maintenanceWindow asciiText "rack" overSunday
      = .ok ⟨"backup", .weekly 6 1410 600⟩ := by decide +kernel
  exact ⟨hload, (recurring_windows_exact hload (fun _ h => by cases h) (4 * 86400)).1⟩

end Mocop
