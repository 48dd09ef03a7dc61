import Mocop.Models

/-!
# `Mocop.Service.Overlay`: maintenance windows and incident actions

An operator lays two things over the incidents: a maintenance window silences a host for a
time, and an incident action acknowledges or silences one condition until an instant. Neither
touches the conditions themselves.

An instant is the number of seconds since the epoch. Recurring windows are defined in UTC,
where every day has the same length.
-/

set_option autoImplicit false

namespace Mocop

/-- When a window silences its host: once until an instant, or in every week or on every day
from a minute after midnight for a number of minutes. `Monday` is weekday 0. -/
inductive MaintenanceSchedule where
  | once (until_ : ℚ)
  | weekly (weekday startMinutes durationMinutes : ℕ)
  | daily (startMinutes durationMinutes : ℕ)
  deriving DecidableEq

/-- A maintenance window. -/
structure MaintenanceWindowConfig where
  reason : String
  schedule : MaintenanceSchedule
  deriving DecidableEq

/-- The seconds of one day. -/
def daySeconds : ℚ := 86400

/-- The last midnight. -/
def midnightOf (now : ℚ) : ℚ := ⌊now / daySeconds⌋ * daySeconds

/-- The weekday of an instant. The epoch began on a Thursday. -/
def weekdayOf (now : ℚ) : ℤ := (⌊now / daySeconds⌋ + 3) % 7

/-- The end of the active instance of a recurring window, or of the next one. -/
def instanceEnd (now : ℚ) (daysBack : ℤ) (period : ℚ) (startMinutes durationMinutes : ℕ) : ℚ :=
  let start := midnightOf now - daysBack * daySeconds + startMinutes * 60
  let start := if now < start then start - period else start
  let ending := start + durationMinutes * 60
  if ending ≤ now then start + period + durationMinutes * 60 else ending

/-- Whether an instance of a recurring window that ends at `ending` has begun. -/
def isInstanceActive (now ending : ℚ) (durationMinutes : ℕ) : Bool :=
  ending - durationMinutes * 60 ≤ now && now < ending

/-- Whether a window silences its host. -/
def MaintenanceWindowConfig.isActive (window : MaintenanceWindowConfig) (now : ℚ) : Bool :=
  match window.schedule with
  | .once until_ => now < until_
  | .weekly weekday startMinutes durationMinutes =>
    isInstanceActive now (instanceEnd now ((weekdayOf now - weekday) % 7) (7 * daySeconds)
      startMinutes durationMinutes) durationMinutes
  | .daily startMinutes durationMinutes =>
    isInstanceActive now (instanceEnd now 0 daySeconds startMinutes durationMinutes)
      durationMinutes

/-- What an operator does to a condition. -/
inductive IncidentActionKind where
  | acknowledged
  | silenced
  deriving DecidableEq, Repr

/-- An acknowledgement or a silence of one condition. `incidentStartedAt` is the opening time
of the generation that it names, if it names one. -/
structure IncidentActionConfig where
  host : String
  conditionKey : String
  action : IncidentActionKind
  until_ : ℚ
  reason : String := ""
  incidentStartedAt : Option String := none
  deriving DecidableEq

/-- Whether an action is in force. -/
def IncidentActionConfig.isActive (action : IncidentActionConfig) (now : ℚ) : Bool :=
  now < action.until_

end Mocop
