import Mocop.Inventory.Loader
import Mocop.Lib.Json
import Mocop.Service.Overlay

/-!
# `Mocop.Inventory.Windows`: the maintenance windows of a document

`maintenanceWindow` loads one window of the document: until an instant, or recurring in every
week or on every day. `maintenanceWindow_recurs` says what a recurring window satisfies: it
starts within a day, and lasts at least a minute and less than its period.

What Python knows about texts is a parameter (`TextRules`): the Unicode category `C`, the decimal
digits, and the instants that `datetime.strptime` reads.
-/

set_option autoImplicit false

namespace Mocop

/-- What Python knows about texts. A decimal digit has a value up to 9, and the ASCII digits
have theirs. `strptime` yields the seconds since the epoch. -/
structure TextRules where
  isOther : Char → Bool
  digitOf : Char → Option ℕ
  strptime : String → Option ℤ
  digit_le : ∀ c digit, digitOf c = some digit → digit ≤ 9
  digit_ascii : ∀ digit ≤ 9, digitOf (Nat.digitChar digit) = some digit

/-- What Python knows about texts, as far as ASCII goes. -/
def asciiText : TextRules where
  isOther := fun c => c.toNat < 32
  digitOf := fun c => if 48 ≤ c.toNat ∧ c.toNat ≤ 57 then some (c.toNat - 48) else none
  strptime := fun _ => none
  digit_le := by
    intro c digit h
    split at h
    · obtain rfl := Option.some.inj h
      omega
    · cases h
  digit_ascii := by decide

/-- A value that is there. -/
def present {α : Type} (value : Option α) (message : ConfigError) : Except ConfigError α :=
  match value with
  | some a => .ok a
  | none => .error message

theorem present_eq_ok {α : Type} {value : Option α} {message : ConfigError} {a : α} :
    present value message = .ok a ↔ value = some a := by
  cases value <;> simp [present]

/-! ### Maintenance windows -/

/-- `MAINTENANCE_REASON_MAX_LENGTH` -/
def maintenanceReasonMaxLength : ℕ := 120

section Windows

variable (text : TextRules)

/-- A character that a shown text may not contain: of the category `C`, or a separator of lines
or paragraphs. -/
def isDisallowed (c : Char) : Bool := text.isOther c || c == '\u2028' || c == '\u2029'

/-- Whether a text may be the reason of a window. -/
def isValidMaintenanceReason (value : String) : Bool :=
  (pyStrip value).length ≤ maintenanceReasonMaxLength && !value.toList.any (isDisallowed text)

/-- The minutes after midnight of a time of day `HH:MM`. -/
def recurrenceStart (value : String) : Option ℕ :=
  match value.toList with
  | [hourTen, hourOne, colon, minuteTen, minuteOne] => do
    let tens ← ['0', '1', '2'].idxOf? hourTen
    let ones ← text.digitOf hourOne
    let minuteTens ← ['0', '1', '2', '3', '4', '5'].idxOf? minuteTen
    let minuteOnes ← text.digitOf minuteOne
    if colon = ':' ∧ (tens < 2 ∨ hourOne ∈ ['0', '1', '2', '3']) then
      some ((tens * 10 + ones) * 60 + (minuteTens * 10 + minuteOnes))
    else none
  | _ => none

/-- Whether a text has the form of a UTC timestamp. -/
def isTimestamp (value : String) : Bool :=
  let form := "0000-00-00T00:00:00Z".toList
  value.toList.length = form.length && (value.toList.zip form).all fun entry =>
    if entry.2 = '0' then (text.digitOf entry.1).isSome else entry.1 = entry.2

/-- The seconds of a UTC timestamp. -/
def utcTimestamp (value : Option Json) (label : String) : Except ConfigError ℤ := do
  let spelled ← present ((value.bind Json.string?).filter (isTimestamp text))
    (label ++ " must be a UTC timestamp")
  present (text.strptime spelled) (label ++ " must be a valid UTC timestamp")

/-- Loads a recurring schedule. -/
def recurrence (label : String) (raw : Json) : Except ConfigError MaintenanceSchedule := do
  let members ← present raw.object? (label ++ " must be a JSON object")
  let unknown := ((members.map Prod.fst).filter fun key =>
    !(["weekday", "daily", "start", "duration_minutes"].contains key)).mergeSort (· ≤ ·)
  require unknown.isEmpty ("unknown " ++ label ++ " keys: " ++ String.intercalate ", " unknown)
  let daily ← present ((members.lookup "daily").getD (.bool false)).bool?
    (label ++ ".daily must be true or false")
  require (daily != (members.lookup "weekday").isSome)
    (label ++ " must define exactly one of 'weekday' or 'daily'")
  let weekday := (members.lookup "weekday").bind Json.integer?
  require (daily || weekday.any fun day => 0 ≤ day && day ≤ 6)
    (label ++ ".weekday must be 0 (Monday) to 6 (Sunday)")
  let start ← present ((members.lookup "start").bind fun value =>
    value.string?.bind (recurrenceStart text)) (label ++ ".start must be 'HH:MM' in UTC")
  let longest : ℤ := if daily then 1439 else 10079
  let duration ← present (((members.lookup "duration_minutes").bind Json.integer?).filter
      fun minutes => 1 ≤ minutes && minutes ≤ longest)
    (label ++ ".duration_minutes must be 1 to " ++ toString longest ++ " (less than one "
      ++ (if daily then "day" else "week") ++ ")")
  return if daily then .daily start duration.toNat
    else .weekly (weekday.getD 0).toNat start duration.toNat

/-- Loads a window. -/
def maintenanceWindow (name : String) (raw : Json) : Except ConfigError MaintenanceWindowConfig :=
  do
  let label := "maintenance_windows." ++ name
  let members ← present raw.object? (label ++ " must be a JSON object")
  let unknown := ((members.map Prod.fst).filter fun key =>
    !(["until", "reason", "recurrence"].contains key)).mergeSort (· ≤ ·)
  require unknown.isEmpty ("unknown " ++ label ++ " keys: " ++ String.intercalate ", " unknown)
  let reason ← present (((members.lookup "reason").getD (.string "")).string?.filter
      (isValidMaintenanceReason text))
    (label ++ ".reason must be at most " ++ toString maintenanceReasonMaxLength
      ++ " visible characters")
  require ((members.lookup "until").isSome != (members.lookup "recurrence").isSome)
    (label ++ " must define exactly one of 'until' or 'recurrence'")
  let schedule ←
    match members.lookup "recurrence" with
    | none => do
      let until_ ← utcTimestamp text (members.lookup "until") (label ++ ".until")
      pure (.once until_)
    | some value => recurrence text (label ++ ".recurrence") value
  return { reason := pyStrip reason, schedule := schedule }

/-! ### What a loaded window satisfies -/

/-- A recurring schedule within the bounds of the loader. -/
def MaintenanceSchedule.InBounds : MaintenanceSchedule → Prop
  | .once _ => True
  | .weekly weekday startMinutes durationMinutes =>
    weekday ≤ 6 ∧ startMinutes < 1440 ∧ 1 ≤ durationMinutes ∧ durationMinutes ≤ 10079
  | .daily startMinutes durationMinutes =>
    startMinutes < 1440 ∧ 1 ≤ durationMinutes ∧ durationMinutes ≤ 1439

/-- A time of day is a minute of the day. -/
theorem recurrenceStart_lt {value : String} {start : ℕ}
    (h : recurrenceStart text value = some start) : start < 1440 := by
  unfold recurrenceStart at h
  split at h
  · obtain ⟨tens, htens, h⟩ := Option.bind_eq_some_iff.mp h
    obtain ⟨ones, hones, h⟩ := Option.bind_eq_some_iff.mp h
    obtain ⟨minuteTens, hminuteTens, h⟩ := Option.bind_eq_some_iff.mp h
    obtain ⟨minuteOnes, hminuteOnes, h⟩ := Option.bind_eq_some_iff.mp h
    have htens' : tens < 3 := (List.idxOf?_eq_some_iff.mp htens).1
    have hminuteTens' : minuteTens < 6 := (List.idxOf?_eq_some_iff.mp hminuteTens).1
    have hones' := text.digit_le _ _ hones
    have hminuteOnes' := text.digit_le _ _ hminuteOnes
    split at h
    · next hform =>
      obtain rfl := Option.some.inj h
      rcases hform.2 with hearly | hlate
      · omega
      · -- After 20 o'clock the second digit is an ASCII digit up to 3.
        have hsmall : ones ≤ 3 := by
          have hdigit : ∀ digit ≤ 3, ∀ c, c = Nat.digitChar digit → text.digitOf c = some ones →
              ones ≤ 3 := by
            rintro digit hdigit c rfl hvalue
            rw [text.digit_ascii digit (by omega)] at hvalue
            obtain rfl := Option.some.inj hvalue
            exact hdigit
          simp only [List.mem_cons, List.not_mem_nil, or_false] at hlate
          rcases hlate with hc | hc | hc | hc
          · exact hdigit 0 (by decide) _ hc hones
          · exact hdigit 1 (by decide) _ hc hones
          · exact hdigit 2 (by decide) _ hc hones
          · exact hdigit 3 (by decide) _ hc hones
        omega
    · cases h
  · cases h

/-- A loaded recurring schedule is within the bounds. -/
theorem recurrence_inBounds {label : String} {raw : Json} {schedule : MaintenanceSchedule}
    (h : recurrence text label raw = .ok schedule) : schedule.InBounds := by
  obtain ⟨members, -, h⟩ := bind_eq_ok.mp h
  obtain ⟨_, -, h⟩ := bind_eq_ok.mp h
  obtain ⟨daily, -, h⟩ := bind_eq_ok.mp h
  obtain ⟨_, -, h⟩ := bind_eq_ok.mp h
  obtain ⟨_, hweekday, h⟩ := bind_eq_ok.mp h
  obtain ⟨start, hstart, h⟩ := bind_eq_ok.mp h
  obtain ⟨duration, hduration, h⟩ := bind_eq_ok.mp h
  obtain ⟨value, -, hvalue⟩ := Option.bind_eq_some_iff.mp (present_eq_ok.mp hstart)
  obtain ⟨spelled, -, hspelled⟩ := Option.bind_eq_some_iff.mp hvalue
  have hminute := recurrenceStart_lt text hspelled
  have hlasts := (Option.filter_eq_some_iff.mp (present_eq_ok.mp hduration)).2
  have hday := require_eq_ok.mp hweekday
  rw [Bool.and_eq_true, decide_eq_true_eq, decide_eq_true_eq] at hlasts
  obtain rfl := Except.ok.inj h
  cases daily with
  | true =>
    have hlongest := hlasts.2
    rw [if_pos rfl] at hlongest
    exact ⟨hminute, by omega, by omega⟩
  | false =>
    have hlongest := hlasts.2
    simp only [Bool.false_eq_true, if_false] at hlongest
    cases hvalue : (members.lookup "weekday").bind Json.integer? with
    | none =>
      rw [hvalue] at hday
      cases hday
    | some day =>
      rw [hvalue, Bool.false_or, Option.any_some, Bool.and_eq_true, decide_eq_true_eq,
        decide_eq_true_eq] at hday
      simp only [Bool.false_eq_true, if_false, Option.getD_some]
      exact ⟨by omega, hminute, by omega, by omega⟩

/-- A loaded window is until an instant or within the bounds. -/
theorem maintenanceWindow_recurs {name : String} {raw : Json} {window : MaintenanceWindowConfig}
    (h : maintenanceWindow text name raw = .ok window) : window.schedule.InBounds := by
  obtain ⟨members, -, h⟩ := bind_eq_ok.mp h
  obtain ⟨_, -, h⟩ := bind_eq_ok.mp h
  obtain ⟨reason, -, h⟩ := bind_eq_ok.mp h
  obtain ⟨_, -, h⟩ := bind_eq_ok.mp h
  cases hrecurs : members.lookup "recurrence" with
  | none =>
    simp only [hrecurs] at h
    obtain ⟨until_, -, h⟩ := bind_eq_ok.mp h
    obtain rfl := Except.ok.inj h
    trivial
  | some value =>
    simp only [hrecurs] at h
    obtain ⟨schedule, hschedule, h⟩ := bind_eq_ok.mp h
    obtain rfl := Except.ok.inj h
    exact recurrence_inBounds text hschedule

end Windows

end Mocop
