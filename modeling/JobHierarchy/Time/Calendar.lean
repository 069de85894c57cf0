/-!
# The calendar

Dates of the Gregorian calendar, extended to all years, and the count of days from 1970-01-01.
-/

namespace JobHierarchy.Calendar

def isLeapYear (year : Int) : Bool :=
  year % 4 = 0 && (year % 100 ≠ 0 || year % 400 = 0)

/-- The number of days in a month; no days in a month that is none. -/
def daysInMonth (year : Int) (month : Nat) : Nat :=
  if month = 2 then if isLeapYear year then 29 else 28
  else if month = 4 || month = 6 || month = 9 || month = 11 then 30
  else if 1 ≤ month && month ≤ 12 then 31
  else 0

/-- Whether a date is in the calendar. -/
def isDate (year : Int) (month day : Nat) : Bool :=
  1 ≤ day && day ≤ daysInMonth year month

/-- Days from 1970-01-01 to a date. Years are taken to begin in March, so that the leap day comes
last. -/
def toDays (year : Int) (month day : Nat) : Int :=
  let y := if month ≤ 2 then year - 1 else year
  let era := y / 400
  let yearOfEra := y % 400
  let monthFromMarch : Int := ((month + 9) % 12 : Nat)
  let dayOfYear := (153 * monthFromMarch + 2) / 5 + day - 1
  era * 146097 + (yearOfEra * 365 + yearOfEra / 4 - yearOfEra / 100 + dayOfYear) - 719468

/-- The date a number of days after 1970-01-01. -/
def ofDays (days : Int) : Int × Nat × Nat :=
  let z := days + 719468
  let era := z / 146097
  let dayOfEra := z % 146097
  let yearOfEra :=
    (dayOfEra - dayOfEra / 1460 + dayOfEra / 36524 - dayOfEra / 146096) / 365
  let dayOfYear := dayOfEra - (365 * yearOfEra + yearOfEra / 4 - yearOfEra / 100)
  let monthFromMarch := (5 * dayOfYear + 2) / 153
  let day := dayOfYear - (153 * monthFromMarch + 2) / 5 + 1
  let month := if monthFromMarch < 10 then monthFromMarch + 3 else monthFromMarch - 9
  let year := yearOfEra + era * 400 + (if month ≤ 2 then 1 else 0)
  (year, month.toNat, day.toNat)

example : toDays 1970 1 1 = 0 ∧ toDays 2000 3 1 = 11017 ∧ toDays 0 1 1 = -719528 := by decide
example : ofDays 0 = (1970, 1, 1) ∧ ofDays 11016 = (2000, 2, 29) ∧ ofDays (-719528) = (0, 1, 1) := by
  decide

end JobHierarchy.Calendar
