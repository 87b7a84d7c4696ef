/-! The proleptic Gregorian calendar, counted in days from 1 January 1970.  A year here starts on
1 March, so that a leap day is the last day of its year, and 400 such years are an era of 146097
days. -/

namespace TapeMachine.Calendar

/-- A day of the calendar. -/
structure Date where
  year : Nat
  /-- The month, 1 to 12. -/
  month : Nat
  /-- The day of the month, from 1. -/
  day : Nat
  deriving DecidableEq, Repr

/-- The days of an era. -/
def daysPerEra : Nat := 146097

/-- The days from 1 March of year 0 to 1 January 1970. -/
def daysBeforeEpoch : Nat := 719468

/-- The year of an era that a day of the era falls in, both counted from 0: leap days are taken off,
and then every year has 365 days. -/
def yearOfEra (day : Nat) : Nat :=
  (day - day / 1460 + day / 36524 - day / 146096) / 365

/-- The days of an era before one of its years. -/
def daysBeforeYear (year : Nat) : Nat :=
  365 * year + year / 4 - year / 100

/-- The month that a day of a year falls in, both counted from 0 in March: five months have 153
days. -/
def monthOfYear (day : Nat) : Nat :=
  (5 * day + 2) / 153

/-- The days of a year before one of its months. -/
def daysBeforeMonth (month : Nat) : Nat :=
  (153 * month + 2) / 5

/-- The date of a day counted from 1 January 1970. -/
def Date.ofDays (days : Nat) : Date :=
  let count := days + daysBeforeEpoch
  let dayOfEra := count % daysPerEra
  let yearOfEra := yearOfEra dayOfEra
  let dayOfYear := dayOfEra - daysBeforeYear yearOfEra
  let monthOfYear := monthOfYear dayOfYear
  let month := if monthOfYear < 10 then monthOfYear + 3 else monthOfYear - 9
  let year := yearOfEra + count / daysPerEra * 400
  { year := if month ≤ 2 then year + 1 else year
    month
    day := dayOfYear - daysBeforeMonth monthOfYear + 1 }

end TapeMachine.Calendar
