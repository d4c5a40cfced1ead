/-!
# The proleptic Gregorian calendar

Dates over all years, with day numbers counted from 0000-01-01.

* `Date.dayNumber` — the number of a date;
* `Date.ofDayNumber` — the date of a number. `yearOf` guesses the year from the
  mean length of a year and corrects the guess by at most one; `monthAndDay`
  walks through the months.
* `Date.isValid` — whether the month and the day exist.
-/

namespace Roster

/-- Whether a year has 366 days. -/
def isLeapYear (year : Int) : Bool :=
  year % 4 == 0 && (year % 100 != 0 || year % 400 == 0)

/-- The lengths of the twelve months. -/
def monthLengths (leap : Bool) : List Nat :=
  [31, if leap then 29 else 28, 31, 30, 31, 30, 31, 31, 30, 31, 30, 31]

/-- The days from 0000-01-01 to the first day of a year. -/
def daysBeforeYear (year : Int) : Int :=
  365 * year + (year + 3) / 4 - (year + 99) / 100 + (year + 399) / 400

/-- The day number of 1970-01-01. -/
def epochDay : Int := 719528

/-- The year that contains a day. -/
def yearOf (day : Int) : Int :=
  let guess := 400 * day / 146097
  if day < daysBeforeYear guess then guess - 1
  else if daysBeforeYear (guess + 1) ≤ day then guess + 1
  else guess

/-- Splits a day of the year, counted from zero, into a month and a day of the
month, given the first month and the lengths of the months. -/
def monthAndDay (month : Nat) : List Nat → Nat → Nat × Nat
  | [], day => (month, day + 1)
  | length :: rest, day =>
    if day < length then (month, day + 1) else monthAndDay (month + 1) rest (day - length)

/-- A date: month and day count from one. -/
structure Date where
  year : Int
  month : Nat
  day : Nat
deriving DecidableEq

namespace Date

/-- Whether the calendar has the date. -/
def isValid (date : Date) : Bool :=
  1 ≤ date.month && 1 ≤ date.day &&
    date.day ≤ (monthLengths (isLeapYear date.year)).getD (date.month - 1) 0

/-- The days from 0000-01-01 to the date. -/
def dayNumber (date : Date) : Int :=
  let months := (monthLengths (isLeapYear date.year)).take (date.month - 1)
  daysBeforeYear date.year + (months.foldl (· + ·) 0 : Nat) + date.day - 1

/-- The date of a day number. -/
def ofDayNumber (day : Int) : Date :=
  let year := yearOf day
  let split := monthAndDay 1 (monthLengths (isLeapYear year)) (day - daysBeforeYear year).toNat
  ⟨year, split.1, split.2⟩

end Date

end Roster
