/-!
# Gregorian calendar

Days are counted from 1 January 1970. The day count of a date is closed arithmetic; the date of a
day is found from an estimate of its year, corrected by one where the estimate is off.
-/

namespace NodeFleet

/-- A date of the Gregorian calendar, extended to all years. -/
structure Date where
  year : Int
  month : Nat
  day : Nat
deriving DecidableEq, Repr

namespace Calendar

/-- Whether a year has 366 days. -/
def isLeap (year : Int) : Bool :=
  year % 4 == 0 && (year % 100 != 0 || year % 400 == 0)

/-- The lengths of the twelve months of a common or a leap year. -/
def monthLengths (leap : Bool) : List Nat :=
  [31, if leap then 29 else 28, 31, 30, 31, 30, 31, 31, 30, 31, 30, 31]

/-- Days from 1 January 1970 to 1 January of a year. -/
def yearStart (year : Int) : Int :=
  365 * year + (year + 3) / 4 - (year + 99) / 100 + (year + 399) / 400 - 719528

/-- The year that a day falls into. -/
def yearOf (day : Int) : Int :=
  let guess := (day + 719528) * 400 / 146097
  if day < yearStart guess then guess - 1
  else if yearStart (guess + 1) ≤ day then guess + 1
  else guess

/-- Finds the month and the day of the month of a day of the year, both counted from one; `month`
is the number of the first month of the list. -/
def splitDay : Nat → List Nat → Nat → Nat × Nat
  | month, [], day => (month, day + 1)
  | month, length :: rest, day =>
      if day < length then (month, day + 1) else splitDay (month + 1) rest (day - length)

/-- The date of a day. -/
def dateOf (day : Int) : Date :=
  let year := yearOf day
  let split := splitDay 1 (monthLengths (isLeap year)) (day - yearStart year).toNat
  ⟨year, split.1, split.2⟩

end Calendar

namespace Date

/-- Whether the month exists and has the day. -/
def isValid (d : Date) : Bool :=
  1 ≤ d.month && 1 ≤ d.day
    && (match (Calendar.monthLengths (Calendar.isLeap d.year))[d.month - 1]? with
      | some length => decide (d.day ≤ length)
      | none => false)

/-- Days from 1 January 1970. -/
def dayNumber (d : Date) : Int :=
  Calendar.yearStart d.year
    + (((Calendar.monthLengths (Calendar.isLeap d.year)).take (d.month - 1)).foldr Nat.add 0
      + (d.day - 1) : Nat)

end Date

end NodeFleet
