import HookRelay.Text.Decimal

/-!
# Moments in coordinated universal time

A moment is a number of whole seconds since the beginning of 1970, negative before it, and
milliseconds within the second.  It is written as a calendar date and a time of day.

* `Moment.date`: year, month and day by the proleptic Gregorian calendar.
* `Moment.text`: `2026-01-31T23:59:59.007Z`.
-/

namespace HookRelay

/-- Seconds since the beginning of 1970 and milliseconds within the second. -/
structure Moment where
  seconds : Int
  milliseconds : Nat
deriving DecidableEq, Repr

namespace Moment

def daysPerEra : Int := 146097

/-- Year, month and day of a day counted from the beginning of 1970.  Years are counted from the
first of March, which puts the leap day last. -/
def date (day : Int) : Int × Nat × Nat :=
  let shifted := day + 719468
  let era := shifted / daysPerEra
  let dayOfEra := (shifted % daysPerEra).toNat
  let yearOfEra :=
    (dayOfEra - dayOfEra / 1460 + dayOfEra / 36524 - dayOfEra / 146096) / 365
  let dayOfYear := dayOfEra - (365 * yearOfEra + yearOfEra / 4 - yearOfEra / 100)
  let monthFromMarch := (5 * dayOfYear + 2) / 153
  let dayOfMonth := dayOfYear - (153 * monthFromMarch + 2) / 5 + 1
  let month := if monthFromMarch < 10 then monthFromMarch + 3 else monthFromMarch - 9
  let year := era * 400 + yearOfEra + (if month ≤ 2 then 1 else 0)
  (year, month, dayOfMonth)

/-- The last day of a common year and the leap day of a year divisible by four hundred. -/
example :
    date (-1) = (1969, 12, 31) ∧ date 0 = (1970, 1, 1) ∧ date 11016 = (2000, 2, 29) := by
  decide

/-- A year with four digits, and with a sign outside the years 0 to 9999. -/
def yearText (year : Int) : String :=
  if 0 ≤ year ∧ year ≤ 9999 then
    Decimal.padded 4 year.toNat
  else
    (if year < 0 then "-" else "+") ++ Decimal.padded 4 year.natAbs

def text (moment : Moment) : String :=
  let (year, month, day) := date (moment.seconds / 86400)
  let second := (moment.seconds % 86400).toNat
  yearText year ++ "-" ++ Decimal.padded 2 month ++ "-" ++ Decimal.padded 2 day ++ "T"
    ++ Decimal.padded 2 (second / 3600) ++ ":" ++ Decimal.padded 2 (second / 60 % 60) ++ ":"
    ++ Decimal.padded 2 (second % 60) ++ "." ++ Decimal.padded 3 moment.milliseconds ++ "Z"

end Moment
end HookRelay
