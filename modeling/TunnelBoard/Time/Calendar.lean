import TunnelBoard.Text.Basic
/-
  Moments in universal time, from a count of seconds since the start of 1970.

  Days are counted from the first of March of the year 0, so that a leap day is the last day of its
  year.  Four hundred years are 146097 days; within them, a day's year and month follow by division.
-/

namespace TunnelBoard

structure Date where
  year : Int
  month : Nat
  day : Nat
  deriving DecidableEq, Repr

namespace Date

/-- The date a number of days after the start of 1970. -/
def ofDays (days : Int) : Date :=
  let d := days + 719468
  let era := d.fdiv 146097
  let dayOfEra := (d - era * 146097).toNat
  let yearOfEra := (dayOfEra - dayOfEra / 1460 + dayOfEra / 36524 - dayOfEra / 146096) / 365
  let dayOfYear := dayOfEra - (365 * yearOfEra + yearOfEra / 4 - yearOfEra / 100)
  let m := (5 * dayOfYear + 2) / 153
  let month := if m < 10 then m + 3 else m - 9
  { year := yearOfEra + era * 400 + (if month ≤ 2 then 1 else 0)
    month
    day := dayOfYear - (153 * m + 2) / 5 + 1 }

end Date

/-- A year in at least four digits, with a sign unless it is one of the years 0 to 9999. -/
def yearText (y : Int) : Text :=
  if y < 0 then '-' :: natTextPadded 4 y.natAbs
  else if 9999 < y then '+' :: natText y.toNat
  else natTextPadded 4 y.toNat

/-- A moment as `2023-11-14 22:13:20 UTC`. -/
def momentText (seconds : Int) : Text :=
  let date := Date.ofDays (seconds.fdiv 86400)
  let rest := (seconds.fmod 86400).toNat
  yearText date.year ++ '-' :: natTextPadded 2 date.month ++ '-' :: natTextPadded 2 date.day
    ++ ' ' :: natTextPadded 2 (rest / 3600) ++ ':' :: natTextPadded 2 (rest % 3600 / 60)
    ++ ':' :: natTextPadded 2 (rest % 60) ++ " UTC".toList

end TunnelBoard
