/-
  Dates and times of day, as a report shows them.

  A time is a number of seconds since the first of January 1970, in UTC and
  without leap seconds. Years are counted from March, so that a leap day is the
  last day of its year.
-/

namespace Mainframe.Report

/-- A date of the Gregorian calendar. -/
structure Date where
  year : Nat
  month : Nat
  day : Nat
  deriving DecidableEq, Repr

/-- The days from the first of March of the year 0 to the first of January 1970. -/
def epochDay : Nat := 719468

/-- The days in 400 years. -/
def eraDays : Nat := 146097

/-- The date that lies the number of days after the first of January 1970. -/
def Date.ofDays (days : Nat) : Date :=
  let day := days + epochDay
  let inEra := day % eraDays
  let year := (inEra - inEra / 1460 + inEra / 36524 - inEra / 146096) / 365
  let inYear := inEra - (365 * year + year / 4 - year / 100)
  let month := (5 * inYear + 2) / 153
  let fromJanuary := if month < 10 then month + 3 else month - 9
  { year := year + 400 * (day / eraDays) + (if fromJanuary ≤ 2 then 1 else 0)
    month := fromJanuary
    day := inYear - (153 * month + 2) / 5 + 1 }

-- the leap day of a year that is divided by 400
example : Date.ofDays 11016 = ⟨2000, 2, 29⟩ := by decide

/-- The number with zeros in front, up to a width. -/
def withZeros (width n : Nat) : String :=
  let digits := Nat.toDigits 10 n
  String.ofList (List.replicate (width - digits.length) '0' ++ digits)

/-- The time as a report shows it. -/
def timeText (seconds : Nat) : String :=
  let date := Date.ofDays (seconds / 86400)
  let second := seconds % 86400
  withZeros 4 date.year ++ "-" ++ withZeros 2 date.month ++ "-" ++ withZeros 2 date.day ++ " "
    ++ withZeros 2 (second / 3600) ++ ":" ++ withZeros 2 (second / 60 % 60) ++ ":"
    ++ withZeros 2 (second % 60) ++ " UTC"

example : timeText 0 = "1970-01-01 00:00:00 UTC" := by decide

end Mainframe.Report
