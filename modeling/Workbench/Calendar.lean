import Workbench.Text.Numeral
/-!
# Dates

A number of seconds since the beginning of 1970 as a date with a time of day, in the calendar of
today extended to all years, without leap seconds.
-/
namespace Workbench

/-- A day of the calendar. -/
structure Date where
  year : Int
  month : Nat
  day : Nat
  deriving DecidableEq, Repr

namespace Date

def cycleDays : Nat := 146097

/-- The days from the first of March of the year 0 to the first of January of 1970. -/
def epochOffset : Nat := 719468

/-- The day that is a number of days after the first of January of 1970. Years are counted from
March on, so that a leap day is the last of its year; every 400 years the calendar repeats. -/
def ofDays (days : Int) : Date :=
  let shifted := days + epochOffset
  let inCycle := (shifted % cycleDays).toNat
  let yearInCycle := (inCycle - inCycle / 1460 + inCycle / 36524 - inCycle / 146096) / 365
  let inYear := inCycle - (365 * yearInCycle + yearInCycle / 4 - yearInCycle / 100)
  let fromMarch := (5 * inYear + 2) / 153
  let month := if fromMarch < 10 then fromMarch + 3 else fromMarch - 9
  { year := shifted / cycleDays * 400 + yearInCycle + (if month ≤ 2 then 1 else 0)
    month
    day := inYear - (153 * fromMarch + 2) / 5 + 1 }

def padded (width n : Nat) : String :=
  let digits := Text.decimal n
  String.ofList (List.replicate (width - digits.length) '0') ++ digits

/-- A year in four digits; one that has no place in them bears a sign. -/
def yearText (year : Int) : String :=
  let sign := if year < 0 then "-" else if year ≤ 9999 then "" else "+"
  sign ++ padded 4 year.natAbs

def text (d : Date) : String := yearText d.year ++ "-" ++ padded 2 d.month ++ "-" ++ padded 2 d.day

def isTold (d : Date) : Bool := -262143 ≤ d.year && d.year ≤ 262142

end Date

/-- The date and time of day a number of seconds after the beginning of 1970; the number itself
where the date is too far away. -/
def momentText (seconds : Int) : String :=
  let date := Date.ofDays (seconds / 86400)
  let time := (seconds % 86400).toNat
  if date.isTold then
    date.text ++ " " ++ Date.padded 2 (time / 3600) ++ ":" ++ Date.padded 2 (time / 60 % 60) ++ ":" ++
      Date.padded 2 (time % 60)
  else Text.decimalInt seconds

end Workbench
