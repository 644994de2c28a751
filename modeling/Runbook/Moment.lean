import Runbook.Text.Digits

/-!
This module contains points in time and their text: the time of day, and the date with the time in
the proleptic Gregorian calendar.
-/

namespace Runbook

/-- A point in time, in milliseconds since the beginning of 1970 in UTC. -/
structure Moment where
  millis : Int
  deriving DecidableEq, Repr

namespace Moment

open Text

/-- The whole days since the beginning of 1970. -/
def day (t : Moment) : Int :=
  t.millis / 86400000

/-- The milliseconds since midnight. -/
def ofDay (t : Moment) : Nat :=
  (t.millis % 86400000).toNat

/-- The time of day as hours, minutes and seconds. -/
def clock (t : Moment) : List Char :=
  let s := t.ofDay / 1000
  padded 2 (s / 3600) ++ [':'] ++ padded 2 (s / 60 % 60) ++ [':'] ++ padded 2 (s % 60)

def fraction (t : Moment) : List Char :=
  padded 3 (t.ofDay % 1000)

def clockText (t : Moment) : String :=
  String.ofList (t.clock ++ ['.'] ++ t.fraction)

/-- A date of the Gregorian calendar. -/
structure Date where
  year : Int
  month : Nat
  day : Nat
  deriving DecidableEq, Repr

/--
The date of a day. Years are counted from March, so that the leap day comes last, in eras of 400
years.
-/
def Date.ofDay (day : Int) : Date :=
  let z := day + 719468
  let era := z / 146097
  let d := (z % 146097).toNat
  let y := (d - d / 1460 + d / 36524 - d / 146096) / 365
  let n := d - (365 * y + y / 4 - y / 100)
  let m := (5 * n + 2) / 153
  let month := if m < 10 then m + 3 else m - 9
  { year := era * 400 + y + (if month ≤ 2 then 1 else 0)
    month
    day := n - (153 * m + 2) / 5 + 1 }

/-- A year in four digits; one before the year 0 or after 9999 has a sign. -/
def yearText (year : Int) : List Char :=
  if 0 ≤ year ∧ year ≤ 9999 then padded 4 year.toNat
  else (if year < 0 then '-' else '+') :: padded 4 year.natAbs

/-- The date and the time; milliseconds are left out when there are none. -/
def text (t : Moment) : String :=
  let date := Date.ofDay t.day
  let fraction := if t.ofDay % 1000 = 0 then [] else '.' :: t.fraction
  String.ofList (yearText date.year ++ ['-'] ++ padded 2 date.month ++ ['-'] ++
    padded 2 date.day ++ ['T'] ++ t.clock ++ fraction ++ ['Z'])

end Moment

end Runbook
