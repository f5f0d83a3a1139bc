/-!
# Timestamps

A moment in UTC and its text in the form of RFC 3339 with whole seconds.
-/
namespace BattleOdds

/-- A moment: seconds since the start of 1970 and nanoseconds. From 10⁹ nanoseconds on it lies in
the leap second that follows the second. -/
structure Timestamp where
  seconds : Int := 0
  nanoseconds : Nat := 0
deriving DecidableEq, Inhabited

/-- A day of the proleptic Gregorian calendar. -/
structure Date where
  year : Int
  month : Nat
  day : Nat
deriving DecidableEq

namespace Date

/-- The day that lies a number of days after the first of January 1970. Years are counted from
March, so that the leap day is the last of a year, in eras of 400 years, which all have 146097 days.
-/
def ofDays (days : Int) : Date :=
  let shifted := days + 719468
  let era := shifted / 146097
  let dayOfEra := (shifted % 146097).toNat
  let yearOfEra := (dayOfEra - dayOfEra / 1460 + dayOfEra / 36524 - dayOfEra / 146096) / 365
  let dayOfYear := dayOfEra - (365 * yearOfEra + yearOfEra / 4 - yearOfEra / 100)
  let monthFromMarch := (5 * dayOfYear + 2) / 153
  let month := if monthFromMarch < 10 then monthFromMarch + 3 else monthFromMarch - 9
  { year := era * 400 + yearOfEra + if month ≤ 2 then 1 else 0
    month := month
    day := dayOfYear - (153 * monthFromMarch + 2) / 5 + 1 }

end Date

/-- A number with zeros before it up to a width. -/
def padded (width n : Nat) : String :=
  let digits := toString n
  String.ofList (List.replicate (width - digits.length) '0') ++ digits

/-- A year has at least four digits, and a sign where it is outside 0 to 9999. -/
def Date.yearText (year : Int) : String :=
  if year < 0 then "-" ++ padded 4 year.natAbs
  else if 9999 < year then "+" ++ padded 4 year.natAbs
  else padded 4 year.natAbs

namespace Timestamp

def date (t : Timestamp) : Date := .ofDays (t.seconds / 86400)

/-- Seconds since midnight. -/
def secondOfDay (t : Timestamp) : Nat := (t.seconds % 86400).toNat

/-- The moment in the form of RFC 3339, with `Z` for UTC. -/
def text (t : Timestamp) : String :=
  let date := t.date
  let second := t.secondOfDay
  Date.yearText date.year ++ "-" ++ padded 2 date.month ++ "-" ++ padded 2 date.day
    ++ "T" ++ padded 2 (second / 3600) ++ ":" ++ padded 2 (second / 60 % 60)
    ++ ":" ++ padded 2 (second % 60 + t.nanoseconds / 1000000000) ++ "Z"

end Timestamp

end BattleOdds
