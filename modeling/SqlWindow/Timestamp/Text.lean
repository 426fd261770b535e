import SqlWindow.Timestamp.Basic

set_option autoImplicit false

/-! # Text of timestamps

A timestamp is written in the form of RFC 3339, in UTC: `2024-01-15T10:00:00+00:00`. The
fraction of the second has as many groups of three digits as it needs. Years outside of
0 … 9999 carry a sign. A leap second is second 60 of its minute.
-/

namespace SqlWindow

namespace Timestamp

/-- A day of the calendar. -/
structure CalendarDay where
  year : Int
  month : Int
  day : Int
deriving DecidableEq, Repr

/-- The calendar day that is `days` days after the first of January 1970.

Days are counted from the first of March of year 0, so that the leap day ends a year. A cycle
of 400 years has 146097 days; inside a cycle the year follows from the day, and inside a year
the month, since the months from March on repeat the lengths 31, 30, 31, 30, 31. -/
def CalendarDay.ofDays (days : Int) : CalendarDay :=
  let shifted := days + 719468
  let cycle := shifted / 146097
  let dayOfCycle := shifted % 146097
  let yearOfCycle :=
    (dayOfCycle - dayOfCycle / 1460 + dayOfCycle / 36524 - dayOfCycle / 146096) / 365
  let dayOfYear := dayOfCycle - (365 * yearOfCycle + yearOfCycle / 4 - yearOfCycle / 100)
  let monthFromMarch := (5 * dayOfYear + 2) / 153
  let day := dayOfYear - (153 * monthFromMarch + 2) / 5 + 1
  let month := if monthFromMarch < 10 then monthFromMarch + 3 else monthFromMarch - 9
  let year := cycle * 400 + yearOfCycle + (if month ≤ 2 then 1 else 0)
  ⟨year, month, day⟩

/-- A number with zeros in front up to a width. -/
def padded (width n : Nat) : String :=
  let ds := Nat.toDigits 10 n
  String.ofList (List.replicate (width - ds.length) '0' ++ ds)

/-- A year, signed when it does not have four digits. -/
def yearText (year : Int) : String :=
  if 0 ≤ year ∧ year ≤ 9999 then padded 4 year.toNat
  else (if year < 0 then "-" else "+") ++ padded 4 year.natAbs

/-- The fraction of a second, in milli-, micro- or nanoseconds; nothing when it is zero. -/
def fractionText (nanos : Nat) : String :=
  if nanos = 0 then ""
  else if nanos % 1000000 = 0 then "." ++ padded 3 (nanos / 1000000)
  else if nanos % 1000 = 0 then "." ++ padded 6 (nanos / 1000)
  else "." ++ padded 9 nanos

/-- The text of a timestamp. -/
def text (t : Timestamp) : String :=
  let date := CalendarDay.ofDays (t.seconds / 86400)
  let second := (t.seconds % 86400).toNat
  let leap := t.nanos / nanosPerSecond
  yearText date.year ++ "-" ++ padded 2 date.month.toNat ++ "-" ++ padded 2 date.day.toNat ++ "T" ++
    padded 2 (second / 3600) ++ ":" ++ padded 2 (second / 60 % 60) ++ ":" ++
    padded 2 (second % 60 + leap) ++ fractionText (t.nanos % nanosPerSecond) ++ "+00:00"

end Timestamp

end SqlWindow
