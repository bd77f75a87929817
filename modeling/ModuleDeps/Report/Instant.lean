/-
The time of a report.

Years are taken to begin in March, so that a leap day is the last day of its year; then the day of
the month follows from the day of the year by one division.

Main definitions:

* `ModuleDeps.Date`, `ModuleDeps.Date.ofDays` — a day of the calendar, and the one so many days
  after the first of January 1970;
* `ModuleDeps.Instant.text` — a time in UTC as it is written in a report.
-/

set_option relaxedAutoImplicit false
set_option autoImplicit false

namespace ModuleDeps

/-- A day of the calendar. -/
structure Date where
  /-- The year. -/
  year : Nat
  /-- The month, from 1. -/
  month : Nat
  /-- The day of the month, from 1. -/
  day : Nat
  deriving DecidableEq, Repr

/-- The days from the first of March of the year 0 to the first of January 1970. -/
def Date.epoch : Nat := 719468

/-- The day so many days after the first of January 1970. -/
def Date.ofDays (days : Nat) : Date :=
  let shifted := days + epoch
  let era := shifted / 146097
  let inEra := shifted % 146097
  let year := (inEra - inEra / 1460 + inEra / 36524 - inEra / 146096) / 365
  let inYear := inEra - (365 * year + year / 4 - year / 100)
  let month := (5 * inYear + 2) / 153
  let day := inYear - (153 * month + 2) / 5 + 1
  if month < 10 then ⟨400 * era + year, month + 3, day⟩
  else ⟨400 * era + year + 1, month - 9, day⟩

namespace Instant

/-- A number with at least the given number of digits. -/
def padded (width n : Nat) : String :=
  String.ofList (List.replicate (width - (toString n).length) '0') ++ toString n

/-- The fraction of a second: as many groups of three digits as are needed. -/
def fraction (nanoseconds : Nat) : String :=
  if nanoseconds = 0 then ""
  else if nanoseconds % 1000000 = 0 then "." ++ padded 3 (nanoseconds / 1000000)
  else if nanoseconds % 1000 = 0 then "." ++ padded 6 (nanoseconds / 1000)
  else "." ++ padded 9 nanoseconds

/-- The time so many nanoseconds after the beginning of 1970, in UTC. -/
def text (nanoseconds : Nat) : String :=
  let seconds := nanoseconds / 1000000000
  let date := Date.ofDays (seconds / 86400)
  padded 4 date.year ++ "-" ++ padded 2 date.month ++ "-" ++ padded 2 date.day ++ "T" ++
    padded 2 (seconds / 3600 % 24) ++ ":" ++ padded 2 (seconds / 60 % 60) ++ ":" ++
    padded 2 (seconds % 60) ++ fraction (nanoseconds % 1000000000) ++ "Z"

end Instant

end ModuleDeps
