import DataFilter.Time.Duration

/-!
# Points in time

An instant counts nanoseconds from the first of January 1970, UTC, in the Gregorian calendar
extended to the years -262143 to 262142. Leap seconds are not counted.
-/

namespace DataFilter

/-- A point in time. The bounds are the beginning of the year -262143 and the end of 262142. -/
structure Instant where
  nanoseconds : Int
  lower : -8334601228800000000000 ≤ nanoseconds
  upper : nanoseconds < 8210266876800000000000
  deriving DecidableEq

namespace Instant

/-- The instant so many nanoseconds after the beginning of 1970, if it is in the calendar. -/
def ofNanoseconds? (n : Int) : Option Instant :=
  if h : -8334601228800000000000 ≤ n ∧ n < 8210266876800000000000 then some ⟨n, h.1, h.2⟩ else none

instance : Inhabited Instant := ⟨⟨0, by decide, by decide⟩⟩

def compare (a b : Instant) : Ordering := Ord.compare a.nanoseconds b.nanoseconds

/-- The time from `b` to `a`. The calendar is short enough for every difference. -/
def since (a b : Instant) : Duration :=
  ⟨a.nanoseconds - b.nanoseconds,
    by have := a.lower; have := b.upper; unfold spanLimit; omega,
    by have := a.upper; have := b.lower; unfold spanLimit; omega⟩

def add? (a : Instant) (d : Duration) : Option Instant :=
  ofNanoseconds? (a.nanoseconds + d.nanoseconds)

def sub? (a : Instant) (d : Duration) : Option Instant :=
  ofNanoseconds? (a.nanoseconds - d.nanoseconds)

/-! ## The calendar -/

/-- A day of the Gregorian calendar. -/
structure Date where
  year : Int
  month : Nat
  day : Nat
  deriving DecidableEq, Repr

/-- The date of a day counted from the first of January 1970. Years are counted from March, in
cycles of 400 years, so that the leap day is the last of its year. -/
def Date.ofDay (day : Int) : Date :=
  let fromMarch := day + 719468
  let cycle := fromMarch / 146097
  let dayOfCycle := (fromMarch % 146097).toNat
  let yearOfCycle :=
    (dayOfCycle - dayOfCycle / 1460 + dayOfCycle / 36524 - dayOfCycle / 146096) / 365
  let dayOfYear := dayOfCycle - (365 * yearOfCycle + yearOfCycle / 4 - yearOfCycle / 100)
  let monthFromMarch := (5 * dayOfYear + 2) / 153
  let month := if monthFromMarch < 10 then monthFromMarch + 3 else monthFromMarch - 9
  { year := cycle * 400 + yearOfCycle + (if month ≤ 2 then 1 else 0)
    month := month
    day := dayOfYear - (153 * monthFromMarch + 2) / 5 + 1 }

/-- Four digits, with a sign for the years outside 0 to 9999. -/
def Date.yearText (year : Int) : String :=
  if 0 ≤ year ∧ year ≤ 9999 then paddedDigits 4 year.toNat
  else (if year < 0 then "-" else "+") ++ paddedDigits 4 year.natAbs

/-- No decimals, or three, six or nine of them as needed. -/
def fractionText (nanoseconds : Nat) : String :=
  if nanoseconds = 0 then ""
  else if nanoseconds % 1000000 = 0 then "." ++ paddedDigits 3 (nanoseconds / 1000000)
  else if nanoseconds % 1000 = 0 then "." ++ paddedDigits 6 (nanoseconds / 1000)
  else "." ++ paddedDigits 9 nanoseconds

/-- Date and time of day as RFC 3339 writes them, in UTC. -/
def render (a : Instant) : String :=
  let seconds := a.nanoseconds / second
  let date := Date.ofDay (seconds / 86400)
  let time := (seconds % 86400).toNat
  Date.yearText date.year ++ "-" ++ paddedDigits 2 date.month ++ "-" ++ paddedDigits 2 date.day ++
    "T" ++ paddedDigits 2 (time / 3600) ++ ":" ++ paddedDigits 2 (time / 60 % 60) ++ ":" ++
    paddedDigits 2 (time % 60) ++ fractionText (a.nanoseconds % second).toNat ++ "+00:00"

end Instant

end DataFilter
