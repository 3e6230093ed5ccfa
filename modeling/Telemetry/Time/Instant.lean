import Telemetry.Basic
import Telemetry.Time.Civil

/-! Instants of universal time and their texts.
An instant is a number of seconds since 1970 and nanoseconds within that second.
A leap second is the second before it, 59, with a thousand million nanoseconds
more, and is written as second 60. Texts follow RFC 3339, with a sign before
years that do not have four digits. -/
namespace Telemetry

structure Instant where
  /-- Seconds since 1 January 1970, leap seconds not counted. -/
  seconds : Int
  /-- Nanoseconds within the second, from `10 ^ 9` on within a leap second. -/
  nanos : Nat
deriving DecidableEq, Repr, Inhabited

namespace Instant

/-- A number with zeros before it up to the given number of digits. -/
def digits (width n : Nat) : String :=
  let text := Nat.toDigits 10 n
  String.ofList (List.replicate (width - text.length) '0' ++ text)

/-- A year of four digits, or a sign and at least four digits. -/
def yearText (year : Int) : String :=
  if 0 ≤ year ∧ year ≤ 9999 then digits 4 year.toNat
  else (if year < 0 then "-" else "+") ++ digits 4 year.natAbs

def date (t : Instant) : Civil :=
  Civil.ofDays (t.seconds / 86400)

/-- Seconds since midnight. -/
def secondOfDay (t : Instant) : Nat :=
  (t.seconds % 86400).toNat

def dateText (t : Instant) : String :=
  let d := t.date
  yearText d.year ++ "-" ++ digits 2 d.month ++ "-" ++ digits 2 d.day

/-- Hours, minutes and seconds; the leap second is second 60. -/
def clockText (t : Instant) : String :=
  let s := t.secondOfDay
  digits 2 (s / 3600) ++ ":" ++ digits 2 (s / 60 % 60) ++ ":"
    ++ digits 2 (s % 60 + t.nanos / 10 ^ 9)

/-- The point and the first `places` digits of the fraction, or nothing for no
places. -/
def fractionText (places : Nat) (t : Instant) : String :=
  if places = 0 then "" else "." ++ digits places (t.nanos % 10 ^ 9 / 10 ^ (9 - places))

/-- The instant with a fraction of `places` digits, cut and not rounded. -/
def text (places : Nat) (t : Instant) : String :=
  t.dateText ++ "T" ++ t.clockText ++ fractionText places t ++ "Z"

/-- The least of 0, 3, 6 and 9 places that loses nothing. -/
def exactPlaces (t : Instant) : Nat :=
  let n := t.nanos % 10 ^ 9
  if n = 0 then 0 else if n % 10 ^ 6 = 0 then 3 else if n % 10 ^ 3 = 0 then 6 else 9

/-- The instant with as many places as it needs. -/
def exactText (t : Instant) : String :=
  t.text t.exactPlaces

/-- Date and clock with three places and a blank between them. -/
def logText (t : Instant) : String :=
  t.dateText ++ " " ++ t.clockText ++ fractionText 3 t

def addMillis (t : Instant) (ms : Nat) : Instant :=
  let total := t.nanos + ms * 10 ^ 6
  ⟨t.seconds + (total / 10 ^ 9 : Nat), total % 10 ^ 9⟩

/-- The whole milliseconds from `start` to `t`, rounded toward zero. Between two
times of day that lie on different sides of a leap second that second counts. -/
def millisSince (t start : Instant) : Int :=
  let adjust : Int :=
    if start.secondOfDay < t.secondOfDay then (if 10 ^ 9 ≤ start.nanos then 1 else 0)
    else if t.secondOfDay < start.secondOfDay then (if 10 ^ 9 ≤ t.nanos then -1 else 0)
    else 0
  let nanos := (t.seconds - start.seconds + adjust) * 10 ^ 9 + ((t.nanos : Int) - start.nanos)
  nanos.tdiv (10 ^ 6)

example : (Instant.mk 1709993107 123456789).text 6 = "2024-03-09T14:05:07.123456Z" := by
  decide +kernel

example : (Instant.mk 1483228799 1500000000).exactText = "2016-12-31T23:59:60.500Z" := by
  decide +kernel

end Instant
end Telemetry
