/-! Dates of the proleptic Gregorian calendar and day numbers.
Days are counted from 1 January 1970. Years are counted from March, so that the
leap day is the last day of its year, and in eras of four hundred years, which
all have the same 146097 days. -/
namespace Telemetry

/-- A day of the Gregorian calendar; the year before year 1 is year 0. -/
structure Civil where
  year : Int
  month : Nat
  day : Nat
deriving DecidableEq, Repr

namespace Civil

def isLeapYear (year : Int) : Bool :=
  year % 4 == 0 && (year % 100 != 0 || year % 400 == 0)

def daysInMonth (year : Int) (month : Nat) : Nat :=
  match month with
  | 2 => if isLeapYear year then 29 else 28
  | 4 | 6 | 9 | 11 => 30
  | _ => 31

/-- The month is one of twelve, and it has the day. -/
def isValid (d : Civil) : Bool :=
  1 ≤ d.month && d.month ≤ 12 && 1 ≤ d.day && d.day ≤ daysInMonth d.year d.month

def toDays (d : Civil) : Int :=
  let year := if d.month ≤ 2 then d.year - 1 else d.year
  let era := year / 400
  let ofEra := year % 400
  let month : Int := if d.month ≤ 2 then d.month + 9 else (d.month : Int) - 3
  let ofYear := (153 * month + 2) / 5 + d.day - 1
  era * 146097 + (ofEra * 365 + ofEra / 4 - ofEra / 100 + ofYear) - 719468

def ofDays (days : Int) : Civil :=
  let shifted := days + 719468
  let era := shifted / 146097
  let dayOfEra := (shifted % 146097).toNat
  let yearOfEra := (dayOfEra - dayOfEra / 1460 + dayOfEra / 36524 - dayOfEra / 146096) / 365
  let dayOfYear := dayOfEra - (365 * yearOfEra + yearOfEra / 4 - yearOfEra / 100)
  let shiftedMonth := (5 * dayOfYear + 2) / 153
  let day := dayOfYear - (153 * shiftedMonth + 2) / 5 + 1
  let month := if shiftedMonth < 10 then shiftedMonth + 3 else shiftedMonth - 9
  ⟨era * 400 + yearOfEra + (if month ≤ 2 then 1 else 0), month, day⟩

example : ofDays 0 = ⟨1970, 1, 1⟩ := by decide

example : ofDays (toDays ⟨2024, 2, 29⟩) = ⟨2024, 2, 29⟩ := by decide

example : ofDays (-719162) = ⟨1, 1, 1⟩ := by decide

end Civil
end Telemetry
