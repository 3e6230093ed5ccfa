import Telemetry.Time.Instant

/-! Reading instants written as RFC 3339 asks.
Date and clock are separated by a T in either case or by a blank, the fraction
may have any number of digits of which nine count, and the offset is Z in either
case or hours and minutes after a sign, which may be the sign U+2212. -/
namespace Telemetry.Instant

def digitValue (c : Char) : Option Nat :=
  if '0' ≤ c ∧ c ≤ '9' then some (c.toNat - 48) else none

/-- Reads exactly `width` digits. -/
def readDigits : Nat → Nat → List Char → Option (Nat × List Char)
  | 0, n, cs => some (n, cs)
  | _ + 1, _, [] => none
  | width + 1, n, c :: rest => do
    let d ← digitValue c
    readDigits width (10 * n + d) rest

def readOne (options : List Char) : List Char → Option (List Char)
  | [] => none
  | c :: rest => if c ∈ options then some rest else none

/-- The nanoseconds that the digits after the point stand for. -/
def nanosOf (fraction : List Char) : Nat :=
  ((fraction ++ List.replicate 9 '0').take 9).foldl (fun n c => 10 * n + (c.toNat - 48)) 0

/-- Reads a point and at least one digit, if there is a point. -/
def readFraction : List Char → Option (Nat × List Char)
  | '.' :: rest =>
    let fraction := rest.takeWhile Char.isDigit
    if fraction = [] then none else some (nanosOf fraction, rest.dropWhile Char.isDigit)
  | cs => some (0, cs)

/-- Reads the offset from universal time, in seconds. -/
def readOffset : List Char → Option (Int × List Char)
  | [] => none
  | c :: rest =>
    if c = 'z' ∨ c = 'Z' then some (0, rest)
    else do
      let sign : Int ← if c = '+' then some 1 else if c = '-' ∨ c = '−' then some (-1) else none
      let (hours, rest) ← readDigits 2 0 rest
      let rest ← readOne [':'] rest
      let (minutes, rest) ← readDigits 2 0 rest
      if minutes ≤ 59 ∧ hours ≤ 23 then some (sign * (hours * 3600 + minutes * 60), rest) else none

/-- Reads an instant that fills the whole text. -/
def ofText? (s : String) : Option Instant := do
  let (year, cs) ← readDigits 4 0 s.toList
  let cs ← readOne ['-'] cs
  let (month, cs) ← readDigits 2 0 cs
  let cs ← readOne ['-'] cs
  let (day, cs) ← readDigits 2 0 cs
  let cs ← readOne ['t', 'T', ' '] cs
  let (hour, cs) ← readDigits 2 0 cs
  let cs ← readOne [':'] cs
  let (minute, cs) ← readDigits 2 0 cs
  let cs ← readOne [':'] cs
  let (second, cs) ← readDigits 2 0 cs
  let (nanos, cs) ← readFraction cs
  let (offset, cs) ← readOffset cs
  let date : Civil := ⟨year, month, day⟩
  if cs = [] ∧ date.isValid ∧ hour ≤ 23 ∧ minute ≤ 59 ∧ second ≤ 60 then
    let leap := second / 60
    let ofDay := hour * 3600 + minute * 60 + (second - leap)
    some ⟨date.toDays * 86400 + ofDay - offset, nanos + leap * 10 ^ 9⟩
  else none

example : ofText? "2024-03-09T15:05:07.5+01:00" = some ⟨1709993107, 500000000⟩ := by decide +kernel

example : ofText? "2024-02-30T00:00:00Z" = none := by decide +kernel

end Telemetry.Instant
