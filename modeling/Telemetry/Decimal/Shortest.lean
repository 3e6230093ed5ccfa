import Telemetry.Decimal.Binary64

/-! Shortest decimals of binary64 numbers.
The reals that round to `m * 2 ^ q` form an interval around it, which holds its
ends when `m` is even. A grid is the multiples of a power of ten. The digits
chosen are those of the coarsest grid that meets the interval near the number,
looked for from one digit up to seventeen; of two points that meet it the nearer
is taken, and `Tie` says which one when they are equally near. All arithmetic is
on natural numbers and exact. -/
namespace Telemetry.Decimal

/-- Which of two equally near neighbours is taken. -/
inductive Tie
  /-- The one with the even last digit. -/
  | even
  /-- The one farther from zero. -/
  | away
deriving DecidableEq, Repr

/-- The number `digits * 10 ^ exponent`. -/
structure Scaled where
  digits : Nat
  exponent : Int
deriving DecidableEq, Repr

/-- The same number without zeros at the end of its digits. -/
def Scaled.trimmed (fuel : Nat) (s : Scaled) : Scaled :=
  match fuel with
  | 0 => s
  | fuel + 1 =>
    if s.digits ≠ 0 ∧ s.digits % 10 = 0 then
      Scaled.trimmed fuel ⟨s.digits / 10, s.exponent + 1⟩
    else s

/-- The interval of reals that round to one number, over a common denominator:
`value`, `low` and `high` are numerators. -/
structure Interval where
  value : Nat
  low : Nat
  high : Nat
  den : Nat
  /-- The ends belong to the interval. -/
  closed : Bool

/-- The interval of `m * 2 ^ q`. Below a power of two the neighbours are closer,
so the lower end is only a quarter unit away there. -/
def Interval.ofBinary (m : Nat) (q : Int) : Interval :=
  let e := q - 2
  let up := 2 ^ e.toNat
  let low := if m = 2 ^ 52 ∧ Binary64.leastExponent < q then 4 * m - 1 else 4 * m - 2
  ⟨4 * m * up, low * up, (4 * m + 2) * up, 2 ^ (-e).toNat, m % 2 == 0⟩

/-- A point of the grid lies in the interval; `unit` is the numerator of the
grid's step. -/
def Interval.holds (s : Interval) (unit d : Nat) : Bool :=
  let x := d * unit
  if s.closed then s.low ≤ x && x ≤ s.high else s.low < x && x < s.high

/-- The point of the grid that stands for the number, if one of its two
neighbours on the grid lies in the interval. -/
def Interval.onGrid (tie : Tie) (s : Interval) (unit : Nat) : Option Nat :=
  let d := s.value / unit
  let r := s.value % unit
  match s.holds unit d, s.holds unit (d + 1) with
  | true, true =>
    if 2 * r < unit then some d
    else if unit < 2 * r then some (d + 1)
    else
      match tie with
      | .even => some (d + d % 2)
      | .away => some (d + 1)
  | true, false => some d
  | false, true => some (d + 1)
  | false, false => none

/-- The interval with its numerators and the step of the grid at `10 ^ k` over
one denominator. -/
def Interval.scaled (s : Interval) (k : Int) : Interval × Nat :=
  let f := 10 ^ (-k).toNat
  (⟨s.value * f, s.low * f, s.high * f, s.den, s.closed⟩, s.den * 10 ^ k.toNat)

/-- Search from the grid at `10 ^ k` to finer ones. -/
def Interval.search (tie : Tie) (s : Interval) : Nat → Int → Scaled
  | 0, k => ⟨(s.scaled k).1.value / (s.scaled k).2, k⟩
  | grids + 1, k =>
    let (t, unit) := s.scaled k
    match t.onGrid tie unit with
    | some d => ⟨d, k⟩
    | none => Interval.search tie s grids (k - 1)

/-- The decimal exponent of the leading digit. The factor `10 ^ 400` makes the
quotient at least one for every binary64 number. -/
def Interval.leading (s : Interval) : Int :=
  ((Nat.toDigits 10 (s.value * 10 ^ 400 / s.den)).length : Int) - 401

/-- The shortest decimal that reads back as `m * 2 ^ q`, for `m` not zero. -/
def shortest (tie : Tie) (m : Nat) (q : Int) : Scaled :=
  let s := Interval.ofBinary m q
  (s.search tie 17 s.leading).trimmed 20

example : shortest .even 1 (-1074) = ⟨5, -324⟩ := by decide +kernel

example : shortest .even 4503599627370497 (-2) = ⟨11258999068426242, -1⟩ := by decide +kernel

example : shortest .away 4503599627370497 (-2) = ⟨11258999068426243, -1⟩ := by decide +kernel

end Telemetry.Decimal
