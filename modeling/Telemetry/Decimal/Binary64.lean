import Telemetry.Basic

/-! Binary64 numbers, known by their bits.
The value of a finite number is `significand * 2 ^ exponent` with a sign, as
IEEE 754 lays it out; subnormal numbers have the least exponent and no hidden
bit. Arithmetic is not modeled: telemetry stores numbers and prints them. -/
namespace Telemetry

/-- An IEEE 754 binary64 number. -/
structure Binary64 where
  bits : UInt64
deriving DecidableEq, Repr, Inhabited

namespace Binary64

/-- What a bit pattern stands for, the sign left out. -/
inductive Magnitude
  | nan
  | infinite
  /-- The number `significand * 2 ^ exponent`. -/
  | finite (significand : Nat) (exponent : Int)
deriving DecidableEq, Repr

def isNegative (x : Binary64) : Bool :=
  x.bits.toNat / 2 ^ 63 == 1

def exponentField (x : Binary64) : Nat :=
  x.bits.toNat / 2 ^ 52 % 2 ^ 11

def fractionField (x : Binary64) : Nat :=
  x.bits.toNat % 2 ^ 52

/-- The least exponent of a finite number. -/
def leastExponent : Int := -1074

def magnitude (x : Binary64) : Magnitude :=
  if x.exponentField = 2047 then
    if x.fractionField = 0 then .infinite else .nan
  else if x.exponentField = 0 then .finite x.fractionField leastExponent
  else .finite (2 ^ 52 + x.fractionField) ((x.exponentField : Int) - 1075)

/-- Numeric equality: a NaN equals nothing, and the two zeros are equal. -/
def numEq (x y : Binary64) : Bool :=
  match x.magnitude, y.magnitude with
  | .nan, _ | _, .nan => false
  | .finite 0 _, .finite 0 _ => true
  | _, _ => x.bits == y.bits

/-- A quotient rounded to the nearest whole number, a half to the even one. -/
def roundHalfEven (num den : Nat) : Nat :=
  let q := num / den
  let r := num % den
  if 2 * r < den then q else if den < 2 * r then q + 1 else q + q % 2

/-- The nearest number to a whole number from `2 ^ 63` up to `2 ^ 64`, where
neighbours are 2048 apart; a half goes to the even significand. -/
def ofLarge (n : Nat) : Binary64 :=
  let significand := roundHalfEven n 2048
  ⟨UInt64.ofNat ((1086 - 1) * 2 ^ 52 + significand)⟩

example : ofLarge (2 ^ 63) = ⟨0x43e0000000000000⟩ := by decide

example : ofLarge (2 ^ 64 - 1) = ⟨0x43f0000000000000⟩ := by decide

end Binary64
end Telemetry
