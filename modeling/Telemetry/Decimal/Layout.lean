import Telemetry.Decimal.Shortest

/-! The text of a number: where positional writing ends, and what the special
values are called. A `Layout` holds these choices, and `Layout.write` applies
one to the shortest digits of a number. -/
namespace Telemetry.Decimal

structure Layout where
  /-- The least decimal exponent of a leading digit that is written
  positionally, and the greatest one; all are without bounds. -/
  positional : Option (Int × Int)
  /-- A whole number written positionally ends in a point and a zero. -/
  pointZero : Bool
  nan : String
  infinity : String
  /-- The special values carry a sign. -/
  signedInfinity : Bool
  tie : Tie

def positionalText (pointZero : Bool) (s : Scaled) : String :=
  let digits := Nat.toDigits 10 s.digits
  if 0 ≤ s.exponent then
    String.ofList (digits ++ List.replicate s.exponent.toNat '0') ++
      (if pointZero then ".0" else "")
  else
    let places := (-s.exponent).toNat
    let padded := List.replicate (places + 1 - digits.length) '0' ++ digits
    let whole := padded.length - places
    String.ofList (padded.take whole ++ '.' :: padded.drop whole)

/-- One digit, a point and the other digits, and the exponent with its sign. -/
def exponentText (s : Scaled) (leading : Int) : String :=
  let mantissa :=
    match Nat.toDigits 10 s.digits with
    | first :: rest => if rest = [] then [first] else first :: '.' :: rest
    | [] => []
  String.ofList mantissa ++ (if leading < 0 then "e-" else "e+") ++ toString leading.natAbs

def Layout.writeScaled (l : Layout) (s : Scaled) : String :=
  let leading := s.exponent + (Nat.toDigits 10 s.digits).length - 1
  match l.positional with
  | none => positionalText l.pointZero s
  | some (least, greatest) =>
    if least ≤ leading ∧ leading ≤ greatest then positionalText l.pointZero s
    else exponentText s leading

def Layout.write (l : Layout) (x : Binary64) : String :=
  let sign := if x.isNegative then "-" else ""
  match x.magnitude with
  | .nan => l.nan
  | .infinite => (if l.signedInfinity then sign else "") ++ l.infinity
  | .finite 0 _ => sign ++ l.writeScaled ⟨0, 0⟩
  | .finite m q => sign ++ l.writeScaled (shortest l.tie m q)

/-- Numbers in JSON: whole numbers keep a point, very large and very small ones
take an exponent, and what JSON cannot say is null. -/
def Layout.json : Layout where
  positional := some (-5, 15)
  pointZero := true
  nan := "null"
  infinity := "null"
  signedInfinity := false
  tie := .even

/-- Numbers in running text: never an exponent, and no point after a whole
number. -/
def Layout.plain : Layout where
  positional := none
  pointZero := false
  nan := "NaN"
  infinity := "inf"
  signedInfinity := true
  tie := .away

example : Layout.json.write ⟨0x3fb999999999999a⟩ = "0.1" := by decide +kernel

example : Layout.json.write ⟨0x54b249ad2594c37d⟩ = "1e+100" := by decide +kernel

example : Layout.plain.write ⟨0x3e7ad7f29abcaf48⟩ = "0.0000001" := by decide +kernel

example : Layout.plain.write ⟨0x8000000000000000⟩ = "-0" := by decide +kernel

end Telemetry.Decimal
