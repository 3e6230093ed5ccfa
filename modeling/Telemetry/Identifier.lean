import Telemetry.Text.Escape

/-! Identifiers of 128 bits, written as 32 digits of base sixteen in five groups.
Reading accepts capitals, digits without hyphens, braces around the hyphenated
form and the prefix of the name space; writing gives the hyphenated form in
small letters, which always has 36 characters. -/
namespace Telemetry

/-- An identifier of 128 bits. -/
structure Identifier where
  val : BitVec 128
deriving DecidableEq, Repr, Inhabited

namespace Identifier

/-- The identifier that stands for none. -/
def nil : Identifier := ⟨0⟩

/-- The 32 digits, the first one first. -/
def digits (i : Identifier) : List Char :=
  (List.range 32).map fun k => Text.hexDigit (i.val.toNat / 16 ^ (31 - k) % 16)

/-- The hyphenated form in small letters. -/
def text (i : Identifier) : String :=
  let d := i.digits
  String.ofList (d.take 8 ++ '-' :: (d.drop 8).take 4 ++ '-' :: (d.drop 12).take 4
    ++ '-' :: (d.drop 16).take 4 ++ '-' :: d.drop 20)

/-- The identifier of 32 digits. -/
def ofDigits? (cs : List Char) : Option Identifier := do
  if cs.length ≠ 32 then none
  let n ← cs.foldlM (fun n c => (Text.hexValue? c).map (16 * n + ·)) 0
  some ⟨BitVec.ofNat 128 n⟩

def ofHyphenated? (cs : List Char) : Option Identifier :=
  if cs.length = 36 ∧ [8, 13, 18, 23].all fun k => cs[k]? == some '-' then
    ofDigits? (cs.take 8 ++ (cs.drop 9).take 4 ++ (cs.drop 14).take 4 ++ (cs.drop 19).take 4
      ++ cs.drop 24)
  else none

def ofText? (s : String) : Option Identifier :=
  let cs := s.toList
  match cs.length with
  | 32 => ofDigits? cs
  | 36 => ofHyphenated? cs
  | 38 =>
    if cs.head? = some '\x7b' ∧ cs.getLast? = some '\x7d' then ofHyphenated? (cs.drop 1).dropLast
    else none
  | 45 => if cs.take 9 = "urn:uuid:".toList then ofHyphenated? (cs.drop 9) else none
  | _ => none

/-- The identifier given to records that bring none: the version and variant
digits of a random identifier, and zeros elsewhere. -/
def placeholder : Identifier := ⟨0x00000000000040008000000000000000⟩

example : placeholder.text = "00000000-0000-4000-8000-000000000000" := by decide +kernel

end Identifier
end Telemetry
