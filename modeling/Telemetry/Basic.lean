/-! What all modules rest on: powers and sums of numbers, and texts read without regard to
blanks at their ends or to the case of ASCII letters. -/
namespace Telemetry

section Numbers

/-! Powers and sums are those of the core library in every module, also where one of algebra
is at hand. -/

@[default_instance 20000]
instance (priority := high) integerPower : Pow Int Nat := instPowNat

@[default_instance 20000]
instance (priority := high) naturalPower : Pow Nat Nat := instPowNat

instance (priority := high) naturalZero : Zero Nat := ⟨0⟩

end Numbers

namespace Text

/-! Blank characters are those with the Unicode property White_Space. Trimming removes them
from both ends of a text and touches nothing between. -/

/-- The code points with the property White_Space, as ranges with both ends
included. -/
def blankRanges : List (Nat × Nat) :=
  [(0x9, 0xD), (0x20, 0x20), (0x85, 0x85), (0xA0, 0xA0), (0x1680, 0x1680), (0x2000, 0x200A),
    (0x2028, 0x2029), (0x202F, 0x202F), (0x205F, 0x205F), (0x3000, 0x3000)]

/-- The character has the property White_Space. -/
def isBlank (c : Char) : Bool :=
  blankRanges.any fun r => r.1 ≤ c.toNat && c.toNat ≤ r.2

/-- The characters without the blank ones at either end. -/
def trimList (cs : List Char) : List Char :=
  ((cs.dropWhile isBlank).reverse.dropWhile isBlank).reverse

/-- The text without the blank characters at either end. -/
def trim (s : String) : String :=
  String.ofList (trimList s.toList)

example : (blankRanges.map fun r => r.2 + 1 - r.1).sum = 25 := by decide

example : trim " \u2003a b\u0085\n" = "a b" := by decide

/-! Names are compared without regard to the case of ASCII letters. Every character outside
A to Z stands for itself, so folding keeps the number of characters and leaves letters of
other alphabets apart. -/

/-- The text with its ASCII capitals made small. -/
def fold (s : String) : String :=
  String.ofList (s.toList.map Char.toLower)

/-- Two names agree when they fold to the same text. -/
def sameFold (a b : String) : Bool :=
  fold a == fold b

/-- The name ends in the given text, read without regard to case. -/
def endsFold (s tail : String) : Bool :=
  (fold tail).toList.isSuffixOf (fold s).toList

/-- The name begins with the given text, read without regard to case. -/
def startsFold (s head : String) : Bool :=
  (fold head).toList.isPrefixOf (fold s).toList

theorem sameFold_iff (a b : String) : sameFold a b = true ↔ fold a = fold b := by
  simp [sameFold]

theorem sameFold_comm (a b : String) : sameFold a b = sameFold b a := by
  rw [Bool.eq_iff_iff, sameFold_iff, sameFold_iff, eq_comm]

end Text
end Telemetry
