import Telemetry.Property.Value
import Telemetry.Proofs.Json.Size

/-! How much longer the JSON form of a value can be than its text in a literal.
A text, a truth value, a whole number and a map have a text that is no shorter in a literal
than their JSON form but for the quotes. Only an instant can lose more: its JSON form has up
to nine places, and its text always six. -/
namespace Telemetry
open String (utf8Len)
open Text (escapedCharSize escapedSize escapedSize_append)

namespace Instant

theorem escapedSize_digits {width n : Nat} (positive : 0 < width) (small : n < 10 ^ width) :
    escapedSize (digits width n) = width := by
  have few : (Nat.toDigits 10 n).length ≤ width :=
    (Nat.length_toDigits_le_iff (by decide) positive).mpr small
  have digit (c : Char) (isDigit : c.isDigit = true) : escapedCharSize c = 1 := by
    obtain ⟨least, greatest⟩ := Char.isDigit_iff_toNat.mp isDigit
    obtain ⟨_, member, _⟩ | ⟨control, _⟩ | ⟨_, _, _, _, size⟩ := Text.escapeChar_cases c
    · exact absurd isDigit ((by decide : ∀ p ∈ Text.shortEscapes, p.1.isDigit ≠ true) _ member)
    · have zero : '0'.toNat = 48 := rfl
      omega
    · rw [size]
      exact Char.utf8Size_eq_one_iff.mpr
        (UInt32.le_iff_toNat_le.mpr (Nat.le_trans greatest (by decide)))
  rw [escapedSize, digits, String.toList_ofList, Text.escapedSizeList_of_single]
  · rw [List.length_append, List.length_replicate]
    omega
  · intro c member
    obtain zero | figure := List.mem_append.mp member
    · rw [(List.mem_replicate.mp zero).2]
      rfl
    · exact digit c ((Json.Token.areDigits_toDigits n).2 c figure)

theorem escapedSize_fraction (t : Instant) {places : Nat} (positive : 0 < places)
    (few : places ≤ 9) :
    escapedSize (fractionText places t) = places + 1 := by
  have whole : 10 ^ (9 - places) * 10 ^ places = 10 ^ 9 := by
    rw [← Nat.pow_add, Nat.sub_add_cancel few]
  have small : t.nanos % 10 ^ 9 / 10 ^ (9 - places) < 10 ^ places := by
    apply Nat.div_lt_of_lt_mul
    rw [whole]
    exact Nat.mod_lt _ (by decide)
  have point : escapedSize "." = 1 := rfl
  rw [fractionText, if_neg (by omega), escapedSize_append, escapedSize_digits positive small, point]
  omega

theorem exactPlaces_le (t : Instant) : t.exactPlaces ≤ 9 := by
  simp only [exactPlaces]
  split_ifs <;> omega

/-- The exact text of an instant has at most three places more than the one with six. -/
theorem escapedSize_exactText (t : Instant) :
    escapedSize t.exactText ≤ escapedSize (t.text 6) + 3 := by
  have six := escapedSize_fraction t (show 0 < 6 by decide) (by decide)
  have exact : escapedSize (fractionText t.exactPlaces t) ≤ 10 := by
    by_cases whole : t.exactPlaces = 0
    · rw [whole, fractionText, if_pos rfl]
      decide
    · have few := t.exactPlaces_le
      rw [escapedSize_fraction t (Nat.pos_of_ne_zero whole) few]
      omega
  rw [exactText, text, text]
  simp only [escapedSize_append]
  omega

end Instant

/-- The JSON form of a value that is no binary64 number takes at most five bytes more than
its text does in a literal. -/
theorem Value.size_toJson_le {value : Value} (plain : ∀ x, value ≠ .real x) :
    value.toJson.size ≤ escapedSize value.display + 5 := by
  have written (j : Json) : j.size ≤ escapedSize j.render + 5 :=
    Nat.le_trans (Text.utf8ByteSize_le_escapedSize j.render) (Nat.le_add_right _ 5)
  cases value with
  | text s =>
    rw [toJson, Json.size_str, display]
    omega
  | integer n =>
    have same : (Json.int n).render = toString n := String.ofList_toList
    rw [toJson, display, ← same]
    exact written _
  | real x => exact absurd rfl (plain x)
  | flag b =>
    cases b with
    | true => decide
    | false => decide
  | instant t =>
    have exact := t.escapedSize_exactText
    rw [toJson, Json.size_str, display]
    omega
  | map entries =>
    rw [toJson, display]
    exact written _

end Telemetry
