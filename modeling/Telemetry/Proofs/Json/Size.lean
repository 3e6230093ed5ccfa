import Telemetry.Json.Basic
import Telemetry.Proofs.Json.Number
import Telemetry.Proofs.Text.Escape

/-! How many bytes JSON texts take, and what a member adds to an object. -/
namespace Telemetry.Json
open String (utf8Len)

theorem size_eq (j : Json) : j.size = utf8Len j.chars := by
  rw [size, render, String.utf8ByteSize_ofList]

theorem size_str (s : String) : (Json.str s).size = Text.escapedSize s + 2 := by
  rw [size_eq, chars, Text.utf8Len_literal, Text.escapedSize]

theorem utf8Len_digits {ds : List Char} (digits : ∀ d ∈ ds, d.isDigit = true) :
    utf8Len ds = ds.length := by
  induction ds with
  | nil => rfl
  | cons d rest ih =>
    have single : d.utf8Size = 1 := by
      have upTo := (Char.isDigit_iff_toNat.mp (digits d List.mem_cons_self)).2
      exact Char.utf8Size_eq_one_iff.mpr
        (UInt32.le_iff_toNat_le.mpr (Nat.le_trans upTo (by decide)))
    rw [String.utf8Len_cons, ih fun e member => digits e (List.mem_cons_of_mem _ member), single,
      List.length_cons]

theorem size_int {n : Int} (least : -2 ^ 63 ≤ n) (greatest : n < 2 ^ 63) :
    (Json.int n).size ≤ 20 := by
  have digits := (Token.areDigits_toDigits n.natAbs).2
  have few : (Nat.toDigits 10 n.natAbs).length ≤ 19 :=
    (Nat.length_toDigits_le_iff (by decide) (by decide)).mpr (by omega)
  have sign : utf8Len (if n < 0 then ['-'] else []) ≤ 1 := by
    split
    · decide
    · exact Nat.zero_le _
  rw [size_eq, chars, Token.toList_toString_int, String.utf8Len_append, utf8Len_digits digits]
  omega

/-- The bytes that members take, commas included, when `used` bytes stand before them,
the opening brace among these. -/
def sizeBehind : Nat → List (String × Json) → Nat
  | used, [] => used
  | used, (k, v) :: rest => sizeBehind (used + (if 1 < used then 1 else 0) + memberSize k v) rest

theorem sizeBehind_append (used : Nat) (first second : List (String × Json)) :
    sizeBehind used (first ++ second) = sizeBehind (sizeBehind used first) second := by
  induction first generalizing used with
  | nil => rfl
  | cons m rest ih => exact ih _

theorem sizeBehind_le (used : Nat) (members : List (String × Json)) :
    sizeBehind used members ≤ used + (members.map fun m => memberSize m.1 m.2 + 1).sum := by
  induction members generalizing used with
  | nil => exact Nat.le_refl used
  | cons m rest ih =>
    have comma : (if 1 < used then 1 else 0) ≤ 1 := by split <;> omega
    have behind := ih (used + (if 1 < used then 1 else 0) + memberSize m.1 m.2)
    rw [sizeBehind, List.map_cons, List.sum_cons]
    omega

theorem memberSize_pos (k : String) (v : Json) : 0 < memberSize k v := by
  rw [memberSize]
  omega

theorem utf8Len_memberChars_cons (k : String) (v : Json) (rest : List (String × Json)) :
    utf8Len (memberChars ((k, v) :: rest)) =
      memberSize k v + if rest = [] then 0 else 1 + utf8Len (memberChars rest) := by
  have colon : Char.utf8Size ':' = 1 := rfl
  have comma : Char.utf8Size ',' = 1 := rfl
  cases rest with
  | nil =>
    simp only [memberChars, String.utf8Len_append, String.utf8Len_cons, Text.utf8Len_literal,
      ← size_eq, memberSize, Text.escapedSize, colon, if_true]
    omega
  | cons next more =>
    simp only [memberChars, String.utf8Len_append, String.utf8Len_cons, Text.utf8Len_literal,
      ← size_eq, memberSize, Text.escapedSize, colon, comma, List.cons_ne_nil, if_false]
    omega

/-- Behind something that stands in the object every member comes with a comma. -/
theorem sizeBehind_inside {used : Nat} (inside : 1 < used) (members : List (String × Json)) :
    sizeBehind used members =
      used + if members = [] then 0 else 1 + utf8Len (memberChars members) := by
  induction members generalizing used with
  | nil => rfl
  | cons m rest ih =>
    have longer : 1 < used + 1 + memberSize m.1 m.2 := by omega
    rw [sizeBehind, if_pos inside, ih longer, if_neg (List.cons_ne_nil _ _),
      utf8Len_memberChars_cons]
    omega

theorem size_obj (members : List (String × Json)) :
    (Json.obj members).size = sizeBehind 1 members + 1 := by
  have opening : Char.utf8Size '\x7b' = 1 := rfl
  have closing : Char.utf8Size '\x7d' = 1 := rfl
  rw [size_eq, chars, String.utf8Len_cons, String.utf8Len_append, String.utf8Len_cons,
    String.utf8Len_nil, opening, closing]
  cases members with
  | nil => rfl
  | cons m rest =>
    have positive := memberSize_pos m.1 m.2
    rw [sizeBehind, if_neg (Nat.lt_irrefl 1), sizeBehind_inside (by omega),
      utf8Len_memberChars_cons]
    omega

end Telemetry.Json
