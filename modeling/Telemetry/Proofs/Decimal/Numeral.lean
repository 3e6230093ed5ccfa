import Mathlib.Tactic.SplitIfs
import Telemetry.Json.Basic
import Telemetry.Proofs.Json.Number

/-! What stands in JSON for a binary64 number is a number there, or null. -/
namespace Telemetry.Decimal
open Json.Token (IsLexeme IsWhole IsFraction IsExponent AreDigits isLexeme_of_parts
  isWhole_toDigits areDigits_toDigits isFraction_zero)

/-- The digits are not zero, unless no zeros are put behind them. -/
def Scaled.Proper (s : Scaled) : Prop :=
  s.digits ≠ 0 ∨ s.exponent ≤ 0

namespace Interval

variable {tie : Tie} {s : Interval}

theorem onGrid_ne_zero {unit d : Nat} (low : 0 < s.low) (found : s.onGrid tie unit = some d) :
    d ≠ 0 := by
  have outside : s.holds unit 0 = false := by
    cases closed : s.closed with
    | true =>
      have below : ¬ s.low = 0 := Nat.ne_of_gt low
      simp [holds, closed, below]
    | false => simp [holds, closed]
  unfold onGrid at found
  simp only at found
  generalize point : s.value / unit = lower at found
  split at found
  · rename_i held _
    have positive : lower ≠ 0 := by
      rintro rfl
      rw [outside] at held
      cases held
    split_ifs at found
    · cases found
      exact positive
    · cases found
      exact Nat.succ_ne_zero lower
    · cases tie with
      | even =>
        cases found
        omega
      | away =>
        cases found
        exact Nat.succ_ne_zero lower
  · rename_i held _
    cases found
    rintro rfl
    rw [outside] at held
    cases held
  · cases found
    exact Nat.succ_ne_zero lower
  · cases found

theorem search_proper (low : 0 < s.low) (parts : 0 < s.den) (grids : Nat) (k : Int)
    (fine : 0 < k - grids → s.den * 10 ^ (k - grids).toNat ≤ s.value) :
    (s.search tie grids k).Proper := by
  induction grids generalizing k with
  | zero =>
    by_cases positive : 0 < k
    · left
      have whole : (-k).toNat = 0 := by omega
      have unit : s.den * 10 ^ k.toNat ≤ s.value := by simpa using fine (by simpa using positive)
      have some_unit : 0 < s.den * 10 ^ k.toNat := Nat.mul_pos parts (Nat.pow_pos (by decide))
      simp only [search, scaled, whole, Nat.pow_zero, Nat.mul_one]
      exact Nat.ne_of_gt (Nat.div_pos unit some_unit)
    · exact .inr (Int.not_lt.mp positive)
  | succ grids ih =>
    simp only [search]
    split
    · rename_i d found
      have below : 0 < (s.scaled k).1.low := Nat.mul_pos low (Nat.pow_pos (by decide))
      exact .inl (onGrid_ne_zero below found)
    · refine ih (k - 1) fun positive => ?_
      have same : k - 1 - (grids : Int) = k - ((grids + 1 : Nat) : Int) := by omega
      rw [same] at positive ⊢
      exact fine positive

/-- Seventeen digits behind the leading one are finer than any large number. -/
theorem fine_leading (parts : 0 < s.den) (positive : 0 < s.leading - 17) :
    s.den * 10 ^ (s.leading - 17).toNat ≤ s.value := by
  generalize width : (Nat.toDigits 10 (s.value * 10 ^ 400 / s.den)).length = digits
  have leading : s.leading = (digits : Int) - 401 :=
    congrArg (fun d : Nat => (d : Int) - 401) width
  obtain ⟨n, rfl⟩ : ∃ n, digits = n + 1 + 418 := ⟨digits - 419, by omega⟩
  have exponent : (s.leading - 17).toNat = n + 1 := by omega
  have large : 10 ^ (n + 18 + 400) ≤ s.value * 10 ^ 400 / s.den := by
    refine Nat.le_of_not_lt fun small => ?_
    have short := (Nat.length_toDigits_le_iff (by decide) (by omega)).mpr small
    rw [width] at short
    omega
  -- The size of the factor does not matter, and it is too large to be computed.
  generalize 400 = places at large
  rw [Nat.le_div_iff_mul_le parts, Nat.pow_add, Nat.mul_right_comm] at large
  have below := Nat.le_of_mul_le_mul_right large (Nat.pow_pos (by decide))
  rw [exponent]
  calc s.den * 10 ^ (n + 1) ≤ s.den * 10 ^ (n + 18) :=
        Nat.mul_le_mul_left _ (Nat.pow_le_pow_right (by decide) (by omega))
    _ = 10 ^ (n + 18) * s.den := Nat.mul_comm ..
    _ ≤ s.value := below

end Interval

theorem Scaled.Proper.trimmed {s : Scaled} (proper : s.Proper) (fuel : Nat) :
    (s.trimmed fuel).Proper := by
  induction fuel generalizing s with
  | zero => exact proper
  | succ fuel ih =>
    unfold Scaled.trimmed
    split
    · rename_i zeros
      exact ih (.inl (by have := zeros.1; have := zeros.2; simp only; omega))
    · exact proper

/-- Shortest digits are not zero, unless no zeros are put behind them. -/
theorem shortest_proper (tie : Tie) {m : Nat} (positive : 0 < m) (q : Int) :
    (shortest tie m q).Proper := by
  have low : 0 < (Interval.ofBinary m q).low := by
    refine Nat.mul_pos ?_ (Nat.pow_pos (by decide))
    split <;> omega
  have parts : 0 < (Interval.ofBinary m q).den := Nat.pow_pos (by decide)
  exact (Interval.search_proper low parts 17 _ (Interval.fine_leading parts)).trimmed 20

theorem areDigits_append {ds es : List Char} (first : AreDigits ds)
    (second : ∀ e ∈ es, e.isDigit = true) : AreDigits (ds ++ es) := by
  refine ⟨by simp [first.1], fun d member => ?_⟩
  rcases List.mem_append.mp member with before | behind
  · exact first.2 d before
  · exact second d behind

theorem isDigit_zeros {n : Nat} : ∀ d ∈ List.replicate n '0', d.isDigit = true := by
  intro d member
  rw [List.eq_of_mem_replicate member]
  rfl

theorem isWhole_zeros {n : Nat} {zeros : Nat} (proper : n ≠ 0 ∨ zeros = 0) :
    IsWhole (Nat.toDigits 10 n ++ List.replicate zeros '0') := by
  refine ⟨areDigits_append (areDigits_toDigits n) isDigit_zeros, fun first => ?_⟩
  rw [Json.Token.head?_toDigits_append] at first
  have single := (isWhole_toDigits n).2 first
  obtain nonzero | rfl := proper
  · exact absurd first (Json.Token.head?_toDigits_ne (Nat.pos_of_ne_zero nonzero))
  · rw [single]
    rfl

/-- Digits that are filled up with zeros at their left reach to one place before the
point, and what stands there is a whole part. -/
theorem isWhole_filled (n places : Nat) :
    let padded := List.replicate (places + 1 - (Nat.toDigits 10 n).length) '0' ++ Nat.toDigits 10 n
    places < padded.length ∧ (∀ d ∈ padded, d.isDigit = true) ∧
      IsWhole (padded.take (padded.length - places)) := by
  intro padded
  have digits : ∀ d ∈ padded, d.isDigit = true := by
    intro d member
    rcases List.mem_append.mp member with zero | digit
    · exact isDigit_zeros d zero
    · exact (areDigits_toDigits n).2 d digit
  have length : padded.length = places + 1 - (Nat.toDigits 10 n).length +
      (Nat.toDigits 10 n).length := by simp [padded]
  have long : places < padded.length := by omega
  refine ⟨long, digits, ⟨?_, fun d member => digits d (List.mem_of_mem_take member)⟩, ?_⟩
  · intro nothing
    have taken := congrArg List.length nothing
    rw [List.length_take, List.length_nil] at taken
    omega
  · intro zero
    by_cases short : (Nat.toDigits 10 n).length ≤ places
    · have single : padded.length - places = 1 := by omega
      have zeros : places + 1 - (Nat.toDigits 10 n).length =
          places - (Nat.toDigits 10 n).length + 1 := by omega
      rw [single]
      simp [padded, zeros, List.replicate_succ]
    · have unfilled : padded = Nat.toDigits 10 n := by
        have unpadded : places + 1 - (Nat.toDigits 10 n).length = 0 := by omega
        simp [padded, unpadded]
      obtain ⟨left, some_left⟩ : ∃ left, padded.length - places = left + 1 :=
        ⟨padded.length - places - 1, by omega⟩
      rw [some_left] at zero ⊢
      rw [unfilled] at zero ⊢
      rw [List.head?_take, if_neg (Nat.succ_ne_zero left)] at zero
      rw [(isWhole_toDigits n).2 zero]
      exact List.take_of_length_le (Nat.succ_le_succ (Nat.zero_le left))

theorem positionalText_parts {s : Scaled} (proper : s.Proper) :
    ∃ whole fraction, IsWhole whole ∧ IsFraction fraction ∧
      (positionalText true s).toList = whole ++ fraction := by
  unfold positionalText
  simp only
  split
  · rename_i large
    have zeros : s.digits ≠ 0 ∨ s.exponent.toNat = 0 := by
      obtain nonzero | small := proper
      · exact .inl nonzero
      · exact .inr (by omega)
    refine ⟨_, ".0".toList, isWhole_zeros zeros, isFraction_zero, ?_⟩
    simp
  · rename_i small
    have pointed := isWhole_filled s.digits (-s.exponent).toNat
    generalize places : (-s.exponent).toNat = n at pointed ⊢
    generalize filled : List.replicate (n + 1 - (Nat.toDigits 10 s.digits).length) '0' ++
      Nat.toDigits 10 s.digits = padded at pointed ⊢
    obtain ⟨long, digits, whole⟩ := pointed
    refine ⟨padded.take (padded.length - n), '.' :: padded.drop (padded.length - n), whole,
      .inr ⟨_, ⟨?_, fun d member => digits d (List.mem_of_mem_drop member)⟩, rfl⟩, ?_⟩
    · intro nothing
      have length := congrArg List.length nothing
      rw [List.length_drop, List.length_nil] at length
      omega
    · rw [String.toList_ofList]

theorem exponentText_parts (s : Scaled) (leading : Int) :
    ∃ whole fraction exponent, IsWhole whole ∧ IsFraction fraction ∧ IsExponent exponent ∧
      (exponentText s leading).toList = whole ++ (fraction ++ exponent) := by
  have digits := areDigits_toDigits leading.natAbs
  have exponent :
      IsExponent ((if leading < 0 then "e-" else "e+") ++ toString leading.natAbs).toList := by
    right
    by_cases negative : leading < 0
    · refine ⟨'-', _, .inr rfl, digits, ?_⟩
      rw [if_pos negative, String.toList_append, Nat.toString_eq_repr, Nat.toList_repr]
      rfl
    · refine ⟨'+', _, .inl rfl, digits, ?_⟩
      rw [if_neg negative, String.toList_append, Nat.toString_eq_repr, Nat.toList_repr]
      rfl
  obtain ⟨filled, all⟩ := areDigits_toDigits s.digits
  unfold exponentText
  cases written : Nat.toDigits 10 s.digits with
  | nil => exact absurd written filled
  | cons first rest =>
    rw [written] at all
    have one : IsWhole [first] := by
      refine ⟨⟨by simp, fun d member => ?_⟩, fun zero => ?_⟩
      · rw [List.mem_singleton.mp member]
        exact all first List.mem_cons_self
      · rw [Option.some.inj zero]
    by_cases alone : rest = []
    · refine ⟨[first], [], _, one, .inl rfl, exponent, ?_⟩
      simp only [alone, if_true, String.append_assoc, String.toList_append, String.toList_ofList,
        List.nil_append]
    · have behind : AreDigits rest := ⟨alone, fun d member => all d (List.mem_cons_of_mem _ member)⟩
      refine ⟨[first], '.' :: rest, _, one, .inr ⟨rest, behind, rfl⟩, exponent, ?_⟩
      simp only [alone, if_false, String.append_assoc, String.toList_append, String.toList_ofList]
      rfl

theorem writeScaled_parts {l : Layout} (pointed : l.pointZero = true) {s : Scaled}
    (proper : s.Proper) :
    ∃ whole fraction exponent, IsWhole whole ∧ IsFraction fraction ∧ IsExponent exponent ∧
      (l.writeScaled s).toList = whole ++ (fraction ++ exponent) := by
  obtain ⟨whole, fraction, isWhole, isFraction, positional⟩ := positionalText_parts proper
  have plain : ∃ whole fraction exponent, IsWhole whole ∧ IsFraction fraction ∧
      IsExponent exponent ∧ (positionalText true s).toList = whole ++ (fraction ++ exponent) :=
    ⟨whole, fraction, [], isWhole, isFraction, .inl rfl, by rw [List.append_nil, positional]⟩
  unfold Layout.writeScaled
  simp only [pointed]
  split
  · exact plain
  · split
    · exact plain
    · exact exponentText_parts s _

theorem write_json (x : Binary64) :
    Layout.json.write x = "null" ∨ IsLexeme (Layout.json.write x).toList := by
  have sign : (if x.isNegative then "-" else "").toList = if x.isNegative then ['-'] else [] := by
    split <;> rfl
  have lexeme (s : Scaled) (proper : s.Proper) :
      IsLexeme ((if x.isNegative then "-" else "") ++ Layout.json.writeScaled s).toList := by
    obtain ⟨whole, fraction, exponent, isWhole, isFraction, isExponent, same⟩ :=
      writeScaled_parts (l := Layout.json) rfl proper
    rw [String.toList_append, sign, same]
    exact isLexeme_of_parts _ isWhole isFraction isExponent
  unfold Layout.write
  cases magnitude : x.magnitude with
  | nan => exact .inl rfl
  | infinite => exact .inl rfl
  | finite m q =>
    right
    cases m with
    | zero => exact lexeme _ (.inr (Int.le_refl 0))
    | succ m => exact lexeme _ (shortest_proper _ (Nat.succ_pos m) q)

end Telemetry.Decimal
