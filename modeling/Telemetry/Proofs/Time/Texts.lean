import Mathlib.Data.String.Basic
import Telemetry.Proofs.Json.Number
import Telemetry.Time.Instant

/-! The text of an instant in a log: how long it is and which characters it has.
Months and days never take more than two digits, so the length depends on the year alone. -/
namespace Telemetry

namespace Civil

theorem dayOfYear_le {dayOfEra year : Nat} (within : dayOfEra < 146097)
    (counted : year = (dayOfEra - dayOfEra / 1460 + dayOfEra / 36524 - dayOfEra / 146096) / 365) :
    dayOfEra - (365 * year + year / 4 - year / 100) ≤ 366 := by
  omega

theorem ofDays_le (days : Int) : (ofDays days).month ≤ 12 ∧ (ofDays days).day ≤ 31 := by
  have within : ((days + 719468) % 146097).toNat < 146097 := by omega
  simp only [ofDays]
  generalize ((days + 719468) % 146097).toNat = dayOfEra at within
  have inYear := dayOfYear_le within rfl
  generalize dayOfEra - (365 * ((dayOfEra - dayOfEra / 1460 + dayOfEra / 36524 -
      dayOfEra / 146096) / 365) + (dayOfEra - dayOfEra / 1460 + dayOfEra / 36524 -
      dayOfEra / 146096) / 365 / 4 - (dayOfEra - dayOfEra / 1460 + dayOfEra / 36524 -
      dayOfEra / 146096) / 365 / 100) = dayOfYear at inYear ⊢
  constructor
  · split
    · omega
    · omega
  · omega

end Civil

namespace Instant

/-- The instants that clocks give and texts name. Their calendar goes from the year -262143 to the
year 262142, so the year has at most six digits, and a second takes less than two seconds, which
leaves room for a leap second. -/
structure Dated (t : Instant) : Prop where
  year : t.date.year.natAbs < 10 ^ 6
  second : t.nanos < 2 * 10 ^ 9

theorem length_digits_le {width most n : Nat} (positive : 0 < most) (given : width ≤ most)
    (small : n < 10 ^ most) : (digits width n).length ≤ most := by
  have few : (Nat.toDigits 10 n).length ≤ most :=
    (Nat.length_toDigits_le_iff (by decide) positive).mpr small
  rw [digits, String.length_ofList, List.length_append, List.length_replicate]
  omega

theorem isDigit_digits {width n : Nat} {c : Char} (member : c ∈ (digits width n).toList) :
    c.isDigit = true := by
  rw [digits, String.toList_ofList] at member
  rcases List.mem_append.mp member with zero | figure
  · rw [(List.mem_replicate.mp zero).2]
    rfl
  · exact (Json.Token.areDigits_toDigits n).2 c figure

theorem length_yearText_le {year : Int} (few : year.natAbs < 10 ^ 6) :
    (yearText year).length ≤ 7 := by
  have number {n : Nat} (few : n < 10 ^ 6) : (digits 4 n).length ≤ 6 :=
    length_digits_le (by decide) (by decide) few
  rw [yearText]
  split
  · exact Nat.le_succ_of_le (number (by omega))
  · have sign : (if year < 0 then "-" else "+").length = 1 := by
      split
      · rfl
      · rfl
    have figures := number few
    rw [String.length_append, sign]
    omega

/-- The date and the clock of a log take 26 characters at most. -/
theorem length_logText_le {t : Instant} (dated : t.Dated) : t.logText.length ≤ 26 := by
  obtain ⟨year, second⟩ := dated
  obtain ⟨month, day⟩ := Civil.ofDays_le (t.seconds / 86400)
  have inDay : t.secondOfDay < 86400 := by
    rw [secondOfDay]
    omega
  have two {n : Nat} (few : n < 10 ^ 2) : (digits 2 n).length ≤ 2 :=
    length_digits_le (by decide) (by decide) few
  have yearLength := length_yearText_le year
  have monthLength := two (n := t.date.month) (Nat.lt_of_le_of_lt month (by decide))
  have dayLength := two (n := t.date.day) (Nat.lt_of_le_of_lt day (by decide))
  have hours := two (n := t.secondOfDay / 3600) (by omega)
  have minutes := two (n := t.secondOfDay / 60 % 60) (by omega)
  have seconds := two (n := t.secondOfDay % 60 + t.nanos / 10 ^ 9) (by omega)
  have fraction : (digits 3 (t.nanos % 10 ^ 9 / 10 ^ (9 - 3))).length ≤ 3 :=
    length_digits_le (by decide) (by decide) (by omega)
  have marks : "-".length = 1 ∧ " ".length = 1 ∧ ":".length = 1 ∧ ".".length = 1 := by decide
  rw [logText, dateText, clockText, fractionText, if_neg (by decide)]
  simp only [String.length_append]
  omega

/-- The characters of the texts of instants in a log. -/
def isLogChar (c : Char) : Bool :=
  c.isDigit || ['-', '+', ' ', ':', '.'].contains c

theorem all_digits (width n : Nat) : (digits width n).toList.all isLogChar = true := by
  rw [List.all_eq_true]
  intro c member
  rw [isLogChar, isDigit_digits member, Bool.true_or]

theorem all_yearText (year : Int) : (yearText year).toList.all isLogChar = true := by
  rw [yearText]
  split
  · exact all_digits _ _
  · rw [String.toList_append, List.all_append, all_digits, Bool.and_true]
    split
    · decide
    · decide

theorem all_logText (t : Instant) : t.logText.toList.all isLogChar = true := by
  have marks : "-".toList.all isLogChar = true ∧ " ".toList.all isLogChar = true ∧
      ":".toList.all isLogChar = true ∧ ".".toList.all isLogChar = true := by decide
  obtain ⟨dash, blank, colon, point⟩ := marks
  rw [logText, dateText, clockText, fractionText, if_neg (by decide)]
  simp only [String.toList_append, List.all_append, all_digits, all_yearText, dash, blank, colon,
    point, Bool.and_self]

theorem feed_not_mem_logText (t : Instant) : '\n' ∉ t.logText.toList := by
  intro feed
  have log := List.all_eq_true.mp t.all_logText _ feed
  revert log
  decide

theorem utf8Size_of_isLogChar {c : Char} (log : isLogChar c = true) : c.utf8Size = 1 := by
  rw [isLogChar, Bool.or_eq_true] at log
  rcases log with digit | mark
  · obtain ⟨_, greatest⟩ := Char.isDigit_iff_toNat.mp digit
    exact Char.utf8Size_eq_one_iff.mpr
      (UInt32.le_iff_toNat_le.mpr (Nat.le_trans greatest (by decide)))
  · have single : (['-', '+', ' ', ':', '.'].all fun c => c.utf8Size == 1) = true := by decide
    exact eq_of_beq (List.all_eq_true.mp single c (List.contains_iff_mem.mp mark))

theorem utf8ByteSize_logText (t : Instant) : t.logText.utf8ByteSize = t.logText.length := by
  have single {cs : List Char} (log : cs.all isLogChar = true) : String.utf8Len cs = cs.length := by
    induction cs with
    | nil => rfl
    | cons c rest ih =>
      rw [List.all_cons, Bool.and_eq_true] at log
      rw [String.utf8Len_cons, utf8Size_of_isLogChar log.1, ih log.2, List.length_cons]
  have bytes : t.logText.utf8ByteSize = String.utf8Len t.logText.toList := by
    rw [← String.utf8ByteSize_ofList, String.ofList_toList]
  rw [bytes, single t.all_logText, String.length_toList]

theorem digits_ne_nil (width n : Nat) : (digits width n).toList ≠ [] := by
  rw [digits, String.toList_ofList]
  exact List.append_ne_nil_of_right_ne_nil _ Nat.toDigits_ne_nil

/-- A log text begins with a digit or a sign, and not with a blank. -/
theorem logText_start (t : Instant) :
    ∃ first rest, t.logText.toList = first :: rest ∧ first ≠ ' ' := by
  have number (width n : Nat) (behind : List Char) :
      ∃ first rest, (digits width n).toList ++ behind = first :: rest ∧ first ≠ ' ' := by
    obtain ⟨first, rest, figures⟩ := List.exists_cons_of_ne_nil (digits_ne_nil width n)
    have member : first ∈ (digits width n).toList := by
      rw [figures]
      exact List.mem_cons_self
    have figure := isDigit_digits member
    refine ⟨first, rest ++ behind, ?_, ?_⟩
    · rw [figures, List.cons_append]
    · rintro rfl
      cases figure
  simp only [logText, dateText, yearText, String.toList_append, List.append_assoc]
  split
  · exact number _ _ _
  · rw [String.toList_append, List.append_assoc]
    split
    · exact ⟨'-', _, rfl, by decide⟩
    · exact ⟨'+', _, rfl, by decide⟩

end Instant
end Telemetry
