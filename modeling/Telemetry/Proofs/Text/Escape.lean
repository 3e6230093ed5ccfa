import Mathlib.Data.String.Basic
import Telemetry.Text.Escape

/-! Sizes of JSON string literals, and what cutting leaves of a text. -/
namespace Telemetry.Text
open String (utf8Len)

def shortEscapes : List (Char × Char) :=
  [('"', '"'), ('\\', '\\'), ('\n', 'n'), ('\r', 'r'), ('\t', 't'), ('\x08', 'b'), ('\x0c', 'f')]

theorem escapeChar_cases (c : Char) :
    (∃ letter, (c, letter) ∈ shortEscapes ∧ escapeChar c = ['\\', letter] ∧
      escapedCharSize c = 2) ∨
    (c.toNat < 32 ∧ escapeChar c =
        ['\\', 'u', '0', '0', hexDigit (c.toNat / 16), hexDigit (c.toNat % 16)] ∧
      escapedCharSize c = 6) ∨
    (c ≠ '"' ∧ c ≠ '\\' ∧ 32 ≤ c.toNat ∧ escapeChar c = [c] ∧ escapedCharSize c = c.utf8Size) := by
  by_cases short : ∃ letter, (c, letter) ∈ shortEscapes
  · obtain ⟨letter, member⟩ := short
    refine .inl ⟨letter, member, ?_⟩
    simp only [shortEscapes, List.mem_cons, Prod.mk.injEq, List.not_mem_nil, or_false] at member
    rcases member with ⟨rfl, rfl⟩ | ⟨rfl, rfl⟩ | ⟨rfl, rfl⟩ | ⟨rfl, rfl⟩ | ⟨rfl, rfl⟩ | ⟨rfl, rfl⟩ |
      ⟨rfl, rfl⟩ <;> decide
  · right
    simp only [shortEscapes, List.mem_cons, Prod.mk.injEq, List.not_mem_nil, or_false, exists_or,
      exists_and_left, exists_eq, and_true, not_or] at short
    obtain ⟨quote, slash, feed, ret, tab, back, form⟩ := short
    by_cases control : c.toNat < 32
    · left
      simp [escapeChar, escapedCharSize, quote, slash, feed, ret, tab, back, form, control]
    · right
      refine ⟨quote, slash, Nat.le_of_not_lt control, ?_⟩
      simp [escapeChar, escapedCharSize, quote, slash, feed, ret, tab, back, form, control]

theorem utf8Size_hexDigit {n : Nat} (digit : n < 16) : (hexDigit n).utf8Size = 1 :=
  (by decide : ∀ n < 16, (hexDigit n).utf8Size = 1) n digit

theorem utf8Len_escapeChar (c : Char) : utf8Len (escapeChar c) = escapedCharSize c := by
  obtain ⟨letter, member, written, size⟩ | ⟨control, written, size⟩ | ⟨_, _, _, written, size⟩ :=
    escapeChar_cases c
  · have single := (by decide : ∀ p ∈ shortEscapes, utf8Len ['\\', p.2] = 2) _ member
    rw [written, size, single]
  · rw [written, size]
    simp only [String.utf8Len_cons, String.utf8Len_nil,
      utf8Size_hexDigit (show c.toNat / 16 < 16 by omega),
      utf8Size_hexDigit (show c.toNat % 16 < 16 by omega)]
    decide
  · rw [written, size]
    simp

theorem utf8Len_escape (cs : List Char) : utf8Len (escape cs) = escapedSizeList cs := by
  induction cs with
  | nil => rfl
  | cons c rest ih =>
    have parts : escape (c :: rest) = escapeChar c ++ escape rest := List.flatMap_cons
    rw [parts, String.utf8Len_append, utf8Len_escapeChar, ih]
    simp [escapedSizeList]

theorem escapedCharSize_le (c : Char) : escapedCharSize c ≤ 6 := by
  obtain ⟨_, _, _, size⟩ | ⟨_, _, size⟩ | ⟨_, _, _, _, size⟩ := escapeChar_cases c
  · omega
  · omega
  · have few := c.utf8Size_le_four
    omega

/-- No character becomes shorter in a literal. -/
theorem utf8Size_le_escapedCharSize (c : Char) : c.utf8Size ≤ escapedCharSize c := by
  have single (ascii : c.toNat < 128) : c.utf8Size = 1 :=
    Char.utf8Size_eq_one_iff.mpr (UInt32.le_iff_toNat_le.mpr (Nat.le_of_lt_succ ascii))
  obtain ⟨letter, member, _, size⟩ | ⟨control, _, size⟩ | ⟨_, _, _, _, size⟩ := escapeChar_cases c
  · have ascii : ∀ p ∈ shortEscapes, p.1.toNat < 128 := by decide
    rw [size, single (ascii _ member)]
    decide
  · rw [size, single (by omega)]
    decide
  · rw [size]

theorem utf8Len_le_escapedSizeList (cs : List Char) : utf8Len cs ≤ escapedSizeList cs := by
  induction cs with
  | nil => exact Nat.le_refl 0
  | cons c rest ih =>
    have first := utf8Size_le_escapedCharSize c
    have size : escapedSizeList (c :: rest) = escapedCharSize c + escapedSizeList rest := rfl
    rw [String.utf8Len_cons, size]
    omega

theorem escapedSizeList_of_single {cs : List Char} (single : ∀ c ∈ cs, escapedCharSize c = 1) :
    escapedSizeList cs = cs.length := by
  induction cs with
  | nil => rfl
  | cons c rest ih =>
    have behind := ih fun d member => single d (List.mem_cons_of_mem _ member)
    have first := single c List.mem_cons_self
    simp only [escapedSizeList, List.map_cons, List.sum_cons, List.length_cons] at behind ⊢
    omega

theorem utf8Len_literal (cs : List Char) : utf8Len (literal cs) = escapedSizeList cs + 2 := by
  have quote : Char.utf8Size '"' = 1 := rfl
  simp only [literal, String.utf8Len_cons, String.utf8Len_append, String.utf8Len_nil,
    utf8Len_escape, quote]

theorem escapedSizeList_cutList (room : Nat) (cs : List Char) :
    escapedSizeList (cutList room cs) ≤ room := by
  induction cs generalizing room with
  | nil => exact Nat.zero_le _
  | cons c rest ih =>
    unfold cutList
    split
    · have behind := ih (room - escapedCharSize c)
      simp only [escapedSizeList, List.map_cons, List.sum_cons] at behind ⊢
      omega
    · exact Nat.zero_le _

theorem cutList_prefix (room : Nat) (cs : List Char) : cutList room cs <+: cs := by
  induction cs generalizing room with
  | nil => exact List.nil_prefix
  | cons c rest ih =>
    unfold cutList
    split
    · exact List.cons_prefix_cons.mpr ⟨rfl, ih _⟩
    · exact List.nil_prefix

theorem cutList_of_fits {room : Nat} {cs : List Char} (fits : escapedSizeList cs ≤ room) :
    cutList room cs = cs := by
  induction cs generalizing room with
  | nil => rfl
  | cons c rest ih =>
    simp only [escapedSizeList, List.map_cons, List.sum_cons] at fits ih
    rw [cutList, if_pos (by omega), ih (by omega)]

/-- Where something is cut off, less room is left than a character can take. -/
theorem cutList_filled (room : Nat) (cs : List Char) :
    cutList room cs = cs ∨ room ≤ escapedSizeList (cutList room cs) + 5 := by
  induction cs generalizing room with
  | nil => exact .inl rfl
  | cons c rest ih =>
    rw [cutList]
    by_cases fits : escapedCharSize c ≤ room
    · rw [if_pos fits]
      obtain whole | filled := ih (room - escapedCharSize c)
      · exact .inl (by rw [whole])
      · right
        have size : escapedSizeList (c :: cutList (room - escapedCharSize c) rest) =
          escapedCharSize c + escapedSizeList (cutList (room - escapedCharSize c) rest) := rfl
        omega
    · have few := escapedCharSize_le c
      rw [if_neg fits]
      omega

/-- What is cut ends where the next character does not fit. -/
theorem cutList_eq_iff {room : Nat} {cs : List Char} {c : Char} {more : List Char} :
    cutList room (cs ++ c :: more) = cs ↔
      escapedSizeList cs ≤ room ∧ room < escapedSizeList cs + escapedCharSize c := by
  induction cs generalizing room with
  | nil =>
    have start : escapedSizeList [] = 0 := rfl
    rw [List.nil_append, cutList, start]
    by_cases fits : escapedCharSize c ≤ room
    · rw [if_pos fits]
      constructor
      · exact nofun
      · omega
    · rw [if_neg fits, eq_self, true_iff]
      omega
  | cons d rest ih =>
    have behind := @ih (room - escapedCharSize d)
    have size : escapedSizeList (d :: rest) = escapedCharSize d + escapedSizeList rest := rfl
    rw [List.cons_append, cutList, size]
    by_cases fits : escapedCharSize d ≤ room
    · rw [if_pos fits, List.cons.injEq, behind, eq_self, true_and]
      omega
    · rw [if_neg fits]
      constructor
      · exact nofun
      · omega

theorem escapedSize_append (s t : String) :
    escapedSize (s ++ t) = escapedSize s + escapedSize t := by
  simp [escapedSize, escapedSizeList]

theorem utf8ByteSize_le_escapedSize (s : String) : s.utf8ByteSize ≤ escapedSize s := by
  have bytes : s.utf8ByteSize = utf8Len s.toList := by
    rw [← String.utf8ByteSize_ofList, String.ofList_toList]
  rw [bytes]
  exact utf8Len_le_escapedSizeList s.toList

theorem escapedSize_cut (room : Nat) (s : String) : escapedSize (cut room s) ≤ room := by
  rw [escapedSize, cut, String.toList_ofList]
  exact escapedSizeList_cutList room s.toList

theorem cut_filled (room : Nat) (s : String) :
    cut room s = s ∨ room ≤ escapedSize (cut room s) + 5 := by
  obtain whole | filled := cutList_filled room s.toList
  · left
    rw [cut, whole, String.ofList_toList]
  · right
    rwa [escapedSize, cut, String.toList_ofList]

theorem cut_prefix (room : Nat) (s : String) : (cut room s).toList <+: s.toList := by
  rw [cut, String.toList_ofList]
  exact cutList_prefix room s.toList

theorem cut_of_fits {room : Nat} {s : String} (fits : escapedSize s ≤ room) : cut room s = s := by
  rw [cut, cutList_of_fits fits, String.ofList_toList]

theorem cut_eq_iff {room : Nat} {s short : String} {c : Char} {more : List Char}
    (parts : s.toList = short.toList ++ c :: more) :
    cut room s = short ↔
      escapedSize short ≤ room ∧ room < escapedSize short + escapedCharSize c := by
  have ends := @cutList_eq_iff room short.toList c more
  rw [← parts] at ends
  rw [escapedSize, ← ends, cut]
  constructor
  · intro same
    rw [← same, String.toList_ofList]
  · intro same
    rw [same, String.ofList_toList]

theorem escapedSizeList_mono {cs ds : List Char} (start : cs <+: ds) :
    escapedSizeList cs ≤ escapedSizeList ds := by
  obtain ⟨more, rfl⟩ := start
  rw [escapedSizeList, escapedSizeList, List.map_append, List.sum_append]
  exact Nat.le_add_right _ _

theorem escapedSize_push (s : String) (c : Char) :
    escapedSize (s.push c) = escapedSize s + escapedCharSize c := by
  simp [escapedSize, escapedSizeList]

theorem exists_next {room : Nat} {s : String} (long : room < escapedSize s) :
    ∃ c more, s.toList = (cut room s).toList ++ c :: more ∧
      room < escapedSize ((cut room s).push c) := by
  obtain ⟨left, parts⟩ := cut_prefix room s
  cases left with
  | nil =>
    have whole : cut room s = s := String.toList_injective (by simpa using parts)
    have fits := escapedSize_cut room s
    rw [whole] at fits
    exact absurd long (Nat.not_lt.mpr fits)
  | cons c more =>
    refine ⟨c, more, parts.symm, ?_⟩
    rw [escapedSize_push]
    exact ((cut_eq_iff parts.symm).mp rfl).2

/-- A beginning of a text whose literal takes at most `room` bytes between its quotes, where
that of no longer beginning does. -/
structure LongestStart (room : Nat) (s short : String) : Prop where
  start : short.toList <+: s.toList
  fits_iff : ∀ t : String, t.toList <+: s.toList →
    (escapedSize t ≤ room ↔ t.toList <+: short.toList)

/-- What goes on from the cut of a text has the next character too, and that does not fit. -/
theorem room_lt_of_longer {room : Nat} {s t : String} {d : Char} {more : List Char}
    (begins : t.toList <+: s.toList) (longer : (cut room s).toList ++ d :: more = t.toList) :
    room < escapedSize t := by
  by_cases long : room < escapedSize s
  · obtain ⟨c, rest, parts, beyond⟩ := exists_next long
    rw [← longer, parts, List.prefix_append_right_inj] at begins
    obtain ⟨rfl, _⟩ := List.cons_prefix_cons.mp begins
    have next : ((cut room s).push d).toList <+: t.toList := by
      rw [← longer, String.toList_push]
      exact (List.prefix_append_right_inj _).mpr ⟨more, rfl⟩
    exact Nat.lt_of_lt_of_le beyond (escapedSizeList_mono next)
  · have short := begins.length_le
    rw [← longer, cut_of_fits (Nat.le_of_not_lt long), List.length_append, List.length_cons]
      at short
    omega

theorem longestStart_cut (room : Nat) (s : String) : LongestStart room s (cut room s) := by
  have cutBegins := cut_prefix room s
  refine ⟨cutBegins, ?_⟩
  intro t begins
  constructor
  · intro fits
    obtain shorter | ⟨more, longer⟩ := List.prefix_or_prefix_of_prefix begins cutBegins
    · exact shorter
    · cases more with
      | nil => exact ⟨[], by rw [← longer, List.append_nil, List.append_nil]⟩
      | cons d more => exact absurd fits (Nat.not_le.mpr (room_lt_of_longer begins longer))
  · intro shorter
    exact Nat.le_trans (escapedSizeList_mono shorter) (escapedSize_cut room s)

theorem LongestStart.unique {room : Nat} {s first second : String}
    (longest : LongestStart room s first) (again : LongestStart room s second) :
    first = second := by
  have firstFits := (longest.fits_iff first longest.start).mpr List.prefix_rfl
  have secondFits := (again.fits_iff second again.start).mpr List.prefix_rfl
  have below := (again.fits_iff first longest.start).mp firstFits
  have above := (longest.fits_iff second again.start).mp secondFits
  exact String.toList_injective (below.eq_of_length_le above.length_le)

end Telemetry.Text
