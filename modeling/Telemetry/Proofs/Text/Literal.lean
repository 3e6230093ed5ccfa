import Telemetry.Proofs.Text.Escape

/-! What a JSON string literal says, and its bytes.
A character may be written in several ways between the quotes of a literal. The literal of a
text takes one of them for each of its characters. Its bytes can also be had from those of the
text by a table, one byte after another: where a character takes more than one byte, none of
them is in the table, and it stays as it is. -/
namespace Telemetry.Text
open String (utf8EncodeChar)

/-- Four digits of base sixteen and the number that they write. -/
inductive IsCode : List Char → Nat → Prop
  | digits {a b c d : Char} {i j k l : Nat} (first : hexValue? a = some i)
    (second : hexValue? b = some j) (third : hexValue? c = some k) (fourth : hexValue? d = some l) :
    IsCode [a, b, c, d] (16 * (16 * (16 * i + j) + k) + l)

/-- A character and what may stand for it between the quotes of a literal. A character beyond
the codes of four digits is written as two of them, its high surrogate and its low one. -/
inductive Writes : List Char → Char → Prop
  | itself {c : Char} (visible : 32 ≤ c.toNat) (quote : c ≠ '"') (slash : c ≠ '\\') : Writes [c] c
  | solidus : Writes ['\\', '/'] '/'
  | letter {c letter : Char} (known : (c, letter) ∈ shortEscapes) : Writes ['\\', letter] c
  | code {ds : List Char} {c : Char} (digits : IsCode ds c.toNat) : Writes ('\\' :: 'u' :: ds) c
  | pair {ds es : List Char} {high low : Nat} {c : Char} (first : IsCode ds high)
    (second : IsCode es low) (isHigh : 0xD800 ≤ high ∧ high < 0xDC00)
    (isLow : 0xDC00 ≤ low ∧ low ≤ 0xDFFF)
    (whole : c.toNat = 0x10000 + (high - 0xD800) * 0x400 + (low - 0xDC00)) :
    Writes ('\\' :: 'u' :: (ds ++ '\\' :: 'u' :: es)) c

/-- What stands between the quotes of a literal, and the characters that it stands for. -/
inductive Denotes : List Char → List Char → Prop
  | nil : Denotes [] []
  | cons {w ws cs : List Char} {c : Char} (first : Writes w c) (others : Denotes ws cs) :
    Denotes (w ++ ws) (c :: cs)

theorem hexValue?_hexDigit {n : Nat} (digit : n < 16) : hexValue? (hexDigit n) = some n :=
  (by decide : ∀ n < 16, hexValue? (hexDigit n) = some n) n digit

theorem writes_escapeChar (c : Char) : Writes (escapeChar c) c := by
  obtain ⟨letter, known, written, _⟩ | ⟨control, written, _⟩ |
      ⟨quote, slash, visible, written, _⟩ :=
    escapeChar_cases c
  · rw [written]
    exact .letter known
  · have high : hexValue? (hexDigit (c.toNat / 16)) = some (c.toNat / 16) :=
      hexValue?_hexDigit (by omega)
    have low : hexValue? (hexDigit (c.toNat % 16)) = some (c.toNat % 16) :=
      hexValue?_hexDigit (by omega)
    have zero : hexValue? '0' = some 0 := rfl
    have number : 16 * (16 * (16 * 0 + 0) + c.toNat / 16) + c.toNat % 16 = c.toNat := by omega
    have digits := IsCode.digits zero zero high low
    rw [number] at digits
    rw [written]
    exact .code digits
  · rw [written]
    exact .itself visible quote slash

theorem denotes_escape (cs : List Char) : Denotes (escape cs) cs := by
  induction cs with
  | nil => exact .nil
  | cons c rest ih =>
    rw [escape, List.flatMap_cons]
    exact .cons (writes_escapeChar c) ih

/-- The bytes that are escaped with a single letter, and their letters. -/
def byteLetters : List (UInt8 × UInt8) :=
  [(34, 34), (92, 92), (10, 110), (13, 114), (9, 116), (8, 98), (12, 102)]

def hexByte (n : UInt8) : UInt8 :=
  if n < 10 then 48 + n else 87 + n

/-- What is written for one byte of a text. -/
def escapeByte (b : UInt8) : List UInt8 :=
  match byteLetters.lookup b with
  | some letter => [92, letter]
  | none => if b < 32 then [92, 117, 48, 48, hexByte (b / 16), hexByte (b % 16)] else [b]

/-- The literal of a text that is given as its bytes. -/
def literalBytes (bytes : List UInt8) : List UInt8 :=
  34 :: (bytes.flatMap escapeByte ++ [34])

def bytes (s : String) : List UInt8 :=
  s.toUTF8.data.toList

theorem bytes_ofList (cs : List Char) : bytes (String.ofList cs) = cs.flatMap utf8EncodeChar := by
  rw [bytes, String.toUTF8_eq_toByteArray, String.toByteArray_ofList, List.utf8Encode,
    List.toList_data_toByteArray]

theorem escapeByte_plain {b : UInt8} (visible : 32 ≤ b) (quote : b ≠ 34) (slash : b ≠ 92) :
    escapeByte b = [b] := by
  have unlisted : byteLetters.lookup b = none := by
    rw [List.lookup_eq_none_iff]
    intro p listed
    have table : ∀ p ∈ byteLetters, p.1 = 34 ∨ p.1 = 92 ∨ p.1.toNat < 32 := by simp [byteLetters]
    rw [bne_iff_ne]
    rintro rfl
    obtain same | same | control := table p listed
    · exact quote same
    · exact slash same
    · exact absurd (UInt8.le_iff_toNat_le.mp visible) (Nat.not_le.mpr control)
  rw [escapeByte, unlisted]
  exact if_neg (UInt8.not_lt.mpr visible)

theorem le_ofNat {n : Nat} (wide : 128 ≤ n) (byte : n < 256) : 128 ≤ UInt8.ofNat n := by
  rw [UInt8.le_iff_toNat_le, UInt8.toNat_ofNat_of_lt' byte]
  exact wide

/-- The bytes of a character that is not ASCII are not ASCII either. -/
theorem le_of_mem_utf8EncodeChar {c : Char} (wide : 128 ≤ c.toNat) :
    ∀ b ∈ utf8EncodeChar c, 128 ≤ b := by
  intro b member
  have first : ¬ c.val.toNat ≤ 127 := Nat.not_le.mpr wide
  simp only [utf8EncodeChar, if_neg first] at member
  split at member
  · simp only [List.mem_cons, List.not_mem_nil, or_false] at member
    rcases member with rfl | rfl <;> apply le_ofNat <;> omega
  · split at member
    · simp only [List.mem_cons, List.not_mem_nil, or_false] at member
      rcases member with rfl | rfl | rfl <;> apply le_ofNat <;> omega
    · simp only [List.mem_cons, List.not_mem_nil, or_false] at member
      rcases member with rfl | rfl | rfl | rfl <;> apply le_ofNat <;> omega

theorem flatMap_escapeByte_wide {bs : List UInt8} (wide : ∀ b ∈ bs, 128 ≤ b) :
    bs.flatMap escapeByte = bs := by
  induction bs with
  | nil => rfl
  | cons b rest ih =>
    obtain ⟨first, others⟩ := List.forall_mem_cons.mp wide
    have plain : escapeByte b = [b] := by
      apply escapeByte_plain
      · exact UInt8.le_trans (by decide) first
      · rintro rfl
        exact absurd first (by decide)
      · rintro rfl
        exact absurd first (by decide)
    rw [List.flatMap_cons, plain, ih others, List.singleton_append]

/-- A character is escaped as its bytes are. -/
theorem utf8_escapeChar (c : Char) :
    (escapeChar c).flatMap utf8EncodeChar = (utf8EncodeChar c).flatMap escapeByte := by
  obtain ⟨letter, known, _⟩ | ⟨control, _⟩ | ⟨quote, slash, visible, written, _⟩ :=
    escapeChar_cases c
  · have listed : ∀ p ∈ shortEscapes,
        (escapeChar p.1).flatMap utf8EncodeChar = (utf8EncodeChar p.1).flatMap escapeByte := by
      decide
    exact listed _ known
  · have controls : ∀ n < 32, (escapeChar (Char.ofNat n)).flatMap utf8EncodeChar =
        (utf8EncodeChar (Char.ofNat n)).flatMap escapeByte := by
      decide
    have here := controls c.toNat control
    rwa [Char.ofNat_toNat] at here
  · rw [written, List.flatMap_singleton]
    by_cases ascii : c.toNat < 128
    · have single : utf8EncodeChar c = [UInt8.ofNat c.toNat] := if_pos (Nat.le_of_lt_succ ascii)
      have byte : (UInt8.ofNat c.toNat).toNat = c.toNat :=
        UInt8.toNat_ofNat_of_lt' (Nat.lt_trans ascii (by decide))
      have plain : escapeByte (UInt8.ofNat c.toNat) = [UInt8.ofNat c.toNat] := by
        apply escapeByte_plain
        · rw [UInt8.le_iff_toNat_le, byte]
          exact visible
        · intro same
          rw [same] at byte
          exact quote (Char.toNat_inj.mp byte.symm)
        · intro same
          rw [same] at byte
          exact slash (Char.toNat_inj.mp byte.symm)
      rw [single, List.flatMap_singleton, plain]
    · exact (flatMap_escapeByte_wide (le_of_mem_utf8EncodeChar (Nat.le_of_not_lt ascii))).symm

theorem utf8_escape (cs : List Char) :
    (escape cs).flatMap utf8EncodeChar = (cs.flatMap utf8EncodeChar).flatMap escapeByte := by
  induction cs with
  | nil => rfl
  | cons c rest ih =>
    rw [escape, List.flatMap_cons, ← escape, List.flatMap_append, utf8_escapeChar, ih,
      List.flatMap_cons, List.flatMap_append]

def quoted (s : String) : String :=
  String.ofList (literal s.toList)

/-- The bytes of the literal of a text are the literal of its bytes. -/
theorem bytes_quoted (s : String) : bytes (quoted s) = literalBytes (bytes s) := by
  have quote : utf8EncodeChar '"' = [34] := rfl
  have own : bytes s = s.toList.flatMap utf8EncodeChar := by
    rw [← bytes_ofList, String.ofList_toList]
  rw [quoted, bytes_ofList, literal, List.flatMap_cons, List.flatMap_append, utf8_escape,
    List.flatMap_singleton, quote, ← own]
  rfl

end Telemetry.Text
