import Telemetry.Json.Token

/-! Which characters are a number, put together from parts.
The whole part is a single zero or begins with another digit; what follows it is
optional. Whole numbers in the usual decimal writing are such numbers. -/
namespace Telemetry.Json.Token

def AreDigits (ds : List Char) : Prop :=
  ds ≠ [] ∧ ∀ d ∈ ds, d.isDigit = true

def IsWhole (ds : List Char) : Prop :=
  AreDigits ds ∧ (ds.head? = some '0' → ds = ['0'])

/-- No digit comes first. -/
def NoDigit (rest : List Char) : Prop :=
  ∀ c ∈ rest.head?, c.isDigit = false

theorem noDigit_nil : NoDigit [] := by simp [NoDigit]

theorem dropWhile_digits {ds rest : List Char} (digits : ∀ d ∈ ds, d.isDigit = true)
    (ends : NoDigit rest) : (ds ++ rest).dropWhile Char.isDigit = rest := by
  rw [List.dropWhile_append_of_pos digits]
  cases rest with
  | nil => rfl
  | cons c more =>
    rw [List.dropWhile_cons_of_neg]
    simpa using ends c rfl

theorem afterDigits?_append {ds rest : List Char} (digits : AreDigits ds) (ends : NoDigit rest) :
    afterDigits? (ds ++ rest) = some rest := by
  obtain ⟨filled, all⟩ := digits
  cases ds with
  | nil => exact absurd rfl filled
  | cons d more =>
    have first := all d List.mem_cons_self
    have behind := dropWhile_digits (fun e member => all e (List.mem_cons_of_mem _ member)) ends
    simp only [List.cons_append, afterDigits?, first, if_true, behind]

theorem afterWhole?_append {ds rest : List Char} (whole : IsWhole ds) (ends : NoDigit rest) :
    afterWhole? (ds ++ rest) = some rest := by
  obtain ⟨digits, alone⟩ := whole
  cases ds with
  | nil => exact absurd rfl digits.1
  | cons d more =>
    by_cases zero : d = '0'
    · have single := alone (by rw [zero]; rfl)
      rw [single]
      rfl
    · rw [← afterDigits?_append digits ends]
      unfold afterWhole?
      split
      · rename_i same
        exact absurd (List.cons.inj same).1 zero
      · rfl

/-- The characters are a number, and whoever reads them sees so from each of them. -/
structure IsLexeme (cs : List Char) : Prop where
  number : isNumber cs = true
  chars : ∀ c ∈ cs, isNumberChar c = true

theorem isNumberChar_digit {c : Char} (digit : c.isDigit = true) : isNumberChar c = true := by
  simp [isNumberChar, digit]

def IsFraction (cs : List Char) : Prop :=
  cs = [] ∨ ∃ ds, AreDigits ds ∧ cs = '.' :: ds

/-- An exponent with its sign, or none. -/
def IsExponent (cs : List Char) : Prop :=
  cs = [] ∨ ∃ sign ds, (sign = '+' ∨ sign = '-') ∧ AreDigits ds ∧ cs = 'e' :: sign :: ds

theorem afterExponent?_of {cs : List Char} (exponent : IsExponent cs) :
    afterExponent? cs = some [] := by
  obtain rfl | ⟨sign, ds, marks, digits, rfl⟩ := exponent
  · rfl
  · have read := afterDigits?_append digits noDigit_nil
    rw [List.append_nil] at read
    obtain rfl | rfl := marks
    · simpa [afterExponent?] using read
    · simpa [afterExponent?] using read

theorem afterFraction?_append {fraction exponent : List Char} (given : IsFraction fraction)
    (behind : IsExponent exponent) : afterFraction? (fraction ++ exponent) = some exponent := by
  have ends : NoDigit exponent := by
    obtain rfl | ⟨sign, ds, _, _, rfl⟩ := behind
    · exact noDigit_nil
    · simp [NoDigit]
  obtain rfl | ⟨ds, digits, rfl⟩ := given
  · obtain rfl | ⟨sign, ds, _, _, rfl⟩ := behind <;> rfl
  · exact afterDigits?_append digits ends

theorem isFraction_zero : IsFraction ".0".toList := by
  refine .inr ⟨['0'], ⟨List.cons_ne_nil _ _, fun d member => ?_⟩, rfl⟩
  rw [List.mem_singleton.mp member]
  rfl

theorem IsFraction.chars {cs : List Char} (fraction : IsFraction cs) :
    ∀ c ∈ cs, isNumberChar c = true := by
  obtain rfl | ⟨ds, digits, rfl⟩ := fraction
  · simp
  · intro c member
    rcases List.mem_cons.mp member with rfl | digit
    · rfl
    · exact isNumberChar_digit (digits.2 c digit)

theorem IsExponent.chars {cs : List Char} (exponent : IsExponent cs) :
    ∀ c ∈ cs, isNumberChar c = true := by
  obtain rfl | ⟨sign, ds, marks, digits, rfl⟩ := exponent
  · simp
  · intro c member
    rcases List.mem_cons.mp member with rfl | behind
    · rfl
    · rcases List.mem_cons.mp behind with rfl | digit
      · obtain rfl | rfl := marks <;> rfl
      · exact isNumberChar_digit (digits.2 c digit)

/-- A number is a sign or none, a whole part, a fraction or none, and an exponent or none. -/
theorem isLexeme_of_parts (negative : Bool) {whole fraction exponent : List Char}
    (isWhole : IsWhole whole) (isFraction : IsFraction fraction)
    (isExponent : IsExponent exponent) :
    IsLexeme ((if negative then ['-'] else []) ++ (whole ++ (fraction ++ exponent))) := by
  have ends : NoDigit (fraction ++ exponent) := by
    obtain rfl | ⟨ds, _, rfl⟩ := isFraction
    · obtain rfl | ⟨sign, ds, _, _, rfl⟩ := isExponent
      · exact noDigit_nil
      · simp [NoDigit]
    · simp [NoDigit]
  have positive : unsigned ((if negative then ['-'] else []) ++ (whole ++ (fraction ++ exponent))) =
      whole ++ (fraction ++ exponent) := by
    cases negative with
    | true => rfl
    | false =>
      obtain ⟨⟨filled, all⟩, _⟩ := isWhole
      cases whole with
      | nil => exact absurd rfl filled
      | cons d more =>
        have digit := all d List.mem_cons_self
        simp only [Bool.false_eq_true, if_false, List.nil_append, List.cons_append]
        unfold unsigned
        split
        · rename_i same
          rw [(List.cons.inj same).1] at digit
          exact absurd digit (by decide)
        · rfl
  refine ⟨?_, fun c member => ?_⟩
  · rw [isNumber, positive]
    simp [afterWhole?_append isWhole ends, afterFraction?_append isFraction isExponent,
      afterExponent?_of isExponent]
  · rcases List.mem_append.mp member with sign | behind
    · cases negative with
      | true =>
        rw [List.mem_singleton.mp sign]
        rfl
      | false => cases sign
    · rcases List.mem_append.mp behind with digit | behind
      · exact isNumberChar_digit (isWhole.1.2 c digit)
      · rcases List.mem_append.mp behind with fraction | exponent
        · exact isFraction.chars c fraction
        · exact isExponent.chars c exponent

theorem IsLexeme.head {c : Char} {rest : List Char} (lexeme : IsLexeme (c :: rest)) :
    c = '-' ∨ c.isDigit = true := by
  by_cases minus : c = '-'
  · exact .inl minus
  by_cases digit : c.isDigit = true
  · exact .inr digit
  · have zero : c ≠ '0' := by
      rintro rfl
      exact digit (by decide)
    have same : unsigned (c :: rest) = c :: rest := by
      unfold unsigned
      split
      · rename_i first
        exact absurd (List.cons.inj first).1 minus
      · rfl
    have whole : afterWhole? (c :: rest) = none := by
      unfold afterWhole?
      split
      · rename_i first
        exact absurd (List.cons.inj first).1 zero
      · simp [afterDigits?, digit]
    have number := lexeme.number
    simp [isNumber, same, whole] at number

theorem areDigits_toDigits (n : Nat) : AreDigits (Nat.toDigits 10 n) :=
  ⟨Nat.toDigits_ne_nil, fun _ member => Nat.isDigit_of_mem_toDigits (by decide) (by decide) member⟩

theorem head?_toDigits_append (n : Nat) (rest : List Char) :
    (Nat.toDigits 10 n ++ rest).head? = (Nat.toDigits 10 n).head? := by
  obtain ⟨first, more, digits⟩ := List.exists_cons_of_ne_nil (@Nat.toDigits_ne_nil n 10)
  rw [digits]
  rfl

theorem head?_toDigits_ne {n : Nat} (positive : 0 < n) : (Nat.toDigits 10 n).head? ≠ some '0' := by
  induction n using Nat.strongRecOn with
  | ind n ih =>
    rw [Nat.toDigits_eq_if (by decide)]
    split
    · rename_i small
      exact (by decide : ∀ m < 10, 0 < m → [Nat.digitChar m].head? ≠ some '0') n small positive
    · rename_i large
      rw [head?_toDigits_append]
      exact ih (n / 10) (by omega) (by omega)

theorem isWhole_toDigits (n : Nat) : IsWhole (Nat.toDigits 10 n) := by
  refine ⟨areDigits_toDigits n, fun zero => ?_⟩
  rcases Nat.eq_zero_or_pos n with rfl | positive
  · rfl
  · exact absurd zero (head?_toDigits_ne positive)

theorem toList_toString_int (n : Int) :
    (toString n).toList = (if n < 0 then ['-'] else []) ++ Nat.toDigits 10 n.natAbs := by
  rw [Int.toString_eq_repr, Int.repr_eq_if]
  by_cases negative : n < 0
  · have magnitude : (-n).toNat = n.natAbs := by omega
    rw [if_neg (by omega), if_pos negative, String.toList_append, Nat.toList_repr, magnitude]
    rfl
  · have magnitude : n.toNat = n.natAbs := by omega
    rw [if_pos (by omega), if_neg negative, Nat.toList_repr, magnitude]
    rfl

theorem isLexeme_int (n : Int) : IsLexeme (toString n).toList := by
  have parts := isLexeme_of_parts (decide (n < 0)) (isWhole_toDigits n.natAbs) (.inl rfl) (.inl rfl)
  rw [toList_toString_int]
  simpa using parts

end Telemetry.Json.Token
