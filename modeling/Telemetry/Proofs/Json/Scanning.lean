import Telemetry.Proofs.Decimal.Numeral
import Telemetry.Proofs.Text.Literal

/-! The tokens of written values are found again.
Reading goes over characters from the left, and what is read of a value does not
depend on what follows it, as long as that does not go on with a number or a word. -/
namespace Telemetry.Json.Token
open Text (shortEscapes IsCode Writes Denotes)

/-- The tokens that are still to come from a mode on. -/
def scan : Mode → List Char → Option (List Token)
  | m, [] => finish? m
  | m, c :: rest => do
    let (ts, m) ← step? m c
    (scan m rest).map (ts ++ ·)

theorem foldlM_advance? (cs : List Char) (p : List Token × Mode) :
    ((cs.foldlM advance? p).bind fun q => (finish? q.2).map (q.1.reverse ++ ·)) =
      (scan p.2 cs).map (p.1.reverse ++ ·) := by
  induction cs generalizing p with
  | nil => rfl
  | cons c rest ih =>
    simp only [List.foldlM_cons, scan, advance?, Option.bind_eq_bind]
    cases step? p.2 c with
    | none => rfl
    | some next =>
      simp only [Option.bind_some, ih, Option.map_map]
      congr 1
      funext ts
      simp

theorem map_nothing (o : Option (List Token)) : o.map ([] ++ ·) = o := by
  cases o <;> rfl

theorem ofText?_eq_scan (s : String) : ofText? s = scan .between s.toList := by
  have all := foldlM_advance? s.toList ([], .between)
  rw [List.reverse_nil, map_nothing] at all
  rw [← all]
  unfold ofText?
  simp only [Option.bind_eq_bind]
  congr 1
  funext q
  cases finish? q.2 <;> rfl

/-- What follows does not go on with a number or a word. -/
def Ends (rest : List Char) : Prop :=
  ∀ c ∈ rest.head?, isNumberChar c = false ∧ c.isAlpha = false

theorem scan_turn {m : Mode} {ts : List Token} {rest : List Char} (finished : finish? m = some ts)
    (turns : ∀ c ∈ rest.head?, step? m c = turn? m c) :
    scan m rest = (scan .between rest).map (ts ++ ·) := by
  cases rest with
  | nil =>
    rw [scan, finished]
    simp [scan, finish?]
  | cons c more =>
    rw [scan, turns c rfl, turn?, finished, scan, step?]
    simp only [Option.bind_eq_bind, Option.bind_some]
    cases begin? c with
    | none => rfl
    | some p =>
      simp only [Option.bind_some, Option.map_map, List.append_assoc]
      rfl

theorem begin?_number {c : Char} (first : c = '-' ∨ c.isDigit = true) :
    begin? c = some ([], .number [c]) := by
  obtain rfl | digit := first
  · rfl
  · obtain ⟨least, greatest⟩ := Char.isDigit_iff_toNat.mp digit
    have all : ∀ n < 58, 48 ≤ n → begin? (Char.ofNat n) = some ([], .number [Char.ofNat n]) := by
      decide
    have here := all c.toNat (Nat.lt_succ_of_le greatest) least
    rwa [Char.ofNat_toNat] at here

theorem scan_step {m next : Mode} {c : Char} (step : step? m c = some ([], next))
    (rest : List Char) :
    scan m (c :: rest) = scan next rest := by
  rw [scan, step]
  exact map_nothing _

/-- A token that goes on with characters of its own, up to where it ends. -/
theorem scan_token (mode : List Char → Mode) (own : Char → Bool) {t : Token} {cs rest : List Char}
    (goes : ∀ before c, own c = true → step? (mode before) c = some ([], mode (c :: before)))
    (chars : ∀ c ∈ cs, own c = true) (filled : cs ≠ [])
    (begins : ∀ c ∈ cs.head?, begin? c = some ([], mode [c]))
    (finished : finish? (mode cs.reverse) = some [t])
    (turns : ∀ c ∈ rest.head?, step? (mode cs.reverse) c = turn? (mode cs.reverse) c) :
    scan .between (cs ++ rest) = (scan .between rest).map (t :: ·) := by
  have onwards (before after : List Char) (chars : ∀ c ∈ after, own c = true) :
      scan (mode before) (after ++ rest) = scan (mode (after.reverse ++ before)) rest := by
    induction after generalizing before with
    | nil => rfl
    | cons c more ih =>
      have behind := ih (c :: before) fun d member => chars d (List.mem_cons_of_mem _ member)
      rw [List.cons_append, scan_step (goes before c (chars c List.mem_cons_self)), behind,
        List.reverse_cons, List.append_assoc, List.singleton_append]
  cases cs with
  | nil => exact absurd rfl filled
  | cons c more =>
    have behind := onwards [c] more fun d member => chars d (List.mem_cons_of_mem _ member)
    rw [← List.reverse_cons, scan_turn finished turns] at behind
    have first : step? .between c = some ([], mode [c]) := begins c rfl
    rw [List.cons_append, scan_step first, behind]
    rfl

theorem scan_number {cs rest : List Char} (lexeme : IsLexeme cs) (ends : Ends rest) :
    scan .between (cs ++ rest) = (scan .between rest).map (.number cs :: ·) := by
  refine scan_token .number isNumberChar (fun before c own => ?_) lexeme.chars ?_
    (fun c first => ?_) ?_
    fun c member => ?_
  · rw [step?, if_pos own]
  · rintro rfl
    exact absurd lexeme.number (by decide)
  · cases cs with
    | nil => cases first
    | cons d more =>
      cases first
      exact begin?_number lexeme.head
  · rw [finish?, List.reverse_reverse, if_pos lexeme.number]
  · rw [step?, if_neg (by simp [(ends c member).1])]

theorem scan_word {w rest : List Char} {t : Token} (word : ofWord? w = some t)
    (letters : w.all Char.isAlpha = true)
    (begins : w.head?.bind begin? = some ([], .word (w.take 1))) (ends : Ends rest) :
    scan .between (w ++ rest) = (scan .between rest).map (t :: ·) := by
  refine scan_token .word Char.isAlpha (fun before c own => ?_) (List.all_eq_true.mp letters) ?_
    (fun c first => ?_) ?_ fun c member => ?_
  · rw [step?, if_pos own]
  · rintro rfl
    cases begins
  · cases w with
    | nil => cases first
    | cons d more =>
      cases first
      exact begins
  · rw [finish?, List.reverse_reverse, word]
    rfl
  · rw [step?, if_neg (by simp [(ends c member).2])]

theorem scan_mark {c : Char} {t : Token} (mark : begin? c = some ([t], .between))
    (rest : List Char) : scan .between (c :: rest) = (scan .between rest).map (t :: ·) := by
  rw [scan, step?, mark]
  rfl

theorem scan_code {ds : List Char} {n : Nat} (digits : IsCode ds n) (before : List Nat)
    (rest : List Char) :
    scan (.text before) ('\\' :: 'u' :: (ds ++ rest)) = scan (.text (n :: before)) rest := by
  cases digits with
  | @digits a b c d i j k l first second third fourth =>
    have opened : step? (.text before) '\\' = some ([], .escape before) := rfl
    have begun : step? (.escape before) 'u' = some ([], .hex before 4 0) := rfl
    have one : step? (.hex before 4 0) a = some ([], .hex before 3 i) := by simp [step?, first]
    have two : step? (.hex before 3 i) b = some ([], .hex before 2 (16 * i + j)) := by
      simp [step?, second]
    have three : step? (.hex before 2 (16 * i + j)) c =
        some ([], .hex before 1 (16 * (16 * i + j) + k)) := by
      simp [step?, third]
    have four : step? (.hex before 1 (16 * (16 * i + j) + k)) d =
        some ([], .text ((16 * (16 * (16 * i + j) + k) + l) :: before)) := by
      simp [step?, fourth]
    simp only [List.cons_append, List.nil_append]
    rw [scan_step opened, scan_step begun, scan_step one, scan_step two, scan_step three,
      scan_step four]

theorem ofCodes_char (c : Char) (more : List Nat) :
    ofCodes (c.toNat :: more) = (ofCodes more).map (c :: ·) := by
  have whole : ¬ (0xD800 ≤ c.toNat ∧ c.toNat ≤ 0xDFFF) := by
    have valid : c.toNat < 0xD800 ∨ (0xDFFF < c.toNat ∧ c.toNat < 0x110000) := c.valid
    omega
  rw [ofCodes.eq_def]
  simp only [if_neg whole, Char.ofNat_toNat]

theorem scan_writes {w : List Char} {c : Char} (writes : Writes w c) :
    ∃ codes, (∀ more, ofCodes (codes ++ more) = (ofCodes more).map (c :: ·)) ∧
      ∀ before rest, scan (.text before) (w ++ rest) =
        scan (.text (codes.reverse ++ before)) rest := by
  have slash (before : List Nat) : step? (.text before) '\\' = some ([], .escape before) := rfl
  cases writes with
  | itself visible quote plain =>
    refine ⟨[c.toNat], ofCodes_char c, ?_⟩
    intro before rest
    have itself : step? (.text before) c = some ([], .text (c.toNat :: before)) := by
      rw [step?, if_neg quote, if_neg plain, if_neg (Nat.not_lt.mpr visible)]
    exact scan_step itself rest
  | solidus =>
    refine ⟨['/'.toNat], ofCodes_char '/', ?_⟩
    intro before rest
    have letter : step? (.escape before) '/' = some ([], .text ('/'.toNat :: before)) := rfl
    exact (scan_step (slash before) _).trans (scan_step letter rest)
  | @letter _ letter known =>
    refine ⟨[c.toNat], ofCodes_char c, ?_⟩
    intro before rest
    obtain ⟨other, escaped⟩ :=
      (by decide : ∀ p ∈ shortEscapes, p.2 ≠ 'u' ∧ escaped? p.2 = some p.1.toNat) _ known
    have short : step? (.escape before) letter = some ([], .text (c.toNat :: before)) := by
      rw [step?, if_neg other, escaped, Option.map_some]
    exact (scan_step (slash before) _).trans (scan_step short rest)
  | code digits => exact ⟨[c.toNat], ofCodes_char c, scan_code digits⟩
  | @pair ds es high low _ first second isHigh isLow whole =>
    refine ⟨[high, low], ?_, ?_⟩
    · intro more
      have surrogate : 0xD800 ≤ high ∧ high ≤ 0xDFFF := by omega
      have paired : high < 0xDC00 ∧ 0xDC00 ≤ low ∧ low ≤ 0xDFFF := ⟨isHigh.2, isLow⟩
      rw [List.cons_append, List.singleton_append, ofCodes.eq_def]
      simp only [if_pos surrogate, if_pos paired, ← whole, Char.ofNat_toNat]
    · intro before rest
      have behind := scan_code second (high :: before) rest
      rw [List.cons_append, List.cons_append, List.append_assoc, List.cons_append,
        List.cons_append, scan_code first, behind]
      rfl

theorem scan_denotes {w cs : List Char} (denotes : Denotes w cs) :
    ∃ codes, ofCodes codes = some cs ∧
      ∀ before rest, scan (.text before) (w ++ rest) =
        scan (.text (codes.reverse ++ before)) rest := by
  induction denotes with
  | nil => exact ⟨[], rfl, fun _ _ => rfl⟩
  | @cons w ws cs c first _ ih =>
    obtain ⟨codes, whole, here⟩ := scan_writes first
    obtain ⟨others, text, behind⟩ := ih
    refine ⟨codes ++ others, ?_, ?_⟩
    · rw [whole, text, Option.map_some]
    · intro before rest
      rw [List.append_assoc, here, behind, List.reverse_append, List.append_assoc]

/-- A string is read as what its literal stands for. -/
theorem scan_string {w cs : List Char} (denotes : Denotes w cs) (rest : List Char) :
    scan .between ('"' :: (w ++ '"' :: rest)) =
      (scan .between rest).map (.str (some (String.ofList cs)) :: ·) := by
  have opened : step? .between '"' = some ([], .text []) := rfl
  obtain ⟨codes, text, inside⟩ := scan_denotes denotes
  rw [scan_step opened, inside, List.append_nil, scan, step?, if_pos rfl, List.reverse_reverse,
    text]
  rfl

theorem scan_literal (cs rest : List Char) :
    scan .between (Text.literal cs ++ rest) =
      (scan .between rest).map (.str (some (String.ofList cs)) :: ·) := by
  have parts : Text.literal cs ++ rest = '"' :: (Text.escape cs ++ '"' :: rest) := by
    simp [Text.literal]
  rw [parts, scan_string (Text.denotes_escape cs)]

end Telemetry.Json.Token

namespace Telemetry.Text
open Json.Token (scan_string)

/-- What stands between the quotes of a literal stands for one text only. -/
theorem Denotes.unique {w cs ds : List Char} (first : Denotes w cs) (second : Denotes w ds) :
    cs = ds := by
  have same := (scan_string first []).symm.trans (scan_string second [])
  simpa [Json.Token.scan, Json.Token.finish?, String.ofList_inj] using same

end Telemetry.Text
