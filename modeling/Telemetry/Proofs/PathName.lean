import Telemetry.Path

/-! The last part of a path. A name that is put behind a directory is the file name of
the path that comes of it, and every file name is such a name. -/
namespace Telemetry.Path

structure IsName (name : String) : Prop where
  nonempty : name.toList ≠ []
  no_slash : '/' ∉ name.toList
  not_point : name.toList ≠ ['.']
  not_points : name.toList ≠ ['.', '.']

theorem lead_length (cs : List Char) : (lead cs).length ≤ 1 := by
  unfold lead
  split <;> simp

theorem body_eq (cs : List Char) : body cs = cs ∨ body cs = cs.tail := by
  have bound := lead_length cs
  unfold body
  rcases Nat.le_one_iff_eq_zero_or_eq_one.mp bound with zero | one
  · left
    rw [zero, List.drop_zero]
  · right
    rw [one, List.drop_one]

theorem body_name {name : String} (proper : IsName name) : body name.toList = name.toList := by
  have plain : lead name.toList = [] := by
    unfold lead
    split
    · rename_i rest same
      exact absurd (by simp [same]) proper.no_slash
    · rename_i same
      exact absurd same proper.not_point
    · rename_i rest same
      exact absurd (by simp [same]) proper.no_slash
    · rfl
  rw [body, plain, List.length_nil, List.drop_zero]

theorem isAbsolute_of_no_slash {name : String} (plain : '/' ∉ name.toList) :
    isAbsolute name = false := by
  have head : name.toList.head? ≠ some '/' := fun same => plain (List.mem_of_mem_head? same)
  simpa [isAbsolute] using head

/-- A directory with texts behind it is another path for each text. -/
theorem join_injective {dir first second : String} (plain : '/' ∉ first.toList)
    (plain' : '/' ∉ second.toList) (same : join dir first = join dir second) : first = second := by
  simp only [join, isAbsolute_of_no_slash plain, isAbsolute_of_no_slash plain',
    Bool.false_eq_true, if_false] at same
  split at same
  · exact (String.append_right_inj _).mp same
  · exact (String.append_right_inj _).mp same

/-- What stands before a name in a path: nothing, or something that ends in a slash. -/
def EndsDir (before : List Char) : Prop :=
  before = [] ∨ before.getLast? = some '/'

theorem body_append {before : List Char} {name : String} (dir : EndsDir before)
    (proper : IsName name) :
    ∃ rest, EndsDir rest ∧ body (before ++ name.toList) = rest ++ name.toList := by
  cases before with
  | nil => exact ⟨[], .inl rfl, by simpa using body_name proper⟩
  | cons c tail =>
    rcases body_eq (c :: tail ++ name.toList) with whole | shorter
    · exact ⟨c :: tail, dir, whole⟩
    · refine ⟨tail, ?_, shorter⟩
      cases tail with
      | nil => exact .inl rfl
      | cons d more =>
        right
        simpa [EndsDir, List.getLast?_cons_cons] using dir

theorem join_eq {dir name : String} (proper : IsName name) :
    ∃ before, EndsDir before ∧ (join dir name).toList = before ++ name.toList := by
  unfold join
  simp only [isAbsolute_of_no_slash proper.no_slash, Bool.false_eq_true, if_false]
  split
  · rename_i closed
    refine ⟨dir.toList, ?_, String.toList_append⟩
    rcases closed with rfl | slash
    · exact .inl rfl
    · exact .inr slash
  · exact ⟨dir.toList ++ ['/'], .inr (by simp), by simp⟩

theorem IsName.not_slash {name : String} (proper : IsName name) :
    ∀ c ∈ name.toList.reverse, (c != '/') = true := by
  intro c member
  have : c ≠ '/' := fun same => proper.no_slash (same ▸ List.mem_reverse.mp member)
  simpa using this

theorem lastPart_append {before : List Char} {name : String} (dir : EndsDir before)
    (proper : IsName name) : lastPart (before ++ name.toList).reverse = name.toList := by
  have stop : before.reverse.takeWhile (· != '/') = [] := by
    rcases dir with rfl | slash
    · rfl
    · obtain ⟨front, rfl⟩ := List.getLast?_eq_some_iff.mp slash
      simp
  rw [lastPart, List.reverse_append, List.takeWhile_append_of_pos proper.not_slash, stop]
  simp

theorem dropIdle_name {before : List Char} {name : String} (dir : EndsDir before)
    (proper : IsName name) :
    dropIdle (before ++ name.toList).reverse = (before ++ name.toList).reverse := by
  have filled : (before ++ name.toList).reverse ≠ [] := by simp [proper.nonempty]
  rw [dropIdle, if_neg filled, lastPart_append dir proper]
  exact if_neg (not_or.mpr ⟨proper.nonempty, proper.not_point⟩)

theorem fileName?_join {dir name : String} (proper : IsName name) :
    fileName? (join dir name) = some name := by
  obtain ⟨before, ends, joined⟩ := @join_eq dir name proper
  obtain ⟨rest, restEnds, behind⟩ := body_append ends proper
  have last := lastPart_append restEnds proper
  have idle : reversedBody (join dir name) = (rest ++ name.toList).reverse := by
    rw [reversedBody, joined, behind]
    exact dropIdle_name restEnds proper
  have filled : (rest ++ name.toList).reverse ≠ [] := by simp [proper.nonempty]
  simp only [fileName?, idle, last, filled, proper.not_points, or_self, if_false,
    String.ofList_toList]

theorem lead_name {dir : String} (plain : IsName dir) (rest : List Char) :
    lead (dir.toList ++ '/' :: rest) = [] := by
  obtain ⟨nonempty, no_slash, not_point, _⟩ := plain
  generalize dir.toList = cs at *
  match cs with
  | [] => exact absurd rfl nonempty
  | [c] =>
    have slash : c ≠ '/' := by simpa [eq_comm] using no_slash
    have point : c ≠ '.' := by simpa using not_point
    simp [lead, slash, point]
  | c :: d :: more =>
    have slash : c ≠ '/' ∧ d ≠ '/' := by
      simp only [List.mem_cons, not_or] at no_slash
      exact ⟨Ne.symm no_slash.1, Ne.symm no_slash.2.1⟩
    simp [lead, slash.1, slash.2]

theorem join_names {dir name : String} (plain : IsName dir) (proper : IsName name) :
    (join dir name).toList = dir.toList ++ '/' :: name.toList := by
  have relative := isAbsolute_of_no_slash proper.no_slash
  have filled : dir ≠ "" := fun same => plain.nonempty (by simp [same])
  have closed : dir.toList.getLast? ≠ some '/' := fun same =>
    plain.no_slash (List.mem_of_getLast? same)
  simp [join, relative, filled, closed]

theorem parent?_join {dir name : String} (plain : IsName dir) (proper : IsName name) :
    parent? (join dir name) = some dir := by
  have no_lead := lead_name plain name.toList
  have body_eq : body (join dir name).toList = dir.toList ++ ['/'] ++ name.toList := by
    rw [join_names plain proper, body, no_lead, List.length_nil, List.drop_zero]
    simp
  have idle : reversedBody (join dir name) = (dir.toList ++ ['/'] ++ name.toList).reverse := by
    rw [reversedBody, body_eq]
    exact dropIdle_name (.inr (by simp)) proper
  have before : beforePart (dir.toList ++ ['/'] ++ name.toList).reverse = dir.toList.reverse := by
    simp [beforePart, List.dropWhile_append_of_pos proper.not_slash]
  have alone := dropIdle_name (.inl rfl) plain
  rw [List.nil_append] at alone
  have filled : (dir.toList ++ ['/'] ++ name.toList).reverse ≠ [] := by simp
  rw [parent?, idle]
  simp only [filled, if_false, before, alone, join_names plain proper, no_lead]
  simp

/-- What is left without its idle parts is empty or ends in a part that says something. -/
theorem dropIdle_spec (reversed : List Char) :
    dropIdle reversed = [] ∨
      (lastPart (dropIdle reversed) ≠ [] ∧ lastPart (dropIdle reversed) ≠ ['.']) := by
  fun_induction dropIdle reversed with
  | case1 => exact .inl rfl
  | case2 reversed _ _ ih => exact ih
  | case3 reversed _ telling => exact .inr (not_or.mp telling)

theorem no_slash_lastPart (reversed : List Char) : '/' ∉ lastPart reversed := by
  intro member
  have other := List.all_eq_true.mp List.all_takeWhile _ (List.mem_reverse.mp member)
  simp at other

theorem isName_of_fileName? {path name : String} (found : fileName? path = some name) :
    IsName name := by
  simp only [fileName?] at found
  split at found
  · contradiction
  · rename_i named
    obtain ⟨filled, points⟩ := not_or.mp named
    obtain rfl := Option.some.inj found
    obtain empty | ⟨nonempty, point⟩ := dropIdle_spec (body path.toList).reverse
    · exact absurd empty filled
    · refine ⟨?_, ?_, ?_, ?_⟩ <;> rw [String.toList_ofList]
      · exact nonempty
      · exact no_slash_lastPart _
      · exact point
      · exact points

/-- Stem and extension with the point between them are the whole name. -/
theorem splitName_spec (name : String) :
    (splitName name).1 ++ ((splitName name).2.map fun e => "." ++ e).getD "" = name := by
  obtain ⟨cs, rfl⟩ : ∃ cs, name = String.ofList cs := ⟨name.toList, String.ofList_toList.symm⟩
  simp only [splitName, String.toList_ofList]
  split
  · simp
  · rename_i stem
    have parted := List.takeWhile_append_dropWhile (p := (· != '.')) (l := cs.reverse)
    cases pointed : cs.reverse.dropWhile (· != '.') with
    | nil => simp [pointed] at stem
    | cons c rest =>
      have point : c = '.' := by
        have first := List.head?_dropWhile_not (· != '.') cs.reverse
        simpa [pointed] using first
      subst point
      rw [pointed] at parted
      have whole : cs = rest.reverse ++ '.' :: (cs.reverse.takeWhile (· != '.')).reverse := by
        have turned := congrArg List.reverse parted
        simpa [List.append_assoc] using turned.symm
      apply String.toList_injective
      simpa using whole.symm

end Telemetry.Path
