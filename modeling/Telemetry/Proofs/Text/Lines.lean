import Mathlib.Data.List.Basic
import Telemetry.Text.Lines

/-! Lines of a text and pieces of a line.
The lines of a text are those that its line feeds end, with a carriage return that stands
directly before a line feed as part of the end, and what comes behind the last line feed.
Rows without line feeds are found again where one stands behind each of them. A line that is
cut gives full pieces and a last one that is no longer, and these are the line again. -/
namespace Telemetry.Text

/-- A text and the lines in it. The last line may lack its end. -/
inductive HasLines : List Char → List (List Char) → Prop
  | nil : HasLines [] []
  | last {line : List Char} (filled : line ≠ []) (one : '\n' ∉ line) : HasLines line [line]
  | feed {line rest : List Char} {lines : List (List Char)} (one : '\n' ∉ line)
    (bare : line.getLast? ≠ some '\r') (others : HasLines rest lines) :
    HasLines (line ++ '\n' :: rest) (line :: lines)
  | returnFeed {line rest : List Char} {lines : List (List Char)} (one : '\n' ∉ line)
    (others : HasLines rest lines) : HasLines (line ++ '\r' :: '\n' :: rest) (line :: lines)

theorem splitFeeds_ne_nil (cs : List Char) : splitFeeds cs ≠ [] := by
  cases cs with
  | nil => exact List.cons_ne_nil _ _
  | cons c rest =>
    unfold splitFeeds
    split
    · exact List.cons_ne_nil _ _
    · split
      · exact List.cons_ne_nil _ _
      · exact List.cons_ne_nil _ _

theorem splitFeeds_line {line : List Char} (one : '\n' ∉ line) : splitFeeds line = [line] := by
  induction line with
  | nil => rfl
  | cons c rest ih =>
    have other : c ≠ '\n' := Ne.symm (List.ne_of_not_mem_cons one)
    rw [splitFeeds, if_neg other, ih (List.not_mem_of_not_mem_cons one)]

theorem splitFeeds_append {line : List Char} (one : '\n' ∉ line) (rest : List Char) :
    splitFeeds (line ++ '\n' :: rest) = line :: splitFeeds rest := by
  induction line with
  | nil => rfl
  | cons c line ih =>
    have other : c ≠ '\n' := Ne.symm (List.ne_of_not_mem_cons one)
    rw [List.cons_append, splitFeeds, if_neg other, ih (List.not_mem_of_not_mem_cons one)]

/-- Rows that are ended by line feeds are found again, with nothing behind the last one. -/
theorem splitFeeds_rows {rows : List (List Char)} (one : ∀ row ∈ rows, '\n' ∉ row) :
    splitFeeds (rows.flatMap (· ++ ['\n'])) = rows ++ [[]] := by
  induction rows with
  | nil => rfl
  | cons row rows ih =>
    obtain ⟨first, others⟩ := List.forall_mem_cons.mp one
    rw [List.flatMap_cons, List.append_assoc, List.singleton_append, splitFeeds_append first,
      ih others, List.cons_append]

theorem dropReturn_concat (line : List Char) : dropReturn (line ++ ['\r']) = line := by
  rw [dropReturn, List.reverse_append, List.reverse_singleton, List.singleton_append]
  exact List.reverse_reverse line

theorem dropReturn_bare {line : List Char} (bare : line.getLast? ≠ some '\r') :
    dropReturn line = line := by
  unfold dropReturn
  split
  · rename_i rest reversed
    rw [List.getLast?_eq_head?_reverse, reversed] at bare
    exact absurd rfl bare
  · rfl

theorem linesList_line {line : List Char} (filled : line ≠ []) (one : '\n' ∉ line) :
    linesList line = [line] := by
  simp [linesList, splitFeeds_line one, filled]

theorem linesList_append {line : List Char} (one : '\n' ∉ line) (rest : List Char) :
    linesList (line ++ '\n' :: rest) = dropReturn line :: linesList rest := by
  obtain ⟨first, others, pieces⟩ := List.exists_cons_of_ne_nil (splitFeeds_ne_nil rest)
  simp [linesList, splitFeeds_append one, pieces]

theorem hasLines_linesList (cs : List Char) : HasLines cs (linesList cs) := by
  -- By the length of the text: its first line feed ends a line, and what is behind it is shorter.
  induction length : cs.length using Nat.strongRecOn generalizing cs with
  | ind n ih =>
    by_cases feeds : '\n' ∈ cs
    · obtain ⟨line, rest, rfl, one⟩ := List.eq_append_cons_of_mem feeds
      have others : HasLines rest (linesList rest) := by
        refine ih rest.length ?_ rest rfl
        rw [← length, List.length_append, List.length_cons]
        omega
      rw [linesList_append one]
      by_cases ends : line.getLast? = some '\r'
      · obtain ⟨line, rfl⟩ := List.getLast?_eq_some_iff.mp ends
        rw [dropReturn_concat, List.append_assoc, List.singleton_append]
        exact .returnFeed (fun member => one (List.mem_append_left _ member)) others
      · rw [dropReturn_bare ends]
        exact .feed one ends others
    · by_cases filled : cs = []
      · subst filled
        exact .nil
      · rw [linesList_line filled feeds]
        exact .last filled feeds

/-- A text has one list of lines only. -/
theorem hasLines_iff {cs : List Char} {lines : List (List Char)} :
    HasLines cs lines ↔ lines = linesList cs := by
  constructor
  · intro has
    induction has with
    | nil => rfl
    | last filled one => exact (linesList_line filled one).symm
    | feed one bare _ ih => rw [linesList_append one, dropReturn_bare bare, ih]
    | @returnFeed line rest lines one _ ih =>
      have whole : '\n' ∉ line ++ ['\r'] := by
        intro member
        rcases List.mem_append.mp member with inside | last
        · exact one inside
        · cases List.mem_singleton.mp last
      have parted : line ++ '\r' :: '\n' :: rest = (line ++ ['\r']) ++ '\n' :: rest := by
        rw [List.append_assoc, List.singleton_append]
      rw [parted, linesList_append whole, dropReturn_concat, ih]
  · rintro rfl
    exact hasLines_linesList cs

theorem HasLines.one {cs : List Char} {lines : List (List Char)} (has : HasLines cs lines) :
    ∀ line ∈ lines, '\n' ∉ line := by
  induction has with
  | nil => nofun
  | last _ one => exact List.forall_mem_singleton.mpr one
  | feed one _ _ ih => exact List.forall_mem_cons.mpr ⟨one, ih⟩
  | returnFeed one _ ih => exact List.forall_mem_cons.mpr ⟨one, ih⟩

/-- A line and the pieces that it is cut into: all are full but the last one, and none is
empty except the single piece of an empty line. -/
structure IsCut (width : Nat) (line : List Char) (pieces : List (List Char)) : Prop where
  whole : pieces.flatten = line
  short : ∀ piece ∈ pieces, piece.length ≤ width
  full : ∀ piece ∈ pieces.dropLast, piece.length = width
  inhabited : pieces ≠ []
  filled : line ≠ [] → [] ∉ pieces

theorem chunks_nil (width : Nat) : chunks width [] = [] := by
  rw [chunks, if_pos rfl]

theorem chunks_of_ne_nil {width : Nat} (wide : 0 < width) {line : List Char}
    (filled : line ≠ []) :
    chunks width line = line.take width :: chunks width (line.drop width) := by
  rw [chunks, if_neg filled, Nat.max_eq_left wide]

theorem chunks_of_fits {width : Nat} {line : List Char} (filled : line ≠ [])
    (fits : line.length ≤ width) : chunks width line = [line] := by
  have wide : 0 < width := Nat.lt_of_lt_of_le (List.length_pos_of_ne_nil filled) fits
  rw [chunks_of_ne_nil wide filled, List.take_of_length_le fits, List.drop_of_length_le fits,
    chunks_nil]

theorem isCut_chunks {width : Nat} (wide : 0 < width) {line : List Char} (filled : line ≠ []) :
    IsCut width line (chunks width line) := by
  -- By the length of the line: a line that does not fit loses a full piece, and is not empty then.
  induction length : line.length using Nat.strongRecOn generalizing line with
  | ind n ih =>
    have positive : 0 < line.length := List.length_pos_of_ne_nil filled
    by_cases fits : line.length ≤ width
    · rw [chunks_of_fits filled fits]
      exact ⟨List.append_nil line, List.forall_mem_singleton.mpr fits, nofun, List.cons_ne_nil _ _,
        fun _ empty => filled (List.mem_singleton.mp empty).symm⟩
    · have more : line.drop width ≠ [] := by
        rw [ne_eq, List.drop_eq_nil_iff]
        exact fits
      have first : (line.take width).length = width := List.length_take_of_le (by omega)
      have shorter : (line.drop width).length < n := by
        rw [List.length_drop]
        omega
      obtain ⟨whole, short, full, inhabited, others⟩ := ih _ shorter more rfl
      rw [chunks_of_ne_nil wide filled]
      constructor
      · rw [List.flatten_cons, whole, List.take_append_drop]
      · exact List.forall_mem_cons.mpr ⟨Nat.le_of_eq first, short⟩
      · rw [List.dropLast_cons_of_ne_nil inhabited]
        exact List.forall_mem_cons.mpr ⟨first, full⟩
      · exact List.cons_ne_nil _ _
      · intro _ empty
        rcases List.mem_cons.mp empty with here | behind
        · rw [← here] at first
          exact Nat.ne_of_lt wide first
        · exact others more behind

end Telemetry.Text
