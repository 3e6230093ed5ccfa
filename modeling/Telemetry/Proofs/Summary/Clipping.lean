import Mathlib.Data.List.Forall2
import Telemetry.Proofs.Summary.Rows

/-! The output of a process in a report.
Of a long output the first three and the last three lines are shown, around a mark. Each shown
line is indented and has at most 158 characters, so there is room for it behind the stamp, and
it is exactly one row of the details of the process. -/
namespace Telemetry.Summary

theorem isCut_shown (line : List Char) :
    Text.IsCut outputWidth line (if line = [] then [[]] else Text.chunks outputWidth line) := by
  split
  · rename_i empty
    rw [empty]
    exact ⟨rfl, List.forall_mem_singleton.mpr (Nat.zero_le _), nofun, List.cons_ne_nil _ _,
      fun filled => absurd rfl filled⟩
  · rename_i filled
    exact Text.isCut_chunks (by decide) filled

/-- The lines of an output that are shown are the pieces of its lines. -/
theorem displayLines_cut (output : String) : ∃ lines groups,
    Text.HasLines output.toList lines ∧ List.Forall₂ (Text.IsCut outputWidth) lines groups ∧
      displayLines output = groups.flatten := by
  refine ⟨Text.linesList output.toList, _, Text.hasLines_linesList _, ?_, rfl⟩
  rw [List.forall₂_map_right_iff, List.forall₂_same]
  intro line _
  exact isCut_shown line

theorem mem_displayLines {output : String} {piece : List Char}
    (member : piece ∈ displayLines output) : piece.length ≤ 150 ∧ '\n' ∉ piece := by
  obtain ⟨line, ofOutput, member⟩ := List.mem_flatMap.mp member
  have cut := isCut_shown line
  refine ⟨cut.short piece member, fun feed => ?_⟩
  apply (Text.hasLines_linesList _).one line ofOutput
  rw [← cut.whole]
  exact List.mem_flatten.mpr ⟨piece, member, feed⟩

/-- What becomes of an output: nothing is noted as such, few lines are all shown, and of many
lines the first and the last three, with some left out between them. -/
inductive Clipped (shown : List (List Char)) : List String → Prop
  | none (nothing : shown = []) : Clipped shown ["        (none)"]
  | all (filled : shown ≠ []) (few : shown.length ≤ 6) : Clipped shown (shown.map outputLine)
  | edges {first middle last : List (List Char)} (parts : shown = first ++ middle ++ last)
    (three : first.length = 3) (omitted : middle ≠ []) (ends : last.length = 3) :
    Clipped shown (first.map outputLine ++ ["                ... (output truncated) ..."] ++
      last.map outputLine)

theorem exists_middle {shown : List (List Char)} {edge : Nat} (many : 2 * edge < shown.length) :
    ∃ middle, middle ≠ [] ∧
      shown = shown.take edge ++ middle ++ shown.drop (shown.length - edge) := by
  refine ⟨(shown.drop edge).take (shown.length - 2 * edge), ?_, ?_⟩
  · apply List.ne_nil_of_length_pos
    rw [List.length_take, List.length_drop]
    omega
  · have behind : shown.drop (shown.length - edge) =
        (shown.drop edge).drop (shown.length - 2 * edge) := by
      rw [List.drop_drop]
      congr 1
      omega
    rw [behind, List.append_assoc, List.take_append_drop, List.take_append_drop]

theorem clipped_clipOutput (output : String) :
    Clipped (displayLines output) (clipOutput output) := by
  unfold clipOutput
  simp only
  generalize displayLines output = shown
  split
  · rename_i nothing
    exact .none nothing
  · rename_i filled
    split
    · rename_i few
      exact .all filled few
    · rename_i few
      have many : 2 * outputEdge < shown.length := Nat.lt_of_not_le few
      have edge : outputEdge ≤ shown.length := by omega
      obtain ⟨middle, omitted, parts⟩ := exists_middle many
      apply Clipped.edges parts (List.length_take_of_le edge) omitted
      rw [List.length_drop]
      exact Nat.sub_sub_self edge

/-- A line that is shown of an output: short, with characters, and without a line feed. -/
structure IsShown (line : String) : Prop where
  short : line.length ≤ 158
  filled : line.toList ≠ []
  one : '\n' ∉ line.toList

theorem isShown_outputLine {output : String} {piece : List Char}
    (member : piece ∈ displayLines output) : IsShown (outputLine piece) := by
  obtain ⟨short, one⟩ := mem_displayLines member
  have tab : outputTab.length = 8 := by decide
  constructor
  · rw [outputLine, String.length_append, String.length_ofList]
    omega
  · rw [outputLine, String.toList_append]
    exact List.append_ne_nil_of_left_ne_nil (by decide) _
  · rw [outputLine, String.toList_append, String.toList_ofList]
    exact List.not_mem_append (by decide) one

theorem Clipped.isShown {shown : List (List Char)} {lines : List String}
    (clipped : Clipped shown lines) (pieces : ∀ piece ∈ shown, IsShown (outputLine piece)) :
    ∀ line ∈ lines, IsShown line := by
  cases clipped with
  | none _ => exact List.forall_mem_singleton.mpr ⟨by decide, by decide, by decide⟩
  | all _ _ => exact List.forall_mem_map.mpr pieces
  | edges parts _ _ _ =>
    intro line member
    rcases List.mem_append.mp member with front | last
    · rcases List.mem_append.mp front with first | mark
      · obtain ⟨piece, listed, rfl⟩ := List.mem_map.mp first
        apply pieces
        rw [parts]
        exact List.mem_append_left _ (List.mem_append_left _ listed)
      · rw [List.mem_singleton.mp mark]
        exact ⟨by decide, by decide, by decide⟩
    · obtain ⟨piece, listed, rfl⟩ := List.mem_map.mp last
      apply pieces
      rw [parts]
      exact List.mem_append_right _ listed

theorem isShown_clipOutput (output : String) : ∀ line ∈ clipOutput output, IsShown line :=
  (clipped_clipOutput output).isShown fun _ member => isShown_outputLine member

theorem Clipped.length_le {shown : List (List Char)} {lines : List String}
    (clipped : Clipped shown lines) : lines.length ≤ 7 := by
  cases clipped with
  | none _ => decide
  | all _ few =>
    rw [List.length_map]
    exact Nat.le_succ_of_le few
  | edges _ three _ ends =>
    simp only [List.length_append, List.length_map, List.length_singleton]
    omega

/-- A line for which there is room behind the stamp is one row. -/
theorem messageRows_line {at_ : Instant} {line : String} (filled : line.toList ≠ [])
    (one : '\n' ∉ line.toList) (fits : (stamp at_).toList.length + line.length ≤ rowWidth) :
    messageRows at_ line = [(stamp at_).toList ++ line.toList] := by
  have room : line.toList.length ≤ rowWidth - (stamp at_).toList.length := by
    rw [String.length_toList]
    omega
  rw [messageRows, Text.linesList_line filled one, List.flatMap_singleton, lineRows,
    Text.chunks_of_fits filled room]
  rfl

theorem blockRows_shown {at_ : Instant} (dated : at_.Dated) {lines : List String}
    (shown : ∀ line ∈ lines, IsShown line) :
    blockRows at_ (lines.map .line) = lines.map fun line => (stamp at_).toList ++ line.toList := by
  have width := length_stamp_le dated
  have limit : rowWidth = 250 := rfl
  induction lines with
  | nil => rfl
  | cons line lines ih =>
    obtain ⟨first, shown⟩ := List.forall_mem_cons.mp shown
    obtain ⟨short, filled, one⟩ := first
    have row : (Item.line line).rows at_ = [(stamp at_).toList ++ line.toList] :=
      messageRows_line filled one (by omega)
    rw [List.map_cons, List.map_cons, blockRows, List.flatMap_cons, row, List.singleton_append]
    exact congrArg _ (ih shown)

/-- The output of a process that an event tells of, by the name of the stream. -/
def processOutput (e : Event) (stream : String) : String :=
  nestedText (e.property? "process") stream

theorem processBlock_spec (e : Event) : ∃ front, processBlock e = front ++
    (("    Standard Output:" :: clipOutput (processOutput e "standardOutput")) ++
      ("    Standard Error:" :: clipOutput (processOutput e "standardError"))).map .line := by
  have output : tab ++ "Standard Output:" = "    Standard Output:" := by decide
  have error : tab ++ "Standard Error:" = "    Standard Error:" := by decide
  refine ⟨(processBlock e).take 6, ?_⟩
  simp [processBlock, processOutput, output, error]

/-- The rows of the details of a process end in those of its two outputs, of which each line
that is shown is one. -/
theorem blockRows_process {at_ : Instant} (dated : at_.Dated) (e : Event) :
    ∃ front, blockRows at_ (processBlock e) = front ++
      (("    Standard Output:" :: clipOutput (processOutput e "standardOutput")) ++
        ("    Standard Error:" :: clipOutput (processOutput e "standardError"))).map
        fun line => (stamp at_).toList ++ line.toList := by
  have heading : IsShown "    Standard Output:" ∧ IsShown "    Standard Error:" :=
    ⟨⟨by decide, by decide, by decide⟩, ⟨by decide, by decide, by decide⟩⟩
  obtain ⟨front, block⟩ := processBlock_spec e
  refine ⟨blockRows at_ front, ?_⟩
  rw [← blockRows_shown dated, block]
  · exact List.flatMap_append
  · intro line member
    rcases List.mem_append.mp member with output | error
    · exact List.forall_mem_cons.mpr ⟨heading.1, isShown_clipOutput _⟩ line output
    · exact List.forall_mem_cons.mpr ⟨heading.2, isShown_clipOutput _⟩ line error

/-- The details of a process. -/
def Occurrence.isProcess (x : Occurrence) : Bool :=
  x.id.isIn .trace && Text.endsFold x.id.label ".ProcessDetails"

theorem not_profile_of_process {id : EventId}
    (process : Text.endsFold id.label ".ProcessDetails" = true) :
    Text.sameFold id.label "ProfileExecution.Begin" = false := by
  refine Bool.eq_false_iff.mpr fun profile => ?_
  rw [Text.endsFold, (Text.sameFold_iff _ _).mp profile] at process
  revert process
  decide

theorem Occurrence.role_process_iff {x : Occurrence} :
    roleOf x.id = .process ↔ x.isProcess = true := by
  grind [roleOf, isProcess, EventId.category_unique, not_profile_of_process]

/-- Whatever the output of a process is: its lines are cut into pieces of 150 characters, and of
more than six pieces the first and the last three are shown. So at most seven lines are shown,
and none is longer than 158 characters. Whatever event a block of process details is made of, and
at whatever moment, each line that is shown of its outputs is exactly one row of it, behind the
stamp; and an event that tells the details of a process adds this block to a report. -/
theorem output_clipped (output : String) {x : Occurrence} (dated : x.moment.Dated) :
    (∃ lines groups, Text.HasLines output.toList lines ∧
      List.Forall₂ (Text.IsCut 150) lines groups ∧ Clipped groups.flatten (clipOutput output)) ∧
    (clipOutput output).length ≤ 7 ∧ (∀ line ∈ clipOutput output, line.length ≤ 158) ∧
    (∃ front : List (List Char),
      Text.splitFeeds (blockText x.moment (processBlock x.event)).toList = front ++
        (("    Standard Output:" :: clipOutput (processOutput x.event "standardOutput")) ++
          ("    Standard Error:" :: clipOutput (processOutput x.event "standardError"))).map
          (fun line => (stamp x.moment).toList ++ line.toList) ++ [[]]) ∧
    (x.isProcess = true → ∀ r : Report,
      (r.take x).text = r.text ++ blockText x.moment (processBlock x.event)) := by
  refine ⟨?_, (clipped_clipOutput output).length_le, fun line member => ?_, ?_, fun tells r => ?_⟩
  · obtain ⟨lines, groups, has, cut, shown⟩ := displayLines_cut output
    refine ⟨lines, groups, has, cut, ?_⟩
    rw [← shown]
    exact clipped_clipOutput output
  · exact (isShown_clipOutput output line member).short
  · obtain ⟨front, rows⟩ := blockRows_process dated x.event
    refine ⟨front, ?_⟩
    rw [splitFeeds_blockText dated, rows]
  · have block : r.blockOf x.id x.event = processBlock x.event := by
      simp only [Report.blockOf, Occurrence.role_process_iff.mpr tells]
    rw [← block]
    rfl

/-- An output with a line of 151 characters, an empty one and five more. -/
theorem output_clipped_to_edges :
    let output := String.ofList (List.replicate 151 'x' ++ "\n\na\nb\nc\nd\ne".toList)
    let x : Occurrence := ⟨.ofCategory .trace "Run.ProcessDetails",
      (Event.ofActivity .nil).withProperty "process" (.map [("standardOutput", .text output)]),
      ⟨1709993107, 123456789⟩⟩
    let row (line : String) := "2024-03-09 14:05:07.123  |  ".toList ++ line.toList
    x.moment.Dated ∧ x.isProcess = true ∧
      clipOutput output = ["        " ++ String.ofList (List.replicate 150 'x'), "        x",
        "        ", "                ... (output truncated) ...", "        c", "        d",
        "        e"] ∧
      ∃ front, Text.splitFeeds (Report.empty.take x).text.toList = front ++
        (("    Standard Output:" :: clipOutput output) ++
          ["    Standard Error:", "        (none)"]).map row ++ [[]] := by
  intro output x row
  have dated : x.moment.Dated := ⟨by decide, by decide⟩
  have tells : x.isProcess = true := by decide
  have shown : clipOutput output = ["        " ++ String.ofList (List.replicate 150 'x'),
      "        x", "        ", "                ... (output truncated) ...", "        c",
      "        d", "        e"] := by
    have pieces : displayLines output =
        [List.replicate 150 'x', ['x'], [], ['a'], ['b'], ['c'], ['d'], ['e']] := by
      rw [displayLines, String.toList_ofList]
      decide +kernel
    rw [clipOutput, pieces]
    decide +kernel
  obtain ⟨_, _, _, ⟨front, rows⟩, adds⟩ := output_clipped output dated
  refine ⟨dated, tells, shown, front, ?_⟩
  have told : processOutput x.event "standardOutput" = output := by decide +kernel
  have silent : clipOutput (processOutput x.event "standardError") = ["        (none)"] := by
    decide +kernel
  have moment : (stamp x.moment).toList = "2024-03-09 14:05:07.123  |  ".toList := by
    decide +kernel
  have nothing : Report.empty.text = "" := rfl
  rw [told, silent, moment] at rows
  rw [adds tells, nothing, String.empty_append]
  exact rows

end Telemetry.Summary
