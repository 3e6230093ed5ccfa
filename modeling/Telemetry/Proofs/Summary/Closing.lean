import Telemetry.Proofs.Summary.Tables

/-! The table that closes a run lists how each component ended.
Outcomes are kept apart from the text, so every closing table has a line for each of them, in
the order in which they came. The separator before the outcome stands in one column. -/
namespace Telemetry.Summary

theorem width_le_outcomeWidth {outcomes : List Outcome} {o : Outcome} (member : o ∈ outcomes) :
    o.width ≤ outcomeWidth outcomes :=
  Nat.le_add_right_of_le (Text.le_foldl_max Outcome.width 0 member)

/-- A line for an outcome: the component and its scenario, with blanks up to a column, and
behind a separator there how it ended. -/
def IsComponentLine (column : Nat) (line : String) (x : Occurrence) : Prop :=
  ∃ (front : String) (blanks : Nat),
    front = "Component: " ++ eventText x.event "toolName" ++ " -> " ++
      eventText x.event "scenarioName" ++ " " ++ Text.spaces blanks ∧
    front.length = column ∧
    line = front ++ " | " ++
      (if eventText x.event "metricName" = "Succeeded" then "PASS" else "* Failed *") ++ " |"

theorem isComponentLine_line (x : Occurrence) {width : Nat}
    (fits : (outcomeOf x.event).width ≤ width) :
    IsComponentLine (width + 16) ((outcomeOf x.event).line width) x := by
  have names : (outcomeOf x.event).component = eventText x.event "toolName" ∧
      (outcomeOf x.event).scenario = eventText x.event "scenarioName" := ⟨rfl, rfl⟩
  have word : (outcomeOf x.event).word =
      if eventText x.event "metricName" = "Succeeded" then "PASS" else "* Failed *" := by
    simp only [Outcome.word, outcomeOf, beq_iff_eq]
  obtain ⟨front, spelled⟩ : ∃ front, front =
      "Component: " ++ eventText x.event "toolName" ++ " -> " ++
        eventText x.event "scenarioName" ++ " " ++
          Text.spaces (width - (outcomeOf x.event).width) :=
    ⟨_, rfl⟩
  refine ⟨front, width - (outcomeOf x.event).width, spelled, ?_, ?_⟩
  · have frame : "Component: ".length = 11 ∧ " -> ".length = 4 ∧ " ".length = 1 := by decide
    rw [Outcome.width, names.1, names.2] at fits spelled
    rw [spelled]
    simp only [String.length_append, Text.length_spaces]
    omega
  · unfold Outcome.line
    rw [spelled, word, names.1, names.2]

/-- A block that closes a run: between two rules a line for each outcome, with the separators
in one column, and behind them the line of the exit. -/
def Closes (items : List Item) (exitLine : String) (outcomes : List Occurrence) : Prop :=
  ∃ (column : Nat) (lines : List String),
    items = [rule '*'] ++ lines.map .line ++ [.line exitLine, rule '*'] ∧
    List.Forall₂ (IsComponentLine column) lines outcomes

theorem closes_closingBlock (exitLine : String) (outcomes : List Occurrence) :
    Closes (closingBlock (outcomes.map fun x => outcomeOf x.event) exitLine) exitLine outcomes := by
  let listed := outcomes.map fun x => outcomeOf x.event
  refine ⟨outcomeWidth listed + 16, listed.map (Outcome.line (outcomeWidth listed)), ?_, ?_⟩
  · simp only [closingBlock, listed, List.map_map, Function.comp_def]
  · rw [List.forall₂_map_left_iff, List.forall₂_map_left_iff, List.forall₂_same]
    intro x member
    exact isComponentLine_line x (width_le_outcomeWidth (List.mem_map_of_mem member))

namespace Report

variable {r : Report} {x : Occurrence}

theorem take_outcomes (r : Report) (x : Occurrence) :
    (r.take x).outcomes =
      r.outcomes ++ ([x].filter Occurrence.isOutcome).map fun x => outcomeOf x.event := by
  have role := Occurrence.role_outcome_iff (x := x)
  simp only [take, apply, outcomesAfter]
  by_cases outcome : x.isOutcome = true
  · simp [role.mpr outcome, outcome]
  · simp [mt role.mp outcome, outcome]

theorem outcomes_ofHistory (history : List Occurrence) :
    (ofHistory history).outcomes =
      (history.filter Occurrence.isOutcome).map fun x => outcomeOf x.event := by
  induction history using List.reverseRecOn with
  | nil => rfl
  | append_singleton history x ih =>
    rw [ofHistory_concat, take_outcomes, ih, List.filter_append, List.map_append]

end Report

/-- Whatever events a report gets: it keeps the outcomes of components, and the exit of a run
adds a block with a line for each of them, in order and under each other. Only a metric that
says how a component ended changes what is kept. The details of a process are no exit, however
their name begins. -/
theorem closing_table_lists_outcomes (history : List Occurrence) :
    let r := Report.ofHistory history
    let outcomes := history.filter Occurrence.isOutcome
    r.outcomes = outcomes.map (fun x => outcomeOf x.event) ∧
    (∀ x : Occurrence, x.isExit = true →
      (r.take x).text = r.text ++ blockText x.moment (r.blockOf x.id x.event) ∧
        Closes (r.blockOf x.id x.event) x.id.label outcomes) ∧
    ∀ x : Occurrence, x.isOutcome = false → (r.take x).outcomes = r.outcomes := by
  intro r outcomes
  have kept : r.outcomes = outcomes.map (fun x => outcomeOf x.event) :=
    Report.outcomes_ofHistory history
  refine ⟨kept, fun x exits => ⟨rfl, ?_⟩, fun x other => ?_⟩
  · have block : r.blockOf x.id x.event = closingBlock r.outcomes x.id.label := by
      simp only [Report.blockOf, Occurrence.role_closing_iff.mpr exits]
    rw [block, kept]
    exact closes_closingBlock x.id.label outcomes
  · rw [Report.take_outcomes]
    simp [other]

/-- The details of a process named like an exit are added as such. -/
theorem process_details_named_exit :
    let e : Event := .ofActivity .nil
    let outcome : Occurrence := ⟨.ofCategory .metric "SucceededOrFailed", e, ⟨0, 0⟩⟩
    let x : Occurrence := ⟨.ofCategory .trace "Exit Code: 0.ProcessDetails", e, ⟨0, 0⟩⟩
    outcome.isOutcome = true ∧ x.id.isIn .trace = true ∧
      Text.startsFold x.id.label "Exit Code: " = true ∧
      ¬ Closes ((Report.ofHistory [outcome]).blockOf x.id x.event) x.id.label [outcome] := by
  intro e outcome x
  refine ⟨by decide, by decide, by decide, ?_⟩
  rintro ⟨column, lines, same, _⟩
  have first : ((Report.ofHistory [outcome]).blockOf x.id x.event).head? = some (rule '-') := by
    decide +kernel
  rw [same] at first
  have other : rule '*' ≠ rule '-' := by decide
  exact other (Option.some.inj first)

end Telemetry.Summary
