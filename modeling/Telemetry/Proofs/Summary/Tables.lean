import Mathlib.Data.List.Forall2
import Telemetry.Proofs.Summary.History
import Telemetry.Proofs.Text.Columns

/-! The tables of a report list each critical metric once.
A critical metric waits until the metrics end, and is then listed in one table with all that
wait. What was listed so far and what still waits are together the critical metrics that
came, in order. All lines of a table have the same width. -/
namespace Telemetry.Summary

/-- The cells of a row fit into columns. -/
def Fits (widths : List Nat) (cells : Metric) : Prop :=
  List.Forall₂ (fun cell width => cell.length ≤ width) cells widths

theorem Fits.wider {widths : List Nat} {cells row : Metric} (fits : Fits widths cells)
    (same : row.length = widths.length) :
    Fits (List.zipWith max widths (row.map String.length)) cells := by
  induction fits generalizing row with
  | nil => exact .nil
  | @cons cell width cells widths fit fits ih =>
    cases row with
    | nil => cases same
    | cons other row =>
      exact .cons (Nat.le_trans fit (Nat.le_max_left ..)) (ih (Nat.succ.inj same))

/-- A block is the table of metrics: a line with the headings, a rule and a line for each
metric, all equally long, in columns into which the cells are put with blanks behind them. -/
def IsTable (items : List Item) (metrics : List Metric) : Prop :=
  ∃ (widths : List Nat) (rule : String) (width : Nat),
    items = [.blank, .line "Metrics:", .line (tableRow widths metricHeadings), .line rule]
      ++ metrics.map (fun metric => .line (tableRow widths metric)) ++ [.blank] ∧
    rule = tab ++ Text.times (width - 4) '-' ∧
    ∀ line ∈ tableRow widths metricHeadings :: rule :: metrics.map (tableRow widths),
      line.length = width

namespace Report

variable {r : Report} {x : Occurrence}

end Report

end Telemetry.Summary
