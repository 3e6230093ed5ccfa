import Telemetry.Summary.Block

/-! Critical metrics and the table that lists them. All rows of a table have the
same width, which its widest cells give. -/
namespace Telemetry.Summary

/-- A metric that is to be listed: scenario, name, value and unit. -/
abbrev Metric := List String

/-- The metric of an event is critical: its verbosity is zero. -/
def isCritical (e : Event) : Bool :=
  match e.property? "metricVerbosity" with
  | some (.integer n) => n == 0
  | some (.text s) => Text.trim s == "0"
  | _ => false

def metricOf (e : Event) : Metric :=
  ["scenarioName", "metricName", "metricValue", "metricUnit"].map (eventText e)

/-- Names of the columns of a table of metrics. -/
def metricHeadings : Metric := ["Scenario", "Name", "Value", "Unit"]

/-- The width of each column: that of its widest cell. -/
def columnWidths (rows : List Metric) : List Nat :=
  rows.foldl (fun widths row => List.zipWith max widths (row.map String.length))
    (metricHeadings.map String.length)

def tableRow (widths : List Nat) (cells : Metric) : String :=
  tab ++ String.join (List.zipWith (fun cell width => "| " ++ Text.padTo width cell ++ " ")
    cells widths) ++ "|"

/-- The block with the table of the given metrics. -/
def metricsBlock (metrics : List Metric) : List Item :=
  let widths := columnWidths metrics
  [.blank, .line "Metrics:", .line (tableRow widths metricHeadings),
    .line (tab ++ Text.times (widths.sum + 13) '-')]
  ++ metrics.map (fun row => .line (tableRow widths row))
  ++ [.blank]

end Telemetry.Summary
