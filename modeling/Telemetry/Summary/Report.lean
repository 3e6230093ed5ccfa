import Telemetry.Summary.Metric
import Telemetry.Summary.Outcome
import Telemetry.Summary.Output

/-! The report of a run, put together from its events.
An event adds a block of items or nothing. Outcomes of components and critical
metrics are also kept: metrics until the table that lists them, outcomes for
every closing table. The revision counts the blocks that were added. -/
namespace Telemetry.Summary

/-- The kinds of the components of a profile: of each entry the type that it
states, else its key. -/
def componentTypes : Value → String
  | .map entries =>
    String.intercalate "," (entries.map fun e =>
      match e.2.asMap?.bind fun m => Properties.get? ⟨m⟩ "type" with
      | some v => v.display
      | none => e.1)
  | v => v.display

def profileBlock (e : Event) : List Item :=
  [.line ("Agent Version: " ++ eventText e "appVersion"),
    .line ("Client Id: " ++ eventText e "clientId"),
    .line ("Profile: " ++ eventText e "executionProfile"),
    .line ("Execution Arguments: " ++ eventText e "executionArguments"),
    .line ("Experiment Id: " ++ eventText e "experimentId")]
  ++ [("Dependencies", "executionProfileDependencies"), ("Actions", "executionProfileActions"),
      ("Monitors", "executionProfileMonitors")].filterMap fun (label, key) =>
    (e.property? key).map fun v => .line (label ++ ": " ++ componentTypes v)

def processBlock (e : Event) : List Item :=
  let process := e.property? "process"
  [rule '-', .line "Process Details",
    .line (tab ++ "PID          : " ++ nestedText process "id"),
    .line (tab ++ "Working Dir  : " ++ nestedText process "workingDir"),
    .line (tab ++ "Command      : " ++ nestedText process "command"),
    .line (tab ++ "Exit Code    : " ++ nestedText process "exitCode"),
    .line (tab ++ "Standard Output:")]
  ++ (clipOutput (nestedText process "standardOutput")).map .line
  ++ [.line (tab ++ "Standard Error:")]
  ++ (clipOutput (nestedText process "standardError")).map .line

/-- The block of an error; the name of the event stands for a missing text. -/
def errorBlock (name : String) (e : Event) : List Item :=
  let error := e.property? "error"
  let message := nestedText error "errorMessage"
  [.line "*** Error ***",
    .line (tab ++ "Error Type: " ++ nestedText error "errorType"),
    .line (tab ++ "Error Message: " ++ (if message = "" then name else message))]
  ++ ((e.property? "errorCallstack").map fun v =>
      Item.line (tab ++ "Error Call Stack: " ++ v.display)).toList
  ++ [.blank]

inductive Role
  | outcome
  | metric
  | table
  | error
  | profile
  | process
  | closing
  | other
deriving DecidableEq, Repr

/-- The role of an event, by its category and its name without regard to case. -/
def roleOf (id : EventId) : Role :=
  let name := id.label
  if id.isIn .metric then
    if Text.endsFold name "SucceededOrFailed" then .outcome
    else if Text.endsFold name "ScenarioResult" then .metric
    else .other
  else if id.isIn .metricsCollection then
    if Text.endsFold name "LogMetricsEnd" then .table else .other
  else if id.isIn .error then .error
  else if id.isIn .trace then
    if Text.sameFold name "ProfileExecution.Begin" then .profile
    else if Text.endsFold name ".ProcessDetails" then .process
    else if Text.startsFold name "Exit Code: " then .closing
    else .other
  else .other

structure Report where
  text : String
  revision : Nat
  outcomes : List Outcome
  metrics : List Metric
deriving Repr

namespace Report

def empty : Report := ⟨"", 0, [], []⟩

def blockOf (r : Report) (id : EventId) (e : Event) : List Item :=
  match roleOf id with
  | .outcome => outcomeBlock e
  | .table => if r.metrics = [] then [] else metricsBlock r.metrics
  | .error => errorBlock id.label e
  | .profile => profileBlock e
  | .process => processBlock e
  | .closing => closingBlock r.outcomes id.label
  | .metric | .other => []

def outcomesAfter (r : Report) (id : EventId) (e : Event) : List Outcome :=
  if roleOf id = .outcome then r.outcomes ++ [outcomeOf e] else r.outcomes

/-- The metrics that are to be listed after an event. -/
def metricsAfter (r : Report) (id : EventId) (e : Event) : List Metric :=
  match roleOf id with
  | .metric => if isCritical e then r.metrics ++ [metricOf e] else r.metrics
  | .table => []
  | _ => r.metrics

def apply (r : Report) (id : EventId) (e : Event) (at_ : Instant) : Report :=
  let added := blockText at_ (r.blockOf id e)
  { text := r.text ++ added
    revision := if added = "" then r.revision else r.revision + 1
    outcomes := r.outcomesAfter id e
    metrics := r.metricsAfter id e }

end Report

/-- The categories that the report is made from. -/
def categories : List Category := [.metric, .metricsCollection, .error, .trace]

/-- A record is one for the report: an event of its categories. -/
def accepts (r : Record) : Bool :=
  r.isTelemetry && categories.any r.id.isIn

end Telemetry.Summary
