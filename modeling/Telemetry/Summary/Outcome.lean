import Telemetry.Summary.Block
import Telemetry.Time.Reader

/-! How the components of a run ended, one by one and in the table that closes the
run. -/
namespace Telemetry.Summary

structure Outcome where
  component : String
  scenario : String
  passed : Bool
deriving DecidableEq, Repr

def instantOf : Option Value → Option Instant
  | some (.instant t) => some t
  | some (.text s) => Instant.ofText? s
  | _ => none

/-- Hours, minutes, seconds and milliseconds between two instants, and zero when
they are in the wrong order. -/
def elapsedText (start finish : Instant) : String :=
  let ms := (finish.millisSince start).toNat
  Instant.digits 2 (ms / 3600000) ++ ":" ++ Instant.digits 2 (ms / 60000 % 60) ++ ":"
    ++ Instant.digits 2 (ms / 1000 % 60) ++ "." ++ Instant.digits 3 (ms % 1000)

def Outcome.word (o : Outcome) : String :=
  if o.passed then "PASS" else "* Failed *"

/-- The characters of the names of a component and its scenario. -/
def Outcome.width (o : Outcome) : Nat :=
  o.component.length + o.scenario.length

/-- The line of a closing table for an outcome. -/
def Outcome.line (width : Nat) (o : Outcome) : String :=
  "Component: " ++ o.component ++ " -> " ++ o.scenario ++ " " ++ Text.spaces (width - o.width)
    ++ " | " ++ o.word ++ " |"

/-- The width of the names in a closing table. -/
def outcomeWidth (outcomes : List Outcome) : Nat :=
  outcomes.foldl (fun w o => max w o.width) 0 + 10

/-- The block that closes a run. -/
def closingBlock (outcomes : List Outcome) (exitLine : String) : List Item :=
  [rule '*']
  ++ outcomes.map (fun o => .line (o.line (outcomeWidth outcomes)))
  ++ [.line exitLine, rule '*']

def outcomeOf (e : Event) : Outcome where
  component := eventText e "toolName"
  scenario := eventText e "scenarioName"
  passed := eventText e "metricName" == "Succeeded"

def outcomeBlock (e : Event) : List Item :=
  let o := outcomeOf e
  let duration :=
    match instantOf (e.property? "scenarioStartTime"),
        instantOf (e.property? "scenarioEndTime") with
    | some start, some finish => elapsedText start finish
    | _, _ => "unknown"
  [.blank, .line ("Component : " ++ o.component ++ " -> " ++ o.scenario), rule '-',
    .line ("Duration  : " ++ duration), .line ("Outcome   : " ++ o.word), .blank]

end Telemetry.Summary
