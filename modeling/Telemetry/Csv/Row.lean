import Telemetry.Event
import Telemetry.Severity
import Telemetry.Host

/-! Rows of the metrics table.
A row has a field for each column, in the order of `columns`. Every field stands
in quotes, with a quote inside written twice, and a row begins with the line feed
that parts it from what comes before. -/
namespace Telemetry.Csv

/-- Where the text of a column comes from. -/
inductive Column
  | property (key : String)
  /-- The timestamp of the event, or the moment at which the row is made. -/
  | timestamp
  | severityLevel
  | appHost
  | appName
  | appVersion
  | operationId
  | operationParentId
  /-- A nested map, flattened. -/
  | map (key : String)
deriving DecidableEq, Repr

def columns : List (String × Column) :=
  [("Timestamp", .timestamp),
    ("ExperimentId", .property "experimentId"),
    ("ExecutionSystem", .property "executionSystem"),
    ("ProfileName", .property "executionProfileName"),
    ("ClientId", .property "clientId"),
    ("ToolName", .property "toolName"),
    ("ToolVersion", .property "toolVersion"),
    ("ScenarioName", .property "scenarioName"),
    ("ScenarioStartTime", .property "scenarioStartTime"),
    ("ScenarioEndTime", .property "scenarioEndTime"),
    ("MetricName", .property "metricName"),
    ("MetricValue", .property "metricValue"),
    ("MetricUnit", .property "metricUnit"),
    ("MetricCategorization", .property "metricCategorization"),
    ("MetricDescription", .property "metricDescription"),
    ("MetricRelativity", .property "metricRelativity"),
    ("MetricVerbosity", .property "metricVerbosity"),
    ("AppHost", .appHost),
    ("AppName", .appName),
    ("AppVersion", .appVersion),
    ("OperatingSystemPlatform", .property "operatingSystemPlatform"),
    ("PlatformArchitecture", .property "platformArchitecture"),
    ("SeverityLevel", .severityLevel),
    ("OperationId", .operationId),
    ("OperationParentId", .operationParentId),
    ("Metadata", .map "metadata"),
    ("Metadata_Host", .map "metadata_host"),
    ("ToolResults", .property "toolResults"),
    ("Tags", .property "tags")]

def columnNames : List String :=
  columns.map (·.1)

/-- The characters of a field with every quote written twice. -/
def doubleQuotes (cs : List Char) : List Char :=
  cs.flatMap fun c => if c = '"' then ['"', '"'] else [c]

def quote (s : String) : String :=
  String.ofList ('"' :: (doubleQuotes s.toList ++ ['"']))

def line (fields : List String) : String :=
  String.intercalate "," (fields.map quote)

def header : String :=
  line columnNames

/-- The value of a text of decimal digits with an optional sign, if it fits into
64 bits. -/
def signedNumber? (s : String) : Option Int :=
  let (negative, digits) :=
    match s.toList with
    | '-' :: rest => (true, rest)
    | '+' :: rest => (false, rest)
    | cs => (false, cs)
  if digits = [] ∨ ¬ digits.all Char.isDigit then none
  else
    let n : Int := digits.foldl (fun n c => 10 * n + (c.toNat - 48)) (0 : Nat)
    let n := if negative then -n else n
    if -2 ^ 63 ≤ n ∧ n < 2 ^ 63 then some n else none

/-- The severity that a property states, as a level or by name. -/
def statedSeverity : Option Value → Option Severity
  | some (.integer n) => Severity.ofLevel? n
  | some (.text s) =>
    match (signedNumber? s).bind Severity.ofLevel? with
    | some v => some v
    | none => (Severity.ofText s).toOption
  | _ => none

/-- The entries of a map with simple values, as pairs parted by semicolons. -/
def flatten (entries : List (String × Value)) : String :=
  String.intercalate ";"
    ((entries.filter fun e => e.2.isPrimitive).map fun e => e.1 ++ "=" ++ e.2.display)

/-- The text of a property, empty where the event lacks it. -/
def propertyText (e : Event) (key : String) : String :=
  ((e.property? key).map Value.display).getD ""

/-- The text of a column for an event whose row is made at a moment. -/
def columnText (machine : String) (now : Instant) (e : Event) : Column → String
  | .property key => propertyText e key
  | .timestamp =>
    match e.property? "timestamp" with
    | some (.text s) => s
    | some (.instant t) => t.text 6
    | _ => now.text 6
  | .severityLevel =>
    toString ((statedSeverity (e.property? "severityLevel")).getD .standard).level
  | .appHost => machine
  | .appName => Telemetry.appName
  | .appVersion => Telemetry.appVersion
  | .operationId => e.activity.text
  | .operationParentId => (e.parent?.map Identifier.text).getD ""
  | .map key =>
    match e.property? key with
    | some (.map entries) => flatten entries
    | some v => v.display
    | none => ""

def fields (machine : String) (now : Instant) (e : Event) : List String :=
  columns.map fun c => columnText machine now e c.2

/-- The row of an event, with the line feed before it. -/
def row (machine : String) (now : Instant) (e : Event) : String :=
  "\n" ++ line (fields machine now e)

end Telemetry.Csv
