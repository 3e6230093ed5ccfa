import Telemetry.Trace.Budget

/-! The library's own log: what it says about itself, and where the tracing
transport writes. Lines are values; `level` and `fields` give their form. -/
namespace Telemetry.Journal

inductive Level
  | trace
  | debug
  | info
  | warn
  | error
deriving DecidableEq, Repr

def Level.name : Level → String
  | .trace => "TRACE"
  | .debug => "DEBUG"
  | .info => "INFO"
  | .warn => "WARN"
  | .error => "ERROR"

inductive Line
  /-- A failure of a sink. Failures before it that were not told are counted in
  `suppressed`. -/
  | failure (sink operation error : String) (total suppressed : Nat)
  /-- A record that the tracing transport wrote. -/
  | traced (entry : Trace.Entry)
  /-- A record that was given up because even its least form was refused. -/
  | dropped (event : String) (size limit : Nat) (error : String)
deriving DecidableEq, Repr

/-- The level at which the tracing transport writes a record. -/
def levelOf : Severity → Level
  | .trace => .trace
  | .information => .info
  | .warning => .warn
  | .error => .error
  | .critical => .error

def Line.level : Line → Level
  | .failure .. => .warn
  | .traced entry => levelOf entry.severity
  | .dropped .. => .debug

/-- The fields of a line, the message last. -/
def Line.fields : Line → List (String × Json)
  | .failure sink operation error total suppressed =>
    [("sink", .str sink), ("operation", .str operation), ("error", .str error),
      ("total_failures", .int total)]
    ++ (if suppressed = 0 then [("message", .str "telemetry sink failure")]
      else [("suppressed", .int suppressed),
        ("message", .str "telemetry sink failure (rate-limited)")])
  | .traced entry =>
    [("activity_id", .str entry.activity.text),
      ("parent_activity_id", .str (entry.parent.getD .nil).text),
      ("name", .str entry.name), ("payload", .str entry.payload),
      ("constrained", .bool entry.constrained), ("constrain_failed", .bool entry.constrainFailed),
      ("message", .str "telemetry")]
  | .dropped event size limit error =>
    [("event", .str event), ("size", .int size), ("limit", .int limit), ("error", .str error),
      ("message", .str "dropping oversized trace record")]

end Telemetry.Journal
