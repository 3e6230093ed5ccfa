import Telemetry.Config.Format

/-! Which configurations can be used.
A section that is off may hold anything. Of several things that are wrong the first
one is told. -/
namespace Telemetry.Config

/-- What may be wrong with a configuration, in the order in which it is looked for,
and whether it is. -/
def problems (c : Config) : List (Bool × String) :=
  [(c.flushTimeoutMs == 0, "flush_timeout_ms must be greater than 0"),
    (c.csv.enabled && (Path.stem? c.csv.path).isNone, "rolling_csv.path must name a file"),
    (c.csv.enabled && c.csv.maxFileSize == 0,
      "rolling_csv.max_file_size_bytes must be greater than 0"),
    (c.csv.enabled && c.csv.flushIntervalMs == 0,
      "rolling_csv.flush_interval_ms must be greater than 0"),
    (c.marker.enabled && c.marker.path == "", "marker_file.path cannot be empty"),
    (c.summary.enabled && c.summary.path == "", "summary_file.path cannot be empty"),
    (c.summary.enabled && c.summary.flushIntervalMs == 0,
      "summary_file.flush_interval_ms must be greater than 0"),
    (c.realtime.enabled && decide (c.realtime.maxEventBytes.toNat < Trace.minEventBytes),
      "realtime.max_event_bytes must be at least " ++ toString Trace.minEventBytes),
    (c.stream.enabled && c.stream.autoFlushIntervalMs == 0,
      "streaming.auto_flush_interval_ms must be greater than 0")]
    ++ c.sampling.entries.map fun e =>
      (e.2 == 0, "sampling rate for '" ++ e.1 ++ "' must be greater than 0")

def problem? (c : Config) : Option String :=
  (c.problems.find? (·.1)).map (·.2)

def check (c : Config) : Except Fault Unit :=
  match c.problem? with
  | some problem => .error (.invalidConfiguration problem)
  | none => .ok ()

def ofText (text : String) : Except Fault Config :=
  match ofText? text with
  | none => .error (.invalidConfiguration "invalid JSON")
  | some c => c.check.map fun _ => c

inductive ReadFailure
  | missing
  | notText
deriving DecidableEq, Repr

def ReadFailure.message : ReadFailure → String
  | .missing => "No such file or directory (os error 2)"
  | .notText => "stream did not contain valid UTF-8"

/-- Reads a configuration that can be used from a file, of which the content is
given, if it could be read. -/
def ofFile (path : String) (content : Except ReadFailure String) : Except Fault Config :=
  match content with
  | .ok text => ofText text
  | .error failure =>
    .error (.invalidConfiguration
      ("failed to read config file '" ++ path ++ "': " ++ failure.message))

end Telemetry.Config
