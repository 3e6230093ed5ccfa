import Telemetry.Csv.Sink
import Telemetry.Dictionary
import Telemetry.Marker.Sink
import Telemetry.Severity
import Telemetry.Stream.Envelope
import Telemetry.Summary.Sink
import Telemetry.Trace.Budget

/-! The configuration of a pipeline: one section for each kind of channel, how to
retry, and which samplings there are. Whole numbers are words of the width that
their setting has. -/
namespace Telemetry.Config

structure CsvSection where
  enabled : Bool
  path : String
  maxFileSize : UInt64
  flushIntervalMs : UInt64
  minSeverity : Severity
deriving DecidableEq

def CsvSection.standard : CsvSection where
  enabled := true
  path := Csv.Settings.standard.path
  maxFileSize := UInt64.ofNat Csv.Settings.standard.maxFileSize
  flushIntervalMs := UInt64.ofNat Csv.Settings.standard.intervalMs
  minSeverity := .trace

/-- The marker file; overrides take the place of what is found. -/
structure MarkerSection where
  enabled : Bool
  path : String
  overrides : Dictionary String
deriving DecidableEq

def MarkerSection.standard : MarkerSection := ⟨true, Marker.Settings.standard.file, .empty⟩

structure SummarySection where
  enabled : Bool
  path : String
  flushIntervalMs : UInt64
deriving DecidableEq

def SummarySection.standard : SummarySection where
  enabled := true
  path := Summary.Settings.standard.file
  flushIntervalMs := UInt64.ofNat Summary.Settings.standard.intervalMs

structure RealtimeSection where
  enabled : Bool
  minSeverity : Severity
  maxEventBytes : UInt64
deriving DecidableEq

def RealtimeSection.standard : RealtimeSection :=
  ⟨true, .information, UInt64.ofNat Trace.maxEventBytes⟩

/-- The stream, which is off unless it is asked for. -/
structure StreamSection where
  enabled : Bool
  minSeverity : Severity
  maxCapacity : UInt64
  autoFlushIntervalMs : UInt64
  diagnostics : Bool
deriving DecidableEq

def StreamSection.standard : StreamSection where
  enabled := false
  minSeverity := .information
  maxCapacity := UInt64.ofNat Stream.Settings.standard.capacity
  autoFlushIntervalMs := UInt64.ofNat Stream.Settings.standard.intervalMs
  diagnostics := Stream.Settings.standard.diagnostics

structure RetrySection where
  maxRetries : UInt32
  backoffMs : UInt64
deriving DecidableEq

def RetrySection.standard : RetrySection := ⟨5, 1000⟩

def RetrySection.policy (s : RetrySection) : RetryPolicy :=
  ⟨s.maxRetries.toNat, Span.ofMillis s.backoffMs.toNat⟩

example : RetrySection.standard.policy = .standard := by decide

end Config

structure Config where
  flushTimeoutMs : UInt64
  csv : Config.CsvSection
  marker : Config.MarkerSection
  summary : Config.SummarySection
  realtime : Config.RealtimeSection
  stream : Config.StreamSection
  retry : Config.RetrySection
  /-- The rate of each sampling. -/
  sampling : Dictionary UInt64
deriving DecidableEq

namespace Config

def standard : Config where
  flushTimeoutMs := 60000
  csv := .standard
  marker := .standard
  summary := .standard
  realtime := .standard
  stream := .standard
  retry := .standard
  sampling := .empty

/-- The configurations are equal, where paths are compared by their parts. -/
def agrees (a b : Config) : Bool :=
  Path.same a.csv.path b.csv.path && Path.same a.marker.path b.marker.path
    && Path.same a.summary.path b.summary.path
    && { a with
        csv := { a.csv with path := b.csv.path }
        marker := { a.marker with path := b.marker.path }
        summary := { a.summary with path := b.summary.path } } == b

/-- The directory of the table, in which the other files lie too. -/
def logDirectory (c : Config) : String :=
  (Path.parent? c.csv.path).getD "."

end Config
end Telemetry
