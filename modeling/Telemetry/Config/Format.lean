import Telemetry.Config.Basic
import Telemetry.Json.Fields

/-! The JSON form of configurations.
What is written names every setting. What is read may leave settings out, which
then have their standard values, and may hold members of other names. -/
namespace Telemetry.Config

open Json (Document Fields)

/-- A word of 64 bits. -/
def word? (d : Document) : Option UInt64 :=
  (d.nat? (2 ^ 64)).map UInt64.ofNat

/-- A word of 32 bits. -/
def halfWord? (d : Document) : Option UInt32 :=
  (d.nat? (2 ^ 32)).map UInt32.ofNat

def severity? (d : Document) : Option Severity :=
  d.choice?.bind Severity.ofName?

/-- A dictionary, in which the last member of a key counts. -/
def dictionary? {α : Type} (read : Document → Option α) (d : Document) : Option (Dictionary α) :=
  (d.entries? read).map Dictionary.ofList

def ofWord (n : UInt64) : Json := .int n.toNat

def ofSeverity (s : Severity) : Json := .str s.name

def ofDictionary {α : Type} (f : α → Json) (d : Dictionary α) : Json :=
  .obj (d.entries.map fun e => (e.1, f e.2))

namespace CsvSection

def toJson (s : CsvSection) : Json :=
  .obj [("enabled", .bool s.enabled), ("path", .str s.path),
    ("max_file_size_bytes", ofWord s.maxFileSize), ("flush_interval_ms", ofWord s.flushIntervalMs),
    ("min_severity", ofSeverity s.minSeverity)]

def ofDocument? (d : Document) : Option CsvSection := do
  let f ← Fields.ofDocument?
    ["enabled", "path", "max_file_size_bytes", "flush_interval_ms", "min_severity"] d
  some {
    enabled := ← f.read "enabled" Document.bool? standard.enabled
    path := ← f.read "path" Document.text? standard.path
    maxFileSize := ← f.read "max_file_size_bytes" word? standard.maxFileSize
    flushIntervalMs := ← f.read "flush_interval_ms" word? standard.flushIntervalMs
    minSeverity := ← f.read "min_severity" severity? standard.minSeverity }

end CsvSection

namespace MarkerSection

def toJson (s : MarkerSection) : Json :=
  .obj [("enabled", .bool s.enabled), ("path", .str s.path),
    ("overrides", ofDictionary .str s.overrides)]

def ofDocument? (d : Document) : Option MarkerSection := do
  let f ← Fields.ofDocument? ["enabled", "path", "overrides"] d
  some {
    enabled := ← f.read "enabled" Document.bool? standard.enabled
    path := ← f.read "path" Document.text? standard.path
    overrides := ← f.read "overrides" (dictionary? Document.text?) standard.overrides }

end MarkerSection

namespace SummarySection

def toJson (s : SummarySection) : Json :=
  .obj [("enabled", .bool s.enabled), ("path", .str s.path),
    ("flush_interval_ms", ofWord s.flushIntervalMs)]

def ofDocument? (d : Document) : Option SummarySection := do
  let f ← Fields.ofDocument? ["enabled", "path", "flush_interval_ms"] d
  some {
    enabled := ← f.read "enabled" Document.bool? standard.enabled
    path := ← f.read "path" Document.text? standard.path
    flushIntervalMs := ← f.read "flush_interval_ms" word? standard.flushIntervalMs }

end SummarySection

namespace RealtimeSection

def toJson (s : RealtimeSection) : Json :=
  .obj [("enabled", .bool s.enabled), ("min_severity", ofSeverity s.minSeverity),
    ("max_event_bytes", ofWord s.maxEventBytes)]

def ofDocument? (d : Document) : Option RealtimeSection := do
  let f ← Fields.ofDocument? ["enabled", "min_severity", "max_event_bytes"] d
  some {
    enabled := ← f.read "enabled" Document.bool? standard.enabled
    minSeverity := ← f.read "min_severity" severity? standard.minSeverity
    maxEventBytes := ← f.read "max_event_bytes" word? standard.maxEventBytes }

end RealtimeSection

namespace StreamSection

def toJson (s : StreamSection) : Json :=
  .obj [("enabled", .bool s.enabled), ("min_severity", ofSeverity s.minSeverity),
    ("max_capacity", ofWord s.maxCapacity),
    ("auto_flush_interval_ms", ofWord s.autoFlushIntervalMs), ("diagnostics", .bool s.diagnostics)]

def ofDocument? (d : Document) : Option StreamSection := do
  let f ← Fields.ofDocument?
    ["enabled", "min_severity", "max_capacity", "auto_flush_interval_ms", "diagnostics"] d
  some {
    enabled := ← f.read "enabled" Document.bool? standard.enabled
    minSeverity := ← f.read "min_severity" severity? standard.minSeverity
    maxCapacity := ← f.read "max_capacity" word? standard.maxCapacity
    autoFlushIntervalMs := ← f.read "auto_flush_interval_ms" word? standard.autoFlushIntervalMs
    diagnostics := ← f.read "diagnostics" Document.bool? standard.diagnostics }

end StreamSection

namespace RetrySection

def toJson (s : RetrySection) : Json :=
  .obj [("max_retries", .int s.maxRetries.toNat), ("backoff_ms", ofWord s.backoffMs)]

def ofDocument? (d : Document) : Option RetrySection := do
  let f ← Fields.ofDocument? ["max_retries", "backoff_ms"] d
  some {
    maxRetries := ← f.read "max_retries" halfWord? standard.maxRetries
    backoffMs := ← f.read "backoff_ms" word? standard.backoffMs }

end RetrySection

def toJson (c : Config) : Json :=
  .obj [("flush_timeout_ms", ofWord c.flushTimeoutMs), ("rolling_csv", c.csv.toJson),
    ("marker_file", c.marker.toJson), ("summary_file", c.summary.toJson),
    ("realtime", c.realtime.toJson), ("streaming", c.stream.toJson), ("retry", c.retry.toJson),
    ("sampling", ofDictionary ofWord c.sampling)]

def ofDocument? (d : Document) : Option Config := do
  let f ← Fields.ofDocument? ["flush_timeout_ms", "rolling_csv", "marker_file", "summary_file",
    "realtime", "streaming", "retry", "sampling"] d
  some {
    flushTimeoutMs := ← f.read "flush_timeout_ms" word? standard.flushTimeoutMs
    csv := ← f.read "rolling_csv" CsvSection.ofDocument? standard.csv
    marker := ← f.read "marker_file" MarkerSection.ofDocument? standard.marker
    summary := ← f.read "summary_file" SummarySection.ofDocument? standard.summary
    realtime := ← f.read "realtime" RealtimeSection.ofDocument? standard.realtime
    stream := ← f.read "streaming" StreamSection.ofDocument? standard.stream
    retry := ← f.read "retry" RetrySection.ofDocument? standard.retry
    sampling := ← f.read "sampling" (dictionary? word?) standard.sampling }

/-- Reads a configuration, which need not be a sensible one. -/
def ofText? (text : String) : Option Config := do
  ofDocument? (← Document.ofText? text)

end Telemetry.Config
