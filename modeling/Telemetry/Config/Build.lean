import Telemetry.Config.Check
import Telemetry.Logger.Basic
import Telemetry.Sampling
import Telemetry.Sink.Sum
import Telemetry.Stream.Sink
import Telemetry.Trace.Sink

/-! The logger and the samplings that a configuration asks for. -/
namespace Telemetry

/-- The sinks of configured loggers: tables of metrics, marker files, summary files,
real-time traces and streams. -/
abbrev Device (S : Type) :=
  Service S Csv.Table Pause ⊕ Service S Marker.File Marker.Writing
    ⊕ Service S Summary.File Pause ⊕ Trace.Realtime S Trace.LogTransport
    ⊕ Service S Stream.Queue Stream.Transmission

namespace Device

variable {S : Type}

def table (t : Csv.Table) : Device S := .inl (.ofState t)

def marker (m : Marker.File) : Device S := .inr (.inl (.ofState m))

def summary (s : Summary.File) : Device S := .inr (.inr (.inl (.ofState s)))

def realtime (t : Trace.Realtime S Trace.LogTransport) : Device S := .inr (.inr (.inr (.inl t)))

def stream (q : Stream.Queue) : Device S := .inr (.inr (.inr (.inr (.ofState q))))

def queue? : Device S → Option Stream.Queue
  | .inr (.inr (.inr (.inr s))) => some s.state
  | _ => none

end Device

namespace Config

variable {S : Type}

/-- A value where a section is on. -/
def whenEnabled {β : Type} (enabled : Bool) (value : β) : List β :=
  if enabled then [value] else []

def csvSettings (c : Config) : Csv.Settings where
  path := c.csv.path
  maxFileSize := c.csv.maxFileSize.toNat
  intervalMs := c.csv.flushIntervalMs.toNat
  retry := c.retry.policy

def markerSettings (c : Config) : Marker.Settings where
  directory := c.logDirectory
  file := c.marker.path
  overrides := .ofList (c.marker.overrides.entries.map fun e => (e.1, .text e.2))
  retry := c.retry.policy

def summarySettings (c : Config) : Summary.Settings where
  directory := c.logDirectory
  file := c.summary.path
  intervalMs := c.summary.flushIntervalMs.toNat
  retry := c.retry.policy

def streamSettings (c : Config) : Stream.Settings where
  capacity := max c.stream.maxCapacity.toNat Stream.minCapacity
  intervalMs := c.stream.autoFlushIntervalMs.toNat
  diagnostics := c.stream.diagnostics
  maxBytes := Stream.maxEventBytes

/-- Metrics go to the table. -/
def csvChannel (c : Config) (host : Host) : Channel (Device S) :=
  (Channel.ofSink (.table (.ofSettings c.csvSettings host.machineName))).withRoute
    (.category .metric) |>.withMinSeverity c.csv.minSeverity

/-- The marker file is for records of every kind. -/
def markerChannel (c : Config) (agent : Agent) (host : Host) : Channel (Device S) :=
  .ofSink (.marker (.ofSettings c.markerSettings agent host))

def summaryChannel (c : Config) : Channel (Device S) :=
  (Channel.ofSink (.summary (.ofSettings c.summarySettings))).withRoute (.custom Summary.accepts)

/-- The transport and the budget have the same limit. -/
def realtimeChannel (c : Config) : Channel (Device S) :=
  let limit := c.realtime.maxEventBytes.toNat
  (Channel.ofSink (.realtime ⟨⟨limit⟩, ⟨limit⟩⟩)).withRoute .traces
    |>.withMinSeverity c.realtime.minSeverity

def streamChannel (c : Config) (host : Host) (endpoint : Stream.Endpoint) : Channel (Device S) :=
  (Channel.ofSink (.stream (.ofSettings c.streamSettings host.machineName endpoint))).withRoute
    .telemetry |>.withMinSeverity c.stream.minSeverity

/-- The channel of a stream, which needs an endpoint. -/
def streamChannels (c : Config) (host : Host) :
    Option Stream.Endpoint → Except Fault (List (Channel (Device S)))
  | some endpoint => .ok (whenEnabled c.stream.enabled (c.streamChannel host endpoint))
  | none =>
    if c.stream.enabled then
      .error (.invalidConfiguration "streaming is enabled but no stream client was provided")
    else .ok []

/-- The logger of a configuration that can be used, with a channel for each section
that is on. -/
def logger (c : Config) (agent : Agent) (host : Host) (endpoint : Option Stream.Endpoint) :
    Except Fault (Logger (Device S)) := do
  c.check
  let streams ← c.streamChannels host endpoint
  .ok {
    channels := whenEnabled c.csv.enabled (c.csvChannel host)
      ++ whenEnabled c.marker.enabled (c.markerChannel agent host)
      ++ whenEnabled c.summary.enabled c.summaryChannel
      ++ whenEnabled c.realtime.enabled c.realtimeChannel
      ++ streams
    flushTimeout := Span.ofMillis c.flushTimeoutMs.toNat }

/-- The samplings, none of which has counted anything. -/
def samplings (c : Config) : Except Fault Sampling.Registry :=
  c.sampling.entries.foldlM (fun r e => do
    let (created, r) := r.getOrCreate e.1 e.2.toNat
    let _ ← created
    .ok r) .empty

end Config
end Telemetry
