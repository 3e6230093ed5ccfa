import Telemetry.Route
import Telemetry.Sink.Basic
import Telemetry.Text.Escape

/-! Channels: a sink, the tests that records have to pass on their way to it, and the
reporter of its failures.
Whatever a sink does with a record, the channel goes on; refusals and breakdowns are
reported. A flush or a stop of the sink is given up a second after its own time
limit. -/
namespace Telemetry

/-- A flush or a stop of a channel's sink that is under way. -/
structure Channel.Call where
  /-- What is under way, as reports call it. -/
  operation : String
  timeout : Span
  deadline : Tick

/-- A sink of type `α` behind its tests. -/
structure Channel (α : Type) where
  sink : α
  routes : List Route
  minSeverity : Option Severity
  reporter : FailureReport
  call : Option Channel.Call

namespace Channel

variable {S α : Type}

/-- A channel that passes all records on. -/
def ofSink (sink : α) : Channel α := ⟨sink, [], none, .standard, none⟩

def withRoute (c : Channel α) (route : Route) : Channel α :=
  { c with routes := route :: c.routes }

def withMinSeverity (c : Channel α) (severity : Severity) : Channel α :=
  { c with minSeverity := some severity }

def withReporter (c : Channel α) (reporter : FailureReport) : Channel α :=
  { c with reporter := reporter }

def failures (c : Channel α) : Nat :=
  c.reporter.total

/-- The record is serious enough, and all routes pass it on. -/
def admits (c : Channel α) (r : Record) : Bool :=
  (match c.minSeverity with
    | none => true
    | some least => r.severity.isAtLeast least)
  && c.routes.all fun route => route.passes r

/-- How long a sink may exceed its time limit. -/
def margin : Tick := 1000

variable [Sink S α]

def name (c : Channel α) : String :=
  Sink.name c.sink

/-- The channel as it stands in descriptions of loggers. -/
def describe (c : Channel α) : String :=
  let severity := match c.minSeverity with
    | none => "None"
    | some s => "Some(" ++ s.title ++ ")"
  "Channel \x7b sink: " ++ Text.shown c.name ++ ", min_severity: " ++ severity ++ ", .. \x7d"

def report (c : Channel α) (operation error : String) (w : World S) : Channel α × World S :=
  let (reporter, w) := w.report c.reporter c.name operation error
  ({ c with reporter := reporter }, w)

/-- Hands a record to the sink if it passes the tests. -/
def dispatch (r : Record) (c : Channel α) (w : World S) : Channel α × World S :=
  if c.admits r then
    match Sink.log r c.sink w with
    | (.accepted, sink, w) => ({ c with sink := sink }, w)
    | (.refused fault, sink, w) => { c with sink := sink }.report "log" fault.message w
    | (.panicked text, sink, w) =>
      { c with sink := sink }.report "log" ("sink panicked: " ++ text.getD "unknown panic") w
  else (c, w)

/-- The channel without its call, of which the sink is told. -/
def endCall (c : Channel α) : Channel α :=
  { c with sink := Sink.endCall c.sink, call := none }

/-- Ends the call under way if it has a result or if its deadline has come. -/
def conclude (now : Tick) (c : Channel α) (w : World S) : Channel α × World S :=
  match c.call with
  | none => (c, w)
  | some call =>
    match Sink.result? c.sink with
    | some (.ok ()) => (c.endCall, w)
    | some (.error fault) => c.endCall.report call.operation fault.message w
    | none =>
      if call.deadline ≤ now then
        c.endCall.report call.operation (Fault.timeout call.timeout).message w
      else (c, w)

/-- The channel with a call under way from now on. -/
def expecting (operation : String) (now : Tick) (timeout : Span) (c : Channel α) : Channel α :=
  { c with call := some ⟨operation, timeout, now + timeout.ticks + margin⟩ }

def beginFlush (now : Tick) (timeout : Span) (c : Channel α) (w : World S) :
    Channel α × World S :=
  let (sink, w) := Sink.beginFlush now timeout c.sink w
  ({ c with sink := sink }.expecting "flush" now timeout).conclude now w

def beginStop (now : Tick) (timeout : Span) (c : Channel α) (w : World S) :
    Channel α × World S :=
  let (sink, w) := Sink.beginStop now timeout c.sink w
  ({ c with sink := sink }.expecting "stop" now timeout).conclude now w

def pollCall (now : Tick) (c : Channel α) (w : World S) : Channel α × World S :=
  if c.call.isSome then
    let (sink, w) := Sink.pollCall now c.sink w
    { c with sink := sink }.conclude now w
  else (c, w)

/-- Goes on with the background tasks of the sink. -/
def pollTasks (now : Tick) (c : Channel α) (w : World S) : Channel α × World S :=
  let (sink, w) := Sink.pollTasks now c.sink w
  ({ c with sink := sink }, w)

def due (c : Channel α) : Option Tick :=
  earliest (Sink.due c.sink) (c.call.map (·.deadline))

end Channel
end Telemetry
