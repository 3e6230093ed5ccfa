import Telemetry.Event
import Telemetry.EventId
import Telemetry.Severity

/-! What is handed to sinks: a named record with a severity, which carries
either an event or a plain message. -/
namespace Telemetry

inductive Payload
  | event (e : Event)
  | message (text : String)
deriving Repr, Inhabited

structure Record where
  id : EventId
  severity : Severity
  payload : Payload
deriving Repr, Inhabited

namespace Record

def isTelemetry (r : Record) : Bool :=
  match r.payload with
  | .event _ => true
  | .message _ => false

def event? (r : Record) : Option Event :=
  match r.payload with
  | .event e => some e
  | .message _ => none

/-- The event that stands for the record where only events are understood: a
message becomes a property of an event without activity. -/
def toEvent (r : Record) : Event :=
  match r.payload with
  | .event e => e
  | .message text => (Event.ofActivity .nil).withProperty "message" (.text text)

end Record
end Telemetry
