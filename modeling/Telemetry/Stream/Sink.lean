import Telemetry.Sink.Basic
import Telemetry.Stream.Queue

/-! The stream as a sink: records go to the queue, and jobs send what waits there. -/
namespace Telemetry.Stream.Queue

variable {S : Type}

/-- Takes a record in. One whose envelope is too large is given up, and so is one
that finds the queue full, which is reported. -/
def accept (r : Record) (g : Stage S Queue) : Stage S Queue :=
  let q := g.state.countExpected
  match q.body? g.world.wall r with
  | none => { g with state := q.countDropped }
  | some body =>
    if q.isFull then
      { g with state := q.countDropped }.report "streaming" "enqueue"
        ("queue full at " ++ toString q.settings.capacity ++ " events")
    else { g with state := { q with bodies := q.bodies ++ [body] } }

/-- Work on the queue alone. -/
def onState {β : Type} (f : Queue → β × Queue) (g : Stage S Queue) : β × Stage S Queue :=
  let (b, q) := f g.state
  (b, { g with state := q })

instance : Duty Queue Transmission where
  name _ := "streaming"
  operation _ := "transmit"
  intervalName _ := "auto-flush interval"
  period q := some q.settings.intervalMs
  hasNotice _ := false
  takeNotice q := q
  wake? := wake?
  abandon job q := q.leave job.ticket
  patience q := (q.endpoint.replies.map (·.delay)).sum
  rounds q := q.bodies.length

instance : Work S Queue Transmission where
  accept := accept
  begin now := onState (begin now)
  resume now job := onState (resume now job)

end Telemetry.Stream.Queue
