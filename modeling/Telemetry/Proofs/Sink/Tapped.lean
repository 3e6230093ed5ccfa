import Telemetry.Sink.Basic

/-! A sink with a list of the records that it was given and what it answered. -/
namespace Telemetry

structure Tapped (α : Type) where
  sink : α
  /-- The records in the order of their arrival, each with the answer. -/
  calls : List (Record × Answer)

namespace Tapped

variable {S α : Type}

def ofSink (sink : α) : Tapped α := ⟨sink, []⟩

def pass (p : α × World S) (t : Tapped α) : Tapped α × World S :=
  ({ t with sink := p.1 }, p.2)

variable [Sink S α]

def log (r : Record) (t : Tapped α) (w : World S) : Answer × Tapped α × World S :=
  let (answer, sink, w) := Sink.log r t.sink w
  (answer, ⟨sink, t.calls ++ [(r, answer)]⟩, w)

instance : Sink S (Tapped α) where
  name t := Sink.name t.sink
  log := log
  start inRuntime now t :=
    ((Sink.start inRuntime now t.sink).1, { t with sink := (Sink.start inRuntime now t.sink).2 })
  beginFlush now timeout t w := t.pass (Sink.beginFlush now timeout t.sink w)
  beginStop now timeout t w := t.pass (Sink.beginStop now timeout t.sink w)
  result? t := Sink.result? t.sink
  endCall t := { t with sink := Sink.endCall t.sink }
  due t := Sink.due t.sink
  pollCall now t w := t.pass (Sink.pollCall now t.sink w)
  pollTasks now t w := t.pass (Sink.pollTasks now t.sink w)
  rounds t := Sink.rounds t.sink
  latest now t := Sink.latest now t.sink

theorem calls_log (r : Record) (t : Tapped α) (w : World S) :
    (Sink.log r t w).2.1.calls = t.calls ++ [(r, (Sink.log r t w).1)] := rfl

def received (t : Tapped α) : List Record :=
  t.calls.map (·.1)

/-- How often the sink refused a record or broke down. -/
def faults (t : Tapped α) : Nat :=
  t.calls.countP fun call => call.2 ≠ .accepted

end Tapped
end Telemetry
