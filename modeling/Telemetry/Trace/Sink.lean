import Telemetry.Sink.Basic
import Telemetry.Trace.Transport

/-! The real-time trace as a sink. Each record is written while it is taken in, so
there is nothing to start, to flush or to stop. -/
namespace Telemetry.Trace

/-- A trace with a transport of type `τ`, in surroundings with a storage of type
`S`. -/
structure Realtime (S τ : Type) where
  transport : τ
  budget : Budget

namespace Realtime

variable {S τ : Type} [Transport S τ]

def write (t : Realtime S τ) (r : Entry) (w : World S) :
    Except TransportFault Unit × Realtime S τ × World S :=
  let (result, transport, w) := Transport.write r t.transport w
  (result, { t with transport := transport }, w)

/-- Writes a record in its least form, because it was too large. When that is refused
as well the record is given up, which is not a failure. -/
def writeMinimal (t : Realtime S τ) (r : Record) (size limit : Nat) (w : World S) :
    Answer × Realtime S τ × World S :=
  match t.write (Budget.minimal r.id.label r.severity r.toEvent) w with
  | (.ok (), t, w) => (.accepted, t, w)
  | (.error fault, t, w) => (.accepted, t, w.tell (.dropped r.id.label size limit fault.message))

def log (t : Realtime S τ) (r : Record) (w : World S) : Answer × Realtime S τ × World S :=
  match t.write (t.budget.serialize r.id.label r.severity r.toEvent) w with
  | (.ok (), t, w) => (.accepted, t, w)
  | (.error (.oversized size limit), t, w) => t.writeMinimal r size limit w
  | (.error fault, t, w) => (.refused (.transport fault), t, w)

instance : Sink S (Realtime S τ) where
  name _ := "realtime"
  log r t w := t.log r w
  start _ _ t := (.ok (), t)
  beginFlush _ _ t w := (t, w)
  beginStop _ _ t w := (t, w)
  result? _ := some (.ok ())
  endCall t := t
  due _ := none
  pollCall _ t w := (t, w)
  pollTasks _ t w := (t, w)
  rounds _ := 0
  latest now _ _ := now

end Realtime
end Telemetry.Trace
