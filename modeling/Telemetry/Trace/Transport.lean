import Telemetry.World

/-! Transports that take records of the real-time trace. -/
namespace Telemetry.Trace

/-- A transport of type `τ` in surroundings with a storage of type `S`. -/
class Transport (S τ : Type) where
  write : Entry → τ → World S → Except TransportFault Unit × τ × World S

/-- The transport that writes records to the log. Larger ones than its limit are
refused. -/
structure LogTransport where
  limit : Nat
deriving DecidableEq, Repr

def LogTransport.standard : LogTransport := ⟨maxEventBytes⟩

instance {S : Type} : Transport S LogTransport where
  write r t w :=
    if t.limit < r.size then (.error (.oversized r.size t.limit), t, w)
    else (.ok (), t, w.tell (.traced r))

/-- A transport that keeps what it was given, the last record first. It may be closed
for some records to come, and it may refuse large ones. -/
structure MemoryTransport where
  closedFor : Nat
  limit : Option Nat
  entries : List Entry
deriving DecidableEq, Repr

namespace MemoryTransport

/-- Why a record is refused, if it is. -/
def refusal? (t : MemoryTransport) (r : Entry) : Option TransportFault :=
  if 0 < t.closedFor then some (.unavailable "session closed")
  else
    match t.limit with
    | none => none
    | some limit => if limit < r.size then some (.oversized r.size limit) else none

def keep (t : MemoryTransport) (r : Entry) : MemoryTransport :=
  { t with closedFor := t.closedFor - 1, entries := r :: t.entries }

instance {S : Type} : Transport S MemoryTransport where
  write r t w :=
    match t.refusal? r with
    | some fault => (.error fault, t.keep r, w)
    | none => (.ok (), t.keep r, w)

end MemoryTransport
end Telemetry.Trace
