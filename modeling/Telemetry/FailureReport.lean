import Telemetry.Journal

/-! Reports of failures at a limited rate.
All failures are counted. One is told when none was told before or when the
interval has passed since the last one that was told, and then it says how many
were passed over. -/
namespace Telemetry

/-- The state of one reporter; moments are milliseconds of the steady clock. Its counts have no
limit, as 64 bits are enough for the failures of any run. -/
structure FailureReport where
  interval : Nat
  lastTold : Option Nat
  /-- Failures since the last one that was told. -/
  pending : Nat
  total : Nat
deriving DecidableEq, Repr

namespace FailureReport

/-- A reporter that has seen no failure. -/
def ofInterval (interval : Nat) : FailureReport := ⟨interval, none, 0, 0⟩

/-- The reporter of a sink whose settings name no interval: ten seconds. -/
def standard : FailureReport := ofInterval 10000

/-- A failure at this moment is to be told. -/
def isDue (r : FailureReport) (now : Nat) : Bool :=
  match r.lastTold with
  | none => true
  | some last => r.interval ≤ now - last

/-- Counts a failure, and tells it if it is due. -/
def report (r : FailureReport) (now : Nat) (sink operation error : String) :
    FailureReport × Option Journal.Line :=
  if r.isDue now then
    ({ r with lastTold := some now, pending := 0, total := r.total + 1 },
      some (.failure sink operation error (r.total + 1) r.pending))
  else ({ r with pending := r.pending + 1, total := r.total + 1 }, none)

end FailureReport
end Telemetry
