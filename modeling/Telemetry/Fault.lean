import Telemetry.Time.Span

/-! What can go wrong, and how it is said.
Faults name causes; `Fault.message` is the only place that words them. -/
namespace Telemetry

/-- Why a transport did not take a record. -/
inductive TransportFault
  | oversized (size limit : Nat)
  | unavailable (reason : String)
deriving DecidableEq, Repr

/-- Why an operation did not succeed. -/
inductive Fault
  | missingField (field : String)
  | invalidConfiguration (problem : String)
  /-- A background task was to start where nothing runs tasks. -/
  | runtimeUnavailable (sink : String)
  | serialization (problem : String)
  | io (problem : String)
  | constrainFailed (problem : String)
  | transport (fault : TransportFault)
  | stream (problem : String)
  | timeout (after : Span)
deriving DecidableEq, Repr

def TransportFault.message : TransportFault → String
  | .oversized size limit =>
    "record of " ++ toString size ++ " bytes exceeds transport limit of " ++
      toString limit ++ " bytes"
  | .unavailable reason => "transport unavailable: " ++ reason

namespace Fault

def message : Fault → String
  | .missingField field => "missing required field: " ++ field
  | .invalidConfiguration problem => "invalid configuration: " ++ problem
  | .runtimeUnavailable sink => "no tokio runtime available to start " ++ sink
  | .serialization problem => "serialization error: " ++ problem
  | .io problem => "I/O error: " ++ problem
  | .constrainFailed problem => "constrain failed: " ++ problem
  | .transport fault => "transport error: " ++ fault.message
  | .stream problem => "stream error: " ++ problem
  | .timeout after => "flush timed out after " ++ after.text

/-- Trying again can help: files may become available. -/
def isRetryable : Fault → Bool
  | .io _ => true
  | _ => false

end Fault
end Telemetry
