import Telemetry.Host
import Telemetry.Record
import Telemetry.Retry

/-! The settings of a stream, and the form in which a record is sent.
Properties stand beside the dimensions that every envelope has, so those with the
name of such a dimension, in any case, are left out. -/
namespace Telemetry.Stream

/-- The bytes of the largest envelope, and of the largest batch of several. -/
def maxEventBytes : Nat := 700000

def minCapacity : Nat := 1001

structure Settings where
  /-- How many envelopes may wait. -/
  capacity : Nat
  intervalMs : Nat
  /-- Envelopes tell what became of those before them. -/
  diagnostics : Bool
  maxBytes : Nat
deriving DecidableEq, Repr

def Settings.standard : Settings := ⟨1000000, 5000, false, maxEventBytes⟩

/-- The settings with another capacity, which is not made less than the least one. -/
def Settings.withCapacity (s : Settings) (n : Nat) : Settings :=
  { s with capacity := max n minCapacity }

/-- What became of the records of a stream. -/
structure Counts where
  /-- Records taken in. -/
  expected : Nat
  /-- Envelopes that the endpoint accepted. -/
  transmitted : Nat
  /-- Envelopes of refused sends, each time anew. -/
  failed : Nat
  /-- Records that were given up. -/
  dropped : Nat
deriving DecidableEq, Repr

/-- The names of dimensions that no property may take. -/
def reservedDimensions : List String :=
  ["transactionId", "durationMs", "bufferInfo", "exceededSizeLimits"]

def isReserved (key : String) : Bool :=
  reservedDimensions.any fun name => Text.sameFold name key

/-- The counts and the number of envelopes that wait. -/
def bufferInfo (c : Counts) (queued : Nat) : Json :=
  .obj [("expected", .int c.expected), ("transmitted", .int c.transmitted),
    ("failed", .int c.failed), ("dropped", .int c.dropped), ("queued", .int queued)]

/-- The properties that stand among the dimensions. -/
def freeProperties (p : Properties) : List (String × Value) :=
  p.entries.filter fun e => !isReserved e.1

/-- The dimensions of an event. Where the sizes are exceeded a mark stands in the
place of the properties. -/
def dimensions (info : Option Json) (exceeded : Bool) (e : Event) : Json :=
  .obj ([("transactionId", .str e.transaction.text)]
    ++ (e.durationMs.map fun d => ("durationMs", Json.int d)).toList
    ++ (info.map fun i => ("bufferInfo", i)).toList
    ++ (if exceeded then [("exceededSizeLimits", .str "True")]
      else Value.entriesToJson (freeProperties e.properties)))

/-- The envelope of a record at a moment, on a machine. -/
def envelope (now : Instant) (machine : String) (info : Option Json) (exceeded : Bool)
    (r : Record) : Json :=
  let e := r.toEvent
  .obj ([("timestamp", .str (now.text 6)),
      ("message", .str r.id.label),
      ("severityLevel", .int r.severity.level),
      ("itemType", .str (if r.isTelemetry then "event" else "trace")),
      ("operation_Id", .str e.activity.text)]
    ++ (e.parent?.map fun p => ("operation_ParentId", Json.str p.text)).toList
    ++ [("appName", .str appName),
      ("appHost", .str machine),
      ("sdkVersion", .str appVersion),
      ("customDimensions", dimensions info exceeded e)])

end Telemetry.Stream
