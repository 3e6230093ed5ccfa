import Telemetry.Record

/-! Which records a channel passes on. -/
namespace Telemetry

inductive Route
  | all
  /-- Records that carry an event. -/
  | telemetry
  | category (c : Category)
  /-- Records of categories up to errors, and records of no category. -/
  | traces
  | custom (test : Record → Bool)

namespace Route

def passes (r : Route) (x : Record) : Bool :=
  match r with
  | .all => true
  | .telemetry => x.isTelemetry
  | .category c => x.id.isIn c
  | .traces => x.id.id ≤ Category.error.id
  | .custom test => test x

/-- The route as it stands in descriptions of settings. -/
def describe : Route → String
  | .all => "All"
  | .telemetry => "Telemetry"
  | .category c => "LogType(" ++ c.name ++ ")"
  | .traces => "Traces"
  | .custom _ => "Custom(..)"

end Route
end Telemetry
