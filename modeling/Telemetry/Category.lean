/-! The categories of events, known by their numbers. -/
namespace Telemetry

inductive Category
  | undefined
  | trace
  | error
  | systemEvent
  | metric
  | metricsCollection
deriving DecidableEq, Repr, Inhabited

namespace Category

def all : List Category := [.undefined, .trace, .error, .systemEvent, .metric, .metricsCollection]

def id : Category → Int
  | .undefined => 0
  | .trace => 101
  | .error => 102
  | .systemEvent => 103
  | .metric => 105
  | .metricsCollection => 106

def name : Category → String
  | .undefined => "Undefined"
  | .trace => "Trace"
  | .error => "Error"
  | .systemEvent => "SystemEvent"
  | .metric => "Metric"
  | .metricsCollection => "MetricsCollection"

def ofName? (s : String) : Option Category :=
  all.find? fun c => c.name == s

end Category

end Telemetry
