import Telemetry.Basic

/-! The five severities, in increasing order. -/
namespace Telemetry

inductive Severity
  | trace
  | information
  | warning
  | error
  | critical
deriving DecidableEq, Repr, Inhabited

namespace Severity

/-- The severity of a record that names none. -/
def standard : Severity := .information

def all : List Severity := [.trace, .information, .warning, .error, .critical]

def level : Severity → Nat
  | .trace => 0
  | .information => 1
  | .warning => 2
  | .error => 3
  | .critical => 4

def name : Severity → String
  | .trace => "trace"
  | .information => "information"
  | .warning => "warning"
  | .error => "error"
  | .critical => "critical"

/-- The severity with a capital, as it stands in descriptions of settings. -/
def title : Severity → String
  | .trace => "Trace"
  | .information => "Information"
  | .warning => "Warning"
  | .error => "Error"
  | .critical => "Critical"

def ofLevel? (n : Int) : Option Severity :=
  all.find? fun s => (s.level : Int) == n

/-- The severity is `least` or more serious. -/
def isAtLeast (s least : Severity) : Bool :=
  least.level ≤ s.level

/-- The severity with exactly this name, or the short name of information. -/
def ofName? (s : String) : Option Severity :=
  if s = "info" then some .information else all.find? fun v => v.name == s

/-- Reads a name without regard to case and to blanks around it; two short names
and the name fatal are read too. On failure the folded name is returned. -/
def ofText (s : String) : Except String Severity :=
  let name := Text.fold (Text.trim s)
  if name = "warn" then .ok .warning
  else if name = "fatal" then .ok .critical
  else
    match ofName? name with
    | some v => .ok v
    | none => .error name

/-- What is said about a name that is no severity. -/
def unknownMessage (name : String) : String :=
  "unknown severity: " ++ name

end Severity
end Telemetry
