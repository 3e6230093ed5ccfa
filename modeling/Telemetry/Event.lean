import Telemetry.Property.Basic
import Telemetry.Identifier
import Telemetry.Fault

/-! Structured events, and the drafts that they are built from. -/
namespace Telemetry

structure Event where
  activity : Identifier
  /-- The activity that caused this one; nil where there is none. -/
  parent : Identifier
  transaction : Identifier
  user : Option String
  durationMs : Option Int
  properties : Properties
deriving Repr, Inhabited

namespace Event

/-- An event of an activity and nothing else. -/
def ofActivity (activity : Identifier) : Event where
  activity := activity
  parent := .nil
  transaction := .placeholder
  user := none
  durationMs := none
  properties := .empty

/-- The parent, if it is not nil. -/
def parent? (e : Event) : Option Identifier :=
  if e.parent = .nil then none else some e.parent

def property? (e : Event) (key : String) : Option Value :=
  e.properties.get? key

def withProperty (e : Event) (key : String) (value : Value) : Event :=
  { e with properties := e.properties.insert key value }

def withDuration (e : Event) (ms : Int) : Event :=
  { e with durationMs := some ms }

def withoutProperties (e : Event) : Event :=
  { e with properties := .empty }

/-- The event with the kind and the text of an error as its property. -/
def withError (e : Event) (kind text : String) : Event :=
  e.withProperty "error" (.map [("errorType", .text kind), ("errorMessage", .text text)])

/-- The JSON form; user and duration are left out where they are missing. -/
def toJson (e : Event) : Json :=
  .obj ([("activityId", .str e.activity.text), ("parentActivityId", .str e.parent.text),
      ("transactionId", .str e.transaction.text)]
    ++ (e.user.map fun u => ("userIdentity", Json.str u)).toList
    ++ (e.durationMs.map fun d => ("durationMs", Json.int d)).toList
    ++ [("properties", e.properties.toJson)])

def size (e : Event) : Nat :=
  e.toJson.size

/-- Equality of events, their properties compared as maps of values. -/
def beq (a b : Event) : Bool :=
  a.activity == b.activity && a.parent == b.parent && a.transaction == b.transaction
    && a.user == b.user && a.durationMs == b.durationMs && a.properties == b.properties

instance : BEq Event := ⟨beq⟩

structure Draft where
  activity : Option Identifier
  parent : Option Identifier
  transaction : Option Identifier
  user : Option String
  durationMs : Option Int
  properties : Properties

def Draft.empty : Draft := ⟨none, none, none, none, none, .empty⟩

/-- The event of a draft, which has to name its activity. -/
def Draft.build (d : Draft) : Except Fault Event :=
  match d.activity with
  | none => .error (.missingField "activity_id")
  | some activity => .ok {
      activity := activity
      parent := d.parent.getD .nil
      transaction := d.transaction.getD .placeholder
      user := d.user
      durationMs := d.durationMs
      properties := d.properties }

end Event
end Telemetry
