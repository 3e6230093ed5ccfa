import Telemetry.Record
import Telemetry.Summary.Message

/-! Blocks: what one event adds to the summary, item by item. -/
namespace Telemetry.Summary

inductive Item
  /-- An empty row. -/
  | blank
  | line (message : String)
deriving DecidableEq, Repr

def Item.text (at_ : Instant) : Item → String
  | .blank => "\n"
  | .line message => messageText at_ message

def blockText (at_ : Instant) (items : List Item) : String :=
  String.join (items.map (Item.text at_))

def tab : String := "    "

def rule (c : Char) : Item :=
  .line (Text.times 100 c)

def eventText (e : Event) (key : String) : String :=
  ((e.property? key).map Value.display).getD ""

/-- The text of an entry of a nested map, empty where there is none. -/
def nestedText (v : Option Value) (key : String) : String :=
  (((v.bind Value.asMap?).bind fun m => Properties.get? ⟨m⟩ key).map Value.display).getD ""

end Telemetry.Summary
