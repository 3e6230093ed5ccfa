import Telemetry.Category

/-! What names a record. The label is what people read, and suffixes extend it. -/
namespace Telemetry

/-- What names a record: a number, usually that of a category, and a name. -/
structure EventId where
  id : Int
  name : Option String
deriving DecidableEq, Repr, Inhabited

namespace EventId

/-- A name of no category. -/
def named (name : String) : EventId := ⟨Category.undefined.id, some name⟩

def ofCategory (c : Category) (name : String) : EventId := ⟨c.id, some name⟩

def isIn (e : EventId) (c : Category) : Bool :=
  e.id == c.id

/-- The name, or the number where there is no name. -/
def label (e : EventId) : String :=
  e.name.getD (toString e.id)

/-- The same number, with the text put behind the label as its name. -/
def suffixed (e : EventId) (tail : String) : EventId :=
  ⟨e.id, some (e.label ++ tail)⟩

end EventId
end Telemetry
