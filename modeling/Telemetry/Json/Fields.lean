import Telemetry.Json.Document

/-! The fields of a record that is read from a document.
A record is an object, whose members may stand in any order and of which those
with unknown names are passed over, or an array of its first fields in their
order. A field that is given twice makes the object unreadable, and so does a key
that is no text. -/
namespace Telemetry.Json

/-- The fields that a document gives, by name. -/
structure Fields where
  entries : List (String × Document)

namespace Fields

/-- The members of an object that have one of these names, if none of them is
repeated. -/
def ofMembers? (names : List String) : List (Option String × Document) →
    Option (List (String × Document))
  | [] => some []
  | (key, value) :: rest => do
    let key ← key
    let others ← ofMembers? names rest
    if names.contains key then
      if others.any fun e => e.1 == key then none else some ((key, value) :: others)
    else some others

/-- The fields of a record whose fields have these names. -/
def ofDocument? (names : List String) : Document → Option Fields
  | .obj members => (ofMembers? names members).map Fields.mk
  | .arr items => if items.length ≤ names.length then some ⟨names.zip items⟩ else none
  | _ => none

def find? (f : Fields) (name : String) : Option Document :=
  (f.entries.find? fun e => e.1 == name).map (·.2)

def read {α : Type} (f : Fields) (name : String) (reader : Document → Option α) (default : α) :
    Option α :=
  match f.find? name with
  | none => some default
  | some d => reader d

def require {α : Type} (f : Fields) (name : String) (reader : Document → Option α) : Option α := do
  reader (← f.find? name)

end Fields
end Telemetry.Json
