import Telemetry.Text.Escape
import Telemetry.Decimal.Layout

/-! JSON values and their compact text.
Members of an object keep their order, and nothing is written between the
tokens. Whole numbers stand beside binary64 numbers, because the two are written
differently. Every JSON text that the library writes comes from `Json.render`. -/
namespace Telemetry

inductive Json
  | null
  | bool (b : Bool)
  | int (n : Int)
  | real (x : Binary64)
  | str (s : String)
  | arr (items : List Json)
  | obj (members : List (String × Json))
deriving Repr, Inhabited

namespace Json

mutual

/-- The characters of the compact text of a value. -/
def chars : Json → List Char
  | .null => ['n', 'u', 'l', 'l']
  | .bool true => ['t', 'r', 'u', 'e']
  | .bool false => ['f', 'a', 'l', 's', 'e']
  | .int n => (toString n).toList
  | .real x => (Decimal.Layout.json.write x).toList
  | .str s => Text.literal s.toList
  | .arr items => '[' :: (itemChars items ++ [']'])
  | .obj members => '\x7b' :: (memberChars members ++ ['\x7d'])

/-- The items of an array with commas between them. -/
def itemChars : List Json → List Char
  | [] => []
  | [v] => v.chars
  | v :: rest => v.chars ++ ',' :: itemChars rest

/-- The members of an object with commas between them. -/
def memberChars : List (String × Json) → List Char
  | [] => []
  | [(k, v)] => Text.literal k.toList ++ ':' :: v.chars
  | (k, v) :: rest => Text.literal k.toList ++ ':' :: (v.chars ++ ',' :: memberChars rest)

end

def render (j : Json) : String :=
  String.ofList j.chars

def size (j : Json) : Nat :=
  j.render.utf8ByteSize

/-- The bytes of one member of an object, without any comma. -/
def memberSize (k : String) (v : Json) : Nat :=
  Text.escapedSize k + 3 + v.size

/-- An optional value, null where it is missing. -/
def ofOption {α : Type} (f : α → Json) : Option α → Json
  | none => .null
  | some a => f a

example : (Json.obj [("a", .int (-1)), ("b", .arr [.null, .bool true])]).render
    = "\x7b\"a\":-1,\"b\":[null,true]\x7d" := by decide +kernel

end Json
end Telemetry
