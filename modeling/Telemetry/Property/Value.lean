import Telemetry.Json.Basic
import Telemetry.Time.Instant

/-! Values of properties: texts, numbers, truth values, instants and nested maps.
A nested map is its list of entries. Values have a text, which stands in tables
and files, and a JSON form; both are read off the same constructors. -/
namespace Telemetry

inductive Value
  | text (s : String)
  | integer (n : Int)
  | real (x : Binary64)
  | flag (b : Bool)
  | instant (t : Instant)
  | map (entries : List (String × Value))
deriving Repr, Inhabited

namespace Value

/-- The value of an unsigned number of 64 bits: an integer where it fits into 63
bits, else the nearest binary64 number. -/
def ofUnsigned (n : Nat) : Value :=
  if n < 2 ^ 63 then .integer n else .real (Binary64.ofLarge n)

mutual

def toJson : Value → Json
  | .text s => .str s
  | .integer n => .int n
  | .real x => .real x
  | .flag b => .bool b
  | .instant t => .str t.exactText
  | .map entries => .obj (entriesToJson entries)

/-- The members of the JSON form of a map. -/
def entriesToJson : List (String × Value) → List (String × Json)
  | [] => []
  | (k, v) :: rest => (k, v.toJson) :: entriesToJson rest

end

theorem entriesToJson_eq (entries : List (String × Value)) :
    entriesToJson entries = entries.map fun e => (e.1, e.2.toJson) := by
  induction entries with
  | nil => rfl
  | cons e rest ih =>
    obtain ⟨key, value⟩ := e
    rw [entriesToJson, ih, List.map_cons]

theorem entriesToJson_append (first second : List (String × Value)) :
    entriesToJson (first ++ second) = entriesToJson first ++ entriesToJson second := by
  rw [entriesToJson_eq, List.map_append, ← entriesToJson_eq, ← entriesToJson_eq]

theorem keys_entriesToJson (entries : List (String × Value)) :
    (entriesToJson entries).map Prod.fst = entries.map Prod.fst := by
  rw [entriesToJson_eq, List.map_map]
  rfl

/-- The text of a value: a text is itself, numbers never take an exponent,
instants have six places, and a map is its JSON. -/
def display : Value → String
  | .text s => s
  | .integer n => toString n
  | .real x => Decimal.Layout.plain.write x
  | .flag b => if b then "true" else "false"
  | .instant t => t.text 6
  | .map entries => (Json.obj (entriesToJson entries)).render

def isPrimitive : Value → Bool
  | .map _ => false
  | _ => true

def asText? : Value → Option String
  | .text s => some s
  | _ => none

def asInteger? : Value → Option Int
  | .integer n => some n
  | _ => none

def asMap? : Value → Option (List (String × Value))
  | .map entries => some entries
  | _ => none

mutual

/-- Equality of values: of one kind and equal; numbers are equal as numbers, and
maps entry by entry in order. -/
def beq : Value → Value → Bool
  | .text a, .text b => a == b
  | .integer a, .integer b => a == b
  | .real a, .real b => a.numEq b
  | .flag a, .flag b => a == b
  | .instant a, .instant b => a == b
  | .map a, .map b => beqEntries a b
  | _, _ => false

/-- Equality of maps, entry by entry. -/
def beqEntries : List (String × Value) → List (String × Value) → Bool
  | [], [] => true
  | (j, a) :: as, (k, b) :: bs => j == k && beq a b && beqEntries as bs
  | _, _ => false

end

instance : BEq Value := ⟨beq⟩

end Value
end Telemetry
