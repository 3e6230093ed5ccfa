import Telemetry.Basic
import Telemetry.Property.Value

/-! Maps of properties: entries in the order of their first insertion, with keys
that differ when the case of ASCII letters is disregarded. Inserting at a key
that is there replaces the value and keeps place and spelling. -/
namespace Telemetry

structure Properties where
  entries : List (String × Value)
deriving Repr, Inhabited

namespace Properties

def empty : Properties := ⟨[]⟩

def get? (p : Properties) (key : String) : Option Value :=
  (p.entries.find? fun e => Text.sameFold e.1 key).map (·.2)

def contains (p : Properties) (key : String) : Bool :=
  p.entries.any fun e => Text.sameFold e.1 key

/-- The entries with the value put in at a key: in its place if it is there, else
at the end. -/
def insertEntry (key : String) (value : Value) : List (String × Value) → List (String × Value)
  | [] => [(key, value)]
  | e :: rest =>
    if Text.sameFold e.1 key then (e.1, value) :: rest else e :: insertEntry key value rest

/-- The map with the value put in at a key. -/
def insert (p : Properties) (key : String) (value : Value) : Properties :=
  ⟨insertEntry key value p.entries⟩

/-- The map without the entry at a key; those behind it move up. -/
def erase (p : Properties) (key : String) : Properties :=
  ⟨p.entries.eraseP fun e => Text.sameFold e.1 key⟩

/-- Puts a value in at a key, and answers with the value that was there. -/
def replace (p : Properties) (key : String) (value : Value) : Option Value × Properties :=
  (p.get? key, p.insert key value)

/-- Takes the entry at a key out, and answers with its value. -/
def remove (p : Properties) (key : String) : Option Value × Properties :=
  (p.get? key, p.erase key)

/-- The map with entries put in one after another. -/
def insertAll (p : Properties) (entries : List (String × Value)) : Properties :=
  entries.foldl (fun q e => q.insert e.1 e.2) p

/-- The map of entries put in one after another. -/
def ofList (entries : List (String × Value)) : Properties :=
  empty.insertAll entries

def size (p : Properties) : Nat :=
  p.entries.length

def keys (p : Properties) : List String :=
  p.entries.map (·.1)

/-- The JSON form: an object with the entries as members. -/
def toJson (p : Properties) : Json :=
  .obj (Value.entriesToJson p.entries)

instance : BEq Properties := ⟨fun a b => Value.beqEntries a.entries b.entries⟩

/-- No two keys agree when case is disregarded. -/
def Distinct (p : Properties) : Prop :=
  (p.entries.map fun e => Text.fold e.1).Nodup

end Properties
end Telemetry
