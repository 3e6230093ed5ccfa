import Telemetry.Json.Token

/-! JSON documents as they were read.
A document is built from its tokens by a machine with a stack of the arrays and
objects that are open. Nothing is lost on the way: members keep their order and
their repetitions, and what a number or a string means is left to whoever asks. -/
namespace Telemetry.Json

inductive Document
  | null
  | bool (b : Bool)
  | number (lexeme : List Char)
  | str (s : Option String)
  | arr (items : List Document)
  | obj (members : List (Option String × Document))
deriving Repr

namespace Document

/-- An open array or object: what has been read of it in reverse, and the key of the
member whose value is being read. -/
inductive Level
  | array (before : List Document)
  | object (before : List (Option String × Document)) (key : Option String)

/-- What the machine waits for. Levels are given from the innermost one on. -/
inductive State
  | value (levels : List Level)
  /-- The first value of an array, or its end. -/
  | item (levels : List Level)
  /-- A key, or the end of an object of which nothing has been read. -/
  | key (before : List (Option String × Document)) (first : Bool) (levels : List Level)
  | colon (before : List (Option String × Document)) (key : Option String) (levels : List Level)
  /-- What may follow a value. -/
  | behind (value : Document) (levels : List Level)

def beginValue? (levels : List Level) : Token → Option State
  | .openArr => some (.item levels)
  | .openObj => some (.key [] true levels)
  | .null => some (.behind .null levels)
  | .bool b => some (.behind (.bool b) levels)
  | .number lexeme => some (.behind (.number lexeme) levels)
  | .str s => some (.behind (.str s) levels)
  | .closeArr | .closeObj | .colon | .comma => none

/-- A token behind a value, which goes to the level that it belongs to. -/
def afterValue? (value : Document) : List Level → Token → Option State
  | .array before :: levels, .comma => some (.value (.array (value :: before) :: levels))
  | .array before :: levels, .closeArr => some (.behind (.arr (value :: before).reverse) levels)
  | .object before key :: levels, .comma => some (.key ((key, value) :: before) false levels)
  | .object before key :: levels, .closeObj =>
    some (.behind (.obj ((key, value) :: before).reverse) levels)
  | _, _ => none

def step? : State → Token → Option State
  | .value levels, t => beginValue? levels t
  | .item levels, .closeArr => some (.behind (.arr []) levels)
  | .item levels, t => beginValue? (.array [] :: levels) t
  | .key before _ levels, .str key => some (.colon before key levels)
  | .key _ true levels, .closeObj => some (.behind (.obj []) levels)
  | .colon before key levels, .colon => some (.value (.object before key :: levels))
  | .behind value levels, t => afterValue? value levels t
  | _, _ => none

/-- The document that consists of exactly these tokens. -/
def ofTokens? (ts : List Token) : Option Document :=
  match ts.foldlM step? (.value []) with
  | some (.behind value []) => some value
  | _ => none

def ofText? (s : String) : Option Document := do
  ofTokens? (← Token.ofText? s)

def bool? : Document → Option Bool
  | .bool b => some b
  | _ => none

def text? : Document → Option String
  | .str s => s
  | _ => none

/-- A whole number without sign, fraction and exponent, below a bound. -/
def nat? (bound : Nat) : Document → Option Nat
  | .number lexeme =>
    if lexeme.all Char.isDigit then
      let n := lexeme.foldl (fun n c => 10 * n + (c.toNat - 48)) 0
      if n < bound then some n else none
    else none
  | _ => none

/-- The name of a choice: a string, or an object with null as its only member. -/
def choice? : Document → Option String
  | .str s => s
  | .obj [(key, .null)] => key
  | _ => none

def entries? {α : Type} (read : Document → Option α) : Document → Option (List (String × α))
  | .obj members => members.mapM fun m => do
    let key ← m.1
    let value ← read m.2
    some (key, value)
  | _ => none

end Document
end Telemetry.Json
