import Telemetry.Record

/-! Payloads within a byte budget.
A payload is an object of fixed members, which identify the event, and of a
context with its properties. The fixed members are always written whole, save
that a long name and a long user are cut. When the whole context does not fit,
its leading properties are kept as long as they fit, and the first one that does
not is cut to the room that is left. A context of fewer than 64 bytes is not
tried; the payload then says so in place of the context. -/
namespace Telemetry.Trace

/-- The bytes of the transport's largest record. -/
def maxEventBytes : Nat := 65356

/-- The escaped bytes of a name or a user. -/
def maxFixedText : Nat := 1024

/-- The least room in which a cut context is tried. -/
def minContext : Nat := 64

/-- A bound on the bytes of the fixed members. -/
def maxFixedSection : Nat := 2 * maxFixedText + 512

def contextKey : String := "context"

def diagnosticKey : String := "constrainError"

/-- The bytes that a member adds to an object that is not empty, beside those of
its value: a comma, two quotes, a colon and the key. -/
def memberOverhead (key : String) : Nat :=
  key.utf8ByteSize + 4

/-- The least budget in which every fixed section leaves room for a context. -/
def minEventBytes : Nat := maxFixedSection + memberOverhead contextKey + minContext

structure Entry where
  activity : Identifier
  parent : Option Identifier
  severity : Severity
  name : String
  payload : String
  /-- The payload does not hold the whole context. -/
  constrained : Bool
  /-- There was no room for any context. -/
  constrainFailed : Bool
deriving Repr, DecidableEq

def Entry.size (r : Entry) : Nat :=
  r.payload.utf8ByteSize

/-- The members that identify the event. -/
def fixedMembers (name : String) (severity : Severity) (e : Event) : List (String × Json) :=
  [("eventName", .str (Text.cut maxFixedText name)),
    ("severity", .str severity.name),
    ("activityId", .str e.activity.text),
    ("parentActivityId", .str e.parent.text),
    ("transactionId", .str e.transaction.text),
    ("durationMs", Json.ofOption .int e.durationMs),
    ("userIdentity", Json.ofOption (fun u => .str (Text.cut maxFixedText u)) e.user)]

/-- The first property that did not fit, cut to the room that is left: its key as
far as it fits, and then its text. Framing is the comma, the colon, four quotes
and the closing brace. -/
def cutMember (limit used : Nat) (key : String) (value : Value) : List (String × Json) :=
  let framing := (if 1 < used then 1 else 0) + 6
  let room := limit - (used + framing)
  if 0 < room then
    let shortKey := Text.cut room key
    [(shortKey, .str (Text.cut (room - Text.escapedSize shortKey) value.display))]
  else []

/-- The members that fit into `limit` bytes, of which `used` are taken by the
opening brace and the members before. -/
def fitMembers (limit : Nat) : Nat → List (String × Value) → List (String × Json)
  | _, [] => []
  | used, (key, value) :: rest =>
    let comma := if 1 < used then 1 else 0
    let next := used + comma + Json.memberSize key value.toJson
    if next + 1 ≤ limit then (key, value.toJson) :: fitMembers limit next rest
    else cutMember limit used key value

/-- The properties as an object of at most `limit` bytes, or the reason why no
object is tried. -/
def constrain (properties : Properties) (limit : Nat) : Except Fault Json :=
  if limit < minContext then
    .error (.constrainFailed ("fixed fields leave " ++ toString limit ++ " bytes for context"))
  else .ok (.obj (fitMembers limit 1 properties.entries))

structure Budget where
  maxBytes : Nat
deriving Repr, DecidableEq

namespace Budget

def standard : Budget := ⟨maxEventBytes⟩

def entry (name : String) (severity : Severity) (e : Event) (payload : Json)
    (constrained constrainFailed : Bool) : Entry where
  activity := e.activity
  parent := e.parent?
  severity := severity
  name := name
  payload := payload.render
  constrained := constrained
  constrainFailed := constrainFailed

/-- The fixed members with the reason why there is no context, as far as it
fits. -/
def diagnostic (b : Budget) (fixed : List (String × Json)) (reason : String) : Json :=
  let taken := (Json.obj fixed).size + memberOverhead diagnosticKey + 2
  if taken ≤ b.maxBytes then
    .obj (fixed ++ [(diagnosticKey, .str (Text.cut (b.maxBytes - taken) reason))])
  else .obj fixed

/-- The record of an event with as much of its context as the budget allows. -/
def serialize (b : Budget) (name : String) (severity : Severity) (e : Event) : Entry :=
  let fixed := fixedMembers name severity e
  let full := Json.obj (fixed ++ [(contextKey, e.properties.toJson)])
  if full.size ≤ b.maxBytes then entry name severity e full false false
  else
    let room := b.maxBytes - ((Json.obj fixed).size + memberOverhead contextKey)
    match constrain e.properties room with
    | .ok context => entry name severity e (.obj (fixed ++ [(contextKey, context)])) true false
    | .error fault => entry name severity e (b.diagnostic fixed fault.message) true true

def minimal (name : String) (severity : Severity) (e : Event) : Entry :=
  entry name severity e (.obj (fixedMembers name severity e)) true false

end Budget
end Telemetry.Trace
