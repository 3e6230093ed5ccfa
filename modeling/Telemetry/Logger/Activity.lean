import Telemetry.Logger.Basic
import Telemetry.Sampling

/-! Telling of a piece of work when it starts, when it fails and when it stops.
Three records share the event id of the work with a suffix each; the last one says
how long the work took. Work that belongs to a sampling is told of only when its
invocation is a sampled one, and every invocation is counted when it has ended. -/
namespace Telemetry

inductive Outcome (β : Type)
  | returned (value : β)
  /-- An error, with its kind. -/
  | failed (kind text : String)
  /-- A breakdown, with a text if it left one. -/
  | panicked (text : Option String)
deriving DecidableEq, Repr

/-- What is told of an outcome that is a failure: a kind and a text. -/
def Outcome.failure? {β : Type} : Outcome β → Option (String × String)
  | .returned _ => none
  | .failed kind text => some (kind, text)
  | .panicked text => some ("panic", text.getD "unknown panic")

/-- A logger in its surroundings, and the samplings of the work it tells of. -/
structure Bench (S α : Type) where
  session : Session S (Logger α)
  samplings : Sampling.Registry

namespace Bench

variable {S α β : Type}

/-- Lets the wall clock and the steady clock move on. -/
def spend (ms : Nat) (b : Bench S α) : Bench S α :=
  { b with session := { b.session with world := b.session.world.advance ms } }

/-- The next invocation is told of. -/
def isSampled (b : Bench S α) (sampling : Option String) : Bool :=
  match sampling.bind b.samplings.get? with
  | none => true
  | some s => s.isHit

def count (sampling : Option String) (b : Bench S α) : Bench S α :=
  match sampling with
  | none => b
  | some name => { b with samplings := b.samplings.increment name }

variable [Sink S α]

def emit (r : Record) (b : Bench S α) : Bench S α :=
  { b with session := b.session.emit r }

/-- Hands an event to the logger, under the id of some work with a suffix. -/
def tell (work : EventId) (tail : String) (severity : Severity) (e : Event) (b : Bench S α) :
    Bench S α :=
  b.emit ⟨work.suffixed tail, severity, .event e⟩

def tellFailure (work : EventId) (e : Event) (outcome : Outcome β) (b : Bench S α) : Bench S α :=
  match outcome.failure? with
  | none => b
  | some (kind, text) => b.tell work "Error" .error (e.withError kind text)

def traced (work : EventId) (e : Event) (body : Bench S α → Outcome β × Bench S α)
    (b : Bench S α) : Outcome β × Bench S α :=
  let b := b.tell work "Start" .information e
  let started := b.session.world.steady
  let (outcome, b) := body b
  let elapsed := b.session.world.steady - started
  let b := b.tellFailure work e outcome
  (outcome, b.tell work "Stop" .information (e.withDuration elapsed))

/-- Does some work, which is told of if its invocation is sampled, and counts the
invocation. -/
def perform (work : EventId) (e : Event) (sampling : Option String)
    (body : Bench S α → Outcome β × Bench S α) (b : Bench S α) : Outcome β × Bench S α :=
  let (outcome, b) := if b.isSampled sampling then b.traced work e body else body b
  (outcome, b.count sampling)

end Bench
end Telemetry
