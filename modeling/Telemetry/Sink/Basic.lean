import Telemetry.Sink.Service

/-! What every sink offers: it takes records in, can be started, flushed and
stopped, and does its background work when asked to. -/
namespace Telemetry

inductive Answer
  | accepted
  | refused (fault : Fault)
  /-- The sink broke down, with a text if it left one. -/
  | panicked (text : Option String)
deriving DecidableEq, Repr

/-- A sink of type `α` in surroundings with a storage of type `S`. -/
class Sink (S : outParam Type) (α : Type) where
  name : α → String
  /-- Takes a record in. -/
  log : Record → α → World S → Answer × α × World S
  /-- Starts background tasks; the flag says whether tasks can run. -/
  start : Bool → Tick → α → Except Fault Unit × α
  /-- Begins a flush with a time limit. -/
  beginFlush : Tick → Span → α → World S → α × World S
  /-- Begins a stop with a time limit for its last flush. -/
  beginStop : Tick → Span → α → World S → α × World S
  /-- The result of the call that was begun, once it has ended. -/
  result? : α → Option (Except Fault Unit)
  /-- Forgets the call, and gives it up if it has not ended. -/
  endCall : α → α
  /-- When there is something to do. -/
  due : α → Option Tick
  /-- Goes on with the call. -/
  pollCall : Tick → α → World S → α × World S
  /-- Goes on with background tasks. -/
  pollTasks : Tick → α → World S → α × World S
  /-- A bound on how often there is something to do at one moment. -/
  rounds : α → Nat
  /-- A moment by which the call has ended if nothing else is begun. -/
  latest : Tick → α → World S → Tick

instance {S σ κ : Type} [Duty σ κ] [Work S σ κ] : Sink S (Service S σ κ) where
  name s := Duty.name s.state
  log r s w := (.accepted, s.log r w)
  start := Service.start
  beginFlush := Service.beginFlush
  beginStop := Service.beginStop
  result? := Service.result?
  endCall := Service.endCall
  due := Service.due
  pollCall := Service.pollCall
  pollTasks := Service.pollTasks
  rounds s := Duty.rounds s.state + 16 * (s.tasks.length + 1)
  latest := Service.latest

/-- Lets time pass. The state is brought up to date at each moment at which it has
something to do, in order, until `stop` holds or `horizon` is reached. The moment
reached is given back with the state. -/
def runUntil {τ : Type} (due : τ → Option Tick) (settle : Tick → τ → τ) (stop : τ → Bool)
    (horizon now : Tick) (s : τ) : Tick × τ :=
  if stop s then (now, s)
  else
    match due s with
    | none => (now, s)
    | some t =>
      if _h : now < t ∧ t ≤ horizon then runUntil due settle stop horizon t (settle t s)
      else (now, s)
termination_by horizon - now
decreasing_by exact Nat.sub_lt_sub_left (Nat.lt_of_lt_of_le _h.1 _h.2) _h.1

/-- Repeats rounds at one moment while there is something to do. -/
def settleRounds {τ : Type} (due : τ → Option Tick) (round : Tick → τ → τ) (now : Tick) :
    Nat → τ → τ
  | 0, s => s
  | n + 1, s =>
    if Service.isReached now (due s) then settleRounds due round now n (round now s) else s

/-- A sink in its surroundings at a moment of the timer. -/
structure Session (S α : Type) where
  sink : α
  world : World S
  now : Tick

namespace Session

variable {S α : Type} [Sink S α]

/-- The sink and its surroundings after one round: the call goes first. -/
def round (now : Tick) (p : α × World S) : α × World S :=
  let (a, w) := Sink.pollCall now p.1 p.2
  Sink.pollTasks now a w

/-- Everything that can be done at a moment is done. -/
def settle (now : Tick) (p : α × World S) : α × World S :=
  settleRounds (fun q => Sink.due q.1) round now (Sink.rounds p.1) p

/-- Background work goes on as long as it need not wait. -/
def calm (s : Session S α) : Session S α :=
  let (sink, world) := settle s.now (s.sink, s.world)
  { s with sink := sink, world := world }

def log (r : Record) (s : Session S α) : Answer × Session S α :=
  let (answer, sink, world) := Sink.log r s.sink s.world
  (answer, { s with sink := sink, world := world })

def start (inRuntime : Bool) (s : Session S α) : Except Fault Unit × Session S α :=
  let (result, sink) := Sink.start inRuntime s.now s.sink
  (result, { s with sink := sink })

/-- Waits for a call that was begun, which ends at the latest when its sink says
so. -/
def await (p : α × World S) (now : Tick) : Option (Except Fault Unit) × Session S α :=
  let p := settle now p
  let (now, sink, world) := runUntil (fun q : α × World S => Sink.due q.1) settle
    (fun q => (Sink.result? q.1).isSome) (Sink.latest now p.1 p.2) now p
  (Sink.result? sink, ⟨Sink.endCall sink, world, now⟩)

def flush (timeout : Span) (s : Session S α) : Option (Except Fault Unit) × Session S α :=
  await (Sink.beginFlush s.now timeout s.sink s.world) s.now

def stop (timeout : Span) (s : Session S α) : Option (Except Fault Unit) × Session S α :=
  await (Sink.beginStop s.now timeout s.sink s.world) s.now

/-- Lets background work go on for some milliseconds; the other clocks are moved
first. -/
def advance (ms : Nat) (s : Session S α) : Session S α :=
  let horizon := s.now + ms
  let (_, sink, world) := runUntil (fun q : α × World S => Sink.due q.1) settle (fun _ => false)
    horizon s.now (s.sink, s.world.advance ms)
  ⟨sink, world, horizon⟩

end Session
end Telemetry
