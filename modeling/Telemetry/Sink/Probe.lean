import Telemetry.Sink.Basic

/-! A sink that answers as it was told to, and keeps what it was given. -/
namespace Telemetry

/-- A call of a probe other than for a record. -/
inductive Probe.Call
  | start
  | flush (timeout : Span)
deriving DecidableEq, Repr

structure Probe.Manner where
  name : String
  /-- What it answers to every record. -/
  answer : Answer
  startResult : Except Fault Unit
  flushResult : Except Fault Unit
  /-- How long a flush takes, whatever its time limit is. -/
  flushDelay : Tick

/-- Everything is accepted at once. -/
def Probe.Manner.plain (name : String) : Probe.Manner := ⟨name, .accepted, .ok (), .ok (), 0⟩

/-- A sink that keeps records and calls, the last one first, in surroundings with a
storage of type `S`. -/
structure Probe (S : Type) where
  manner : Probe.Manner
  records : List Record
  calls : List Probe.Call
  /-- Until when the flush under way takes. -/
  wake : Option Tick

namespace Probe

variable {S : Type}

def ofManner (manner : Manner) : Probe S := ⟨manner, [], [], none⟩

def keep (p : Probe S) (r : Record) : Probe S :=
  { p with records := r :: p.records }

def note (p : Probe S) (call : Call) : Probe S :=
  { p with calls := call :: p.calls }

/-- Begins a flush, which takes its time. -/
def beginFlush (now : Tick) (timeout : Span) (p : Probe S) : Probe S :=
  let wake := if p.manner.flushDelay = 0 then none else some (now + p.manner.flushDelay)
  { p.note (.flush timeout) with wake := wake }

/-- The flush under way ends when its time has come. -/
def poll (now : Tick) (p : Probe S) : Probe S :=
  if Service.isReached now p.wake then { p with wake := none } else p

/-- A stop is a flush. -/
instance : Sink S (Probe S) where
  name p := p.manner.name
  log r p w := (p.manner.answer, p.keep r, w)
  start _ _ p := (p.manner.startResult, p.note .start)
  beginFlush now timeout p w := (p.beginFlush now timeout, w)
  beginStop now timeout p w := (p.beginFlush now timeout, w)
  result? p := if p.wake.isSome then none else some p.manner.flushResult
  endCall p := { p with wake := none }
  due p := p.wake
  pollCall now p w := (p.poll now, w)
  pollTasks _ p w := (p, w)
  rounds _ := 1
  latest now p _ := p.wake.getD now

end Probe
end Telemetry
