import Telemetry.World
import Telemetry.Record
import Telemetry.Retry

/-! Work that takes time, cut at the moments where it waits.
A job is a piece of work under way. Running it goes on until it ends or has to
wait, and the job that waits says until when. Nothing happens between two runs, so
whoever runs jobs may run others meanwhile, or give one up where it waits. -/
namespace Telemetry

/-- What became of a job when it was run. -/
inductive Progress (κ : Type)
  | finished (result : Except Fault Unit)
  | waiting (job : κ)

/-- A state that jobs work on, with the reporter of its failures, in its
surroundings. -/
structure Stage (S σ : Type) where
  state : σ
  reporter : FailureReport
  world : World S

def Stage.report {S σ : Type} (g : Stage S σ) (sink operation error : String) : Stage S σ :=
  let (reporter, world) := g.world.report g.reporter sink operation error
  { g with reporter := reporter, world := world }

/-- Something done with the state and the storage of a stage, and what comes of it. -/
def Stage.onStore {S σ : Type} (f : σ → S → Except Fault Unit × σ × S) (g : Stage S σ) :
    Except Fault Unit × Stage S σ :=
  let (result, s, store) := f g.state g.world.store
  (result, { g with state := s, world := { g.world with store := store } })

/-- When jobs on a state of type `σ` are run, and what they are called. -/
class Duty (σ : Type) (κ : outParam Type) where
  /-- The name of the sink. -/
  name : σ → String
  /-- What the background task does, as reports call it. -/
  operation : σ → String
  /-- What the pause between two background jobs is called. -/
  intervalName : σ → String
  /-- The pause between two background jobs; none when there is a single one, which
  waits for a notice. -/
  period : σ → Option Nat
  /-- A notice is there. -/
  hasNotice : σ → Bool
  /-- The state after the notice was taken. -/
  takeNotice : σ → σ
  /-- The moment until which a job waits, or nothing while its turn has not come. -/
  wake? : κ → σ → Option Tick
  /-- The state after a job was given up. -/
  abandon : κ → σ → σ
  /-- A bound on how long one more job waits in all. -/
  patience : σ → Tick
  /-- A bound on how often jobs can go on at one moment because of what waits. -/
  rounds : σ → Nat

/-- What jobs on a state of type `σ` do. -/
class Work (S σ : Type) (κ : outParam Type) where
  /-- Takes a record in. -/
  accept : Record → Stage S σ → Stage S σ
  /-- Runs a new job. -/
  begin : Tick → Stage S σ → Progress κ × Stage S σ
  /-- Runs a job that waited. -/
  resume : Tick → κ → Stage S σ → Progress κ × Stage S σ

/-- A job that waits between two attempts. -/
structure Pause where
  retries : Nat
  wake : Tick
deriving DecidableEq, Repr

/-- Attempts in a row under a policy, until one succeeds, none is left, or there
is a pause to wait for. `left` is the number of retries that are left. -/
def attempts {τ : Type} (policy : RetryPolicy) (now : Tick)
    (attempt : τ → Except Fault Unit × τ) (left retries : Nat) (t : τ) : Progress Pause × τ :=
  match attempt t with
  | (.ok (), t) => (.finished (.ok ()), t)
  | (.error fault, t) =>
    if fault.isRetryable then
      match left with
      | 0 => (.finished (.error fault), t)
      | left + 1 =>
        let pause := (policy.delay (retries + 1)).ticks
        if pause = 0 then attempts policy now attempt left (retries + 1) t
        else (.waiting ⟨retries + 1, now + pause⟩, t)
    else (.finished (.error fault), t)

/-- The first attempt and those that follow it at once. -/
def firstAttempts {τ : Type} (policy : RetryPolicy) (now : Tick)
    (attempt : τ → Except Fault Unit × τ) (t : τ) : Progress Pause × τ :=
  attempts policy now attempt policy.maxRetries 0 t

/-- The attempt after a pause and those that follow it at once. -/
def furtherAttempts {τ : Type} (policy : RetryPolicy) (now : Tick)
    (attempt : τ → Except Fault Unit × τ) (pause : Pause) (t : τ) : Progress Pause × τ :=
  attempts policy now attempt (policy.maxRetries - pause.retries) pause.retries t

/-- A bound on the pauses of one job. -/
def RetryPolicy.patience (p : RetryPolicy) : Tick :=
  p.maxRetries * (p.delay p.maxRetries).ticks

end Telemetry
