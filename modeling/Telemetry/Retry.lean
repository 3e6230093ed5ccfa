import Telemetry.Fault

/-! Retrying with growing pauses: after the n-th failure in a row the pause is n
times the unit. A policy says how often to try again and what the unit is. -/
namespace Telemetry

/-- Milliseconds on the timer. -/
abbrev Tick := Nat

/-- How often to try again, and the unit of the pauses. -/
structure RetryPolicy where
  maxRetries : Nat
  backoff : Span
deriving DecidableEq, Repr

namespace RetryPolicy

def standard : RetryPolicy := ⟨5, Span.ofMillis 1000⟩

def never : RetryPolicy := ⟨0, .zero⟩

/-- The pause before the retry of this number, counted from one. -/
def delay (p : RetryPolicy) (retry : Nat) : Span :=
  p.backoff.scale (max retry 1)

/-- What came of an operation under a policy: its result, the pauses between its
attempts, and when these were made. -/
structure Run (ε α : Type) where
  result : Except ε α
  pauses : List Span
  attempts : List Tick

/-- Runs an operation from a moment on, where `outcome n` is what its n-th
attempt gives, counted from one. Attempts take no time. `left` is the number of
retries that are left. -/
def runFrom {ε α : Type} (p : RetryPolicy) (retryable : ε → Bool) (outcome : Nat → Except ε α)
    (left : Nat) (retries : Nat) (now : Tick) : Run ε α :=
  match outcome (retries + 1) with
  | .ok a => ⟨.ok a, [], [now]⟩
  | .error e =>
    if retryable e then
      match left with
      | 0 => ⟨.error e, [], [now]⟩
      | left + 1 =>
        let pause := p.delay (retries + 1)
        let rest := runFrom p retryable outcome left (retries + 1) (now + pause.ticks)
        ⟨rest.result, pause :: rest.pauses, now :: rest.attempts⟩
    else ⟨.error e, [], [now]⟩

/-- Runs an operation from moment zero on. -/
def run {ε α : Type} (p : RetryPolicy) (retryable : ε → Bool) (outcome : Nat → Except ε α) :
    Run ε α :=
  p.runFrom retryable outcome p.maxRetries 0 0

end RetryPolicy
end Telemetry
