import Telemetry.Basic

/-! Lengths of time: seconds and nanoseconds, up to the largest that 64 bits of
seconds hold. Multiplication stops at that largest span instead of wrapping. -/
namespace Telemetry

structure Span where
  seconds : Nat
  nanos : Nat
deriving DecidableEq, Repr, Inhabited

namespace Span

def longest : Span := ⟨2 ^ 64 - 1, 10 ^ 9 - 1⟩

def zero : Span := ⟨0, 0⟩

def ofMillis (ms : Nat) : Span :=
  ⟨ms / 1000, ms % 1000 * 10 ^ 6⟩

def toNanos (s : Span) : Nat :=
  s.seconds * 10 ^ 9 + s.nanos

def ofNanos (n : Nat) : Span :=
  ⟨n / 10 ^ 9, n % 10 ^ 9⟩

/-- The span `n` times, or the longest span where that is longer. -/
def scale (s : Span) (n : Nat) : Span :=
  if s.toNanos * n ≤ longest.toNanos then ofNanos (s.toNanos * n) else longest

/-- The whole milliseconds that a timer waits for the span: a part of a
millisecond counts as one. -/
def ticks (s : Span) : Nat :=
  (s.toNanos + (10 ^ 6 - 1)) / 10 ^ 6

/-- A whole part and a fraction of `places` digits without its last zeros. -/
def decimalText (whole fraction places : Nat) : String :=
  let digits := Nat.toDigits 10 fraction
  let padded := List.replicate (places - digits.length) '0' ++ digits
  let kept := (padded.reverse.dropWhile (· == '0')).reverse
  toString whole ++ (if kept = [] then "" else String.ofList ('.' :: kept))

/-- The span in the largest of seconds, milliseconds, microseconds and
nanoseconds that does not exceed it. -/
def text (s : Span) : String :=
  if 0 < s.seconds then decimalText s.seconds s.nanos 9 ++ "s"
  else if 10 ^ 6 ≤ s.nanos then decimalText (s.nanos / 10 ^ 6) (s.nanos % 10 ^ 6) 6 ++ "ms"
  else if 10 ^ 3 ≤ s.nanos then decimalText (s.nanos / 10 ^ 3) (s.nanos % 10 ^ 3) 3 ++ "µs"
  else toString s.nanos ++ "ns"

example : (Span.mk 2 100000000).text = "2.1s" := by decide +kernel

example : (Span.mk 0 999999).text = "999.999µs" := by decide +kernel

example : (Span.mk 4294967297 999999999).scale 4294967295 = longest := by decide

end Span
end Telemetry
