import Mathlib.Algebra.Group.Nat.Even
import Mathlib.Tactic.Ring
import Telemetry.Sink.Work

/-! How long attempts in a row can pause.
Pauses grow, so all of them together are no longer than as many of the longest one. A
job that pauses ends, at the latest, when it has waited for all pauses that its policy
still allows. -/
namespace Telemetry

namespace Span

theorem toNanos_ofNanos (n : Nat) : (ofNanos n).toNanos = n :=
  Nat.div_add_mod' n (10 ^ 9)

theorem toNanos_ofMillis (ms : Nat) : (ofMillis ms).toNanos = ms * 10 ^ 6 := by
  simp only [toNanos, ofMillis]
  omega

theorem toNanos_scale (s : Span) (n : Nat) :
    (s.scale n).toNanos = min (s.toNanos * n) longest.toNanos := by
  unfold scale
  split
  · rename_i fits
    rw [toNanos_ofNanos, Nat.min_eq_left fits]
  · rename_i large
    rw [Nat.min_eq_right (Nat.le_of_not_le large)]

theorem ticks_scale_of_fits {ms n : Nat} (fits : ms * n * 10 ^ 6 ≤ longest.toNanos) :
    ((ofMillis ms).scale n).ticks = ms * n := by
  rw [ticks, toNanos_scale, toNanos_ofMillis, Nat.mul_right_comm, Nat.min_eq_left fits]
  omega

theorem ticks_mono {s t : Span} (shorter : s.toNanos ≤ t.toNanos) : s.ticks ≤ t.ticks :=
  Nat.div_le_div_right (Nat.add_le_add_right shorter _)

end Span

namespace RetryPolicy

theorem delay_mono (p : RetryPolicy) {m n : Nat} (fewer : m ≤ n) :
    (p.delay m).ticks ≤ (p.delay n).ticks := by
  refine Span.ticks_mono ?_
  have counts : max m 1 ≤ max n 1 := by omega
  have products := Nat.mul_le_mul_left p.backoff.toNanos counts
  simp only [delay, Span.toNanos_scale]
  omega

/-- All pauses of the next `left` retries together. -/
def pauses (p : RetryPolicy) : Nat → Nat → Nat
  | 0, _ => 0
  | left + 1, retries => (p.delay (retries + 1)).ticks + p.pauses left (retries + 1)

theorem pauses_succ (p : RetryPolicy) (left retries : Nat) :
    p.pauses (left + 1) retries = (p.delay (retries + 1)).ticks + p.pauses left (retries + 1) :=
  rfl

/-- All pauses that the policy still allows after some retries. -/
def remaining (p : RetryPolicy) (retries : Nat) : Nat :=
  p.pauses (p.maxRetries - retries) retries

theorem pauses_le (p : RetryPolicy) (left retries : Nat) :
    p.pauses left retries ≤ left * (p.delay (retries + left)).ticks := by
  induction left generalizing retries with
  | zero => exact Nat.zero_le _
  | succ left ih =>
    have rest := ih (retries + 1)
    have first := p.delay_mono (show retries + 1 ≤ retries + (left + 1) by omega)
    rw [show retries + 1 + left = retries + (left + 1) by omega] at rest
    have product : (left + 1) * (p.delay (retries + (left + 1))).ticks =
        left * (p.delay (retries + (left + 1))).ticks + (p.delay (retries + (left + 1))).ticks :=
      Nat.succ_mul _ _
    simp only [pauses]
    omega

/-- The pauses one after another, the first one behind as many retries. -/
theorem sum_delays (p : RetryPolicy) (count retries : Nat) :
    ((List.range' (retries + 1) count).map fun k => (p.delay k).ticks).sum =
      p.pauses count retries := by
  induction count generalizing retries with
  | zero => rfl
  | succ count ih =>
    rw [List.range'_succ, List.map_cons, List.sum_cons, ih (retries + 1), pauses_succ]

/-- Where the unit is a number of whole milliseconds and no pause stops at the longest span,
pauses grow in steps of the unit. -/
theorem two_mul_pauses {p : RetryPolicy} {ms : Nat} (unit : p.backoff = .ofMillis ms)
    (count retries : Nat) (fits : ms * (retries + count) * 10 ^ 6 ≤ Span.longest.toNanos) :
    2 * p.pauses count retries = ms * (count * (2 * retries + count + 1)) := by
  induction count generalizing retries with
  | zero => simp [pauses]
  | succ count ih =>
    have first : ms * (retries + 1) ≤ ms * (retries + (count + 1)) :=
      Nat.mul_le_mul_left _ (by omega)
    have rest := ih (retries + 1)
      (by rwa [show retries + 1 + count = retries + (count + 1) by omega])
    have short : ms * (retries + 1) * 10 ^ 6 ≤ Span.longest.toNanos :=
      Nat.le_trans (Nat.mul_le_mul_right _ first) fits
    have pause : (p.delay (retries + 1)).ticks = ms * (retries + 1) := by
      rw [delay, unit, Nat.max_eq_left (Nat.succ_pos _), Span.ticks_scale_of_fits short]
    rw [pauses_succ, Nat.mul_add, rest, pause]
    ring

/-- The first pauses together, where the unit is a number of whole milliseconds. -/
theorem pauses_of_fits {p : RetryPolicy} {ms count : Nat} (unit : p.backoff = .ofMillis ms)
    (fits : ms * count * 10 ^ 6 ≤ Span.longest.toNanos) :
    p.pauses count 0 = ms * (count * (count + 1) / 2) := by
  have twice := two_mul_pauses unit count 0 (by rwa [Nat.zero_add])
  have even := Nat.div_two_mul_two_of_even (Nat.even_mul_succ_self count)
  rw [Nat.mul_zero, Nat.zero_add, ← even, ← Nat.mul_assoc] at twice
  omega

theorem remaining_le_patience (p : RetryPolicy) (retries : Nat) :
    p.remaining retries ≤ p.patience := by
  rcases Nat.lt_or_ge p.maxRetries retries with beyond | within
  · have spent : p.maxRetries - retries = 0 := by omega
    rw [remaining, spent]
    exact Nat.zero_le _
  · have bound := p.pauses_le (p.maxRetries - retries) retries
    rw [show retries + (p.maxRetries - retries) = p.maxRetries by omega] at bound
    exact Nat.le_trans bound (Nat.mul_le_mul_right _ (Nat.sub_le _ _))

end RetryPolicy

variable {τ : Type} {policy : RetryPolicy} {now : Tick} {attempt : τ → Except Fault Unit × τ}

/-- A pause after attempts ends later than now, and with those that may follow it no later
than all pauses that were allowed before. -/
theorem attempts_waiting {left retries : Nat} {t t' : τ} {pause : Pause}
    (allowed : left = policy.maxRetries - retries)
    (waits : attempts policy now attempt left retries t = (.waiting pause, t')) :
    now < pause.wake ∧
      pause.wake + policy.remaining pause.retries ≤ now + policy.remaining retries := by
  induction left generalizing retries t with
  | zero =>
    unfold attempts at waits
    split at waits
    · cases waits
    · split at waits <;> cases waits
  | succ left ih =>
    have allowed' : left = policy.maxRetries - (retries + 1) := by omega
    have first : policy.remaining retries =
        (policy.delay (retries + 1)).ticks + policy.remaining (retries + 1) := by
      rw [RetryPolicy.remaining, ← allowed, RetryPolicy.remaining, ← allowed']
      rfl
    unfold attempts at waits
    split at waits
    · cases waits
    · split at waits
      · simp only at waits
        split at waits
        · obtain ⟨later, bound⟩ := ih allowed' waits
          exact ⟨later, by lia⟩
        · rename_i positive
          cases waits
          exact ⟨Nat.lt_add_of_pos_right (Nat.pos_of_ne_zero positive), by simp only [first]; lia⟩
      · cases waits

theorem furtherAttempts_waiting {t t' : τ} {pause pause' : Pause}
    (waits : furtherAttempts policy now attempt pause t = (.waiting pause', t')) :
    now < pause'.wake ∧
      pause'.wake + policy.remaining pause'.retries ≤ now + policy.remaining pause.retries :=
  attempts_waiting rfl waits

theorem attempts_keep {P : τ → Prop} (keeps : ∀ t, P t → P (attempt t).2) (left retries : Nat)
    {t : τ} (kept : P t) : P (attempts policy now attempt left retries t).2 := by
  induction left generalizing retries t with
  | zero =>
    have after := keeps t kept
    unfold attempts
    split
    · rename_i ended
      rwa [ended] at after
    · rename_i ended
      rw [ended] at after
      split <;> exact after
  | succ left ih =>
    have after := keeps t kept
    unfold attempts
    split
    · rename_i ended
      rwa [ended] at after
    · rename_i ended
      rw [ended] at after
      split
      · simp only
        split
        · exact ih _ after
        · exact after
      · exact after

theorem attempts_done {t t' : τ} (done : attempt t = (.ok (), t')) (left retries : Nat) :
    attempts policy now attempt left retries t = (.finished (.ok ()), t') := by
  unfold attempts
  rw [done]

/-- Something that holds after attempts that succeeded, and something for all others. -/
def AfterAttempts (failing succeeding : τ → Prop) : Progress Pause × τ → Prop
  | (.finished (.ok ()), t) => succeeding t
  | (.finished (.error _), t) | (.waiting _, t) => failing t

/-- Attempts in a row end with what a successful one leads to, or with what failed ones keep. -/
theorem attempts_after {P R : τ → Prop}
    (failed : ∀ t fault, (attempt t).1 = .error fault → P t → P (attempt t).2)
    (succeeded : ∀ t, (attempt t).1 = .ok () → P t → R (attempt t).2) (left retries : Nat) {t : τ}
    (kept : P t) : AfterAttempts P R (attempts policy now attempt left retries t) := by
  induction left generalizing retries t with
  | zero =>
    have after := failed t
    have done := succeeded t
    rw [attempts]
    cases ended : attempt t with
    | mk result t' =>
      rw [ended] at after done
      cases result with
      | ok _ => exact done rfl kept
      | error fault =>
        simp only [ite_self]
        exact after fault rfl kept
  | succ left ih =>
    have after := failed t
    have done := succeeded t
    rw [attempts]
    cases ended : attempt t with
    | mk result t' =>
      rw [ended] at after done
      cases result with
      | ok _ => exact done rfl kept
      | error fault =>
        have again := after fault rfl kept
        by_cases retryable : fault.isRetryable = true
        · by_cases pause : (policy.delay (retries + 1)).ticks = 0
          · simp only [retryable, pause, if_true]
            exact ih (retries + 1) again
          · simp only [retryable, pause, if_true, if_false]
            exact again
        · simp only [retryable]
          exact again

end Telemetry
