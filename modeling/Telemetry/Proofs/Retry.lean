import Mathlib.Order.Bounds.Defs
import Telemetry.Proofs.Sink.Pauses

/-! What comes of an operation that is tried again.
Attempts follow one another as long as they fail transiently and retries are left, so the
last one is the first that settles the matter, or the one behind the last retry. Its outcome
is the result, and the pauses between the attempts are one, two, three units and so on. -/
namespace Telemetry.RetryPolicy

variable {ε α : Type} {retryable : ε → Bool} {outcome : Nat → Except ε α}

/-- The outcome of an attempt that another one may follow. -/
def Transient (retryable : ε → Bool) (outcome : Except ε α) : Prop :=
  ∃ e, outcome = .error e ∧ retryable e = true

/-- The attempts that can be the last one when some retries were made and some are left. -/
def Closing (retryable : ε → Bool) (outcome : Nat → Except ε α) (left retries : Nat) : Set Nat :=
  {k | retries < k ∧ (k = retries + left + 1 ∨ ¬ Transient retryable (outcome k))}

theorem closing_now {left retries : Nat}
    (settled : left = 0 ∨ ¬ Transient retryable (outcome (retries + 1))) :
    IsLeast (Closing retryable outcome left retries) (retries + 1) := by
  constructor
  · refine ⟨Nat.lt_succ_self _, settled.imp_left ?_⟩
    rintro rfl
    rfl
  · intro k closing
    exact closing.1

theorem closing_later {left retries n : Nat}
    (transient : Transient retryable (outcome (retries + 1)))
    (least : IsLeast (Closing retryable outcome left (retries + 1)) n) :
    IsLeast (Closing retryable outcome (left + 1) retries) n := by
  obtain ⟨⟨behind, closes⟩, below⟩ := least
  constructor
  · exact ⟨Nat.lt_of_succ_lt behind, closes.imp_left fun last => by omega⟩
  · rintro k ⟨later, last⟩
    by_cases next : k = retries + 1
    · subst next
      rcases last with last | settled
      · omega
      · exact absurd transient settled
    · exact below ⟨by omega, last.imp_left fun last => by omega⟩

/-- What comes of attempts of which the last one has a number. -/
structure Comes (p : RetryPolicy) (outcome : Nat → Except ε α) (retries : Nat) (now : Tick)
    (n : Nat) (run : Run ε α) : Prop where
  result : run.result = outcome n
  pauses : run.pauses = (List.range' (retries + 1) (n - (retries + 1))).map p.delay
  attempts : run.attempts = (List.range (n - retries)).map fun k => now + p.pauses k retries

theorem comes_now {p : RetryPolicy} {retries : Nat} {now : Tick} {result : Except ε α}
    (same : outcome (retries + 1) = result) :
    Comes p outcome retries now (retries + 1) ⟨result, [], [now]⟩ := by
  refine ⟨same.symm, ?_, ?_⟩
  · rw [Nat.sub_self]
    rfl
  · rw [Nat.add_sub_cancel_left]
    rfl

/-- An attempt and the pause behind it come before those that follow. -/
theorem Comes.after_pause {p : RetryPolicy} {retries n : Nat} {now : Tick} {rest : Run ε α}
    (behind : retries + 1 < n)
    (comes : Comes p outcome (retries + 1) (now + (p.delay (retries + 1)).ticks) n rest) :
    Comes p outcome retries now n
      ⟨rest.result, p.delay (retries + 1) :: rest.pauses, now :: rest.attempts⟩ := by
  obtain ⟨result, pauses, attempts⟩ := comes
  refine ⟨result, ?_, ?_⟩
  · rw [pauses, show n - (retries + 1) = n - (retries + 1 + 1) + 1 by omega, List.range'_succ,
      List.map_cons]
  · rw [show n - retries = n - (retries + 1) + 1 by omega, List.range_succ_eq_map, List.map_cons,
      List.map_map, attempts]
    refine List.cons_eq_cons.mpr ⟨rfl, List.map_congr_left fun k _ => ?_⟩
    rw [Function.comp_apply, Nat.succ_eq_add_one, pauses_succ, Nat.add_assoc]

theorem runFrom_comes (p : RetryPolicy) (retryable : ε → Bool) (outcome : Nat → Except ε α)
    (left retries : Nat) (now : Tick) :
    ∃ n, IsLeast (Closing retryable outcome left retries) n ∧
      Comes p outcome retries now n (p.runFrom retryable outcome left retries now) := by
  induction left generalizing retries now with
  | zero =>
    refine ⟨retries + 1, closing_now (.inl rfl), ?_⟩
    cases made : outcome (retries + 1) with
    | ok a =>
      rw [runFrom, made]
      exact comes_now made
    | error e =>
      rw [runFrom, made]
      simp only [ite_self]
      exact comes_now made
  | succ left ih =>
    cases made : outcome (retries + 1) with
    | ok a =>
      have settled : ¬ Transient retryable (outcome (retries + 1)) := by
        rintro ⟨e, failed, _⟩
        cases made.symm.trans failed
      rw [runFrom, made]
      exact ⟨retries + 1, closing_now (.inr settled), comes_now made⟩
    | error e =>
      rw [runFrom, made]
      by_cases again : retryable e = true
      · simp only [again, if_true]
        obtain ⟨n, least, comes⟩ := ih (retries + 1) (now + (p.delay (retries + 1)).ticks)
        exact ⟨n, closing_later ⟨e, made, again⟩ least, comes.after_pause least.1.1⟩
      · have settled : ¬ Transient retryable (outcome (retries + 1)) := by
          rintro ⟨e', failed, again'⟩
          cases made.symm.trans failed
          exact again again'
        simp only [again]
        exact ⟨retries + 1, closing_now (.inr settled), comes_now made⟩

/-- The moment of an attempt is the sum of the pauses before it. -/
theorem sum_take_delays (p : RetryPolicy) {count k : Nat} (within : k ≤ count) :
    ((((List.range' 1 count).map p.delay).take k).map Span.ticks).sum = p.pauses k 0 := by
  rw [← List.map_take, List.take_range'_of_length_ge within, List.map_map, ← sum_delays]
  rfl

/-- However attempts come out and whatever the policy is: the operation is tried until its
outcome is no transient failure any more or no retry is left, and gives the outcome of the
last attempt. The pauses between the attempts are one unit, two units and so on, none longer
than the longest span, and each attempt is made when the pauses before it have passed: where
the unit is a number of whole milliseconds and no pause is cut, after as many units as the
numbers up to that of the last pause come to. -/
theorem run_tries_until_settled (p : RetryPolicy) (retryable : ε → Bool)
    (outcome : Nat → Except ε α) :
    let run := p.run retryable outcome
    ∃ n, IsLeast {k | 0 < k ∧ (k = p.maxRetries + 1 ∨ ¬ Transient retryable (outcome k))} n ∧
      run.result = outcome n ∧
      run.attempts.length = n ∧
      run.pauses = (List.range' 1 (n - 1)).map p.backoff.scale ∧
      run.attempts = (List.range n).map (fun k => ((run.pauses.take k).map Span.ticks).sum) ∧
      ∀ ms, p.backoff = .ofMillis ms → ms * (n - 1) * 10 ^ 6 ≤ Span.longest.toNanos →
        run.attempts = (List.range n).map fun k => ms * (k * (k + 1) / 2) := by
  intro run
  obtain ⟨n, least, result, pauses, attempts⟩ :=
    p.runFrom_comes retryable outcome p.maxRetries 0 0
  have units : (List.range' 1 (n - 1)).map p.delay =
      (List.range' 1 (n - 1)).map p.backoff.scale := by
    refine List.map_congr_left fun k member => ?_
    have counted : 1 ≤ k := (List.mem_range'_1.mp member).1
    rw [delay, Nat.max_eq_left counted]
  have numbered :
      IsLeast {k | 0 < k ∧ (k = p.maxRetries + 1 ∨ ¬ Transient retryable (outcome k))} n := by
    simpa only [Closing, Nat.zero_add] using least
  have within {k : Nat} (member : k ∈ List.range n) : k ≤ n - 1 :=
    Nat.le_sub_one_of_lt (List.mem_range.mp member)
  refine ⟨n, numbered, result, ?_, pauses.trans units, ?_, fun ms unit fits => ?_⟩
  · simp [run, RetryPolicy.run, attempts]
  · rw [show run.attempts = _ from attempts, show run.pauses = _ from pauses]
    refine List.map_congr_left fun k member => ?_
    rw [sum_take_delays p (within member), Nat.zero_add]
  · rw [show run.attempts = _ from attempts]
    refine List.map_congr_left fun k member => ?_
    have short : ms * k * 10 ^ 6 ≤ Span.longest.toNanos :=
      Nat.le_trans (Nat.mul_le_mul_right _ (Nat.mul_le_mul_left _ (within member))) fits
    rw [pauses_of_fits unit short, Nat.zero_add]

end Telemetry.RetryPolicy
