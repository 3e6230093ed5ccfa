import Mathlib.Logic.Function.Iterate
import Telemetry.Proofs.Sink.Pauses
import Telemetry.Proofs.Sink.Settling

/-! A flush that tries again under a deadline.
Where no task runs, the attempts of a flush follow one another as its policy says, each one
when the pauses before it have passed. The flush ends with the first attempt that succeeds,
with the last one that its policy allows, or at its deadline between two attempts. An attempt
that falls on the deadline is still made. -/
namespace Telemetry

namespace RetryPolicy

theorem pauses_zero (p : RetryPolicy) (retries : Nat) : p.pauses 0 retries = 0 := rfl

theorem pauses_add_last (p : RetryPolicy) (count retries : Nat) :
    p.pauses (count + 1) retries =
      p.pauses count retries + (p.delay (retries + count + 1)).ticks := by
  induction count generalizing retries with
  | zero => exact Nat.add_comm _ _
  | succ count ih =>
    rw [pauses_succ, ih (retries + 1), pauses_succ,
      show retries + 1 + count + 1 = retries + (count + 1) + 1 by omega]
    omega

theorem pauses_lt {p : RetryPolicy} {count : Nat} (positive : 0 < (p.delay (count + 1)).ticks) :
    p.pauses count 0 < p.pauses (count + 1) 0 := by
  rw [pauses_add_last, Nat.zero_add]
  omega

/-- A moment before the last attempt falls between two attempts that follow each other. -/
theorem exists_between (p : RetryPolicy) {limit : Nat} (count : Nat)
    (before : limit < p.pauses count 0) :
    ∃ k < count, p.pauses k 0 ≤ limit ∧ limit < p.pauses (k + 1) 0 := by
  induction count with
  | zero => exact absurd before (Nat.not_lt_zero _)
  | succ count ih =>
    by_cases earlier : limit < p.pauses count 0
    · obtain ⟨k, below, between⟩ := ih earlier
      exact ⟨k, Nat.lt_succ_of_lt below, between⟩
    · exact ⟨count, Nat.lt_succ_self _, Nat.le_of_not_lt earlier, before⟩

variable {p : RetryPolicy} {ms : Nat} {limit : Span}

theorem delay_pos (unit : p.backoff = .ofMillis ms) (positive : 0 < ms) (n : Nat) :
    0 < (p.delay (n + 1)).ticks := by
  have atLeast : 10 ^ 6 ≤ ms * 10 ^ 6 * max (n + 1) 1 := by
    rw [Nat.mul_right_comm]
    exact Nat.le_mul_of_pos_left _ (Nat.mul_pos positive (by omega))
  have large : 10 ^ 6 ≤ Span.longest.toNanos := by decide
  rw [Span.ticks, delay, Span.toNanos_scale, unit, Span.toNanos_ofMillis]
  omega

/-- Where a pause is cut, the pauses up to it outlast every span, and so they would uncut. -/
theorem ticks_lt_of_cut (unit : p.backoff = .ofMillis ms) (positive : 0 < ms)
    (valid : (Span.ofMillis ms).toNanos ≤ Span.longest.toNanos)
    (limited : limit.toNanos ≤ Span.longest.toNanos) {k : Nat}
    (cut : ¬ ms * k * 10 ^ 6 ≤ Span.longest.toNanos) :
    limit.ticks < p.pauses k 0 ∧ limit.ticks < ms * (k * (k + 1) / 2) := by
  have whole : Span.longest.ticks * 10 ^ 6 = Span.longest.toNanos + 1 := by decide
  have most : limit.ticks ≤ Span.longest.ticks := Span.ticks_mono limited
  have long : Span.longest.ticks ≤ ms * k := by omega
  rw [Span.toNanos_ofMillis] at valid
  -- The first pause is not cut, so the one that is cut comes later.
  obtain ⟨j, rfl⟩ : ∃ j, k = j + 2 := by
    rcases k with _ | _ | j
    · omega
    · omega
    · exact ⟨j, rfl⟩
  constructor
  · have last : (p.delay (j + 1 + 1)).ticks = Span.longest.ticks := by
      rw [delay, unit, Span.scale, Span.toNanos_ofMillis, Nat.max_eq_left (Nat.le_add_left 1 _),
        Nat.mul_right_comm, if_neg cut]
    have first : 0 < p.pauses (j + 1) 0 := by
      rw [pauses_succ]
      exact Nat.add_pos_left (delay_pos unit positive 0) _
    rw [pauses_add_last, Nat.zero_add, last]
    omega
  · have more : j + 2 + 1 ≤ (j + 2) * (j + 2 + 1) / 2 := by
      rw [Nat.le_div_iff_mul_le Nat.two_pos, Nat.mul_comm]
      exact Nat.mul_le_mul_right _ (Nat.le_add_left 2 j)
    have bound := Nat.mul_le_mul_left ms more
    rw [Nat.mul_add, Nat.mul_one] at bound
    omega

/-- Attempts that come by a moment are those that would without a longest span. -/
theorem pauses_le_iff (unit : p.backoff = .ofMillis ms) (positive : 0 < ms)
    (valid : (Span.ofMillis ms).toNanos ≤ Span.longest.toNanos)
    (limited : limit.toNanos ≤ Span.longest.toNanos) (k : Nat) :
    p.pauses k 0 ≤ limit.ticks ↔ ms * (k * (k + 1) / 2) ≤ limit.ticks := by
  by_cases fits : ms * k * 10 ^ 6 ≤ Span.longest.toNanos
  · rw [pauses_of_fits unit fits]
  · obtain ⟨late, later⟩ := ticks_lt_of_cut unit positive valid limited fits
    omega

theorem pauses_eq_of_le (unit : p.backoff = .ofMillis ms) (positive : 0 < ms)
    (valid : (Span.ofMillis ms).toNanos ≤ Span.longest.toNanos)
    (limited : limit.toNanos ≤ Span.longest.toNanos) {k : Nat}
    (early : ms * (k * (k + 1) / 2) ≤ limit.ticks) :
    p.pauses k 0 = ms * (k * (k + 1) / 2) := by
  by_cases fits : ms * k * 10 ^ 6 ≤ Span.longest.toNanos
  · exact pauses_of_fits unit fits
  · exact absurd early (Nat.not_le_of_lt (ticks_lt_of_cut unit positive valid limited fits).2)

end RetryPolicy

section Settled

variable {τ : Type} (due : τ → Option Tick) {settle : Tick → τ → τ} {stop : τ → Bool}
  {horizon now t : Tick} {q : τ}

theorem settleRounds_quiet (n : Nat) (quiet : Service.isReached now (due q) = false) :
    settleRounds due settle now n q = q := by
  cases n with
  | zero => rfl
  | succ n => rw [settleRounds, quiet, if_neg Bool.false_ne_true]

theorem runUntil_stopped (stopped : stop q = true) :
    runUntil due settle stop horizon now q = (now, q) := by
  rw [runUntil, if_pos stopped]

theorem runUntil_next (going : stop q = false) (next : due q = some t) (later : now < t)
    (within : t ≤ horizon) :
    runUntil due settle stop horizon now q =
      runUntil due settle stop horizon t (settle t q) := by
  rw [runUntil, going, if_neg Bool.false_ne_true, next]
  exact dif_pos ⟨later, within⟩

end Settled

namespace Service

/-- Jobs that make one attempt after another under a policy, which no attempt changes. -/
class Trying (S σ : Type) [Duty σ Pause] [Work S σ Pause] where
  attempt : Stage S σ → Except Fault Unit × Stage S σ
  policy : σ → RetryPolicy
  begin_eq : ∀ (now : Tick) (g : Stage S σ),
    Work.begin now g = firstAttempts (policy g.state) now attempt g
  resume_eq : ∀ (now : Tick) (pause : Pause) (g : Stage S σ),
    Work.resume now pause g = furtherAttempts (policy g.state) now attempt pause g
  wake?_eq : ∀ (pause : Pause) (s : σ), Duty.wake? pause s = some pause.wake
  abandon_eq : ∀ (pause : Pause) (s : σ), Duty.abandon pause s = s
  attempt_policy : ∀ g : Stage S σ, policy (attempt g).2.state = policy g.state
  retryable : ∀ {g : Stage S σ} {fault : Fault}, (attempt g).1 = .error fault →
    fault.isRetryable = true

variable {S σ : Type} [Duty σ Pause] [Work S σ Pause] [Trying S σ]

def tried (k : Nat) (g : Stage S σ) : Stage S σ :=
  (fun g => (Trying.attempt g).2)^[k] g

def tryResult (k : Nat) (g : Stage S σ) : Except Fault Unit :=
  (Trying.attempt (tried k g)).1

theorem attempt_tried (k : Nat) (g : Stage S σ) :
    Trying.attempt (tried k g) = (tryResult k g, tried (k + 1) g) := by
  refine Prod.ext rfl ?_
  exact (Function.iterate_succ_apply' (fun g => (Trying.attempt g).2) k g).symm

theorem policy_tried (k : Nat) (g : Stage S σ) :
    Trying.policy S (tried k g).state = Trying.policy S g.state := by
  induction k with
  | zero => rfl
  | succ k ih =>
    have made : (Trying.attempt (tried k g)).2 = tried (k + 1) g :=
      congrArg Prod.snd (attempt_tried k g)
    rw [← made, Trying.attempt_policy, ih]

variable {p : RetryPolicy} {now : Tick} {k : Nat} {g : Stage S σ}

/-- An attempt ends the job, or it pauses until the moment of the next one. -/
theorem attempts_tried (positive : k < p.maxRetries → 0 < (p.delay (k + 1)).ticks) :
    attempts p (now + p.pauses k 0) Trying.attempt (p.maxRetries - k) k (tried k g) =
      (match tryResult k g with
        | .ok () => .finished (.ok ())
        | .error fault =>
          if p.maxRetries ≤ k then .finished (.error fault)
          else .waiting ⟨k + 1, now + p.pauses (k + 1) 0⟩, tried (k + 1) g) := by
  cases given : tryResult k g with
  | ok _ =>
    have done : Trying.attempt (tried k g) = (.ok (), tried (k + 1) g) := by
      rw [attempt_tried, given]
    exact attempts_done done _ _
  | error fault =>
    have retryable : fault.isRetryable = true := Trying.retryable given
    by_cases last : p.maxRetries ≤ k
    · rw [Nat.sub_eq_zero_of_le last, attempts, attempt_tried, given]
      simp only [retryable, last, if_true]
    · have pause := positive (Nat.lt_of_not_le last)
      have wake : now + p.pauses k 0 + (p.delay (k + 1)).ticks = now + p.pauses (k + 1) 0 := by
        rw [RetryPolicy.pauses_add_last, Nat.zero_add, Nat.add_assoc]
      rw [show p.maxRetries - k = p.maxRetries - (k + 1) + 1 by omega, attempts, attempt_tried,
        given]
      simp only [retryable, last, if_true, if_false, Nat.ne_of_gt pause, wake]

/-- The call after the attempt behind `k` others. -/
def callAfter (p : RetryPolicy) (now : Tick) (timeout : Span) (g : Stage S σ) (k : Nat) :
    Call Pause :=
  match tryResult k g with
  | .ok () => .ended (.ok ())
  | .error fault =>
    if p.maxRetries ≤ k then .ended (.error fault)
    else if timeout.ticks ≤ p.pauses k 0 then .ended (.error (.timeout timeout))
    else .working ⟨k + 1, now + p.pauses (k + 1) 0⟩ timeout (now + timeout.ticks)

def standing (s : Service S σ Pause) (g : Stage S σ) (call : Call Pause) :
    Service S σ Pause × World S :=
  { s with call := some call }.putStage g

variable {timeout : Span} {s : Service S σ Pause} {w : World S}

theorem afterCallJob_tried (now : Tick) (timeout : Span) (s : Service S σ Pause)
    (positive : k < p.maxRetries → 0 < (p.delay (k + 1)).ticks) :
    afterCallJob (now + p.pauses k 0) timeout (now + timeout.ticks) s
        (attempts p (now + p.pauses k 0) Trying.attempt (p.maxRetries - k) k (tried k g)) =
      standing s (tried (k + 1) g) (callAfter p now timeout g k) := by
  rw [attempts_tried positive]
  unfold callAfter
  cases given : tryResult k g with
  | ok _ => rfl
  | error fault =>
    by_cases last : p.maxRetries ≤ k
    · simp only [last, if_true]
      rfl
    · simp only [last, if_false, afterCallJob, Nat.add_le_add_iff_left, Trying.abandon_eq (S := S)]
      split <;> rfl

theorem beginFlush_tried (now : Tick) (timeout : Span) (s : Service S σ Pause) (w : World S)
    (policy : Trying.policy S s.state = p)
    (positive : 0 < p.maxRetries → 0 < (p.delay 1).ticks) :
    beginFlush now timeout s w =
      standing s (tried 1 (s.stage w)) (callAfter p now timeout (s.stage w) 0) := by
  have begun : Work.begin now (s.stage w) =
      attempts p now Trying.attempt p.maxRetries 0 (s.stage w) := by
    rw [Trying.begin_eq, show Trying.policy S (s.stage w).state = p from policy]
    rfl
  rw [beginFlush, begun]
  exact afterCallJob_tried (k := 0) (g := s.stage w) now timeout s positive

omit [Trying S σ] in
theorem pollTasks_idle (now : Tick) (idle : s.tasks = []) (w : World S) :
    pollTasks now s w = (s, w) := by
  obtain ⟨state, reporter, tasks, handle, nextId, call⟩ := s
  cases idle
  rfl

theorem due_working (idle : s.tasks = []) (g : Stage S σ) (pause : Pause) (deadline : Tick) :
    Sink.due (standing s g (.working pause timeout deadline)).1 =
      some (min pause.wake deadline) := by
  show Service.due _ = _
  simp [Service.due, standing, putStage, idle, callDue, Trying.wake?_eq (S := S), earliest]

omit [Trying S σ] in
theorem due_ended (idle : s.tasks = []) (g : Stage S σ) (result : Except Fault Unit) :
    Sink.due (standing s g (.ended result)).1 = none := by
  show Service.due _ = _
  simp [Service.due, standing, putStage, idle, callDue]

omit [Trying S σ] in
/-- Where the call leaves nothing to be done, it is the only one to go on at its moment. -/
theorem settle_call {q : Service S σ Pause × World S} (idle : s.tasks = [])
    (idle' : q.1.tasks = []) (due : isReached now (Sink.due s) = true)
    (polled : pollCall now s w = q) (quiet : isReached now (Sink.due q.1) = false) :
    Session.settle now (s, w) = q := by
  have rounds : Sink.rounds s = Duty.rounds s.state + 15 + 1 := by
    show Duty.rounds s.state + 16 * (s.tasks.length + 1) = _
    rw [idle]
    rfl
  have round : Session.round now (s, w) = q := by
    show pollTasks now (pollCall now s w).1 (pollCall now s w).2 = q
    rw [polled, pollTasks_idle now idle']
  show settleRounds (fun q => Sink.due q.1) Session.round now (Sink.rounds s) (s, w) = q
  rw [rounds, settleRounds, if_pos due, round]
  exact settleRounds_quiet _ _ quiet

/-- A call that pauses resumes its job at the end of the pause, if that is no later than the
deadline, and makes one more attempt. -/
theorem pollCall_tried (policy : Trying.policy S g.state = p)
    (positive : k < p.maxRetries → 0 < (p.delay (k + 1)).ticks) :
    pollCall (now + p.pauses k 0)
        (standing s (tried k g) (.working ⟨k, now + p.pauses k 0⟩ timeout (now + timeout.ticks))).1
        (tried k g).world =
      standing s (tried (k + 1) g) (callAfter p now timeout g k) := by
  have woken (d : Option Tick) : isReached (now + p.pauses k 0)
      (earliest (some (now + p.pauses k 0)) d) = true := by
    rw [isReached_earliest]
    simp [isReached]
  have resumed : Work.resume (now + p.pauses k 0) ⟨k, now + p.pauses k 0⟩ (tried k g) =
      attempts p (now + p.pauses k 0) Trying.attempt (p.maxRetries - k) k (tried k g) := by
    rw [Trying.resume_eq, policy_tried, policy]
    rfl
  have made := afterCallJob_tried (g := g) now timeout
    (standing s (tried k g) (.working ⟨k, now + p.pauses k 0⟩ timeout (now + timeout.ticks))).1
    positive
  rw [← resumed] at made
  simp only [pollCall, callDue, standing, putStage, Trying.wake?_eq (S := S), woken,
    Bool.not_true, Bool.false_eq_true, if_false]
  simp only [isReached, Nat.le_refl, decide_true, if_true]
  exact made

theorem pollCall_late {deadline : Tick} {pause : Pause} (later : deadline < pause.wake)
    (g : Stage S σ) :
    pollCall deadline (standing s g (.working pause timeout deadline)).1 g.world =
      standing s g (.ended (.error (.timeout timeout))) := by
  have asleep : isReached deadline (some pause.wake) = false := by
    simpa [isReached] using later
  simp only [pollCall, callDue, standing, putStage, Trying.wake?_eq (S := S), isReached_earliest,
    asleep, Bool.false_or]
  simp only [isReached, Nat.le_refl, decide_true, Bool.not_true, Bool.false_eq_true, if_false,
    afterCallJob, if_true, Trying.abandon_eq (S := S)]
  rfl

theorem quiet_after (idle : s.tasks = []) (g' : Stage S σ)
    (positive : k < p.maxRetries → 0 < (p.delay (k + 1)).ticks) :
    isReached (now + p.pauses k 0)
      (Sink.due (standing s g' (callAfter p now timeout g k)).1) = false := by
  unfold callAfter
  split
  · rw [due_ended idle]
    rfl
  · split
    · rw [due_ended idle]
      rfl
    · rename_i more
      split
      · rw [due_ended idle]
        rfl
      · rename_i early
        have next := RetryPolicy.pauses_lt (positive (Nat.lt_of_not_le more))
        rw [due_working idle]
        refine decide_eq_false (Nat.not_le_of_lt (Nat.lt_min.mpr ⟨?_, ?_⟩))
        · exact Nat.add_lt_add_left next now
        · exact Nat.add_lt_add_left (Nat.lt_of_not_le early) now

/-- The call goes on where its attempt failed and the next one comes by the deadline. -/
theorem callAfter_failed (now : Tick) {fault : Fault} (failed : tryResult k g = .error fault)
    (more : k < p.maxRetries) (early : p.pauses k 0 < timeout.ticks) :
    callAfter p now timeout g k =
      .working ⟨k + 1, now + p.pauses (k + 1) 0⟩ timeout (now + timeout.ticks) := by
  simp only [callAfter, failed, Nat.not_le_of_lt more, if_false, Nat.not_le_of_lt early]

/-- A flush that was begun waits from a moment on. -/
def waitOn (p : RetryPolicy) (now : Tick) (timeout : Span) (s : Service S σ Pause) (w : World S)
    (t : Tick) (q : Service S σ Pause × World S) : Tick × Service S σ Pause × World S :=
  runUntil (fun q => Sink.due q.1) Session.settle (fun q => (Sink.result? q.1).isSome)
    (Sink.latest now (standing s (tried 1 (s.stage w)) (callAfter p now timeout (s.stage w) 0)).1
      (tried 1 (s.stage w)).world) t q

/-- A flush that waits, from the attempt behind `k` others on. -/
def awaitFrom (p : RetryPolicy) (now : Tick) (timeout : Span) (s : Service S σ Pause) (w : World S)
    (k : Nat) : Tick × Service S σ Pause × World S :=
  waitOn p now timeout s w (now + p.pauses k 0)
    (standing s (tried (k + 1) (s.stage w)) (callAfter p now timeout (s.stage w) k))

/-- What is given back when the waiting is over. -/
def told (r : Tick × Service S σ Pause × World S) :
    Option (Except Fault Unit) × Session S (Service S σ Pause) :=
  (Sink.result? r.2.1, ⟨Sink.endCall r.2.1, r.2.2, r.1⟩)

theorem flush_awaitFrom (idle : s.tasks = []) (policy : Trying.policy S s.state = p)
    (positive : 0 < p.maxRetries → 0 < (p.delay 1).ticks) :
    Session.flush timeout ⟨s, w, now⟩ = told (awaitFrom p now timeout s w 0) := by
  have begun := beginFlush_tried now timeout s w policy positive
  have quiet : isReached now (Sink.due (standing s (tried 1 (s.stage w))
      (callAfter p now timeout (s.stage w) 0)).1) = false :=
    quiet_after (k := 0) idle _ positive
  show Session.await (beginFlush now timeout s w) now = _
  rw [begun]
  have settled : Session.settle now (standing s (tried 1 (s.stage w))
      (callAfter p now timeout (s.stage w) 0)) = standing s (tried 1 (s.stage w))
      (callAfter p now timeout (s.stage w) 0) :=
    settleRounds_quiet (fun q : Service S σ Pause × World S => Sink.due q.1) _ quiet
  rw [Session.await, settled, awaitFrom, RetryPolicy.pauses_zero, Nat.add_zero]
  rfl

omit [Trying S σ] in
theorem result?_standing (s : Service S σ Pause) (g : Stage S σ) (call : Call Pause) :
    Sink.result? (standing s g call).1 =
      match call with
      | .ended result => some result
      | _ => none := by
  cases call <;> rfl

theorem awaitFrom_ended {result : Except Fault Unit}
    (ended : callAfter p now timeout (s.stage w) k = .ended result) :
    awaitFrom p now timeout s w k =
      (now + p.pauses k 0, standing s (tried (k + 1) (s.stage w)) (.ended result)) := by
  rw [awaitFrom, ended]
  exact runUntil_stopped _ rfl

/-- Once the first attempt has failed the flush is waited for at least until its deadline. -/
theorem deadline_le_latest {pause : Pause} (idle : s.tasks = [])
    (working : callAfter p now timeout (s.stage w) 0 =
      .working pause timeout (now + timeout.ticks)) :
    now + timeout.ticks ≤ Sink.latest now
      (standing s (tried 1 (s.stage w)) (callAfter p now timeout (s.stage w) 0)).1
      (tried 1 (s.stage w)).world := by
  rw [working]
  show _ ≤ Service.latest now _ _
  simp only [latest, standing, putStage, idle, List.foldl_nil]
  lia

/-- Behind an attempt that failed, time passes to the next one or to the deadline, whichever
comes first, and the call goes on there. -/
theorem awaitFrom_passes {t : Tick} {q : Service S σ Pause × World S} (idle : s.tasks = [])
    (more : k < p.maxRetries) (failures : ∀ j ≤ k, ∃ fault, tryResult j (s.stage w) = .error fault)
    (early : p.pauses k 0 < timeout.ticks) (pause : p.pauses k 0 < p.pauses (k + 1) 0)
    (next : t = min (now + p.pauses (k + 1) 0) (now + timeout.ticks))
    (polled : pollCall t (standing s (tried (k + 1) (s.stage w)) (.working
        ⟨k + 1, now + p.pauses (k + 1) 0⟩ timeout (now + timeout.ticks))).1
      (tried (k + 1) (s.stage w)).world = q)
    (idle' : q.1.tasks = []) (quiet : isReached t (Sink.due q.1) = false) :
    awaitFrom p now timeout s w k = waitOn p now timeout s w t q := by
  obtain ⟨fault, failed⟩ := failures k (Nat.le_refl k)
  obtain ⟨first, failedFirst⟩ := failures 0 (Nat.zero_le k)
  have atFirst := callAfter_failed now failedFirst (Nat.zero_lt_of_lt more)
    (Nat.zero_lt_of_lt early)
  have horizon := deadline_le_latest idle atFirst
  have due : Sink.due (standing s (tried (k + 1) (s.stage w)) (.working
      ⟨k + 1, now + p.pauses (k + 1) 0⟩ timeout (now + timeout.ticks))).1 = some t := by
    rw [due_working idle, next]
  have reached : isReached t (some t) = true := by simp [isReached]
  rw [← due] at reached
  have settled := settle_call (s := (standing s (tried (k + 1) (s.stage w)) (.working
    ⟨k + 1, now + p.pauses (k + 1) 0⟩ timeout (now + timeout.ticks))).1) idle idle' reached polled
    quiet
  rw [awaitFrom, callAfter_failed now failed more early]
  refine (runUntil_next (fun q : Service S σ Pause × World S => Sink.due q.1) ?_ due ?_ ?_).trans ?_
  · rw [result?_standing]
    rfl
  · rw [next]
    exact Nat.lt_min.mpr ⟨Nat.add_lt_add_left pause now, Nat.add_lt_add_left early now⟩
  · exact Nat.le_trans (next ▸ Nat.min_le_right ..) horizon
  · exact congrArg (waitOn p now timeout s w t) settled

theorem awaitFrom_next (idle : s.tasks = []) (policy : Trying.policy S s.state = p)
    (positive : ∀ k < p.maxRetries, 0 < (p.delay (k + 1)).ticks) (more : k < p.maxRetries)
    (failures : ∀ j ≤ k, ∃ fault, tryResult j (s.stage w) = .error fault)
    (early : p.pauses (k + 1) 0 ≤ timeout.ticks) :
    awaitFrom p now timeout s w k = awaitFrom p now timeout s w (k + 1) := by
  have pause := RetryPolicy.pauses_lt (positive k more)
  refine awaitFrom_passes idle more failures (Nat.lt_of_lt_of_le pause early) pause ?_
    (pollCall_tried policy (positive (k + 1))) idle (quiet_after idle _ (positive (k + 1)))
  rw [Nat.min_eq_left (Nat.add_le_add_left early now)]

/-- Where the deadline comes first, the flush is over then. -/
theorem awaitFrom_late (idle : s.tasks = []) (more : k < p.maxRetries)
    (failures : ∀ j ≤ k, ∃ fault, tryResult j (s.stage w) = .error fault)
    (early : p.pauses k 0 < timeout.ticks) (late : timeout.ticks < p.pauses (k + 1) 0) :
    awaitFrom p now timeout s w k =
      (now + timeout.ticks,
        standing s (tried (k + 1) (s.stage w)) (.ended (.error (.timeout timeout)))) := by
  have next : now + timeout.ticks = min (now + p.pauses (k + 1) 0) (now + timeout.ticks) := by
    rw [Nat.min_eq_right (Nat.add_le_add_left (Nat.le_of_lt late) now)]
  have quiet : isReached (now + timeout.ticks) (Sink.due (standing s (tried (k + 1) (s.stage w))
      (.ended (.error (.timeout timeout)))).1) = false := by
    rw [due_ended idle]
    rfl
  rw [awaitFrom_passes idle more failures early (Nat.lt_trans early late) next
    (pollCall_late (Nat.add_lt_add_left late now) _) idle quiet]
  exact runUntil_stopped _ rfl

/-- A flush all of whose attempts so far have failed waits from the last one on. -/
theorem flush_reaches (idle : s.tasks = []) (policy : Trying.policy S s.state = p)
    (positive : ∀ k < p.maxRetries, 0 < (p.delay (k + 1)).ticks) (within : k ≤ p.maxRetries)
    (failed : ∀ j < k, ∃ fault, tryResult j (s.stage w) = .error fault)
    (early : p.pauses k 0 ≤ timeout.ticks) :
    Session.flush timeout ⟨s, w, now⟩ = told (awaitFrom p now timeout s w k) := by
  induction k with
  | zero => exact flush_awaitFrom idle policy (positive 0)
  | succ k ih =>
    have before := RetryPolicy.pauses_lt (positive k within)
    rw [ih (Nat.le_of_lt within) (fun j below => failed j (Nat.lt_succ_of_lt below))
      (Nat.le_of_lt (Nat.lt_of_lt_of_le before early))]
    exact congrArg told (awaitFrom_next idle policy positive within
      (fun j upTo => failed j (Nat.lt_succ_of_le upTo)) early)

/-- A flush returns a result at a moment, and leaves a stage behind. -/
structure FlushEnds (timeout : Span) (s : Service S σ Pause) (w : World S) (now : Tick)
    (result : Except Fault Unit) (moment : Tick) (after : Stage S σ) : Prop where
  result : (Session.flush timeout (⟨s, w, now⟩ : Session S (Service S σ Pause))).1 = some result
  moment : (Session.flush timeout (⟨s, w, now⟩ : Session S (Service S σ Pause))).2.now = moment
  stage : (Session.flush timeout (⟨s, w, now⟩ : Session S (Service S σ Pause))).2.sink.stage
    (Session.flush timeout (⟨s, w, now⟩ : Session S (Service S σ Pause))).2.world = after

omit [Trying S σ] in
theorem flushEnds_of_told {result : Except Fault Unit} {moment : Tick} {after : Stage S σ}
    (ended : Session.flush timeout ⟨s, w, now⟩ = told (moment, standing s after (.ended result))) :
    FlushEnds timeout s w now result moment after := by
  refine ⟨?_, ?_, ?_⟩
  · rw [ended]
    rfl
  · rw [ended]
    rfl
  · rw [ended]
    rfl

variable (idle : s.tasks = []) (policy : Trying.policy S s.state = p)
  (positive : ∀ k < p.maxRetries, 0 < (p.delay (k + 1)).ticks)

include idle policy positive

/-- The first attempt that succeeds ends the flush, if it comes by the deadline. -/
theorem flush_succeeds (within : k ≤ p.maxRetries)
    (failed : ∀ j < k, ∃ fault, tryResult j (s.stage w) = .error fault)
    (done : tryResult k (s.stage w) = .ok ()) (early : p.pauses k 0 ≤ timeout.ticks) :
    FlushEnds timeout s w now (.ok ()) (now + p.pauses k 0) (tried (k + 1) (s.stage w)) := by
  refine flushEnds_of_told ?_
  rw [flush_reaches idle policy positive within failed early]
  exact congrArg told (awaitFrom_ended (by simp only [callAfter, done]))

/-- The last attempt ends the flush with its failure, if it comes by the deadline. -/
theorem flush_exhausted {fault : Fault}
    (failed : ∀ j < p.maxRetries, ∃ fault, tryResult j (s.stage w) = .error fault)
    (last : tryResult p.maxRetries (s.stage w) = .error fault)
    (early : p.pauses p.maxRetries 0 ≤ timeout.ticks) :
    FlushEnds timeout s w now (.error fault) (now + p.pauses p.maxRetries 0)
      (tried (p.maxRetries + 1) (s.stage w)) := by
  refine flushEnds_of_told ?_
  rw [flush_reaches idle policy positive (Nat.le_refl _) failed early]
  exact congrArg told (awaitFrom_ended (by simp only [callAfter, last, Nat.le_refl, if_true]))

/-- The deadline ends a flush whose attempts until then have failed. -/
theorem flush_times_out (more : k < p.maxRetries)
    (failed : ∀ j ≤ k, ∃ fault, tryResult j (s.stage w) = .error fault)
    (early : p.pauses k 0 ≤ timeout.ticks) (late : timeout.ticks < p.pauses (k + 1) 0) :
    FlushEnds timeout s w now (.error (.timeout timeout)) (now + timeout.ticks)
      (tried (k + 1) (s.stage w)) := by
  refine flushEnds_of_told ?_
  rw [flush_reaches idle policy positive (Nat.le_of_lt more)
    (fun j below => failed j (Nat.le_of_lt below)) early]
  obtain ⟨fault, last⟩ := failed k (Nat.le_refl k)
  rcases Nat.lt_or_eq_of_le early with before | same
  · exact congrArg told (awaitFrom_late idle more failed before late)
  · rw [← same]
    refine congrArg told (awaitFrom_ended ?_)
    simp only [callAfter, last, Nat.not_le_of_lt more, if_false, ← same, Nat.le_refl, if_true]

omit idle policy positive

/-- Attempts from a stage on of which the first to succeed is behind `k` others. -/
def FirstSuccess (k : Nat) (g : Stage S σ) : Prop :=
  (∀ j < k, ∃ fault, tryResult j g = .error fault) ∧ tryResult k g = .ok ()

/-- How a flush ends whose pauses are one, two, three units of `ms` milliseconds and so on:
with the first attempt that succeeds, with the last one that the policy allows, or at its
deadline, whichever comes first. What `flushed` says holds after a success, and what `spared`
says after a failure. -/
structure FlushTries (p : RetryPolicy) (ms : Nat) (timeout : Span) (s : Service S σ Pause)
    (w : World S) (now : Tick) (flushed spared : Stage S σ → Prop) : Prop where
  succeeds : ∀ k ≤ p.maxRetries, FirstSuccess k (s.stage w) →
    ms * (k * (k + 1) / 2) ≤ timeout.ticks →
      FlushEnds timeout s w now (.ok ()) (now + ms * (k * (k + 1) / 2))
          (tried (k + 1) (s.stage w)) ∧
        flushed (tried (k + 1) (s.stage w))
  fails : (∀ k ≤ p.maxRetries, ∃ fault, tryResult k (s.stage w) = .error fault) →
    ms * (p.maxRetries * (p.maxRetries + 1) / 2) ≤ timeout.ticks →
      ∃ problem, tryResult p.maxRetries (s.stage w) = .error (.io problem) ∧
        FlushEnds timeout s w now (.error (.io problem))
          (now + ms * (p.maxRetries * (p.maxRetries + 1) / 2))
          (tried (p.maxRetries + 1) (s.stage w)) ∧
        spared (tried (p.maxRetries + 1) (s.stage w))
  timesOut : (∀ k ≤ p.maxRetries, FirstSuccess k (s.stage w) →
      timeout.ticks < ms * (k * (k + 1) / 2)) →
    ((∀ k ≤ p.maxRetries, ∃ fault, tryResult k (s.stage w) = .error fault) →
      timeout.ticks < ms * (p.maxRetries * (p.maxRetries + 1) / 2)) →
    ∃ k < p.maxRetries, ms * (k * (k + 1) / 2) ≤ timeout.ticks ∧
      timeout.ticks < ms * ((k + 1) * (k + 2) / 2) ∧
      FlushEnds timeout s w now (.error (.timeout timeout)) (now + timeout.ticks)
        (tried (k + 1) (s.stage w)) ∧
      spared (tried (k + 1) (s.stage w))

theorem tried_keeps {P : Stage S σ → Prop}
    (failed : ∀ g fault, (Trying.attempt g).1 = .error fault → P g → P (Trying.attempt g).2)
    {g : Stage S σ} (start : P g) {k : Nat}
    (failures : ∀ j < k, ∃ fault, tryResult j g = .error fault) : P (tried k g) := by
  induction k with
  | zero => exact start
  | succ k ih =>
    obtain ⟨fault, last⟩ := failures k (Nat.lt_succ_self k)
    have kept := failed _ fault last (ih fun j below => failures j (Nat.lt_succ_of_lt below))
    rwa [attempt_tried] at kept

theorem failures_or_first (n : Nat) (g : Stage S σ) :
    (∀ k ≤ n, ∃ fault, tryResult k g = .error fault) ∨ ∃ k ≤ n, FirstSuccess k g := by
  induction n with
  | zero =>
    cases given : tryResult 0 g with
    | ok _ => exact .inr ⟨0, Nat.le_refl 0, nofun, given⟩
    | error fault =>
      refine .inl fun k within => ?_
      rw [Nat.le_zero.mp within]
      exact ⟨fault, given⟩
  | succ n ih =>
    rcases ih with failures | ⟨k, within, first⟩
    · cases given : tryResult (n + 1) g with
      | ok _ =>
        have before (j : Nat) (below : j < n + 1) := failures j (Nat.le_of_lt_succ below)
        exact .inr ⟨n + 1, Nat.le_refl _, before, given⟩
      | error fault =>
        refine .inl fun k within => ?_
        rcases Nat.lt_or_eq_of_le within with below | rfl
        · exact failures k (Nat.le_of_lt_succ below)
        · exact ⟨fault, given⟩
    · exact .inr ⟨k, Nat.le_succ_of_le within, first⟩

/-- Where attempts that fail keep what `P` says and one that succeeds leads to `Q`, this is so
of a flush that makes them one after another. -/
theorem flush_tries {ms : Nat} {P Q : Stage S σ → Prop} (idle : s.tasks = [])
    (policy : Trying.policy S s.state = p) (unit : p.backoff = .ofMillis ms) (positive : 0 < ms)
    (valid : (Span.ofMillis ms).toNanos ≤ Span.longest.toNanos)
    (limited : timeout.toNanos ≤ Span.longest.toNanos)
    (failed : ∀ g fault, (Trying.attempt g).1 = .error fault → P g → P (Trying.attempt g).2)
    (succeeded : ∀ g, (Trying.attempt g).1 = .ok () → P g → Q (Trying.attempt g).2)
    (start : P (s.stage w)) : FlushTries p ms timeout s w now Q P := by
  have pauses (k : Nat) (_ : k < p.maxRetries) : 0 < (p.delay (k + 1)).ticks :=
    RetryPolicy.delay_pos unit positive k
  have byThen (k : Nat) := RetryPolicy.pauses_le_iff unit positive valid limited k
  have moment {k : Nat} := RetryPolicy.pauses_eq_of_le unit positive valid limited (k := k)
  refine ⟨fun k within first early => ?_, fun failures early => ?_, fun noSuccess noFailure => ?_⟩
  · have kept := succeeded _ first.2 (tried_keeps failed start first.1)
    rw [attempt_tried] at kept
    refine ⟨?_, kept⟩
    rw [← moment early]
    exact flush_succeeds idle policy pauses within first.1 first.2 ((byThen k).mpr early)
  · obtain ⟨fault, last⟩ := failures p.maxRetries (Nat.le_refl _)
    obtain ⟨problem, rfl⟩ : ∃ problem, fault = .io problem := by
      have retryable : fault.isRetryable = true := Trying.retryable last
      cases fault with
      | io problem => exact ⟨problem, rfl⟩
      | _ => cases retryable
    refine ⟨problem, last, ?_, tried_keeps failed start fun j below =>
      failures j (Nat.le_of_lt_succ below)⟩
    rw [← moment early]
    exact flush_exhausted idle policy pauses (fun j below => failures j (Nat.le_of_lt below)) last
      ((byThen p.maxRetries).mpr early)
  · -- The end that does not come in time is behind more pauses than the deadline allows.
    obtain ⟨n, within, failures, late⟩ : ∃ n ≤ p.maxRetries,
        (∀ j < n, ∃ fault, tryResult j (s.stage w) = .error fault) ∧
          timeout.ticks < p.pauses n 0 := by
      rcases failures_or_first p.maxRetries (s.stage w) with failures | ⟨k, within, first⟩
      · refine ⟨p.maxRetries, Nat.le_refl _, fun j below => failures j (Nat.le_of_lt below), ?_⟩
        exact Nat.lt_of_not_le fun early =>
          Nat.not_le_of_lt (noFailure failures) ((byThen p.maxRetries).mp early)
      · refine ⟨k, within, first.1, ?_⟩
        exact Nat.lt_of_not_le fun early =>
          Nat.not_le_of_lt (noSuccess k within first) ((byThen k).mp early)
    obtain ⟨k, below, early, next⟩ := p.exists_between n late
    have soFar (j : Nat) (upTo : j ≤ k) : ∃ fault, tryResult j (s.stage w) = .error fault :=
      failures j (Nat.lt_of_le_of_lt upTo below)
    have more : k < p.maxRetries := Nat.lt_of_lt_of_le below within
    refine ⟨k, more, (byThen k).mp early, ?_, ?_, ?_⟩
    · exact Nat.lt_of_not_le fun reached => Nat.not_le_of_lt next ((byThen (k + 1)).mpr reached)
    · exact flush_times_out idle policy pauses more soFar early next
    · exact tried_keeps failed start fun j below => soFar j (Nat.le_of_lt_succ below)

theorem FlushTries.mono {ms : Nat} {flushed flushed' spared spared' : Stage S σ → Prop}
    (tries : FlushTries p ms timeout s w now flushed spared)
    (onSuccess : ∀ g, flushed g → flushed' g) (onFailure : ∀ g, spared g → spared' g) :
    FlushTries p ms timeout s w now flushed' spared' := by
  obtain ⟨succeeds, fails, timesOut⟩ := tries
  refine ⟨fun k within first early => ?_, fun failures early => ?_, fun noSuccess noFailure => ?_⟩
  · exact (succeeds k within first early).imp_right (onSuccess _)
  · obtain ⟨problem, last, ends, kept⟩ := fails failures early
    exact ⟨problem, last, ends, onFailure _ kept⟩
  · obtain ⟨k, more, early, late, ends, kept⟩ := timesOut noSuccess noFailure
    exact ⟨k, more, early, late, ends, onFailure _ kept⟩

end Service
end Telemetry
