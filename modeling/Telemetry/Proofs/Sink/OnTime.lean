import Telemetry.Proofs.Sink.Pausing

/-! A background task that nobody told to end always has something to do before long.
Its next tick comes within a period, and the pause of its job is at most the longest one of
its policy. Whatever is done with the sink save a stop leaves it so, failures included. -/
namespace Telemetry

namespace Span

theorem ticks_scale_ofMillis (ms n : Nat) : ((ofMillis ms).scale n).ticks ≤ n * ms := by
  have product : ms * 10 ^ 6 * n = n * ms * 10 ^ 6 := by
    rw [Nat.mul_right_comm, Nat.mul_comm ms n]
  simp only [ticks, toNanos_scale, toNanos_ofMillis, product]
  omega

end Span

namespace RetryPolicy

/-- The pause before the last retry, which is the longest one. -/
def longestPause (p : RetryPolicy) : Tick :=
  (p.backoff.scale p.maxRetries).ticks

theorem delay_le_longestPause (p : RetryPolicy) {retry : Nat} (counted : 0 < retry)
    (allowed : retry ≤ p.maxRetries) : (p.delay retry).ticks ≤ p.longestPause := by
  have products := Nat.mul_le_mul_left p.backoff.toNanos allowed
  refine Span.ticks_mono ?_
  simp only [delay, Span.toNanos_scale, Nat.max_eq_left counted]
  omega

end RetryPolicy

theorem attempts_wake_le {τ : Type} {policy : RetryPolicy} {now : Tick}
    {attempt : τ → Except Fault Unit × τ} {left retries : Nat} {t t' : τ} {pause : Pause}
    (allowed : left = policy.maxRetries - retries)
    (waits : attempts policy now attempt left retries t = (.waiting pause, t')) :
    pause.wake ≤ now + policy.longestPause := by
  induction left generalizing retries t with
  | zero =>
    unfold attempts at waits
    split at waits
    · cases waits
    · split at waits <;> cases waits
  | succ left ih =>
    unfold attempts at waits
    split at waits
    · cases waits
    · split at waits
      · simp only at waits
        split at waits
        · exact ih (by omega) waits
        · cases waits
          exact Nat.add_le_add_left (policy.delay_le_longestPause (by omega) (by omega)) now
      · cases waits

namespace Service

/-- An action that takes place at a moment of the timer. -/
def Action.moment? : Action → Option Tick
  | .start _ now | .flush now _ | .stop now _ | .callOn now | .taskOn _ now => some now
  | .log _ | .drop | .turnTo _ | .clocks .. => none

def Action.isStop : Action → Bool
  | .stop .. => true
  | _ => false

def Action.isLog : Action → Bool
  | .log _ => true
  | _ => false

variable {S σ κ : Type}

/-- Jobs that pause, and no longer than their policy says. -/
class Retrying (S σ : Type) (κ : outParam Type) [Duty σ κ] [Work S σ κ] [Pausing S σ κ] where
  begin_wake : ∀ {now : Tick} {g g' : Stage S σ} {job : κ}, Work.begin now g = (.waiting job, g') →
    (Pausing.pause S σ job).wake ≤ now + (Pausing.policy S g.state).longestPause
  resume_wake : ∀ {now : Tick} {g g' : Stage S σ} {job job' : κ},
    Work.resume now job g = (.waiting job', g') →
    (Pausing.pause S σ job').wake ≤ now + (Pausing.policy S g.state).longestPause

section OnTime

variable [Duty σ κ] [Work S σ κ] [Pausing S σ κ]

variable (S σ) in
/-- A task that nobody told to end and that has something to do before long, seen from a
moment. -/
structure Soon (period pause now : Tick) (t : Task κ) : Prop where
  untold : t.cancelled = false
  tick : ∃ tick, t.tick = some tick ∧ tick ≤ now + period
  wake : ∀ job, t.job = some job → (Pausing.pause S σ job).wake ≤ now + pause

/-- A sink whose tasks all have something to do before long. One that was started has a
task. -/
structure OnTime (period : Tick) (policy : RetryPolicy) (now : Tick) (s : Service S σ κ) :
    Prop where
  period_same : Duty.period s.state = some period
  policy_same : Pausing.policy S s.state = policy
  tasks : ∀ t ∈ s.tasks, Soon S σ period policy.longestPause now t
  started : s.handle.isSome = true → s.tasks ≠ []

variable {period now : Tick} {policy : RetryPolicy} {s s' : Service S σ κ}

theorem OnTime.of_same (onTime : OnTime period policy now s)
    (period_same : Duty.period s'.state = Duty.period s.state)
    (policy_same : Pausing.policy S s'.state = Pausing.policy S s.state)
    (tasks : s'.tasks = s.tasks) (handle : s'.handle = s.handle) :
    OnTime period policy now s' where
  period_same := period_same.trans onTime.period_same
  policy_same := policy_same.trans onTime.policy_same
  tasks := by
    rw [tasks]
    exact onTime.tasks
  started := by
    rw [handle, tasks]
    exact onTime.started

variable [Retrying S σ κ]

omit [Pausing S σ κ] [Retrying S σ κ] in
theorem nextTick_le {tick m : Tick} (come : tick ≤ m) : nextTick period m tick ≤ m + period := by
  unfold nextTick
  split <;> lia

omit [Retrying S σ κ] in
/-- A task with ticks goes on after its job, which pauses for a while or has ended. -/
theorem soon_afterJob {pause : Tick} {t : Task κ} {p : Progress κ × Stage S σ}
    (untold : t.cancelled = false) (tick : ∃ tick, t.tick = some tick ∧ tick ≤ now + period)
    (wake : ∀ job, p.1 = .waiting job → (Pausing.pause S σ job).wake ≤ now + pause) :
    ∃ t', (afterJob t p).1 = some t' ∧ Soon S σ period pause now t' := by
  obtain ⟨progress, g⟩ := p
  cases progress with
  | waiting job =>
    refine ⟨_, rfl, untold, tick, fun other under => ?_⟩
    cases under
    exact wake job rfl
  | finished result =>
    obtain ⟨at_, there, bound⟩ := tick
    refine ⟨{ t with job := none }, ?_, untold, ⟨at_, there, bound⟩, nofun⟩
    simp only [afterJob, there, Option.isSome_some, if_true]

/-- A task that goes on until a moment has something to do before long, seen from then. -/
theorem soon_pollTask {m : Tick} {t : Task κ} {g : Stage S σ} (before : m ≤ now)
    (period_same : Duty.period g.state = some period)
    (soon : Soon S σ period (Pausing.policy S g.state).longestPause now t) :
    ∃ t', (pollTask m t g).1 = some t' ∧
      Soon S σ period (Pausing.policy S g.state).longestPause now t' := by
  obtain ⟨untold, ⟨tick, there, bound⟩, wake⟩ := soon
  have outcome := polled m t g
  generalize pollTask m t g = p at outcome ⊢
  cases outcome with
  | idle => exact ⟨t, rfl, untold, ⟨tick, there, bound⟩, wake⟩
  | resumed =>
    refine soon_afterJob untold ⟨tick, there, bound⟩ fun job' waits => ?_
    have latest := Retrying.resume_wake
      (Prod.ext waits rfl : Work.resume m _ g = (.waiting job', _))
    exact Nat.le_trans latest (Nat.add_le_add_right before _)
  | begun resting due =>
    have come : tick ≤ m := by simpa [jobDue, there, isReached] using due
    have next : (t.next ((Duty.period g.state).getD 0) m).tick = some (nextTick period m tick) := by
      simp [Task.next, there, period_same]
    have ready : readied g.state t = g.state := by simp [readied, there]
    refine soon_afterJob untold ⟨_, next, ?_⟩ fun job waits => ?_
    · exact Nat.le_trans (nextTick_le come) (Nat.add_le_add_right before _)
    · have latest := Retrying.begin_wake (Prod.ext waits rfl : Work.begin m _ = (.waiting job, _))
      rw [← ready]
      exact Nat.le_trans latest (Nat.add_le_add_right before _)
  | ended resting told =>
    rw [untold] at told
    cases told

omit [Retrying S σ κ] in
theorem onTime_ofState (now : Tick) {state : σ} (period_same : Duty.period state = some period) :
    OnTime period (Pausing.policy S state) now (ofState state : Service S σ κ) :=
  ⟨period_same, rfl, nofun, nofun⟩

omit [Retrying S σ κ] in
theorem OnTime.start (onTime : OnTime period policy now s) (inRuntime : Bool) {m : Tick}
    (before : m ≤ now) : OnTime period policy now (start inRuntime m s).2 := by
  unfold Service.start
  split
  · exact onTime
  · split
    · exact onTime
    · split
      · exact onTime
      · refine ⟨onTime.period_same, onTime.policy_same, fun t member => ?_, fun _ => by simp⟩
        rcases List.mem_append.mp member with old | new
        · exact onTime.tasks t old
        · obtain rfl := List.mem_singleton.mp new
          have ticks : (Duty.period s.state).map (fun _ => m) = some m := by
            rw [onTime.period_same]
            rfl
          exact ⟨rfl, ⟨m, ticks, Nat.le_trans before (Nat.le_add_right _ _)⟩, nofun⟩

omit [Retrying S σ κ] in
theorem OnTime.beginFlush (onTime : OnTime period policy now s) (m : Tick) (timeout : Span)
    (w : World S) : OnTime period policy now (beginFlush m timeout s w).1 :=
  onTime.of_same (Pausing.period_same.beginFlush m timeout)
    (Pausing.policy_same.beginFlush m timeout) (beginFlush_beside ..).1 (beginFlush_beside ..).2

omit [Retrying S σ κ] in
theorem OnTime.pollCall (onTime : OnTime period policy now s) (m : Tick) (w : World S) :
    OnTime period policy now (pollCall m s w).1 :=
  onTime.of_same (Pausing.period_same.pollCall m) (Pausing.policy_same.pollCall m)
    (pollCall_beside ..).1 (pollCall_beside ..).2

omit [Retrying S σ κ] in
theorem OnTime.endCall (onTime : OnTime period policy now s) :
    OnTime period policy now s.endCall := by
  refine onTime.of_same (endCall_part (Pausing.period_same (S := S)).abandon s)
    (endCall_part (Pausing.policy_same (S := S)).abandon s) ?_ ?_
  · exact (endCall_beside s).1
  · exact (endCall_beside s).2

namespace Use

variable {u : Use S σ κ}

omit [Retrying S σ κ] in
theorem onTime_collect {p : Service S σ κ × World S} (onTime : OnTime period policy now p.1) :
    OnTime period policy now (u.collect p).1.sink := by
  unfold collect
  split
  · exact onTime.endCall
  · exact onTime

theorem onTime_runTask (place : Nat) {m : Tick} (before : m ≤ now)
    (onTime : OnTime period policy now u.sink) :
    OnTime period policy now (u.runTask place m).sink := by
  unfold runTask
  split
  · exact onTime
  · rename_i t found
    have soon := onTime.tasks t (List.mem_of_getElem? found)
    rw [← onTime.policy_same] at soon
    obtain ⟨t', lives, soon'⟩ := soon_pollTask before (g := u.stage) onTime.period_same soon
    refine ⟨(Pausing.period_same.pollTask m t u.stage).trans onTime.period_same,
      (Pausing.policy_same.pollTask m t u.stage).trans onTime.policy_same,
      fun other member => ?_, fun _ => ?_⟩
    · rw [onTime.policy_same.symm]
      simp only [lives, Option.toList_some] at member
      rcases List.mem_append.mp member with front | back
      · rcases List.mem_append.mp front with earlier | here
        · exact onTime.policy_same ▸ onTime.tasks other (List.mem_of_mem_take earlier)
        · exact List.mem_singleton.mp here ▸ soon'
      · exact onTime.policy_same ▸ onTime.tasks other (List.mem_of_mem_drop back)
    · show u.sink.tasks.take place ++ (pollTask m t u.stage).1.toList ++ _ ≠ []
      rw [lives]
      simp

/-- Whatever is done by a moment, save a stop, leaves tasks that have something to do before
long. -/
theorem onTime_step (a : Action) (before : ∀ m ∈ a.moment?, m ≤ now) (noStop : a.isStop = false)
    (onTime : OnTime period policy now u.sink) : OnTime period policy now (u.step a).1.sink := by
  cases a with
  | log r =>
    have same := Pausing.accept_same r u.stage
    exact onTime.of_same same.2 same.1 rfl rfl
  | start inRuntime m => exact onTime.start inRuntime (before m rfl)
  | flush m timeout =>
    have aside : OnTime period policy now u.layAside.sink := onTime.of_same rfl rfl rfl rfl
    exact onTime_collect (aside.beginFlush m timeout u.world)
  | stop m timeout => cases noStop
  | callOn m => exact onTime_collect (onTime.pollCall m u.world)
  | drop => exact onTime.endCall
  | turnTo place =>
    simp only [step, takeUp]
    split
    · exact onTime
    · exact onTime.of_same rfl rfl rfl rfl
  | taskOn place m => exact onTime_runTask place (before m rfl) onTime
  | clocks wall steady => exact onTime

theorem onTime_run {actions : List Action} (before : ∀ a ∈ actions, ∀ m ∈ a.moment?, m ≤ now)
    (noStop : ∀ a ∈ actions, a.isStop = false) (onTime : OnTime period policy now u.sink) :
    OnTime period policy now (u.run actions).sink := by
  induction actions generalizing u with
  | nil => exact onTime
  | cons a rest ih =>
    have next := onTime_step a (before a List.mem_cons_self) (noStop a List.mem_cons_self) onTime
    exact ih (fun b member => before b (List.mem_cons_of_mem _ member))
      (fun b member => noStop b (List.mem_cons_of_mem _ member)) next

end Use
end OnTime

end Service
end Telemetry
