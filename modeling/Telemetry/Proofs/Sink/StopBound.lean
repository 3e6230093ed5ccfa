import Mathlib.Algebra.Order.BigOperators.Group.List
import Mathlib.Algebra.Order.Group.Nat
import Telemetry.Proofs.Sink.FileSinks
import Telemetry.Proofs.Stream.Turns
import Telemetry.Storage.Memory

/-! How long a stop takes.
The time limit of a stop bounds its last flush and not the wait for the task before it: a
task that pauses between two attempts, or has a send under way, is waited for to the end
of its job, and to that of each job that the scheduler lets it begin then. So a stop always
returns, and it does so within its time limit after these jobs have ended, but no earlier
than the moment until which the job under way sleeps. -/
namespace Telemetry
open Service (Action Filing Pausing Punctual Rests Use lastMoment)

variable {S : Type}

section Running

variable {σ κ : Type}

/-- The jobs under way of the running task. -/
def Service.running (s : Service S σ κ) : List κ :=
  s.tasks.filterMap fun t => if s.handle = some t.id then t.job else none

theorem Service.mem_running {s : Service S σ κ} {job : κ} :
    job ∈ s.running ↔ ∃ t ∈ s.tasks, s.handle = some t.id ∧ t.job = some job := by
  simp [Service.running]

theorem Service.mem_awaited {s : Service S σ κ} {job : κ} :
    (true, job) ∈ s.awaited ↔ job ∈ s.running := by
  simp only [Service.awaited, List.mem_filterMap, Option.map_eq_some_iff, Prod.mk.injEq,
    Service.mem_running]
  constructor
  · rintro ⟨t, member, job', under, mark, rfl⟩
    exact ⟨t, member, by simpa using mark, under⟩
  · rintro ⟨t, member, running, under⟩
    exact ⟨t, member, job, under, by simpa using running, rfl⟩

theorem Service.awaited_jobs (s : Service S σ κ) :
    s.awaited.map (·.2) = s.tasks.filterMap Task.job := by
  simp only [Service.awaited, List.map_filterMap, Option.map_map]
  congr 1
  funext t
  simp [Function.comp_def]

variable [Duty σ κ] [Work S σ κ]

/-- A stop returns, and not before the moments until which the job of the running task sleeps.
It does so within its time limit after a moment by which that job and some more have ended,
where the scheduler lets the task begin no more than these, or the task has none to begin by
that moment. -/
structure Service.StopEnds (timeout : Span) (now : Tick) (s : Service S σ κ) (w : World S)
    (endBy : Nat → Tick → Prop) (sleepsUntil : Tick → Prop) : Prop where
  returns : ∃ result,
    (Session.stop timeout (⟨s, w, now⟩ : Session S (Service S σ κ))).1 = some result
  after : now ≤ (Session.stop timeout (⟨s, w, now⟩ : Session S (Service S σ κ))).2.now
  within : ∀ more joined, now ≤ joined → endBy more joined →
    (w.further ≤ more ∨ ∀ t ∈ s.tasks, s.handle = some t.id → Rests joined s.state t) →
    (Session.stop timeout (⟨s, w, now⟩ : Session S (Service S σ κ))).2.now ≤
      joined + timeout.ticks
  waits : ∀ t, sleepsUntil t →
    t ≤ (Session.stop timeout (⟨s, w, now⟩ : Session S (Service S σ κ))).2.now

theorem Service.stopEnds_of_punctual [Punctual S σ κ] {timeout : Span} {now joined : Tick}
    {s : Service S σ κ} {w : World S} {endBy : Nat → Tick → Prop} {sleepsUntil : Tick → Prop}
    (rhythmic : s.Rhythmic)
    (ends : ∀ more joined, endBy more joined →
      Punctual.EndBy more joined now (s.stage w) s.awaited)
    (sleeps : ∀ t, sleepsUntil t →
      ∃ job ∈ s.running, ∀ state : σ, Duty.wake? job state = some t)
    (begun : now ≤ joined) (enough : endBy w.further joined) :
    Service.StopEnds timeout now s w endBy sleepsUntil := by
  obtain ⟨returns, after, _, waits⟩ := Service.stop_by timeout rhythmic begun
    (.inl (Nat.le_refl w.further)) (ends _ joined enough)
  refine ⟨returns, after, fun more joined begun by_joined room => ?_, fun t asleep => ?_⟩
  · exact (Service.stop_by timeout rhythmic begun room (ends more joined by_joined)).2.2.1
  · obtain ⟨job, member, wake⟩ := sleeps t asleep
    obtain ⟨task, there, running, under⟩ := Service.mem_running.mp member
    exact waits task there running job under t wake

/-- Pauses end by a moment, and so do those of as many more jobs that are begun one after
another. -/
def PausesEnd (policy : RetryPolicy) (now : Tick) (pauses : List Pause) (more : Nat)
    (joined : Tick) : Prop :=
  now + more * policy.remaining 0 ≤ joined ∧ ∀ pause ∈ pauses,
    lastMoment policy now pause + more * policy.remaining 0 ≤ joined

/-- A sink that only pauses stops within its time limit after the last pause that the jobs
of its task may take, and not before the pause under way has ended. -/
theorem Service.stopEnds_of_pausing [Pausing S σ κ] (timeout : Span) (now : Tick)
    {s : Service S σ κ} (w : World S) (rhythmic : s.Rhythmic) :
    Service.StopEnds timeout now s w
      (PausesEnd (Pausing.policy S s.state) now (s.running.map (Pausing.pause S σ)))
      (fun t => ∃ job ∈ s.running, (Pausing.pause S σ job).wake = t) := by
  let policy := Pausing.policy S s.state
  let moments : List Nat := s.running.map fun job => lastMoment policy now (Pausing.pause S σ job)
  let joined := now + moments.sum + w.further * policy.remaining 0
  have enough : PausesEnd policy now (s.running.map (Pausing.pause S σ)) w.further joined := by
    refine ⟨Nat.add_le_add_right (Nat.le_add_right _ _) _, fun pause member => ?_⟩
    obtain ⟨job, running, rfl⟩ := List.mem_map.mp member
    have bound : lastMoment policy now (Pausing.pause S σ job) ≤ moments.sum :=
      List.le_sum_of_mem (M := Nat) (List.mem_map_of_mem running)
    exact Nat.add_le_add_right (Nat.le_trans bound (Nat.le_add_left _ _)) _
  refine Service.stopEnds_of_punctual rhythmic ?_ ?_ (by lia) enough
  · intro more joined ends
    refine ⟨ends.1, fun job member => ends.2 _ ?_⟩
    exact List.mem_map_of_mem (Service.mem_awaited.mp member)
  · rintro t ⟨job, member, rfl⟩
    exact ⟨job, member, fun state => Pausing.wake? job state⟩

theorem Service.stopEnds_of_filing {σ ς : Type} [Duty σ Pause] [Work S σ Pause] [Filing S σ ς]
    (timeout : Span) (now : Tick) {s : Service S σ Pause} (w : World S) (rhythmic : s.Rhythmic) :
    Service.StopEnds timeout now s w
      (PausesEnd (Filing.policy S σ (Filing.settings S s.state)) now s.running)
      (fun t => ∃ pause ∈ s.running, pause.wake = t) := by
  have ends := Service.stopEnds_of_pausing timeout now w rhythmic
  have same : s.running.map (Pausing.pause S σ) = s.running := List.map_id _
  rwa [same] at ends

end Running

namespace Stream.Queue

/-- All answers come by a moment, as far as a job of the running task depends on them: the one
under way, or one that it may still begin. -/
def RepliesBy (now : Tick) (s : Service S Queue Transmission) (more : Nat) (joined : Tick) :
    Prop :=
  0 < more ∨ s.running ≠ [] → now + s.state.delays ≤ joined ∧
    ∀ t ∈ s.tasks, ∀ job, t.job = some job → ∀ sending, job.sending = some sending →
      sending.wake + s.state.delays ≤ joined

theorem awaited_line {s : Service S Queue Transmission}
    (line : s.state.turns.Perm ((s.tasks.filterMap Task.job).map (·.ticket))) :
    s.state.turns.Perm (s.awaited.map (·.2.ticket)) := by
  rw [← s.awaited_jobs, List.map_map] at line
  exact line

theorem RepliesBy.answersBy {now joined : Tick} {s : Service S Queue Transmission} {more : Nat}
    (line : s.state.turns.Perm ((s.tasks.filterMap Task.job).map (·.ticket)))
    (replies : RepliesBy now s more joined) :
    AnswersBy more joined now s.state s.awaited := by
  have depends (awaits : Awaits more (s.awaited.map (·.1))) : 0 < more ∨ s.running ≠ [] := by
    refine awaits.imp_right fun marked => ?_
    obtain ⟨⟨_, job⟩, member, rfl⟩ := List.mem_map.mp marked
    exact List.ne_nil_of_mem (Service.mem_awaited.mp member)
  refine ⟨awaited_line line, fun awaits => (replies (depends awaits)).1,
    fun awaits other member sending sent => ?_⟩
  have under : other.2 ∈ s.tasks.filterMap Task.job :=
    s.awaited_jobs ▸ List.mem_map_of_mem member
  obtain ⟨t, there, same⟩ := List.mem_filterMap.mp under
  exact (replies (depends awaits)).2 t there other.2 same sending sent

/-- A stream stops within its time limit after all answers on which the jobs of its task
depend, and not before the answer to a send of the job under way. -/
theorem stopEnds {s : Service S Queue Transmission} (timeout : Span) (now : Tick) (w : World S)
    (rhythmic : s.Rhythmic)
    (line : s.state.turns.Perm ((s.tasks.filterMap Task.job).map (·.ticket))) :
    Service.StopEnds timeout now s w (RepliesBy now s)
      (fun t => ∃ job ∈ s.running, ∃ sending, job.sending = some sending ∧ sending.wake = t) := by
  let wakes : List Nat := s.tasks.map fun t =>
    ((t.job.bind (·.sending)).map (·.wake)).getD 0
  have answer (t : Task Transmission) (member : t ∈ s.tasks) (job : Transmission)
      (under : t.job = some job) (sending : Sending) (sent : job.sending = some sending) :
      sending.wake ≤ wakes.sum := by
    refine List.le_sum_of_mem (M := Nat) (List.mem_map.mpr ⟨t, member, ?_⟩)
    simp [under, sent]
  have enough : RepliesBy now s w.further (now + s.state.delays + wakes.sum) := fun _ => by
    refine ⟨by lia, fun t member job under sending sent => ?_⟩
    have bound := answer t member job under sending sent
    lia
  refine Service.stopEnds_of_punctual rhythmic
    (fun _ _ replies => RepliesBy.answersBy line replies) ?_ (by lia) enough
  rintro t ⟨job, member, sending, sent, rfl⟩
  refine ⟨job, member, fun state => ?_⟩
  show wake? job state = some sending.wake
  simp [wake?, sent]

end Stream.Queue

/-- However a sink was used and whenever it is stopped: the stop returns. It does so within its
time limit after the jobs of the running task have ended, the one under way and those that the
scheduler lets it begin, and where there is none within its time limit from now on; but it
sleeps as long as the job under way does. -/
theorem stop_ends_after_running_job [Storage S] (w : World S) (actions : List Action)
    (now : Tick) (timeout : Span) :
    (∀ (settings : Csv.Settings) (machine : String),
      let u : Use S Csv.Table Pause := (Use.ofState (.ofSettings settings machine) w).run actions
      Service.StopEnds timeout now u.sink u.world
        (PausesEnd u.state.settings.retry now u.sink.running)
        (fun t => ∃ pause ∈ u.sink.running, pause.wake = t)) ∧
    (∀ (settings : Marker.Settings) (agent : Agent) (host : Host),
      let u : Use S Marker.File Marker.Writing :=
        (Use.ofState (.ofSettings settings agent host) w).run actions
      Service.StopEnds timeout now u.sink u.world
        (PausesEnd u.state.settings.retry now (u.sink.running.map (·.pause)))
        (fun t => ∃ job ∈ u.sink.running, job.pause.wake = t)) ∧
    (∀ settings : Summary.Settings,
      let u : Use S Summary.File Pause := (Use.ofState (.ofSettings settings) w).run actions
      Service.StopEnds timeout now u.sink u.world
        (PausesEnd u.state.settings.retry now u.sink.running)
        (fun t => ∃ pause ∈ u.sink.running, pause.wake = t)) ∧
    ∀ (settings : Stream.Settings) (machine : String) (replies : List Stream.Reply),
      let u : Use S Stream.Queue Stream.Transmission :=
        (Use.ofState (.ofSettings settings machine (.ofReplies replies)) w).run actions
      u.calls = [] → Service.StopEnds timeout now u.sink u.world
        (Stream.Queue.RepliesBy now u.sink)
        (fun t => ∃ job ∈ u.sink.running,
          ∃ sending, job.sending = some sending ∧ sending.wake = t) := by
  refine ⟨fun settings machine => ?_, fun settings agent host => ?_, fun settings => ?_,
    fun settings machine replies idle => ?_⟩
  · exact Service.stopEnds_of_filing timeout now _ (Use.rhythmic_run _ w actions)
  · exact Service.stopEnds_of_pausing timeout now _ (Use.rhythmic_run _ w actions)
  · exact Service.stopEnds_of_filing timeout now _ (Use.rhythmic_run _ w actions)
  · refine Stream.Queue.stopEnds timeout now _ (Use.rhythmic_run _ w actions) ?_
    have line := Stream.Queue.run_line (q := .ofSettings settings machine (.ofReplies replies))
      rfl w actions
    simpa only [Use.jobs, Use.state, idle, List.filterMap_nil, List.append_nil] using line

/-- A stream whose task sends, when it is told to stop, a batch that is answered late. -/
theorem stop_ends_after_answer :
    let record : Record := ⟨.named "metric", .standard, .event (.ofActivity .nil)⟩
    let w : World MemoryStore := .ofStore (.ofFiles [])
    let u : Use MemoryStore Stream.Queue Stream.Transmission :=
      (Use.ofState (.ofSettings .standard "host" (.ofReplies [⟨5000, true⟩])) w).run
        [.log record, .start true 0, .taskOn 0 0]
    let p := Session.stop (Span.ofMillis 100)
      (⟨u.sink, u.world, 10⟩ : Session MemoryStore (Service MemoryStore Stream.Queue _))
    u.calls = [] ∧ (∃ result, p.1 = some result) ∧ 5000 ≤ p.2.now ∧ p.2.now ≤ 5100 := by
  intro record w u p
  obtain ⟨calls, running, tasks, ahead, further⟩ : u.calls.length = 0 ∧
      u.sink.running.map (fun job => job.sending.map (·.wake)) = [some 5000] ∧
      u.sink.tasks.map (fun t => (t.job.bind (·.sending)).map (·.wake)) = [some 5000] ∧
      u.sink.state.delays = 0 ∧ u.world.further = 0 := by decide +kernel
  have idle : u.calls = [] := List.length_eq_zero_iff.mp calls
  obtain ⟨returns, _, within, waits⟩ := (stop_ends_after_running_job w
    [.log record, .start true 0, .taskOn 0 0] 10 (Span.ofMillis 100)).2.2.2
      .standard "host" [⟨5000, true⟩] idle
  have replies : Stream.Queue.RepliesBy 10 u.sink 0 5000 := fun _ => by
    refine ⟨by rw [ahead]; decide, fun t member job under sending sent => ?_⟩
    have wake : some sending.wake ∈
        u.sink.tasks.map (fun t => (t.job.bind (·.sending)).map (·.wake)) :=
      List.mem_map.mpr ⟨t, member, by simp [under, sent]⟩
    rw [tasks, List.mem_singleton, Option.some.injEq] at wake
    rw [wake, ahead]
  have asleep : ∃ job ∈ u.sink.running, ∃ sending, job.sending = some sending ∧
      sending.wake = 5000 := by
    have there : some 5000 ∈ u.sink.running.map (fun job => job.sending.map (·.wake)) := by
      rw [running]
      exact List.mem_singleton_self _
    obtain ⟨job, member, wake⟩ := List.mem_map.mp there
    obtain ⟨sending, under, same⟩ := Option.map_eq_some_iff.mp wake
    exact ⟨job, member, sending, under, same⟩
  have limit : (5000 : Tick) + (Span.ofMillis 100).ticks = 5100 := by decide +kernel
  have before := within 0 5000 (by decide) replies (.inl (Nat.le_of_eq further))
  exact ⟨idle, returns, waits 5000 asleep, limit ▸ before⟩

/-- A table whose task pauses after an append that failed stops no sooner than the pause
has ended, however short the time limit of the stop is. -/
theorem stop_outlasts_its_limit :
    let record : Record := ⟨.named "metric", .standard, .event (.ofActivity .nil)⟩
    let settings : Csv.Settings :=
      { Csv.Settings.standard with path := "logs/m.csv", retry := ⟨5, Span.ofMillis 100000⟩ }
    let w : World MemoryStore := .ofStore ((MemoryStore.ofFiles []).failNext .append 1)
    let u : Use MemoryStore Csv.Table Pause :=
      (Use.ofState (.ofSettings settings "host") w).run [.log record, .start true 0, .taskOn 0 0]
    ¬ (Session.stop (Span.ofMillis 100) (⟨u.sink, u.world, 10⟩ :
        Session MemoryStore (Service MemoryStore Csv.Table Pause))).2.now ≤
      10 + (Span.ofMillis 100).ticks := by
  intro record settings w u
  have running : u.sink.running = [⟨1, 100000⟩] := by decide +kernel
  have rhythmic : u.sink.Rhythmic :=
    Use.rhythmic_run _ w [.log record, .start true 0, .taskOn 0 0]
  have waits := (Service.stopEnds_of_filing (Span.ofMillis 100) 10 u.world rhythmic).waits 100000
    ⟨⟨1, 100000⟩, by rw [running]; exact List.mem_singleton_self _, rfl⟩
  have limit : (Span.ofMillis 100).ticks = 100 := by decide +kernel
  rw [limit]
  lia

end Telemetry
