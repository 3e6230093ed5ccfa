import Telemetry.Marker.Sink
import Telemetry.Proofs.Logger.Unchanged
import Telemetry.Proofs.Sink.FileSinks
import Telemetry.Proofs.Stream.Turns
import Telemetry.Trace.Sink

/-! What sinks add to the real-time trace.
The log tells of records that the trace wrote or gave up, and of failures. Only the sink of
the trace adds lines of the first kind, one for each record that it takes in, and what it
adds does not depend on what happened before. -/
namespace Telemetry

/-- The line tells what became of a record of the real-time trace. -/
def Journal.Line.isTrace : Journal.Line → Bool
  | .traced _ | .dropped .. => true
  | .failure .. => false

namespace World

variable {S : Type}

/-- What the log tells of the real-time trace, the last record first. -/
def trace (w : World S) : List Journal.Line :=
  w.lines.filter Journal.Line.isTrace

theorem trace_report (w : World S) (r : FailureReport) (sink operation error : String) :
    (w.report r sink operation error).2.trace = w.trace := by
  unfold report FailureReport.report
  split
  · rename_i told
    split at told
    · cases told
      rfl
    · cases told
  · rfl

end World

/-- The record that an operation brings. -/
def Sink.Op.record? : Sink.Op → Option Record
  | .log r => some r
  | _ => none

/-- A sink of which it is known which lines each record adds to the trace, and that nothing
else adds any. -/
class Tracing (S : outParam Type) (α : Type) [Sink S α] where
  /-- The lines that a record adds, the last one first. -/
  told : α → Record → List Journal.Line
  unchanged : Unchanged told
  log : ∀ (r : Record) (a : α) (w : World S), (Sink.log r a w).2.2.trace = told a r ++ w.trace
  beginFlush : ∀ (now : Tick) (timeout : Span) (a : α) (w : World S),
    (Sink.beginFlush now timeout a w).2.trace = w.trace
  beginStop : ∀ (now : Tick) (timeout : Span) (a : α) (w : World S),
    (Sink.beginStop now timeout a w).2.trace = w.trace
  pollCall : ∀ (now : Tick) (a : α) (w : World S), (Sink.pollCall now a w).2.trace = w.trace
  pollTasks : ∀ (now : Tick) (a : α) (w : World S), (Sink.pollTasks now a w).2.trace = w.trace

namespace Tracing

variable {S α : Type} [Sink S α] [Tracing S α]

theorem op (op : Sink.Op) (a : α) (w : World S) :
    (op.run a w).2.trace = op.record?.toList.flatMap (told a) ++ w.trace := by
  cases op with
  | log r =>
    have added := log r a w
    rwa [← List.flatMap_singleton (told a) r] at added
  | start inRuntime now => rfl
  | flush now timeout => exact beginFlush now timeout (Sink.endCall a) w
  | stop now timeout => exact beginStop now timeout (Sink.endCall a) w
  | callOn now => exact pollCall now a w
  | tasksOn now => exact pollTasks now a w
  | drop => rfl
  | clocks wall steady => rfl

/-- Whatever is done with a sink, the trace has the lines of the records that were brought. -/
theorem after (ops : List Sink.Op) (a : α) (w : World S) :
    (Sink.after a w ops).2.trace =
      (ops.filterMap Sink.Op.record?).reverse.flatMap (told a) ++ w.trace := by
  induction ops generalizing a w with
  | nil => rfl
  | cons op rest ih =>
    have later : (Sink.after a w (op :: rest)).2.trace =
        (rest.filterMap Sink.Op.record?).reverse.flatMap (told (op.run a w).1) ++
          (op.run a w).2.trace := ih (op.run a w).1 (op.run a w).2
    rw [later, unchanged.op, Tracing.op]
    cases brought : op.record? <;> simp [brought]

end Tracing

namespace Service

variable {S σ κ : Type}

/-- A sink that tells the trace nothing of its records, with jobs that change nothing around
them but the storage. -/
class Silent (S σ : Type) (κ : outParam Type) [Duty σ κ] [Work S σ κ] : Prop extends
    Discreet S σ κ where
  accept : ∀ (r : Record) (g : Stage S σ), (Work.accept r g).world.trace = g.world.trace

variable [Duty σ κ]

theorem afterJob_trace (t : Task κ) (p : Progress κ × Stage S σ) :
    (afterJob t p).2.world.trace = p.2.world.trace :=
  afterJob_part (fun g => g.world.trace)
    (fun g _ _ _ => g.world.trace_report g.reporter ..) t p

theorem Beside.trace {g g' : Stage S σ} (beside : Beside g g') :
    g'.world.trace = g.world.trace := by
  rw [beside.world]
  rfl

variable [Work S σ κ] [Silent S σ κ]

theorem pollTask_trace (now : Tick) (t : Task κ) (g : Stage S σ) :
    (pollTask now t g).2.world.trace = g.world.trace := by
  have outcome := polled now t g
  generalize pollTask now t g = p at outcome ⊢
  cases outcome with
  | idle => rfl
  | resumed => rw [afterJob_trace, (Discreet.resume ..).trace]
  | begun => exact (afterJob_trace ..).trans (Discreet.begin ..).trace
  | ended => rfl

theorem pollList_trace (now : Tick) (tasks : List (Task κ)) (g : Stage S σ) :
    (pollList now tasks g).2.world.trace = g.world.trace := by
  induction tasks generalizing g with
  | nil => rfl
  | cons t rest ih => exact (ih _).trans (pollTask_trace now t g)

theorem beginFlush_trace (now : Tick) (timeout : Span) (s : Service S σ κ) (w : World S) :
    (beginFlush now timeout s w).2.trace = w.trace := by
  unfold beginFlush
  rw [afterCallJob_world]
  exact (Discreet.begin now (s.stage w)).trace

theorem beginStop_trace (now : Tick) (timeout : Span) (s : Service S σ κ) (w : World S) :
    (beginStop now timeout s w).2.trace = w.trace := by
  unfold beginStop
  split
  · exact beginFlush_trace now timeout s w
  · rfl

theorem pollCall_trace (now : Tick) (s : Service S σ κ) (w : World S) :
    (pollCall now s w).2.trace = w.trace := by
  unfold pollCall
  split
  · rfl
  · split
    · rfl
    · rfl
    · exact beginFlush_trace now _ s w
    · split
      · rw [afterCallJob_world]
        exact (Discreet.resume now _ (s.stage w)).trace
      · rw [afterCallJob_world]
        rfl

instance : Tracing S (Service S σ κ) where
  told _ _ := []
  unchanged := .const _
  log r s w := Silent.accept r (s.stage w)
  beginFlush := beginFlush_trace
  beginStop := beginStop_trace
  pollCall := pollCall_trace
  pollTasks now s w := pollList_trace now s.tasks (s.stage w)

end Service

section Silent
open Service (Silent)

variable {S : Type}

instance [Storage S] : Silent S Csv.Table Pause where
  accept _ _ := rfl

instance [Storage S] : Silent S Summary.File Pause where
  accept _ _ := rfl

instance [Storage S] : Silent S Marker.File Marker.Writing where
  accept _ _ := rfl

instance : Silent S Stream.Queue Stream.Transmission where
  accept r g := by
    show (Stream.Queue.accept r g).world.trace = _
    unfold Stream.Queue.accept
    simp only
    split
    · rfl
    · split
      · exact World.trace_report ..
      · rfl

end Silent

namespace Trace.Realtime

variable {S : Type}

/-- What becomes of a record: it is written, in its least form where it is too large, or
given up. -/
def told (t : Realtime S LogTransport) (r : Record) : List Journal.Line :=
  let entry := t.budget.serialize r.id.label r.severity r.toEvent
  let least := Budget.minimal r.id.label r.severity r.toEvent
  let limit := t.transport.limit
  if entry.size ≤ limit then [.traced entry]
  else if least.size ≤ limit then [.traced least]
  else [.dropped r.id.label entry.size limit (TransportFault.oversized least.size limit).message]

theorem told_of_fits {t : Realtime S LogTransport} {r : Record}
    (fits : (t.budget.serialize r.id.label r.severity r.toEvent).size ≤ t.transport.limit) :
    t.told r = [.traced (t.budget.serialize r.id.label r.severity r.toEvent)] := by
  rw [told, if_pos fits]

/-- A record adds its lines, and leaves the trace as it is. -/
theorem log_spec (r : Record) (t : Realtime S LogTransport) (w : World S) :
    ∃ answer w', Sink.log r t w = (answer, t, w') ∧ w'.trace = t.told r ++ w.trace := by
  have refused (e : Entry) (w : World S) (large : ¬ e.size ≤ t.transport.limit) :
      t.write e w = (.error (.oversized e.size t.transport.limit), t, w) := by
    simp only [write, Transport.write, if_pos (Nat.lt_of_not_le large)]
  have written (e : Entry) (w : World S) (small : e.size ≤ t.transport.limit) :
      t.write e w = (.ok (), t, w.tell (.traced e)) := by
    simp only [write, Transport.write, if_neg (Nat.not_lt.mpr small)]
  simp only [Sink.log, log, told]
  by_cases small : (t.budget.serialize r.id.label r.severity r.toEvent).size ≤ t.transport.limit
  · rw [written _ w small, if_pos small]
    exact ⟨_, _, rfl, rfl⟩
  · rw [refused _ w small, if_neg small]
    simp only [writeMinimal]
    by_cases least : (Budget.minimal r.id.label r.severity r.toEvent).size ≤ t.transport.limit
    · rw [written _ w least, if_pos least]
      exact ⟨_, _, rfl, rfl⟩
    · rw [refused _ w least, if_neg least]
      exact ⟨_, _, rfl, rfl⟩

theorem unchanged : Unchanged (id : Realtime S LogTransport → Realtime S LogTransport) where
  log r t w := by
    obtain ⟨answer, w', logged, _⟩ := log_spec r t w
    rw [logged]
  start _ _ _ := rfl
  beginFlush _ _ _ _ := rfl
  beginStop _ _ _ _ := rfl
  endCall _ := rfl
  pollCall _ _ _ := rfl
  pollTasks _ _ _ := rfl

instance : Tracing S (Realtime S LogTransport) where
  told := told
  unchanged := unchanged.map told
  log r t w := by
    obtain ⟨answer, w', logged, added⟩ := log_spec r t w
    rw [logged]
    exact added
  beginFlush _ _ _ _ := rfl
  beginStop _ _ _ _ := rfl
  pollCall _ _ _ := rfl
  pollTasks _ _ _ := rfl

@[simp]
theorem tracing_told (t : Realtime S LogTransport) : Tracing.told t = t.told := rfl

end Trace.Realtime

section Sum

variable {S α β : Type} [Sink S α] [Sink S β] [Tracing S α] [Tracing S β]

instance : Tracing S (α ⊕ β) where
  told := Sum.elim Tracing.told Tracing.told
  unchanged := Tracing.unchanged.sum Tracing.unchanged
  log r a w := by
    cases a with
    | inl a => exact Tracing.log r a w
    | inr b => exact Tracing.log r b w
  beginFlush now timeout a w := by
    cases a with
    | inl a => exact Tracing.beginFlush now timeout a w
    | inr b => exact Tracing.beginFlush now timeout b w
  beginStop now timeout a w := by
    cases a with
    | inl a => exact Tracing.beginStop now timeout a w
    | inr b => exact Tracing.beginStop now timeout b w
  pollCall now a w := by
    cases a with
    | inl a => exact Tracing.pollCall now a w
    | inr b => exact Tracing.pollCall now b w
  pollTasks now a w := by
    cases a with
    | inl a => exact Tracing.pollTasks now a w
    | inr b => exact Tracing.pollTasks now b w

@[simp]
theorem Tracing.told_inl (a : α) : Tracing.told (Sum.inl a : α ⊕ β) = Tracing.told a := rfl

@[simp]
theorem Tracing.told_inr (b : β) : Tracing.told (Sum.inr b : α ⊕ β) = Tracing.told b := rfl

end Sum
end Telemetry
