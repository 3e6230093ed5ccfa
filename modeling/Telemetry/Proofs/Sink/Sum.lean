import Telemetry.Proofs.Sink.Draining
import Telemetry.Proofs.Sink.Holdings
import Telemetry.Sink.Sum

/-! What is known of sinks of two kinds is known of sinks that are of one or the other. -/
namespace Telemetry

variable {S α β : Type} [Sink S α] [Sink S β]

instance [Settling S α] [Settling S β] : Settling S (α ⊕ β) where
  Good := Sum.elim Settling.Good Settling.Good
  load now := Sum.elim (Settling.load now) (Settling.load now)
  load_le now a := by cases a <;> exact Settling.load_le now _
  callReady now := Sum.elim (Settling.callReady now) (Settling.callReady now)
  tasksReady now := Sum.elim (Settling.tasksReady now) (Settling.tasksReady now)
  ready {_ a} good reached := by
    cases a with
    | inl a => exact Settling.ready (a := a) good reached
    | inr b => exact Settling.ready (a := b) good reached
  call_idle {_ a} w idle := by
    cases a with
    | inl a =>
      exact congrArg (fun p : α × World S => (Sum.inl p.1, p.2)) (Settling.call_idle w idle)
    | inr b =>
      exact congrArg (fun p : β × World S => (Sum.inr p.1, p.2)) (Settling.call_idle w idle)
  call_falls {_ a} w good ready := by
    cases a with
    | inl a => exact Settling.call_falls (a := a) w good ready
    | inr b => exact Settling.call_falls (a := b) w good ready
  tasks_le now a w good := by
    cases a with
    | inl a => exact Settling.tasks_le (a := a) now w good
    | inr b => exact Settling.tasks_le (a := b) now w good
  tasks_fall {_ a} w good ready := by
    cases a with
    | inl a => exact Settling.tasks_fall (a := a) w good ready
    | inr b => exact Settling.tasks_fall (a := b) w good ready
  good_pollCall now a w good := by
    cases a with
    | inl a => exact Settling.good_pollCall (a := a) now w good
    | inr b => exact Settling.good_pollCall (a := b) now w good
  good_pollTasks now a w good := by
    cases a with
    | inl a => exact Settling.good_pollTasks (a := a) now w good
    | inr b => exact Settling.good_pollTasks (a := b) now w good

instance [Settling S α] [Settling S β] [Resting S α] [Resting S β] : Resting S (α ⊕ β) where
  Free := Sum.elim Resting.Free Resting.Free
  free_idle {_ a} free := by
    cases a with
    | inl a => exact Resting.free_idle (a := a) free
    | inr b => exact Resting.free_idle (a := b) free
  free_log r a w free := by
    cases a with
    | inl a => exact Resting.free_log (a := a) r w free
    | inr b => exact Resting.free_log (a := b) r w free
  free_start inRuntime now a free := by
    cases a with
    | inl a => exact Resting.free_start (a := a) inRuntime now free
    | inr b => exact Resting.free_start (a := b) inRuntime now free
  free_pollTasks now a w := by
    cases a with
    | inl a => exact Resting.free_pollTasks now w
    | inr b => exact Resting.free_pollTasks now w
  result_pollTasks now a w := by
    cases a with
    | inl a => exact Resting.result_pollTasks now a w
    | inr b => exact Resting.result_pollTasks now b w
  busy_beginStop now timeout a w := by
    cases a with
    | inl a => exact Resting.busy_beginStop now timeout a w
    | inr b => exact Resting.busy_beginStop now timeout b w
  busy_pollCall now a w busy := by
    cases a with
    | inl a => exact Resting.busy_pollCall (a := a) now w busy
    | inr b => exact Resting.busy_pollCall (a := b) now w busy
  free_endCall a := by
    cases a with
    | inl a => exact Resting.free_endCall a
    | inr b => exact Resting.free_endCall b
  endCall_free {a} free := by
    cases a with
    | inl a => exact congrArg Sum.inl (Resting.endCall_free (a := a) free)
    | inr b => exact congrArg Sum.inr (Resting.endCall_free (a := b) free)
  endCall_le now a := by
    cases a with
    | inl a => exact Resting.endCall_le now a
    | inr b => exact Resting.endCall_le now b
  good_endCall {a} good := by
    cases a with
    | inl a => exact Resting.good_endCall (a := a) good
    | inr b => exact Resting.good_endCall (a := b) good

theorem Sink.Op.run_inl (a : α) (w : World S) (op : Sink.Op) :
    op.run (Sum.inl a : α ⊕ β) w = (.inl (op.run a w).1, (op.run a w).2) := by
  cases op <;> rfl

theorem Sink.Op.run_inr (b : β) (w : World S) (op : Sink.Op) :
    op.run (Sum.inr b : α ⊕ β) w = (.inr (op.run b w).1, (op.run b w).2) := by
  cases op <;> rfl

instance [Storage S] [Settling S α] [Settling S β] [Resting S α] [Resting S β] [Clearable S α]
    [Clearable S β] : Clearable S (α ⊕ β) where
  Unhindered limit := Sum.elim (Clearable.Unhindered limit) (Clearable.Unhindered limit)
  Clearing limit := Sum.elim (Clearable.Clearing limit) (Clearable.Clearing limit)
  Drained := Sum.elim Clearable.Drained Clearable.Drained
  beginStop {_} reliable {_} now timeout {a _} works free := by
    cases a with
    | inl a => exact Clearable.beginStop (a := a) reliable now timeout works free
    | inr b => exact Clearable.beginStop (a := b) reliable now timeout works free
  pollCall {_} reliable {_} now {a _} works clearing := by
    cases a with
    | inl a => exact Clearable.pollCall (a := a) reliable now works clearing
    | inr b => exact Clearable.pollCall (a := b) reliable now works clearing
  pollTasks {_} reliable {_} now {a _} works clearing := by
    cases a with
    | inl a => exact Clearable.pollTasks (a := a) reliable now works clearing
    | inr b => exact Clearable.pollTasks (a := b) reliable now works clearing
  endCall {_ a} ended clearing := by
    cases a with
    | inl a => exact Clearable.endCall (a := a) ended clearing
    | inr b => exact Clearable.endCall (a := b) ended clearing
  next {_ _ a} clearing quiet running calls before := by
    cases a with
    | inl a => exact Clearable.next (a := a) clearing quiet running calls before
    | inr b => exact Clearable.next (a := b) clearing quiet running calls before
  drained {_ _ a} clearing quiet free := by
    cases a with
    | inl a => exact Clearable.drained (a := a) clearing quiet free
    | inr b => exact Clearable.drained (a := b) clearing quiet free

variable [Storage S] [LawfulStorage S]

instance [Settling S α] [Settling S β] [Custodian S α] [Custodian S β] : Custodian S (α ⊕ β) where
  Terms := Custodian.Terms α ⊕ Custodian.Terms β
  terms := Sum.map Custodian.terms Custodian.terms
  owns := Sum.elim Custodian.owns Custodian.owns
  Holds before h := Sum.elim (Custodian.Holds before h) (Custodian.Holds before h)
  frame {_ _ _ _ a} same holds := by
    cases a with
    | inl a => exact Custodian.frame same holds
    | inr b => exact Custodian.frame same holds
  good {_ _ _ a} holds := by
    cases a with
    | inl a => exact Custodian.good (a := a) holds
    | inr b => exact Custodian.good (a := b) holds
  op {_ _ a w} op holds := by
    cases a with
    | inl a =>
      rw [Sink.Op.run_inl]
      obtain ⟨kept, same, outside⟩ := Custodian.op op holds
      exact ⟨kept, congrArg Sum.inl same, outside⟩
    | inr b =>
      rw [Sink.Op.run_inr]
      obtain ⟨kept, same, outside⟩ := Custodian.op op holds
      exact ⟨kept, congrArg Sum.inr same, outside⟩
  log_wall r a w := by
    cases a with
    | inl a => exact Custodian.log_wall r a w
    | inr b => exact Custodian.log_wall r b w

end Telemetry
