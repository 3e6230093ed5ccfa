import Telemetry.Logger.Basic
import Telemetry.Proofs.Sink.Operations
import Telemetry.Sink.Sum

/-! What nothing that is done with a sink changes.
Settings are fixed when a sink is made: jobs, calls and records leave them alone, and so does
a logger that hands its operations on to the sinks of its channels. -/
namespace Telemetry

section Unchanged

variable {S α β γ : Type} [Sink S α] [Sink S β]

/-- What is seen of a sink stays the same, whatever is done with the sink. -/
structure Unchanged (see : α → γ) : Prop where
  log : ∀ (r : Record) (a : α) (w : World S), see (Sink.log r a w).2.1 = see a
  start : ∀ (inRuntime : Bool) (now : Tick) (a : α), see (Sink.start inRuntime now a).2 = see a
  beginFlush : ∀ (now : Tick) (timeout : Span) (a : α) (w : World S),
    see (Sink.beginFlush now timeout a w).1 = see a
  beginStop : ∀ (now : Tick) (timeout : Span) (a : α) (w : World S),
    see (Sink.beginStop now timeout a w).1 = see a
  endCall : ∀ a : α, see (Sink.endCall a) = see a
  pollCall : ∀ (now : Tick) (a : α) (w : World S), see (Sink.pollCall now a w).1 = see a
  pollTasks : ∀ (now : Tick) (a : α) (w : World S), see (Sink.pollTasks now a w).1 = see a

namespace Unchanged

variable {see : α → γ}

theorem op (unchanged : Unchanged see) (op : Sink.Op) (a : α) (w : World S) :
    see (op.run a w).1 = see a := by
  cases op with
  | log r => exact unchanged.log r a w
  | start inRuntime now => exact unchanged.start inRuntime now a
  | flush now timeout => exact (unchanged.beginFlush ..).trans (unchanged.endCall a)
  | stop now timeout => exact (unchanged.beginStop ..).trans (unchanged.endCall a)
  | callOn now => exact unchanged.pollCall now a w
  | tasksOn now => exact unchanged.pollTasks now a w
  | drop => exact unchanged.endCall a
  | clocks wall steady => rfl

theorem after (unchanged : Unchanged see) (ops : List Sink.Op) (a : α) (w : World S) :
    see (Sink.after a w ops).1 = see a := by
  induction ops generalizing a w with
  | nil => rfl
  | cons op rest ih => exact (ih (op.run a w).1 (op.run a w).2).trans (unchanged.op op a w)

theorem map {δ : Type} (unchanged : Unchanged see) (f : γ → δ) : Unchanged fun a => f (see a) where
  log r a w := congrArg f (unchanged.log r a w)
  start inRuntime now a := congrArg f (unchanged.start inRuntime now a)
  beginFlush now timeout a w := congrArg f (unchanged.beginFlush now timeout a w)
  beginStop now timeout a w := congrArg f (unchanged.beginStop now timeout a w)
  endCall a := congrArg f (unchanged.endCall a)
  pollCall now a w := congrArg f (unchanged.pollCall now a w)
  pollTasks now a w := congrArg f (unchanged.pollTasks now a w)

theorem const (value : γ) : Unchanged fun _ : α => value := by
  constructor <;> intros <;> rfl

theorem sum {see' : β → γ} (left : Unchanged see) (right : Unchanged see') :
    Unchanged (Sum.elim see see') where
  log r a w := by
    cases a with
    | inl a => exact left.log r a w
    | inr b => exact right.log r b w
  start inRuntime now a := by
    cases a with
    | inl a => exact left.start inRuntime now a
    | inr b => exact right.start inRuntime now b
  beginFlush now timeout a w := by
    cases a with
    | inl a => exact left.beginFlush now timeout a w
    | inr b => exact right.beginFlush now timeout b w
  beginStop now timeout a w := by
    cases a with
    | inl a => exact left.beginStop now timeout a w
    | inr b => exact right.beginStop now timeout b w
  endCall a := by
    cases a with
    | inl a => exact left.endCall a
    | inr b => exact right.endCall b
  pollCall now a w := by
    cases a with
    | inl a => exact left.pollCall now a w
    | inr b => exact right.pollCall now b w
  pollTasks now a w := by
    cases a with
    | inl a => exact left.pollTasks now a w
    | inr b => exact right.pollTasks now b w

end Unchanged
end Unchanged

namespace Service

variable {S σ κ : Type} [Duty σ κ] [Work S σ κ] [Paced S σ κ]

theorem unchanged_period : Unchanged fun s : Service S σ κ => Duty.period s.state where
  log r s w := Paced.accept_period r (s.stage w)
  start inRuntime now s := by
    simp only [Sink.start, start]
    split_ifs <;> rfl
  beginFlush now timeout _ _ := Paced.period_same.beginFlush now timeout
  beginStop now timeout s w := by
    simp only [Sink.beginStop, beginStop]
    split
    · exact Paced.period_same.beginFlush now timeout
    · rfl
  endCall s := endCall_part (Paced.period_same (S := S)).abandon s
  pollCall now _ _ := Paced.period_same.pollCall now
  pollTasks now s w := Paced.period_same.pollList now s.tasks (s.stage w)

end Service

section Logger

variable {S α γ δ : Type} [Sink S α] {see : α → γ} {seen : Channel α → δ}

/-- What is seen of a channel takes from the sink only what is seen of that, and nothing from
the call and the reporter. -/
def Channel.SeesThrough (see : α → γ) (seen : Channel α → δ) : Prop :=
  ∀ {c : Channel α} {a : α} {call : Option Call} {reporter : FailureReport},
    see a = see c.sink → seen { c with sink := a, call := call, reporter := reporter } = seen c

namespace Channel

theorem seen_conclude (through : SeesThrough see seen) (unchanged : Unchanged see) (now : Tick)
    (c : Channel α) (w : World S) : seen (c.conclude now w).1 = seen c := by
  have ended := unchanged.endCall c.sink
  unfold conclude
  split
  · rfl
  · split
    · exact through ended
    · exact through ended
    · split
      · exact through ended
      · rfl

theorem seen_dispatch (through : SeesThrough see seen) (unchanged : Unchanged see) (r : Record)
    (c : Channel α) (w : World S) : seen (c.dispatch r w).1 = seen c := by
  have same := unchanged.log r c.sink w
  unfold dispatch
  split
  · split <;> rename_i logged <;> rw [logged] at same <;> exact through same
  · rfl

end Channel

namespace Logger

omit [Sink S α] in
/-- What is done with each channel in turn changes nothing where it changes no channel. -/
theorem seen_each {f : Channel α → World S → Channel α × World S}
    (same : ∀ c w, seen (f c w).1 = seen c) (l : Logger α) (w : World S) :
    (l.each f w).1.channels.map seen = l.channels.map seen := by
  show (eachChannel f l.channels w).1.map seen = _
  induction l.channels generalizing w with
  | nil => rfl
  | cons c rest ih => exact congrArg₂ List.cons (same c w) (ih (f c w).2)

theorem seen_startChannels (through : Channel.SeesThrough see seen) (unchanged : Unchanged see)
    (inRuntime : Bool) (now : Tick) (channels : List (Channel α)) :
    (startChannels inRuntime now channels).2.map seen = channels.map seen := by
  induction channels with
  | nil => rfl
  | cons c rest ih =>
    have same := unchanged.start inRuntime now c.sink
    unfold startChannels
    split <;> rename_i started <;> rw [started] at same
    · exact congrArg (· :: _) (through same)
    · exact congrArg₂ List.cons (through same) ih

/-- What stays the same in each sink stays the same in a logger. -/
theorem unchanged_channels (through : Channel.SeesThrough see seen) (unchanged : Unchanged see) :
    Unchanged fun l : Logger α => l.channels.map seen where
  log r := seen_each (Channel.seen_dispatch through unchanged r)
  start inRuntime now l := seen_startChannels through unchanged inRuntime now l.channels
  beginFlush now timeout := seen_each fun c w =>
    (Channel.seen_conclude through unchanged ..).trans
      (through (unchanged.beginFlush now timeout c.sink w))
  beginStop now timeout := seen_each fun c w =>
    (Channel.seen_conclude through unchanged ..).trans
      (through (unchanged.beginStop now timeout c.sink w))
  endCall l := by
    show (l.channels.map Channel.endCall).map seen = _
    rw [List.map_map]
    exact List.map_congr_left fun c _ => through (unchanged.endCall c.sink)
  pollCall now := seen_each fun c w => by
    unfold Channel.pollCall
    split
    · exact (Channel.seen_conclude through unchanged ..).trans
        (through (unchanged.pollCall now c.sink w))
    · rfl
  pollTasks now := seen_each fun c w => through (unchanged.pollTasks now c.sink w)

end Logger
end Logger
end Telemetry
