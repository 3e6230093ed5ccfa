import Telemetry.Sink.Basic

/-! Sinks of two kinds as sinks of one kind. What is asked of a sink goes to the one
that it is. -/
namespace Telemetry

/-- What is asked of either sink, with the surroundings threaded through. -/
def Sum.work {α β ω : Type} (f : α → ω → α × ω) (g : β → ω → β × ω) : α ⊕ β → ω → (α ⊕ β) × ω
  | .inl a, w =>
    let (a, w) := f a w
    (.inl a, w)
  | .inr b, w =>
    let (b, w) := g b w
    (.inr b, w)

/-- The same with an answer. -/
def Sum.ask {α β ω γ : Type} (f : α → ω → γ × α × ω) (g : β → ω → γ × β × ω) :
    α ⊕ β → ω → γ × (α ⊕ β) × ω
  | .inl a, w =>
    let (c, a, w) := f a w
    (c, .inl a, w)
  | .inr b, w =>
    let (c, b, w) := g b w
    (c, .inr b, w)

instance {S α β : Type} [Sink S α] [Sink S β] : Sink S (α ⊕ β) where
  name := Sum.elim Sink.name Sink.name
  log r := Sum.ask (Sink.log r) (Sink.log r)
  start inRuntime now
    | .inl a =>
      let (result, a) := Sink.start inRuntime now a
      (result, .inl a)
    | .inr b =>
      let (result, b) := Sink.start inRuntime now b
      (result, .inr b)
  beginFlush now timeout := Sum.work (Sink.beginFlush now timeout) (Sink.beginFlush now timeout)
  beginStop now timeout := Sum.work (Sink.beginStop now timeout) (Sink.beginStop now timeout)
  result? := Sum.elim Sink.result? Sink.result?
  endCall := Sum.map Sink.endCall Sink.endCall
  due := Sum.elim Sink.due Sink.due
  pollCall now := Sum.work (Sink.pollCall now) (Sink.pollCall now)
  pollTasks now := Sum.work (Sink.pollTasks now) (Sink.pollTasks now)
  rounds := Sum.elim Sink.rounds Sink.rounds
  latest now := Sum.elim (Sink.latest now) (Sink.latest now)

end Telemetry
