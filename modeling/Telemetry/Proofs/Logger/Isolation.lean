import Mathlib.Data.List.Forall2
import Telemetry.Logger.Basic
import Telemetry.Proofs.Sink.Tapped

/-! Channels do not get in each other's way.
What the sink of a channel is given is decided by the routes and the severity of that
channel alone, whatever the sinks of the others do with their records, and each refusal
and each breakdown is counted once. -/
namespace Telemetry

/-- How a sink is registered: with routes, in the order in which they are attached, a least
severity, and the interval of the reports of its failures. -/
structure Registration (α : Type) where
  sink : α
  routes : List Route
  minSeverity : Option Severity
  interval : Nat

namespace Registration

variable {S α : Type}

/-- The channel of the sink, which is tapped. -/
def channel (p : Registration α) : Channel (Tapped α) :=
  let c := p.routes.foldl Channel.withRoute (.ofSink (.ofSink p.sink))
  let c := match p.minSeverity with
    | none => c
    | some least => c.withMinSeverity least
  c.withReporter (.ofInterval p.interval)

def tests (p : Registration α) : List Route × Option Severity :=
  (p.routes, p.minSeverity)

end Registration

/-- A record is serious enough and passed on by all routes. -/
def passesTests (tests : List Route × Option Severity) (r : Record) : Bool :=
  (tests.2.all fun least => decide (least.level ≤ r.severity.level)) &&
    tests.1.all fun route => route.passes r

/-- A record that is emitted, and what the clocks show then. -/
structure Emission where
  record : Record
  wall : Instant
  steady : Nat

namespace Logger

variable {S α : Type}

def ofPlans (plans : List (Registration α)) (timeout : Span) : Logger (Tapped α) :=
  ⟨plans.map Registration.channel, timeout⟩

def emitAll [Sink S α] : List Emission → Logger α → World S → List Answer × Logger α × World S
  | [], l, w => ([], l, w)
  | e :: rest, l, w =>
    let (answer, l, w) := Sink.log e.record l { w with wall := e.wall, steady := e.steady }
    let (answers, l, w) := emitAll rest l w
    (answer :: answers, l, w)

/-- What a channel was given of some records, and what it counted. -/
structure Tallied (records : List Record) (p : Registration α) (c : Channel (Tapped α)) : Prop where
  admits : c.admits = passesTests p.tests
  received : c.sink.received = records.filter (passesTests p.tests)
  counted : c.failures = c.sink.faults

theorem routes_foldl (routes : List Route) (c : Channel α) :
    routes.foldl Channel.withRoute c = { c with routes := routes.reverse ++ c.routes } := by
  induction routes generalizing c with
  | nil => rfl
  | cons route rest ih => simp [ih, Channel.withRoute]

theorem channel_eq (p : Registration α) :
    p.channel =
      ⟨.ofSink p.sink, p.routes.reverse, p.minSeverity, .ofInterval p.interval, none⟩ := by
  obtain ⟨sink, routes, minSeverity, interval⟩ := p
  cases minSeverity <;>
    simp [Registration.channel, routes_foldl, Channel.ofSink, Channel.withMinSeverity,
      Channel.withReporter]

theorem tallied_channel (p : Registration α) : Tallied [] p p.channel := by
  rw [channel_eq]
  refine ⟨?_, rfl, rfl⟩
  funext r
  cases least : p.minSeverity <;>
    simp [Channel.admits, passesTests, Registration.tests, Severity.isAtLeast, least]

theorem total_report (r : FailureReport) (now : Nat) (sink operation error : String) :
    (r.report now sink operation error).1.total = r.total + 1 := by
  unfold FailureReport.report
  split <;> rfl

theorem reporter_report (w : World S) (r : FailureReport) (sink operation error : String) :
    (w.report r sink operation error).1 = (r.report w.steady sink operation error).1 := by
  unfold World.report
  split <;> rename_i told <;> rw [told]

variable [Sink S α]

theorem dispatch_admitted {c : Channel α} {r : Record} (admitted : c.admits r = true)
    (w : World S) :
    (c.dispatch r w).1.sink = (Sink.log r c.sink w).2.1 ∧
      (c.dispatch r w).1.admits = c.admits ∧
      (c.dispatch r w).1.failures =
        c.failures + if (Sink.log r c.sink w).1 = .accepted then 0 else 1 := by
  have reported (c : Channel α) (error : String) (w : World S) :
      (c.report "log" error w).1.failures = c.failures + 1 := by
    show (w.report c.reporter _ _ _).1.total = _
    rw [reporter_report, total_report]
    rfl
  unfold Channel.dispatch
  rw [if_pos admitted]
  rcases logged : Sink.log r c.sink w with ⟨answer, sink, w'⟩
  cases answer with
  | accepted => exact ⟨rfl, rfl, rfl⟩
  | refused fault => exact ⟨rfl, rfl, reported _ _ _⟩
  | panicked text => exact ⟨rfl, rfl, reported _ _ _⟩

/-- What a sink has heard grows by each record that its channel admits. -/
theorem heard_dispatch {heard : α → List Record}
    (hears : ∀ r a (w : World S), heard (Sink.log r a w).2.1 = heard a ++ [r]) (r : Record)
    (c : Channel α) (w : World S) :
    (c.dispatch r w).1.admits = c.admits ∧
      heard (c.dispatch r w).1.sink = heard c.sink ++ [r].filter c.admits := by
  by_cases admitted : c.admits r = true
  · obtain ⟨sink, same, _⟩ := dispatch_admitted admitted w
    exact ⟨same, by rw [sink, hears, List.filter_cons_of_pos admitted, List.filter_nil]⟩
  · have kept : (c.dispatch r w).1 = c := by
      rw [Channel.dispatch, if_neg admitted]
    rw [kept, List.filter_cons_of_neg admitted, List.filter_nil, List.append_nil]
    exact ⟨rfl, rfl⟩

theorem Tallied.dispatch {records : List Record} {p : Registration α} {c : Channel (Tapped α)}
    (tallied : Tallied records p c) (r : Record) (w : World S) :
    Tallied (records ++ [r]) p (c.dispatch r w).1 := by
  obtain ⟨admits, received, counted⟩ := tallied
  have hears (r : Record) (t : Tapped α) (w : World S) :
      (Sink.log r t w).2.1.received = t.received ++ [r] := by
    rw [Tapped.received, Tapped.calls_log, List.map_append]
    rfl
  obtain ⟨same, heard⟩ := heard_dispatch hears r c w
  refine ⟨same.trans admits, ?_, ?_⟩
  · rw [heard, received, admits, List.filter_append]
  · by_cases admitted : c.admits r = true
    · obtain ⟨sink, _, failures⟩ := dispatch_admitted admitted w
      rw [failures, sink, counted, Tapped.faults, Tapped.faults, Tapped.calls_log,
        List.countP_append]
      by_cases accepted : (Sink.log r c.sink w).1 = .accepted <;> simp [accepted]
    · rw [Channel.dispatch, if_neg admitted]
      exact counted

theorem tallied_eachChannel {records : List Record} {plans : List (Registration α)}
    {channels : List (Channel (Tapped α))}
    (tallied : List.Forall₂ (Tallied records) plans channels) (r : Record) (w : World S) :
    List.Forall₂ (Tallied (records ++ [r])) plans
      (eachChannel (Channel.dispatch r) channels w).1 := by
  induction tallied generalizing w with
  | nil => exact .nil
  | cons here _ ih => exact .cons (here.dispatch r w) (ih _)

/-- Every record is taken in, and each channel has its share of them all. -/
theorem tallied_emitAll {records : List Record} {plans : List (Registration α)}
    {l : Logger (Tapped α)} (tallied : List.Forall₂ (Tallied records) plans l.channels)
    (emissions : List Emission) (w : World S) :
    (emitAll emissions l w).1 = List.replicate emissions.length .accepted ∧
      List.Forall₂ (Tallied (records ++ emissions.map (·.record))) plans
        (emitAll emissions l w).2.1.channels := by
  induction emissions generalizing records l w with
  | nil => exact ⟨rfl, by simpa [emitAll] using tallied⟩
  | cons e rest ih =>
    have here := tallied_eachChannel tallied e.record { w with wall := e.wall, steady := e.steady }
    obtain ⟨answers, behind⟩ := ih (l := (l.each (Channel.dispatch e.record) _).1) here
      (l.each (Channel.dispatch e.record) { w with wall := e.wall, steady := e.steady }).2
    rw [List.append_assoc] at behind
    exact ⟨congrArg (List.cons Answer.accepted) answers, behind⟩

omit [Sink S α] in
theorem received_of_tallied {records : List Record} {plans : List (Registration α)}
    {channels : List (Channel (Tapped α))}
    (tallied : List.Forall₂ (Tallied records) plans channels) :
    channels.map (·.sink.received) = plans.map fun p => records.filter (passesTests p.tests) := by
  induction tallied with
  | nil => rfl
  | cons here _ ih => rw [List.map_cons, List.map_cons, here.received, ih]

omit [Sink S α] in
theorem failures_of_tallied {records : List Record} {plans : List (Registration α)}
    {channels : List (Channel (Tapped α))}
    (tallied : List.Forall₂ (Tallied records) plans channels) :
    channels.map Channel.failures = channels.map (·.sink.faults) := by
  induction tallied with
  | nil => rfl
  | cons here _ ih => rw [List.map_cons, List.map_cons, here.counted, ih]

theorem tallied_channels (plans : List (Registration α)) :
    List.Forall₂ (Tallied []) plans (plans.map Registration.channel) :=
  List.forall₂_map_right_iff.mpr (List.forall₂_same.mpr fun p _ => tallied_channel p)

/-- Whatever sinks do with the records that they are given, a logger takes every record in. The
sink of each channel is given those of the emitted records that are serious enough for the
channel and pass its routes, as they are and in their order. So what it is given does not
depend on the other channels: in every other logger, with sinks of any kind in any
surroundings, a channel with the same tests is given the same of the same records. The
failures of the logger are the refusals and the breakdowns of all its sinks. -/
theorem emitAll_fans_out (plans : List (Registration α)) (timeout : Span)
    (w : World S) (emissions : List Emission) :
    let records := emissions.map (·.record)
    let (answers, l, _) := emitAll emissions (ofPlans plans timeout) w
    answers = List.replicate emissions.length .accepted ∧
      l.channels.map (·.sink.received) =
        plans.map (fun p => records.filter (passesTests p.tests)) ∧
      (∀ {S' α' : Type} [Sink S' α'] (plans' : List (Registration α')) (timeout' : Span)
        (w' : World S') (emissions' : List Emission) (i j : Nat),
        emissions'.map (·.record) = records →
        plans'[j]?.map Registration.tests = plans[i]?.map Registration.tests →
        (emitAll emissions' (ofPlans plans' timeout') w').2.1.channels[j]?.map (·.sink.received) =
          l.channels[i]?.map (·.sink.received)) ∧
      l.failures = (l.channels.map (·.sink.faults)).sum := by
  obtain ⟨answers, tallied⟩ :=
    tallied_emitAll (l := ofPlans plans timeout) (tallied_channels plans) emissions w
  have received := received_of_tallied tallied
  refine ⟨answers, received, fun plans' timeout' w' emissions' i j same tests => ?_,
    congrArg List.sum (failures_of_tallied tallied)⟩
  obtain ⟨_, tallied'⟩ :=
    tallied_emitAll (l := ofPlans plans' timeout') (tallied_channels plans') emissions' w'
  have received' := received_of_tallied tallied'
  rw [← List.getElem?_map, ← List.getElem?_map, received, received', List.getElem?_map,
    List.getElem?_map, same]
  have chosen := congrArg
    (Option.map fun tests => (emissions.map (·.record)).filter (passesTests tests)) tests
  rw [Option.map_map, Option.map_map] at chosen
  exact chosen

end Logger
end Telemetry
