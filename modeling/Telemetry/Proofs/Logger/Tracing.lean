import Telemetry.Proofs.Config.Usable
import Telemetry.Proofs.Trace.Budget
import Telemetry.Proofs.Trace.Lines
import Telemetry.Storage.Memory

/-! The real-time trace of a configured logger.
Channels hand records on and add nothing to the trace themselves, so a logger adds what the
sinks of its channels add. The check of a configuration leaves each record room for its
fixed members and a context, within the limit that budget and transport share: no record is
refused for its size. -/
namespace Telemetry
open Trace (LogTransport Timed)

variable {S α : Type} [Sink S α] [Tracing S α]

namespace Channel

/-- The lines that a record adds to the trace, if the channel admits it. -/
def told (c : Channel α) (r : Record) : List Journal.Line :=
  if c.admits r then Tracing.told c.sink r else []

theorem sees_told : SeesThrough (Tracing.told (α := α)) told := by
  intro c a call reporter same
  funext r
  show (if c.admits r then Tracing.told a r else []) = told c r
  rw [same, told]

omit [Tracing S α] in
theorem trace_conclude (now : Tick) (c : Channel α) (w : World S) :
    (c.conclude now w).2.trace = w.trace := by
  unfold conclude
  split
  · rfl
  · split
    · rfl
    · exact World.trace_report ..
    · split
      · exact World.trace_report ..
      · rfl

theorem trace_dispatch (r : Record) (c : Channel α) (w : World S) :
    (c.dispatch r w).2.trace = c.told r ++ w.trace := by
  unfold dispatch told
  split
  · have logged := Tracing.log r c.sink w
    generalize Sink.log r c.sink w = p at logged
    obtain ⟨answer, a, w'⟩ := p
    cases answer with
    | accepted => exact logged
    | refused fault => exact (World.trace_report ..).trans logged
    | panicked text => exact (World.trace_report ..).trans logged
  · rfl

theorem trace_pollCall (now : Tick) (c : Channel α) (w : World S) :
    (c.pollCall now w).2.trace = w.trace := by
  unfold pollCall
  split
  · exact (trace_conclude ..).trans (Tracing.pollCall now c.sink w)
  · rfl

end Channel

namespace Logger

def told (l : Logger α) (r : Record) : List Journal.Line :=
  (l.channels.map fun c => c.told r).reverse.flatten

omit [Sink S α] [Tracing S α] in
theorem trace_each {f : Channel α → World S → Channel α × World S}
    {lines : Channel α → List Journal.Line}
    (adds : ∀ c w, (f c w).2.trace = lines c ++ w.trace) (l : Logger α) (w : World S) :
    (l.each f w).2.trace = (l.channels.map lines).reverse.flatten ++ w.trace := by
  show (eachChannel f l.channels w).2.trace = _
  induction l.channels generalizing w with
  | nil => rfl
  | cons c rest ih =>
    show (eachChannel f rest (f c w).2).2.trace = _
    rw [ih, adds]
    simp

omit [Sink S α] [Tracing S α] in
theorem trace_each_nothing {f : Channel α → World S → Channel α × World S}
    (adds : ∀ c w, (f c w).2.trace = w.trace) (l : Logger α) (w : World S) :
    (l.each f w).2.trace = w.trace := by
  have nothing (c : Channel α) (w : World S) :
      (f c w).2.trace = (fun _ => [] : Channel α → List Journal.Line) c ++ w.trace := adds c w
  simpa using trace_each nothing l w

/-- What a logger tells is made of what its channels tell. -/
theorem unchanged_told : Unchanged (told (α := α)) := by
  have channels : Unchanged fun l : Logger α => l.channels.map Channel.told :=
    unchanged_channels Channel.sees_told Tracing.unchanged
  have made := channels.map fun tolds r => (tolds.map fun told => told r).reverse.flatten
  simp only [List.map_map] at made
  exact made

instance : Tracing S (Logger α) where
  told := told
  unchanged := unchanged_told
  log r := trace_each (Channel.trace_dispatch r)
  beginFlush now timeout := trace_each_nothing fun c w =>
    (Channel.trace_conclude ..).trans (Tracing.beginFlush now timeout c.sink w)
  beginStop now timeout := trace_each_nothing fun c w =>
    (Channel.trace_conclude ..).trans (Tracing.beginStop now timeout c.sink w)
  pollCall now := trace_each_nothing (Channel.trace_pollCall now)
  pollTasks now := trace_each_nothing fun c w => Tracing.pollTasks now c.sink w

end Logger

namespace Config

def traces (c : Config) (r : Record) : Bool :=
  r.severity.isAtLeast c.realtime.minSeverity && Route.traces.passes r

def traceEntry (c : Config) (r : Record) : Trace.Entry :=
  (Trace.Budget.mk c.realtime.maxEventBytes.toNat).serialize r.id.label r.severity r.toEvent

theorem traceEntry_fits {c : Config} (usable : c.Usable) (on : c.realtime.enabled = true)
    {r : Record} (timed : Timed r.toEvent) :
    (c.traceEntry r).constrainFailed = false ∧
      (c.traceEntry r).size ≤ c.realtime.maxEventBytes.toNat := by
  obtain ⟨context, constrained, entry, fits⟩ :=
    Trace.serialize_context (b := ⟨c.realtime.maxEventBytes.toNat⟩) (usable.realtime on)
      r.id.label r.severity timed
  rw [traceEntry, entry]
  exact ⟨rfl, fits⟩

variable {S : Type} [Storage S] {c : Config} {agent : Agent} {host : Host}
  {endpoint : Option Stream.Endpoint} {l : Logger (Device S)}

/-- Only the real-time channel of a configured logger adds to the trace. -/
theorem told_logger (made : c.logger agent host endpoint = .ok l) (on : c.realtime.enabled = true)
    (r : Record) : l.told r = (c.realtimeChannel (S := S)).told r := by
  have nothing (s : Channel (Device S)) (silent : ∀ r, Tracing.told s.sink r = [])
      (enabled : Bool) :
      ((whenEnabled enabled s).map fun c => c.told r).reverse.flatten = [] := by
    have nothing : s.told r = [] := by
      unfold Channel.told
      rw [silent, ite_self]
    cases enabled <;> simp [whenEnabled, nothing]
  obtain ⟨_, _, rfl⟩ := logger_eq_ok_iff.mp made
  have streams : ((endpoint.toList.flatMap fun e => whenEnabled c.stream.enabled
      (c.streamChannel (S := S) host e)).map fun c => c.told r).reverse.flatten = [] := by
    cases endpoint with
    | none => rfl
    | some e =>
      simpa using nothing (c.streamChannel host e) (fun _ => rfl) c.stream.enabled
  have traced : ((whenEnabled c.realtime.enabled (c.realtimeChannel (S := S))).map
      fun c => c.told r).reverse.flatten = (c.realtimeChannel (S := S)).told r := by
    simp [whenEnabled, on]
  simp only [Logger.told, List.map_append, List.reverse_append, List.flatten_append,
    streams, traced,
    nothing (c.csvChannel host) (fun _ => rfl), nothing (c.markerChannel agent host) (fun _ => rfl),
    nothing c.summaryChannel (fun _ => rfl), List.append_nil, List.nil_append]

theorem told_realtimeChannel (usable : c.Usable) (on : c.realtime.enabled = true) {r : Record}
    (timed : Timed r.toEvent) :
    (c.realtimeChannel (S := S)).told r =
      if c.traces r then [.traced (c.traceEntry r)] else [] := by
  have admits : (c.realtimeChannel (S := S)).admits r = c.traces r := by
    simp [realtimeChannel, Channel.admits, Channel.withMinSeverity, Channel.withRoute,
      Channel.ofSink, traces]
  have told : Tracing.told (c.realtimeChannel (S := S)).sink r = [.traced (c.traceEntry r)] := by
    have fits := (traceEntry_fits usable on timed).2
    simp only [realtimeChannel, Channel.withMinSeverity, Channel.withRoute, Channel.ofSink,
      Device.realtime, Tracing.told_inr, Tracing.told_inl, Trace.Realtime.tracing_told]
    rw [traceEntry] at fits ⊢
    exact Trace.Realtime.told_of_fits fits
  rw [Channel.told, admits, told]

end Config

open Config in
/-- Whatever is done with the logger of a configuration that traces: the trace has exactly one
more line for each record that is serious enough and passes the route of the trace, in their
order. The line is the record in its whole form, which is within the limit, has a context and
is written by the transport at the first attempt, whatever the surroundings. So no record is
refused, retried in its least form or given up. -/
theorem traced_at_first_attempt {S : Type} [Storage S] {c : Config} {agent : Agent} {host : Host}
    {endpoint : Option Stream.Endpoint} {l : Logger (Device S)}
    (made : c.logger agent host endpoint = .ok l) (on : c.realtime.enabled = true) (w : World S)
    (ops : List Sink.Op) (timed : ∀ r, .log r ∈ ops → Timed r.toEvent) :
    let passed := (ops.filterMap Sink.Op.record?).filter c.traces
    let transport : LogTransport := ⟨c.realtime.maxEventBytes.toNat⟩
    (Sink.after l w ops).2.trace =
        (passed.map fun r => .traced (c.traceEntry r)).reverse ++ w.trace ∧
      ∀ r ∈ passed, (c.traceEntry r).constrainFailed = false ∧
        (c.traceEntry r).size ≤ c.realtime.maxEventBytes.toNat ∧
        ∀ w' : World S, Trace.Transport.write (c.traceEntry r) transport w' =
          (.ok (), transport, w'.tell (.traced (c.traceEntry r))) := by
  intro passed transport
  have usable := (logger_eq_ok_iff.mp made).1
  have brought {r : Record} (member : r ∈ ops.filterMap Sink.Op.record?) : Timed r.toEvent := by
    obtain ⟨op, there, same⟩ := List.mem_filterMap.mp member
    cases op with
    | log r' =>
      cases same
      exact timed r there
    | _ => cases same
  constructor
  · have lines : (ops.filterMap Sink.Op.record?).reverse.flatMap l.told =
        (passed.map fun r => .traced (c.traceEntry r)).reverse := by
      have each (r : Record) (member : r ∈ (ops.filterMap Sink.Op.record?).reverse) :
          l.told r = if c.traces r then [.traced (c.traceEntry r)] else [] :=
        (told_logger made on r).trans
          (told_realtimeChannel usable on (brought (List.mem_reverse.mp member)))
      rw [List.flatMap_congr each, ← List.map_reverse, ← List.filter_reverse]
      induction (ops.filterMap Sink.Op.record?).reverse with
      | nil => rfl
      | cons r rest ih =>
        rw [List.flatMap_cons, ih]
        cases here : c.traces r <;> simp [here]
    exact lines ▸ Tracing.after ops l w
  · intro r member
    obtain ⟨complete, fits⟩ := traceEntry_fits usable on (brought (List.mem_of_mem_filter member))
    refine ⟨complete, fits, fun w' => ?_⟩
    exact if_neg (Nat.not_lt.mpr fits)

/-- A long event at the least limit, and one that is not serious enough. -/
theorem traced_at_first_attempt_within_least_limit :
    let c : Config := { Config.standard with
      realtime := ⟨true, .warning, UInt64.ofNat Trace.minEventBytes⟩ }
    let agent : Agent := ⟨"agent-01", "experiment"⟩
    let host : Host := ⟨"host", "x86_64", "linux", "22.04", "Linux", "+00:00"⟩
    let w : World MemoryStore := .ofStore (MemoryStore.ofFiles [])
    let long := String.ofList (List.replicate 5000 'x')
    let event := ((Event.ofActivity .nil).withDuration (-5)).withProperty "note" (.text long)
    let warning : Record := ⟨.named "long", .warning, .event event⟩
    let note : Record := ⟨.named "note", .information, .message long⟩
    let ops : List Sink.Op :=
      [.start true 0, .log note, .log warning, .flush 5 (Span.ofMillis 100), .tasksOn 10]
    ∃ l : Logger (Device MemoryStore), c.logger agent host none = .ok l ∧
      (Sink.after l w ops).2.trace = [.traced (c.traceEntry warning)] ∧
      (c.traceEntry warning).constrainFailed = false ∧ (c.traceEntry warning).size ≤ 2635 := by
  intro c agent host w long event warning note ops
  have usable : c.Usable := c.check_eq_ok_iff.mp (by decide +kernel)
  obtain ⟨l, made⟩ : ∃ l : Logger (Device MemoryStore), c.logger agent host none = .ok l :=
    ⟨_, Config.logger_eq_ok_iff.mpr ⟨usable, nofun, rfl⟩⟩
  have timed (r : Record) (member : .log r ∈ ops) : Timed r.toEvent := by
    intro d given
    simp [ops] at member
    rcases member with rfl | rfl
    · cases given
    · cases given
      decide
  obtain ⟨trace, facts⟩ := traced_at_first_attempt made rfl w ops timed
  have passed : (ops.filterMap Sink.Op.record?).filter c.traces = [warning] := rfl
  rw [passed] at trace facts
  obtain ⟨complete, fits, _⟩ := facts warning (List.mem_singleton.mpr rfl)
  exact ⟨l, made, trace, complete, fits⟩

end Telemetry
