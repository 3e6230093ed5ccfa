import Telemetry.Proofs.Config.Usable
import Telemetry.Proofs.Logger.Unchanged
import Telemetry.Proofs.Sink.FileSinks
import Telemetry.Proofs.Stream.Turns
import Telemetry.Storage.Memory

/-! A configuration that passes its check is enough.
What sinks ask of their settings when they are started, and what samplings ask of their rates,
the check has asked before, for every section that is on. -/
namespace Telemetry

section Starting

variable {S α : Type} [Sink S α]

def Channel.started (now : Tick) (c : Channel α) : Channel α :=
  { c with sink := (Sink.start true now c.sink).2 }

theorem Logger.start_ok {l : Logger α} {now : Tick}
    (ready : ∀ c ∈ l.channels, (Sink.start true now c.sink).1 = .ok ()) :
    Sink.start true now l =
      (.ok (), { l with channels := l.channels.map (Channel.started now) }) := by
  have all (channels : List (Channel α))
      (ready : ∀ c ∈ channels, (Sink.start true now c.sink).1 = .ok ()) :
      startChannels true now channels = (.ok (), channels.map (Channel.started now)) := by
    induction channels with
    | nil => rfl
    | cons c rest ih =>
      have here := ready c List.mem_cons_self
      have others := ih fun d member => ready d (List.mem_cons_of_mem _ member)
      unfold startChannels
      split <;> rename_i started
      · rw [started] at here
        cases here
      · rw [others, List.map_cons, Channel.started, started]
  show ((startChannels true now l.channels).1, _) = _
  rw [all l.channels ready]

/-- The only settings that a sink is not started with are those of no pause at all. -/
theorem Service.start_ok {σ κ : Type} [Duty σ κ] {s : Service S σ κ}
    (regular : Duty.period s.state ≠ some 0) (now : Tick) : (s.start true now).1 = .ok () := by
  simp only [start, Bool.not_true, Bool.false_eq_true, if_false, if_neg regular]
  split <;> rfl

end Starting

namespace Device

variable {S : Type}

/-- How often a device works in the background, if it does so by the clock. -/
def period : Device S → Option Tick :=
  Sum.elim (fun s => Duty.period s.state) <|
    Sum.elim (fun s => Duty.period s.state) <|
      Sum.elim (fun s => Duty.period s.state) <|
        Sum.elim (fun _ => none) fun s => Duty.period s.state

variable [Storage S]

theorem unchanged_period : Unchanged (period (S := S)) :=
  Service.unchanged_period.sum <| Service.unchanged_period.sum <|
    Service.unchanged_period.sum <| (Unchanged.const none).sum Service.unchanged_period

theorem start_ok {d : Device S} (regular : d.period ≠ some 0) (now : Tick) :
    (Sink.start true now d).1 = .ok () := by
  rcases d with table | marker | summary | realtime | stream
  · exact Service.start_ok (s := table) regular now
  · exact Service.start_ok (s := marker) regular now
  · exact Service.start_ok (s := summary) regular now
  · rfl
  · exact Service.start_ok (s := stream) regular now

end Device

namespace Sampling.Registry

def entry (s : Sampling) : String × Nat × UInt64 := (s.name, s.rate, s.count)

theorem get?_entry {r : Registry} {rates : List (String × UInt64)}
    (entries : r.entries.map entry = rates.map fun e => (e.1, e.2.toNat, 0)) (name : String) :
    (r.get? name).map entry = (rates.lookup name).map fun rate => (name, rate.toNat, 0) := by
  have found : (r.get? name).map entry =
      (rates.map fun e => (e.1, e.2.toNat, (0 : UInt64))).find? fun e => e.1 == name := by
    rw [← entries, List.find?_map]
    rfl
  rw [found]
  clear entries found
  induction rates with
  | nil => rfl
  | cons e rest ih =>
    by_cases same : e.1 = name
    · obtain ⟨key, rate⟩ := e
      subst same
      simp
    · have other : (name == e.1) = false := by simpa using Ne.symm same
      rw [List.map_cons, List.find?_cons_of_neg (by simpa using same), ih, List.lookup_cons, other]

theorem getOrCreate_new {r : Registry} {name : String} {rate : Nat}
    (new : ∀ s ∈ r.entries, s.name ≠ name) (positive : 0 < rate) :
    r.getOrCreate name rate =
      (.ok ⟨name, rate, 0, positive⟩, ⟨r.entries ++ [⟨name, rate, 0, positive⟩]⟩) := by
  have unknown : r.get? name = none := by
    rw [get?, List.find?_eq_none]
    exact fun s member => by simpa using new s member
  simp only [getOrCreate, unknown, create, dif_pos positive]

theorem foldlM_getOrCreate {rates : List (String × UInt64)} {r : Registry}
    (positive : ∀ e ∈ rates, e.2 ≠ 0) (sorted : rates.Pairwise fun a b => a.1 < b.1)
    (new : ∀ s ∈ r.entries, ∀ e ∈ rates, s.name ≠ e.1) :
    ∃ r', (rates.foldlM (fun r e => do
        let (created, r) := r.getOrCreate e.1 e.2.toNat
        let _ ← created
        .ok r) r : Except Fault Registry) = .ok r' ∧
      r'.entries.map entry = r.entries.map entry ++ rates.map fun e => (e.1, e.2.toNat, 0) := by
  induction rates generalizing r with
  | nil => exact ⟨r, rfl, (List.append_nil _).symm⟩
  | cons e rest ih =>
    obtain ⟨above, sorted'⟩ := List.pairwise_cons.mp sorted
    have counts : 0 < e.2.toNat := Nat.pos_of_ne_zero fun zero =>
      positive e List.mem_cons_self (UInt64.toNat_inj.mp zero)
    have created := getOrCreate_new (fun s member => new s member e List.mem_cons_self) counts
    have new' : ∀ s ∈ r.entries ++ [⟨e.1, e.2.toNat, 0, counts⟩], ∀ e' ∈ rest, s.name ≠ e'.1 := by
      intro s member e' there
      rcases List.mem_append.mp member with old | last
      · exact new s old e' (List.mem_cons_of_mem _ there)
      · obtain rfl := List.mem_singleton.mp last
        exact fun same => String.lt_irrefl _ (same ▸ above e' there)
    obtain ⟨r', made, entries⟩ := ih (r := ⟨r.entries ++ [⟨e.1, e.2.toNat, 0, counts⟩]⟩)
      (fun e' member => positive e' (List.mem_cons_of_mem _ member)) sorted' new'
    refine ⟨r', ?_, ?_⟩
    · rw [List.foldlM_cons, created]
      exact made
    · rw [entries, List.map_append, List.append_assoc]
      rfl

end Sampling.Registry

namespace Config
open Sampling (Registry)

theorem mem_whenEnabled {β : Type} {on : Bool} {a b : β} :
    a ∈ whenEnabled on b ↔ on = true ∧ a = b := by
  cases on <;> simp [whenEnabled]

/-- The names of the sinks that a configuration asks for, in the order of its sections. -/
def sinkNames (c : Config) : List String :=
  whenEnabled c.csv.enabled "rolling-csv" ++ whenEnabled c.marker.enabled "marker-file"
    ++ whenEnabled c.summary.enabled "summary-file" ++ whenEnabled c.realtime.enabled "realtime"
    ++ whenEnabled c.stream.enabled "streaming"

section Logger

variable {S : Type} [Storage S] {c : Config} {agent : Agent} {host : Host}
  {endpoint : Option Stream.Endpoint} {l : Logger (Device S)}

theorem map_whenEnabled {β γ : Type} (f : β → γ) (on : Bool) (b : β) :
    (whenEnabled on b).map f = whenEnabled on (f b) := by
  cases on <;> rfl

theorem names_logger (made : c.logger agent host endpoint = .ok l) :
    l.channels.map Channel.name = c.sinkNames := by
  obtain ⟨_, given, rfl⟩ := logger_eq_ok_iff.mp made
  have streams : (endpoint.toList.flatMap fun e =>
      whenEnabled c.stream.enabled (c.streamChannel (S := S) host e)).map Channel.name =
        whenEnabled c.stream.enabled "streaming" := by
    cases endpoint with
    | none =>
      have off : c.stream.enabled = false := by simpa using given
      simp [whenEnabled, off]
    | some e =>
      have name : (c.streamChannel (S := S) host e).name = "streaming" := rfl
      simp [map_whenEnabled, name]
  simp only [List.map_append, map_whenEnabled, streams]
  rfl

omit [Storage S] in
theorem period_logger (made : c.logger agent host endpoint = .ok l) :
    ∀ ch ∈ l.channels, ch.sink.period ≠ some 0 := by
  obtain ⟨usable, _, rfl⟩ := logger_eq_ok_iff.mp made
  have regular {ms : UInt64} (positive : ms ≠ 0) : some ms.toNat ≠ some 0 := fun zero =>
    positive (UInt64.toNat_inj.mp (Option.some.inj zero))
  simp only [List.mem_append, mem_whenEnabled, List.mem_flatMap]
  rintro ch ((((⟨on, rfl⟩ | ⟨-, rfl⟩) | ⟨on, rfl⟩) | ⟨-, rfl⟩) | ⟨e, -, on, rfl⟩)
  · exact regular (usable.table on).2.2
  · exact nofun
  · exact regular (usable.summary on).2
  · exact nofun
  · exact regular (usable.stream on)

/-- Whatever was done with the logger, its sinks can be started. -/
theorem start_after (made : c.logger agent host endpoint = .ok l) (w : World S) (ops : List Sink.Op)
    (now : Tick) :
    ∀ ch ∈ (Sink.after l w ops).1.channels, (Sink.start true now ch.sink).1 = .ok () := by
  intro ch member
  have periods : Unchanged fun l : Logger (Device S) => l.channels.map fun ch => ch.sink.period :=
    Logger.unchanged_channels id Device.unchanged_period
  have kept := periods.after ops l w
  have there : ch.sink.period ∈ l.channels.map fun ch => ch.sink.period :=
    kept ▸ List.mem_map_of_mem member
  obtain ⟨ch', member', same⟩ := List.mem_map.mp there
  exact Device.start_ok (same ▸ period_logger made ch' member') now

end Logger

theorem samplings_eq {c : Config} (usable : c.Usable) :
    ∃ r, c.samplings = .ok r ∧
      r.entries.map Registry.entry = c.sampling.entries.map fun e => (e.1, e.2.toNat, 0) :=
  Registry.foldlM_getOrCreate usable.sampling c.sampling.sorted nofun

/-- A configuration that passes its check, with an endpoint if it streams, can be used to the
full. Its logger has one channel for each section that is on, in their order. Whatever was done
with that logger, it can be started wherever tasks can run, with every sink of its channels. And
its samplings are there: exactly the names that it lists, each with the rate listed for it, and
nothing counted yet. -/
theorem sufficient_of_check {S : Type} [Storage S] {c : Config} (accepted : c.check = .ok ())
    {endpoint : Option Stream.Endpoint} (given : c.stream.enabled = true → endpoint.isSome = true)
    (agent : Agent) (host : Host) :
    (∃ l : Logger (Device S), c.logger agent host endpoint = .ok l ∧
      l.channels.map Channel.name = c.sinkNames ∧
      ∀ (w : World S) (ops : List Sink.Op) (now : Tick),
        let used := (Sink.after l w ops).1
        (∀ ch ∈ used.channels, (Sink.start true now ch.sink).1 = .ok ()) ∧
          Sink.start true now used =
            (.ok (), { used with channels := used.channels.map (Channel.started now) })) ∧
    ∃ r, c.samplings = .ok r ∧ r.size = c.sampling.size ∧
      ∀ name, (r.get? name).map Registry.entry =
        (c.sampling.entries.lookup name).map fun rate => (name, rate.toNat, 0) := by
  have usable := c.check_eq_ok_iff.mp accepted
  constructor
  · obtain ⟨l, made⟩ : ∃ l : Logger (Device S), c.logger agent host endpoint = .ok l :=
      ⟨_, logger_eq_ok_iff.mpr ⟨usable, given, rfl⟩⟩
    refine ⟨l, made, names_logger made, fun w ops now => ?_⟩
    have ready := start_after made w ops now
    exact ⟨ready, Logger.start_ok ready⟩
  · obtain ⟨r, made, entries⟩ := samplings_eq usable
    refine ⟨r, made, ?_, Registry.get?_entry entries⟩
    have lengths := congrArg List.length entries
    rwa [List.length_map, List.length_map] at lengths

/-- All sections save one, two samplings, and a logger that was stopped before. -/
theorem sufficient_of_check_streaming :
    let c : Config := { standard with
      marker := { MarkerSection.standard with enabled := false }
      stream := { StreamSection.standard with enabled := true }
      sampling := .ofList [("requests", 100), ("frames", 1)] }
    let agent : Agent := ⟨"agent-01", "experiment"⟩
    let host : Host := ⟨"host", "x86_64", "linux", "22.04", "Linux", "+00:00"⟩
    let w : World MemoryStore := .ofStore (MemoryStore.ofFiles [])
    let ops : List Sink.Op := [.start true 0, .stop 5 (Span.ofMillis 100), .tasksOn 5, .callOn 5]
    ∃ (l : Logger (Device MemoryStore)) (r : Registry),
      c.logger agent host (some (.ofReplies [])) = .ok l ∧
        l.channels.map Channel.name = ["rolling-csv", "summary-file", "realtime", "streaming"] ∧
        (Sink.start true 7 (Sink.after l w ops).1).1 = .ok () ∧
        c.samplings = .ok r ∧ r.size = 2 ∧
        (r.get? "requests").map Registry.entry = some ("requests", 100, 0) ∧
        (r.get? "frames").map Registry.entry = some ("frames", 1, 0) ∧
        (r.get? "events").map Registry.entry = none := by
  intro c agent host w ops
  have accepted : c.check = .ok () := by decide +kernel
  have given : c.stream.enabled = true → (some (Stream.Endpoint.ofReplies [])).isSome = true :=
    fun _ => rfl
  obtain ⟨⟨l, built, names, starts⟩, r, made, size, rates⟩ :=
    sufficient_of_check (S := MemoryStore) accepted given agent host
  exact ⟨l, r, built, names, congrArg Prod.fst (starts w ops 7).2, made, size, rates "requests",
    rates "frames", rates "events"⟩

end Config
end Telemetry
