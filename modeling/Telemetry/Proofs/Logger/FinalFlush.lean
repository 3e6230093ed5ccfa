import Telemetry.Proofs.Logger.Shutdown
import Telemetry.Proofs.Sink.FileDraining
import Telemetry.Proofs.Sink.FileHoldings
import Telemetry.Proofs.Sink.StopBound
import Telemetry.Proofs.Sink.Sum
import Telemetry.Proofs.Stream.Draining

/-! The last flush of every sink when a logger is shut down.
Tables, summary files and streams hold what they took in until they have written or sent
it. Where no request fails any more and all sends are accepted at once, a shutdown leaves
nothing behind, provided that each pause which a sink still makes after an earlier
failure ends within the second that channels grant beyond the time limit. -/
namespace Telemetry
open LawfulStorage (content?)

/-- Sinks that keep what they take in until they write or send it. -/
abbrev Outlet (S : Type) : Type :=
  Service S Csv.Table Pause ⊕ Service S Summary.File Pause ⊕
    Service S Stream.Queue Stream.Transmission

namespace Outlet

inductive Kind
  | table (settings : Csv.Settings) (machine : String)
  | summary (settings : Summary.Settings)
  | stream (settings : Stream.Settings) (machine : String) (replies : List Stream.Reply)

namespace Kind

variable {S : Type}

def outlet : Kind → Outlet S
  | table settings machine => .inl (.ofState (.ofSettings settings machine))
  | summary settings => .inr (.inl (.ofState (.ofSettings settings)))
  | stream settings machine replies =>
    .inr (.inr (.ofState (.ofSettings settings machine (.ofReplies replies))))

/-- The files in which an outlet keeps what it was given. -/
def Owns : Kind → String → Prop
  | table settings _, path => Csv.Own settings.path path
  | summary settings, path => path = settings.path
  | stream .., _ => False

/-- All that was brought is written or sent: the rows are in the files of the table, the file
of a report holds it, and nothing waits in the queue. -/
def Flushed (before : String → Option String) (records : List (Instant × Record)) :
    Kind → Outlet S → (String → Option String) → Prop
  | table settings machine, _, now =>
    Csv.Arrived settings.path before now (Csv.rowsOf machine records)
  | summary settings, _, now =>
    (Summary.reportOf records).text ≠ "" → now settings.path = some (Summary.reportOf records).text
  | stream .., .inr (.inr s), _ => s.state.bodies = []
  | stream .., _, _ => False

end Kind

/-- An outlet with the tests on the way to it. -/
structure Plan where
  kind : Kind
  routes : List Route
  minSeverity : Option Severity
  reporter : FailureReport

def Plan.channel (S : Type) (p : Plan) : Channel (Outlet S) :=
  ⟨p.kind.outlet, p.routes, p.minSeverity, p.reporter, none⟩

def logger (S : Type) (plans : List Plan) (flushTimeout : Span) : Logger (Outlet S) :=
  ⟨plans.map (Plan.channel S), flushTimeout⟩

def AllFlushed {S : Type} [Storage S] [LawfulStorage S] (plans : List Plan) (w : World S)
    (records : List (Instant × Record)) (s : Session S (Logger (Outlet S))) : Prop :=
  List.Forall₂ (fun p c => p.kind.Flushed (content? w.store) ((p.channel S).admitted records) c.sink
    (content? s.world.store)) plans s.sink.channels

variable {S : Type}

/-- What the task of an outlet waits for comes before a moment: the pause after an attempt
that failed, or nothing where all sends are accepted at once. -/
def Calm (limit : Tick) : Outlet S → Prop
  | .inl s => ∀ pause ∈ s.running, pause.wake < limit
  | .inr (.inl s) => ∀ pause ∈ s.running, pause.wake < limit
  | .inr (.inr s) => s.state.Prompt ∧ ∀ job ∈ s.tasks.filterMap Task.job, job.sending = none

instance (limit : Tick) : (a : Outlet S) → Decidable (a.Calm limit)
  | .inl s => inferInstanceAs (Decidable (∀ pause ∈ s.running, pause.wake < limit))
  | .inr (.inl s) => inferInstanceAs (Decidable (∀ pause ∈ s.running, pause.wake < limit))
  | .inr (.inr s) =>
    inferInstanceAs (Decidable ((∀ reply ∈ s.state.endpoint.replies, reply = ⟨0, true⟩) ∧
      ∀ job ∈ s.tasks.filterMap Task.job, job.sending = none))

variable [Storage S] [LawfulStorage S] {before : String → Option String}
  {records : List (Instant × Record)} {limit : Tick}

theorem Plan.owns_label (p : Plan) (path : String) :
    Custodian.owns (p.channel S).label.2 path ↔ p.kind.Owns path := by
  obtain ⟨kind, _, _, _⟩ := p
  cases kind <;> exact Iff.rfl

theorem Plan.holds_channel (p : Plan) (w : World S) :
    (p.channel S).Holds (content? w.store) [] w := by
  obtain ⟨kind, routes, minSeverity, reporter⟩ := p
  refine ⟨fun _ => ?_, ?_⟩
  · cases kind <;> rfl
  · cases kind with
    | table settings machine =>
      exact ⟨Service.rhythmic_ofState _, Csv.Table.stores_ofSettings settings machine _⟩
    | summary settings =>
      exact ⟨Service.rhythmic_ofState _, Summary.File.reports_ofSettings settings _⟩
    | stream settings machine replies => exact ⟨Service.rhythmic_ofState _, List.Perm.nil⟩

theorem unhindered_of_calm {a : Outlet S} {now : String → Option String}
    (holds : Custodian.Holds before records a now) (free : Resting.Free a) (calm : a.Calm limit) :
    Clearable.Unhindered limit a := by
  rcases a with s | s | s
  · exact ⟨fun f known => (holds.2.kept.sound f known).nonempty,
      fun job member => calm job (Service.mem_awaited.mp member), nofun⟩
  · exact ⟨trivial, fun job member => calm job (Service.mem_awaited.mp member), nofun⟩
  · have line : s.state.turns.Perm (s.jobs.map Stream.Transmission.ticket) := holds.2
    have idle : s.call = none := free
    rw [Service.jobs_of_none idle] at line
    refine ⟨calm.1, Stream.Queue.awaited_line line, fun job member => ?_, nofun⟩
    have under : job.2 ∈ s.tasks.filterMap Task.job := s.awaited_jobs ▸ List.mem_map_of_mem member
    exact calm.2 job.2 under

/-- Where nothing is left to be written or sent, all that was brought is. -/
theorem flushed_of_drained {p : Plan} {c : Channel (Outlet S)} {w : World S}
    (label : c.label = (p.channel S).label) (holds : c.Holds before records w)
    (drained : Clearable.Drained c.sink) :
    p.kind.Flushed before ((p.channel S).admitted records) c.sink (content? w.store) := by
  have admits : c.admits = (p.channel S).admits := congrArg Prod.fst label
  have same : c.admitted records = (p.channel S).admitted records := by
    rw [Channel.admitted, Channel.admitted, admits]
  have terms : Custodian.terms c.sink = Custodian.terms (p.channel S).sink :=
    congrArg Prod.snd label
  have stored := holds.holds
  rw [same] at stored
  obtain ⟨kind, routes, minSeverity, reporter⟩ := p
  obtain ⟨a, _, _, _, _⟩ := c
  cases kind with
  | table settings machine =>
    rcases a with s | s | s
    · have made : (s.state.settings, s.state.machine) = (settings, machine) := Sum.inl.inj terms
      obtain ⟨rfl, rfl⟩ := Prod.mk.inj made
      exact stored.2.arrived drained
    · cases terms
    · cases terms
  | summary settings =>
    rcases a with s | s | s
    · cases terms
    · have made : s.state.settings = settings := Sum.inl.inj (Sum.inr.inj terms)
      intro filled
      have reports := stored.2
      have report := reports.report
      have written := reports.written drained
      rw [report, made] at written
      exact written.resolve_left filled
    · cases terms
  | stream settings machine replies =>
    rcases a with s | s | s
    · cases terms
    · cases terms
    · exact drained

end Outlet

/-- When a channel gives up a call that begins at a moment. -/
def Channel.givenUp (now : Tick) (timeout : Span) : Tick :=
  now + timeout.ticks + Channel.margin

def Session.reached {S α : Type} [Sink S α] (a : α) (w : World S) (ops : List Sink.Op)
    (now : Tick) : Session S α :=
  ⟨(Sink.after a w ops).1, (Sink.after a w ops).2, now⟩

theorem forall₂_of_map_eq {α β γ : Type} {f : α → γ} {g : β → γ} {R : α → β → Prop} {l : List α}
    {m : List β} (same : l.map f = m.map g) (related : ∀ a, ∀ b ∈ m, f a = g b → R a b) :
    List.Forall₂ R l m := by
  have pairs : List.Forall₂ (· = ·) (m.map g) (l.map f) := by
    rw [List.forall₂_eq_eq_eq]
    exact same.symm
  rw [List.forall₂_map_left_iff, List.forall₂_map_right_iff] at pairs
  have members := (List.forall₂_and_left m l).mpr ⟨fun b member => member, pairs⟩
  exact (members.imp fun b a pair => related a b pair.1 pair.2.symm).flip

variable {S : Type} [Storage S] [LawfulStorage S]

omit [LawfulStorage S] in
/-- No call is under way, no request fails any more, and whatever tasks wait for comes before
a stop that begins now is given up. -/
structure Undisturbed (s : Session S (Logger (Outlet S))) : Prop where
  idle : s.sink.isIdle = true
  neverFails : Storage.NeverFails s.world.store
  calm : ∀ c ∈ s.sink.channels, c.sink.Calm (Channel.givenUp s.now s.sink.flushTimeout)

/-- A shutdown returns, and everything that was brought before is written or sent then. -/
structure FinalFlush (plans : List Outlet.Plan) (w : World S) (records : List (Instant × Record))
    (s : Session S (Logger (Outlet S))) : Prop where
  returns : (s.stop s.sink.flushTimeout).1 = some (.ok ())
  flushed : Outlet.AllFlushed plans w records s.shutdown

/-- Whatever was done with a logger of tables, summary files and streams, each with files of
its own, and whatever failed: if from now on no request fails and all sends are accepted at
once, and no pause of a sink lasts until its channel gives the stop up, then a shutdown
returns, and everything that was brought before is written or sent. -/
theorem shutdown_flushes (plans : List Outlet.Plan) (flushTimeout : Span) (w : World S)
    (ops : List Sink.Op) (now : Tick)
    (apart : plans.Pairwise fun p q => ∀ path, p.kind.Owns path → ¬ q.kind.Owns path) :
    let start := Outlet.logger S plans flushTimeout
    let s := Session.reached start w ops now
    Undisturbed s → FinalFlush plans w (Sink.history start w ops) s := by
  intro start s ⟨idle, ⟨P, reliable, works⟩, calm⟩
  let labels := start.channels.map Channel.label
  have apart : Logger.Apart labels := by
    simpa only [labels, start, Outlet.logger, Logger.Apart, List.pairwise_map,
      Outlet.Plan.owns_label] using apart
  have fresh : start.Holds (content? w.store) labels [] w := by
    refine ⟨rfl, fun c member => ?_⟩
    obtain ⟨p, _, rfl⟩ := List.mem_map.mp member
    exact p.holds_channel w
  have holds := Sink.after_keeps
    (I := fun h (l : Logger (Outlet S)) w' => l.Holds (content? w.store) labels h w')
    (fun h l w' op holds => holds.op op apart) ops fresh
  rw [List.nil_append] at holds
  obtain ⟨t, l', w', whole, _, _, holds', drained⟩ := Logger.stop_unhindered reliable
    s.sink.flushTimeout apart idle works
    (fun c member => Outlet.unhindered_of_calm (holds.holds c member).holds
      ((holds.holds c member).free (Logger.call_of_idle idle c member)) (calm c member)) holds
  have stopped : s.stop s.sink.flushTimeout = (some (.ok ()), ⟨l', w', t⟩) := whole
  have shut : s.shutdown = ⟨l', w', t⟩ := congrArg Prod.snd stopped
  have same : plans.map (fun p => (p.channel S).label) = l'.channels.map Channel.label := by
    rw [holds'.labels_same]
    show _ = (plans.map (Outlet.Plan.channel S)).map Channel.label
    rw [List.map_map]
    rfl
  refine ⟨congrArg Prod.fst stopped, ?_⟩
  rw [shut]
  refine forall₂_of_map_eq same fun p c member label => ?_
  exact Outlet.flushed_of_drained label.symm (holds'.holds c member) (drained c member)

theorem own_foreign : ¬ Csv.Own "logs/m.csv" "out/summary.txt" := by
  obtain ⟨named, other, stem⟩ : Path.fileName? "logs/m.csv" = some "m.csv" ∧
      Path.fileName? "out/summary.txt" = some "summary.txt" ∧
      (Csv.Rotation.ofPath "logs/m.csv").stem = "m" := by
    decide +kernel
  rintro (same | ⟨n, same⟩)
  · exact absurd same (by decide)
  · have names := Csv.Rotation.fileName?_path named n
    rw [← same, other, Option.some.injEq] at names
    have first := congrArg (fun name => name.toList.head?) names
    unfold Csv.Rotation.name at first
    split at first <;> simp [stem] at first

/-- A table and a summary file whose first attempts fail, and a stream. -/
theorem shutdown_flushes_after_failures :
    let record : Record := ⟨.ofCategory .error "Failed", .error, .event (.ofActivity .nil)⟩
    let table : Csv.Settings :=
      { Csv.Settings.standard with path := "logs/m.csv", retry := ⟨5, Span.ofMillis 1000⟩ }
    let summary : Summary.Settings := { Summary.Settings.standard with directory := "out" }
    let plans : List Outlet.Plan :=
      [⟨.table table "host", [], none, .standard⟩, ⟨.summary summary, [], none, .standard⟩,
        ⟨.stream .standard "host" [], [], none, .standard⟩]
    let w : World MemoryStore :=
      (.ofStore (((MemoryStore.ofFiles []).failNext .append 1).failNext .write 1))
    let ops : List Sink.Op := [.log record, .start true 0, .tasksOn 0]
    let start := Outlet.logger MemoryStore plans Logger.standardTimeout
    let s := Session.reached start w ops 10
    Undisturbed s ∧ FinalFlush plans w (Sink.history start w ops) s := by
  intro record table summary plans w ops start s
  obtain ⟨idle, calm, clear⟩ : s.sink.isIdle = true ∧
      (∀ c ∈ s.sink.channels, c.sink.Calm (Channel.givenUp s.now s.sink.flushTimeout)) ∧
      s.world.store.Clear := by
    decide +kernel
  have undisturbed : Undisturbed s := ⟨idle, MemoryStore.neverFails clear, calm⟩
  have place : summary.path = "out/summary.txt" := by decide +kernel
  have apart : plans.Pairwise fun p q => ∀ path, p.kind.Owns path → ¬ q.kind.Owns path := by
    simp only [plans, List.pairwise_cons, List.forall_mem_cons, Outlet.Kind.Owns, place]
    exact ⟨⟨fun _ own same => own_foreign (same ▸ own), fun _ _ => id, nofun⟩,
      ⟨fun _ _ => id, nofun⟩, nofun, .nil⟩
  exact ⟨undisturbed, shutdown_flushes plans Logger.standardTimeout w ops 10 apart undisturbed⟩

/-- A table that pauses for an hour after its first attempt has failed. The stop waits for that
pause until the channel gives it up, so there is no last flush: no request fails any more, and
the row is in no file when the shutdown returns. -/
theorem shutdown_leaves_row :
    let record : Record := ⟨.ofCategory .metric "Measure", .standard, .event (.ofActivity .nil)⟩
    let table : Csv.Settings :=
      { Csv.Settings.standard with path := "logs/m.csv", retry := ⟨5, Span.ofMillis 3600000⟩ }
    let plan : Outlet.Plan := ⟨.table table "host", [], none, .standard⟩
    let w : World MemoryStore := .ofStore ((MemoryStore.ofFiles []).failNext .append 1)
    let ops : List Sink.Op := [.log record, .start true 0, .tasksOn 0]
    let start := Outlet.logger MemoryStore [plan] (Span.ofMillis 100)
    let s := Session.reached start w ops 10
    s.sink.isIdle = true ∧ Storage.NeverFails s.world.store ∧
      ¬ Outlet.AllFlushed [plan] w (Sink.history start w ops) s.shutdown := by
  intro record table plan w ops start s
  obtain ⟨idle, clear, files, rows⟩ : s.sink.isIdle = true ∧ s.world.store.Clear ∧
      s.shutdown.world.store.files = [] ∧
      Csv.rowsOf "host" ((plan.channel MemoryStore).admitted (Sink.history start w ops)) ≠ [] := by
    decide +kernel
  refine ⟨idle, MemoryStore.neverFails clear, fun flushed => ?_⟩
  obtain ⟨_, _, arrived, _, _⟩ := List.forall₂_cons_left_iff.mp flushed
  obtain ⟨row, member⟩ := List.exists_mem_of_ne_nil _ rows
  obtain ⟨file, text, _, _, _, there, _⟩ := arrived.stands row member
  have missing (store : MemoryStore) (empty : store.files = []) : content? store file = none := by
    show store.content? file = none
    simp [MemoryStore.content?, empty]
  rw [missing _ files] at there
  cases there

end Telemetry
