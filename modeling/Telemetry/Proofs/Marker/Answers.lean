import Telemetry.Proofs.Marker.Custody
import Telemetry.Proofs.Sink.FileSinks

/-! What a flush or a stop of a marker file says by succeeding.
A job that finds no text to write has nothing to do and succeeds at once, whether the text
was written before, was lost with a call that was given up, or is with another job that
rests between two attempts. So a success says that nothing waits, and it says that the file
was written only where no call was given up and no other job is under way. -/
namespace Telemetry.Marker.File
open Service (Action Use Keeps Ending Tells)

variable {S : Type}

def Emptied (result : Except Fault Unit) (g : Stage S File) : Prop :=
  result = .ok () → g.state.pending = none

theorem tells_conclude {content : String} {p : Progress Pause × Stage S File}
    (nothing : p.2.state.pending = none) : Tells Emptied (conclude content p) := by
  obtain ⟨progress, g⟩ := p
  cases progress with
  | waiting pause => trivial
  | finished result =>
    cases result with
    | ok _ => exact fun _ => nothing
    | error fault => exact nofun

variable [Storage S]

theorem tells_begin (now : Tick) (g : Stage S File) : Tells Emptied (Work.begin now g) := by
  cases waiting : g.state.pending with
  | none =>
    rw [begin_nothing now waiting]
    exact fun _ => waiting
  | some content =>
    simp only [Work.begin, begin, waiting]
    apply tells_conclude
    rw [firstAttempts, attempts_state]

theorem tells_resume (now : Tick) (job : Writing) {g : Stage S File}
    (nothing : g.state.pending = none) : Tells Emptied (Work.resume now job g) := by
  apply tells_conclude
  rw [furtherAttempts, attempts_state]
  exact nothing

variable [LawfulStorage S] {settings : Settings} {agent : Agent} {host : Host} {text : String}
open LawfulStorage (content?)

/-- Jobs that succeed say so too while the text is held. -/
theorem keeps_held_emptied (text : String) :
    Keeps (S := S) (Held settings agent host text) (Idle settings agent host true)
      (fun result g => NoTimeout result g ∧ Emptied result g) := by
  apply (keeps_held text).tells
  · intro g _ now _
    exact tells_begin now g
  · intro g job _ now held
    cases held with
    | underWay notice pause state => exact tells_resume now _ (congrArg File.pending state)

def Written (text : String) (u : Use S File Writing) : Prop :=
  0 < u.state.writes ∧ content? u.world.store u.state.settings.path = some text

theorem Held.written_iff {u : Use S File Writing}
    (held : Held settings agent host text u.stage u.jobs) (nothing : u.state.pending = none) :
    Written text u ↔ u.jobs = [] := by
  generalize under : u.jobs = jobs at held ⊢
  cases held with
  | waiting notice state =>
    have waiting : u.state.pending = some text := congrArg File.pending state
    rw [waiting] at nothing
    cases nothing
  | underWay notice pause state =>
    have unwritten : u.state.writes = 0 := congrArg File.writes state
    constructor
    · rintro ⟨written, _⟩
      omega
    · exact nofun
  | written notice state there =>
    have written : u.state.writes = 1 := congrArg File.writes state
    have path : u.state.settings = settings := congrArg File.settings state
    constructor
    · intro _
      rfl
    · intro _
      refine ⟨?_, ?_⟩
      · omega
      · rw [path]
        exact there

theorem Idle.unwritten {captured : Bool} {u : Use S File Writing}
    (idle : Idle settings agent host captured u.stage u.jobs) : ¬ Written text u := by
  obtain ⟨_, notice, state⟩ := idle
  have unwritten : u.state.writes = 0 := congrArg File.writes state
  rintro ⟨written, _⟩
  omega

/-- Where a call succeeds, the text is written or lost, or a job has it. -/
theorem Placed.succeeded {ended : List Ending} {u : Use S File Writing} {a : Action}
    (live : u.Live) (placed : Placed settings agent host text ended u)
    (succeeded : (u.step a).2 = some (.returned (.ok ()))) :
    Written text (u.step a).1 ↔
      (∀ ending ∈ ended, ending.isAbandoned = false) ∧ (u.step a).1.jobs = [] := by
  have finished : (∀ ending ∈ ended, ending.isAbandoned = false) ↔
      ¬ ended.any Ending.isAbandoned = true := by simp
  rw [finished]
  unfold Placed at placed
  split at placed
  · rename_i abandoned
    obtain ⟨_, idle⟩ | ⟨_, idle⟩ := (keeps_idle true).returned live placed succeeded
    all_goals
      constructor
      · intro written
        exact absurd written idle.unwritten
      · rintro ⟨finished, _⟩
        exact absurd abandoned finished
  · rename_i nothing
    obtain ⟨⟨_, emptied⟩, held⟩ | ⟨⟨timeout, failed⟩, _⟩ :=
      (keeps_held_emptied text).returned live placed succeeded
    · rw [held.written_iff (emptied rfl)]
      exact ⟨fun idle => ⟨nothing, idle⟩, fun both => both.2⟩
    · cases failed

/-- Of a marker file in any use after its first record, over a storage whose requests may
fail: a flush or a stop that succeeds tells that the file was written with what this record
fixed if and only if no call before it ended before its job did and no job is under way
when it returns. -/
theorem succeeded_written_iff (settings : Settings) (agent : Agent) (host : Host) (w : World S)
    (before after : List Action) (r : Record) (a : Action)
    (noRecord : ∀ a ∈ before, ∀ r, a ≠ .log r) :
    let start : Use S File Writing := .ofState (.ofSettings settings agent host) w
    let first := start.run before
    let recorded := (first.step (.log r)).1
    let later := recorded.run after
    (later.step a).2 = some (.returned (.ok ())) →
      (Written (render (snapshot agent host first.world.wall settings.overrides))
          (later.step a).1 ↔
        (∀ ending ∈ recorded.seen Use.endings after, ending.isAbandoned = false) ∧
          (later.step a).1.jobs = []) := by
  intro start first recorded later succeeded
  obtain ⟨placed, live⟩ := placed_run settings agent host w noRecord r after
  exact placed.succeeded live succeeded

/-- A flush whose first attempt fails tries again after a pause, and its success says that
the file was written. -/
theorem succeeded_after_retry :
    let host : Host := ⟨"host", "x86_64", "linux", "6", "Linux 6", "+00:00"⟩
    let w : World MemoryStore := .ofStore ((MemoryStore.ofFiles []).failNext .write 1)
    let start : Use MemoryStore File Writing :=
      .ofState (.ofSettings .standard ⟨"agent", "experiment"⟩ host) w
    let recorded := (start.step (.log ⟨.named "first", .standard, .message "text"⟩)).1
    let later := recorded.run [.flush 0 (Span.ofMillis 5000)]
    (∀ a ∈ ([] : List Action), ∀ r, a ≠ .log r) ∧
      (later.step (.callOn 1000)).2 = some (.returned (.ok ())) ∧
      Written (render (snapshot ⟨"agent", "experiment"⟩ host w.wall .empty))
        (later.step (.callOn 1000)).1 := by
  intro host w start recorded later
  have noRecord : ∀ a ∈ ([] : List Action), ∀ r, a ≠ .log r := nofun
  have succeeded : (later.step (.callOn 1000)).2 = some (.returned (.ok ())) := by decide +kernel
  have nothing : recorded.seen Use.endings [.flush 0 (Span.ofMillis 5000)] = [] := by
    decide +kernel
  have finished : ∀ ending ∈ recorded.seen Use.endings [.flush 0 (Span.ofMillis 5000)],
      ending.isAbandoned = false := by
    rw [nothing]
    exact nofun
  have jobs : (later.step (.callOn 1000)).1.jobs.length = 0 := by decide +kernel
  refine ⟨noRecord, succeeded, (succeeded_written_iff .standard ⟨"agent", "experiment"⟩ host w []
    [.flush 0 (Span.ofMillis 5000)] _ (.callOn 1000) noRecord succeeded).mpr
      ⟨finished, List.length_eq_zero_iff.mp jobs⟩⟩

/-- A flush that comes while the job of the task rests between two attempts succeeds at
once, and no file is there. -/
theorem succeeds_unwritten :
    let host : Host := ⟨"host", "x86_64", "linux", "6", "Linux 6", "+00:00"⟩
    let start : Use MemoryStore File Writing :=
      .ofState (.ofSettings .standard ⟨"agent", "experiment"⟩ host)
        (.ofStore ((MemoryStore.ofFiles []).failNext .write 1))
    let now := start.run
      [.start true 0, .log ⟨.named "first", .standard, .message "text"⟩, .taskOn 0 0]
    let later := now.step (.flush 0 (Span.ofMillis 100))
    now.state.captured = true ∧ later.2 = some (.returned (.ok ())) ∧
      later.1.state.writes = 0 ∧
      later.1.world.store.content? later.1.state.settings.path = none := by
  decide +kernel

end Telemetry.Marker.File
