import Telemetry.Proofs.Marker.Custody
import Telemetry.Proofs.Property.Inserting
import Telemetry.Proofs.Sink.Pauses
import Telemetry.Proofs.Storage.Watched

/-! A marker file is written once, and with the text of the first record.
The text is in one place at most: it waits, a job has it, or it was written. Only a job
that has it asks for a writing, and the one that succeeds has no text to give back. Before
the first record there is no text, and nothing is asked of the storage. -/
namespace Telemetry.Marker
open Service (Action Use Keeps Continues)

/-- What is found out at a moment, in the order of the file. -/
def detected (agent : Agent) (host : Host) (now : Instant) : Properties :=
  ⟨[("clientId", .text agent.id),
    ("experimentId", .text agent.experiment),
    ("machineName", .text host.machineName),
    ("platformArchitecture", .text host.architecture),
    ("operatingSystemVersion", .text host.osVersion),
    ("operatingSystemDescription", .text host.osDescription),
    ("timestamp", .text (now.text 3)),
    ("timezone", .text host.timezone)]⟩

theorem distinct_detected (agent : Agent) (host : Host) (now : Instant) :
    (detected agent host now).Distinct := by
  show (["clientId", "experimentId", "machineName", "platformArchitecture",
    "operatingSystemVersion", "operatingSystemDescription", "timestamp",
    "timezone"].map Text.fold).Nodup
  decide +kernel

theorem snapshot_entries (agent : Agent) (host : Host) (now : Instant) {overrides : Properties}
    (apart : overrides.Distinct) :
    (snapshot agent host now overrides).entries =
      ((detected agent host now).entries.map fun e => (e.1, (overrides.get? e.1).getD e.2)) ++
        overrides.entries.filter fun e => !(detected agent host now).contains e.1 := by
  have taken : snapshot agent host now overrides =
      (Properties.ofList (detected agent host now).entries).insertAll overrides.entries := rfl
  rw [taken, (distinct_detected agent host now).ofList_entries]
  exact (distinct_detected agent host now).insertAll_entries apart

namespace File

variable {S : Type} [Storage S]

/-- All that was asked of a storage is to write a text to a path, and it succeeded so often. -/
def Asked (path text : String) (succeeded : Nat) (w : Watched S) : Prop :=
  (∀ write ∈ w.writes, write.path = path ∧ write.text = text) ∧
    w.writes.countP (·.succeeded) = succeeded

/-- A request to write that succeeds is one more, and one that fails is none. -/
theorem Asked.writeFile {path text : String} {n : Nat} {w : Watched S}
    (asked : Asked path text n w) :
    (∀ fault, (writeFile path text w).1 = .error fault →
      Asked path text n (writeFile path text w).2) ∧
    ((writeFile path text w).1 = .ok () → Asked path text (n + 1) (writeFile path text w).2) := by
  obtain ⟨alike, count⟩ := asked
  simp only [File.writeFile]
  generalize made : (if (Path.parent? path).getD "" = "" then ((.ok () : Except Fault Unit), w)
    else Storage.createDirAll ((Path.parent? path).getD "") w) = p
  obtain ⟨result, w'⟩ := p
  have same := Watched.of_made made
  cases result with
  | error fault =>
    constructor
    · intro _ _
      rw [Asked, same]
      exact ⟨alike, count⟩
    · exact nofun
  | ok _ =>
    rw [← same] at alike count
    simp only [Asked, Watched.writes_write, List.forall_mem_cons, List.countP_cons, true_and]
    constructor
    · intro fault failed
      rw [failed]
      exact ⟨alike, count⟩
    · intro succeeded
      rw [succeeded]
      exact ⟨alike, congrArg (· + 1) count⟩

/-- The text is in one place at most, and the storage was asked for nothing else. -/
structure Single (settings : Settings) (text : String) (m : File) (w : Watched S)
    (jobs : List Writing) : Prop where
  settings_same : m.settings = settings
  captured : m.captured = true
  waiting : ∀ content ∈ m.pending, content = text
  carried : ∀ job ∈ jobs, job.content = text
  places : m.pending.toList.length + jobs.length + m.writes ≤ 1
  asked : Asked settings.path text m.writes w

variable {settings : Settings} {text : String}

/-- Attempts in a row ask for nothing but to write their text, and one more time with success
where they succeed. -/
theorem attempts_asked {g : Stage (Watched S) File} (policy : RetryPolicy) (now : Tick)
    (left retries : Nat) {n : Nat} (asked : Asked g.state.settings.path text n g.world.store) :
    AfterAttempts
      (fun g' => g'.state = g.state ∧ Asked g.state.settings.path text n g'.world.store)
      (fun g' => g'.state = g.state ∧ Asked g.state.settings.path text (n + 1) g'.world.store)
      (attempts policy now (attempt text) left retries g) := by
  apply attempts_after
  · rintro g' fault failed ⟨same, asked⟩
    rw [← same] at asked ⊢
    exact ⟨rfl, asked.writeFile.1 fault failed⟩
  · rintro g' succeeded ⟨same, asked⟩
    rw [← same] at asked ⊢
    exact ⟨rfl, asked.writeFile.2 succeeded⟩
  · exact ⟨rfl, asked⟩

theorem Single.conclude {g : Stage (Watched S) File} {jobs : List Writing} (policy : RetryPolicy)
    (now : Tick) (left retries : Nat)
    (single : Single settings text g.state g.world.store jobs)
    (nothing : g.state.pending = none) (room : jobs.length + g.state.writes = 0) :
    Continues (fun g jobs => Single settings text g.state g.world.store jobs) (fun _ _ => True)
      jobs (conclude text (attempts policy now (attempt text) left retries g)) := by
  obtain ⟨rfl, captured, waiting, carried, places, asked⟩ := single
  have outcome := attempts_asked policy now left retries asked
  rw [nothing, Option.toList_none, List.length_nil] at places
  rw [nothing] at waiting
  generalize attempts policy now (attempt text) left retries g = ended at outcome ⊢
  obtain ⟨progress, g'⟩ := ended
  cases progress with
  | waiting pause =>
    obtain ⟨unchanged, asked⟩ := outcome
    show Single _ text g'.state g'.world.store (⟨text, pause⟩ :: jobs)
    rw [unchanged]
    refine ⟨rfl, captured, ?_, List.forall_mem_cons.mpr ⟨rfl, carried⟩, ?_, asked⟩
    · rwa [nothing]
    · rw [nothing, Option.toList_none, List.length_nil, List.length_cons]
      omega
  | finished result =>
    cases result with
    | ok _ =>
      obtain ⟨unchanged, asked⟩ := outcome
      refine ⟨trivial, ?_⟩
      show Single _ text { g'.state with writes := g'.state.writes + 1 } g'.world.store jobs
      rw [unchanged]
      refine ⟨rfl, captured, ?_, carried, ?_, asked⟩
      · rwa [nothing]
      · rw [nothing, Option.toList_none, List.length_nil]
        show 0 + jobs.length + (g.state.writes + 1) ≤ 1
        omega
    | error fault =>
      obtain ⟨unchanged, asked⟩ := outcome
      refine ⟨trivial, ?_⟩
      show Single _ text { g'.state with pending := some (g'.state.pending.getD text) }
        g'.world.store jobs
      rw [unchanged, nothing]
      refine ⟨rfl, captured, ?_, carried, ?_, asked⟩
      · rintro content ⟨⟩
        rfl
      · show 1 + jobs.length + g.state.writes ≤ 1
        omega

omit [Storage S] in
theorem Single.weaken {m : File} {w : Watched S} {job : Writing} {jobs : List Writing}
    (single : Single settings text m w (job :: jobs)) : Single settings text m w jobs := by
  obtain ⟨same, captured, waiting, carried, places, asked⟩ := single
  rw [List.length_cons] at places
  exact ⟨same, captured, waiting, (List.forall_mem_cons.mp carried).2, by omega, asked⟩

theorem keeps_single (settings : Settings) (text : String) :
    Keeps (S := Watched S) (fun g jobs => Single settings text g.state g.world.store jobs)
      (fun g jobs => Single settings text g.state g.world.store jobs) (fun _ _ => True) where
  perm same single :=
    { single with
      carried := fun job member => single.carried job (same.mem_iff.mpr member)
      places := by
        rw [← same.length_eq]
        exact single.places }
  surroundings state store single := by rwa [state, store]
  notice single := ⟨single.1, single.2, single.3, single.4, single.5, single.6⟩
  begin {g jobs} now single := by
    have places := single.places
    cases waiting : g.state.pending with
    | none =>
      rw [begin_nothing now waiting]
      exact ⟨trivial, single⟩
    | some content =>
      obtain rfl := single.waiting content waiting
      rw [waiting, Option.toList_some, List.length_singleton] at places
      simp only [Work.begin, begin, waiting, firstAttempts]
      apply Single.conclude
      · refine ⟨single.1, single.2, ?_, single.4, ?_, single.6⟩
        · rintro _ ⟨⟩
        · show 0 + jobs.length + g.state.writes ≤ 1
          omega
      · rfl
      · show jobs.length + g.state.writes = 0
        omega
  resume {g job jobs} now single _ := by
    have places := single.places
    rw [List.length_cons] at places
    have nothing : g.state.pending = none := by
      cases waiting : g.state.pending with
      | none => rfl
      | some content =>
        rw [waiting, Option.toList_some, List.length_singleton] at places
        omega
    obtain rfl := single.carried job List.mem_cons_self
    exact single.weaken.conclude _ now _ _ nothing (by omega)
  abandon single := single.weaken

theorem keeps_untouched (settings : Settings) (agent : Agent) (host : Host) (store : S) :
    Keeps (fun g jobs => Idle settings agent host false g jobs ∧ g.world.store = store)
      (fun g jobs => Idle settings agent host false g jobs ∧ g.world.store = store)
      (fun _ _ => True) where
  perm same idle := ⟨(keeps_idle false).perm same idle.1, idle.2⟩
  surroundings state store idle :=
    ⟨(keeps_idle false).surroundings state store idle.1, store.trans idle.2⟩
  notice idle := ⟨(keeps_idle false).notice idle.1, idle.2⟩
  begin {g _} now idle := by
    obtain ⟨_, notice, state⟩ := idle.1
    rw [begin_nothing now (congrArg File.pending state)]
    exact ⟨trivial, idle⟩
  resume _ idle _ := by cases idle.1.1
  abandon idle := by cases idle.1.1

theorem Idle.single {agent : Agent} {host : Host} {u : Use (Watched S) File Writing} {store : S}
    (idle : Idle settings agent host false u.stage u.jobs)
    (untouched : u.world.store = .ofStore store) (r : Record) :
    Single settings (render (snapshot agent host u.world.wall settings.overrides))
      (u.step (.log r)).1.stage.state (u.step (.log r)).1.stage.world.store
      (u.step (.log r)).1.jobs := by
  obtain ⟨notice, fixed, nothing⟩ := idle.record r
  have store : (u.step (.log r)).1.stage.world.store = .ofStore store := untouched
  rw [fixed, nothing, store]
  refine ⟨rfl, rfl, ?_, nofun, Nat.le_refl 1, nofun, rfl⟩
  rintro content ⟨⟩
  rfl

theorem Single.accept {g : Stage (Watched S) File} {jobs : List Writing} (r : Record)
    (single : Single settings text g.state g.world.store jobs) :
    Single settings text (Work.accept r g).state (Work.accept r g).world.store jobs := by
  have same : Work.accept r g = { g with state := g.state } := by
    simp only [Work.accept, capture_again single.captured]
  rw [same]
  exact single

end File

open File in
/-- A marker file in any use, over a storage whose requests may fail. Before the first record
nothing is asked of the storage. From then on one request to write succeeds at most, the
writings are counted as they succeed, and every request brings the text that the first
record fixed: what was found out at that moment, in its order and with what is given instead
in its place, and all else that is given behind it. -/
theorem written_once {S : Type} [Storage S] (settings : Settings) (agent : Agent) (host : Host)
    (w : World S) (before after : List Action) (r : Record)
    (noRecord : ∀ a ∈ before, ∀ r, a ≠ .log r) (apart : settings.overrides.Distinct) :
    let start : Use (Watched S) File Writing := .ofState (.ofSettings settings agent host)
      ⟨.ofStore w.store, w.wall, w.steady, w.lines, w.picks⟩
    let first := start.run before
    let later := (first.step (.log r)).1.run after
    let found := detected agent host first.world.wall
    let told := snapshot agent host first.world.wall settings.overrides
    (first.world.store = .ofStore w.store ∧ first.state.writes = 0) ∧
      (later.world.store.writes.countP (·.succeeded) = later.state.writes ∧
        later.state.writes ≤ 1) ∧
      (∀ write ∈ later.world.store.writes,
        write.path = settings.path ∧ write.text = render told) ∧
      told.entries =
        (found.entries.map fun e => (e.1, (settings.overrides.get? e.1).getD e.2)) ++
          settings.overrides.entries.filter fun e => !found.contains e.1 := by
  intro start first later found told
  obtain ⟨⟨idle, untouched⟩, live⟩ := Use.run_without_records
    (keeps_untouched settings agent host (.ofStore w.store))
    noRecord (Use.live_ofState _ _) (u := start) ⟨⟨rfl, false, rfl⟩, rfl⟩
  have unwritten : first.state.writes = 0 := by
    obtain ⟨_, notice, state⟩ := idle
    exact congrArg File.writes state
  have single : Single settings (render told) later.state later.world.store later.jobs :=
    (Use.run_with_records (keeps_single settings (render told))
      (fun _ _ r single => single.accept r) after (first.live_step _ live)
      (idle.single untouched r)).1
  obtain ⟨alike, count⟩ := single.asked
  have places := single.places
  refine ⟨⟨untouched, unwritten⟩, ⟨count, ?_⟩, alike, ?_⟩
  · omega
  · exact snapshot_entries agent host first.world.wall apart

open File in
/-- A second record and a second start find the file written. What was given for the name of
the machine stands in its place, and the region behind all else. -/
theorem written_once_with_overrides :
    let settings : Settings := ⟨"logs", "metadata.log",
      ⟨[("MachineName", .text "renamed"), ("region", .text "west")]⟩, .standard⟩
    let agent : Agent := ⟨"agent", "experiment"⟩
    let host : Host := ⟨"host", "x86_64", "linux", "6", "Linux 6", "+00:00"⟩
    let w : World MemoryStore := .ofStore (.ofFiles [])
    let start : Use (Watched MemoryStore) File Writing := .ofState (.ofSettings settings agent host)
      ⟨.ofStore w.store, w.wall, w.steady, w.lines, w.picks⟩
    let before : List Action := [.start true 0, .clocks ⟨5, 0⟩ 5000]
    let first := start.run before
    let later := (first.step (.log ⟨.named "first", .standard, .message "text"⟩)).1.run
      [.taskOn 0 5000, .log ⟨.named "second", .standard, .message "text"⟩,
        .stop 6000 (Span.ofMillis 5000), .start true 7000, .taskOn 0 7000]
    (∀ a ∈ before, ∀ r, a ≠ .log r) ∧ settings.overrides.Distinct ∧
      later.state.writes = 1 ∧ later.world.store.writes.countP (·.succeeded) = 1 ∧
      ∀ write ∈ later.world.store.writes, write.text = render
        ⟨[("clientId", .text "agent"), ("experimentId", .text "experiment"),
          ("machineName", .text "renamed"), ("platformArchitecture", .text "x86_64"),
          ("operatingSystemVersion", .text "6"),
          ("operatingSystemDescription", .text "Linux 6"),
          ("timestamp", .text "1970-01-01T00:00:05.000Z"), ("timezone", .text "+00:00"),
          ("region", .text "west")]⟩ := by
  intro settings agent host w start before first later
  have noRecord : ∀ a ∈ before, ∀ r, a ≠ .log r := by simp [before]
  have apart : settings.overrides.Distinct := by
    show (["MachineName", "region"].map Text.fold).Nodup
    decide +kernel
  have writes : later.state.writes = 1 := by decide +kernel
  obtain ⟨_, ⟨count, _⟩, alike, _⟩ := written_once settings agent host w before
    [.taskOn 0 5000, .log ⟨.named "second", .standard, .message "text"⟩,
      .stop 6000 (Span.ofMillis 5000), .start true 7000, .taskOn 0 7000]
    ⟨.named "first", .standard, .message "text"⟩ noRecord apart
  -- Written out, the two runs agree as terms and need not be computed to be compared.
  dsimp only [later, first, start] at writes ⊢
  refine ⟨noRecord, apart, writes, count.trans writes, ?_⟩
  intro write member
  refine (alike write member).2.trans ?_
  decide +kernel

end Telemetry.Marker
