import Telemetry.Marker.Sink
import Telemetry.Proofs.Sink.Keeping
import Telemetry.Proofs.Storage.Lawful

/-! Where the text of a marker file is, from the first record on.
It waits, or a job has taken it along, or it is written. A job that fails puts it
back, but a job that is given up leaves it nowhere, and no later record fixes it
again. So it is lost exactly where a call ended before its job. -/
namespace Telemetry.Marker
open Service (Action Use Keeps Continues Ending continues_attempts record_or_not)

variable {S : Type} [Storage S] [LawfulStorage S]
open LawfulStorage (content?)

namespace File

theorem writeFile_spec (path content : String) (store : S) :
    ((writeFile path content store).1 = .ok () →
      content? (writeFile path content store).2 path = some content) ∧
    ∀ fault, (writeFile path content store).1 = .error fault → ∃ problem, fault = .io problem := by
  unfold writeFile
  simp only
  split
  · rename_i made
    refine ⟨fun done => (by cases done), fun fault failed => ?_⟩
    exact (LawfulStorage.of_made made).2 fault failed
  · refine ⟨fun done => ?_, fun fault failed => LawfulStorage.write_io failed⟩
    rw [LawfulStorage.write_ok done, Function.update_self]

variable (settings : Settings) (agent : Agent) (host : Host)

def Idle (captured : Bool) (g : Stage S File) (jobs : List Writing) : Prop :=
  jobs = [] ∧ ∃ notice, g.state = ⟨settings, agent, host, captured, none, 0, notice⟩

/-- Where the text is: it waits, a job has it, or it is written. -/
inductive Held (text : String) (g : Stage S File) : List Writing → Prop
  | waiting (notice : Bool)
    (state : g.state = ⟨settings, agent, host, true, some text, 0, notice⟩) : Held text g []
  | underWay (notice : Bool) (pause : Pause)
    (state : g.state = ⟨settings, agent, host, true, none, 0, notice⟩) :
    Held text g [⟨text, pause⟩]
  | written (notice : Bool)
    (state : g.state = ⟨settings, agent, host, true, none, 1, notice⟩)
    (there : content? g.world.store settings.path = some text) : Held text g []

/-- Results of jobs are no timeouts, by which calls that ended before can be told. -/
def NoTimeout (result : Except Fault Unit) (_ : Stage S File) : Prop :=
  ∀ timeout, result ≠ .error (.timeout timeout)

variable {settings agent host}

omit [LawfulStorage S] in
theorem begin_nothing (now : Tick) {g : Stage S File} (nothing : g.state.pending = none) :
    Work.begin now g = ((.finished (.ok ()), g) : Progress Writing × Stage S File) := by
  simp only [Work.begin, begin, nothing]

omit [LawfulStorage S] in
theorem keeps_idle (captured : Bool) :
    Keeps (S := S) (Idle settings agent host captured) (Idle settings agent host captured)
      NoTimeout where
  perm same idle := by
    obtain ⟨rfl, state⟩ := idle
    exact ⟨same.nil_eq.symm, state⟩
  surroundings state _ idle := by
    obtain ⟨nothing, notice, same⟩ := idle
    exact ⟨nothing, notice, state.trans same⟩
  notice idle := by
    obtain ⟨nothing, notice, same⟩ := idle
    exact ⟨nothing, false, by simp only [Duty.takeNotice, same]⟩
  begin {g _} now idle := by
    obtain ⟨nothing, notice, same⟩ := idle
    rw [begin_nothing now (by rw [same])]
    exact ⟨fun _ failed => (by cases failed), nothing, notice, same⟩
  resume _ idle _ := by cases idle.1
  abandon idle := by cases idle.1

/-- An attempt of a job writes the text or changes nothing that the sink knows. -/
theorem attempt_spec {text : String} {m : File} (g : Stage S File) (state : g.state = m) :
    (((attempt text g).1 = .ok () →
        content? (attempt text g).2.world.store m.settings.path = some text) ∧
      NoTimeout (attempt text g).1 (attempt text g).2) ∧ (attempt text g).2.state = m := by
  obtain ⟨done, io⟩ := writeFile_spec m.settings.path text g.world.store
  rw [← state] at done io
  refine ⟨⟨?_, fun timeout failed => ?_⟩, state⟩
  · rw [← state]
    exact done
  · obtain ⟨problem, same⟩ := io _ failed
    cases same

/-- A job that has the text with it writes it, puts it back or goes on with it. -/
theorem conclude_held {text : String} {notice : Bool} {g : Stage S File} (now : Tick)
    (left retries : Nat) (state : g.state = ⟨settings, agent, host, true, none, 0, notice⟩) :
    Continues (Held settings agent host text) NoTimeout []
      (conclude text (attempts settings.retry now (attempt text) left retries g)) := by
  have tried : Continues (fun g _ => g.state = ⟨settings, agent, host, true, none, 0, notice⟩)
      (fun result g => (result = .ok () → content? g.world.store settings.path = some text) ∧
        NoTimeout result g) [] (attempts settings.retry now (attempt text) left retries g) :=
    continues_attempts _ now attempt_spec (fun _ _ state => state) left retries state
  generalize attempts settings.retry now (attempt text) left retries g = ended at tried ⊢
  obtain ⟨progress, after⟩ := ended
  cases progress with
  | waiting pause => exact .underWay notice pause tried
  | finished result =>
    obtain ⟨⟨there, noTimeout⟩, same⟩ := tried
    cases result with
    | ok _ =>
      refine ⟨fun _ failed => (by cases failed), .written notice ?_ (there rfl)⟩
      show { after.state with writes := after.state.writes + 1 } = _
      rw [same]
    | error fault =>
      refine ⟨noTimeout, .waiting notice ?_⟩
      show { after.state with pending := some (after.state.pending.getD text) } = _
      rw [same]
      rfl

theorem keeps_held (text : String) :
    Keeps (S := S) (Held settings agent host text) (Idle settings agent host true) NoTimeout where
  perm same held := by
    cases held with
    | waiting notice state =>
      cases same.nil_eq
      exact .waiting notice state
    | underWay notice pause state =>
      cases List.perm_singleton.mp same.symm
      exact .underWay notice pause state
    | written notice state there =>
      cases same.nil_eq
      exact .written notice state there
  surroundings state store held := by
    cases held with
    | waiting notice same => exact .waiting notice (state.trans same)
    | underWay notice pause same => exact .underWay notice pause (state.trans same)
    | written notice same there => exact .written notice (state.trans same) (by rwa [store])
  notice held := by
    cases held with
    | waiting notice same => exact .waiting false (by simp only [Duty.takeNotice, same])
    | underWay notice pause same =>
      exact .underWay false pause (by simp only [Duty.takeNotice, same])
    | written notice same there => exact .written false (by simp only [Duty.takeNotice, same]) there
  begin {g _} now held := by
    cases held with
    | waiting notice state =>
      have taken : Work.begin now g = conclude text (attempts settings.retry now (attempt text)
          settings.retry.maxRetries 0 { g with state := { g.state with pending := none } }) := by
        simp only [Work.begin, begin, firstAttempts, state]
      rw [taken]
      exact conclude_held now _ _ (by rw [state])
    | underWay notice pause state =>
      rw [begin_nothing now (by rw [state])]
      exact ⟨fun _ failed => (by cases failed), .underWay notice pause state⟩
    | written notice state there =>
      rw [begin_nothing now (by rw [state])]
      exact ⟨fun _ failed => (by cases failed), .written notice state there⟩
  resume {g job jobs} now held _ := by
    cases held with
    | underWay notice pause state =>
      simp only [Work.resume, furtherAttempts, state]
      exact conclude_held now _ _ state
  abandon held := by
    cases held with
    | underWay notice pause state => exact ⟨rfl, notice, state⟩

/-- What became of the text, after calls have ended as listed. -/
def Placed (settings : Settings) (agent : Agent) (host : Host) (text : String)
    (ended : List Ending) (u : Use S File Writing) : Prop :=
  if ended.any Ending.isAbandoned then Idle settings agent host true u.stage u.jobs
  else Held settings agent host text u.stage u.jobs

omit [LawfulStorage S] in
theorem capture_again {m : File} (captured : m.captured = true) (now : Instant) :
    m.capture now = m := by
  rw [capture, if_pos captured]

omit [LawfulStorage S] in
theorem stage_log_again {u : Use S File Writing} (captured : u.state.captured = true) (r : Record) :
    (u.step (.log r)).1.stage = u.stage := by
  rw [Use.stage_log]
  simp only [Work.accept, Use.stage_state, capture_again captured]
  rfl

theorem Placed.captured {text : String} {ended : List Ending} {u : Use S File Writing}
    (placed : Placed settings agent host text ended u) : u.state.captured = true := by
  unfold Placed at placed
  split at placed
  · obtain ⟨_, notice, same⟩ := placed
    exact congrArg File.captured same
  · generalize u.jobs = jobs at placed
    cases placed with
    | waiting notice same => exact congrArg File.captured same
    | underWay notice pause same => exact congrArg File.captured same
    | written notice same there => exact congrArg File.captured same

theorem Placed.step {text : String} {ended : List Ending} {u : Use S File Writing} (a : Action)
    (live : u.Live) (placed : Placed settings agent host text ended u) :
    Placed settings agent host text (ended ++ Use.endings u a) (u.step a).1 := by
  obtain ⟨r, rfl⟩ | noRecord := record_or_not a
  · rw [Use.endings, Use.ending_log, Option.toList_none, List.append_nil, Placed,
      stage_log_again placed.captured, Use.jobs_log]
    exact placed
  · unfold Placed at placed ⊢
    rw [List.any_append]
    cases before : ended.any Ending.isAbandoned with
    | true =>
      rw [before, if_pos rfl] at placed
      exact ((keeps_idle true).step live noRecord placed).kept
    | false =>
      rw [before, if_neg Bool.false_ne_true] at placed
      rw [Bool.false_or]
      exact ((keeps_held text).step live noRecord placed).by_ending fun _ _ noTimeout => noTimeout

/-- The text was written, or it waits, or a job has it. -/
def Stands (text : String) (u : Use S File Writing) : Prop :=
  (0 < u.state.writes ∧ content? u.world.store u.state.settings.path = some text) ∨
    u.state.pending = some text ∨ ∃ job ∈ u.jobs, job.content = text

theorem Held.stands {text : String} {u : Use S File Writing}
    (held : Held settings agent host text u.stage u.jobs) : Stands text u := by
  generalize under : u.jobs = jobs at held
  cases held with
  | waiting notice state =>
    have pending : u.state.pending = some text := congrArg File.pending state
    exact .inr (.inl pending)
  | underWay notice pause state =>
    exact .inr (.inr ⟨⟨text, pause⟩, by rw [under]; exact List.mem_singleton_self _, rfl⟩)
  | written notice state there =>
    have same : u.state = ⟨settings, agent, host, true, none, 1, notice⟩ := state
    refine .inl ⟨?_, ?_⟩
    · rw [same]
      exact Nat.one_pos
    · rw [same]
      exact there

theorem Idle.lost {text : String} {captured : Bool} {u : Use S File Writing}
    (idle : Idle settings agent host captured u.stage u.jobs) : ¬ Stands text u := by
  obtain ⟨nothing, notice, state⟩ := idle
  have same : u.state = ⟨settings, agent, host, captured, .none, 0, notice⟩ := state
  rintro (⟨written, _⟩ | waiting | ⟨job, under, _⟩)
  · rw [same] at written
    exact absurd written (Nat.lt_irrefl 0)
  · rw [same] at waiting
    cases waiting
  · rw [nothing] at under
    cases under

omit [LawfulStorage S] in
theorem Idle.record {u : Use S File Writing} (r : Record)
    (idle : Idle settings agent host false u.stage u.jobs) :
    ∃ notice, (u.step (.log r)).1.stage.state = ⟨settings, agent, host, true,
      some (render (snapshot agent host u.world.wall settings.overrides)), 0, notice⟩ ∧
      (u.step (.log r)).1.jobs = [] := by
  obtain ⟨nothing, notice, same⟩ := idle
  refine ⟨true, ?_, nothing⟩
  rw [Use.stage_log]
  simp only [Work.accept, same, capture]
  rfl

/-- From the first record on the text is where it was placed, whatever is done. -/
theorem placed_run (settings : Settings) (agent : Agent) (host : Host) (w : World S)
    {before : List Action} (noRecord : ∀ a ∈ before, ∀ r, a ≠ .log r) (r : Record)
    (after : List Action) :
    let first := (Use.ofState (.ofSettings settings agent host) w : Use S File Writing).run before
    let recorded := (first.step (.log r)).1
    Placed settings agent host (render (snapshot agent host first.world.wall settings.overrides))
        (recorded.seen Use.endings after) (recorded.run after) ∧ (recorded.run after).Live := by
  intro first recorded
  obtain ⟨idle, live⟩ : Idle settings agent host false first.stage first.jobs ∧ first.Live :=
    Use.run_without_records (keeps_idle false) noRecord (Use.live_ofState _ w) ⟨rfl, false, rfl⟩
  obtain ⟨notice, fixed, nothing⟩ := idle.record r
  have held : Placed settings agent host
      (render (snapshot agent host first.world.wall settings.overrides)) [] recorded := by
    have waiting := Held.waiting notice fixed
    rw [← nothing] at waiting
    exact waiting
  have step_keeps (ended : List Ending) (u : Use S File Writing) (a : Action)
      (kept : Placed settings agent host
        (render (snapshot agent host first.world.wall settings.overrides)) ended u ∧ u.Live) :=
    And.intro (kept.1.step a kept.2) (u.live_step a kept.2)
  exact Use.run_keeps step_keeps after ⟨held, first.live_step _ live⟩

/-- Of a marker file in any use, over a storage whose requests may fail: from the first
record on, the text that this record fixed was written, waits or is with a job, as long
as no call ends before its job, and only as long. -/
theorem stands_iff_none_abandoned (settings : Settings) (agent : Agent) (host : Host) (w : World S)
    (before after : List Action) (r : Record) (noRecord : ∀ a ∈ before, ∀ r, a ≠ .log r) :
    let start : Use S File Writing := .ofState (.ofSettings settings agent host) w
    let first := start.run before
    let recorded := (first.step (.log r)).1
    Stands (render (snapshot agent host first.world.wall settings.overrides)) (recorded.run after) ↔
      ∀ ending ∈ recorded.seen Use.endings after, ending.isAbandoned = false := by
  intro start first recorded
  obtain ⟨placed, _⟩ := placed_run settings agent host w noRecord r after
  rw [Placed] at placed
  constructor
  · intro stands ending member
    by_contra abandoned
    have any : (recorded.seen Use.endings after).any Ending.isAbandoned = true :=
      List.any_eq_true.mpr ⟨ending, member, by simpa using abandoned⟩
    rw [if_pos any] at placed
    exact placed.lost stands
  · intro finished
    have none_abandoned : ¬ (recorded.seen Use.endings after).any Ending.isAbandoned = true := by
      simpa using finished
    rw [if_neg none_abandoned] at placed
    exact placed.stands

/-- A task that was started writes the text of the first record. -/
theorem stands_after_start :
    let host : Host := ⟨"host", "x86_64", "linux", "6", "Linux 6", "+00:00"⟩
    let start : Use MemoryStore File Writing :=
      .ofState (.ofSettings .standard ⟨"agent", "experiment"⟩ host) (.ofStore (.ofFiles []))
    let before : List Action := [.start true 0]
    let first := start.run before
    let recorded := (first.step (.log ⟨.named "first", .standard, .message "text"⟩)).1
    (∀ a ∈ before, ∀ r, a ≠ .log r) ∧
      Stands (render (snapshot ⟨"agent", "experiment"⟩ host first.world.wall .empty))
        (recorded.run [.taskOn 0 0]) := by
  intro host start before first recorded
  have noRecord : ∀ a ∈ before, ∀ r, a ≠ .log r := by
    intro a member r same
    cases List.mem_singleton.mp member
    cases same
  refine ⟨noRecord, (stands_iff_none_abandoned .standard ⟨"agent", "experiment"⟩ host
    (.ofStore (.ofFiles []) : World MemoryStore) before [.taskOn 0 0] _ noRecord).mpr ?_⟩
  have nothing : recorded.seen Use.endings [.taskOn 0 0] = [] := by decide +kernel
  intro ending member
  rw [nothing] at member
  cases member

/-- A flush that ends while its job rests between two attempts loses the text: nothing
is left to be written, although the storage would take it, and no record fixes it again. -/
theorem lost_at_deadline :
    let record : Record := ⟨.named "first", .standard, .message "text"⟩
    let host : Host := ⟨"host", "x86_64", "linux", "6", "Linux 6", "+00:00"⟩
    let start : Use MemoryStore File Writing :=
      .ofState (.ofSettings .standard ⟨"agent", "experiment"⟩ host)
        (.ofStore ((MemoryStore.ofFiles []).failNext .write 1))
    let now := start.run [.log record, .flush 0 (Span.ofMillis 50), .callOn 50]
    let later := (now.run [.log record]).step (.stop 1000 (Span.ofMillis 60000))
    now.state.captured = true ∧ (∀ text, ¬ Stands text now) ∧
      later.2 = some (.returned (.ok ())) ∧
      later.1.world.store.content? now.state.settings.path = none := by
  intro record host start now later
  have writes : now.state.writes = 0 := by decide +kernel
  have pending : now.state.pending = none := by decide +kernel
  have jobs : now.jobs.length = 0 := by decide +kernel
  refine ⟨by decide +kernel, ?_, by decide +kernel, by decide +kernel⟩
  rintro text (⟨written, _⟩ | waiting | ⟨job, under, _⟩)
  · rw [writes] at written
    exact absurd written (Nat.lt_irrefl 0)
  · rw [pending] at waiting
    cases waiting
  · rw [List.length_eq_zero_iff.mp jobs] at under
    cases under

end File
end Telemetry.Marker
