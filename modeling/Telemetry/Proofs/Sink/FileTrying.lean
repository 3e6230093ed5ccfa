import Telemetry.Proofs.Sink.FileCatchingUp
import Telemetry.Proofs.Sink.Trying

/-! Flushes of tables and summary files that are tried again.
An attempt that fails leaves the files, and what waits, as they were; one that succeeds puts
all that waited on disk. So does the flush, at whichever attempt it ends or if it ends between
two of them at its deadline. -/
namespace Telemetry
open LawfulStorage (content?)
open Service (Use Action Filing Trying FlushTries)

namespace Service

/-- Jobs that write are tried again where their writing fails by input or output only. -/
@[reducible]
def Filing.trying {S σ ς : Type} [Duty σ Pause] [Work S σ Pause] [Filing S σ ς]
    (retryable : ∀ {s : σ} {store : S} {fault : Fault},
      (Filing.write s store).1 = .error fault → fault.isRetryable = true) : Trying S σ where
  attempt := Stage.onStore Filing.write
  policy s := Filing.policy S σ (Filing.settings S s)
  begin_eq := Filing.begin_eq
  resume_eq := Filing.resume_eq
  wake?_eq := Filing.wake?_eq S
  abandon_eq := Filing.abandon_eq S
  attempt_policy g := congrArg (Filing.policy S σ) (Filing.write_settings g.state g.world.store)
  retryable := retryable

end Service

variable {S : Type} [Storage S]

namespace Csv.Table

variable [LawfulStorage S]

/-- A table after attempts that failed: the rows wait as before, the files hold what they held,
and those that were known are. -/
structure Spared (g g' : Stage S Table) : Prop where
  buffer : g'.state.buffer = g.state.buffer
  known : ∀ f, g.state.files = some f → g'.state.files = some f
  content : content? g'.world.store = content? g.world.store

/-- A table after an attempt that succeeded: no row waits, and all that waited is behind one of
the files, with the header before it where that was empty. -/
structure OnDisk (g g' : Stage S Table) : Prop where
  buffer : g'.state.buffer = ""
  content : ∃ path ∈ g'.state.paths, content? g'.world.store =
    Function.update (content? g.world.store) path
      (some (g.state.extended (content? g.world.store path)))

/-- What attempts that fail keep of a table. -/
structure Waiting (g g' : Stage S Table) : Prop extends Spared g g' where
  sound : ∀ f, g'.state.files = some f → f.Sound g'.state.settings.path

theorem Waiting.failed {g g' : Stage S Table} {fault : Fault}
    (failed : (attempt g').1 = .error fault) (waiting : Waiting g g') :
    Waiting g (attempt g').2 := by
  have outcome := write_attempted g'.state g'.world.store
  change (g'.state.write g'.world.store).1 = .error fault at failed
  obtain ⟨⟨buffer, known, content⟩, sound⟩ := waiting
  unfold attempt Stage.onStore
  generalize g'.state.write g'.world.store = p at failed outcome
  cases outcome with
  | failed opens same =>
    exact ⟨⟨buffer, fun f there => opens.known (known f there), same.trans content⟩,
      fun f there => opens.sound sound there⟩
  | idle | nowhere | flushed => cases failed

theorem Waiting.succeeded {g g' : Stage S Table} (filled : g.state.buffer ≠ "")
    (succeeded : (attempt g').1 = .ok ()) (waiting : Waiting g g') : OnDisk g (attempt g').2 := by
  have outcome := write_attempted g'.state g'.world.store
  change (g'.state.write g'.world.store).1 = .ok () at succeeded
  obtain ⟨⟨buffer, known, content⟩, sound⟩ := waiting
  unfold attempt Stage.onStore
  generalize g'.state.write g'.world.store = p at succeeded outcome
  cases outcome with
  | idle empty => exact absurd (buffer.symm.trans empty) filled
  | failed => cases succeeded
  | nowhere opens nothing => exact absurd nothing (opens.sound sound rfl).nonempty
  | @flushed store' files current size opens _ last written =>
    refine ⟨rfl, current, mem_grow _ (List.mem_of_getLast? last), ?_⟩
    rw [written, content]
    simp only [extended, buffer]

instance : Trying S Table :=
  Filing.trying fun {t store fault} failed => by
    have outcome := write_attempted t store
    change (t.write store).1 = .error fault at failed
    generalize t.write store = p at failed outcome
    cases outcome with
    | failed =>
      cases failed
      rfl
    | idle | nowhere | flushed => cases failed

/-- How a flush of a table with rows that wait ends, where no task runs. -/
theorem flush_tries {ms : Nat} {timeout : Span} {s : Service S Table Pause} {w : World S}
    (now : Tick) (idle : s.tasks = []) (unit : s.state.settings.retry.backoff = .ofMillis ms)
    (positive : 0 < ms) (valid : (Span.ofMillis ms).toNanos ≤ Span.longest.toNanos)
    (limited : timeout.toNanos ≤ Span.longest.toNanos)
    (sound : ∀ f, s.state.files = some f → f.Sound s.state.settings.path)
    (filled : s.state.buffer ≠ "") :
    FlushTries s.state.settings.retry ms timeout s w now (OnDisk (s.stage w))
      (Spared (s.stage w)) := by
  have tries : FlushTries s.state.settings.retry ms timeout s w now (OnDisk (s.stage w))
      (Waiting (s.stage w)) :=
    Service.flush_tries idle rfl unit positive valid limited
      (fun _ _ failed => Waiting.failed failed)
      (fun _ succeeded => Waiting.succeeded filled succeeded) ⟨⟨rfl, fun _ => id, rfl⟩, sound⟩
  exact tries.mono (fun _ => id) fun _ waiting => waiting.toSpared

end Csv.Table

namespace Summary.File

variable [LawfulStorage S]

/-- A summary file after attempts that failed: the report, the revision that is noted as
written and every file are as they were. -/
structure Spared (g g' : Stage S File) : Prop where
  state : g'.state = g.state
  content : content? g'.world.store = content? g.world.store

/-- A summary file after an attempt that succeeded: it holds the report as it was, which is
noted as written, and every other file is as it was. -/
structure OnDisk (g g' : Stage S File) : Prop where
  state : g'.state = { g.state with written := g.state.report.revision }
  content : content? g'.world.store =
    Function.update (content? g.world.store) g.state.settings.path (some g.state.report.text)

theorem Spared.failed {g g' : Stage S File} {fault : Fault}
    (failed : (attempt g').1 = .error fault) (spared : Spared g g') : Spared g (attempt g').2 := by
  have outcome := write_attempted g'.state g'.world.store
  change (g'.state.write g'.world.store).1 = .error fault at failed
  obtain ⟨state, content⟩ := spared
  unfold attempt Stage.onStore
  generalize g'.state.write g'.world.store = p at failed outcome
  cases outcome with
  | failed same => exact ⟨state, same.trans content⟩
  | current | flushed => cases failed

theorem Spared.succeeded {g g' : Stage S File} (changed : g.state.report.revision ≠ g.state.written)
    (succeeded : (attempt g').1 = .ok ()) (spared : Spared g g') : OnDisk g (attempt g').2 := by
  have outcome := write_attempted g'.state g'.world.store
  change (g'.state.write g'.world.store).1 = .ok () at succeeded
  obtain ⟨state, content⟩ := spared
  rw [state] at outcome succeeded
  unfold attempt Stage.onStore
  rw [state]
  generalize g.state.write g'.world.store = p at succeeded outcome
  cases outcome with
  | current same => exact absurd same changed
  | failed => cases succeeded
  | flushed written => exact ⟨rfl, by rw [written, content]⟩

instance : Trying S File :=
  Filing.trying fun {s store fault} failed => by
    have outcome := write_attempted s store
    change (s.write store).1 = .error fault at failed
    generalize s.write store = p at failed outcome
    cases outcome with
    | failed =>
      cases failed
      rfl
    | current | flushed => cases failed

/-- How a flush of a summary file with a revision that is not written ends, where no task runs. -/
theorem flush_tries {ms : Nat} {timeout : Span} {s : Service S File Pause} {w : World S}
    (now : Tick) (idle : s.tasks = []) (unit : s.state.settings.retry.backoff = .ofMillis ms)
    (positive : 0 < ms) (valid : (Span.ofMillis ms).toNanos ≤ Span.longest.toNanos)
    (limited : timeout.toNanos ≤ Span.longest.toNanos)
    (changed : s.state.report.revision ≠ s.state.written) :
    FlushTries s.state.settings.retry ms timeout s w now (OnDisk (s.stage w))
      (Spared (s.stage w)) :=
  Service.flush_tries idle rfl unit positive valid limited (fun _ _ failed => Spared.failed failed)
    (fun _ succeeded => Spared.succeeded changed succeeded) ⟨rfl, rfl⟩

end Summary.File

end Telemetry
