import Telemetry.Proofs.Sink.CatchingUp
import Telemetry.Proofs.Sink.FileDraining
import Telemetry.Proofs.Sink.FileHoldings

/-! Tables and summary files catch up by themselves.
Whatever failed and whichever flushes were given up until some moment: where the sink was
started and no request fails any more, its task has written all that waits when a period and
the longest pause have passed, unless more comes meanwhile. -/
namespace Telemetry
open LawfulStorage (content?)
open Service (Use Keeps Action CatchesUp Filing OnTime Retrying)

variable {S : Type} [Storage S]

instance {S σ ς : Type} [Duty σ Pause] [Work S σ Pause] [Filing S σ ς] : Retrying S σ Pause where
  begin_wake {now g g' pause} waits := by
    rw [Filing.begin_eq] at waits
    exact attempts_wake_le (Nat.sub_zero _).symm waits
  resume_wake {now g g' pause pause'} waits := by
    rw [Filing.resume_eq] at waits
    exact attempts_wake_le rfl waits

namespace Csv.Table

variable [LawfulStorage S]

/-- No writing changes the machine, and the files that are known are those of the path. -/
theorem write_sound {t : Table} (store : S)
    (known : ∀ f, t.files = some f → f.Sound t.settings.path) :
    (t.write store).2.1.machine = t.machine ∧
      ∀ f, (t.write store).2.1.files = some f → f.Sound t.settings.path := by
  have outcome := t.write_attempted store
  generalize t.write store = p at outcome
  cases outcome with
  | idle => exact ⟨rfl, known⟩
  | failed opens | nowhere opens => exact ⟨rfl, fun f there => opens.sound known there⟩
  | flushed opens =>
    refine ⟨rfl, fun f there => ?_⟩
    cases there
    exact grow_sound _ (opens.sound known rfl)

/-- The rows of records are in the files of a table or wait, each one once and in order. -/
structure Filed (settings : Settings) (machine : String) (before : String → Option String)
    (records : List (Instant × Record)) (t : Table) (now : String → Option String) : Prop where
  settings_same : t.settings = settings
  machine_same : t.machine = machine
  sound : ∀ f, t.files = some f → f.Sound settings.path
  placed : ∀ row ∈ rowsOf machine records, t.Placed now row
  kept : Kept settings machine before (rowsOf machine records) t now

variable {settings : Settings} {machine : String} {before : String → Option String}
  {records : List (Instant × Record)}

omit [Storage S] [LawfulStorage S] in
theorem filed_ofSettings (settings : Settings) (machine : String) (now : String → Option String) :
    Filed settings machine now [] (ofSettings settings machine) now :=
  ⟨rfl, rfl, nofun, nofun, rfl, rfl, nofun, .nothing now⟩

theorem Filed.attempt {g : Stage S Table}
    (filed : Filed settings machine before records g.state (content? g.world.store)) :
    Filed settings machine before records (attempt g).2.state
      (content? (attempt g).2.world.store) := by
  obtain ⟨rfl, rfl, known, placed, kept⟩ := filed
  have settings_same := write_settings g.state g.world.store
  obtain ⟨machine_same, sound⟩ := write_sound g.world.store known
  refine ⟨settings_same, machine_same, sound, fun row member => ?_, kept.attempt.2⟩
  exact (placed row member).write settings_same (Table.paths_own sound)

/-- Jobs keep the rows where they are, or put them into files. -/
theorem keeps_filed (settings : Settings) (machine : String) (before : String → Option String)
    (records : List (Instant × Record)) :
    Service.Lasting (S := S) fun g (_ : List Pause) =>
      Filed settings machine before records g.state (content? g.world.store) where
  perm _ filed := filed
  surroundings state store filed := by rwa [state, store]
  notice filed := filed
  begin now filed := Service.continues_attempts _ now (fun _ filed => ⟨trivial, filed.attempt⟩)
    (fun _ _ filed => filed) _ _ filed
  resume now filed _ := Service.continues_attempts _ now (fun _ filed => ⟨trivial, filed.attempt⟩)
    (fun _ _ filed => filed) _ _ filed
  abandon filed := filed

theorem Filed.log {g : Stage S Table} (r : Record)
    (filed : Filed settings machine before records g.state (content? g.world.store)) :
    Filed settings machine before (records ++ [(g.world.wall, r)])
      (Work.accept (κ := Pause) r g).state
        (content? (Work.accept (κ := Pause) r g).world.store) := by
  obtain ⟨rfl, rfl, sound, placed, kept⟩ := filed
  have same : (g.state.add g.world.wall r).machine = g.state.machine ∧
      (g.state.add g.world.wall r).files = g.state.files := by
    unfold add
    split <;> exact ⟨rfl, rfl⟩
  refine ⟨Filing.accept_settings r g, same.1, fun f known => ?_,
    placed_add g.world.wall r placed, ?_⟩
  · exact sound f (same.2 ▸ known)
  · rw [rowsOf_append]
    exact kept.log r

/-- All rows of records are in the files of a table, each one once and in order. -/
structure Complete (settings : Settings) (machine : String) (before : String → Option String)
    (records : List (Instant × Record)) (g : Stage S Table) : Prop where
  empty : g.state.buffer = ""
  stands : ∀ row ∈ rowsOf machine records, ∃ file text front back, Own settings.path file ∧
    content? g.world.store file = some text ∧ text = front ++ row ++ back
  delivered : Delivered before (content? g.world.store) g.state.paths ""
    (String.join (rowsOf machine records))

theorem Filed.complete {g : Stage S Table} (empty : g.state.buffer = "")
    (filed : Filed settings machine before records g.state (content? g.world.store)) :
    Complete settings machine before records g := by
  refine ⟨empty, fun row member => ?_, empty ▸ filed.kept.delivered⟩
  have stands := (filed.placed row member).stands member empty
  rwa [filed.settings_same] at stands

end Csv.Table

namespace Summary.File

variable [LawfulStorage S]

theorem keeps_reports (settings : Settings) (records : List (Instant × Record)) :
    Service.Lasting (S := S) fun g (_ : List Pause) =>
      g.state.settings = settings ∧ Reports records g.state (content? g.world.store) where
  perm _ kept := kept
  surroundings state store kept := by rwa [state, store]
  notice kept := kept
  begin now kept := Service.continues_attempts _ now
    (fun _ kept => ⟨trivial, kept.2.attempt.2.1.trans kept.1, kept.2.attempt.1⟩)
    (fun _ _ kept => kept) _ _ kept
  resume now kept _ := Service.continues_attempts _ now
    (fun _ kept => ⟨trivial, kept.2.attempt.2.1.trans kept.1, kept.2.attempt.1⟩)
    (fun _ _ kept => kept) _ _ kept
  abandon kept := kept

/-- The file holds the report of records, unless that is empty. -/
structure Complete (settings : Settings) (records : List (Instant × Record)) (g : Stage S File) :
    Prop where
  report : g.state.report = reportOf records
  written : g.state.report.text ≠ "" →
    content? g.world.store settings.path = some g.state.report.text

theorem Reports.complete {settings : Settings} {records : List (Instant × Record)}
    {g : Stage S File} (last : g.state.report.revision = g.state.written)
    (same : g.state.settings = settings)
    (reports : Reports records g.state (content? g.world.store)) : Complete settings records g where
  report := reports.report
  written reported := same ▸ (reports.written last).resolve_left reported

end Summary.File

namespace Service

variable {σ κ : Type} [Duty σ κ] [Work S σ κ]

def Use.brought (start : Use S σ κ) (actions : List Action) : List (Instant × Record) :=
  start.seen (Use.atRecords fun u r => [(u.world.wall, r)]) actions

/-- A sink that was started and not stopped, of which no request fails any more after actions
that all took place by a moment. -/
structure Restored (start : Use S σ κ) (actions : List Action) (now : Tick) : Prop where
  by_now : ∀ a ∈ actions, ∀ m ∈ a.moment?, m ≤ now
  unstopped : ∀ a ∈ actions, a.isStop = false
  started : (start.run actions).sink.handle.isSome = true
  restored : Storage.NeverFails (start.run actions).world.store

/-- A restored sink whose jobs pause catches up within a period and the longest pause, and
keeps what its jobs and the records keep. -/
theorem Restored.catchesUp [Pausing S σ κ] [Retrying S σ κ] [Attempting S σ κ] {s : σ}
    {w : World S} {actions : List Action} {now period : Tick}
    (restored : Restored (.ofState s w) actions now) (ticking : Duty.period s = some period)
    {I : List (Instant × Record) → Stage S σ → Prop} {Q : Except Fault Unit → Stage S σ → Prop}
    (K : ∀ h, Keeps (fun g _ => I h g) (fun g _ => I h g) Q)
    (log : ∀ h (g : Stage S σ) r, I h g → I (h ++ [(g.world.wall, r)]) (Work.accept r g))
    (fresh : I [] ⟨s, .standard, w⟩) (sound : ∀ h g, I h g → Attempting.Sound S g.state) :
    CatchesUp ((Use.ofState s w).run actions) now
      (max period (Pausing.policy S s).longestPause) fun g =>
      Attempting.Clean S g.state ∧ I ((Use.ofState s w).brought actions) g := by
  obtain ⟨by_now, unstopped, started, P, reliable, works⟩ := restored
  obtain ⟨kept, live⟩ := Use.run_of_keeps K (fun h u r => log h u.stage r) fresh actions
  have onTime := Use.onTime_run (u := Use.ofState s w) by_now unstopped (onTime_ofState now ticking)
  exact onTime.catchesUp reliable works started (sound _ _ kept) (Use.rhythmic_run s w actions)
    live (K _) kept

end Service

/-- A period and the longest pause are over when the period and as many units of the pauses
have passed as there are retries. -/
theorem RetryPolicy.max_longestPause_le {p : RetryPolicy} {backoffMs : Nat}
    (whole : p.backoff = Span.ofMillis backoffMs) (period : Tick) :
    max period p.longestPause ≤ period + p.maxRetries * backoffMs := by
  have pause := Span.ticks_scale_ofMillis backoffMs p.maxRetries
  rw [longestPause, whole]
  lia

/-- Whatever is done with a table or with a summary file until a moment, over a storage whose
requests may fail: where the sink was started and not stopped and no request fails from then
on, all rows are in the files, and the file holds the report, once a period and the longest
pause have passed without another record. Nobody has to ask for a flush. -/
theorem file_sinks_catch_up [LawfulStorage S] (w : World S) (actions : List Action) (now : Tick)
    (backoffMs : Nat) :
    (∀ (settings : Csv.Settings) (machine : String),
      let start : Use S Csv.Table Pause := .ofState (.ofSettings settings machine) w
      settings.retry.backoff = Span.ofMillis backoffMs → Service.Restored start actions now →
      CatchesUp (start.run actions) now
        (settings.intervalMs + settings.retry.maxRetries * backoffMs)
        (Csv.Table.Complete settings machine (content? w.store) (start.brought actions))) ∧
    ∀ settings : Summary.Settings,
      let start : Use S Summary.File Pause := .ofState (.ofSettings settings) w
      settings.retry.backoff = Span.ofMillis backoffMs → Service.Restored start actions now →
      CatchesUp (start.run actions) now
        (settings.intervalMs + settings.retry.maxRetries * backoffMs)
        (Summary.File.Complete settings (start.brought actions)) := by
  constructor
  · intro settings machine start whole restored
    have fresh := Csv.Table.filed_ofSettings settings machine (content? w.store)
    have catches := restored.catchesUp rfl
      (Csv.Table.keeps_filed settings machine (content? w.store))
      (fun _ _ r filed => filed.log r) fresh fun _ _ filed f known =>
        (filed.sound f known).nonempty
    exact catches.mono (settings.retry.max_longestPause_le whole _) fun g ⟨empty, filed⟩ =>
      filed.complete empty
  · intro settings start whole restored
    have log (h : List (Instant × Record)) (g : Stage S Summary.File) (r : Record)
        (kept : g.state.settings = settings ∧
          Summary.File.Reports h g.state (content? g.world.store)) :
        (g.state.add g.world.wall r).settings = settings ∧ Summary.File.Reports
          (h ++ [(g.world.wall, r)]) (g.state.add g.world.wall r) (content? g.world.store) :=
      ⟨(Filing.accept_settings r g).trans kept.1, kept.2.log r⟩
    have catches := restored.catchesUp rfl (Summary.File.keeps_reports settings) log
      ⟨rfl, Summary.File.reports_ofSettings settings _⟩ fun _ _ _ => trivial
    exact catches.mono (settings.retry.max_longestPause_le whole _) fun g ⟨last, same, reports⟩ =>
      reports.complete last same

/-- Flushes that fail, one of which is given up, with the file system back at 20 ms. -/
theorem file_sinks_catch_up_after_failures :
    let store := (MemoryStore.ofFiles []).failNext .createDirAll 3
    let w : World MemoryStore := .ofStore store
    let record : Record := ⟨.ofCategory .error "Failed", .error, .event (.ofActivity .nil)⟩
    let retry : RetryPolicy := ⟨1, Span.ofMillis 100⟩
    let table : Csv.Settings := { Csv.Settings.standard with retry := retry }
    let summary : Summary.Settings := { Summary.Settings.standard with retry := retry }
    let actions : List Action := [.log record, .start true 0, .taskOn 0 0,
      .flush 10 (Span.ofMillis 5), .callOn 15, .flush 16 (Span.ofMillis 5), .drop]
    let rows : Use MemoryStore Csv.Table Pause := .ofState (.ofSettings table "host") w
    let report : Use MemoryStore Summary.File Pause := .ofState (.ofSettings summary) w
    CatchesUp (rows.run actions) 20 400
        (Csv.Table.Complete table "host" (content? store) (rows.brought actions)) ∧
      CatchesUp (report.run actions) 20 400
        (Summary.File.Complete summary (report.brought actions)) := by
  intro store w record retry table summary actions rows report
  have by_now : ∀ a ∈ actions, ∀ m ∈ a.moment?, m ≤ 20 := by decide
  have unstopped : ∀ a ∈ actions, a.isStop = false := by decide
  obtain ⟨tables, summaries⟩ := file_sinks_catch_up w actions 20 100
  constructor
  · exact tables table "host" rfl ⟨by_now, unstopped, by decide +kernel,
      MemoryStore.neverFails (by decide +kernel)⟩
  · exact summaries summary rfl ⟨by_now, unstopped, by decide +kernel,
      MemoryStore.neverFails (by decide +kernel)⟩

end Telemetry
