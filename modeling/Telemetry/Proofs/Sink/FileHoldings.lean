import Telemetry.Proofs.Csv.Delivery
import Telemetry.Proofs.Sink.Holdings
import Telemetry.Proofs.Summary.Attempts

/-! What tables and summary files hold in their files.
A table owns the files of its rotation, where the rows are that were brought, without those
that wait. A summary file owns one file, and holds its report there once it was written. -/
namespace Telemetry
open LawfulStorage (content?)
open Service (Lasting Continues)

variable {S : Type} [Storage S] [LawfulStorage S]

namespace Csv

/-- The files of a table for a path. -/
def Own (path : String) (p : String) : Prop :=
  p = path ∨ ∃ n, p = (Rotation.ofPath path).path n

open Classical in
/-- What files held before, as far as they are owned, and what others hold now. -/
noncomputable def patched (own : String → Prop) (before now : String → Option String)
    (path : String) : Option String :=
  if own path then before path else now path

def rowsOf (machine : String) (records : List (Instant × Record)) : List String :=
  records.filterMap fun x => x.2.event?.map (row machine x.1)

theorem rowsOf_append (machine : String) (records : List (Instant × Record)) (now : Instant)
    (r : Record) : rowsOf machine (records ++ [(now, r)]) =
      rowsOf machine records ++ (r.event?.map (row machine now)).toList := by
  simp only [rowsOf, List.filterMap_append, List.filterMap_cons, List.filterMap_nil]
  cases r.event? <;> rfl

variable {own : String → Prop} {before now now' : String → Option String} {paths : List String}
  {waiting logged : String}

theorem patched_of_own {path : String} (mine : own path) :
    patched own before now path = before path :=
  if_pos mine

theorem patched_of_foreign {path : String} (foreign : ¬ own path) :
    patched own before now path = now path :=
  if_neg foreign

theorem patched_congr (same : ∀ path, ¬ own path → now' path = now path) :
    patched own before now' = patched own before now := by
  funext path
  by_cases mine : own path
  · rw [patched_of_own mine, patched_of_own mine]
  · rw [patched_of_foreign mine, patched_of_foreign mine, same path mine]

theorem patched_self (own : String → Prop) (now : String → Option String) :
    patched own now now = now := by
  funext path
  by_cases mine : own path
  · exact patched_of_own mine
  · exact patched_of_foreign mine

theorem Delivered.outside (delivered : Delivered before now paths waiting logged) {path : String}
    (absent : path ∉ paths) : now path = before path := by
  obtain ⟨rows, grown, outside, _⟩ := delivered
  have same := grown path
  rwa [outside path absent, Grown, if_pos rfl] at same

theorem Delivered.frame (mine : ∀ path ∈ paths, own path)
    (same : ∀ path, own path → now' path = now path)
    (delivered : Delivered (patched own before now) now paths waiting logged) :
    Delivered (patched own before now') now' paths waiting logged := by
  obtain ⟨rows, grown, outside, whole⟩ := delivered
  refine ⟨rows, fun path => ?_, outside, whole⟩
  by_cases own_path : own path
  · have there := grown path
    rw [patched_of_own own_path] at there ⊢
    rwa [same path own_path]
  · have nothing : rows path = "" := outside path fun member => own_path (mine path member)
    rw [patched_of_foreign own_path, nothing, Grown, if_pos rfl]

/-- All rows are in files of a table: each one stands as a whole in one of them, and what the
files got is these rows in order. -/
structure Arrived (path : String) (before now : String → Option String) (rows : List String) :
    Prop where
  stands : ∀ row ∈ rows, ∃ file text front back, Own path file ∧ now file = some text ∧
    text = front ++ row ++ back
  inOrder : ∃ (files : List String) (parts : String → String), files.Nodup ∧
    (∀ file ∈ files, Own path file ∧ Grown (before file) (now file) (parts file)) ∧
    String.join (files.map parts) = String.join rows

namespace Table

theorem paths_own {path : String} {t : Table} (sound : ∀ f, t.files = some f → f.Sound path) :
    ∀ file ∈ t.paths, Own path file := by
  intro file member
  cases known : t.files with
  | none => simp [paths, known] at member
  | some files =>
    have listed : file ∈ files.paths := by simpa [paths, known] using member
    rcases (sound files known).earlier file listed with rfl | ⟨n, _, same⟩
    · exact .inl rfl
    · exact .inr ⟨n, same⟩

theorem Kept.paths_own {settings : Settings} {machine : String} {rows : List String} {t : Table}
    (kept : Kept settings machine before rows t now) : ∀ path ∈ t.paths, Own settings.path path :=
  Table.paths_own kept.sound

/-- All that waits was put behind a file, or everything is as it was. -/
def Puts (t : Table) (store : S) (t' : Table) (store' : S) : Prop :=
  (t'.buffer = t.buffer ∧ content? store' = content? store) ∨
    ∃ path ∈ t'.paths, ∃ heading, content? store' = Function.update (content? store) path
      (some ((content? store path).getD "" ++ (heading ++ t.buffer)))

theorem write_puts (t : Table) (store : S) :
    Puts t store (t.write store).2.1 (t.write store).2.2 := by
  have outcome := t.write_attempted store
  generalize t.write store = p at outcome
  cases outcome with
  | idle => exact .inl ⟨rfl, rfl⟩
  | failed _ same | nowhere _ _ same => exact .inl ⟨rfl, same⟩
  | @flushed store' files current size opens filled last written =>
    exact .inr ⟨current, mem_grow _ (List.mem_of_getLast? last), _, written⟩

/-- A row stands as a whole in a file of the table, or among those that wait. -/
def Placed (t : Table) (now : String → Option String) (row : String) : Prop :=
  (∃ path text front back, Own t.settings.path path ∧ now path = some text ∧
    text = front ++ row ++ back) ∨
  ∃ front back, t.buffer = front ++ row ++ back

theorem Placed.put {t t' : Table} {path row heading : String} (placed : t.Placed now row)
    (settings : t'.settings = t.settings) (mine : Own t.settings.path path)
    (put : now' = Function.update now path
      (some ((now path).getD "" ++ (heading ++ t.buffer)))) : t'.Placed now' row := by
  refine .inl ?_
  rw [settings, put]
  obtain ⟨other, text, front, back, own_other, there, stands⟩ | ⟨front, back, waits⟩ := placed
  · by_cases same : other = path
    · subst same
      refine ⟨other, _, front, back ++ (heading ++ t.buffer), mine, Function.update_self .., ?_⟩
      rw [there, Option.getD_some, stands]
      simp only [String.append_assoc]
    · exact ⟨other, text, front, back, own_other,
        (Function.update_of_ne same ..).trans there, stands⟩
  · refine ⟨path, _, (now path).getD "" ++ heading ++ front, back, mine,
      Function.update_self .., ?_⟩
    rw [waits]
    simp only [String.append_assoc]

/-- A writing keeps rows in the files of the table, or where they wait. -/
theorem Placed.write {t : Table} {store : S} {row : String} (placed : t.Placed (content? store) row)
    (settings : (t.write store).2.1.settings = t.settings)
    (mine : ∀ path ∈ (t.write store).2.1.paths, Own t.settings.path path) :
    (t.write store).2.1.Placed (content? (t.write store).2.2) row := by
  obtain ⟨buffer, same⟩ | ⟨path, listed, heading, put⟩ := t.write_puts store
  · unfold Placed at placed ⊢
    rwa [settings, same, buffer]
  · exact placed.put settings (mine path listed) put

theorem Placed.wait {t : Table} {row : String} (placed : t.Placed now row) (later : String) :
    { t with buffer := t.buffer ++ later }.Placed now row := by
  refine placed.imp_right fun ⟨front, back, waits⟩ => ⟨front, back ++ later, ?_⟩
  simp only [waits, String.append_assoc]

/-- The rows that were brought are in the files of the table, or wait. -/
structure Stores (before : String → Option String) (records : List (Instant × Record))
    (t : Table) (now : String → Option String) : Prop where
  kept : Kept t.settings t.machine (patched (Own t.settings.path) before now)
    (rowsOf t.machine records) t now
  placed : ∀ row ∈ rowsOf t.machine records, t.Placed now row

variable {records : List (Instant × Record)}

theorem row_ne_empty (machine : String) (at_ : Instant) (e : Event) : row machine at_ e ≠ "" := by
  simp [row]

omit [Storage S] [LawfulStorage S] in
theorem placed_add {t : Table} (at_ : Instant) (r : Record)
    (placed : ∀ row ∈ rowsOf t.machine records, t.Placed now row) :
    ∀ row ∈ rowsOf t.machine (records ++ [(at_, r)]), (t.add at_ r).Placed now row := by
  intro row' member
  rw [rowsOf_append, List.mem_append] at member
  unfold add
  cases brought : r.payload with
  | message text =>
    have old := member.resolve_right (by simp [Record.event?, brought])
    exact placed row' old
  | event e =>
    rcases member with old | new
    · exact (placed row' old).wait _
    · have same : row' = row t.machine at_ e := by
        simpa [Record.event?, brought, eq_comm] using new
      refine .inr ⟨t.buffer, "", ?_⟩
      rw [same, String.append_empty]

omit [Storage S] [LawfulStorage S] in
theorem Placed.stands {t : Table} {machine row : String} (member : row ∈ rowsOf machine records)
    (empty : t.buffer = "") (placed : t.Placed now row) :
    ∃ path text front back, Own t.settings.path path ∧ now path = some text ∧
      text = front ++ row ++ back := by
  refine placed.resolve_right fun ⟨front, back, waits⟩ => ?_
  obtain ⟨x, _, brought⟩ := List.mem_filterMap.mp member
  obtain ⟨e, _, same⟩ := Option.map_eq_some_iff.mp brought
  rw [empty, eq_comm, String.append_eq_empty_iff, String.append_eq_empty_iff] at waits
  exact row_ne_empty machine x.1 e (same.trans waits.1.2)

omit [LawfulStorage S] in
theorem stores_ofSettings (settings : Settings) (machine : String) (now : String → Option String) :
    Stores now [] (ofSettings settings machine) now where
  kept := ⟨rfl, rfl, nofun, by rw [patched_self]; exact .nothing now⟩
  placed := nofun

omit [LawfulStorage S] in
/-- Where nothing waits, all rows are in the files. -/
theorem Stores.arrived {t : Table} (empty : t.buffer = "") (stores : Stores before records t now) :
    Arrived t.settings.path before now (rowsOf t.machine records) := by
  obtain ⟨parts, grown, outside, whole⟩ := stores.kept.delivered
  refine ⟨fun row member => ?_, t.paths.dedup, parts, List.nodup_dedup _, fun path listed => ?_, ?_⟩
  · exact (stores.placed row member).stands member empty
  · have mine := stores.kept.paths_own path (List.mem_dedup.mp listed)
    have there := grown path
    rw [patched_of_own mine] at there
    exact ⟨mine, there⟩
  · rwa [empty, String.append_empty] at whole

omit [LawfulStorage S] in
theorem Stores.frame {t : Table} (same : ∀ path, Own t.settings.path path → now' path = now path)
    (stores : Stores before records t now) : Stores before records t now' where
  kept := { stores.kept with delivered := stores.kept.delivered.frame stores.kept.paths_own same }
  placed row member := (stores.placed row member).imp_left
    fun ⟨path, text, front, back, mine, there, stands⟩ =>
      ⟨path, text, front, back, mine, (same path mine).trans there, stands⟩

/-- An attempt puts rows into files of the table only. -/
theorem Stores.attempt {g : Stage S Table}
    (stores : Stores before records g.state (content? g.world.store)) :
    Stores before records (attempt g).2.state (content? (attempt g).2.world.store) ∧
      ((attempt g).2.state.settings, (attempt g).2.state.machine) =
        (g.state.settings, g.state.machine) ∧
      ∀ path, ¬ Own g.state.settings.path path →
        content? (attempt g).2.world.store path = content? g.world.store path := by
  obtain ⟨_, kept⟩ := stores.kept.attempt
  have outside (path : String) (foreign : ¬ Own g.state.settings.path path) :
      content? (Table.attempt g).2.world.store path = content? g.world.store path := by
    rw [kept.delivered.outside fun member => foreign (kept.paths_own path member),
      patched_of_foreign foreign]
  have settings := kept.settings_same
  have machine := kept.machine_same
  refine ⟨⟨?_, fun row member => ?_⟩, Prod.ext settings machine, outside⟩
  · rw [settings, machine, patched_congr outside]
    exact kept
  · rw [machine] at member
    exact (stores.placed row member).write settings kept.paths_own

/-- Attempts in a row keep what the table stores, and that others are left alone. -/
theorem stores_attempts (records : List (Instant × Record)) (c : String → Option String)
    (m : Settings × String) (policy : RetryPolicy) (now : Tick) (left retries : Nat)
    {g : Stage S Table} {jobs : List Pause}
    (start : Stores before records g.state (content? g.world.store) ∧
      (g.state.settings, g.state.machine) = m ∧
      ∀ path, ¬ Own m.1.path path → content? g.world.store path = c path) :
    Continues (fun (g : Stage S Table) (_ : List Pause) =>
      Stores before records g.state (content? g.world.store) ∧
        (g.state.settings, g.state.machine) = m ∧
        ∀ path, ¬ Own m.1.path path → content? g.world.store path = c path)
      (fun _ _ => True) jobs (attempts policy now attempt left retries g) := by
  refine Service.continues_attempts policy now (fun g kept => ⟨trivial, ?_⟩)
    (fun _ _ kept => kept) left retries start
  obtain ⟨stores, rfl, outside⟩ := kept
  obtain ⟨stores', same, others⟩ := stores.attempt
  exact ⟨stores', same, fun path foreign => (others path foreign).trans (outside path foreign)⟩

theorem Stores.log {g : Stage S Table} (r : Record)
    (stores : Stores before records g.state (content? g.world.store)) :
    Stores before (records ++ [(g.world.wall, r)]) (g.state.add g.world.wall r)
      (content? g.world.store) := by
  have kept := stores.kept.log r
  have settings : (g.state.add g.world.wall r).settings = g.state.settings := by
    unfold add
    split <;> rfl
  have machine : (g.state.add g.world.wall r).machine = g.state.machine := by
    unfold add
    split <;> rfl
  refine ⟨?_, ?_⟩
  · rw [settings, machine, rowsOf_append]
    exact kept
  · rw [machine]
    exact placed_add g.world.wall r stores.placed

instance : Holding S Table Pause where
  Terms := Settings × String
  terms t := (t.settings, t.machine)
  owns m := Own m.1.path
  Holds before records t _ now := Stores before records t now
  frame same stores := stores.frame same
  keeps before records m c :=
    { perm := fun _ kept => kept
      surroundings := fun state store kept => by rwa [state, store]
      notice := fun kept => kept
      begin := fun now kept => stores_attempts records c m _ now _ _ kept
      resume := fun now kept _ => stores_attempts records c m _ now _ _ kept
      abandon := fun kept => kept }
  log {_ _ g _} r stores := by
    refine ⟨stores.log r, ?_⟩
    show ((g.state.add g.world.wall r).settings, (g.state.add g.world.wall r).machine) = _
    unfold add
    split <;> rfl
  accept_world _ _ := ⟨rfl, rfl⟩

end Table
end Csv

namespace Summary

def reportOf (records : List (Instant × Record)) : Report :=
  records.foldl (fun report x =>
    match x.2.payload with
    | .event e => report.apply x.2.id e x.1
    | .message _ => report) .empty

namespace File

/-- The report is that of the records, and the file holds it if it was written last. -/
structure Reports (records : List (Instant × Record)) (s : File) (now : String → Option String) :
    Prop where
  report : s.report = reportOf records
  behind : s.written ≤ s.report.revision
  written : s.report.revision = s.written → s.report.text = "" ∨
    now s.settings.path = some s.report.text

variable {records : List (Instant × Record)} {now now' : String → Option String}

theorem reports_ofSettings (settings : Settings) (now : String → Option String) :
    Reports [] (ofSettings settings) now :=
  ⟨rfl, Nat.le_refl _, fun _ => .inl rfl⟩

theorem Reports.frame {s : File} (same : now' s.settings.path = now s.settings.path)
    (reports : Reports records s now) : Reports records s now' :=
  { reports with written := fun last => (reports.written last).imp_right same.trans }

/-- One writing changes the file of the report only, which then holds the report. -/
theorem Reports.write {s : File} {store : S} (reports : Reports records s (content? store)) :
    Reports records (s.write store).2.1 (content? (s.write store).2.2) ∧
      (s.write store).2.1.settings = s.settings ∧
      ∀ path, path ≠ s.settings.path → content? (s.write store).2.2 path = content? store path := by
  have outcome := s.write_attempted store
  generalize s.write store = p at outcome
  cases outcome with
  | current => exact ⟨reports, rfl, fun _ _ => rfl⟩
  | failed same => exact ⟨same ▸ reports, rfl, fun path _ => congrFun same path⟩
  | flushed written =>
    refine ⟨⟨reports.report, Nat.le_refl _, fun _ => .inr ?_⟩, rfl, fun path other => ?_⟩
    · rw [written, Function.update_self]
    · rw [written, Function.update_of_ne other]

theorem Reports.attempt {g : Stage S File}
    (reports : Reports records g.state (content? g.world.store)) :
    Reports records (attempt g).2.state (content? (attempt g).2.world.store) ∧
      (attempt g).2.state.settings = g.state.settings ∧
      ∀ path, path ≠ g.state.settings.path →
        content? (attempt g).2.world.store path = content? g.world.store path :=
  reports.write

theorem reports_attempts (records : List (Instant × Record)) (c : String → Option String)
    (m : Settings) (policy : RetryPolicy) (now : Tick) (left retries : Nat)
    {g : Stage S File} {jobs : List Pause}
    (start : Reports records g.state (content? g.world.store) ∧ g.state.settings = m ∧
      ∀ path, ¬ path = m.path → content? g.world.store path = c path) :
    Continues (fun (g : Stage S File) (_ : List Pause) =>
      Reports records g.state (content? g.world.store) ∧ g.state.settings = m ∧
        ∀ path, ¬ path = m.path → content? g.world.store path = c path)
      (fun _ _ => True) jobs (attempts policy now attempt left retries g) := by
  refine Service.continues_attempts policy now (fun g kept => ⟨trivial, ?_⟩)
    (fun _ _ kept => kept) left retries start
  obtain ⟨reports, rfl, outside⟩ := kept
  obtain ⟨reports', settings, others⟩ := reports.attempt
  exact ⟨reports', settings, fun path foreign => (others path foreign).trans (outside path foreign)⟩

theorem reportOf_append (records : List (Instant × Record)) (now : Instant) (r : Record) :
    reportOf (records ++ [(now, r)]) =
      match r.payload with
      | .event e => (reportOf records).apply r.id e now
      | .message _ => reportOf records := by
  simp [reportOf, List.foldl_append]

omit [Storage S] [LawfulStorage S] in
theorem Reports.log {g : Stage S File} (r : Record) (reports : Reports records g.state now) :
    Reports (records ++ [(g.world.wall, r)]) (g.state.add g.world.wall r) now := by
  unfold add
  cases brought : r.payload with
  | message text =>
    exact { reports with report := by rw [reportOf_append, brought]; exact reports.report }
  | event e =>
    refine ⟨?_, ?_, fun last => ?_⟩
    · rw [reportOf_append, brought]
      show g.state.report.apply r.id e g.world.wall = _
      rw [reports.report]
    · have before := reports.behind
      show g.state.written ≤ (g.state.report.apply r.id e g.world.wall).revision
      unfold Report.apply
      simp only
      split <;> omega
    · have before := reports.behind
      have last : (g.state.report.apply r.id e g.world.wall).revision = g.state.written := last
      show (g.state.report.apply r.id e g.world.wall).text = "" ∨
        now g.state.settings.path = some (g.state.report.apply r.id e g.world.wall).text
      unfold Report.apply at last ⊢
      simp only at last ⊢
      split at last
      · rename_i nothing
        rw [nothing, String.append_empty]
        exact reports.written last
      · omega

instance : Holding S File Pause where
  Terms := Settings
  terms s := s.settings
  owns m path := path = m.path
  Holds _ records s _ now := Reports records s now
  frame same reports := reports.frame (same _ rfl)
  keeps _ records m c :=
    { perm := fun _ kept => kept
      surroundings := fun state store kept => by rwa [state, store]
      notice := fun kept => kept
      begin := fun now kept => reports_attempts records c m _ now _ _ kept
      resume := fun now kept _ => reports_attempts records c m _ now _ _ kept
      abandon := fun kept => kept }
  log {_ _ g _} r reports := by
    refine ⟨reports.log r, ?_⟩
    show (g.state.add g.world.wall r).settings = _
    unfold add
    split <;> rfl
  accept_world _ _ := ⟨rfl, rfl⟩

end File
end Summary
end Telemetry
