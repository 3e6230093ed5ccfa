import Mathlib.Data.List.Dedup
import Telemetry.Proofs.Csv.Attempts
import Telemetry.Proofs.Csv.Names
import Telemetry.Proofs.Sink.Keeping

/-! A table delivers each row once and in order.
At every moment of every run, what the table has put into its files, taken in the
order of the files and without the headers, and the rows that wait are together the
rows that were logged. No failure, pause or deadline loses a row or doubles one. -/
namespace Telemetry.Csv
open Service (Use Keeps Continues)

/-- What a file holds after a table put rows into it that held `old` before. The
header comes first where nothing stood. -/
def Grown (old new : Option String) (rows : String) : Prop :=
  if rows = "" then new = old
  else new = some (old.getD "" ++ (if old.getD "" = "" then header else "") ++ rows)

theorem Grown.append {old new : Option String} {rows text : String} (grown : Grown old new rows)
    (filled : text ≠ "") :
    Grown old (some (new.getD "" ++ ((if new.getD "" = "" then header else "") ++ text)))
      (rows ++ text) := by
  have longer : rows ++ text ≠ "" := by simp [filled]
  unfold Grown at grown ⊢
  rw [if_neg longer]
  by_cases first : rows = ""
  · rw [if_pos first] at grown
    rw [grown, first, String.empty_append, String.append_assoc]
  · rw [if_neg first] at grown
    have there : new.getD "" ≠ "" := by simp [grown, first]
    rw [if_neg there, String.empty_append, grown, Option.getD_some]
    simp only [String.append_assoc]

/-- The rows logged are those that files hold now and did not before, file by file, and
behind them those that wait. A file may be listed twice where the storage lists it so. -/
def Delivered (before after : String → Option String) (paths : List String)
    (waiting logged : String) : Prop :=
  ∃ rows : String → String,
    (∀ path, Grown (before path) (after path) (rows path)) ∧
    (∀ path, path ∉ paths → rows path = "") ∧
    String.join (paths.dedup.map rows) ++ waiting = logged

namespace Delivered

variable {before after : String → Option String} {paths : List String} {waiting logged : String}

theorem nothing (before : String → Option String) : Delivered before before [] "" "" :=
  ⟨fun _ => "", fun _ => by simp [Grown], fun _ _ => rfl, rfl⟩

theorem log (delivered : Delivered before after paths waiting logged) (row : String) :
    Delivered before after paths (waiting ++ row) (logged ++ row) := by
  obtain ⟨rows, grown, outside, whole⟩ := delivered
  refine ⟨rows, grown, outside, ?_⟩
  rw [← String.append_assoc, whole]

theorem found (delivered : Delivered before after [] waiting logged) (paths : List String) :
    Delivered before after paths waiting logged := by
  obtain ⟨rows, grown, outside, whole⟩ := delivered
  have empty (path : String) : rows path = "" := outside path List.not_mem_nil
  have join (l : List String) : String.join (l.map rows) = "" := by
    induction l with
    | nil => rfl
    | cons path rest ih => simp [ih, empty]
  refine ⟨rows, grown, fun path _ => empty path, ?_⟩
  rw [join] at whole ⊢
  exact whole

theorem another (delivered : Delivered before after paths waiting logged) {path : String}
    (fresh : path ∉ paths) : Delivered before after (paths ++ [path]) waiting logged := by
  obtain ⟨rows, grown, outside, whole⟩ := delivered
  refine ⟨rows, grown, fun other absent => outside other ?_, ?_⟩
  · exact fun member => absent (List.mem_append_left _ member)
  · have apart : paths.Disjoint [path] := by simpa [List.disjoint_singleton] using fresh
    rw [apart.dedup_append, ← whole]
    simp [String.join_append, outside path fresh]

theorem dedup_getLast? {path : String} (current : paths.getLast? = some path) :
    ∃ front, paths.dedup = front ++ [path] ∧ path ∉ front := by
  obtain ⟨front, rfl⟩ := List.getLast?_eq_some_iff.mp current
  clear current
  induction front with
  | nil => exact ⟨[], rfl, List.not_mem_nil⟩
  | cons other front ih =>
    obtain ⟨kept, once, apart⟩ := ih
    rw [List.cons_append]
    by_cases again : other ∈ front ++ [path]
    · exact ⟨kept, by rw [List.dedup_cons_of_mem again, once], apart⟩
    · refine ⟨other :: kept, by rw [List.dedup_cons_of_notMem again, once]; rfl, ?_⟩
      have different : path ≠ other := by
        rintro rfl
        exact again (by simp)
      simp [different, apart]

/-- What waits is put behind the current file, and nothing waits any more. -/
theorem append (delivered : Delivered before after paths waiting logged) {path : String}
    (current : paths.getLast? = some path) (filled : waiting ≠ "") :
    Delivered before
      (Function.update after path (some ((after path).getD "" ++
        ((if (after path).getD "" = "" then header else "") ++ waiting)))) paths "" logged := by
  obtain ⟨rows, grown, outside, whole⟩ := delivered
  refine ⟨Function.update rows path (rows path ++ waiting), fun other => ?_,
    fun other absent => ?_, ?_⟩
  · by_cases same : other = path
    · rw [same, Function.update_self, Function.update_self]
      exact (grown path).append filled
    · rw [Function.update_of_ne same, Function.update_of_ne same]
      exact grown other
  · have different : other ≠ path := by
      rintro rfl
      exact absent (List.mem_of_getLast? current)
    rw [Function.update_of_ne different]
    exact outside other absent
  · obtain ⟨front, once, apart⟩ := dedup_getLast? current
    have same : front.map (Function.update rows path (rows path ++ waiting)) = front.map rows := by
      refine List.map_congr_left fun other member => Function.update_of_ne ?_ _ _
      rintro rfl
      exact apart member
    rw [once] at whole ⊢
    simp only [List.map_append, same, List.map_cons, List.map_nil, String.join_append,
      String.join_cons, String.join_nil, String.append_empty, Function.update_self] at whole ⊢
    rw [← whole, String.append_assoc]

end Delivered

theorem Files.Sound.fresh {path : String} {f : Files} (sound : f.Sound path) :
    (Rotation.ofPath path).path f.next ∉ f.paths := by
  intro member
  have positive := sound.positive
  obtain configured | ⟨n, below, same⟩ := sound.earlier _ member
  · exact Rotation.path_ne_configured path (by omega) configured
  · have := Rotation.path_injective path same
    omega

namespace Table

/-- What every table keeps that was made for a path and a machine: its files are those
of the path, and the rows logged are delivered or wait. -/
structure Kept (settings : Settings) (machine : String) (before : String → Option String)
    (logged : List String) (t : Table) (after : String → Option String) : Prop where
  settings_same : t.settings = settings
  machine_same : t.machine = machine
  sound : ∀ f, t.files = some f → f.Sound settings.path
  delivered : Delivered before after t.paths t.buffer (String.join logged)

variable {S : Type} [Storage S] [LawfulStorage S]
open LawfulStorage (content?)

variable {settings : Settings} {machine : String} {before : String → Option String}
  {logged : List String}

theorem grow_spec {files : Files} {after : String → Option String} {waiting rows : String}
    {t : Table} (size : Nat) (sound : files.Sound t.settings.path)
    (delivered : Delivered before after files.paths waiting rows) :
    (t.grow files size).Sound t.settings.path ∧
      Delivered before after (t.grow files size).paths waiting rows := by
  refine ⟨grow_sound size sound, ?_⟩
  unfold grow
  split
  · exact delivered.another sound.fresh
  · exact delivered

theorem Kept.opens {t : Table} {files : Option Files} {store store' : S} (opens : t.Opens files)
    (same : content? store' = content? store)
    (kept : Kept settings machine before logged t (content? store)) :
    Kept settings machine before logged { t with files := files } (content? store') := by
  obtain ⟨rfl, rfl, sound, delivered⟩ := kept
  refine ⟨rfl, rfl, fun f there => opens.sound sound there, ?_⟩
  rw [same]
  rcases opens with rfl | ⟨unknown, f, rfl, _⟩
  · exact delivered
  · have nothing : t.paths = [] := by simp [Table.paths, unknown]
    exact (nothing ▸ delivered).found f.paths

/-- An attempt delivers all that waits, or leaves everything as it was. -/
theorem Kept.write {t : Table} {store : S}
    (kept : Kept settings machine before logged t (content? store)) :
    Kept settings machine before logged (t.write store).2.1 (content? (t.write store).2.2) ∧
      ((t.write store).1 = .ok () → (t.write store).2.1.buffer = "") := by
  have outcome := t.write_attempted store
  generalize t.write store = p at outcome
  cases outcome with
  | idle empty => exact ⟨kept, fun _ => empty⟩
  | failed opens same => exact ⟨kept.opens opens same, nofun⟩
  | nowhere opens nothing same =>
    exact absurd nothing ((kept.opens opens same).sound _ rfl).nonempty
  | flushed opens filled last written =>
    obtain ⟨rfl, rfl, sound, delivered⟩ := kept.opens opens rfl
    have put := delivered.append last filled
    obtain ⟨sound', delivered'⟩ := grow_spec (t := t) _ (sound _ rfl) put
    refine ⟨⟨rfl, rfl, fun f there => ?_, ?_⟩, fun _ => rfl⟩
    · cases there
      exact sound'
    · rw [written]
      exact delivered'

theorem Kept.attempt {g : Stage S Table}
    (kept : Kept settings machine before logged g.state (content? g.world.store)) :
    ((Table.attempt g).1 = .ok () → (Table.attempt g).2.state.buffer = "") ∧
      Kept settings machine before logged (Table.attempt g).2.state
        (content? (Table.attempt g).2.world.store) := by
  obtain ⟨after, emptied⟩ := kept.write
  exact ⟨emptied, after⟩

/-- Whoever writes, in whichever order, keeps the rows; a success leaves none waiting. -/
theorem keeps_rows (settings : Settings) (machine : String) (before : String → Option String)
    (logged : List String) :
    Keeps (S := S)
      (fun g _ => Kept settings machine before logged g.state (content? g.world.store))
      (fun g _ => Kept settings machine before logged g.state (content? g.world.store))
      (fun result g => result = .ok () → g.state.buffer = "") where
  perm _ kept := kept
  surroundings state store kept := by rwa [state, store]
  notice kept := kept
  begin now kept := Service.continues_attempts _ now (fun _ kept => kept.attempt)
    (fun _ _ kept => kept) _ _ kept
  resume now kept _ := Service.continues_attempts _ now (fun _ kept => kept.attempt)
    (fun _ _ kept => kept) _ _ kept
  abandon kept := kept

omit [LawfulStorage S] in
/-- The row of a record, if it has one. -/
def rowOf (machine : String) (u : Use S Table Pause) (r : Record) : List String :=
  (r.event?.map (row machine u.world.wall)).toList

theorem Kept.log {g : Stage S Table} (r : Record)
    (kept : Kept settings machine before logged g.state (content? g.world.store)) :
    Kept settings machine before
      (logged ++ (r.event?.map (row machine g.world.wall)).toList)
      (Work.accept (κ := Pause) r g).state
        (content? (Work.accept (κ := Pause) r g).world.store) := by
  obtain ⟨id, severity, payload⟩ := r
  cases payload with
  | message text => simpa [Record.event?, Work.accept, add] using kept
  | event e =>
    have entered := kept.delivered.log (row machine g.world.wall e)
    refine { kept with delivered := ?_ }
    simpa [Record.event?, Work.accept, add, Table.paths, kept.machine_same, String.join_append]
      using entered

/-- Whatever is done with a table, over a storage whose requests may fail: at every moment
the rows that its files were given, in the order of the files, and the rows that wait are
the rows logged. Once a flush or a stop says that it succeeded, none waits. -/
theorem rows_delivered_once (settings : Settings) (machine : String) (w : World S)
    (actions : List Service.Action) :
    let start : Use S Table Pause := .ofState (.ofSettings settings machine) w
    let now := start.run actions
    Delivered (content? w.store) (content? now.world.store) now.state.paths now.state.buffer
        (String.join (start.seen (Use.atRecords (rowOf machine)) actions)) ∧
      ∀ a, (now.step a).2 = some (.returned (.ok ())) → (now.step a).1.state.buffer = "" := by
  intro start now
  have keeps := keeps_rows (S := S) settings machine (content? w.store)
  have record (h : List String) (u : Use S Table Pause) (r : Record)
      (kept : Kept settings machine (content? w.store) h u.stage.state
        (content? u.stage.world.store)) :
      Kept settings machine (content? w.store) (h ++ rowOf machine u r)
        (Work.accept r u.stage).state (content? (Work.accept r u.stage).world.store) :=
    kept.log r
  have fresh : Kept settings machine (content? w.store) [] (.ofSettings settings machine)
      (content? w.store) :=
    ⟨rfl, rfl, fun _ known => (by cases known), .nothing _⟩
  obtain ⟨kept, live⟩ := Use.run_of_keeps keeps record fresh actions
  refine ⟨kept.delivered, fun a done => ?_⟩
  obtain ⟨emptied, _⟩ | ⟨⟨timeout, failed⟩, _⟩ := (keeps _).returned live kept done
  · exact emptied rfl
  · cases failed

/-- A row logged before a request that fails and one logged behind it both arrive. -/
theorem rows_delivered_once_failing_append :
    let store := (MemoryStore.ofFiles []).failNext .append 1
    let start : Use MemoryStore Table Pause :=
      .ofState (.ofSettings .standard "host") (.ofStore store)
    let record : Record := ⟨.named "metric", .standard, .event (.ofActivity .nil)⟩
    let actions : List Service.Action :=
      [.log record, .flush 0 (Span.ofMillis 5000), .log record]
    let now := start.run actions
    Delivered (content? store) (content? now.world.store) now.state.paths now.state.buffer
        (String.join (start.seen (Use.atRecords (rowOf "host")) actions)) ∧
      (now.step (.callOn 1000)).2 = some (.returned (.ok ())) ∧
      (now.step (.callOn 1000)).1.state.buffer = "" := by
  intro store start record actions now
  obtain ⟨delivered, emptied⟩ :=
    rows_delivered_once .standard "host" (.ofStore store : World MemoryStore) actions
  have done : (now.step (.callOn 1000)).2 = some (.returned (.ok ())) := by
    decide +kernel
  exact ⟨delivered, done, emptied _ done⟩

end Table
end Telemetry.Csv
