import Mathlib.Data.List.Induction
import Telemetry.Proofs.Sink.Keeping
import Telemetry.Proofs.Storage.Watched
import Telemetry.Summary.Sink

/-! The file of a summary and its report.
The report grows at its end, and has a new revision whenever it did. A file that was written
holds the report as it stood at the revision that was noted then. So the file is asked for
only if there is more to write than it holds, and a success says that it holds everything. -/
namespace Telemetry.Summary
open LawfulStorage (content?)
open Service (Action Ending Keeps Use Continues record_or_not)

/-- A report and one that came of it: with more text, where its revision is another one. -/
def Report.Grows (r r' : Report) : Prop :=
  ∃ added, r'.text = r.text ++ added ∧ r.revision ≤ r'.revision ∧
    (added = "" ↔ r'.revision = r.revision)

namespace Report

theorem Grows.refl (r : Report) : r.Grows r :=
  ⟨"", by simp, Nat.le_refl _, by simp⟩

theorem Grows.trans {a b c : Report} (first : a.Grows b) (second : b.Grows c) : a.Grows c := by
  obtain ⟨x, text, le, same⟩ := first
  obtain ⟨y, text', le', same'⟩ := second
  refine ⟨x ++ y, by rw [text', text, String.append_assoc], Nat.le_trans le le', ?_⟩
  rw [String.append_eq_empty_iff, same, same']
  omega

theorem apply_spec (r : Report) (id : EventId) (e : Event) (at_ : Instant) :
    ∃ added, (r.apply id e at_).text = r.text ++ added ∧
      (r.apply id e at_).revision = r.revision + if added = "" then 0 else 1 := by
  refine ⟨blockText at_ (r.blockOf id e), rfl, ?_⟩
  simp only [apply]
  split <;> rfl

theorem Grows.of_added {r r' : Report} {added : String} (text : r'.text = r.text ++ added)
    (revision : r'.revision = r.revision + if added = "" then 0 else 1) : r.Grows r' := by
  refine ⟨added, text, by omega, ?_⟩
  split at revision <;> simp_all

theorem Grows.text_eq {r r' : Report} (grows : r.Grows r') (same : r'.revision = r.revision) :
    r'.text = r.text := by
  obtain ⟨added, text, _, nothing⟩ := grows
  rw [text, nothing.mpr same, String.append_empty]

end Report

namespace File

variable {S : Type} [Storage S] {settings : Settings}

/-- A record adds a text, which may be empty, and one to the revision where it is not. -/
theorem add_spec (s : File) (now : Instant) (r : Record) :
    ∃ added, (s.add now r).report.text = s.report.text ++ added ∧
      (s.add now r).report.revision = s.report.revision + if added = "" then 0 else 1 := by
  unfold add
  split
  · exact s.report.apply_spec ..
  · exact ⟨"", by simp, by simp⟩

/-- All that one writing can do over a storage that is watched. -/
inductive Writing [LawfulStorage S] (s : File) (w : Watched S) :
    Except Fault Unit × File × Watched S → Prop
  | current (same : s.report.revision = s.written) : Writing s w (.ok (), s, w)
  /-- The directory could not be made. -/
  | unmade {fault : Fault} {w' : Watched S} (changed : s.report.revision ≠ s.written)
    (writes : w'.writes = w.writes) (content : content? w' = content? w) :
    Writing s w (.error fault, s, w')
  | failed {fault : Fault} {w' : Watched S} (changed : s.report.revision ≠ s.written)
    (writes : w'.writes = ⟨s.settings.path, s.report.text, false⟩ :: w.writes)
    (content : content? w' = content? w) : Writing s w (.error fault, s, w')
  | written {w' : Watched S} (changed : s.report.revision ≠ s.written)
    (writes : w'.writes = ⟨s.settings.path, s.report.text, true⟩ :: w.writes)
    (content : content? w' = Function.update (content? w) s.settings.path (some s.report.text)) :
    Writing s w (.ok (), { s with written := s.report.revision }, w')

theorem writing_spec [LawfulStorage S] (s : File) (w : Watched S) : Writing s w (s.write w) := by
  unfold write
  split
  · rename_i same
    exact .current same
  · rename_i changed
    simp only
    split
    · rename_i made
      exact .unmade changed (Watched.of_made made) (LawfulStorage.of_made made).1
    · rename_i w' made
      have unchanged := (LawfulStorage.of_made made).1
      have noted := Watched.writes_write s.settings.path s.report.text w'
      rw [Watched.of_made made] at noted
      split
      · rename_i fault w'' failed
        have content := LawfulStorage.write_failed (congrArg Prod.fst failed)
        rw [failed, unchanged] at content
        rw [failed] at noted
        exact .failed changed noted content
      · rename_i w'' written
        have content := LawfulStorage.write_ok (congrArg Prod.fst written)
        rw [written, unchanged] at content
        rw [written] at noted
        exact .written changed noted content

/-- What every writing keeps, jobs keep in any order. -/
theorem keeps_of_write (I : File → S → Prop) (Q : Except Fault Unit → File → S → Prop)
    (write : ∀ s store, I s store →
      Q (s.write store).1 (s.write store).2.1 (s.write store).2.2 ∧
        I (s.write store).2.1 (s.write store).2.2) :
    Keeps (S := S) (fun g _ => I g.state g.world.store) (fun g _ => I g.state g.world.store)
      (fun result g => Q result g.state g.world.store) where
  perm _ kept := kept
  surroundings state store kept := by rwa [state, store]
  notice kept := kept
  begin now kept := Service.continues_attempts _ now (fun _ kept => write _ _ kept)
    (fun _ _ kept => kept) _ _ kept
  resume now kept _ := Service.continues_attempts _ now (fun _ kept => write _ _ kept)
    (fun _ _ kept => kept) _ _ kept
  abandon kept := kept

/-- A run of the sink, of which `past` tells the reports that stood so far. What was written
last is `standing`, or nothing yet. -/
structure Mirrors [LawfulStorage S] (settings : Settings) (before : Option String)
    (past : Report → Prop) (s : File) (w : Watched S) : Prop where
  settings_same : s.settings = settings
  present : past s.report
  standing : ∃ standing : Report, standing.revision = s.written ∧ standing.Grows s.report ∧
    Watched.lastText w.writes = standing.text ∧
    ((standing = .empty ∧ (∀ write ∈ w.writes, write.succeeded = false) ∧
        content? w settings.path = before) ∨
      past standing ∧ content? w settings.path = some standing.text)
  extended : Watched.Extend settings.path w.writes

variable [LawfulStorage S] {before : Option String} {past past' : Report → Prop}

/-- A writing brings what was added since, and on success the file holds the report. -/
theorem Mirrors.write {s : File} {w : Watched S} (mirrors : Mirrors settings before past s w) :
    ((s.write w).1 = .ok () → (s.write w).2.1.report.text = "" ∨
        content? (s.write w).2.2 settings.path = some (s.write w).2.1.report.text) ∧
      Mirrors settings before past (s.write w).2.1 (s.write w).2.2 := by
  obtain ⟨rfl, present, ⟨standing, noted, grows, last, held⟩, extended⟩ := mirrors
  have spec := s.writing_spec w
  have grown (changed : s.report.revision ≠ s.written) :
      ∃ added, added ≠ "" ∧ s.report.text = Watched.lastText w.writes ++ added := by
    obtain ⟨added, text, _, nothing⟩ := grows
    exact ⟨added, fun empty => changed (noted ▸ nothing.mp empty), by rw [text, last]⟩
  generalize s.write w = outcome at spec ⊢
  cases spec with
  | current same =>
    have text := grows.text_eq (same.trans noted.symm)
    refine ⟨fun _ => ?_, rfl, present, ⟨standing, noted, grows, last, held⟩, extended⟩
    rcases held with ⟨rfl, -⟩ | ⟨-, there⟩
    · exact .inl text
    · exact .inr (text ▸ there)
  | unmade changed writes content =>
    refine ⟨nofun, rfl, present, ⟨standing, noted, grows, ?_, ?_⟩, ?_⟩
    · rwa [writes]
    · rwa [writes, content]
    · rwa [writes]
  | failed changed writes content =>
    obtain ⟨added, more, text⟩ := grown changed
    refine ⟨nofun, rfl, present, ⟨standing, noted, grows, ?_, ?_⟩, ?_⟩
    · rwa [writes, Watched.lastText_failed]
    · rw [writes, content]
      exact held.imp_left fun ⟨empty, failures, same⟩ =>
        ⟨empty, List.forall_mem_cons.mpr ⟨rfl, failures⟩, same⟩
    · rw [writes]
      exact ⟨rfl, ⟨added, more, text⟩, extended⟩
  | @written w' changed writes content =>
    obtain ⟨added, more, text⟩ := grown changed
    have there : content? w' s.settings.path = some s.report.text := by
      rw [content, Function.update_self]
    refine ⟨fun _ => .inr there, rfl, present,
      ⟨s.report, rfl, .refl _, ?_, .inr ⟨present, there⟩⟩, ?_⟩
    · rw [writes, Watched.lastText_succeeded]
    · rw [writes]
      exact ⟨rfl, ⟨added, more, text⟩, extended⟩

/-- Jobs keep the file and the report as they are to each other. -/
theorem keeps_mirrors (settings : Settings) (before : Option String) (past : Report → Prop) :
    Keeps (S := Watched S) (fun g _ => Mirrors settings before past g.state g.world.store)
      (fun g _ => Mirrors settings before past g.state g.world.store)
      (fun result g => result = .ok () → g.state.report.text = "" ∨
        content? g.world.store settings.path = some g.state.report.text) :=
  keeps_of_write (Mirrors settings before past)
    (fun result s w => result = .ok () → s.report.text = "" ∨
      content? w settings.path = some s.report.text) fun _ _ mirrors => mirrors.write

omit [LawfulStorage S] in
theorem keeps_current (w : S) :
    Keeps (S := S) (σ := File)
      (fun g _ => g.state.report.revision = g.state.written ∧ g.world.store = w)
      (fun g _ => g.state.report.revision = g.state.written ∧ g.world.store = w)
      (fun _ _ => True) :=
  keeps_of_write (fun s store => s.report.revision = s.written ∧ store = w) (fun _ _ _ => True)
    fun s store current => by
    have same : s.write store = (.ok (), s, store) := if_pos current.1
    rw [same]
    exact ⟨trivial, current⟩

omit [LawfulStorage S] in
theorem write_report (s : File) (store : S) : (s.write store).2.1.report = s.report := by
  unfold write
  split
  · rfl
  · simp only
    split
    · rfl
    · split <;> rfl

omit [LawfulStorage S] in
theorem keeps_report (report : Report) :
    Keeps (S := S) (σ := File) (fun g _ => g.state.report = report)
      (fun g _ => g.state.report = report) (fun _ _ => True) :=
  keeps_of_write (fun s _ => s.report = report) (fun _ _ _ => True)
    fun s store same => ⟨trivial, (s.write_report store).trans same⟩

theorem Mirrors.mono {s : File} {w : Watched S} (mirrors : Mirrors settings before past s w)
    (later : ∀ report, past report → past' report) : Mirrors settings before past' s w := by
  obtain ⟨same, present, ⟨standing, noted, grows, last, held⟩, extended⟩ := mirrors
  have held' := held.imp_right (And.imp_left (later standing))
  exact ⟨same, later _ present, ⟨standing, noted, grows, last, held'⟩, extended⟩

/-- A record adds to the report and leaves the file to later writings. -/
theorem Mirrors.add {s : File} {w : Watched S} (now : Instant) (r : Record)
    (mirrors : Mirrors settings before past s w) (present : past (s.add now r).report) :
    Mirrors settings before past (s.add now r) w := by
  obtain ⟨same, -, ⟨standing, noted, grows, last, held⟩, extended⟩ := mirrors
  obtain ⟨added, text, revision⟩ := s.add_spec now r
  have kept : (s.add now r).settings = s.settings ∧ (s.add now r).written = s.written := by
    unfold File.add
    split <;> exact ⟨rfl, rfl⟩
  have grown := grows.trans (.of_added text revision)
  exact ⟨kept.1.trans same, present,
    ⟨standing, noted.trans kept.2.symm, grown, last, held⟩, extended⟩

omit [LawfulStorage S] in
/-- An action adds a text to the report, which may be empty and is so unless the action takes
a record in, and one to the revision where the text is not empty. -/
theorem report_step {u : Use S File Pause} (live : u.Live) (a : Action) :
    ∃ added, (u.step a).1.state.report.text = u.state.report.text ++ added ∧
      (u.step a).1.state.report.revision =
        u.state.report.revision + (if added = "" then 0 else 1) ∧
      (added ≠ "" → ∃ r, a = .log r) := by
  rcases record_or_not a with ⟨r, rfl⟩ | noRecord
  · obtain ⟨added, text, revision⟩ := u.state.add_spec u.world.wall r
    exact ⟨added, text, revision, fun _ => ⟨r, rfl⟩⟩
  · have same : (u.step a).1.state.report = u.state.report :=
      ((keeps_report u.state.report).step live noRecord rfl).kept
    exact ⟨"", by rw [same, String.append_empty], by rw [same]; rfl, fun more => absurd rfl more⟩

/-- The reports that stood before or after an action of a run. -/
def Stood (start : Use S File Pause) (actions : List Action) (report : Report) : Prop :=
  ∃ earlier later, actions = earlier ++ later ∧ (start.run earlier).state.report = report

omit [LawfulStorage S] in
theorem Stood.later {start : Use S File Pause} {actions : List Action} {report : Report}
    (stood : Stood start actions report) (a : Action) : Stood start (actions ++ [a]) report := by
  obtain ⟨earlier, later, rfl, same⟩ := stood
  exact ⟨earlier, later ++ [a], List.append_assoc .., same⟩

omit [LawfulStorage S] in
theorem stood_last (start : Use S File Pause) (actions : List Action) :
    Stood start actions (start.run actions).state.report :=
  ⟨actions, [], (List.append_nil _).symm, rfl⟩

variable {start : Use (Watched S) File Pause}

theorem mirrors_run (fresh : Mirrors settings before (Stood start []) start.state start.world.store)
    (live : start.Live) (actions : List Action) :
    Mirrors settings before (Stood start actions) (start.run actions).state
        (start.run actions).world.store ∧ (start.run actions).Live := by
  induction actions using List.reverseRecOn with
  | nil => exact ⟨fresh, live⟩
  | append_singleton actions a ih =>
    obtain ⟨mirrors, live⟩ := ih
    have after : start.run (actions ++ [a]) = ((start.run actions).step a).1 := by
      simp [Use.run]
    have later (report : Report) (stood : Stood start actions report) :
        Stood start (actions ++ [a]) report := stood.later a
    have last := stood_last start (actions ++ [a])
    rw [after] at last ⊢
    refine ⟨?_, (start.run actions).live_step a live⟩
    rcases record_or_not a with ⟨r, rfl⟩ | noRecord
    · exact (mirrors.mono later).add _ r last
    · exact (((keeps_mirrors settings before _).step live noRecord mirrors).kept).mono later

end File

open File in
/-- Whatever is done with a summary file, over a storage whose requests may fail: the report
grows at its end, with one more revision for each record that adds to it. The file is as it
was before and no request to write succeeded, or it holds the report as it stood at the
revision that is noted as written. Every request to write goes to the file and brings more
than the last one that succeeded; where there is nothing more, nothing is asked of the storage.
Once a flush or a stop says that it succeeded, the file holds the report, unless that is
empty. -/
theorem file_mirrors_report {S : Type} [Storage S] [LawfulStorage S] (settings : Settings)
    (w : World S) (actions : List Action) :
    let start : Use (Watched S) File Pause :=
      .ofState (.ofSettings settings) ⟨.ofStore w.store, w.wall, w.steady, w.lines, w.picks⟩
    let now := start.run actions
    (∀ a, ∃ added, (now.step a).1.state.report.text = now.state.report.text ++ added ∧
      (now.step a).1.state.report.revision =
        now.state.report.revision + (if added = "" then 0 else 1) ∧
      (added ≠ "" → ∃ r, a = .log r)) ∧
    (((∀ write ∈ now.world.store.writes, write.succeeded = false) ∧
        content? now.world.store settings.path = content? w.store settings.path) ∨
      ∃ earlier later, actions = earlier ++ later ∧
        (start.run earlier).state.report.revision = now.state.written ∧
        content? now.world.store settings.path = some (start.run earlier).state.report.text ∧
        ∃ rest, now.state.report.text = (start.run earlier).state.report.text ++ rest) ∧
    Watched.Extend settings.path now.world.store.writes ∧
    (Watched.lastText now.world.store.writes = now.state.report.text →
      ∀ a, (now.step a).1.world.store = now.world.store) ∧
    ∀ a, (now.step a).2 = some (.returned (.ok ())) →
      (now.step a).1.state.report.text = "" ∨
        content? (now.step a).1.world.store settings.path =
          some (now.step a).1.state.report.text := by
  intro start now
  have fresh : Mirrors settings (content? w.store settings.path) (Stood start []) start.state
      start.world.store :=
    ⟨rfl, stood_last start [], ⟨.empty, rfl, .refl _, rfl, .inl ⟨rfl, nofun, rfl⟩⟩,
      trivial⟩
  have live : start.Live := Use.live_ofState _ _
  obtain ⟨mirrors, live⟩ := mirrors_run fresh live actions
  obtain ⟨standing, noted, grows, last, held⟩ := mirrors.standing
  refine ⟨report_step live, ?_, mirrors.extended, fun nothing a => ?_, fun a done => ?_⟩
  · refine held.imp (fun ⟨_, failures, same⟩ => ⟨failures, same⟩) ?_
    rintro ⟨⟨earlier, later, split, rfl⟩, there⟩
    obtain ⟨rest, text, -⟩ := grows
    exact ⟨earlier, later, split, noted, there, rest, text⟩
  · obtain ⟨added, text, _, revision⟩ := grows
    have empty : added = "" := by
      rw [last, text] at nothing
      simpa using nothing.symm
    have current : now.state.report.revision = now.state.written :=
      (revision.mp empty).trans noted
    rcases record_or_not a with ⟨r, rfl⟩ | noRecord
    · rfl
    · exact (((keeps_current now.world.store).step live noRecord ⟨current, rfl⟩).kept).2
  · obtain ⟨holds, _⟩ | ⟨⟨timeout, failed⟩, _⟩ :=
      (keeps_mirrors settings _ _).returned live mirrors done
    · exact holds rfl
    · cases failed

end Telemetry.Summary
