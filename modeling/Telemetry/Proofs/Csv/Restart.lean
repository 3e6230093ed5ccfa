import Mathlib.Data.List.Sort
import Telemetry.Proofs.Csv.Delivery
import Telemetry.Proofs.Csv.RotationSet

/-! Tables that work at one path one after another write one stream of rows.
A table finds the files by their numbers, goes on behind the last one, and starts the
next file behind that. Whatever it planned and did not make is not there for the table
that comes after it, which plans the same file again. -/
namespace Telemetry.Csv
open Service (Use Keeps Action)

variable {S : Type} [Storage S]
open LawfulStorage (content?)

/-- The files of a rotation that are there have these numbers, each begins with the
header, and behind the headers they hold a text between them. No other file changed. -/
structure Rotation.Holds (r : Rotation) (before now : String → Option String) (numbers : List Nat)
    (rows : Nat → String) (text : String) : Prop where
  growing : numbers.Pairwise (· < ·)
  files : ∀ n ∈ numbers, now (r.path n) = some (header ++ rows n)
  others : ∀ p, (∀ n ∈ numbers, p ≠ r.path n) → now p = before p
  whole : String.join (numbers.map rows) = text

theorem header_ne_empty : header ≠ "" := by decide +kernel

namespace Rotation.Holds

variable {r : Rotation} {before now : String → Option String} {numbers : List Nat}
  {rows : Nat → String} {text : String}

theorem nothing (r : Rotation) (before : String → Option String) :
    r.Holds before before [] (fun _ => "") "" :=
  ⟨.nil, by simp, fun _ _ => rfl, rfl⟩

/-- The file behind all others is given rows behind those that it has. -/
theorem extend {front : List Nat} {n : Nat} {old : String} (apart : Function.Injective r.path)
    (growing : (front ++ [n]).Pairwise (· < ·))
    (files : ∀ m ∈ front, now (r.path m) = some (header ++ rows m))
    (others : ∀ p, (∀ m ∈ front ++ [n], p ≠ r.path m) → now p = before p)
    (whole : String.join (front.map rows) ++ old = text) (more : String) :
    r.Holds before (Function.update now (r.path n) (some (header ++ (old ++ more))))
      (front ++ [n]) (Function.update rows n (old ++ more)) (text ++ more) := by
  have earlier {m : Nat} (member : m ∈ front) : m ≠ n :=
    Nat.ne_of_lt ((List.pairwise_append.mp growing).2.2 m member n (List.mem_singleton_self n))
  refine ⟨growing, fun m member => ?_, fun p outside => ?_, ?_⟩
  · by_cases last : m = n
    · rw [last, Function.update_self, Function.update_self]
    · have before : m ∈ front := by simpa [last] using member
      rw [Function.update_of_ne (apart.ne last), Function.update_of_ne last]
      exact files m before
  · rw [Function.update_of_ne (outside n (by simp))]
    exact others p outside
  · have same : front.map (Function.update rows n (old ++ more)) = front.map rows :=
      List.map_congr_left fun m member => Function.update_of_ne (earlier member) _ _
    rw [← whole, List.map_append, same]
    simp [String.join_append, String.append_assoc]

theorem put {planned : Option Nat} {n : Nat} (holds : r.Holds before now numbers rows text)
    (apart : Function.Injective r.path)
    (growing : (numbers ++ planned.toList).Pairwise (· < ·))
    (last : (numbers ++ planned.toList).getLast? = some n) (absent : before (r.path n) = none)
    (more : String) :
    ∃ rows, r.Holds before (Function.update now (r.path n) (some ((now (r.path n)).getD "" ++
        ((if (now (r.path n)).getD "" = "" then header else "") ++ more))))
      (numbers ++ planned.toList) rows (text ++ more) := by
  cases planned with
  | some m =>
    have same : m = n := by simpa using last
    subst same
    have fresh : now (r.path m) = none := by
      refine (holds.others _ fun k member => ?_).trans absent
      have smaller := (List.pairwise_append.mp growing).2.2 k member m (List.mem_singleton_self m)
      exact apart.ne (Nat.ne_of_gt smaller)
    have text_eq : String.join (numbers.map rows) ++ "" = text := by
      rw [String.append_empty, holds.whole]
    have extended := extend apart growing holds.files
      (fun p outside => holds.others p fun k member => outside k (List.mem_append_left _ member))
      text_eq more
    rw [fresh]
    simpa using ⟨_, extended⟩
  | none =>
    simp only [Option.toList_none, List.append_nil] at growing last ⊢
    obtain ⟨front, rfl⟩ := List.getLast?_eq_some_iff.mp last
    have there : now (r.path n) = some (header ++ rows n) := holds.files n (by simp)
    have filled : header ++ rows n ≠ "" := by simp [header_ne_empty]
    have text_eq : String.join (front.map rows) ++ rows n = text := by
      rw [← holds.whole]
      simp [String.join_append]
    have extended := extend apart growing
      (fun m member => holds.files m (List.mem_append_left _ member)) holds.others text_eq more
    rw [there, Option.getD_some, if_neg filled, String.empty_append, String.append_assoc]
    exact ⟨_, extended⟩

end Rotation.Holds

section Site

variable [LawfulListing S]

/-- A path that names a file in a directory, written as the directory lists it, where at
first no file has a name of the rotation. -/
structure Site (S : Type) [Storage S] [LawfulListing S] (path : String)
    (before : String → Option String) : Prop where
  named : ∃ name, Path.fileName? path = some name
  plain : (Rotation.ofPath path).path 0 = path
  inside : ∀ n, LawfulListing.Inside S (Rotation.ofPath path).home ((Rotation.ofPath path).path n)
  clear : ∀ p, LawfulListing.Inside S (Rotation.ofPath path).home p → (before p).isSome →
    (Rotation.ofPath path).ordinal? p = none

namespace Site

variable {path : String} {before start : String → Option String} {numbers : List Nat}
  {rows : Nat → String} {text : String}

theorem ordinal? (site : Site S path before) {n : Nat} (small : n < 2 ^ 32) :
    (Rotation.ofPath path).ordinal? ((Rotation.ofPath path).path n) = some n := by
  obtain ⟨name, named⟩ := site.named
  exact Rotation.ordinal?_path named small

theorem absent (site : Site S path before) {n : Nat} (small : n < 2 ^ 32) :
    before ((Rotation.ofPath path).path n) = none := by
  by_contra there
  have taken := site.clear _ (site.inside n) (Option.isSome_iff_ne_none.mpr there)
  rw [site.ordinal? small] at taken
  cases taken

theorem written (site : Site S path before)
    (holds : (Rotation.ofPath path).Holds before start numbers rows text) {p : String} {n : Nat}
    (inside : LawfulListing.Inside S (Rotation.ofPath path).home p) (there : (start p).isSome)
    (number : (Rotation.ofPath path).ordinal? p = some n) (small : ∀ n ∈ numbers, n < 2 ^ 32) :
    n ∈ numbers ∧ p = (Rotation.ofPath path).path n := by
  by_cases mine : ∃ m ∈ numbers, p = (Rotation.ofPath path).path m
  · obtain ⟨m, member, rfl⟩ := mine
    rw [site.ordinal? (small m member)] at number
    cases number
    exact ⟨member, rfl⟩
  · have foreign := holds.others p fun m member same => mine ⟨m, member, same⟩
    rw [foreign] at there
    rw [site.clear p inside there] at number
    cases number

theorem numbers_eq (site : Site S path before)
    (holds : (Rotation.ofPath path).Holds before start numbers rows text)
    (small : ∀ n ∈ numbers, n < 2 ^ 32) {found : List String} (once : found.Nodup)
    (shown : ∀ p, p ∈ found ↔
      LawfulListing.Inside S (Rotation.ofPath path).home p ∧ (start p).isSome) :
    (Rotation.ofPath path).numbers found = numbers := by
  have growing : ((Rotation.ofPath path).numbers found).Pairwise (· < ·) := by
    refine Table.numbers_growing _ once fun p listed q listed' n number number' => ?_
    obtain ⟨inside, there⟩ := (shown p).mp listed
    obtain ⟨inside', there'⟩ := (shown q).mp listed'
    rw [(site.written holds inside there number small).2,
      (site.written holds inside' there' number' small).2]
  have members (n : Nat) : n ∈ (Rotation.ofPath path).numbers found ↔ n ∈ numbers := by
    rw [Rotation.numbers, (List.mergeSort_perm _ _).mem_iff, List.mem_filterMap]
    constructor
    · rintro ⟨p, listed, number⟩
      obtain ⟨inside, there⟩ := (shown p).mp listed
      exact (site.written holds inside there number small).1
    · intro member
      refine ⟨_, (shown _).mpr ⟨site.inside n, ?_⟩, site.ordinal? (small n member)⟩
      rw [holds.files n member]
      rfl
  exact growing.eq_of_mem_iff holds.growing members

end Site

/-- The files of a table hold one text with what waits, where the last file may be
planned only. -/
def Files.Resume (path : String) (before now : String → Option String)
    (prior waiting logged : String) (f : Files) : Prop :=
  ∃ (numbers : List Nat) (planned : Option Nat) (rows : Nat → String) (flushed : String),
    f.Numbered path (numbers ++ planned.toList) ∧
    (Rotation.ofPath path).Holds before now numbers rows (prior ++ flushed) ∧
    flushed ++ waiting = logged

/-- What a table starts with: files that hold a text. -/
structure Opening (path : String) (before start : String → Option String) (prior : String) :
    Prop where
  written : ∃ (numbers : List Nat) (rows : Nat → String), (∀ n ∈ numbers, n < 2 ^ 32) ∧
    (Rotation.ofPath path).Holds before start numbers rows prior

/-- What every table keeps that works on such files, as long as the numbers suffice. -/
structure Table.Resuming (settings : Settings) (machine : String)
    (before start : String → Option String) (prior : String) (logged : List String)
    (g : Stage S Table) : Prop where
  settings_same : g.state.settings = settings
  machine_same : g.state.machine = machine
  tidy : LawfulListing.Tidy g.world.store
  unknown : g.state.files = none →
    content? g.world.store = start ∧ g.state.buffer = String.join logged
  known : ∀ f, g.state.files = some f → f.next < 2 ^ 32 →
    f.Resume settings.path before (content? g.world.store) prior g.state.buffer (String.join logged)

omit [LawfulListing S] in
theorem Table.next_le_grow (t : Table) (files : Files) (size : Nat) :
    files.next ≤ (t.grow files size).next := by
  unfold grow
  split
  · exact Nat.le_succ _
  · exact Nat.le_refl _

namespace Table.Resuming

variable {settings : Settings} {machine : String} {before start : String → Option String}
  {prior : String} {logged : List String} {g : Stage S Table}

theorem finds (resuming : Resuming settings machine before start prior logged g)
    (site : Site S settings.path before) (opening : Opening settings.path before start prior)
    {files : Files} (finds : g.state.Finds g.world.store files) (small : files.next < 2 ^ 32) :
    files.Resume settings.path before (content? g.world.store) prior g.state.buffer
      (String.join logged) := by
  unfold Finds at finds
  cases known : g.state.files with
  | some f =>
    rw [known] at finds
    subst finds
    exact resuming.known _ known small
  | none =>
    rw [known] at finds
    obtain ⟨found, once, shown, rfl⟩ := finds
    obtain ⟨content, waiting⟩ := resuming.unknown known
    obtain ⟨numbers, rows, bounded, holds⟩ := opening.written
    rw [content, resuming.settings_same] at shown
    have listed := site.numbers_eq holds bounded once shown
    have set : (adopt (.ofPath settings.path) settings.path found).Numbered settings.path _ :=
      adopt_numbered (listed ▸ holds.growing)
    rw [listed] at set
    rw [content, waiting, rotation, resuming.settings_same]
    by_cases first : numbers = []
    · rw [if_pos first] at set
      exact ⟨numbers, some 0, rows, "", by simpa [first] using set, by simpa using holds, by simp⟩
    · rw [if_neg first] at set
      exact ⟨numbers, none, rows, "", by simpa using set, by simpa using holds, by simp⟩

/-- Behind the last file the text goes on with what waits, and the next file is planned
where this one is too large now. -/
theorem flushed {t : Table} {files : Files} {now : String → Option String}
    {waiting logged current : String} (size : Nat) (same : t.settings = settings)
    (site : Site S settings.path before) (small : (t.grow files size).next < 2 ^ 32)
    (resume : files.Resume settings.path before now prior waiting logged)
    (last : files.paths.getLast? = some current) :
    (t.grow files size).Resume settings.path before
      (Function.update now current (some ((now current).getD "" ++
        ((if (now current).getD "" = "" then header else "") ++ waiting)))) prior "" logged := by
  obtain ⟨numbers, planned, rows, flushed, numbered, holds, whole⟩ := resume
  rw [numbered.paths_eq site.plain, List.getLast?_map] at last
  obtain ⟨n, ends, rfl⟩ := Option.map_eq_some_iff.mp last
  have upTo := next_le_grow t files size
  have bound : n < 2 ^ 32 := by
    have below := numbered.below n (List.mem_of_getLast? ends)
    omega
  obtain ⟨rows', holds'⟩ := holds.put (Rotation.path_injective settings.path)
    numbered.growing ends (site.absent bound) waiting
  rw [String.append_assoc] at holds'
  have whole' : flushed ++ waiting ++ "" = logged := by rw [String.append_empty, whole]
  by_cases large : t.settings.maxFileSize < size
  · rw [grow_rotated files large, same]
    exact ⟨_, some files.next, rows', _, numbered.next, holds', whole'⟩
  · rw [grow_stays files (Nat.le_of_not_lt large)]
    exact ⟨_, none, rows', _, by simpa using numbered, holds', whole'⟩

theorem attempt (resuming : Resuming settings machine before start prior logged g)
    (site : Site S settings.path before) (opening : Opening settings.path before start prior) :
    Resuming settings machine before start prior logged (Table.attempt g).2 := by
  have tidy := g.state.write_tidy resuming.tidy
  have resume {files : Files} (finds : g.state.Finds g.world.store files) :=
    resuming.finds site opening finds
  have cases := g.state.write_cases resuming.tidy
  unfold Table.attempt Stage.onStore
  generalize g.state.write g.world.store = result at tidy cases
  cases cases with
  | idle => exact resuming
  | unknown same =>
    refine ⟨resuming.settings_same, resuming.machine_same, tidy, fun unread => ?_,
      fun f known small => ?_⟩
    · exact ⟨same.trans (resuming.unknown unread).1, (resuming.unknown unread).2⟩
    · rw [same]
      exact resuming.known f known small
  | refused finds same =>
    refine ⟨resuming.settings_same, resuming.machine_same, tidy, nofun, fun f known small => ?_⟩
    obtain rfl := Option.some.inj known
    rw [same]
    exact resume finds small
  | nowhere finds _ same =>
    refine ⟨resuming.settings_same, resuming.machine_same, tidy, nofun, fun f known small => ?_⟩
    obtain rfl := Option.some.inj known
    rw [same]
    exact resume finds small
  | flushed finds _ last written =>
    refine ⟨resuming.settings_same, resuming.machine_same, tidy, nofun, fun f known small => ?_⟩
    obtain rfl := Option.some.inj known
    rw [written]
    refine flushed _ resuming.settings_same site small (resume finds ?_) last
    exact Nat.lt_of_le_of_lt (next_le_grow _ _ _) small

theorem log (r : Record) (resuming : Resuming settings machine before start prior logged g) :
    Resuming settings machine before start prior
      (logged ++ (r.event?.map (row machine g.world.wall)).toList)
      (Work.accept (κ := Pause) r g) := by
  obtain ⟨id, severity, payload⟩ := r
  cases payload with
  | message text => simpa [Record.event?, Work.accept, add] using resuming
  | event e =>
    have joined (text : String) : String.join (logged ++ [text]) = String.join logged ++ text := by
      simp [String.join_append]
    have same : (Work.accept (κ := Pause) ⟨id, severity, .event e⟩ g).state =
        { g.state with buffer := g.state.buffer ++ row machine g.world.wall e } := by
      simp [Work.accept, add, resuming.machine_same]
    refine ⟨resuming.settings_same, resuming.machine_same, resuming.tidy, fun unread => ?_,
      fun f known small => ?_⟩
    · obtain ⟨content, waiting⟩ := resuming.unknown unread
      refine ⟨content, ?_⟩
      rw [same]
      simp only [Record.event?, Option.map_some, Option.toList_some, joined, waiting]
    · obtain ⟨numbers, planned, rows, flushed, numbered, holds, whole⟩ :=
        resuming.known f known small
      refine ⟨numbers, planned, rows, flushed, numbered, holds, ?_⟩
      rw [same]
      simp only [Record.event?, Option.map_some, Option.toList_some, joined, ← whole,
        String.append_assoc]

end Table.Resuming

/-- Whoever writes, in whichever order, goes on with the text. -/
theorem Table.keeps_resuming {settings : Settings} {before start : String → Option String}
    {prior : String} (site : Site S settings.path before)
    (opening : Opening settings.path before start prior) (machine : String) (logged : List String) :
    Keeps (S := S)
      (fun g (_ : List Pause) => Resuming settings machine before start prior logged g)
      (fun g _ => Resuming settings machine before start prior logged g) (fun _ _ => True) where
  perm _ kept := kept
  surroundings {g g' _} state store kept := by
    obtain ⟨settings_same, machine_same, tidy, unknown, known⟩ := kept
    refine ⟨?_, ?_, ?_, ?_, ?_⟩
    · rwa [state]
    · rwa [state]
    · rwa [store]
    · rwa [state, store]
    · rwa [state, store]
  notice kept := kept
  begin now kept := Service.continues_attempts _ now
    (fun _ kept => ⟨trivial, kept.attempt site opening⟩) (fun _ _ kept => kept) _ _ kept
  resume now kept _ := Service.continues_attempts _ now
    (fun _ kept => ⟨trivial, kept.attempt site opening⟩) (fun _ _ kept => kept) _ _ kept
  abandon kept := kept

def Table.used (settings : Settings) (machine : String) (w : World S) (actions : List Action) :
    Use S Table Pause :=
  (Use.ofState (.ofSettings settings machine) w).run actions

/-- What one table took in, and what of it still waited when it was left. -/
structure Shift where
  logged : String
  waiting : String

def Shift.ofUse (settings : Settings) (machine : String) (w : World S) (actions : List Action) :
    Shift where
  logged := String.join ((Use.ofState (.ofSettings settings machine) w).seen
    (Use.atRecords (Table.rowOf machine)) actions)
  waiting := (Table.used settings machine w actions).state.buffer

/-- Tables for one path that were in use one after another, each over what the one before
it left. Their settings, their use and the failures of the storage are their own. -/
inductive Relay (path : String) (first : S) : List Shift → S → Prop
  | rest : Relay path first [] first
  | next {shifts : List Shift} {left : S} (before : Relay path first shifts left)
    (settings : Settings) (machine : String) (w : World S) (actions : List Action)
    (here : settings.path = path) (same : content? w.store = content? left)
    (tidy : LawfulListing.Tidy w.store)
    (small : ∀ f, (Table.used settings machine w actions).state.files = some f → f.next < 2 ^ 32) :
    Relay path first (shifts ++ [.ofUse settings machine w actions])
      (Table.used settings machine w actions).world.store

/-- What a table leaves behind: the text that it found, with what it took in and does not
wait any more. -/
theorem Table.used_opening {settings : Settings} {before : String → Option String} {prior : String}
    (machine : String) (w : World S) (actions : List Action) (tidy : LawfulListing.Tidy w.store)
    (site : Site S settings.path before)
    (opening : Opening settings.path before (content? w.store) prior)
    (small : ∀ f, (used settings machine w actions).state.files = some f → f.next < 2 ^ 32) :
    ∃ flushed, flushed ++ (Shift.ofUse settings machine w actions).waiting =
        (Shift.ofUse settings machine w actions).logged ∧
      Opening settings.path before (content? (used settings machine w actions).world.store)
        (prior ++ flushed) := by
  have fresh : Resuming settings machine before (content? w.store) prior []
      (⟨.ofSettings settings machine, .standard, w⟩ : Stage S Table) :=
    ⟨rfl, rfl, tidy, fun _ => ⟨rfl, rfl⟩, nofun⟩
  obtain ⟨resuming, _⟩ := Use.run_of_keeps (keeps_resuming site opening machine)
    (fun h u r kept => kept.log r) fresh actions
  cases known : (used settings machine w actions).state.files with
  | none =>
    obtain ⟨content, waiting⟩ := resuming.unknown known
    refine ⟨"", String.empty_append.trans waiting, ?_⟩
    rw [String.append_empty]
    exact content.symm ▸ opening
  | some f =>
    obtain ⟨numbers, planned, rows, flushed, numbered, holds, whole⟩ :=
      resuming.known f known (small f known)
    refine ⟨flushed, whole, numbers, rows, fun n member => ?_, holds⟩
    exact Nat.lt_trans (numbered.below n (List.mem_append_left _ member)) (small f known)

/-- However many tables are in use one after another, in whichever way: the files of the
rotation that are there each begin with one header, and behind the headers they hold, in
the order of their numbers, what each table took in until what still waited in it, table
by table. No other file changes. -/
theorem Relay.continues {path : String} {first last : S} {shifts : List Shift}
    (site : Site S path (content? first)) (relay : Relay path first shifts last) :
    ∃ (flushed : List String) (numbers : List Nat) (rows : Nat → String),
      List.Forall₂ (fun text shift => text ++ shift.waiting = shift.logged) flushed shifts ∧
      numbers.Pairwise (· < ·) ∧
      (∀ n < 2 ^ 32, (content? last ((Rotation.ofPath path).path n)).isSome ↔ n ∈ numbers) ∧
      (∀ n ∈ numbers, n < 2 ^ 32 ∧
        content? last ((Rotation.ofPath path).path n) = some (header ++ rows n)) ∧
      String.join (numbers.map rows) = String.join flushed ∧
      ∀ p, (∀ n < 2 ^ 32, p ≠ (Rotation.ofPath path).path n) →
        content? last p = content? first p := by
  have steps : ∃ flushed : List String,
      List.Forall₂ (fun text shift => text ++ shift.waiting = shift.logged) flushed shifts ∧
      Opening path (content? first) (content? last) (String.join flushed) := by
    induction relay with
    | rest => exact ⟨[], .nil, [], _, by simp, .nothing _ _⟩
    | next before settings machine w actions here same tidy small ih =>
      obtain ⟨flushed, parts, opening⟩ := ih
      subst here
      obtain ⟨text, whole, opening⟩ := Table.used_opening machine w actions tidy site
        (same ▸ opening) small
      refine ⟨flushed ++ [text], List.rel_append parts (.cons whole .nil), ?_⟩
      simpa [String.join_append] using opening
  obtain ⟨flushed, parts, numbers, rows, small, holds⟩ := steps
  refine ⟨flushed, numbers, rows, parts, holds.growing,
    fun n bound => ⟨fun there => ?_, fun member => ?_⟩,
    fun n member => ⟨small n member, holds.files n member⟩, holds.whole,
    fun p outside => holds.others p fun n member => outside n (small n member)⟩
  · exact (site.written holds (site.inside n) there (site.ordinal? bound) small).1
  · rw [holds.files n member]
    rfl

theorem inside_of_names {path name : String} (dir : String)
    (named : Path.fileName? path = some name)
    (home : (Rotation.ofPath path).dir = dir) (plain : Path.IsName dir) (n : Nat) :
    LawfulListing.Inside MemoryStore (Rotation.ofPath path).home
      ((Rotation.ofPath path).path n) := by
  have filled : dir ≠ "" := fun same => plain.nonempty (by simp [same])
  have point : dir ≠ "." := fun same => plain.not_point (by simp [same])
  show MemoryStore.liesIn _ _ = true
  simp only [Rotation.home, home, filled, if_false, Rotation.path, MemoryStore.liesIn, point,
    Path.parent?_join plain (Rotation.isName_name named n), Path.same, beq_self_eq_true]

/-- Two tables write one row each, the second one after an append that failed. -/
theorem Relay.continues_over_two :
    let store := MemoryStore.ofFiles [("notes.txt", "x")]
    let settings : Settings := { Settings.standard with path := "logs/m.csv", maxFileSize := 10 }
    let record : Record := ⟨.named "metric", .standard, .event (.ofActivity .nil)⟩
    let w : World MemoryStore := .ofStore store
    let actions : List Action := [.log record, .flush 0 (Span.ofMillis 5000)]
    let left := (Table.used settings "host" w actions).world.store
    let w' : World MemoryStore := { World.ofStore (left.failNext .append 1) with wall := ⟨60, 0⟩ }
    let actions' : List Action := [.log record, .flush 0 (Span.ofMillis 5000), .callOn 1000]
    let last := (Table.used settings "host" w' actions').world.store
    let shift := Shift.ofUse settings "host" w actions
    let shift' := Shift.ofUse settings "host" w' actions'
    Site MemoryStore "logs/m.csv" (content? store) ∧
      Relay "logs/m.csv" store [shift, shift'] last ∧
      ∃ (numbers : List Nat) (rows : Nat → String), numbers.Pairwise (· < ·) ∧
        (∀ n ∈ numbers, content? last ((Rotation.ofPath "logs/m.csv").path n) =
          some (header ++ rows n)) ∧
        String.join (numbers.map rows) = shift.logged ++ shift'.logged := by
  intro store settings record w actions left w' actions' last shift shift'
  have named : Path.fileName? "logs/m.csv" = some "m.csv" := by decide +kernel
  have site : Site MemoryStore "logs/m.csv" (content? store) := by
    refine ⟨⟨_, named⟩, by decide +kernel, inside_of_names "logs" named (by decide +kernel)
      ⟨by decide, by decide, by decide, by decide⟩, fun p _ there => ?_⟩
    have only : p = "notes.txt" := by
      simpa [store, MemoryStore.keys, MemoryStore.ofFiles] using (store.isSome_content? p).mp there
    subst only
    decide +kernel
  have tidy : LawfulListing.Tidy store := by
    show store.keys.Nodup
    decide +kernel
  have tidy' : LawfulListing.Tidy (left.failNext .append 1) := by
    show (left.failNext .append 1).keys.Nodup
    decide +kernel
  have small : ∀ f ∈ (Table.used settings "host" w actions).state.files, f.next < 2 ^ 32 := by
    decide +kernel
  have small' : ∀ f ∈ (Table.used settings "host" w' actions').state.files, f.next < 2 ^ 32 := by
    decide +kernel
  have relay : Relay "logs/m.csv" store [shift, shift'] last :=
    .next (.next .rest settings "host" w actions rfl rfl tidy small)
      settings "host" w' actions' rfl rfl tidy' small'
  obtain ⟨flushed, numbers, rows, parts, growing, _, files, whole, _⟩ := relay.continues site
  have empty : shift.waiting = "" := by decide +kernel
  have empty' : shift'.waiting = "" := by decide +kernel
  obtain ⟨text, rest, first, others, rfl⟩ := List.forall₂_cons_right_iff.mp parts
  obtain ⟨text', nothing, second, rest, rfl⟩ := List.forall₂_cons_right_iff.mp others
  obtain rfl := List.forall₂_nil_right_iff.mp rest
  rw [empty, String.append_empty] at first
  rw [empty', String.append_empty] at second
  refine ⟨site, relay, numbers, rows, growing, fun n member => (files n member).2, ?_⟩
  rw [whole, first, second]
  simp

end Site
end Telemetry.Csv
