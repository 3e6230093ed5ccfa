import Mathlib.Data.List.Infix
import Mathlib.Data.List.Nodup
import Telemetry.Proofs.Csv.Ordinals
import Telemetry.Proofs.Csv.Writing
import Telemetry.Proofs.Sink.Keeping

/-! The files of a table stand in the order of their numbers, and only the last one
grows. Every action leaves all files as they are, or puts all that waits behind the
last one, which the next file replaces once it is larger than the limit. So a file
that was left behind stays as it is for good. -/
namespace Telemetry.Csv
open Service (Use Keeps Action record_or_not)

variable {S : Type} [Storage S]
open LawfulStorage (content?)

/-- The file with a number, where the first one may be called by the path itself. -/
def Rotation.place (path first : String) (n : Nat) : String :=
  if n = 0 then first else (Rotation.ofPath path).path n

def Rotation.numbers (r : Rotation) (found : List String) : List Nat :=
  (found.filterMap r.ordinal?).mergeSort

/-- A set has the files with certain numbers, in their order, and the next number is
behind them all. -/
structure Files.Numbered (path : String) (f : Files) (numbers : List Nat) : Prop where
  named : ∃ first, (first = path ∨ first = (Rotation.ofPath path).path 0) ∧
    f.paths = numbers.map (Rotation.place path first)
  nonempty : numbers ≠ []
  growing : numbers.Pairwise (· < ·)
  below : ∀ n ∈ numbers, n < f.next

theorem Rotation.place_injective {path first : String}
    (start : first = path ∨ first = (Rotation.ofPath path).path 0) :
    Function.Injective (Rotation.place path first) := by
  have apart {n : Nat} (later : n ≠ 0) : (Rotation.ofPath path).path n ≠ first := by
    rcases start with rfl | rfl
    · exact path_ne_configured _ later
    · exact fun same => later (path_injective _ same)
  intro m n same
  unfold Rotation.place at same
  split at same <;> split at same
  · omega
  · rename_i later
    exact absurd same.symm (apart later)
  · rename_i later _
    exact absurd same (apart later)
  · exact path_injective path same

namespace Files.Numbered

variable {path : String} {f : Files} {numbers : List Nat}

theorem last_apart (numbered : f.Numbered path numbers) {current : String}
    (last : f.paths.getLast? = some current) : current ∉ f.paths.dropLast := by
  obtain ⟨first, start, paths⟩ := numbered.named
  have once : f.paths.Nodup := by
    rw [paths]
    exact List.Nodup.map (Rotation.place_injective start) (numbered.growing.imp Nat.ne_of_lt)
  obtain ⟨front, parts⟩ := List.getLast?_eq_some_iff.mp last
  rw [parts] at once ⊢
  rw [List.dropLast_concat]
  intro member
  exact (List.nodup_append.mp once).2.2 _ member _ (List.mem_singleton_self _) rfl

theorem paths_ne_nil (numbered : f.Numbered path numbers) : f.paths ≠ [] := by
  obtain ⟨first, _, paths⟩ := numbered.named
  simpa [paths] using numbered.nonempty

theorem paths_eq (numbered : f.Numbered path numbers)
    (plain : (Rotation.ofPath path).path 0 = path) :
    f.paths = numbers.map (Rotation.ofPath path).path := by
  obtain ⟨first, start, paths⟩ := numbered.named
  have first_eq : first = (Rotation.ofPath path).path 0 := start.elim (·.trans plain.symm) id
  rw [paths]
  refine List.map_congr_left fun n _ => ?_
  unfold Rotation.place
  split
  · rename_i zero
    rw [zero, first_eq]
  · rfl

theorem next (numbered : f.Numbered path numbers) :
    (Files.mk (f.paths ++ [(Rotation.ofPath path).path f.next]) (f.next + 1)).Numbered path
      (numbers ++ [f.next]) := by
  obtain ⟨first, start, paths⟩ := numbered.named
  have later : f.next ≠ 0 := by
    obtain ⟨n, member⟩ := List.exists_mem_of_ne_nil _ numbered.nonempty
    exact Nat.ne_of_gt (Nat.lt_of_le_of_lt (Nat.zero_le n) (numbered.below n member))
  refine ⟨⟨first, start, ?_⟩, by simp, ?_, fun n member => ?_⟩
  · rw [List.map_append, paths]
    simp [Rotation.place, later]
  · refine List.pairwise_append.mpr ⟨numbered.growing, List.pairwise_singleton _ _, ?_⟩
    intro n member m last
    rw [List.mem_singleton.mp last]
    exact numbered.below n member
  · rcases List.mem_append.mp member with old | new
    · exact Nat.lt_succ_of_lt (numbered.below n old)
    · exact Nat.lt_succ_of_le (Nat.le_of_eq (List.mem_singleton.mp new))

end Files.Numbered

namespace Table

theorem numbers_growing (r : Rotation) {found : List String} (once : found.Nodup)
    (single : ∀ p ∈ found, ∀ q ∈ found, ∀ n,
      r.ordinal? p = some n → r.ordinal? q = some n → p = q) :
    (r.numbers found).Pairwise (· < ·) := by
  have sorted : (r.numbers found).Pairwise (· ≤ ·) := by
    simpa [Rotation.numbers] using @List.pairwise_mergeSort Nat (fun a b => decide (a ≤ b))
      (fun a b c => by simpa using Nat.le_trans) (fun a b => by simpa using Nat.le_total a b)
      (found.filterMap r.ordinal?)
  have distinct : (found.filterMap r.ordinal?).Nodup := by
    refine List.pairwise_filterMap.mpr (once.imp_of_mem ?_)
    rintro p q listed listed' apart n number _ number' rfl
    exact apart (single p listed q listed' n number number')
  have distinct' := (List.mergeSort_perm _ fun a b => decide (a ≤ b)).nodup_iff.mpr distinct
  exact (sorted.and distinct').imp fun both => Nat.lt_of_le_of_ne both.1 both.2

/-- The files that are found keep their numbers; where none is, the first one comes. -/
theorem adopt_numbered {path : String} {found : List String}
    (growing : ((Rotation.ofPath path).numbers found).Pairwise (· < ·)) :
    (adopt (.ofPath path) path found).Numbered path
      (if (Rotation.ofPath path).numbers found = [] then [0]
        else (Rotation.ofPath path).numbers found) := by
  have adopted : adopt (.ofPath path) path found =
      (((Rotation.ofPath path).numbers found).getLast?.elim ⟨[path], 1⟩ fun last =>
        ⟨((Rotation.ofPath path).numbers found).map (Rotation.ofPath path).path, last + 1⟩) := by
    unfold adopt Rotation.numbers
    dsimp only
    cases ((found.filterMap (Rotation.ofPath path).ordinal?).mergeSort).getLast? <;> rfl
  rw [adopted]
  generalize (Rotation.ofPath path).numbers found = numbers at growing
  cases ends : numbers.getLast? with
  | none =>
    rw [if_pos (List.getLast?_eq_none_iff.mp ends)]
    exact ⟨⟨path, .inl rfl, rfl⟩, by simp, List.pairwise_singleton _ _, by simp⟩
  | some last =>
    obtain ⟨front, rfl⟩ := List.getLast?_eq_some_iff.mp ends
    rw [if_neg (by simp)]
    refine ⟨⟨_, .inr rfl, ?_⟩, by simp, growing, fun n member => ?_⟩
    · refine List.map_congr_left fun n _ => ?_
      unfold Rotation.place
      split
      · rename_i zero
        rw [zero]
      · rfl
    · rcases List.mem_append.mp member with earlier | current
      · have order := (List.pairwise_append.mp growing).2.2 n earlier last
        exact Nat.lt_succ_of_lt (order (List.mem_singleton_self _))
      · exact Nat.lt_succ_of_le (Nat.le_of_eq (List.mem_singleton.mp current))

/-- No file was written: all are as they were, what waited waits, and the files of the
table that were known are the same. -/
structure Unwritten (t t' : Table) (before after : String → Option String) : Prop where
  same : after = before
  waiting : ∃ more, t'.buffer = t.buffer ++ more
  known : ∀ f, t.files = some f → t'.files = some f

/-- All that waited was put behind the last file of the set, the header before it where
the file was empty, and no other file changed. The next file stands behind the set
exactly where the last one is now larger than the limit. -/
structure Flushed (t t' : Table) (files : Files) (current : String)
    (before after : String → Option String) : Prop where
  filled : t.buffer ≠ ""
  known : ∀ f, t.files = some f → files = f
  last : files.paths.getLast? = some current
  written : after = Function.update before current (some ((before current).getD "" ++
    ((if (before current).getD "" = "" then header else "") ++ t.buffer)))
  emptied : t'.buffer = ""
  rotated : t.settings.maxFileSize < ((after current).getD "").utf8ByteSize →
    t'.files = some ⟨files.paths ++ [(Rotation.ofPath t.settings.path).path files.next],
      files.next + 1⟩
  stays : ((after current).getD "").utf8ByteSize ≤ t.settings.maxFileSize →
    t'.files = some files

variable [LawfulListing S]

/-- Files of one directory have different names. -/
def OneNameEach (dir : String) (content : String → Option String) : Prop :=
  ∀ p q, LawfulListing.Inside S dir p → LawfulListing.Inside S dir q → (content p).isSome →
    (content q).isSome → Path.fileName? p = Path.fileName? q → p = q

/-- What every table keeps: its files are a numbered set, and as long as it does not
know them it has written none. -/
structure Rolling (settings : Settings) (before : String → Option String) (g : Stage S Table) :
    Prop where
  settings_same : g.state.settings = settings
  tidy : LawfulListing.Tidy g.world.store
  unknown : g.state.files = none → content? g.world.store = before
  numbered : ∀ f, g.state.files = some f → ∃ numbers, f.Numbered settings.path numbers

theorem oneNameEach_of_keys {store : MemoryStore} (dir : String)
    (different : ∀ p ∈ store.keys, ∀ q ∈ store.keys, Path.fileName? p = Path.fileName? q → p = q) :
    OneNameEach (S := MemoryStore) dir (content? store) := fun p q _ _ there there' =>
  different p ((store.isSome_content? p).mp there) q ((store.isSome_content? q).mp there')

variable {settings : Settings} {before : String → Option String} {g : Stage S Table}

theorem Rolling.finds (rolling : Rolling settings before g)
    (single : OneNameEach (S := S) settings.home before) {files : Files}
    (finds : g.state.Finds g.world.store files) :
    ∃ numbers, files.Numbered settings.path numbers := by
  unfold Finds at finds
  cases known : g.state.files with
  | some f =>
    rw [known] at finds
    exact finds ▸ rolling.numbered f known
  | none =>
    rw [known] at finds
    obtain ⟨found, once, shown, rfl⟩ := finds
    rw [rolling.unknown known, rolling.settings_same] at shown
    rw [rotation, rolling.settings_same]
    refine ⟨_, adopt_numbered
      (numbers_growing _ once fun p listed q listed' n number number' => ?_)⟩
    obtain ⟨inside, there⟩ := (shown p).mp listed
    obtain ⟨inside', there'⟩ := (shown q).mp listed'
    refine single p q inside inside' there there' ?_
    rw [(Rotation.fileName?_of_ordinal? _ number).1, (Rotation.fileName?_of_ordinal? _ number').1]

theorem grow_rotated {t : Table} {size : Nat} (files : Files)
    (large : t.settings.maxFileSize < size) :
    t.grow files size =
      ⟨files.paths ++ [(Rotation.ofPath t.settings.path).path files.next], files.next + 1⟩ :=
  if_pos large

theorem grow_stays {t : Table} {size : Nat} (files : Files)
    (small : size ≤ t.settings.maxFileSize) :
    t.grow files size = files :=
  if_neg (Nat.not_lt_of_le small)

theorem numbered_grow {t : Table} {files : Files} {numbers : List Nat} (size : Nat)
    (numbered : files.Numbered t.settings.path numbers) :
    ∃ numbers, (t.grow files size).Numbered t.settings.path numbers := by
  by_cases large : t.settings.maxFileSize < size
  · rw [grow_rotated files large]
    exact ⟨_, numbered.next⟩
  · rw [grow_stays files (Nat.le_of_not_lt large)]
    exact ⟨_, numbered⟩

/-- A writing keeps the set numbered. -/
theorem Rolling.attempt (rolling : Rolling settings before g)
    (single : OneNameEach (S := S) settings.home before) :
    Rolling settings before (Table.attempt g).2 := by
  have tidy := g.state.write_tidy rolling.tidy
  have numbered {files : Files} (finds : g.state.Finds g.world.store files) :=
    rolling.finds single finds
  have cases := g.state.write_cases rolling.tidy
  unfold Table.attempt Stage.onStore
  generalize g.state.write g.world.store = result at tidy cases
  cases cases with
  | idle => exact rolling
  | unknown same =>
    exact ⟨rolling.settings_same, tidy, fun unread => same.trans (rolling.unknown unread),
      rolling.numbered⟩
  | refused finds _ =>
    exact ⟨rolling.settings_same, tidy, nofun,
      fun f known => Option.some.inj known ▸ numbered finds⟩
  | nowhere finds _ _ =>
    exact ⟨rolling.settings_same, tidy, nofun,
      fun f known => Option.some.inj known ▸ numbered finds⟩
  | flushed finds _ _ _ =>
    refine ⟨rolling.settings_same, tidy, nofun, fun f known => ?_⟩
    obtain ⟨numbers, set⟩ := numbered finds
    rw [← rolling.settings_same] at set ⊢
    exact Option.some.inj known ▸ numbered_grow _ set

theorem Rolling.emptied (rolling : Rolling settings before g)
    (single : OneNameEach (S := S) settings.home before) (done : (Table.attempt g).1 = .ok ()) :
    (Table.attempt g).2.state.buffer = "" := by
  have cases := g.state.write_cases rolling.tidy
  unfold Table.attempt Stage.onStore at done ⊢
  generalize g.state.write g.world.store = result at cases done
  cases cases with
  | idle empty => exact empty
  | unknown => cases done
  | refused => cases done
  | nowhere finds nothing =>
    obtain ⟨numbers, set⟩ := rolling.finds single finds
    exact absurd nothing set.paths_ne_nil
  | flushed => rfl

/-- Between two stages all that waited was written to a numbered set. -/
def Flushes (settings : Settings) (ref g : Stage S Table) : Prop :=
  ∃ files current, (∃ numbers, files.Numbered settings.path numbers) ∧
    Flushed ref.state g.state files current (content? ref.world.store) (content? g.world.store)

/-- What became of the files since a moment, as long as no record was taken in. -/
def Since (settings : Settings) (ref g : Stage S Table) : Prop :=
  (Unwritten ref.state g.state (content? ref.world.store) (content? g.world.store) ∧
      g.state.buffer = ref.state.buffer) ∨
    Flushes settings ref g

theorem Since.flushes {ref : Stage S Table} (since : Since settings ref g)
    (filled : ref.state.buffer ≠ "") (emptied : g.state.buffer = "") : Flushes settings ref g := by
  obtain ⟨_, waiting⟩ | flushes := since
  · exact absurd (waiting.symm.trans emptied) filled
  · exact flushes

omit [LawfulListing S] in
theorem write_empty {t : Table} (store : S) (empty : t.buffer = "") :
    t.write store = (.ok (), t, store) :=
  if_pos empty

theorem Since.attempt {ref : Stage S Table} (same : ref.state.settings = settings)
    (rolling : Rolling settings before g) (single : OneNameEach (S := S) settings.home before)
    (since : Since settings ref g) : Since settings ref (Table.attempt g).2 := by
  obtain ⟨⟨content, _, kept⟩, waiting⟩ | ⟨files, current, numbered, flushed⟩ := since
  · have known {files : Files} (finds : g.state.Finds g.world.store files) (f : Files)
        (before : ref.state.files = some f) : files = f := by
      have there := kept f before
      simpa only [Finds, there] using finds
    have numbered {files : Files} (finds : g.state.Finds g.world.store files) :=
      rolling.finds single finds
    have unwritten {files : Files} {store : S} (finds : g.state.Finds g.world.store files)
        (unchanged : content? store = content? g.world.store) :
        Unwritten ref.state { g.state with files := some files } (content? ref.world.store)
          (content? store) :=
      ⟨unchanged.trans content, ⟨"", by simpa using waiting⟩,
        fun f before => congrArg some (known finds f before)⟩
    have cases := g.state.write_cases rolling.tidy
    unfold Table.attempt Stage.onStore
    generalize g.state.write g.world.store = result at cases
    cases cases with
    | idle => exact .inl ⟨⟨content, ⟨"", by simpa using waiting⟩, kept⟩, waiting⟩
    | unknown unchanged =>
      exact .inl ⟨⟨unchanged.trans content, ⟨"", by simpa using waiting⟩, kept⟩, waiting⟩
    | refused finds unchanged => exact .inl ⟨unwritten finds unchanged, waiting⟩
    | nowhere finds _ unchanged => exact .inl ⟨unwritten finds unchanged, waiting⟩
    | @flushed store' files current finds filled last written =>
      refine .inr ⟨files, current, numbered finds, ?_⟩
      have settings' : g.state.settings = ref.state.settings :=
        rolling.settings_same.trans same.symm
      have now : content? store' current =
          some (g.state.extended (content? g.world.store current)) := by
        rw [written, Function.update_self]
      refine ⟨waiting ▸ filled, known finds, last, ?_, rfl, fun large => ?_, fun small => ?_⟩
      · rw [written, content, ← waiting]
        rfl
      · rw [now, Option.getD_some, ← settings'] at large
        rw [← settings']
        exact congrArg some (grow_rotated files large)
      · rw [now, Option.getD_some, ← settings'] at small
        exact congrArg some (grow_stays files small)
  · have nothing : (Table.attempt g).2 = g := by
      unfold Table.attempt Stage.onStore
      rw [write_empty g.world.store flushed.emptied]
    rw [nothing]
    exact .inr ⟨files, current, numbered, flushed⟩

/-- Whoever writes, in whichever order, keeps the set and what became of the files. -/
theorem keeps_rolling {ref : Stage S Table} (same : ref.state.settings = settings)
    (single : OneNameEach (S := S) settings.home before) :
    Keeps (S := S) (fun g (_ : List Pause) => Rolling settings before g ∧ Since settings ref g)
      (fun g _ => Rolling settings before g ∧ Since settings ref g)
      (fun result g => result = .ok () → g.state.buffer = "") where
  perm _ kept := kept
  surroundings {g g' _} state store kept := by
    obtain ⟨⟨settings_same, tidy, unknown, numbered⟩, since⟩ := kept
    refine ⟨⟨?_, ?_, ?_, ?_⟩, ?_⟩
    · rwa [state]
    · rwa [store]
    · rwa [state, store]
    · rwa [state]
    · unfold Since Flushes
      rwa [state, store]
  notice kept := kept
  begin now kept := Service.continues_attempts _ now
    (fun _ kept =>
      ⟨kept.1.emptied single, kept.1.attempt single, kept.2.attempt same kept.1 single⟩)
    (fun _ _ kept => kept) _ _ kept
  resume now kept _ := Service.continues_attempts _ now
    (fun _ kept =>
      ⟨kept.1.emptied single, kept.1.attempt single, kept.2.attempt same kept.1 single⟩)
    (fun _ _ kept => kept) _ _ kept
  abandon kept := kept

/-- What an action does to the files of a table. -/
def Turned (settings : Settings) (u v : Use S Table Pause) : Prop :=
  Unwritten u.state v.state (content? u.world.store) (content? v.world.store) ∨
    Flushes settings u.stage v.stage

theorem Rolling.log {u : Use S Table Pause} (r : Record)
    (rolling : Rolling settings before u.stage) :
    Rolling settings before (u.step (.log r)).1.stage ∧
      Unwritten u.state (u.step (.log r)).1.state (content? u.world.store)
        (content? (u.step (.log r)).1.world.store) := by
  have same : (u.step (.log r)).1.stage = { u.stage with state := u.state.add u.world.wall r } :=
    u.stage_log r
  have parts : (u.state.add u.world.wall r).settings = u.state.settings ∧
      (u.state.add u.world.wall r).files = u.state.files ∧
      ∃ more, (u.state.add u.world.wall r).buffer = u.state.buffer ++ more := by
    unfold add
    split
    · exact ⟨rfl, rfl, _, rfl⟩
    · exact ⟨rfl, rfl, "", by simp⟩
  obtain ⟨settings_same, files, waiting⟩ := parts
  refine ⟨?_, ?_⟩
  · rw [same]
    exact ⟨settings_same.trans rolling.settings_same, rolling.tidy,
      fun unread => rolling.unknown (files ▸ unread),
      fun f known => rolling.numbered f (files ▸ known)⟩
  · exact ⟨rfl, waiting, fun f known => files.trans known⟩

theorem Since.still (settings : Settings) (g : Stage S Table) : Since settings g g :=
  .inl ⟨⟨rfl, ⟨"", by simp⟩, fun _ known => known⟩, rfl⟩

theorem Rolling.step {u : Use S Table Pause} (a : Action) (live : u.Live)
    (single : OneNameEach (S := S) settings.home before)
    (rolling : Rolling settings before u.stage) :
    Rolling settings before (u.step a).1.stage ∧ Turned settings u (u.step a).1 := by
  obtain ⟨r, rfl⟩ | noRecord := record_or_not a
  · exact ⟨(rolling.log r).1, .inl (rolling.log r).2⟩
  · have next := ((keeps_rolling rolling.settings_same single).step live noRecord
      ⟨rolling, .still settings u.stage⟩).kept
    exact ⟨next.1, next.2.imp And.left id⟩

/-- A call that says that it succeeded wrote all that waited, if anything did. -/
theorem Rolling.returned {u : Use S Table Pause} {a : Action} (live : u.Live)
    (single : OneNameEach (S := S) settings.home before) (rolling : Rolling settings before u.stage)
    (done : (u.step a).2 = some (.returned (.ok ()))) (filled : u.state.buffer ≠ "") :
    Flushes settings u.stage (u.step a).1.stage := by
  obtain ⟨emptied, _, since⟩ | ⟨⟨_, failed⟩, _⟩ :=
    (keeps_rolling rolling.settings_same single).returned live
      ⟨rolling, .still settings u.stage⟩ done
  · exact since.flushes filled (emptied rfl)
  · cases failed

/-- A file that was left behind stands before the last one of the set. -/
def LeftBehind (path : String) (t : Table) : Prop :=
  ∃ f, t.files = some f ∧ path ∈ f.paths.dropLast

theorem LeftBehind.turned {u v : Use S Table Pause} {path : String}
    (left : LeftBehind path u.state) (turned : Turned settings u v) :
    LeftBehind path v.state ∧ content? v.world.store path = content? u.world.store path := by
  obtain ⟨f, known, before⟩ := left
  obtain unwritten | ⟨files, current, ⟨numbers, numbered⟩, flushed⟩ := turned
  · exact ⟨⟨f, unwritten.known f known, before⟩, congrFun unwritten.same path⟩
  · obtain rfl := flushed.known f known
    have other : path ≠ current := fun same =>
      numbered.last_apart flushed.last (same ▸ before)
    refine ⟨?_, (congrFun flushed.written path).trans (Function.update_of_ne other _ _)⟩
    rcases Nat.lt_or_ge u.state.settings.maxFileSize
      ((content? v.world.store current).getD "").utf8ByteSize with large | small
    · refine ⟨_, flushed.rotated large, ?_⟩
      rw [List.dropLast_concat]
      exact List.mem_of_mem_dropLast before
    · exact ⟨_, flushed.stays small, before⟩

/-- A file that an action made larger than the limit is left behind by it. -/
theorem LeftBehind.of_turned {u v : Use S Table Pause} {path : String}
    (turned : Turned settings u v)
    (grew : content? v.world.store path ≠ content? u.world.store path)
    (large : u.state.settings.maxFileSize < ((content? v.world.store path).getD "").utf8ByteSize) :
    LeftBehind path v.state := by
  obtain unwritten | ⟨files, current, _, flushed⟩ := turned
  · exact absurd (congrFun unwritten.same path) grew
  · have same : path = current := by
      by_contra other
      exact grew ((congrFun flushed.written path).trans (Function.update_of_ne other _ _))
    subst same
    refine ⟨_, flushed.rotated large, ?_⟩
    rw [List.dropLast_concat]
    exact List.mem_of_getLast? flushed.last

theorem LeftBehind.run {path : String} {u : Use S Table Pause} (actions : List Action)
    (single : OneNameEach (S := S) settings.home before)
    (rolling : Rolling settings before u.stage) (live : u.Live) (left : LeftBehind path u.state) :
    content? (u.run actions).world.store path = content? u.world.store path := by
  induction actions generalizing u with
  | nil => rfl
  | cons a rest ih =>
    obtain ⟨rolling', turned⟩ := rolling.step a live single
    obtain ⟨left', same⟩ := left.turned turned
    exact (ih rolling' (u.live_step a live) left').trans same

theorem attempt_failed {g : Stage S Table} {fault : Fault}
    (tidy : LawfulListing.Tidy g.world.store) (failed : (Table.attempt g).1 = .error fault) :
    content? (Table.attempt g).2.world.store = content? g.world.store ∧
      (Table.attempt g).2.state.buffer = g.state.buffer ∧
      ∀ f, g.state.files = some f → (Table.attempt g).2.state.files = some f := by
  have cases := g.state.write_cases tidy
  unfold Table.attempt Stage.onStore at failed ⊢
  generalize g.state.write g.world.store = result at failed cases
  cases cases with
  | idle => cases failed
  | unknown same => exact ⟨same, rfl, fun _ known => known⟩
  | refused finds same =>
    refine ⟨same, rfl, fun f known => congrArg some ?_⟩
    simpa only [Finds, known] using finds
  | nowhere => cases failed
  | flushed => cases failed

/-- Of a table in any use, over any files and a storage whose requests may fail: its files
are a numbered set as soon as they are known. Every action leaves all files as they are or
puts all that waits behind the last one of the set, by the rules of `Flushed`, and does so
where a call or a writing succeeds and something waits. A file that an action made larger
than the limit never changes again. A writing that fails changes nothing. -/
theorem rotation_set_kept (settings : Settings) (machine : String) (w : World S)
    (tidy : LawfulListing.Tidy w.store)
    (single : OneNameEach (S := S) settings.home (content? w.store)) (actions : List Action) :
    let start : Use S Table Pause := .ofState (.ofSettings settings machine) w
    let now := start.run actions
    (∀ f, now.state.files = some f → f.paths ≠ [] ∧
      ∃ numbers, f.Numbered settings.path numbers) ∧
    (∀ a, Turned settings now (now.step a).1) ∧
    (∀ a, (now.step a).2 = some (.returned (.ok ())) → now.state.buffer ≠ "" →
      Flushes settings now.stage (now.step a).1.stage) ∧
    ((Table.attempt now.stage).1 = .ok () → now.state.buffer ≠ "" →
      Flushes settings now.stage (Table.attempt now.stage).2) ∧
    (∀ a path later, content? (now.step a).1.world.store path ≠ content? now.world.store path →
      settings.maxFileSize < ((content? (now.step a).1.world.store path).getD "").utf8ByteSize →
      content? ((now.step a).1.run later).world.store path =
        content? (now.step a).1.world.store path) ∧
    ∀ (g : Stage S Table) (fault : Fault), LawfulListing.Tidy g.world.store →
      (Table.attempt g).1 = .error fault →
      content? (Table.attempt g).2.world.store = content? g.world.store ∧
        (Table.attempt g).2.state.buffer = g.state.buffer ∧
        ∀ f, g.state.files = some f → (Table.attempt g).2.state.files = some f := by
  intro start now
  have fresh : Rolling settings (content? w.store) start.stage :=
    ⟨rfl, tidy, fun _ => rfl, nofun⟩
  obtain ⟨rolling, live⟩ : Rolling settings (content? w.store) now.stage ∧ now.Live :=
    Use.run_invariant (I := fun u => Rolling settings (content? w.store) u.stage ∧ u.Live)
      (fun u a kept => ⟨(kept.1.step a kept.2 single).1, u.live_step a kept.2⟩)
      actions ⟨fresh, Use.live_ofState _ w⟩
  have turned (a : Action) := (rolling.step a live single).2
  have since := (Since.still settings now.stage).attempt rolling.settings_same rolling single
  refine ⟨fun f known => ?_, turned, fun a => rolling.returned live single,
    fun done filled => since.flushes filled (rolling.emptied single done),
    fun a path later grew large => ?_, fun g fault tidy failed => attempt_failed tidy failed⟩
  · obtain ⟨numbers, numbered⟩ := rolling.numbered f known
    exact ⟨numbered.paths_ne_nil, numbers, numbered⟩
  · have limit : now.state.settings = settings := rolling.settings_same
    rw [← limit] at large
    exact (LeftBehind.of_turned (turned a) grew large).run later single
      (rolling.step a live single).1 (now.live_step a live)

/-- A set whose first files are missing is taken over, the row goes behind its last file,
and the file that comes of it is too large to be written to again. -/
theorem rotation_set_kept_from_seventh :
    let store := MemoryStore.ofFiles [("old/m.csv", "old"), ("logs/m_7.csv", "x")]
    let settings : Settings := { Settings.standard with path := "logs/m.csv", maxFileSize := 10 }
    let start : Use MemoryStore Table Pause :=
      .ofState (.ofSettings settings "host") (.ofStore store)
    let actions : List Action :=
      [.log ⟨.named "metric", .standard, .event (.ofActivity .nil)⟩]
    let now := start.run actions
    let flushed := (now.step (.flush 0 (Span.ofMillis 5000))).1
    LawfulListing.Tidy store ∧
      OneNameEach (S := MemoryStore) settings.home (content? store) ∧
      flushed.state.files = some ⟨["logs/m_7.csv", "logs/m_8.csv"], 9⟩ ∧
      Flushes settings now.stage flushed.stage ∧
      ∀ later, content? (flushed.run later).world.store "logs/m_7.csv" =
        content? flushed.world.store "logs/m_7.csv" := by
  intro store settings start actions now flushed
  have tidy : LawfulListing.Tidy store := by
    show store.keys.Nodup
    decide +kernel
  have single : OneNameEach (S := MemoryStore) settings.home (content? store) :=
    oneNameEach_of_keys settings.home (by decide +kernel)
  obtain ⟨_, _, flushes, _, leftBehind, _⟩ := rotation_set_kept settings "host" (.ofStore store)
    tidy single actions
  have grew : content? flushed.world.store "logs/m_7.csv" ≠
      content? now.world.store "logs/m_7.csv" := by
    decide +kernel
  have large : settings.maxFileSize <
      ((content? flushed.world.store "logs/m_7.csv").getD "").utf8ByteSize := by decide +kernel
  have done : (now.step (.flush 0 (Span.ofMillis 5000))).2 = some (.returned (.ok ())) := by
    decide +kernel
  have filled : now.state.buffer ≠ "" := by decide +kernel
  exact ⟨tidy, single, by decide +kernel, flushes _ done filled,
    fun later => leftBehind (.flush 0 (Span.ofMillis 5000)) _ later grew large⟩

end Table
end Telemetry.Csv
