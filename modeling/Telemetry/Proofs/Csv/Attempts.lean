import Telemetry.Csv.Sink
import Telemetry.Proofs.Storage.Lawful

/-! Attempts to write a table.
An attempt looks for files where none are known, and puts all that waits behind the last one.
Where a request of it fails, every file and what waits are as they were. -/
namespace Telemetry.Csv

/-- Files that belong to a path: there is a current one, and the next is new. -/
structure Files.Sound (path : String) (f : Files) : Prop where
  nonempty : f.paths ≠ []
  positive : 0 < f.next
  earlier : ∀ p ∈ f.paths, p = path ∨ ∃ n < f.next, p = (Rotation.ofPath path).path n

namespace Table

theorem adopt_sound (path : String) (found : List String) :
    (adopt (.ofPath path) path found).Sound path := by
  have sorted : ((found.filterMap (Rotation.ofPath path).ordinal?).mergeSort).Pairwise
      fun a b => a ≤ b := by
    have sorted := @List.pairwise_mergeSort Nat (fun a b => decide (a ≤ b))
      (fun a b c => by simpa using Nat.le_trans) (fun a b => by simpa using Nat.le_total a b)
      (found.filterMap (Rotation.ofPath path).ordinal?)
    simpa using sorted
  unfold adopt
  simp only
  split
  · exact ⟨by simp, by simp, fun p member => .inl (by simpa using member)⟩
  · rename_i last ends
    refine ⟨?_, Nat.succ_pos last, fun p member => .inr ?_⟩
    · intro nothing
      rw [List.map_eq_nil_iff] at nothing
      simp [nothing] at ends
    · obtain ⟨n, listed, rfl⟩ := List.mem_map.mp member
      obtain ⟨front, parts⟩ := List.getLast?_eq_some_iff.mp ends
      rw [parts] at sorted listed
      have upTo : n ≤ last := by
        rcases List.mem_append.mp listed with earlier | current
        · exact (List.pairwise_append.mp sorted).2.2 n earlier last (List.mem_singleton.mpr rfl)
        · exact Nat.le_of_eq (List.mem_singleton.mp current)
      exact ⟨n, Nat.lt_succ_of_le upTo, rfl⟩

def extended (t : Table) (old : Option String) : String :=
  old.getD "" ++ ((if old.getD "" = "" then header else "") ++ t.buffer)

theorem mem_grow {t : Table} {files : Files} {path : String} (size : Nat)
    (listed : path ∈ files.paths) : path ∈ (t.grow files size).paths := by
  unfold grow
  split
  · exact List.mem_append_left _ listed
  · exact listed

theorem grow_sound {t : Table} {files : Files} (size : Nat) (sound : files.Sound t.settings.path) :
    (t.grow files size).Sound t.settings.path := by
  unfold grow
  split
  · refine ⟨by simp, Nat.succ_pos _, fun p member => ?_⟩
    rcases List.mem_append.mp member with old | new
    · obtain configured | ⟨n, below, same⟩ := sound.earlier p old
      · exact .inl configured
      · exact .inr ⟨n, Nat.lt_succ_of_lt below, same⟩
    · exact .inr ⟨files.next, Nat.lt_succ_self _, List.mem_singleton.mp new⟩
  · exact sound

variable {S : Type} [Storage S] [LawfulStorage S]
open LawfulStorage (content?)

/-- The search for files leaves them as they are, finds those of the path and fails by input or
output only. -/
theorem findFiles_spec (t : Table) (store : S) :
    content? (t.findFiles store).2 = content? store ∧
      (∀ f, (t.findFiles store).1 = .ok f → f.Sound t.settings.path) ∧
      ∀ fault, (t.findFiles store).1 = .error fault → ∃ problem, fault = .io problem := by
  unfold findFiles
  simp only
  split
  · rename_i fault store' made
    obtain ⟨same, input_output⟩ := LawfulStorage.of_made made
    refine ⟨same, nofun, fun fault failed => input_output fault ?_⟩
    cases failed
    rfl
  · rename_i store' made
    have same := (LawfulStorage.of_made made).1
    have listed_same := LawfulStorage.listFiles_content?
      (if t.rotation.dir = "" then "." else t.rotation.dir) store'
    split
    · rename_i listed
      rw [listed] at listed_same
      refine ⟨listed_same.trans same, nofun, fun fault failed => ?_⟩
      cases failed
      exact LawfulStorage.listFiles_io (congrArg Prod.fst listed)
    · rename_i listed
      rw [listed] at listed_same
      refine ⟨listed_same.trans same, fun f found => ?_, nofun⟩
      cases found
      exact adopt_sound _ _

/-- The files of a table after it looked for them, which it does only where they are unknown. -/
def Opens (t : Table) (files : Option Files) : Prop :=
  files = t.files ∨ t.files = none ∧ ∃ f, files = some f ∧ f.Sound t.settings.path

theorem Opens.known {t : Table} {files : Option Files} (opens : t.Opens files) {f : Files}
    (there : t.files = some f) : files = some f := by
  rcases opens with same | ⟨unread, _⟩
  · rw [same, there]
  · rw [unread] at there
    cases there

theorem Opens.sound {t : Table} {files : Option Files} (opens : t.Opens files)
    (sound : ∀ f, t.files = some f → f.Sound t.settings.path) {f : Files}
    (there : files = some f) : f.Sound t.settings.path := by
  rcases opens with rfl | ⟨_, f', rfl, sound'⟩
  · exact sound f there
  · cases there
    exact sound'

/-- All that an attempt to write can give: its result, the table and the storage. -/
inductive Attempted (t : Table) (store : S) : Except Fault Unit × Table × S → Prop
  | idle (empty : t.buffer = "") : Attempted t store (.ok (), t, store)
  | failed {problem : String} {store' : S} {files : Option Files} (opens : t.Opens files)
    (same : content? store' = content? store) :
    Attempted t store (.error (.io problem), { t with files := files }, store')
  | nowhere {store' : S} {files : Files} (opens : t.Opens (some files)) (nothing : files.paths = [])
    (same : content? store' = content? store) :
    Attempted t store (.ok (), { t with files := some files }, store')
  | flushed {store' : S} {files : Files} {current : String} {size : Nat}
    (opens : t.Opens (some files)) (filled : t.buffer ≠ "")
    (last : files.paths.getLast? = some current)
    (written : content? store' =
      Function.update (content? store) current (some (t.extended (content? store current)))) :
    Attempted t store (.ok (), { t with buffer := "", files := some (t.grow files size) }, store')

theorem writeBuffer_attempted {t : Table} {files : Files} {before store : S}
    (opens : t.Opens (some files)) (filled : t.buffer ≠ "")
    (same : content? store = content? before) :
    Attempted t before ({ t with files := some files }.writeBuffer files store) := by
  unfold writeBuffer
  split
  · rename_i nothing
    exact .nowhere opens (List.getLast?_eq_none_iff.mp nothing) same
  · rename_i current last
    have measured := LawfulStorage.fileLen_content? current store
    split
    · rename_i fault store' failed
      rw [failed] at measured
      obtain ⟨problem, rfl⟩ := LawfulStorage.fileLen_io (congrArg Prod.fst failed)
      exact .failed opens (measured.trans same)
    · rename_i existing store' read
      rw [read] at measured
      have length := LawfulStorage.fileLen_ok (congrArg Prod.fst read)
      rw [same] at length measured
      have empty : existing = 0 ↔ (content? before current).getD "" = "" := by
        rw [length, String.utf8ByteSize_eq_zero_iff]
      simp only [empty]
      split
      · rename_i fault store'' failed
        have unchanged := LawfulStorage.append_failed (congrArg Prod.fst failed)
        rw [failed, measured] at unchanged
        obtain ⟨problem, rfl⟩ := LawfulStorage.append_io (congrArg Prod.fst failed)
        exact .failed opens unchanged
      · rename_i store'' wrote
        have changed := LawfulStorage.append_ok (congrArg Prod.fst wrote)
        rw [wrote, measured] at changed
        exact .flushed opens filled last changed

theorem write_attempted (t : Table) (store : S) : Attempted t store (t.write store) := by
  unfold write
  split
  · rename_i empty
    exact .idle empty
  · rename_i filled
    split
    · rename_i files there
      have same : t = { t with files := some files } := by rw [← there]
      have outcome : Attempted t store ({ t with files := some files }.writeBuffer files store) :=
        writeBuffer_attempted (.inl there.symm) filled rfl
      rwa [← same] at outcome
    · rename_i unknown
      obtain ⟨same, found, io⟩ := t.findFiles_spec store
      split
      · rename_i fault store' failed
        rw [failed] at same io
        obtain ⟨problem, rfl⟩ := io fault rfl
        exact .failed (.inl rfl) same
      · rename_i files store' succeeded
        rw [succeeded] at same found
        exact writeBuffer_attempted (.inr ⟨unknown, files, rfl, found files rfl⟩) filled same

end Table
end Telemetry.Csv
