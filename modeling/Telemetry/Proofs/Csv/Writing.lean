import Telemetry.Proofs.Csv.Attempts
import Telemetry.Proofs.Storage.Listing

/-! What one writing of a table can do. It puts all that waits behind the last of the
files, or it leaves every file as it was; in both cases the files that were known stay
known, and a writing that fails keeps what waits. -/
namespace Telemetry.Csv

variable {S : Type} [Storage S]
open LawfulStorage (content?)

/-- The directory in which the files of a rotation are looked for. -/
def Rotation.home (r : Rotation) : String :=
  if r.dir = "" then "." else r.dir

def Settings.home (s : Settings) : String :=
  (Rotation.ofPath s.path).home

namespace Table

/-- The files that a writing works with: those that are known, or else those that a
listing shows. -/
def Finds [LawfulListing S] (t : Table) (store : S) (files : Files) : Prop :=
  match t.files with
  | some known => files = known
  | none => ∃ found : List String, found.Nodup ∧
      (∀ path, path ∈ found ↔
        LawfulListing.Inside S t.settings.home path ∧ (content? store path).isSome) ∧
      files = adopt t.rotation t.settings.path found

/-- What a writing gives: its result, the table and the storage. -/
inductive Writing [LawfulListing S] (t : Table) (store : S) : Except Fault Unit × Table × S → Prop
  | idle (empty : t.buffer = "") : Writing t store (.ok (), t, store)
  /-- A request failed before the files were known. -/
  | unknown {fault : Fault} {store' : S} (same : content? store' = content? store) :
    Writing t store (.error fault, t, store')
  /-- A request failed when the files were known. -/
  | refused {fault : Fault} {store' : S} {files : Files} (finds : t.Finds store files)
    (same : content? store' = content? store) :
    Writing t store (.error fault, { t with files := some files }, store')
  | nowhere {store' : S} {files : Files} (finds : t.Finds store files) (nothing : files.paths = [])
    (same : content? store' = content? store) :
    Writing t store (.ok (), { t with files := some files }, store')
  | flushed {store' : S} {files : Files} {current : String} (finds : t.Finds store files)
    (filled : t.buffer ≠ "") (last : files.paths.getLast? = some current)
    (written : content? store' =
      Function.update (content? store) current (some (t.extended (content? store current)))) :
    Writing t store (.ok (),
      { t with
        buffer := ""
        files := some (t.grow files (t.extended (content? store current)).utf8ByteSize) }, store')

variable [LawfulListing S]

theorem findFiles_tidy (t : Table) {store : S} (tidy : LawfulListing.Tidy store) :
    LawfulListing.Tidy (t.findFiles store).2 := by
  unfold findFiles
  simp only
  split
  · rename_i made
    exact LawfulListing.of_made made tidy
  · rename_i store' made
    have listed_tidy := LawfulListing.listFiles_tidy
      (if t.rotation.dir = "" then "." else t.rotation.dir) (LawfulListing.of_made made tidy)
    split <;> rename_i listed <;> rwa [listed] at listed_tidy

theorem writeBuffer_tidy (t : Table) (files : Files) {store : S}
    (tidy : LawfulListing.Tidy store) : LawfulListing.Tidy (t.writeBuffer files store).2.2 := by
  unfold writeBuffer
  split
  · exact tidy
  · rename_i current _
    have measured := LawfulListing.fileLen_tidy current tidy
    split
    · rename_i read
      rwa [read] at measured
    · rename_i existing store' read
      rw [read] at measured
      have appended := LawfulListing.append_tidy current
        ((if existing = 0 then header else "") ++ t.buffer) measured
      simp only
      split <;> rename_i wrote <;> rwa [wrote] at appended

theorem write_tidy (t : Table) {store : S} (tidy : LawfulListing.Tidy store) :
    LawfulListing.Tidy (t.write store).2.2 := by
  unfold write
  split
  · exact tidy
  · split
    · exact writeBuffer_tidy _ _ tidy
    · have found := t.findFiles_tidy tidy
      split <;> rename_i result <;> rw [result] at found
      · exact found
      · exact writeBuffer_tidy _ _ found

/-- The search for files leaves them as they are, and finds what a listing shows. -/
theorem findFiles_finds (t : Table) {store : S} (tidy : LawfulListing.Tidy store)
    (unknown : t.files = none) :
    content? (t.findFiles store).2 = content? store ∧
      ∀ files, (t.findFiles store).1 = .ok files → t.Finds store files := by
  unfold findFiles
  simp only
  split
  · rename_i made
    exact ⟨(LawfulStorage.of_made made).1, fun files found => by cases found⟩
  · rename_i store' made
    have made_same := (LawfulStorage.of_made made).1
    have made_tidy := LawfulListing.of_made made tidy
    have listed_same := LawfulStorage.listFiles_content?
      (if t.rotation.dir = "" then "." else t.rotation.dir) store'
    split
    · rename_i listed
      rw [listed] at listed_same
      exact ⟨listed_same.trans made_same, fun files found => by cases found⟩
    · rename_i found store'' listed
      rw [listed] at listed_same
      refine ⟨listed_same.trans made_same, fun files same => ?_⟩
      cases same
      have shown := congrArg Prod.fst listed
      simp only [Finds, unknown]
      refine ⟨found, LawfulListing.listFiles_nodup made_tidy shown, fun path => ?_, rfl⟩
      rw [LawfulListing.mem_listFiles shown, made_same]
      rfl

theorem writeBuffer_cases (t : Table) {files : Files} {before store : S}
    (finds : t.Finds before files) (filled : t.buffer ≠ "")
    (same : content? store = content? before) :
    Writing t before ({ t with files := some files }.writeBuffer files store) := by
  unfold writeBuffer
  split
  · rename_i nothing
    exact .nowhere finds (List.getLast?_eq_none_iff.mp nothing) same
  · rename_i current last
    have measured := LawfulStorage.fileLen_content? current store
    split
    · rename_i fault store' failed
      rw [failed] at measured
      exact .refused finds (measured.trans same)
    · rename_i existing store' read
      rw [read] at measured
      have length := LawfulStorage.fileLen_ok (congrArg Prod.fst read)
      rw [same] at length measured
      have empty : existing = 0 ↔ (content? before current).getD "" = "" := by
        rw [length, String.utf8ByteSize_eq_zero_iff]
      simp only [empty]
      split
      · rename_i fault store'' failed
        have unchanged := LawfulStorage.append_failed (congrArg Prod.fst failed)
        rw [failed, measured] at unchanged
        exact .refused finds unchanged
      · rename_i store'' wrote
        have changed := LawfulStorage.append_ok (congrArg Prod.fst wrote)
        rw [wrote, measured] at changed
        have size : existing + ((if (content? before current).getD "" = "" then header else "") ++
            t.buffer).utf8ByteSize = (t.extended (content? before current)).utf8ByteSize := by
          simp only [length, extended, String.utf8ByteSize_append]
        rw [size]
        exact .flushed finds filled last changed

theorem write_cases (t : Table) {store : S} (tidy : LawfulListing.Tidy store) :
    Writing t store (t.write store) := by
  unfold write
  split
  · rename_i empty
    exact .idle empty
  · rename_i filled
    split
    · rename_i files known
      have finds : t.Finds store files := by simp only [Finds, known]
      have same : t = { t with files := some files } := by rw [← known]
      rw [same]
      have written := t.writeBuffer_cases finds filled rfl
      rwa [← same] at written ⊢
    · rename_i unknown
      obtain ⟨same, finds⟩ := t.findFiles_finds tidy unknown
      split
      · rename_i failed
        rw [failed] at same
        exact .unknown same
      · rename_i files store' found
        rw [found] at same finds
        exact t.writeBuffer_cases (finds files rfl) filled same

end Table
end Telemetry.Csv
